-- SUMMARY: The fields of a record are found in an object in whatever order and among whatever others.
import IngestCoordinator.Proofs.Json.Records
import Mathlib.Data.List.Nodup

/-!
# Objects as records

An object gives the fields of a record if every name in it is a text and no known name
stands in it twice. What is found under a name is then the value that stands behind it, so
neither the order of the fields matters nor what stands behind names that are not known.
An object renders a record if it has the record's fields, up to some that are left out, in
any order and with other fields between them.
-/

namespace IngestCoordinator.Json

variable {names omitted : List String} {fields : List (Bytes × Json)}
  {given : List (String × Json)} {name : String} {value : Json} {α : Type}

/-- The fields of an object under their names. -/
def entries : Json → List (String × Json)
  | .object fields => fields.filterMap fun field => (text? field.1).map (·, field.2)
  | _ => []

/-- A known name stands before two values. -/
def Repeats (names : List String) (fields : List (Bytes × Json)) : Prop :=
  ∃ first second name, [first, second].Sublist fields ∧ name ∈ names ∧
    text? first.1 = some name ∧ text? second.1 = some name

/-- A name that is needed does not stand in an object, or a known one stands in it twice. -/
def Spoiled (names required : List String) (fields : List (Bytes × Json)) : Prop :=
  (∃ name ∈ required, ∀ field ∈ fields, text? field.1 ≠ some name) ∨ Repeats names fields

theorem mem_entries_iff : (name, value) ∈ entries (.object fields) ↔
    ∃ lexeme, (lexeme, value) ∈ fields ∧ text? lexeme = some name := by
  rw [entries, List.mem_filterMap]
  constructor
  · rintro ⟨⟨lexeme, found⟩, hmem, hentry⟩
    obtain ⟨name', hname, heq⟩ := Option.map_eq_some_iff.1 hentry
    cases heq
    exact ⟨lexeme, hmem, hname⟩
  · rintro ⟨lexeme, hmem, hname⟩
    exact ⟨_, hmem, Option.map_eq_some_iff.2 ⟨name, hname, rfl⟩⟩

@[simp] theorem entries_record (given : List (String × Json)) : (record given).entries = given := by
  rw [record, entries, List.filterMap_map, List.filterMap_eq_map_iff_forall_eq_some.2, List.map_id]
  intro field _
  rw [Function.comp_apply, text?_lexeme, Option.map_some, id]

theorem WellFormed.of_mem_entries (h : WellFormed value) {field : String × Json}
    (hfield : field ∈ value.entries) : WellFormed field.2 := by
  cases h with
  | object _ hvalues =>
    obtain ⟨name, found⟩ := field
    obtain ⟨lexeme, hmem, -⟩ := mem_entries_iff.1 hfield
    exact hvalues _ hmem
  | _ => cases hfield

/-! ## What is found -/

/-- Two fields that do not stand behind the same known name. -/
def Differ (names : List String) (a b : Bytes × Json) : Prop :=
  ∀ name ∈ names, text? a.1 = some name → text? b.1 ≠ some name

theorem Differ.symm {a b : Bytes × Json} (h : Differ names a b) : Differ names b a :=
  fun name hname hb ha => h name hname ha hb

theorem not_repeats_iff : ¬ Repeats names fields ↔ fields.Pairwise (Differ names) := by
  rw [List.pairwise_iff_forall_sublist]
  constructor
  · intro h a b hsub name hname ha hb
    exact h ⟨a, b, name, hsub, hname, ha, hb⟩
  · rintro h ⟨a, b, name, hsub, hname, ha, hb⟩
    exact h hsub name hname ha hb

theorem mapM_eq_some_iff {β γ : Type} {f : β → Option γ} {items : List β} {results : List γ} :
    items.mapM f = some results ↔
      (∀ item ∈ items, (f item).isSome) ∧ items.filterMap f = results := by
  induction items generalizing results with
  | nil => exact ⟨fun h => ⟨List.forall_mem_nil _, Option.some.inj h⟩, fun h => congrArg some h.2⟩
  | cons item items ih =>
    rw [List.mapM_cons, List.forall_mem_cons]
    cases hitem : f item with
    | none => exact ⟨nofun, fun h => absurd h.1.1 Bool.false_ne_true⟩
    | some result =>
      rw [List.filterMap_cons_some hitem, Option.bind_eq_bind, Option.bind_some,
        Option.bind_eq_bind, Option.bind_eq_some_iff]
      constructor
      · rintro ⟨rest, hrest, heq⟩
        obtain ⟨hall, rfl⟩ := ih.1 hrest
        exact ⟨⟨rfl, hall⟩, Option.some.inj heq⟩
      · rintro ⟨⟨-, hall⟩, rfl⟩
        exact ⟨_, ih.2 ⟨hall, rfl⟩, rfl⟩

/-- The fields of an object whose names are known. -/
def known (names : List String) (fields : List (Bytes × Json)) : List (String × Json) :=
  (entries (.object fields)).filter fun field => names.contains field.1

theorem nodup_known_iff : ((known names fields).map (·.1)).Nodup ↔ ¬ Repeats names fields := by
  rw [not_repeats_iff, List.Nodup, List.pairwise_map, known, List.pairwise_filter, entries,
    List.pairwise_filterMap]
  refine iff_of_eq (congrArg (List.Pairwise · fields) ?_)
  funext a b
  simp only [Differ, Option.map_eq_some_iff, eq_iff_iff]
  constructor
  · intro h name hname ha hb
    exact h _ ⟨name, ha, rfl⟩ _ ⟨name, hb, rfl⟩ (by simpa using hname) (by simpa using hname) rfl
  · rintro h _ ⟨name, ha, rfl⟩ _ ⟨_, hb, rfl⟩ hname _ rfl
    exact h name (by simpa using hname) ha hb

/-- An object gives the fields of a record just if its names are texts and no known one repeats. -/
theorem Fields.ofJson?_object_iff {found : Fields} :
    Fields.ofJson? names (.object fields) = some found ↔
      (∀ field ∈ fields, (text? field.1).isSome) ∧ ¬ Repeats names fields ∧
        ⟨true, known names fields⟩ = found := by
  rw [Fields.ofJson?, Option.bind_eq_bind, Option.bind_eq_some_iff]
  constructor
  · rintro ⟨read, hread, hfound⟩
    obtain ⟨hall, rfl⟩ := mapM_eq_some_iff.1 hread
    obtain ⟨hnodup, hfound⟩ := Option.ite_none_right_eq_some.1 hfound
    exact ⟨by simpa using hall, nodup_known_iff.1 hnodup, Option.some.inj hfound⟩
  · rintro ⟨hall, hrepeats, rfl⟩
    refine ⟨_, mapM_eq_some_iff.2 ⟨by simpa using hall, rfl⟩, ?_⟩
    exact if_pos (nodup_known_iff.2 hrepeats)

theorem lookup_eq_some_iff_mem (h : (given.map (·.1)).Nodup) :
    given.lookup name = some value ↔ (name, value) ∈ given := by
  induction given with
  | nil => simp
  | cons field given ih =>
    obtain ⟨first, found⟩ := field
    obtain ⟨hfresh, hnodup⟩ := List.nodup_cons.1 h
    rw [List.mem_cons, Prod.mk.injEq]
    by_cases hname : name = first
    · subst hname
      have hno : (name, value) ∉ given := fun hmem => hfresh (List.mem_map.2 ⟨_, hmem, rfl⟩)
      simp [hno, eq_comm]
    · have hne : (name == first) = false := beq_eq_false_iff_ne.2 hname
      simp [List.lookup_cons, hne, hname, ih hnodup]

/-- What is found under a name is what stands behind it. -/
theorem Fields.lookup_iff {found : Fields}
    (h : Fields.ofJson? names (.object fields) = some found) :
    found.given.lookup name = some value ↔
      name ∈ names ∧ ∃ lexeme, (lexeme, value) ∈ fields ∧ text? lexeme = some name := by
  obtain ⟨-, hrepeats, rfl⟩ := Fields.ofJson?_object_iff.1 h
  rw [lookup_eq_some_iff_mem (nodup_known_iff.2 hrepeats), known, List.mem_filter,
    mem_entries_iff, List.contains_iff_mem, and_comm]

/-- So a record cannot be read if a field that is needed is not there. -/
theorem Fields.not_spoiled {required : List String} {found : Fields}
    (h : Fields.ofJson? names (.object fields) = some found)
    (hrequired : ∀ name ∈ required, (found.given.lookup name).isSome) :
    ¬ Spoiled names required fields := by
  rintro (⟨name, hname, hmissing⟩ | hrepeats)
  · obtain ⟨value, hvalue⟩ := Option.isSome_iff_exists.1 (hrequired name hname)
    obtain ⟨-, lexeme, hmem, htext⟩ := (Fields.lookup_iff h).1 hvalue
    exact hmissing _ hmem htext
  · exact (Fields.ofJson?_object_iff.1 h).2.1 hrepeats

/-- The fields with another value under one of their names. -/
def setField (name : String) (value : Json) (given : List (String × Json)) : List (String × Json) :=
  given.map fun field => if field.1 = name then (name, value) else field

theorem map_fst_setField : (setField name value given).map (·.1) = given.map (·.1) := by
  rw [setField, List.map_map]
  refine List.map_congr_left fun field _ => ?_
  rw [Function.comp_apply]
  split
  · rename_i hname
    exact hname.symm
  · rfl

theorem of_mem_setField {field : String × Json} (h : field ∈ setField name value given) :
    field = (name, value) ∨ field ∈ given := by
  obtain ⟨old, hold, rfl⟩ := List.mem_map.1 h
  split
  · exact .inl rfl
  · exact .inr hold

theorem lookup_setField (other : String) : (setField name value given).lookup other =
    if other = name then (given.lookup name).map fun _ => value else given.lookup other := by
  induction given with
  | nil => simp [setField]
  | cons field given ih =>
    obtain ⟨first, found⟩ := field
    rw [setField, List.map_cons, ← setField]
    by_cases hfirst : first = name
    · subst hfirst
      rw [if_pos rfl]
      by_cases hother : other = first
      · simp [hother]
      · have hne : (other == first) = false := beq_eq_false_iff_ne.2 hother
        simp [List.lookup_cons, hne, ih, hother]
    · rw [if_neg hfirst]
      by_cases hother : other = first
      · subst hother
        simp [hfirst]
      · have hne : (other == first) = false := beq_eq_false_iff_ne.2 hother
        have hne' : (name == first) = false := beq_eq_false_iff_ne.2 (Ne.symm hfirst)
        simp [List.lookup_cons, hne, hne', ih]

/-! ## Objects that render a record -/

/-- A field that no record with these names has. -/
structure Foreign (names : List String) (field : Bytes × Json) : Prop where
  lexeme : IsStringLexeme field.1
  wellFormed : WellFormed field.2
  unknown : ∃ name, text? field.1 = some name ∧ name ∉ names

theorem Foreign.differ {a b : Bytes × Json} (h : Foreign names a) : Differ names a b := by
  obtain ⟨name, htext, hunknown⟩ := h.unknown
  intro name' hname' ha
  cases htext.symm.trans ha
  exact absurd hname' hunknown

/-- The fields of a record but for some that are left out, in any order among foreign ones. -/
def Renders (names : List String) (given : List (String × Json)) (omitted : List String)
    (fields : List (Bytes × Json)) : Prop :=
  ∃ foreign : List (Bytes × Json), (∀ field ∈ foreign, Foreign names field) ∧
    fields.Perm ((given.filter fun field => field.1 ∉ omitted).map
      (fun field => (lexeme field.1, field.2)) ++ foreign)

namespace Renders

theorem wellFormed (h : Renders names given omitted fields)
    (hgiven : ∀ field ∈ given, WellFormed field.2) : WellFormed (.object fields) := by
  obtain ⟨foreign, hforeign, hperm⟩ := h
  have hfield : ∀ field ∈ fields, IsStringLexeme field.1 ∧ WellFormed field.2 := by
    intro field hmem
    rcases List.mem_append.1 (hperm.mem_iff.1 hmem) with hmem | hmem
    · obtain ⟨kept, hkept, rfl⟩ := List.mem_map.1 hmem
      exact ⟨isStringLexeme_lexeme kept.1, hgiven kept (List.mem_of_mem_filter hkept)⟩
    · exact ⟨(hforeign field hmem).lexeme, (hforeign field hmem).wellFormed⟩
  exact .object (fun field hmem => (hfield field hmem).1) fun field hmem => (hfield field hmem).2

/-- A known name stands behind just the value that the record has under it, unless left out. -/
theorem exists_iff (h : Renders names given omitted fields) (hname : name ∈ names) :
    (∃ lexeme, (lexeme, value) ∈ fields ∧ text? lexeme = some name) ↔
      (name, value) ∈ given ∧ name ∉ omitted := by
  obtain ⟨foreign, hforeign, hperm⟩ := h
  constructor
  · rintro ⟨lexeme, hmem, htext⟩
    rcases List.mem_append.1 (hperm.mem_iff.1 hmem) with hmem | hmem
    · obtain ⟨kept, hkept, heq⟩ := List.mem_map.1 hmem
      cases heq
      cases (text?_lexeme kept.1).symm.trans htext
      simpa using List.mem_filter.1 hkept
    · obtain ⟨name', htext', hunknown⟩ := (hforeign _ hmem).unknown
      cases htext'.symm.trans htext
      exact absurd hname hunknown
  · rintro ⟨hmem, hkept⟩
    have hfield : (name, value) ∈ given.filter fun field => field.1 ∉ omitted :=
      List.mem_filter.2 ⟨hmem, by simpa using hkept⟩
    exact ⟨lexeme name, hperm.mem_iff.2 (List.mem_append_left _ (List.mem_map_of_mem hfield)),
      text?_lexeme name⟩

theorem not_repeats (h : Renders names given omitted fields) (honce : (given.map (·.1)).Nodup) :
    ¬ Repeats names fields := by
  obtain ⟨foreign, hforeign, hperm⟩ := h
  rw [not_repeats_iff, hperm.pairwise_iff Differ.symm, List.pairwise_append, List.pairwise_map]
  refine ⟨?_, ?_, ?_⟩
  · refine ((List.pairwise_map.1 honce).filter _).imp fun {a b} hne name _ ha hb => hne ?_
    have hsame : some a.1 = some b.1 := by
      rw [← text?_lexeme a.1, ← text?_lexeme b.1, ha, hb]
    exact Option.some.inj hsame
  · exact List.pairwise_of_forall_mem_list fun a ha b _ => (hforeign a ha).differ
  · exact fun a _ b hb => (hforeign b hb).differ.symm

/-- What is found in an object that renders a record is what the record has, unless left out. -/
theorem exists_found (h : Renders names given omitted fields) (hnames : given.map (·.1) = names)
    (honce : names.Nodup) : ∃ found,
      Fields.ofJson? names (.object fields) = some found ∧ found.named = true ∧
      ∀ name, found.given.lookup name = if name ∈ omitted then none else given.lookup name := by
  rw [← hnames] at honce
  have htext : ∀ field ∈ fields, (text? field.1).isSome := by
    intro field hmem
    obtain ⟨foreign, hforeign, hperm⟩ := h
    rcases List.mem_append.1 (hperm.mem_iff.1 hmem) with hmem | hmem
    · obtain ⟨kept, -, rfl⟩ := List.mem_map.1 hmem
      exact Option.isSome_iff_exists.2 ⟨_, text?_lexeme kept.1⟩
    · obtain ⟨name, hname, -⟩ := (hforeign _ hmem).unknown
      exact Option.isSome_iff_exists.2 ⟨_, hname⟩
  have hread := Fields.ofJson?_object_iff.2 ⟨htext, h.not_repeats honce, rfl⟩
  refine ⟨_, hread, rfl, fun name => Option.ext fun value => ?_⟩
  rw [Fields.lookup_iff hread, Option.ite_none_left_eq_some, lookup_eq_some_iff_mem honce]
  constructor
  · rintro ⟨hname, hexists⟩
    exact ((h.exists_iff hname).1 hexists).symm
  · rintro ⟨hkept, hmem⟩
    have hname : name ∈ names := hnames ▸ List.mem_map_of_mem hmem
    exact ⟨hname, (h.exists_iff hname).2 ⟨hmem, hkept⟩⟩

end Renders

/-- A value that is written as a record gives all its fields. -/
theorem Fields.ofJson?_own (hvalue : value = record given) (hnames : given.map (·.1) = names)
    (honce : names.Nodup) : Fields.ofJson? names value = some ⟨true, value.entries⟩ := by
  rw [hvalue, entries_record]
  rw [← hnames] at honce
  exact Fields.ofJson?_record (fun _ hfield => hnames ▸ List.mem_map_of_mem hfield) honce

/-- An object with the fields that are not left out, in order and without foreign ones. -/
theorem renders_kept (names : List String) (given : List (String × Json)) (omitted : List String) :
    Renders names given omitted ((given.filter fun field => field.1 ∉ omitted).map
      fun field => (lexeme field.1, field.2)) :=
  ⟨[], List.forall_mem_nil _, .of_eq (List.append_nil _).symm⟩

/-- A field that is needed must not be left out. -/
theorem Renders.spoiled {required : List String} (h : Renders names given omitted fields)
    (hrequired : name ∈ required) (hname : name ∈ names) (homitted : name ∈ omitted) :
    Spoiled names required fields := by
  refine .inl ⟨name, hrequired, fun field hmem htext => ?_⟩
  exact ((h.exists_iff hname).1 ⟨field.1, hmem, htext⟩).2 homitted

/-! ## Fields that are left out -/

variable {found found' : Fields} {read? : Json → Option α} {default item : α}

theorem Fields.isSome_of_required (h : found.required name read? = some item) :
    (found.given.lookup name).isSome := by
  obtain ⟨value, hvalue, -⟩ := Option.bind_eq_some_iff.1 h
  exact Option.isSome_iff_exists.2 ⟨value, hvalue⟩

theorem Fields.required_congr (h : found'.given.lookup name = found.given.lookup name)
    (read? : Json → Option α) : found'.required name read? = found.required name read? :=
  congrArg (Option.bind · read?) h

/-- A field with a default is read as before if it is left out only where it holds the default. -/
theorem Fields.defaulted_of_omitted
    (hlookup : found'.given.lookup name =
      if name ∈ omitted then none else found.given.lookup name)
    (hread : found.defaulted name default read? = some item)
    (homitted : name ∈ omitted → item = default) :
    found'.defaulted name default read? = some item := by
  rw [Fields.defaulted, hlookup]
  by_cases hname : name ∈ omitted
  · rw [if_pos hname, homitted hname]
  · rw [if_neg hname]
    exact hread

theorem Fields.optional_of_omitted {item : Option α} (hnamed : found'.named = true)
    (hnamed' : found.named = true)
    (hlookup : found'.given.lookup name =
      if name ∈ omitted then none else found.given.lookup name)
    (hread : found.optional name read? = some item) (homitted : name ∈ omitted → item = none) :
    found'.optional name read? = some item := by
  rw [Fields.optional, hlookup, hnamed]
  by_cases hname : name ∈ omitted
  · rw [if_pos hname, homitted hname]
    rfl
  · rw [if_neg hname]
    rw [Fields.optional, hnamed'] at hread
    exact hread

end IngestCoordinator.Json
