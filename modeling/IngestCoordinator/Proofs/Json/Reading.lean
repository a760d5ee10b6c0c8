-- SUMMARY: What is written as JSON, with blanks or without, is read back: tokens, values and whole texts.
import IngestCoordinator.Json.Record
import Mathlib.Data.List.Chain

/-!
# Reading JSON back

A value whose lexemes are of the grammar is written as a text from which the
scanner recovers its tokens and the reader the value. Blanks may stand between the
tokens and around them. They are not needed: words and numbers are taken as long as
they go, but in the tokens of a value no two of them stand side by side. The reader
goes on with whatever the value stands in. Main statements: `parse?_of_spaced` and
`parse?_write`.
-/

namespace IngestCoordinator.Json

/-- Text that does not continue a word or a number. -/
def EndsToken (rest : Bytes) : Prop :=
  ∀ b ∈ rest.head?, isLower b = false ∧ Number.isNumberByte b = false

/-- A lexeme that a closing quote ends where it ends. -/
def IsStringLexeme (lexeme : Bytes) : Prop :=
  ∀ rest, splitString? (lexeme ++ 34 :: rest) = some (lexeme, rest)

/-- A lexeme of the number grammar. -/
structure IsNumberLexeme (lexeme : Bytes) : Prop where
  isNumber : Number.isNumber lexeme = true
  bytes : ∀ b ∈ lexeme, Number.isNumberByte b = true

/-- A value whose lexemes are of the grammar. -/
inductive WellFormed : Json → Prop where
  | null : WellFormed .null
  | bool (value : Bool) : WellFormed (.bool value)
  | number {lexeme : Bytes} (h : IsNumberLexeme lexeme) : WellFormed (.number lexeme)
  | string {lexeme : Bytes} (h : IsStringLexeme lexeme) : WellFormed (.string lexeme)
  | array {items : List Json} (h : ∀ item ∈ items, WellFormed item) : WellFormed (.array items)
  | object {fields : List (Bytes × Json)} (hname : ∀ field ∈ fields, IsStringLexeme field.1)
      (h : ∀ field ∈ fields, WellFormed field.2) : WellFormed (.object fields)

theorem endsToken_nil : EndsToken [] := by
  intro b hb
  cases hb

theorem endsToken_cons {b : UInt8} (rest : Bytes) (hl : isLower b = false)
    (hn : Number.isNumberByte b = false) : EndsToken (b :: rest) := by
  intro c hc
  cases hc
  exact ⟨hl, hn⟩

theorem EndsToken.takeWhile_isLower {rest : Bytes} (h : EndsToken rest) :
    rest.takeWhile isLower = [] := by
  cases rest with
  | nil => rfl
  | cons b rest => rw [List.takeWhile_cons_of_neg (by simp [(h b rfl).1])]

theorem EndsToken.dropWhile_isLower {rest : Bytes} (h : EndsToken rest) :
    rest.dropWhile isLower = rest := by
  cases rest with
  | nil => rfl
  | cons b rest => rw [List.dropWhile_cons_of_neg (by simp [(h b rfl).1])]

theorem EndsToken.takeWhile_isNumberByte {rest : Bytes} (h : EndsToken rest) :
    rest.takeWhile Number.isNumberByte = [] := by
  cases rest with
  | nil => rfl
  | cons b rest => rw [List.takeWhile_cons_of_neg (by simp [(h b rfl).2])]

theorem EndsToken.dropWhile_isNumberByte {rest : Bytes} (h : EndsToken rest) :
    rest.dropWhile Number.isNumberByte = rest := by
  cases rest with
  | nil => rfl
  | cons b rest => rw [List.dropWhile_cons_of_neg (by simp [(h b rfl).2])]

/-! ## Tokens -/

theorem scan_cons_ofByte? {b : UInt8} {token : Token} (hb : isBlank b = false) (hq : b ≠ 34)
    (hl : isLower b = false) (ht : Token.ofByte? b = some token) (rest : Bytes) :
    Token.scan (b :: rest) = (Token.scan rest).map (token :: ·) := by
  rw [Token.scan]
  simp [hb, hq, hl, ht]

theorem scan_word {b : UInt8} {bs rest : Bytes} {token : Token}
    (hw : ∀ c ∈ b :: bs, isLower c = true) (ht : Token.ofWord? (b :: bs) = some token)
    (hrest : EndsToken rest) :
    Token.scan (b :: bs ++ rest) = (Token.scan rest).map (token :: ·) := by
  obtain ⟨hb, hbs⟩ := List.forall_mem_cons.1 hw
  have hblank : isBlank b = false := by
    simp only [isLower, Bool.and_eq_true, decide_eq_true_eq] at hb
    have h97 : (97 : UInt8).toNat ≤ b.toNat := UInt8.le_iff_toNat_le.1 hb.1
    simp only [isBlank, Bool.or_eq_false_iff, beq_eq_false_iff_ne]
    refine ⟨⟨⟨?_, ?_⟩, ?_⟩, ?_⟩ <;> rintro rfl <;> revert h97 <;> decide
  have hquote : b ≠ 34 := by
    rintro rfl
    revert hb
    decide
  have htake : (bs ++ rest).takeWhile isLower = bs := by
    rw [List.takeWhile_append_of_pos hbs, hrest.takeWhile_isLower, List.append_nil]
  have hdrop : (bs ++ rest).dropWhile isLower = rest := by
    rw [List.dropWhile_append_of_pos hbs, hrest.dropWhile_isLower]
  rw [List.cons_append, Token.scan]
  simp [hblank, hquote, hb, htake, hdrop, ht]

theorem scan_string {lexeme : Bytes} (h : IsStringLexeme lexeme) (rest : Bytes) :
    Token.scan (34 :: (lexeme ++ 34 :: rest)) =
      (Token.scan rest).map (.string lexeme :: ·) := by
  have hblank : isBlank 34 = false := by decide
  rw [Token.scan, hblank]
  simp only [Bool.false_eq_true, if_false, if_true]
  split
  · rename_i hnone
    rw [h rest] at hnone
    cases hnone
  · rename_i found rest' hsome
    rw [h rest] at hsome
    cases hsome
    rfl

/-- A number starts with a minus sign or a digit. -/
theorem head_of_isNumber {b : UInt8} {bs : Bytes} (h : Number.isNumber (b :: bs) = true) :
    b = 45 ∨ Bytes.isDigit b = true := by
  by_cases hb : b = 45
  · exact .inl hb
  · right
    rw [Number.isNumber.eq_def] at h
    split at h
    · rename_i heq
      cases heq
      exact absurd rfl hb
    · rw [Number.isMagnitude] at h
      split at h
      · rename_i hzero
        rw [beq_iff_eq] at hzero
        subst hzero
        decide
      · exact (Bool.and_eq_true_iff.1 h).1

theorem scan_number {lexeme rest : Bytes} (h : IsNumberLexeme lexeme) (hrest : EndsToken rest) :
    Token.scan (lexeme ++ rest) = (Token.scan rest).map (.number lexeme :: ·) := by
  obtain ⟨hnumber, hbytes⟩ := h
  cases lexeme with
  | nil => cases hnumber
  | cons b bs =>
    have hbs := (List.forall_mem_cons.1 hbytes).2
    have htake : (bs ++ rest).takeWhile Number.isNumberByte = bs := by
      rw [List.takeWhile_append_of_pos hbs, hrest.takeWhile_isNumberByte, List.append_nil]
    have hdrop : (bs ++ rest).dropWhile Number.isNumberByte = rest := by
      rw [List.dropWhile_append_of_pos hbs, hrest.dropWhile_isNumberByte]
    have hfirst : isBlank b = false ∧ b ≠ 34 ∧ isLower b = false ∧ Token.ofByte? b = none := by
      have hall : ∀ n : Fin 256, UInt8.ofNat n = 45 ∨ Bytes.isDigit (UInt8.ofNat n) = true →
          isBlank (UInt8.ofNat n) = false ∧ UInt8.ofNat n ≠ 34 ∧
            isLower (UInt8.ofNat n) = false ∧ Token.ofByte? (UInt8.ofNat n) = none := by
        decide +kernel
      have hb := hall ⟨b.toNat, b.toNat_lt⟩
      rw [UInt8.ofNat_toNat] at hb
      exact hb (head_of_isNumber hnumber)
    obtain ⟨hblank, hquote, hlower, hbyte⟩ := hfirst
    rw [List.cons_append, Token.scan]
    simp [hblank, hquote, hlower, hbyte, htake, hdrop, hnumber]

theorem scan_blanks {blanks : Bytes} (h : ∀ b ∈ blanks, isBlank b = true) (rest : Bytes) :
    Token.scan (blanks ++ rest) = Token.scan rest := by
  induction blanks with
  | nil => rfl
  | cons b blanks ih =>
    obtain ⟨hb, hblanks⟩ := List.forall_mem_cons.1 h
    rw [List.cons_append, Token.scan, if_pos hb, ih hblanks]

/-- A token that is taken as long as it goes. -/
def Token.isRun : Token → Bool
  | .null => true
  | .bool _ => true
  | .number _ => true
  | _ => false

/-- A token whose lexeme is of the grammar. -/
def Token.Valid : Token → Prop
  | .number lexeme => IsNumberLexeme lexeme
  | .string lexeme => IsStringLexeme lexeme
  | _ => True

/-- A token is scanned as it is written, if what follows does not continue it. -/
theorem scan_write {token : Token} (hvalid : token.Valid) {rest : Bytes}
    (hrest : token.isRun = true → EndsToken rest) :
    Token.scan (token.write ++ rest) = (Token.scan rest).map (token :: ·) := by
  cases token with
  | openBrace => exact scan_cons_ofByte? (by decide) (by decide) (by decide) (by decide) rest
  | closeBrace => exact scan_cons_ofByte? (by decide) (by decide) (by decide) (by decide) rest
  | openBracket => exact scan_cons_ofByte? (by decide) (by decide) (by decide) (by decide) rest
  | closeBracket => exact scan_cons_ofByte? (by decide) (by decide) (by decide) (by decide) rest
  | comma => exact scan_cons_ofByte? (by decide) (by decide) (by decide) (by decide) rest
  | colon => exact scan_cons_ofByte? (by decide) (by decide) (by decide) (by decide) rest
  | null =>
    have hw : Bytes.ofString "null" = [110, 117, 108, 108] := by decide +kernel
    rw [Token.write, hw]
    exact scan_word (by decide +kernel) (by decide) (hrest rfl)
  | bool value =>
    cases value with
    | true =>
      have hw : Bytes.ofString "true" = [116, 114, 117, 101] := by decide +kernel
      rw [Token.write, hw]
      exact scan_word (by decide +kernel) (by decide) (hrest rfl)
    | false =>
      have hw : Bytes.ofString "false" = [102, 97, 108, 115, 101] := by decide +kernel
      rw [Token.write, hw]
      exact scan_word (by decide +kernel) (by decide) (hrest rfl)
  | number lexeme => exact scan_number hvalid (hrest rfl)
  | string lexeme =>
    rw [Token.write, List.cons_append, List.append_assoc]
    exact scan_string hvalid rest

/-! ## Texts of tokens -/

/-- A text of tokens, with blanks before them, between them and after them. -/
inductive Spaced : List Token → Bytes → Prop where
  | nil {blanks : Bytes} (hblanks : ∀ b ∈ blanks, isBlank b = true) : Spaced [] blanks
  | cons {blanks text : Bytes} {token : Token} {tokens : List Token}
      (hblanks : ∀ b ∈ blanks, isBlank b = true) (h : Spaced tokens text) :
      Spaced (token :: tokens) (blanks ++ (token.write ++ text))

/-- Tokens that stay apart if they are written without blanks. -/
structure Writable (sequence : List Token) : Prop where
  valid : ∀ token ∈ sequence, token.Valid
  apart : sequence.IsChain fun a b => a.isRun = false ∨ b.isRun = false

variable {sequence before after : List Token} {text : Bytes}

/-- The same blanks may stand before each token, or none. -/
theorem spaced_flatMap {blanks : Bytes} (hblanks : ∀ b ∈ blanks, isBlank b = true)
    (sequence : List Token) :
    Spaced sequence (sequence.flatMap fun token => blanks ++ token.write) := by
  induction sequence with
  | nil => exact .nil (List.forall_mem_nil _)
  | cons token sequence ih =>
    rw [List.flatMap_cons, List.append_assoc]
    exact .cons hblanks ih

theorem endsToken_blank {b : UInt8} (hb : isBlank b = true) (rest : Bytes) :
    EndsToken (b :: rest) := by
  simp only [isBlank, Bool.or_eq_true, beq_iff_eq] at hb
  obtain ((rfl | rfl) | rfl) | rfl := hb
  all_goals exact endsToken_cons rest (by decide) (by decide)

/-- Only a word or a number could continue a word or a number. -/
theorem Spaced.endsToken (h : Spaced sequence text)
    (hfirst : ∀ token ∈ sequence.head?, token.isRun = false) : EndsToken text := by
  cases h with
  | nil hblanks =>
    cases text with
    | nil => exact endsToken_nil
    | cons b text => exact endsToken_blank (hblanks b List.mem_cons_self) text
  | @cons blanks text token sequence hblanks _ =>
    cases blanks with
    | nil =>
      cases token with
      | null => cases hfirst _ rfl
      | bool value => cases hfirst _ rfl
      | number lexeme => cases hfirst _ rfl
      | _ => exact endsToken_cons _ (by decide) (by decide)
    | cons b blanks => exact endsToken_blank (hblanks b List.mem_cons_self) _

theorem Writable.scan (h : Writable sequence) (htext : Spaced sequence text) :
    Token.scan text = some sequence := by
  induction htext with
  | nil hblanks =>
    have hscan := scan_blanks hblanks []
    rw [List.append_nil, Token.scan] at hscan
    exact hscan
  | @cons blanks text token sequence hblanks hspaced ih =>
    obtain ⟨hvalid, hvalids⟩ := List.forall_mem_cons.1 h.valid
    obtain ⟨hnext, hapart⟩ := List.isChain_cons.1 h.apart
    have hrest (hrun : token.isRun = true) : EndsToken text := by
      refine hspaced.endsToken fun next hmem => (hnext next hmem).resolve_left ?_
      rw [hrun]
      exact Bool.noConfusion
    rw [scan_blanks hblanks, scan_write hvalid hrest, ih ⟨hvalids, hapart⟩, Option.map_some]

theorem writable_nil : Writable [] :=
  ⟨nofun, .nil⟩

theorem writable_singleton {token : Token} (hvalid : token.Valid) : Writable [token] :=
  ⟨fun _ hmem => List.mem_singleton.1 hmem ▸ hvalid, .singleton _⟩

/-- A mark keeps what stands on its sides apart. -/
theorem Writable.append_cons {mark : Token} (hbefore : Writable before) (hvalid : mark.Valid)
    (hmark : mark.isRun = false) (hafter : Writable after) :
    Writable (before ++ mark :: after) where
  valid := by
    intro token hmem
    rcases List.mem_append.1 hmem with hmem | hmem
    · exact hbefore.valid token hmem
    · rcases List.mem_cons.1 hmem with rfl | hmem
      · exact hvalid
      · exact hafter.valid token hmem
  apart := by
    refine List.isChain_append.2 ⟨hbefore.apart, ?_, fun a _ b hb => ?_⟩
    · exact List.isChain_cons.2 ⟨fun b _ => .inl hmark, hafter.apart⟩
    · cases hb
      exact .inr hmark

theorem Writable.cons {mark : Token} (hvalid : mark.Valid) (hmark : mark.isRun = false)
    (hafter : Writable after) : Writable (mark :: after) :=
  writable_nil.append_cons hvalid hmark hafter

/-! ## Values -/

/-- Sequences of tokens with commas between them. -/
def separated : List (List Token) → List Token
  | [] => []
  | piece :: pieces => piece ++ pieces.flatMap (.comma :: ·)

theorem moreItemTokens_eq (items : List Json) :
    moreItemTokens items = (items.map tokens).flatMap (.comma :: ·) := by
  induction items with
  | nil => rfl
  | cons item items ih => simp [moreItemTokens, ih]

theorem itemTokens_eq (items : List Json) : itemTokens items = separated (items.map tokens) := by
  cases items with
  | nil => rfl
  | cons item items => rw [itemTokens, moreItemTokens_eq, List.map_cons, separated]

theorem moreFieldTokens_eq (fields : List (Bytes × Json)) :
    moreFieldTokens fields = (fields.map pairTokens).flatMap (.comma :: ·) := by
  induction fields with
  | nil => rfl
  | cons field fields ih => simp [moreFieldTokens, ih]

theorem fieldTokens_eq (fields : List (Bytes × Json)) :
    fieldTokens fields = separated (fields.map pairTokens) := by
  cases fields with
  | nil => rfl
  | cons field fields => rw [fieldTokens, moreFieldTokens_eq, List.map_cons, separated]

theorem writable_separated {pieces : List (List Token)} (h : ∀ piece ∈ pieces, Writable piece) :
    Writable (separated pieces) := by
  cases pieces with
  | nil => exact writable_nil
  | cons piece pieces =>
    induction pieces generalizing piece with
    | nil =>
      rw [separated, List.flatMap_nil, List.append_nil]
      exact h piece List.mem_cons_self
    | cons next pieces ih =>
      obtain ⟨hpiece, hpieces⟩ := List.forall_mem_cons.1 h
      obtain ⟨hnext, hpieces⟩ := List.forall_mem_cons.1 hpieces
      have hjoined := ih (piece ++ .comma :: next)
        (List.forall_mem_cons.2 ⟨hpiece.append_cons trivial rfl hnext, hpieces⟩)
      simpa [separated] using hjoined

theorem writable_pair {name : Bytes} {value : Json} (hname : IsStringLexeme name)
    (h : Writable value.tokens) : Writable (pairTokens (name, value)) :=
  .cons hname rfl (.cons trivial rfl h)

theorem WellFormed.writable {value : Json} (h : WellFormed value) : Writable value.tokens := by
  induction h with
  | null => exact writable_singleton trivial
  | bool value => exact writable_singleton trivial
  | number h => exact writable_singleton h
  | string h => exact writable_singleton h
  | @array items _ ih =>
    have hitems : Writable (itemTokens items) := by
      rw [itemTokens_eq]
      exact writable_separated (List.forall_mem_map.2 ih)
    exact .cons trivial rfl (hitems.append_cons trivial rfl writable_nil)
  | @object fields hname _ ih =>
    have hfields : Writable (fieldTokens fields) := by
      rw [fieldTokens_eq]
      exact writable_separated
        (List.forall_mem_map.2 fun field hf => writable_pair (hname field hf) (ih field hf))
    exact .cons trivial rfl (hfields.append_cons trivial rfl writable_nil)

/-! ## Whole texts -/

/-- A value is read off its tokens, in whatever it stands and whatever follows. -/
def ReadsBack (value : Json) : Prop :=
  ∀ rest open_, readValue (value.tokens ++ rest) open_ = resume value rest open_

/-- No value starts with the token that closes an array. -/
theorem tokens_eq_cons (value : Json) :
    ∃ token more, value.tokens = token :: more ∧ token ≠ .closeBracket := by
  cases value <;> exact ⟨_, _, rfl, by simp⟩

theorem resume_moreItems {items : List Json} (h : ∀ item ∈ items, ReadsBack item)
    (value : Json) (before : List Json) (rest : List Token) (open_ : List Frame) :
    resume value (moreItemTokens items ++ .closeBracket :: rest) (.items before :: open_) =
      resume (.array (before.reverse ++ value :: items)) rest open_ := by
  induction items generalizing value before with
  | nil => simp [moreItemTokens, resume]
  | cons item items ih =>
    obtain ⟨hitem, hitems⟩ := List.forall_mem_cons.1 h
    rw [moreItemTokens, List.cons_append, List.append_assoc, resume, hitem, ih hitems]
    simp

theorem resume_moreFields {fields : List (Bytes × Json)}
    (h : ∀ field ∈ fields, ReadsBack field.2) (name : Bytes) (value : Json)
    (before : List (Bytes × Json)) (rest : List Token) (open_ : List Frame) :
    resume value (moreFieldTokens fields ++ .closeBrace :: rest) (.fields before name :: open_) =
      resume (.object (before.reverse ++ (name, value) :: fields)) rest open_ := by
  induction fields generalizing name value before with
  | nil => simp [moreFieldTokens, resume]
  | cons field fields ih =>
    obtain ⟨hfield, hfields⟩ := List.forall_mem_cons.1 h
    rw [moreFieldTokens, pairTokens, List.cons_append, List.append_assoc, List.cons_append,
      List.cons_append, resume, hfield, ih hfields]
    simp

theorem WellFormed.readsBack {value : Json} (h : WellFormed value) : ReadsBack value := by
  induction h with
  | null => intro rest open_; simp [tokens, readValue]
  | bool value => intro rest open_; simp [tokens, readValue]
  | number h => intro rest open_; simp [tokens, readValue]
  | string h => intro rest open_; simp [tokens, readValue]
  | @array items _ ih =>
    intro rest open_
    cases items with
    | nil => simp [tokens, itemTokens, readValue]
    | cons item items =>
      obtain ⟨hitem, hmore⟩ := List.forall_mem_cons.1 ih
      have hopen : readValue (tokens (.array (item :: items)) ++ rest) open_ =
          readValue (item.tokens ++ (moreItemTokens items ++ .closeBracket :: rest))
            (.items [] :: open_) := by
        obtain ⟨token, more, heq, hne⟩ := tokens_eq_cons item
        simp only [tokens, itemTokens, heq, List.cons_append, List.append_assoc, List.nil_append]
        rw [readValue]
        simpa using hne
      rw [hopen, hitem, resume_moreItems hmore]
      simp
  | @object fields _ _ ih =>
    intro rest open_
    cases fields with
    | nil => simp [tokens, fieldTokens, readValue]
    | cons field fields =>
      obtain ⟨name, value⟩ := field
      obtain ⟨hfield, hmore⟩ := List.forall_mem_cons.1 ih
      have hopen : readValue (tokens (.object ((name, value) :: fields)) ++ rest) open_ =
          readValue (value.tokens ++ (moreFieldTokens fields ++ .closeBrace :: rest))
            (.fields [] name :: open_) := by
        simp only [tokens, fieldTokens, pairTokens, List.cons_append, List.append_assoc,
          List.nil_append]
        rw [readValue]
      rw [hopen, hfield, resume_moreFields hmore]
      simp

/-- A well-formed value is read back from any text of its tokens. -/
theorem parse?_of_spaced {value : Json} (h : WellFormed value) (htext : Spaced value.tokens text) :
    parse? text = some value := by
  have hread := h.readsBack [] []
  rw [List.append_nil, resume] at hread
  rw [parse?, h.writable.scan htext, Option.bind_some, ofTokens?, hread]

theorem parse?_write {value : Json} (h : WellFormed value) : parse? value.write = some value :=
  parse?_of_spaced h (spaced_flatMap (List.forall_mem_nil _) value.tokens)

end IngestCoordinator.Json
