-- SUMMARY: Written strings, numbers, lists and records are well-formed and read back.
import IngestCoordinator.Proofs.Json.Reading

/-!
# Parts of records

Each way of making a JSON value has two lemmas: the value is well-formed, so its
text is read back as the value, and the reader of its kind gives what was written.
The round trip of a record type is then put together from those of its fields.
-/

namespace IngestCoordinator.Json

/-! ## Strings -/

theorem hexDigit?_hexDigit_isSome {n : Nat} (h : n < 16) :
    (Bytes.hexDigit? (Bytes.hexDigit n)).isSome = true := by
  rw [hexDigit?_hexDigit h, Option.isSome_some]

theorem splitString?_cons {b : UInt8} (hq : b ≠ 34) (hc : ¬ b < 32) (hs : b ≠ 92) (bs : Bytes) :
    splitString? (b :: bs) = (splitString? bs).map fun (l, r) => (b :: l, r) := by
  rw [splitString?.eq_def]
  simp [hq, hc, hs]

theorem splitString?_short {e : UInt8} (hu : e ≠ 117) (he : isShortEscape e = true) (bs : Bytes) :
    splitString? (92 :: e :: bs) = (splitString? bs).map fun (l, r) => (92 :: e :: l, r) := by
  rw [splitString?.eq_def]
  simp [hu, he]

theorem splitString?_control {h₁ h₂ : UInt8} (hh₁ : (Bytes.hexDigit? h₁).isSome = true)
    (hh₂ : (Bytes.hexDigit? h₂).isSome = true) (bs : Bytes) :
    splitString? (92 :: 117 :: 48 :: 48 :: h₁ :: h₂ :: bs) =
      (splitString? bs).map fun (l, r) => (92 :: 117 :: 48 :: 48 :: h₁ :: h₂ :: l, r) := by
  have h₀ : (Bytes.hexDigit? 48).isSome = true := by decide
  rw [splitString?.eq_def]
  simp [h₀, hh₁, hh₂]

theorem splitString?_escapeByte_append (b : UInt8) (bs : Bytes) :
    splitString? (escapeByte b ++ bs) =
      (splitString? bs).map fun (l, r) => (escapeByte b ++ l, r) := by
  unfold escapeByte
  split
  · exact splitString?_short (by decide) (by decide) bs
  split
  · exact splitString?_short (by decide) (by decide) bs
  split
  · exact splitString?_short (by decide) (by decide) bs
  split
  · exact splitString?_short (by decide) (by decide) bs
  split
  · exact splitString?_short (by decide) (by decide) bs
  split
  · exact splitString?_short (by decide) (by decide) bs
  split
  · exact splitString?_short (by decide) (by decide) bs
  split
  · rename_i hcontrol
    have hb : b.toNat < 32 := UInt8.lt_iff_toNat_lt.1 hcontrol
    exact splitString?_control (hexDigit?_hexDigit_isSome (by omega))
      (hexDigit?_hexDigit_isSome (by omega)) bs
  · rename_i hquote hslash _ _ _ _ _ hcontrol
    exact splitString?_cons hquote hcontrol hslash bs

theorem isStringLexeme_lexeme (s : String) : IsStringLexeme (lexeme s) := by
  intro rest
  unfold lexeme
  induction Bytes.ofString s with
  | nil => rw [List.flatMap_nil, List.nil_append, splitString?.eq_def]; rfl
  | cons b bs ih =>
    rw [List.flatMap_cons, List.append_assoc, splitString?_escapeByte_append, ih, Option.map_some]

theorem wellFormed_ofString (s : String) : WellFormed (ofString s) :=
  .string (isStringLexeme_lexeme s)

@[simp] theorem string?_ofString (s : String) : string? (ofString s) = some s :=
  text?_lexeme s

@[simp] theorem word?_ofString (s : String) : word? (ofString s) = some s :=
  text?_lexeme s

/-! ## Numbers -/

/-- A written number is a zero, or starts with another digit. -/
theorem write_eq (n : Nat) :
    Decimal.write n = [48] ∨ ∃ b bs, Decimal.write n = b :: bs ∧ b ≠ 48 := by
  fun_induction Decimal.write n with
  | case1 n hn =>
    by_cases h0 : n = 0
    · subst h0
      exact .inl rfl
    · refine .inr ⟨_, _, rfl, fun h => ?_⟩
      have := congrArg UInt8.toNat h
      rw [Decimal.toNat_digit hn] at this
      have h48 : (48 : UInt8).toNat = 48 := rfl
      omega
  | case2 n hn ih =>
    rcases ih with ih | ⟨b, bs, ih, hb⟩
    · -- a quotient written as zero is zero, but this one is at least one
      have hzero : n / 10 = 0 := by
        have hw : Decimal.readDigits (n / 10) .tooLarge 0 (Decimal.write (n / 10)) = .ok (n / 10) :=
          Decimal.readDigits_write .tooLarge (Nat.le_refl _)
        rw [ih] at hw
        have h0 : Decimal.readDigits (n / 10) .tooLarge 0 [48] = .ok 0 := by
          simp [Decimal.readDigits, Bytes.isDigit]
        rw [h0] at hw
        exact (Except.ok.inj hw).symm
      omega
    · exact .inr ⟨b, bs ++ [Decimal.digit (n % 10)], by rw [ih, List.cons_append], hb⟩

theorem isMagnitude_write (n : Nat) : Number.isMagnitude (Decimal.write n) = true := by
  have hdigits : ∀ b ∈ Decimal.write n, Bytes.isDigit b = true :=
    fun b => Decimal.isDigit_of_mem_write
  rcases write_eq n with h | ⟨b, bs, h, hb⟩
  · rw [h]
    decide
  · rw [h] at hdigits ⊢
    obtain ⟨hfirst, hmore⟩ := List.forall_mem_cons.1 hdigits
    have hdrop : (bs ++ []).dropWhile Bytes.isDigit = [] := List.dropWhile_append_of_pos hmore
    rw [List.append_nil] at hdrop
    simp [Number.isMagnitude, hb, hfirst, hdrop, Number.isFraction, Number.isExponent]

theorem isNumberByte_of_mem_write {n : Nat} {b : UInt8} (h : b ∈ Decimal.write n) :
    Number.isNumberByte b = true := by
  simp [Number.isNumberByte, Decimal.isDigit_of_mem_write h]

theorem isNumberLexeme_write (n : Nat) : IsNumberLexeme (Decimal.write n) where
  isNumber := by
    rw [Number.isNumber.eq_def]
    split
    · rename_i bs heq
      have hdigit := Decimal.isDigit_of_mem_write (n := n) (b := 45) (by simp [heq])
      exact absurd hdigit (by decide)
    · exact isMagnitude_write n
  bytes := fun _ => isNumberByte_of_mem_write

theorem isNumberLexeme_writeInt (i : Int) : IsNumberLexeme (Decimal.writeInt i) := by
  cases i with
  | ofNat n => exact isNumberLexeme_write n
  | negSucc n =>
    refine ⟨isMagnitude_write (n + 1), fun b hb => ?_⟩
    rcases List.mem_cons.1 hb with rfl | hb
    · decide
    · exact isNumberByte_of_mem_write hb

theorem wellFormed_ofNat (n : Nat) : WellFormed (ofNat n) :=
  .number (isNumberLexeme_write n)

theorem wellFormed_ofInt (i : Int) : WellFormed (ofInt i) :=
  .number (isNumberLexeme_writeInt i)

@[simp] theorem uint64?_ofNat (n : UInt64) : uint64? (ofNat n.toNat) = some n := by
  simp [uint64?, ofNat, numeral?_write n.toNat_lt]

@[simp] theorem uint32?_ofNat (n : UInt32) : uint32? (ofNat n.toNat) = some n := by
  have hn := n.toNat_lt
  have h := uint64?_ofNat n.toUInt64
  rw [UInt32.toNat_toUInt64] at h
  simp [uint32?, h, hn]

@[simp] theorem int64?_ofInt (i : Int64) : int64? (ofInt i.toInt) = some i := by
  have hle := i.le_toInt
  have hlt := i.toInt_lt
  cases hi : i.toInt with
  | ofNat n =>
    have hn : n < 0x8000000000000000 := by
      rw [hi, Int.ofNat_eq_natCast] at hlt
      omega
    have hback : Int64.ofNat n = i := by
      rw [← Int64.ofInt_eq_ofNat, ← Int64.ofInt_toInt i, hi]
      rfl
    have hu : (UInt64.ofNat n).toNat = n := by
      rw [UInt64.toNat_ofNat']
      omega
    simp [int64?, ofInt, Decimal.writeInt, numeral?_write (show n < 0x10000000000000000 by omega),
      hn, hu, hback]
  | negSucc n =>
    have hn : n + 1 ≤ 0x8000000000000000 := by
      rw [hi, Int.negSucc_eq] at hle
      omega
    have hback : Int64.ofInt (-(n + 1 : Nat)) = i := by
      rw [← Int64.ofInt_toInt i, hi]
      rfl
    simp [int64?, ofInt, Decimal.writeInt, numeral?_write_neg (Nat.succ_pos n) hn, ← hback]

/-! ## Lists and options -/

variable {α : Type} {read? : Json → Option α} {write : α → Json}

theorem mapM_map_eq_some {β γ : Type} {f : β → γ} {g : γ → Option β} {items : List β}
    (h : ∀ item ∈ items, g (f item) = some item) : (items.map f).mapM g = some items := by
  induction items with
  | nil => rfl
  | cons item items ih =>
    obtain ⟨hitem, hitems⟩ := List.forall_mem_cons.1 h
    rw [List.map_cons, List.mapM_cons, hitem, ih hitems]
    rfl

theorem wellFormed_ofList (h : ∀ item, WellFormed (write item)) (items : List α) :
    WellFormed (ofList write items) :=
  .array (List.forall_mem_map.2 fun item _ => h item)

theorem list?_ofList (h : ∀ item, read? (write item) = some item) (items : List α) :
    list? read? (ofList write items) = some items :=
  mapM_map_eq_some fun item _ => h item

theorem wellFormed_ofOption (h : ∀ item, WellFormed (write item)) (item : Option α) :
    WellFormed (ofOption write item) := by
  cases item with
  | none => exact .null
  | some item => exact h item

/-! ## Records -/

theorem wellFormed_record {fields : List (String × Json)}
    (h : ∀ field ∈ fields, WellFormed field.2) : WellFormed (record fields) :=
  .object (List.forall_mem_map.2 fun field _ => isStringLexeme_lexeme field.1)
    (List.forall_mem_map.2 h)

/-- A record with known fields, each once, gives these fields. -/
theorem Fields.ofJson?_record {names : List String} {fields : List (String × Json)}
    (hknown : ∀ field ∈ fields, field.1 ∈ names) (honce : (fields.map (·.1)).Nodup) :
    Fields.ofJson? names (record fields) = some ⟨true, fields⟩ := by
  have hfilter : (fields.filter fun field => names.contains field.1) = fields :=
    List.filter_eq_self.2 fun field hfield => by simpa using hknown field hfield
  unfold Fields.ofJson? record
  dsimp only
  rw [mapM_map_eq_some fun field _ => ?_]
  · simp only [Option.bind_eq_bind, Option.bind_some, hfilter, if_pos honce]
  · simp only [text?_lexeme, Option.map_some]

/-- A field that is given is read, and the reading goes on with it. -/
theorem Fields.required_bind {fields : Fields} {name : String} {read? : Json → Option α}
    {value : Json} {item : α} {next : α → Option β} {result : Option β}
    (hgiven : fields.given.lookup name = some value) (hread : read? value = some item)
    (hnext : next item = result) : (fields.required name read? >>= next) = result := by
  rw [Fields.required, hgiven, Option.bind_some, hread]
  exact hnext

theorem Fields.defaulted_bind {fields : Fields} {name : String} {default : α}
    {read? : Json → Option α} {value : Json} {item : α} {next : α → Option β} {result : Option β}
    (hgiven : fields.given.lookup name = some value) (hread : read? value = some item)
    (hnext : next item = result) : (fields.defaulted name default read? >>= next) = result := by
  rw [Fields.defaulted, hgiven]
  exact (congrArg (· >>= next) hread).trans hnext

/-- A record type whose values are written as well-formed JSON that reads back. -/
structure RoundTrips (read? : Json → Option α) (write : α → Json) : Prop where
  wellFormed : ∀ item, WellFormed (write item)
  read : ∀ item, read? (write item) = some item

/-- The text of a value that round-trips decodes to the value. -/
theorem RoundTrips.decode (h : RoundTrips read? write) (item : α) :
    Json.decode read? (write item).write = some item := by
  rw [Json.decode, parse?_write (h.wellFormed item), Option.bind_some, h.read]

end IngestCoordinator.Json
