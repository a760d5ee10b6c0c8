-- SUMMARY: The encoding of texts as bytes keeps their order and their beginnings.
import IngestCoordinator.Text.Bytes
import Mathlib.Data.String.Basic

/-!
# Texts and their bytes

A text is its characters, and what is stored is their encoding as bytes. Of two encodings
the one of the smaller text is smaller, since at the first character where the texts differ
the smaller character has the smaller bytes. So it does not matter whether texts are
compared by characters or by bytes, nor whether a beginning is looked for among the
characters or among the bytes.
-/

namespace IngestCoordinator.Bytes

variable {c d : Char} {m n : Nat} {u v : Bytes}

theorem ofString_eq (text : String) :
    ofString text = text.toList.flatMap String.utf8EncodeChar := by
  rw [ofString, String.toUTF8_eq_toByteArray, ← String.ofList_toList (s := text),
    String.toByteArray_ofList, List.utf8Encode, List.toList_data_toByteArray,
    String.toList_ofList]

/-! ## Single characters -/

theorem ofNat_cons_lt (hm : m < 256) (hn : n < 256) (hle : m ≤ n) (hrest : m = n → u < v) :
    UInt8.ofNat m :: u < UInt8.ofNat n :: v := by
  rw [List.cons_lt_cons_iff, UInt8.lt_iff_toNat_lt, UInt8.toNat_ofNat', UInt8.toNat_ofNat',
    Nat.mod_eq_of_lt hm, Nat.mod_eq_of_lt hn]
  rcases Nat.lt_or_eq_of_le hle with hlt | rfl
  · exact .inl hlt
  · exact .inr ⟨rfl, hrest rfl⟩

theorem ofNat_cons_lt_of_lt (hn : n < 256) (hlt : m < n) (u v : Bytes) :
    UInt8.ofNat m :: u < UInt8.ofNat n :: v :=
  ofNat_cons_lt (by omega) hn (Nat.le_of_lt hlt) fun heq => absurd heq (Nat.ne_of_lt hlt)

/-- The encoding of the smaller character is smaller, whatever follows the two. -/
theorem utf8EncodeChar_append_lt (h : c < d) (u v : Bytes) :
    String.utf8EncodeChar c ++ u < String.utf8EncodeChar d ++ v := by
  have hlt : c.val.toNat < d.val.toNat := h
  have hmax : d.val.toNat < 0x110000 := by
    have hvalid := d.valid
    unfold UInt32.isValidChar Nat.isValidChar at hvalid
    omega
  unfold String.utf8EncodeChar
  generalize c.val.toNat = m at *
  generalize d.val.toNat = n at *
  dsimp only
  -- The first byte tells the length, so only encodings of the same length need a second one.
  by_cases h1 : n ≤ 127
  · rw [if_pos (by omega : m ≤ 127), if_pos h1]
    exact ofNat_cons_lt_of_lt (by omega) hlt u v
  rw [if_neg h1]
  by_cases h2 : n ≤ 2047
  · rw [if_pos h2]
    split
    · exact ofNat_cons_lt_of_lt (by omega) (by omega) ..
    · rw [if_pos (by omega : m ≤ 2047)]
      refine ofNat_cons_lt (by omega) (by omega) (by omega) fun heq => ?_
      exact ofNat_cons_lt_of_lt (by omega) (by omega) ..
  rw [if_neg h2]
  by_cases h3 : n ≤ 65535
  · rw [if_pos h3]
    split
    · exact ofNat_cons_lt_of_lt (by omega) (by omega) ..
    · split
      · exact ofNat_cons_lt_of_lt (by omega) (by omega) ..
      · rw [if_pos (by omega : m ≤ 65535)]
        refine ofNat_cons_lt (by omega) (by omega) (by omega) fun heq => ?_
        refine ofNat_cons_lt (by omega) (by omega) (by omega) fun heq' => ?_
        exact ofNat_cons_lt_of_lt (by omega) (by omega) ..
  rw [if_neg h3]
  split
  · exact ofNat_cons_lt_of_lt (by omega) (by omega) ..
  · split
    · exact ofNat_cons_lt_of_lt (by omega) (by omega) ..
    · split
      · exact ofNat_cons_lt_of_lt (by omega) (by omega) ..
      · refine ofNat_cons_lt (by omega) (by omega) (by omega) fun heq => ?_
        refine ofNat_cons_lt (by omega) (by omega) (by omega) fun heq' => ?_
        refine ofNat_cons_lt (by omega) (by omega) (by omega) fun heq'' => ?_
        exact ofNat_cons_lt_of_lt (by omega) (by omega) ..

/-! ## Texts -/

theorem utf8EncodeChar_ne_nil (c : Char) : String.utf8EncodeChar c ≠ [] := by
  intro h
  have hlength := String.length_utf8EncodeChar c
  rw [h] at hlength
  exact absurd hlength (Nat.ne_of_lt c.utf8Size_pos)

/-- Encodings are ordered as the texts are. -/
theorem flatMap_utf8EncodeChar_lt {s t : List Char} (h : s < t) :
    s.flatMap String.utf8EncodeChar < t.flatMap String.utf8EncodeChar := by
  induction s generalizing t with
  | nil =>
    cases t with
    | nil => exact absurd h (List.lt_irrefl [])
    | cons d t =>
      rw [List.flatMap_nil, List.flatMap_cons]
      obtain ⟨first, rest, hd⟩ := List.exists_cons_of_ne_nil (utf8EncodeChar_ne_nil d)
      rw [hd]
      exact List.nil_lt_cons ..
  | cons c s ih =>
    cases t with
    | nil => exact absurd h (List.not_lt_nil _)
    | cons d t =>
      rw [List.flatMap_cons, List.flatMap_cons]
      rcases List.cons_lt_cons_iff.1 h with hlt | ⟨rfl, hlt⟩
      · exact utf8EncodeChar_append_lt hlt _ _
      · exact List.append_left_lt (ih hlt)

/-- Texts may be compared by their bytes. -/
theorem ofString_lt_ofString_iff {s t : String} : ofString s < ofString t ↔ s < t := by
  have hmono {s t : String} (h : s < t) : ofString s < ofString t := by
    rw [ofString_eq, ofString_eq]
    exact flatMap_utf8EncodeChar_lt h
  constructor
  · intro h
    by_contra hnot
    rcases lt_trichotomy s t with hlt | rfl | hlt
    · exact hnot hlt
    · exact List.lt_irrefl _ h
    · exact List.lt_asymm h (hmono hlt)
  · exact hmono

/-- The bytes of a text begin with those of another just if the text begins with it. -/
theorem flatMap_utf8EncodeChar_prefix_iff {s t : List Char} :
    s.flatMap String.utf8EncodeChar <+: t.flatMap String.utf8EncodeChar ↔ s <+: t := by
  constructor
  · intro h
    induction s generalizing t with
    | nil => exact List.nil_prefix
    | cons c s ih =>
      cases t with
      | nil =>
        have hnil := List.append_eq_nil_iff.1 (List.prefix_nil.1 h)
        exact absurd hnil.1 (utf8EncodeChar_ne_nil c)
      | cons d t =>
        obtain ⟨rest, hrest⟩ := h
        rw [List.flatMap_cons, List.flatMap_cons, List.append_assoc] at hrest
        -- Different characters would order the two sides, which are the same.
        rcases lt_trichotomy c d with hlt | rfl | hlt
        · have hless := utf8EncodeChar_append_lt hlt
            (s.flatMap String.utf8EncodeChar ++ rest) (t.flatMap String.utf8EncodeChar)
          rw [hrest] at hless
          exact absurd hless (List.lt_irrefl _)
        · exact List.cons_prefix_cons.2 ⟨rfl, ih ⟨rest, List.append_cancel_left hrest⟩⟩
        · have hless := utf8EncodeChar_append_lt hlt
            (t.flatMap String.utf8EncodeChar) (s.flatMap String.utf8EncodeChar ++ rest)
          rw [hrest] at hless
          exact absurd hless (List.lt_irrefl _)
  · rintro ⟨rest, rfl⟩
    rw [List.flatMap_append]
    exact List.prefix_append ..

theorem ofString_prefix_ofString_iff {s t : String} :
    ofString s <+: ofString t ↔ s.toList <+: t.toList := by
  rw [ofString_eq, ofString_eq]
  exact flatMap_utf8EncodeChar_prefix_iff

end IngestCoordinator.Bytes
