-- SUMMARY: Scanning a range of keys finds what testing every key finds.
import IngestCoordinator.Store.Backend

/-!
# Scans

The keys that start with a text form one block in the order of the keys, and the
block begins at the text itself. A scan that starts there and stops at the first
other key therefore misses nothing. Main statement: `scanRange_eq_scanFilter`.
-/

namespace IngestCoordinator.Backend

theorem compare_eq_lt_iff {a b : String} : compare a b = .lt ↔ a < b :=
  compareOfLessAndEq_eq_lt

/-- No text comes before its own beginning. -/
theorem not_lt_of_isPrefixOf {stem key : List Char} (h : stem.isPrefixOf key = true) :
    ¬ key < stem := by
  induction stem generalizing key with
  | nil => exact List.not_lt_nil key
  | cons c stem ih =>
    cases key with
    | nil => cases h
    | cons d key =>
      obtain ⟨hcd, hrest⟩ := Bool.and_eq_true_iff.1 h
      rw [beq_iff_eq] at hcd
      subst hcd
      rw [List.cons_lt_cons_iff]
      rintro (hlt | ⟨_, hlt⟩)
      · exact absurd hlt (Nat.lt_irrefl _)
      · exact ih hrest hlt

/-- What lies between a text and one of its continuations is a continuation too. -/
theorem isPrefixOf_of_between {stem key later : List Char} (hkey : ¬ key < stem)
    (hlt : key < later) (h : stem.isPrefixOf later = true) : stem.isPrefixOf key = true := by
  induction stem generalizing key later with
  | nil => cases key <;> rfl
  | cons c stem ih =>
    cases key with
    | nil => exact absurd (List.nil_lt_cons c stem) hkey
    | cons d key =>
      cases later with
      | nil => cases h
      | cons e later =>
        obtain ⟨hce, hrest⟩ := Bool.and_eq_true_iff.1 h
        rw [beq_iff_eq] at hce
        subst hce
        rw [List.cons_lt_cons_iff] at hkey hlt
        have hdc : d = c := by
          rcases hlt with hlt | ⟨heq, _⟩
          · exact absurd (.inl hlt) hkey
          · exact heq
        subst hdc
        have hlt' : key < later := by
          rcases hlt with hlt | ⟨_, hlt⟩
          · exact absurd hlt (Nat.lt_irrefl _)
          · exact hlt
        have hkey' : ¬ key < stem := fun hlt => hkey (.inr ⟨rfl, hlt⟩)
        exact Bool.and_eq_true_iff.2 ⟨beq_self_eq_true d, ih hkey' hlt' hrest⟩

theorem not_lt_of_startsWith {stem key : String} (h : startsWith stem key = true) :
    ¬ key < stem :=
  not_lt_of_isPrefixOf h

theorem startsWith_of_between {stem key later : String} (hkey : ¬ key < stem) (hlt : key < later)
    (h : startsWith stem later = true) : startsWith stem key = true :=
  isPrefixOf_of_between hkey hlt h

/-- Before the stem no key starts with it, so leaving those keys out leaves nothing out. -/
theorem scanFilter_dropWhile (stem : String) (entries : List (String × Cell)) :
    scanFilter stem (entries.dropWhile fun entry => entry.1 < stem) = scanFilter stem entries := by
  induction entries with
  | nil => rfl
  | cons entry entries ih =>
    by_cases h : entry.1 < stem
    · have hno : startsWith stem entry.1 = false :=
        Bool.eq_false_iff.2 fun hs => not_lt_of_startsWith hs h
      rw [List.dropWhile_cons_of_pos (by simpa using h), ih]
      simp only [scanFilter, List.filter_cons, hno, Bool.false_eq_true, if_false]
    · rw [List.dropWhile_cons_of_neg (by simpa using h)]

/-- From the stem on the keys that start with it come first. -/
theorem takeWhile_startsWith {stem : String} {entries : List (String × Cell)}
    (hascending : entries.Pairwise fun a b => compare a.1 b.1 = .lt)
    (hfrom : ∀ entry ∈ entries, ¬ entry.1 < stem) :
    entries.takeWhile (fun entry => startsWith stem entry.1) = scanFilter stem entries := by
  induction entries with
  | nil => rfl
  | cons entry entries ih =>
    obtain ⟨hfirst, hrest⟩ := List.pairwise_cons.1 hascending
    obtain ⟨hentry, hfrom⟩ := List.forall_mem_cons.1 hfrom
    by_cases h : startsWith stem entry.1 = true
    · simp only [List.takeWhile_cons, scanFilter, List.filter_cons, h, if_true, ih hrest hfrom]
    · have hnone : scanFilter stem entries = [] := by
        refine List.filter_eq_nil_iff.2 fun later hlater hs => ?_
        exact h (startsWith_of_between hentry (compare_eq_lt_iff.1 (hfirst later hlater)) hs)
      rw [Bool.not_eq_true] at h
      rw [scanFilter] at hnone ⊢
      simp only [List.takeWhile_cons, List.filter_cons, h, Bool.false_eq_true, if_false, hnone]

/-- In a dropped range every later key is beyond the first one left. -/
theorem not_lt_of_mem_dropWhile {stem : String} {entries : List (String × Cell)}
    (hascending : entries.Pairwise fun a b => compare a.1 b.1 = .lt) :
    ∀ entry ∈ entries.dropWhile (fun entry => entry.1 < stem), ¬ entry.1 < stem := by
  induction entries with
  | nil => simp
  | cons first entries ih =>
    obtain ⟨hfirst, hrest⟩ := List.pairwise_cons.1 hascending
    by_cases h : first.1 < stem
    · rw [List.dropWhile_cons_of_pos (by simpa using h)]
      exact ih hrest
    · rw [List.dropWhile_cons_of_neg (by simpa using h)]
      intro entry hentry hlt
      rcases List.mem_cons.1 hentry with rfl | hentry
      · exact h hlt
      · have hbetween := compare_eq_lt_iff.1 (hfirst entry hentry)
        exact h (compare_eq_lt_iff.1 (Std.TransCmp.lt_trans (compare_eq_lt_iff.2 hbetween)
          (compare_eq_lt_iff.2 hlt)))

theorem scanRange_eq_scanFilter (stem : String) {entries : List (String × Cell)}
    (hascending : entries.Pairwise fun a b => compare a.1 b.1 = .lt) :
    scanRange stem entries = scanFilter stem entries := by
  have hsub := hascending.sublist (List.dropWhile_sublist fun entry => decide (entry.1 < stem))
  rw [scanRange, takeWhile_startsWith hsub (not_lt_of_mem_dropWhile hascending),
    scanFilter_dropWhile]

end IngestCoordinator.Backend
