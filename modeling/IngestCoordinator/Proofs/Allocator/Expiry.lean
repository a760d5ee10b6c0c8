-- SUMMARY: When grants expire: not before they were made, while there are bits for the milliseconds.
import IngestCoordinator.Coordinator.Basic
import IngestCoordinator.Proofs.Allocator.Guarantees
import IngestCoordinator.Proofs.Timestamp

/-!
# Expiry

A timestamp is drawn for each grant, which expires a lifetime later. The sum of the
milliseconds stops at the largest word, but a timestamp has fewer bits than that for its
milliseconds, and a lifetime that leads past them starts again at zero. Settings are
valid with any lifetime.
-/

namespace IngestCoordinator

open Operation

/-- The lifetime of grants is no reason to refuse settings. -/
theorem Settings.validate_grantLifetimeMs (settings : Settings) (lifetime : UInt64) :
    { settings with segment.grantLifetimeMs := lifetime }.validate = settings.validate :=
  rfl

namespace Timestamp

variable {ts : Timestamp} {ms ms' : UInt64}

/-- There are bits for the millisecond that comes some milliseconds later. -/
def Fits (ts : Timestamp) (ms : UInt64) : Prop :=
  ts.physical.toNat + ms.toNat < 2 ^ 46

theorem Fits.of_le (h : ts.Fits ms') (hle : ms ≤ ms') : ts.Fits ms := by
  rw [UInt64.le_iff_toNat_le] at hle
  unfold Fits at *
  omega

theorem Fits.le_addMs (h : ts.Fits ms) : ts ≤ ts.addMs ms := by
  rw [le_addMs_iff, later_of_lt h]
  exact Nat.le_add_right _ _

theorem Fits.addMs_mono (h : ts.Fits ms') (hle : ms ≤ ms') : ts.addMs ms ≤ ts.addMs ms' := by
  rw [addMs_le_addMs_iff, later_of_lt h, later_of_lt (h.of_le hle)]
  exact Nat.add_le_add_left (UInt64.le_iff_toNat_le.1 hle) _

end Timestamp

namespace Allocator

variable {a b : Allocator} {key : SegmentKey} {wanted : UInt64} {grant : Grant}

/-- The timestamp was drawn for the grant, which expires a lifetime later. -/
structure Stamped (a : Allocator) (grant : Grant) (issued : Timestamp) : Prop where
  drawn : ∃ ids, IdSource.drawTimestamp a.ids = .ok issued ids
  expires : grant.expireTime = issued.addMs a.policy.grantLifetimeMs

theorem ensures_alloc_stamped (a : Allocator) (key : SegmentKey) (wanted : UInt64) :
    Ensures (alloc key wanted) a (fun grant _ => ∃ issued, a.Stamped grant issued)
      (fun _ _ => True) := by
  unfold alloc
  split
  · trivial
  rw [ensures_bind]
  apply (ensures_openTarget?_same key a).imp
  · intro found b hb
    subst hb
    cases found with
    | none => trivial
    | some target =>
      simp only [ensures_bind, ensures_pure, onIds, ensures_onPart, ensures_get]
      apply (Ensures.self IdSource.drawTimestamp b.ids).imp
      · intro issued ids hdrawn
        exact Ensures.of_forall (fun _ _ => ⟨issued, ⟨ids, hdrawn⟩, rfl⟩) fun _ _ => trivial
      · exact fun _ _ _ => trivial
  · exact fun _ _ _ => trivial

/--
A timestamp some milliseconds later is not earlier exactly if these, less as many as there
are bits for, still fit, or if the sum has stopped at the largest word. While there are
bits for them, it is also not earlier than one that is fewer milliseconds later. A grant
expires a lifetime after the timestamp that was drawn for it, so under this condition not
before it, and not before a shorter lifetime is over.
-/
theorem grants_expire_after_issue (ts : Timestamp) (ms : UInt64) :
    (ts ≤ ts.addMs ms ↔
      ts.physical.toNat + ms.toNat % 2 ^ 46 < 2 ^ 46 ∨ 2 ^ 64 ≤ ts.physical.toNat + ms.toNat) ∧
    (ts.Fits ms → ∀ ms' ≤ ms, ts ≤ ts.addMs ms' ∧ ts.addMs ms' ≤ ts.addMs ms) ∧
    ∀ a b key wanted grant, alloc key wanted a = .ok grant b → a.policy.grantLifetimeMs = ms →
      ∃ issued, a.Stamped grant issued ∧ (issued.Fits ms →
        issued ≤ grant.expireTime ∧ ∀ ms' ≤ ms, issued.addMs ms' ≤ grant.expireTime) := by
  refine ⟨(Timestamp.le_addMs_iff ts ms).trans (Timestamp.physical_le_later_iff ts ms),
    fun hfits ms' hle => ⟨(hfits.of_le hle).le_addMs, hfits.addMs_mono hle⟩, ?_⟩
  intro a b key wanted grant hgrant hlifetime
  obtain ⟨issued, hstamped⟩ := (ensures_alloc_stamped a key wanted).ok hgrant
  refine ⟨issued, hstamped, fun hfits => ?_⟩
  rw [hstamped.expires, hlifetime]
  exact ⟨hfits.le_addMs, fun _ hle => hfits.addMs_mono hle⟩

/-- Ten rows can be granted, in the thousandth millisecond and for a lifetime. -/
def lasting (grantLifetimeMs : UInt64) : Allocator :=
  { (performAll (granting.take 3) onMemory).2 with
    ids := { clock := { physicalMs := 1000 } }
    policy := .ofSettings { grantLifetimeMs } }

/-- A grant for two seconds. -/
theorem grant_lasts_two_seconds : ∃ grant b, alloc onlyKey 4 (lasting 2000) = .ok grant b ∧
    .compose 1000 0 ≤ grant.expireTime ∧ .compose 2999 0 ≤ grant.expireTime := by
  obtain ⟨grant, b, hgrant⟩ : ∃ grant b, alloc onlyKey 4 (lasting 2000) = .ok grant b :=
    ⟨_, _, rfl⟩
  obtain ⟨-, -, hgrants⟩ := grants_expire_after_issue (.compose 1000 0) 2000
  obtain ⟨issued, hstamped, hexpires⟩ := hgrants (lasting 2000) b onlyKey 4 grant hgrant rfl
  obtain ⟨ids, hdrawn⟩ := hstamped.drawn
  cases hdrawn
  obtain ⟨hissued, hshorter⟩ := hexpires (by unfold Timestamp.Fits; decide +kernel)
  exact ⟨grant, b, hgrant, hissued, hshorter 1999 (by decide)⟩

/-- A grant for as many milliseconds as there are bits for has expired a millisecond before it
was made, and settings are as valid with this lifetime as with any other. -/
theorem longest_grant_expires_before_issue :
    (∀ settings : Settings, { settings with segment.grantLifetimeMs := 2 ^ 46 - 1 }.validate =
      settings.validate) ∧
    ∃ grant b, alloc onlyKey 4 (lasting (2 ^ 46 - 1)) = .ok grant b ∧
      ∃ issued, (lasting (2 ^ 46 - 1)).Stamped grant issued ∧ grant.expireTime < issued ∧
        grant.expireTime < issued.addMs 2000 :=
  ⟨fun settings => settings.validate_grantLifetimeMs _, ⟨⟨7⟩, 0, 4, .compose 999 0⟩, _, rfl,
    .compose 1000 0, ⟨⟨_, rfl⟩, by decide +kernel⟩, by decide, by decide⟩

end Allocator

end IngestCoordinator
