import Bitar.Lib.Search
import Mathlib.Data.Nat.ModEq

/-!
# The next lcore

`GetNextLcore` looks for an enabled lcore from `start_id` on.  The ids it
increments are below `RTE_MAX_LCORE`, so that no increment overflows.  With
`wrap` set the id never leaves the range, and the loop is left only at an lcore
that is eligible.

**Results.**
* `getNextLcore_noWrap`: without `wrap` it ends with the least eligible lcore.
* `getNextLcore_ends_iff`: when it ends, and with which lcore.
-/

namespace Bitar

open Search

/-- The lcores of the EAL. -/
structure Lcores where
  /-- `RTE_MAX_LCORE`. -/
  maxLcore : Nat
  maxLcore_pos : 0 < maxLcore
  maxLcore_lt : maxLcore < 4294967296
  /-- `rte_lcore_is_enabled`. -/
  isEnabled : Nat → Bool
  /-- `rte_get_main_lcore()`. -/
  mainLcore : Nat

namespace Lcores

variable (l : Lcores)

/-- The loop of `GetNextLcore`. -/
def nextLoop (skipMain wrap : Int) : Nat → Nat → Option Nat
  | 0, _ => none
  | fuel + 1, startId =>
      if startId < l.maxLcore then
        if l.isEnabled startId = false ∨ skipMain ≠ 0 ∧ startId = l.mainLcore then
          nextLoop skipMain wrap fuel
            (if wrap ≠ 0 then (startId + 1) % l.maxLcore else startId + 1)
        else some startId
      else some startId

/-- `GetNextLcore`, with fuel for its loop. -/
def getNextLcore (fuel startId : Nat) (skipMain wrap : Int) : Option Nat :=
  l.nextLoop skipMain wrap fuel (if wrap ≠ 0 then startId % l.maxLcore else startId)

/-- An enabled lcore, and not the main one if that is skipped. -/
def Eligible (skipMain : Int) (id : Nat) : Prop :=
  id < l.maxLcore ∧ l.isEnabled id = true ∧ ¬ (skipMain ≠ 0 ∧ id = l.mainLcore)

instance (skipMain : Int) (id : Nat) : Decidable (l.Eligible skipMain id) :=
  inferInstanceAs (Decidable (_ ∧ _))

/-- The least eligible lcore from `startId` on, or a value out of range. -/
def IsLeastFrom (startId : Nat) (skipMain : Int) (id : Nat) : Prop :=
  (l.Eligible skipMain id ∧ startId ≤ id ∧
      ∀ other, startId ≤ other → l.Eligible skipMain other → id ≤ other) ∨
    (l.maxLcore ≤ id ∧ ∀ other, startId ≤ other → ¬ l.Eligible skipMain other)

/-- The first eligible lcore in cyclic order from `startId` on, or a value out
of range. -/
def IsCyclicFrom (startId : Nat) (skipMain : Int) (id : Nat) : Prop :=
  (∃ k, k < l.maxLcore ∧ id = (startId + k) % l.maxLcore ∧ l.Eligible skipMain id ∧
      ∀ j, j < k → ¬ l.Eligible skipMain ((startId + j) % l.maxLcore)) ∨
    (l.maxLcore ≤ id ∧ ∀ other, ¬ l.Eligible skipMain other)

/-! ## The loop as a search -/

variable {l}

/-- The loop looks for an id that is out of range or eligible. -/
theorem nextLoop_eq_search (skipMain wrap : Int) (fuel : Nat) : ∀ startId,
    l.nextLoop skipMain wrap fuel startId =
      search (fun id => l.maxLcore ≤ id ∨ l.Eligible skipMain id)
        (fun id => if wrap ≠ 0 then (id + 1) % l.maxLcore else id + 1) fuel startId := by
  induction fuel with
  | zero => exact fun _ => rfl
  | succ fuel ih =>
      intro startId
      rw [nextLoop, search, ih]
      by_cases hlt : startId < l.maxLcore
      · rw [if_pos hlt]
        by_cases hskip : l.isEnabled startId = false ∨ skipMain ≠ 0 ∧ startId = l.mainLcore
        · have hgo : ¬ (l.maxLcore ≤ startId ∨ l.Eligible skipMain startId) := by
            rintro (h | ⟨-, henabled, hmain⟩)
            · omega
            · rcases hskip with h | h
              · rw [h] at henabled
                cases henabled
              · exact hmain h
          rw [if_pos hskip, if_neg hgo]
        · obtain ⟨henabled, hmain⟩ := not_or.mp hskip
          rw [if_neg hskip, if_pos (Or.inr ⟨hlt, by simpa using henabled, hmain⟩)]
      · rw [if_neg hlt, if_pos (Or.inl (Nat.not_lt.mp hlt))]

theorem iterate_noWrap (startId k : Nat) : (fun id => id + 1)^[k] startId = startId + k := by
  induction k with
  | zero => rfl
  | succ k ih => rw [Function.iterate_succ_apply', ih, Nat.add_assoc]

theorem iterate_wrap (m startId k : Nat) :
    (fun id => (id + 1) % m)^[k] (startId % m) = (startId + k) % m := by
  rw [iterate_add_mod, Nat.mul_one]

/-! ## Without wrapping -/

theorem getNextLcore_noWrap_eq (fuel startId : Nat) (skipMain : Int) :
    l.getNextLcore fuel startId skipMain 0 =
      search (fun id => l.maxLcore ≤ id ∨ l.Eligible skipMain id) (fun id => id + 1) fuel
        startId := by
  rw [getNextLcore, nextLoop_eq_search]
  rfl

theorem getNextLcore_noWrap_isLeast {fuel startId id : Nat} {skipMain : Int}
    (h : l.getNextLcore fuel startId skipMain 0 = some id) :
    startId ≤ id ∧ l.IsLeastFrom startId skipMain id := by
  rw [getNextLcore_noWrap_eq] at h
  obtain ⟨k, -, hk, hstop, hbefore⟩ := search_eq_some_iff.mp h
  rw [iterate_noWrap] at hk
  subst hk
  have hskipped : ∀ other, startId ≤ other → l.Eligible skipMain other → startId + k ≤ other := by
    intro other hle hother
    by_contra hlt
    have hnot := hbefore (other - startId) (by omega)
    rw [iterate_noWrap, show startId + (other - startId) = other by omega] at hnot
    exact hnot (Or.inr hother)
  refine ⟨Nat.le_add_right _ _, ?_⟩
  rcases hstop with hout | heligible
  · refine Or.inr ⟨hout, fun other hle hother => ?_⟩
    have := hskipped other hle hother
    have := hother.1
    omega
  · exact Or.inl ⟨heligible, Nat.le_add_right _ _, hskipped⟩

/-- Without wrapping the loop leaves the range at the latest. -/
theorem getNextLcore_noWrap {fuel startId : Nat} (hfuel : l.maxLcore - startId < fuel)
    (skipMain : Int) : ∃ id, l.getNextLcore fuel startId skipMain 0 = some id := by
  rw [getNextLcore_noWrap_eq]
  apply exists_search_of_stop hfuel
  rw [iterate_noWrap]
  left
  omega

/-! ## With wrapping -/

section Wrapping

theorem stop_wrap_iff {skipMain : Int} {startId k : Nat} :
    (l.maxLcore ≤ (startId + k) % l.maxLcore ∨
        l.Eligible skipMain ((startId + k) % l.maxLcore)) ↔
      l.Eligible skipMain ((startId + k) % l.maxLcore) := by
  have := Nat.mod_lt (startId + k) l.maxLcore_pos
  exact or_iff_right (by omega)

variable {wrap : Int} (hwrap : wrap ≠ 0)
include hwrap

theorem getNextLcore_wrap_eq (fuel startId : Nat) (skipMain : Int) :
    l.getNextLcore fuel startId skipMain wrap =
      search (fun id => l.maxLcore ≤ id ∨ l.Eligible skipMain id)
        (fun id => (id + 1) % l.maxLcore) fuel (startId % l.maxLcore) := by
  rw [getNextLcore, nextLoop_eq_search, if_pos hwrap]
  simp only [if_pos hwrap]

theorem getNextLcore_wrap_isCyclic {fuel startId id : Nat} {skipMain : Int}
    (h : l.getNextLcore fuel startId skipMain wrap = some id) :
    l.IsCyclicFrom startId skipMain id := by
  rw [getNextLcore_wrap_eq hwrap] at h
  obtain ⟨k, -, hk, hstop, hbefore⟩ := search_eq_some_iff.mp h
  rw [iterate_wrap] at hk
  subst hk
  have heligible := (stop_wrap_iff).mp hstop
  have hskipped : ∀ j, j < k → ¬ l.Eligible skipMain ((startId + j) % l.maxLcore) := by
    intro j hj hother
    have hnot := hbefore j hj
    rw [iterate_wrap] at hnot
    exact hnot (Or.inr hother)
  -- a full turn would have met the same lcore before
  have hturn : k < l.maxLcore := by
    by_contra hge
    refine hskipped (k - l.maxLcore) (by have := l.maxLcore_pos; omega) ?_
    rw [← Nat.add_mod_right, show startId + (k - l.maxLcore) + l.maxLcore = startId + k by omega]
    exact heligible
  exact Or.inl ⟨k, hturn, rfl, heligible, hskipped⟩

/-- With wrapping the loop ends only if it meets an eligible lcore. -/
theorem getNextLcore_wrap_ends_iff (startId : Nat) (skipMain : Int) :
    (∃ fuel id, l.getNextLcore fuel startId skipMain wrap = some id) ↔
      ∃ id, l.Eligible skipMain id := by
  simp only [getNextLcore_wrap_eq hwrap]
  rw [exists_search_iff]
  simp only [iterate_wrap, stop_wrap_iff]
  constructor
  · rintro ⟨k, h⟩
    exact ⟨_, h⟩
  · rintro ⟨id, h⟩
    -- in steps of one, the loop comes to every lcore
    have hone : id ≡ startId [MOD Nat.gcd 1 l.maxLcore] := by
      rw [Nat.gcd_one_left]
      exact Nat.modEq_one
    obtain ⟨k, hk⟩ := (exists_add_mul_mod_eq_iff l.maxLcore_pos).mpr ⟨h.1, hone⟩
    rw [Nat.mul_one] at hk
    exact ⟨k, hk ▸ h⟩

end Wrapping

/-! ## When the search ends -/

/-- **The next lcore.**  `GetNextLcore` ends, with the lcore it is documented to
find, if and only if it does not wrap or some lcore is eligible. -/
theorem getNextLcore_ends_iff (l : Lcores) (startId : Nat) (skipMain wrap : Int) :
    ((∃ fuel id, l.getNextLcore fuel startId skipMain wrap = some id) ∧
      ∀ fuel id, l.getNextLcore fuel startId skipMain wrap = some id →
        if wrap = 0 then l.IsLeastFrom startId skipMain id
        else l.IsCyclicFrom startId skipMain id) ↔
      wrap = 0 ∨ ∃ id, l.Eligible skipMain id := by
  by_cases hwrap : wrap = 0
  · subst hwrap
    refine iff_of_true ⟨⟨_, getNextLcore_noWrap (Nat.lt_succ_self _) skipMain⟩, fun fuel id h => ?_⟩
      (Or.inl rfl)
    rw [if_pos rfl]
    exact (getNextLcore_noWrap_isLeast h).2
  · rw [getNextLcore_wrap_ends_iff hwrap, or_iff_right hwrap]
    refine and_iff_left_of_imp fun _ fuel id h => ?_
    rw [if_neg hwrap]
    exact getNextLcore_wrap_isCyclic hwrap h

/-- A machine whose only lcore is the main one. -/
def loneMain : Lcores where
  maxLcore := 1
  maxLcore_pos := Nat.zero_lt_one
  maxLcore_lt := by decide
  isEnabled _ := true
  mainLcore := 0

/-- Wrapping round without the main lcore, the search goes on for ever. -/
theorem getNextLcore_loneMain : ¬ ∃ fuel id, loneMain.getNextLcore fuel 0 1 1 = some id := by
  rw [getNextLcore_wrap_ends_iff (by decide)]
  rintro ⟨id, hlt, -, hmain⟩
  exact hmain ⟨by decide, Nat.lt_one_iff.mp hlt⟩

end Lcores

end Bitar
