import Mathlib.Logic.Function.Iterate
import Mathlib.Data.Nat.Find
import Mathlib.Data.Int.GCD
import Mathlib.Data.Int.ModEq
import Mathlib.Tactic.Common
import Mathlib.Tactic.Ring

/-!
# Searching along the iterates of a function

The loop `while (!stop(x)) x = next(x);` with fuel: `none` when it runs out.
Counters that wrap go round a number of places in steps of one length.

**Results.**
* `search_eq_some_iff`: the loop ends at the first iterate that stops it.
* `exists_search_iff`: it ends if and only if some iterate stops it.
* `exists_add_mul_mod_eq_iff`: the places that a counter comes to.
-/

namespace Search

variable {α : Type*} (stop : α → Prop) (next : α → α)

/-- Apply `next` until `stop` holds. -/
def search [DecidablePred stop] : Nat → α → Option α
  | 0, _ => none
  | fuel + 1, x => if stop x then some x else search fuel (next x)

/-- `y` is the first iterate from `x` on at which `stop` holds. -/
def IsFirst (x : α) (k : Nat) (y : α) : Prop :=
  next^[k] x = y ∧ stop y ∧ ∀ j, j < k → ¬ stop (next^[j] x)

variable {stop next}

theorem isFirst_zero {x y : α} : IsFirst stop next x 0 y ↔ x = y ∧ stop y := by
  simp [IsFirst]

theorem isFirst_succ {x y : α} {k : Nat} :
    IsFirst stop next x (k + 1) y ↔ ¬ stop x ∧ IsFirst stop next (next x) k y := by
  constructor
  · rintro ⟨hy, hstop, hbefore⟩
    exact ⟨hbefore 0 (Nat.zero_lt_succ k), hy, hstop,
      fun j hj => hbefore (j + 1) (Nat.succ_lt_succ hj)⟩
  · rintro ⟨hx, hy, hstop, hbefore⟩
    refine ⟨hy, hstop, fun j hj => ?_⟩
    cases j with
    | zero => exact hx
    | succ j => exact hbefore j (Nat.lt_of_succ_lt_succ hj)

/-- There is only one first iterate. -/
theorem IsFirst.unique {x y z : α} {k l : Nat} (hk : IsFirst stop next x k y)
    (hl : IsFirst stop next x l z) : y = z := by
  obtain ⟨rfl, hy, hbefore⟩ := hk
  obtain ⟨rfl, hz, hbefore'⟩ := hl
  rcases Nat.lt_trichotomy k l with h | rfl | h
  · exact absurd hy (hbefore' k h)
  · rfl
  · exact absurd hz (hbefore l h)

variable [DecidablePred stop]

/-- The loop ends at the first iterate that stops it. -/
theorem search_eq_some_iff {fuel : Nat} {x y : α} :
    search stop next fuel x = some y ↔ ∃ k, k < fuel ∧ IsFirst stop next x k y := by
  induction fuel generalizing x with
  | zero => simp [search]
  | succ fuel ih =>
      rw [search]
      by_cases hx : stop x
      · rw [if_pos hx]
        constructor
        · rintro h
          obtain rfl := Option.some.inj h
          exact ⟨0, Nat.zero_lt_succ fuel, isFirst_zero.mpr ⟨rfl, hx⟩⟩
        · rintro ⟨k, -, hk⟩
          cases k with
          | zero => rw [(isFirst_zero.mp hk).1]
          | succ k => exact absurd hx (isFirst_succ.mp hk).1
      · rw [if_neg hx, ih]
        constructor
        · rintro ⟨k, hlt, hk⟩
          exact ⟨k + 1, Nat.succ_lt_succ hlt, isFirst_succ.mpr ⟨hx, hk⟩⟩
        · rintro ⟨k, hlt, hk⟩
          cases k with
          | zero =>
              obtain ⟨rfl, hy⟩ := isFirst_zero.mp hk
              exact absurd hy hx
          | succ k => exact ⟨k, Nat.lt_of_succ_lt_succ hlt, (isFirst_succ.mp hk).2⟩

/-- What the loop finds does not depend on the fuel. -/
theorem search_unique {f g : Nat} {x y z : α} (hy : search stop next f x = some y)
    (hz : search stop next g x = some z) : y = z := by
  obtain ⟨k, -, hk⟩ := search_eq_some_iff.mp hy
  obtain ⟨l, -, hl⟩ := search_eq_some_iff.mp hz
  exact hk.unique hl

/-- An iterate that stops the loop is reached with fuel beyond its number. -/
theorem exists_search_of_stop {x : α} {k fuel : Nat} (hk : k < fuel) (h : stop (next^[k] x)) :
    ∃ y, search stop next fuel x = some y := by
  have hex : ∃ k, stop (next^[k] x) := ⟨k, h⟩
  refine ⟨next^[Nat.find hex] x, search_eq_some_iff.mpr ⟨Nat.find hex, ?_, rfl,
    Nat.find_spec hex, fun j hj => Nat.find_min hex hj⟩⟩
  exact Nat.lt_of_le_of_lt (Nat.find_min' hex h) hk

/-- The loop ends if and only if some iterate stops it. -/
theorem exists_search_iff {x : α} :
    (∃ fuel y, search stop next fuel x = some y) ↔ ∃ k, stop (next^[k] x) := by
  constructor
  · rintro ⟨fuel, y, h⟩
    obtain ⟨k, -, rfl, hy, -⟩ := search_eq_some_iff.mp h
    exact ⟨k, hy⟩
  · rintro ⟨k, h⟩
    exact ⟨k + 1, exists_search_of_stop (Nat.lt_succ_self k) h⟩

/-! ## Going round -/

section Round

variable {n : Nat}

theorem iterate_add_mod (n d a k : Nat) :
    (fun x => (x + d) % n)^[k] (a % n) = (a + k * d) % n := by
  induction k with
  | zero => simp
  | succ k ih => rw [Function.iterate_succ_apply', ih, Nat.mod_add_mod, Nat.succ_mul, Nat.add_assoc]

/-- Going round `n` places in steps of `d`, one comes to the places that differ
from the first one by a multiple of `gcd d n`. -/
theorem exists_add_mul_mod_eq_iff {d a y : Nat} (hn : 0 < n) :
    (∃ k, (a + k * d) % n = y) ↔ y < n ∧ y ≡ a [MOD Nat.gcd d n] := by
  constructor
  · rintro ⟨k, rfl⟩
    refine ⟨Nat.mod_lt _ hn, ?_⟩
    have hround := (Nat.mod_modEq (a + k * d) n).of_dvd (Nat.gcd_dvd_right d n)
    have hsteps : k * d ≡ 0 [MOD Nat.gcd d n] :=
      Nat.modEq_zero_iff_dvd.mpr (Dvd.dvd.mul_left (Nat.gcd_dvd_left d n) k)
    exact hround.trans (hsteps.add_left a)
  · rintro ⟨hlt, h⟩
    obtain ⟨t, ht⟩ := Nat.modEq_iff_dvd.mp h.symm
    -- as many steps as Bézout's identity says
    obtain ⟨k, -, hk⟩ :=
      Int.existsUnique_equiv_nat (Nat.gcdA d n * t) (Int.natCast_pos.mpr hn)
    refine ⟨k, ?_⟩
    have hmod : ((a + k * d : Nat) : Int) ≡ y [ZMOD n] := by
      push_cast
      calc (a + k * d : Int)
          ≡ a + Nat.gcdA d n * t * d [ZMOD n] := (hk.mul_right d).add_left a
        _ ≡ a + Nat.gcdA d n * t * d + n * (Nat.gcdB d n * t) [ZMOD n] :=
          Int.modEq_add_fac_self.symm
        _ = a + (d * Nat.gcdA d n + n * Nat.gcdB d n) * t := by ring
        _ = y := by
          rw [← Nat.gcd_eq_gcd_ab, ← ht]
          ring
    rw [Int.natCast_modEq_iff.mp hmod, Nat.mod_eq_of_lt hlt]

/-- The last place among those that differ from `a` by a multiple of `g`. -/
theorem le_last_of_modEq {g a y : Nat} (hg : g ∣ n) (hlt : y < n) (h : y ≡ a [MOD g]) :
    y ≤ n - g + a % g := by
  obtain ⟨m, rfl⟩ := hg
  have hdiv := Nat.div_add_mod y g
  have hle := Nat.mul_le_mul_left g (Nat.succ_le_of_lt (Nat.div_lt_of_lt_mul hlt))
  rw [Nat.mul_succ] at hle
  rw [← h]
  omega

/-- Going round, one comes to a place beyond `b` exactly when the last of one's
places is beyond `b`. -/
theorem exists_lt_add_mul_mod_iff {d a b : Nat} (hn : 0 < n) :
    (∃ k, b < (a + k * d) % n) ↔ b < n - Nat.gcd d n + a % Nat.gcd d n := by
  have hdvd := Nat.gcd_dvd_right d n
  constructor
  · rintro ⟨k, hk⟩
    obtain ⟨hlt, hmod⟩ := (exists_add_mul_mod_eq_iff hn).mp ⟨k, rfl⟩
    exact Nat.lt_of_lt_of_le hk (le_last_of_modEq hdvd hlt hmod)
  · intro hb
    have hmod := Nat.mod_lt a (Nat.gcd_pos_of_pos_right d hn)
    have hle := Nat.gcd_le_right d hn
    have hlast : n - Nat.gcd d n + a % Nat.gcd d n ≡ a [MOD Nat.gcd d n] := by
      have hsub := (Nat.modEq_zero_iff_dvd.mpr (Nat.dvd_sub hdvd (Nat.dvd_refl _))).add_right
        (a % Nat.gcd d n)
      rw [Nat.zero_add] at hsub
      exact hsub.trans (Nat.mod_modEq a _)
    obtain ⟨k, hk⟩ := (exists_add_mul_mod_eq_iff hn).mpr ⟨by omega, hlast⟩
    exact ⟨k, hk ▸ hb⟩

end Round

end Search
