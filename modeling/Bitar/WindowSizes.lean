import Bitar.Lib.Search
import Bitar.Configuration

/-!
# The check of a window size

`ValidateWindowSize` counts from `min` on in steps of `increment` until it meets
the window size or a number above `max`.  The counter has eight bits: beyond 255
it starts again below `min`, and the loop meets numbers that are not in the
range, or goes on for ever.

**Results.**
* `validateWindowSize_ends_iff`: for which window sizes the check ends.
* `validateWindowSize_exact_iff`: for which it also tells the sizes of the range
  from all others.
* `leavesBefore_of_fits`: ranges that are too low for the counter to wrap.
* `validateConfiguration_ends`: ranges with which `ValidateConfiguration` ends.
-/

namespace Bitar

open Search

namespace Log2Range

/-- `windowSize` is one of the sizes of the range. -/
def Supports (range : Log2Range) (windowSize : UInt8) : Prop :=
  range.min ≤ windowSize ∧ windowSize ≤ range.max ∧
    (range.increment = 0 ∨ ∃ k : Nat, windowSize.toNat =
      range.min.toNat + k * range.increment.toNat)

/-- `k` increments from `min` on, modulo 256. -/
def stepped (range : Log2Range) (k : Nat) : Nat :=
  (range.min.toNat + k * range.increment.toNat) % 256

/-- In steps of `increment` modulo 256, a number above `max` comes before
`windowSize`. -/
def LeavesBefore (range : Log2Range) (windowSize : UInt8) : Prop :=
  ∃ k, range.max.toNat < range.stepped k ∧ ∀ j, j < k → range.stepped j ≠ windowSize.toNat

/-- In steps of `increment` modulo 256, no number above `max` ever comes. -/
def Closed (range : Log2Range) : Prop :=
  256 - Nat.gcd range.increment.toNat 256 +
    range.min.toNat % Nat.gcd range.increment.toNat 256 ≤ range.max.toNat

instance (range : Log2Range) : Decidable range.Closed :=
  inferInstanceAs (Decidable (_ ≤ _))

end Log2Range

variable {windowSize : UInt8} {range : Log2Range}

/-! ## The loop as a search -/

/-- Where the loop ends: at the window size or above `max`. -/
def Log2Range.Stops (range : Log2Range) (windowSize size : UInt8) : Prop :=
  range.max < size ∨ windowSize = size

instance (windowSize : UInt8) : DecidablePred (range.Stops windowSize) :=
  fun _ => inferInstanceAs (Decidable (_ ∨ _))

theorem windowLoop_eq_search (windowSize : UInt8) (range : Log2Range) (fuel : Nat) : ∀ nextSize,
    windowLoop windowSize range fuel nextSize =
      (search (range.Stops windowSize) (· + range.increment) fuel nextSize).map
        fun size => decide (size ≤ range.max) := by
  induction fuel with
  | zero => exact fun _ => rfl
  | succ fuel ih =>
      intro nextSize
      rw [windowLoop, search, ih]
      by_cases hle : nextSize ≤ range.max
      · rw [if_pos hle]
        by_cases hfound : windowSize = nextSize
        · have hstop : range.Stops windowSize nextSize := Or.inr hfound
          rw [if_pos hfound, if_pos hstop, Option.map_some, decide_eq_true hle]
        · have hgo : ¬ range.Stops windowSize nextSize :=
            not_or.mpr ⟨UInt8.not_lt.mpr hle, hfound⟩
          rw [if_neg hfound, if_neg hgo]
      · have hstop : range.Stops windowSize nextSize := Or.inl (UInt8.not_le.mp hle)
        rw [if_neg hle, if_pos hstop, Option.map_some, decide_eq_false hle]

/-- The counter of the loop. -/
theorem toNat_iterate_increment (range : Log2Range) (k : Nat) :
    ((· + range.increment)^[k] range.min).toNat = range.stepped k := by
  have hsemi : Function.Semiconj UInt8.toNat (· + range.increment)
      fun n => (n + range.increment.toNat) % 256 := fun n => UInt8.toNat_add n range.increment
  rw [Log2Range.stepped, (hsemi.iterate_right k).eq, ← iterate_add_mod,
    Nat.mod_eq_of_lt range.min.toNat_lt]

theorem stops_iff (k : Nat) :
    range.Stops windowSize ((· + range.increment)^[k] range.min) ↔
      range.max.toNat < range.stepped k ∨ range.stepped k = windowSize.toNat := by
  rw [Log2Range.Stops, UInt8.lt_iff_toNat_lt, ← UInt8.toNat_inj, toNat_iterate_increment,
    eq_comm (a := windowSize.toNat)]

theorem windowLoop_ends_iff :
    (∃ fuel found, windowLoop windowSize range fuel range.min = some found) ↔
      ∃ k, range.max.toNat < range.stepped k ∨ range.stepped k = windowSize.toNat := by
  have hstops : (∃ k, range.Stops windowSize ((· + range.increment)^[k] range.min)) ↔
      ∃ k, range.max.toNat < range.stepped k ∨ range.stepped k = windowSize.toNat :=
    exists_congr stops_iff
  rw [← hstops, ← exists_search_iff]
  constructor
  · rintro ⟨fuel, found, h⟩
    rw [windowLoop_eq_search] at h
    obtain ⟨size, hsize, -⟩ := Option.map_eq_some_iff.mp h
    exact ⟨fuel, size, hsize⟩
  · rintro ⟨fuel, size, h⟩
    exact ⟨fuel, _, by rw [windowLoop_eq_search, h, Option.map_some]⟩

/-- What the loop has found depends on which comes first. -/
theorem windowLoop_first {fuel : Nat} {found : Bool}
    (h : windowLoop windowSize range fuel range.min = some found) :
    ∃ k, (∀ j, j < k → range.stepped j ≤ range.max.toNat ∧
        range.stepped j ≠ windowSize.toNat) ∧
      (range.max.toNat < range.stepped k ∨ range.stepped k = windowSize.toNat) ∧
      (found = true ↔ range.stepped k ≤ range.max.toNat) := by
  rw [windowLoop_eq_search] at h
  obtain ⟨size, hsize, rfl⟩ := Option.map_eq_some_iff.mp h
  obtain ⟨k, -, rfl, hstop, hbefore⟩ := search_eq_some_iff.mp hsize
  refine ⟨k, fun j hj => ?_, (stops_iff k).mp hstop, ?_⟩
  · have hnot := hbefore j hj
    rw [stops_iff, not_or, Nat.not_lt] at hnot
    exact hnot
  · rw [decide_eq_true_iff, UInt8.le_iff_toNat_le, toNat_iterate_increment]

/-! ## The check -/

theorem validateWindowSize_of_not_mem (h : windowSize < range.min ∨ range.max < windowSize)
    (fuel : Nat) :
    ∃ message, validateWindowSize fuel windowSize range = some (.invalid message) := by
  rw [validateWindowSize, if_pos h]
  exact ⟨_, rfl⟩

theorem validateWindowSize_of_increment_eq_zero
    (hmem : ¬ (windowSize < range.min ∨ range.max < windowSize)) (h : range.increment = 0)
    (fuel : Nat) : validateWindowSize fuel windowSize range = some .success := by
  rw [validateWindowSize, if_neg hmem, if_pos h]

theorem validateWindowSize_of_increment_ne_zero
    (hmem : ¬ (windowSize < range.min ∨ range.max < windowSize)) (h : range.increment ≠ 0)
    (fuel : Nat) :
    validateWindowSize fuel windowSize range =
      (windowLoop windowSize range fuel range.min).map fun found =>
        if found then .success else .invalid "The value of window_size is invalid" := by
  rw [validateWindowSize, if_neg hmem, if_neg h]

theorem validateWindowSize_ends_iff_loop
    (hmem : ¬ (windowSize < range.min ∨ range.max < windowSize)) (h : range.increment ≠ 0) :
    (∃ fuel status, validateWindowSize fuel windowSize range = some status) ↔
      ∃ fuel found, windowLoop windowSize range fuel range.min = some found := by
  constructor
  · rintro ⟨fuel, status, hstatus⟩
    rw [validateWindowSize_of_increment_ne_zero hmem h] at hstatus
    obtain ⟨found, hfound, -⟩ := Option.map_eq_some_iff.mp hstatus
    exact ⟨fuel, found, hfound⟩
  · rintro ⟨fuel, found, hfound⟩
    exact ⟨fuel, _, by
      rw [validateWindowSize_of_increment_ne_zero hmem h, hfound, Option.map_some]⟩

/-- **When the check ends.**  Within the bounds, and with an increment, it ends
exactly when the window size is a multiple of `gcd(increment, 256)` away from
`min` or the counter comes to a number above `max`. -/
theorem validateWindowSize_ends_iff (windowSize : UInt8) (range : Log2Range) :
    (∃ fuel status, validateWindowSize fuel windowSize range = some status) ↔
      windowSize < range.min ∨ range.max < windowSize ∨ range.increment = 0 ∨
        windowSize.toNat ≡ range.min.toNat [MOD Nat.gcd range.increment.toNat 256] ∨
        ¬ range.Closed := by
  rw [← or_assoc]
  by_cases hmem : windowSize < range.min ∨ range.max < windowSize
  · obtain ⟨message, he⟩ := validateWindowSize_of_not_mem hmem 0
    exact iff_of_true ⟨0, _, he⟩ (Or.inl hmem)
  rw [or_iff_right hmem]
  by_cases hzero : range.increment = 0
  · exact iff_of_true ⟨0, _, validateWindowSize_of_increment_eq_zero hmem hzero 0⟩ (Or.inl hzero)
  rw [or_iff_right hzero]
  rw [validateWindowSize_ends_iff_loop hmem hzero, windowLoop_ends_iff, exists_or, or_comm]
  unfold Log2Range.stepped Log2Range.Closed
  rw [exists_add_mul_mod_eq_iff (by omega), exists_lt_add_mul_mod_iff (by omega), Nat.not_le,
    and_iff_right windowSize.toNat_lt]

/-- Up to a size of the range the counter does not wrap. -/
theorem stepped_le_of_supports {k j : Nat}
    (h : windowSize.toNat = range.min.toNat + k * range.increment.toNat) (hj : j ≤ k) :
    range.stepped j ≤ windowSize.toNat := by
  have hle := Nat.mul_le_mul_right range.increment.toNat hj
  have hlt := windowSize.toNat_lt
  rw [Log2Range.stepped, Nat.mod_eq_of_lt (by omega)]
  omega

/-- The loop finds the sizes of the range before the counter wraps. -/
theorem windowLoop_of_supports {k : Nat}
    (h : windowSize.toNat = range.min.toNat + k * range.increment.toNat)
    (hmax : windowSize.toNat ≤ range.max.toNat) :
    (∃ fuel found, windowLoop windowSize range fuel range.min = some found) ∧
      ∀ fuel found, windowLoop windowSize range fuel range.min = some found → found = true := by
  have hk : range.stepped k = windowSize.toNat := by
    rw [Log2Range.stepped, ← h, Nat.mod_eq_of_lt windowSize.toNat_lt]
  refine ⟨windowLoop_ends_iff.mpr ⟨k, Or.inr hk⟩, fun fuel found hfound => ?_⟩
  obtain ⟨first, hbefore, -, hiff⟩ := windowLoop_first hfound
  have hle : first ≤ k := by
    by_contra hlt
    exact (hbefore k (by omega)).2 hk
  exact hiff.mpr ((stepped_le_of_supports h hle).trans hmax)

/-- A number above `max` that comes first ends the loop. -/
theorem windowLoop_of_leavesBefore (h : range.LeavesBefore windowSize) :
    (∃ fuel found, windowLoop windowSize range fuel range.min = some found) ∧
      ∀ fuel found, windowLoop windowSize range fuel range.min = some found → found = false := by
  obtain ⟨k, hk, hbefore⟩ := h
  refine ⟨windowLoop_ends_iff.mpr ⟨k, Or.inl hk⟩, fun fuel found hfound => ?_⟩
  obtain ⟨first, hfirst, hstop, hiff⟩ := windowLoop_first hfound
  have hle : first ≤ k := by
    by_contra hlt
    exact Nat.not_le.mpr hk (hfirst k (by omega)).1
  have habove : range.max.toNat < range.stepped first := by
    rcases Nat.lt_or_eq_of_le hle with hlt | rfl
    · exact hstop.resolve_right (hbefore first hlt)
    · exact hk
  rw [Bool.eq_false_iff, Ne, hiff, Nat.not_le]
  exact habove

/-- A loop that ends without the window size has left the range before. -/
theorem leavesBefore_of_windowLoop {fuel : Nat}
    (h : windowLoop windowSize range fuel range.min = some false) :
    range.LeavesBefore windowSize := by
  obtain ⟨k, hbefore, -, hiff⟩ := windowLoop_first h
  exact ⟨k, Nat.not_le.mp fun hle => Bool.noConfusion (hiff.mpr hle), fun j hj => (hbefore j hj).2⟩

/-- A range that ends an increment below 256 is left before the counter wraps. -/
theorem leavesBefore_of_fits (hmem : ¬ (windowSize < range.min ∨ range.max < windowSize))
    (hfits : range.max.toNat + range.increment.toNat < 256) (hzero : range.increment ≠ 0)
    (hsupports : ¬ range.Supports windowSize) : range.LeavesBefore windowSize := by
  obtain ⟨hmin, hmax⟩ := not_or.mp hmem
  rw [UInt8.not_lt] at hmin hmax
  have hle : range.min.toNat ≤ range.max.toNat :=
    (UInt8.le_iff_toNat_le.mp hmin).trans (UInt8.le_iff_toNat_le.mp hmax)
  have hpos : 0 < range.increment.toNat :=
    Nat.pos_of_ne_zero fun h => hzero (UInt8.toNat_inj.mp h)
  have hdiv := Nat.div_add_mod' (range.max.toNat - range.min.toNat) range.increment.toNat
  have hmod := Nat.mod_lt (range.max.toNat - range.min.toNat) hpos
  refine ⟨(range.max.toNat - range.min.toNat) / range.increment.toNat + 1, ?_, fun j hj he => ?_⟩
  · rw [Log2Range.stepped, Nat.succ_mul, Nat.mod_eq_of_lt (by omega)]
    omega
  · have hj' := Nat.mul_le_mul_right range.increment.toNat (Nat.lt_succ_iff.mp hj)
    rw [Log2Range.stepped, Nat.mod_eq_of_lt (by omega)] at he
    exact hsupports ⟨hmin, hmax, Or.inr ⟨j, he.symm⟩⟩

/-- Within the bounds, the sizes of the range are whole increments away from
`min`. -/
theorem supports_iff_dvd (hmem : ¬ (windowSize < range.min ∨ range.max < windowSize))
    (hzero : range.increment ≠ 0) :
    range.Supports windowSize ↔
      range.increment.toNat ∣ windowSize.toNat - range.min.toNat := by
  obtain ⟨hmin, hmax⟩ := not_or.mp hmem
  rw [UInt8.not_lt] at hmin hmax
  have hle := UInt8.le_iff_toNat_le.mp hmin
  rw [Log2Range.Supports, and_iff_right hmin, and_iff_right hmax, or_iff_right hzero]
  constructor
  · rintro ⟨k, hk⟩
    exact ⟨k, by rw [hk, Nat.add_sub_cancel_left, Nat.mul_comm]⟩
  · rintro ⟨k, hk⟩
    exact ⟨k, by rw [Nat.mul_comm, ← hk, Nat.add_sub_cancel' hle]⟩

/-- The loop tells the sizes of the range from all others, if it comes to one of
them or to a number above `max` first. -/
theorem windowLoop_exact_iff (hzero : range.increment ≠ 0) :
    ((∃ fuel found, windowLoop windowSize range fuel range.min = some found) ∧
      ∀ fuel found, windowLoop windowSize range fuel range.min = some found →
        (found = true ↔ range.Supports windowSize)) ↔
      range.Supports windowSize ∨ range.LeavesBefore windowSize := by
  by_cases hsupports : range.Supports windowSize
  · obtain ⟨-, hmax, hsteps⟩ := id hsupports
    obtain ⟨k, hk⟩ := hsteps.resolve_left hzero
    obtain ⟨hends, hfound⟩ := windowLoop_of_supports hk (UInt8.le_iff_toNat_le.mp hmax)
    exact iff_of_true ⟨hends, fun fuel found h => iff_of_true (hfound fuel found h) hsupports⟩
      (Or.inl hsupports)
  · rw [or_iff_right hsupports]
    constructor
    · rintro ⟨⟨fuel, found, h⟩, hexact⟩
      have hfalse : found = false := by
        rw [Bool.eq_false_iff, Ne, hexact fuel found h]
        exact hsupports
      exact leavesBefore_of_windowLoop (hfalse ▸ h)
    · intro hleaves
      obtain ⟨hends, hfound⟩ := windowLoop_of_leavesBefore hleaves
      refine ⟨hends, fun fuel found h => iff_of_false ?_ hsupports⟩
      rw [hfound fuel found h]
      exact Bool.false_ne_true

/-- The status says what the loop has found. -/
theorem status_exact_iff (hmem : ¬ (windowSize < range.min ∨ range.max < windowSize))
    (hzero : range.increment ≠ 0) (p : Prop) :
    ((∃ fuel status, validateWindowSize fuel windowSize range = some status) ∧
      ∀ fuel status, validateWindowSize fuel windowSize range = some status →
        (status.code = .ok ↔ p)) ↔
      (∃ fuel found, windowLoop windowSize range fuel range.min = some found) ∧
        ∀ fuel found, windowLoop windowSize range fuel range.min = some found →
          (found = true ↔ p) := by
  have hcode : ∀ found : Bool, (if found then Status.success else
      .invalid "The value of window_size is invalid").code = .ok ↔ found = true := by
    decide
  refine and_congr (validateWindowSize_ends_iff_loop hmem hzero) ?_
  constructor
  · intro h fuel found hfound
    have hstatus := validateWindowSize_of_increment_ne_zero hmem hzero fuel
    rw [hfound, Option.map_some] at hstatus
    rw [← h fuel _ hstatus, hcode]
  · intro h fuel status hstatus
    rw [validateWindowSize_of_increment_ne_zero hmem hzero] at hstatus
    obtain ⟨found, hfound, rfl⟩ := Option.map_eq_some_iff.mp hstatus
    rw [hcode, h fuel found hfound]

/-- **The check of a window size.**  It ends, and accepts the sizes of the range
and no others, exactly when the window size is out of bounds or one of the sizes
of the range, or a number above `max` comes before it. -/
theorem validateWindowSize_exact_iff (windowSize : UInt8) (range : Log2Range) :
    ((∃ fuel status, validateWindowSize fuel windowSize range = some status) ∧
      ∀ fuel status, validateWindowSize fuel windowSize range = some status →
        (status.code = .ok ↔ range.Supports windowSize)) ↔
      windowSize < range.min ∨ range.max < windowSize ∨ range.increment = 0 ∨
        range.increment.toNat ∣ windowSize.toNat - range.min.toNat ∨
        range.LeavesBefore windowSize := by
  rw [← or_assoc]
  by_cases hmem : windowSize < range.min ∨ range.max < windowSize
  · refine iff_of_true ⟨?_, fun fuel status h => ?_⟩ (Or.inl hmem)
    · obtain ⟨message, he⟩ := validateWindowSize_of_not_mem hmem 0
      exact ⟨0, _, he⟩
    · obtain ⟨message, he⟩ := validateWindowSize_of_not_mem hmem fuel
      obtain rfl := Option.some.inj (he.symm.trans h)
      refine iff_of_false (by simp [Status.invalid]) fun hsupports => ?_
      rcases hmem with hlt | hlt
      · exact UInt8.not_le.mpr hlt hsupports.1
      · exact UInt8.not_le.mpr hlt hsupports.2.1
  rw [or_iff_right hmem]
  by_cases hzero : range.increment = 0
  · have he := validateWindowSize_of_increment_eq_zero hmem hzero
    refine iff_of_true ⟨⟨0, _, he 0⟩, fun fuel status h => ?_⟩ (Or.inl hzero)
    obtain rfl := Option.some.inj ((he fuel).symm.trans h)
    obtain ⟨hmin, hmax⟩ := not_or.mp hmem
    exact iff_of_true rfl ⟨UInt8.not_lt.mp hmin, UInt8.not_lt.mp hmax, Or.inl hzero⟩
  rw [or_iff_right hzero, ← supports_iff_dvd hmem hzero, status_exact_iff hmem hzero,
    windowLoop_exact_iff hzero]

/-- The odd numbers: the counter comes to 255, then to 1 again, and never to 2. -/
theorem validateWindowSize_odd :
    ¬ ∃ fuel status, validateWindowSize fuel 2 ⟨1, 255, 2⟩ = some status := by
  rw [validateWindowSize_ends_iff]
  decide

/-- In steps of 100 beyond 200, the counter comes to 44. -/
example : validateWindowSize 4 44 ⟨0, 200, 100⟩ = some .success := rfl

/-! ## Ranges that end every check -/

/-- A check that turns the configuration away ends at once. -/
theorem ends_ite {α : Type} {c : Prop} [Decidable c] {result : α} {f : Nat → Option α}
    (h : ∃ fuel result, f fuel = some result) :
    ∃ fuel result', (if c then some result else f fuel) = some result' := by
  by_cases hc : c
  · exact ⟨0, result, if_pos hc⟩
  · obtain ⟨fuel, result', he⟩ := h
    exact ⟨fuel, result', by rw [if_neg hc, he]⟩

/-- With a single size, or with a range that the counter leaves at some time,
`ValidateConfiguration` ends for every configuration. -/
theorem validateConfiguration_ends {info : DeviceInfo}
    (h : ∀ capability, info.deflate = some capability →
      capability.windowSize.increment = 0 ∨ ¬ capability.windowSize.Closed)
    (deviceId : UInt8) (numQps : Nat) (cfg : Configuration) :
    ∃ fuel result, validateConfiguration fuel deviceId numQps info cfg = some result := by
  unfold validateConfiguration validateBase
  refine ends_ite (ends_ite (ends_ite (ends_ite ?_)))
  cases hc : info.deflate with
  | none => exact ⟨0, _, rfl⟩
  | some capability =>
      obtain ⟨fuel, status, he⟩ := (validateWindowSize_ends_iff cfg.withMaxSglSegs.windowSize
        capability.windowSize).mpr (Or.inr (Or.inr ((h capability hc).imp_right Or.inr)))
      exact ends_ite (ends_ite (ends_ite ⟨fuel, _, by rw [he, Option.map_some]⟩))

end Bitar
