import Bitar.Lib.Search
import Bitar.Configuration
import Mathlib.Data.Nat.Bitwise
import Mathlib.Data.Nat.Log

/-!
# The search of `UpdateCompressedSegSize`

The loop shifts a single bit down from `2 ^ 16` until it meets a bit of the
doubled size.  It has no lower bound: a size without any bit is never met.

**Results.**
* `compressedSegSize_eq`: what the bit search of `UpdateCompressedSegSize` finds.
* `updateCompressedSegSize_settles_iff`: the search ends, with a size that fits,
  for every size but zero.
-/

namespace Bitar

/-- The size that `UpdateCompressedSegSize` computes, before it is narrowed to
16 bits. -/
def wideSegSize (fuel : Nat) (d : UInt16) : Option Nat :=
  (probe (d.toNat <<< 1) fuel 65536).map fun num =>
    if num > 65536 >>> 1 then d.toNat * 11 / 10 else num

theorem updateCompressedSegSize_eq_map (fuel : Nat) (d : UInt16) :
    updateCompressedSegSize fuel d = (wideSegSize fuel d).map UInt16.ofNat := by
  simp [updateCompressedSegSize, wideSegSize, Function.comp_def]

/-! ## The bit search -/

/-- Without a bit to meet, the search does not end. -/
theorem probe_zero (fuel : Nat) : ∀ num, probe 0 fuel num = none := by
  induction fuel with
  | zero => exact fun _ => rfl
  | succ fuel ih =>
      intro num
      simp [probe, ih]

theorem probe_eq_search (lowerBound fuel : Nat) : ∀ num,
    probe lowerBound fuel num =
      Search.search (fun num => num &&& lowerBound ≠ 0) (· >>> 1) fuel num := by
  induction fuel with
  | zero => exact fun _ => rfl
  | succ fuel ih =>
      intro num
      rw [probe, Search.search, ih, ite_not]

/-- What the search finds does not depend on the fuel. -/
theorem probe_unique {lowerBound : Nat} {f g num a b : Nat}
    (ha : probe lowerBound f num = some a) (hb : probe lowerBound g num = some b) : a = b := by
  rw [probe_eq_search] at ha hb
  exact Search.search_unique ha hb

/-- The search stops at the highest bit of the doubled size. -/
theorem probe_two_pow {d k : Nat} (hlow : 2 ^ k ≤ d) (hhigh : d < 2 ^ (k + 1)) (fuel : Nat) :
    ∀ t, probe (d <<< 1) (t + (fuel + 1)) (2 ^ (k + 1 + t)) = some (2 ^ (k + 1))
  | 0 => by
      have hbit : d.testBit k = true := by
        have hdiv : d / 2 ^ k = 1 := by
          rw [Nat.pow_succ] at hhigh
          exact Nat.div_eq_of_lt_le (by omega) (by omega)
        rw [Nat.testBit_eq_decide_div_mod_eq, hdiv]
        rfl
      rw [Nat.zero_add, Nat.add_zero, probe, Nat.two_pow_and, Nat.testBit_shiftLeft]
      simp [hbit]
  | t + 1 => by
      have hbit : d.testBit (k + 1 + t) = false := by
        have hpow := Nat.pow_le_pow_right (n := 2) (by omega) (Nat.le_add_right (k + 1) t)
        exact Nat.testBit_lt_two_pow (by omega)
      have hshift : 2 ^ (k + 1 + (t + 1)) >>> 1 = 2 ^ (k + 1 + t) := by
        rw [Nat.shiftRight_eq_div_pow, ← Nat.add_assoc, Nat.pow_succ]
        omega
      rw [show t + 1 + (fuel + 1) = t + (fuel + 1) + 1 by omega, probe, Nat.two_pow_and,
        Nat.testBit_shiftLeft, hshift, probe_two_pow hlow hhigh fuel t]
      simp [show k + 1 + (t + 1) - 1 = k + 1 + t by omega, hbit]

/-- Eighteen rounds are enough for every size but zero. -/
theorem probe_of_ne_zero {d : Nat} (hpos : d ≠ 0) (hlt : d < 65536) :
    probe (d <<< 1) 18 65536 = some (2 ^ (Nat.log 2 d + 1)) := by
  have hlow := Nat.pow_log_le_self 2 hpos
  have hhigh := Nat.lt_pow_succ_log_self (b := 2) (by omega) d
  have hk : Nat.log 2 d < 16 := Nat.log_lt_of_lt_pow hpos (by omega)
  have hprobe := probe_two_pow hlow hhigh (Nat.log 2 d + 2) (15 - Nat.log 2 d)
  rw [show 15 - Nat.log 2 d + (Nat.log 2 d + 2 + 1) = 18 by omega,
    show Nat.log 2 d + 1 + (15 - Nat.log 2 d) = 16 by omega] at hprobe
  exact hprobe

theorem toNat_ne_zero {d : UInt16} (hd : d ≠ 0) : d.toNat ≠ 0 :=
  fun h => hd (UInt16.toNat_inj.mp h)

/-- The size before it is narrowed. -/
theorem wideSegSize_eq {d : UInt16} (hd : d ≠ 0) :
    wideSegSize 18 d = some
      (if 32768 ≤ d.toNat then d.toNat * 11 / 10 else 2 ^ (Nat.log 2 d.toNat + 1)) := by
  have hpos := toNat_ne_zero hd
  have hlt := d.toNat_lt
  rw [wideSegSize, probe_of_ne_zero hpos (by omega), Option.map_some]
  congr 1
  by_cases hbig : 32768 ≤ d.toNat
  · have hlog : 15 ≤ Nat.log 2 d.toNat := Nat.le_log_of_pow_le (by omega) (by omega)
    have hpow := Nat.pow_le_pow_right (n := 2) (by omega) (Nat.succ_le_succ hlog)
    rw [if_pos hbig, if_pos]
    rw [Nat.shiftRight_eq_div_pow]
    omega
  · have hlog : Nat.log 2 d.toNat < 15 := Nat.log_lt_of_lt_pow hpos (by omega)
    have hpow := Nat.pow_le_pow_right (n := 2) (by omega) (Nat.succ_le_of_lt hlog)
    rw [if_neg hbig, if_neg]
    rw [Nat.shiftRight_eq_div_pow]
    omega

/-- The size fits in 16 bits. -/
theorem wideSegSize_lt {d : UInt16} (hd : d ≠ 0) (hmax : d.toNat ≤ kMaxSegSize) :
    (if 32768 ≤ d.toNat then d.toNat * 11 / 10 else 2 ^ (Nat.log 2 d.toNat + 1)) ≤ 65408 := by
  have hmaxSize : kMaxSegSize = 59460 := by decide
  split_ifs with hbig
  · omega
  · have hlog : Nat.log 2 d.toNat < 15 := Nat.log_lt_of_lt_pow (toNat_ne_zero hd) (by omega)
    have hpow := Nat.pow_le_pow_right (n := 2) (by omega) (Nat.succ_le_of_lt hlog)
    omega

theorem compressedSegSize_eq {cfg : Configuration} (hb : cfg.Bounds) :
    cfg.compressedSegSize =
      if 32768 ≤ cfg.decompressedSegSize.toNat then cfg.decompressedSegSize.toNat * 11 / 10
      else 2 ^ (Nat.log 2 cfg.decompressedSegSize.toNat + 1) := by
  have hd : cfg.decompressedSegSize ≠ 0 := fun h => by
    have := hb.segSize_pos
    rw [h] at this
    exact absurd this (by decide)
  have hlt := wideSegSize_lt hd hb.le_maxSegSize
  rw [Configuration.compressedSegSize, updateCompressedSegSize_eq_map, wideSegSize_eq hd]
  exact Nat.mod_eq_of_lt (by omega)

/-! ## Sizes that fit -/

/-- `n` is the least power of two greater than `d`. -/
def IsNextTwoPow (d n : Nat) : Prop :=
  (∃ k, n = 2 ^ k) ∧ d < n ∧ ∀ k, d < 2 ^ k → n ≤ 2 ^ k

theorem isNextTwoPow_log {d : Nat} (hpos : d ≠ 0) : IsNextTwoPow d (2 ^ (Nat.log 2 d + 1)) := by
  refine ⟨⟨_, rfl⟩, Nat.lt_pow_succ_log_self (b := 2) (by omega) d, fun k hk => ?_⟩
  exact Nat.pow_le_pow_right (by omega) (Nat.log_lt_of_lt_pow hpos hk)

/-- What is asked of the size that the search leads to. -/
structure SegSizeFits (d size : UInt16) (wide : Nat) : Prop where
  exact : size.toNat = wide
  gt : d.toNat < size.toNat
  nextTwoPow : d.toNat < 2 ^ 15 → IsNextTwoPow d.toNat size.toNat
  expanse : 2 ^ 15 ≤ d.toNat → size.toNat = 11 * d.toNat / 10
  memzone : toUInt16 (memzoneLen size.toNat) = memzoneLen size.toNat

theorem segSizeFits {d : UInt16} (hd : d ≠ 0) (hmax : d.toNat ≤ kMaxSegSize) {fuel wide : Nat}
    (h : wideSegSize fuel d = some wide) : SegSizeFits d (UInt16.ofNat wide) wide := by
  have hwide : wide =
      if 32768 ≤ d.toNat then d.toNat * 11 / 10 else 2 ^ (Nat.log 2 d.toNat + 1) := by
    obtain ⟨num, hnum, rfl⟩ := Option.map_eq_some_iff.mp h
    obtain ⟨num', hnum', he⟩ := Option.map_eq_some_iff.mp (wideSegSize_eq hd)
    rw [← he, probe_unique hnum hnum']
  have hle := wideSegSize_lt hd hmax
  rw [← hwide] at hle
  have hnarrow : (UInt16.ofNat wide).toNat = wide := Nat.mod_eq_of_lt (by omega)
  have hnext := isNextTwoPow_log (toNat_ne_zero hd)
  refine ⟨hnarrow, ?_, fun hsmall => ?_, fun hbig => ?_, ?_⟩
  · rw [hnarrow, hwide]
    split_ifs with hbig
    · omega
    · exact hnext.2.1
  · rw [hnarrow, hwide, if_neg (by omega)]
    exact hnext
  · rw [hnarrow, hwide, if_pos (by omega), Nat.mul_comm]
  · rw [hnarrow]
    apply toUInt16_of_lt
    unfold memzoneLen
    omega

/-- **The segment size settles.**  For every size but zero, and for zero never,
the search of `UpdateCompressedSegSize` ends; what it leads to for a size within
the limit fits. -/
theorem updateCompressedSegSize_settles_iff (d : UInt16) :
    ((∃ fuel size, updateCompressedSegSize fuel d = some size) ∧
      (1 ≤ d.toNat → d.toNat ≤ kMaxSegSize → ∀ fuel size,
        updateCompressedSegSize fuel d = some size →
        ∃ wide, wideSegSize fuel d = some wide ∧ SegSizeFits d size wide)) ↔ d ≠ 0 := by
  constructor
  · rintro ⟨⟨fuel, size, h⟩, -⟩ rfl
    rw [updateCompressedSegSize, show (0 : UInt16).toNat <<< 1 = 0 from rfl, probe_zero] at h
    cases h
  · intro hd
    constructor
    · exact ⟨18, _, by rw [updateCompressedSegSize_eq_map, wideSegSize_eq hd, Option.map_some]⟩
    · intro _ hmax fuel size h
      rw [updateCompressedSegSize_eq_map] at h
      obtain ⟨wide, hwide, rfl⟩ := Option.map_eq_some_iff.mp h
      exact ⟨wide, hwide, segSizeFits hd hmax hwide⟩

/-- With size zero the search goes on for ever. -/
theorem updateCompressedSegSize_settles_zero :
    ¬ ∃ fuel size, updateCompressedSegSize fuel 0 = some size := by
  rintro ⟨fuel, size, h⟩
  rw [updateCompressedSegSize, show (0 : UInt16).toNat <<< 1 = 0 from rfl, probe_zero] at h
  cases h

end Bitar
