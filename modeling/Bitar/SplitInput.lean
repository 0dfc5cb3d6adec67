import Bitar.Configuration

/-!
# Splitting the input and checking the outputs

`EvaluateAsync` splits its input into one segment for each test, as even as
possible.  In the end it compares the outputs, one after another, with the input,
the offset being that of the outputs so far.

**Results.**
* `flatten_segments`: the segments make up the input.
* `segmentSize_even`: no segment is more than one byte longer than another one.
* `compareOutputs_iff`: the outputs pass if and only if they make up the input.
-/

namespace Bitar

/-- The size of a segment. -/
def segmentSize (size numSegments idx : Nat) : Nat :=
  size / numSegments + if idx < size % numSegments then 1 else 0

/-- `input_offset` when a segment is cut off. -/
def inputOffset (size numSegments : Nat) : Nat → Nat
  | 0 => 0
  | idx + 1 => inputOffset size numSegments idx + segmentSize size numSegments idx

/-- What is copied into the buffer of a test. -/
def segment (input : List UInt8) (numSegments idx : Nat) : List UInt8 :=
  (input.drop (inputOffset input.length numSegments idx)).take
    (segmentSize input.length numSegments idx)

/-- The loop over the outputs at the end of `EvaluateAsync`. -/
def compareLoop (input : List UInt8) : Nat → Nat → List (List UInt8) → Status
  | _, _, [] => .success
  | idx, inputOffset, output :: outputs =>
      if output ≠ (input.drop inputOffset).take output.length then
        .invalid s!"Decompressed segment {idx} is not the same as the input buffer"
      else compareLoop input (idx + 1) (inputOffset + output.length) outputs

/-- The checks at the end of `EvaluateAsync`. -/
def compareOutputs (input : List UInt8) (outputs : List (List UInt8)) : Status :=
  if (outputs.map List.length).sum ≠ input.length then
    .invalid "Decompressed buffer length is not equal to the input buffer length"
  else compareLoop input 0 0 outputs

section Split

variable {size numSegments : Nat}

theorem segmentSize_even (i j : Nat) :
    segmentSize size numSegments i ≤ segmentSize size numSegments j + 1 := by
  unfold segmentSize
  split_ifs <;> omega

theorem inputOffset_eq (idx : Nat) :
    inputOffset size numSegments idx =
      idx * (size / numSegments) + min idx (size % numSegments) := by
  induction idx with
  | zero => simp [inputOffset]
  | succ idx ih =>
      rw [inputOffset, ih, segmentSize, Nat.succ_mul]
      split_ifs <;> omega

/-- The segments end where the input ends. -/
theorem inputOffset_last (hpos : 0 < numSegments) :
    inputOffset size numSegments numSegments = size := by
  rw [inputOffset_eq, Nat.min_eq_right (Nat.le_of_lt (Nat.mod_lt _ hpos))]
  exact Nat.div_add_mod size numSegments

theorem inputOffset_mono {i j : Nat} (h : i ≤ j) :
    inputOffset size numSegments i ≤ inputOffset size numSegments j := by
  induction h with
  | refl => exact Nat.le_refl _
  | step _ ih => exact ih.trans (Nat.le_add_right _ _)

end Split

section Segments

variable {input : List UInt8} {numSegments : Nat}

/-- The first segments make up the first part of the input. -/
theorem flatten_segments_take (input : List UInt8) (numSegments k : Nat) :
    ((List.range k).map (segment input numSegments)).flatten =
      input.take (inputOffset input.length numSegments k) := by
  induction k with
  | zero => simp [inputOffset]
  | succ k ih =>
      rw [List.range_succ, List.map_append, List.flatten_append, ih, inputOffset, List.take_add]
      simp [segment]

theorem flatten_segments (hpos : 0 < numSegments) :
    ((List.range numSegments).map (segment input numSegments)).flatten = input := by
  rw [flatten_segments_take, inputOffset_last hpos, List.take_length]

theorem length_segment (hpos : 0 < numSegments) {idx : Nat} (hidx : idx < numSegments) :
    (segment input numSegments idx).length = segmentSize input.length numSegments idx := by
  have hle := @inputOffset_mono input.length numSegments _ _ (Nat.succ_le_of_lt hidx)
  rw [inputOffset_last hpos, inputOffset] at hle
  rw [segment, List.length_take, List.length_drop]
  omega

end Segments

/-! ## The comparison -/

theorem compareLoop_iff (input : List UInt8) (outputs : List (List UInt8)) :
    ∀ idx inputOffset, inputOffset + (outputs.map List.length).sum = input.length →
      (compareLoop input idx inputOffset outputs = .success ↔
        outputs.flatten = input.drop inputOffset) := by
  induction outputs with
  | nil =>
      intro idx inputOffset h
      rw [List.drop_eq_nil_of_le (by simpa using h.ge)]
      simp [compareLoop]
  | cons output outputs ih =>
      intro idx inputOffset h
      rw [List.map_cons, List.sum_cons, ← Nat.add_assoc] at h
      have hsplit : input.drop inputOffset =
          (input.drop inputOffset).take output.length ++
            input.drop (inputOffset + output.length) := by
        rw [← List.drop_drop, List.take_append_drop]
      have hlen : ((input.drop inputOffset).take output.length).length = output.length := by
        rw [List.length_take, List.length_drop]
        omega
      rw [compareLoop, List.flatten_cons]
      by_cases hsame : output = (input.drop inputOffset).take output.length
      · rw [if_neg (not_not_intro hsame), ih _ _ h]
        constructor
        · intro he
          rw [he, hsplit, ← hsame]
        · intro he
          rw [hsplit, ← hsame] at he
          exact List.append_cancel_left he
      · rw [if_pos hsame]
        refine ⟨fun he => by simp [Status.success, Status.invalid] at he, fun he => ?_⟩
        exact absurd (List.append_inj (he.trans hsplit) hlen.symm).1 hsame

/-- **The outputs pass** if and only if they make up the input. -/
theorem compareOutputs_iff (input : List UInt8) (outputs : List (List UInt8)) :
    compareOutputs input outputs = .success ↔ outputs.flatten = input := by
  rw [compareOutputs]
  split_ifs with hne
  · refine ⟨fun he => by simp [Status.success, Status.invalid] at he, fun he => ?_⟩
    rw [← he, List.length_flatten] at hne
    exact absurd rfl hne
  · rw [not_not] at hne
    rw [compareLoop_iff input outputs 0 0 (by rw [Nat.zero_add, hne]), List.drop_zero]

end Bitar
