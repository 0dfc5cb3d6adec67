import Mathlib.Data.List.Basic
import Mathlib.Tactic.Ring

/-!
# Cutting a list into pieces of a fixed size

`pieces n l` cuts `l` into consecutive pieces of `n` elements; only the last
piece may be shorter.  `piece n j l` is the `j`-th of them, or the empty list
when `l` ends before it.

The number of pieces is the rounded-up quotient `(l.length + n - 1) / n`, and
both functions are given in closed form, so that they can be evaluated.  The
proofs go through the recursion equation `pieces_of_ne_nil` and the induction
principle `cutInduction`.

**Results.**
* `flatten_pieces`: nothing is lost and nothing is reordered.
* `pieces_append`: two lists may be cut separately when the first one is cut
  without a rest.
* `map_flatten_pieces`, `map_length_pieces`: cutting in two levels is cutting
  once into larger pieces.
* `pieces_flatten`: a list of full pieces, the last one possibly shorter, is
  recovered from its concatenation.
-/

universe u v

namespace Pieces

variable {α : Type u} {β : Type v}

/-- The `j`-th piece of `n` elements. -/
def piece (n j : Nat) (l : List α) : List α :=
  (l.drop (j * n)).take n

/-- How many pieces of `n` elements are needed for `len` elements. -/
def count (n len : Nat) : Nat :=
  (len + n - 1) / n

/-- All pieces, in order. -/
def pieces (n : Nat) (l : List α) : List (List α) :=
  (List.range (count n l.length)).map fun j => piece n j l

section Count

variable {n : Nat}

@[simp] theorem count_zero (hn : 0 < n) : count n 0 = 0 := by
  unfold count
  exact Nat.div_eq_of_lt (by omega)

theorem count_pos (hn : 0 < n) {len : Nat} (hlen : 0 < len) : 0 < count n len := by
  unfold count
  exact Nat.div_pos (by omega) hn

theorem count_sub (hn : 0 < n) {len : Nat} (hlen : 0 < len) :
    count n len = count n (len - n) + 1 := by
  unfold count
  by_cases h : n ≤ len
  · have e : len + n - 1 = (len - n + n - 1) + n := by omega
    rw [e, Nat.add_div_right _ hn]
  · have e : len - n = 0 := by omega
    rw [e, Nat.div_eq_of_lt (show 0 + n - 1 < n by omega)]
    exact Nat.div_eq_of_lt_le (by omega) (by omega)

/-- `count n len` pieces are enough. -/
theorem le_count_mul (hn : 0 < n) (len : Nat) : len ≤ count n len * n := by
  unfold count
  have h := Nat.div_add_mod (len + n - 1) n
  have hlt := Nat.mod_lt (len + n - 1) hn
  rw [Nat.mul_comm] at h
  omega

/-- One piece fewer is not enough. -/
theorem count_mul_lt (hn : 0 < n) {len : Nat} (hlen : 0 < len) :
    (count n len - 1) * n < len := by
  have h := Nat.div_mul_le_self (len + n - 1) n
  have hc := count_pos hn hlen
  have e : count n len * n = (count n len - 1) * n + n := by
    conv_lhs => rw [show count n len = (count n len - 1) + 1 by omega]
    ring
  unfold count at *
  omega

theorem count_le_iff (hn : 0 < n) {len k : Nat} : count n len ≤ k ↔ len ≤ k * n := by
  constructor
  · intro h
    exact (le_count_mul hn len).trans (Nat.mul_le_mul_right n h)
  · intro h
    rcases Nat.eq_zero_or_pos len with rfl | hlen
    · simp [hn]
    · have hlt := (count_mul_lt hn hlen).trans_le h
      have := Nat.lt_of_mul_lt_mul_right hlt
      omega

theorem lt_count_iff (hn : 0 < n) {len j : Nat} : j < count n len ↔ j * n < len := by
  rw [← not_le, count_le_iff hn, not_le]

theorem count_mul (hn : 0 < n) (k : Nat) : count n (k * n) = k := by
  apply Nat.le_antisymm
  · rw [count_le_iff hn]
  · rcases Nat.eq_zero_or_pos k with rfl | hk
    · omega
    · have h : k - 1 < count n (k * n) := by
        rw [lt_count_iff hn]
        exact Nat.mul_lt_mul_of_pos_right (by omega) hn
      omega

theorem count_mono {len len' : Nat} (h : len ≤ len') : count n len ≤ count n len' :=
  Nat.div_le_div_right (by omega)

theorem count_min_mul (hn : 0 < n) (len c : Nat) :
    count n (min len (c * n)) = min (count n len) c := by
  apply Nat.le_antisymm
  · rw [Nat.le_min, count_le_iff hn, count_le_iff hn]
    exact ⟨(Nat.min_le_left _ _).trans (le_count_mul hn len), Nat.min_le_right _ _⟩
  · rcases Nat.le_total len (c * n) with h | h
    · rw [Nat.min_eq_left h]
      exact Nat.min_le_left _ _
    · rw [Nat.min_eq_right h, count_mul hn]
      exact Nat.min_le_right _ _

end Count

@[simp] theorem length_pieces (n : Nat) (l : List α) :
    (pieces n l).length = count n l.length := by
  simp [pieces]

@[simp] theorem length_piece (n j : Nat) (l : List α) :
    (piece n j l).length = min n (l.length - j * n) := by
  simp [piece]

theorem piece_zero (n : Nat) (l : List α) : piece n 0 l = l.take n := by
  simp [piece]

theorem piece_succ (n j : Nat) (l : List α) :
    piece n (j + 1) l = piece n j (l.drop n) := by
  simp [piece, List.drop_drop, Nat.succ_mul, Nat.add_comm]

theorem piece_eq_nil {n j : Nat} {l : List α} (h : l.length ≤ j * n) : piece n j l = [] := by
  simp [piece, List.drop_eq_nil_of_le h]

theorem piece_map (f : α → β) (n j : Nat) (l : List α) :
    piece n j (l.map f) = (piece n j l).map f := by
  simp [piece, List.map_take, List.map_drop]

theorem pieces_map (f : α → β) (n : Nat) (l : List α) :
    pieces n (l.map f) = (pieces n l).map (List.map f) := by
  simp [pieces, piece_map]

theorem getElem_pieces (n : Nat) (l : List α) (j : Nat) (h : j < (pieces n l).length) :
    (pieces n l)[j] = piece n j l := by
  simp [pieces]

@[simp] theorem pieces_nil {n : Nat} (hn : 0 < n) : pieces n ([] : List α) = [] := by
  simp [pieces, hn]

/-- The recursion equation: cut off the first piece. -/
theorem pieces_of_ne_nil {n : Nat} (hn : 0 < n) {l : List α} (hl : l ≠ []) :
    pieces n l = l.take n :: pieces n (l.drop n) := by
  have hlen : 0 < l.length := List.length_pos_iff.mpr hl
  unfold pieces
  rw [count_sub hn hlen, List.range_succ_eq_map, List.map_cons, List.map_map, piece_zero,
    List.length_drop]
  congr 1
  apply List.map_congr_left
  intro j _
  exact piece_succ n j l

/-- Induction along the cuts of a list. -/
theorem cutInduction {n : Nat} (hn : 0 < n) {P : List α → Prop} (nil : P [])
    (cut : ∀ l, l ≠ [] → P (l.drop n) → P l) (l : List α) : P l := by
  induction hk : l.length using Nat.strong_induction_on generalizing l with
  | _ k ih =>
      by_cases hl : l = []
      · subst hl
        exact nil
      · have hlen : 0 < l.length := List.length_pos_iff.mpr hl
        exact cut l hl (ih (l.drop n).length (by simp; omega) (l.drop n) rfl)

theorem flatten_pieces {n : Nat} (hn : 0 < n) (l : List α) : (pieces n l).flatten = l := by
  induction l using cutInduction hn with
  | nil => simp [hn]
  | cut l hl ih =>
      rw [pieces_of_ne_nil hn hl, List.flatten_cons, ih, List.take_append_drop]

/-- Counting on past the end only adds empty pieces. -/
theorem flatten_map_piece {n : Nat} : ∀ (k : Nat) (l : List α), l.length ≤ k * n →
    ((List.range k).map fun j => piece n j l).flatten = l
  | 0, l, h => by
      have : l = [] := List.eq_nil_of_length_eq_zero (by omega)
      simp [this]
  | k + 1, l, h => by
      have ih := flatten_map_piece (n := n) k (l.drop n) (by
        rw [Nat.succ_mul] at h
        rw [List.length_drop]
        omega)
      rw [List.range_succ_eq_map, List.map_cons, List.map_map, List.flatten_cons, piece_zero]
      simp only [Function.comp_def, piece_succ]
      rw [ih, List.take_append_drop]

theorem pieces_eq_nil_iff {n : Nat} (hn : 0 < n) {l : List α} : pieces n l = [] ↔ l = [] := by
  constructor
  · intro h
    rw [← flatten_pieces hn l, h, List.flatten_nil]
  · rintro rfl
    exact pieces_nil hn

/-- A piece consists of elements of the list. -/
theorem subset_of_mem_pieces {n : Nat} {l p : List α} (hp : p ∈ pieces n l) : p ⊆ l := by
  obtain ⟨j, -, rfl⟩ := List.mem_map.mp hp
  exact fun x hx => List.mem_of_mem_drop (List.mem_of_mem_take hx)

/-- No piece is empty and none is longer than `n`. -/
theorem length_of_mem_pieces {n : Nat} (hn : 0 < n) {l p : List α} (hp : p ∈ pieces n l) :
    0 < p.length ∧ p.length ≤ n := by
  obtain ⟨j, hj, rfl⟩ := List.mem_map.mp hp
  have := (lt_count_iff hn).mp (List.mem_range.mp hj)
  simp only [length_piece]
  omega

/-- A list whose length is a multiple of `n` can be cut on its own. -/
theorem pieces_append {n : Nat} (hn : 0 < n) (l r : List α)
    (h : n ∣ l.length ∨ r = []) : pieces n (l ++ r) = pieces n l ++ pieces n r := by
  induction l using cutInduction hn with
  | nil => simp [hn]
  | cut l hl ih =>
      rcases h with h | rfl
      · have hle : n ≤ l.length := Nat.le_of_dvd (List.length_pos_iff.mpr hl) h
        have hd : n ∣ (l.drop n).length := by
          rw [List.length_drop]
          exact Nat.dvd_sub h (Nat.dvd_refl n)
        rw [pieces_of_ne_nil hn (by simp [hl]), pieces_of_ne_nil hn hl,
          List.take_append_of_le_length hle, List.drop_append_of_le_length hle,
          ih (Or.inl hd), List.cons_append]
      · simp [hn]

/-- The first `k` pieces and the others. -/
theorem split_pieces {s : Nat} (hs : 0 < s) :
    ∀ (k : Nat) (l : List α), ((pieces s l).take k).flatten = l.take (k * s) ∧
      (pieces s l).drop k = pieces s (l.drop (k * s))
  | 0, l => by simp
  | k + 1, l => by
      by_cases hl : l = []
      · subst hl
        simp [hs]
      · obtain ⟨h1, h2⟩ := split_pieces hs k (l.drop s)
        rw [pieces_of_ne_nil hs hl]
        constructor
        · rw [List.take_succ_cons, List.flatten_cons, h1, Nat.succ_mul, Nat.add_comm,
            List.take_add]
        · rw [List.drop_succ_cons, h2, List.drop_drop, Nat.succ_mul, Nat.add_comm]

/-- Cutting into pieces of `s` elements and grouping `m` of these at a time is
cutting into pieces of `m * s` elements. -/
theorem map_flatten_pieces {m s : Nat} (hm : 0 < m) (hs : 0 < s) (l : List α) :
    (pieces m (pieces s l)).map List.flatten = pieces (m * s) l := by
  have hms : 0 < m * s := Nat.mul_pos hm hs
  induction l using cutInduction hms with
  | nil => simp [hm, hs, hms]
  | cut l hl ih =>
      have hp : pieces s l ≠ [] := fun h => hl ((pieces_eq_nil_iff hs).mp h)
      obtain ⟨h1, h2⟩ := split_pieces hs m l
      rw [pieces_of_ne_nil hm hp, List.map_cons, h1, h2, ih, pieces_of_ne_nil hms hl]

/-- The sizes of these groups. -/
theorem map_length_pieces {m s : Nat} (hm : 0 < m) (hs : 0 < s) (l : List α) :
    (pieces m (pieces s l)).map List.length =
      (pieces (m * s) l).map fun block => count s block.length := by
  have hms : 0 < m * s := Nat.mul_pos hm hs
  induction l using cutInduction hms with
  | nil => simp [hm, hs, hms]
  | cut l hl ih =>
      have hp : pieces s l ≠ [] := fun h => hl ((pieces_eq_nil_iff hs).mp h)
      rw [pieces_of_ne_nil hm hp, (split_pieces hs m l).2, pieces_of_ne_nil hms hl, List.map_cons,
        List.map_cons, ih, List.length_take, List.length_take, length_pieces, Nat.min_comm (m * s),
        count_min_mul hs, Nat.min_comm]

/-- Full groups, followed by a last group that may be shorter, are recovered
by cutting their concatenation. -/
theorem pieces_flatten {n : Nat} (hn : 0 < n) :
    ∀ gs : List (List α), (∀ g ∈ gs, g ≠ [] ∧ g.length ≤ n) →
      (∀ g ∈ gs.dropLast, g.length = n) → pieces n gs.flatten = gs
  | [], _, _ => by simp [hn]
  | [g], hg, _ => by
      obtain ⟨hne, hle⟩ := hg g (by simp)
      rw [List.flatten_singleton, pieces_of_ne_nil hn hne, List.take_of_length_le hle,
        List.drop_eq_nil_of_le hle, pieces_nil hn]
  | g :: g' :: gs, hg, hfull => by
      have hlen : g.length = n := hfull g (by simp)
      have ih := pieces_flatten hn (g' :: gs)
        (fun x hx => hg x (List.mem_cons_of_mem _ hx))
        (fun x hx => hfull x (by
          rw [List.dropLast_cons_of_ne_nil (by simp)]
          exact List.mem_cons_of_mem _ hx))
      rw [List.flatten_cons, pieces_append hn _ _ (Or.inl (by rw [hlen])), ih,
        pieces_of_ne_nil hn (hg g (by simp)).1, ← hlen, List.take_length, List.drop_length,
        hlen, pieces_nil hn, List.singleton_append]

/-- All groups but the last are full pieces. -/
theorem length_of_mem_dropLast_pieces {n : Nat} (hn : 0 < n) (l : List α) :
    ∀ p ∈ (pieces n l).dropLast, p.length = n := by
  induction l using cutInduction hn with
  | nil => simp [hn]
  | cut l hl ih =>
      rw [pieces_of_ne_nil hn hl]
      by_cases hd : l.drop n = []
      · simp [hd, hn]
      · rw [List.dropLast_cons_of_ne_nil (fun h => hd ((pieces_eq_nil_iff hn).mp h))]
        intro p hp
        rcases List.mem_cons.mp hp with rfl | hp
        · have : n < l.length := by
            by_contra hle
            exact hd (List.drop_eq_nil_of_le (by omega))
          simp
          omega
        · exact ih p hp

/-- Appending one element at position `t` extends the piece that holds `t`. -/
theorem piece_append_singleton {m : Nat} (hm : 0 < m) (l : List α) (x : α) (j : Nat) :
    piece m j (l ++ [x]) =
      if j = l.length / m then piece m j l ++ [x] else piece m j l := by
  have hdm := Nat.div_add_mod l.length m
  have hlt := Nat.mod_lt l.length hm
  rw [Nat.mul_comm] at hdm
  unfold piece
  split_ifs with h
  · subst h
    rw [List.drop_append_of_le_length (by omega), List.take_of_length_le (by simp; omega),
      List.take_of_length_le (by simp; omega)]
  · rcases Nat.lt_or_gt_of_ne h with hj | hj
    · have hle : (j + 1) * m ≤ l.length / m * m := Nat.mul_le_mul_right m hj
      rw [Nat.succ_mul] at hle
      rw [List.drop_append_of_le_length (by omega),
        List.take_append_of_le_length (by simp; omega)]
    · have hle : (l.length / m + 1) * m ≤ j * m := Nat.mul_le_mul_right m hj
      rw [Nat.succ_mul] at hle
      rw [List.drop_eq_nil_of_le (by simp; omega), List.drop_eq_nil_of_le (by omega)]

end Pieces
