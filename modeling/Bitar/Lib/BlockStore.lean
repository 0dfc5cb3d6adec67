import Bitar.Lib.Pieces

/-!
# Block-structured memory

A store maps a block and a position in it to the byte held there.  Distinct
blocks never overlap; inside a block positions are compared.

A scatter-gather list is a list of spans.  `gather` reads the spans one after
another, `scatter` writes a byte string into them in order, and `fill spans n`
is the part of the spans that the first `n` bytes written occupy.

**Results.**
* `read_write_self`, `read_write_of_disjoint`: the two frame rules of a write.
* `scatter_contiguous`: scattering over adjacent spans is one write.
* `map_read_fill_scatter`: what was scattered over disjoint spans of equal
  length is read back piece by piece.
-/

universe u v

namespace BlockStore

variable {β : Type u} {γ : Type v}

/-- The contents of every block. -/
abbrev Store (β : Type u) (γ : Type v) := β → Nat → γ

/-- A range of positions of one block. -/
structure Span (β : Type u) where
  block : β
  offset : Nat
  length : Nat
deriving DecidableEq, Repr

/-- Read `n` positions from `offset` on. -/
def read (st : Store β γ) (b : β) (offset n : Nat) : List γ :=
  (List.range n).map fun i => st b (offset + i)

/-- The contents of a span. -/
def Span.read (st : Store β γ) (sp : Span β) : List γ :=
  BlockStore.read st sp.block sp.offset sp.length

/-- Write `xs` from `offset` on. -/
def write [DecidableEq β] (st : Store β γ) (b : β) (offset : Nat) (xs : List γ) : Store β γ :=
  fun b' i => if b' = b ∧ offset ≤ i then (xs[i - offset]?).getD (st b' i) else st b' i

/-- The contents of a scatter-gather list. -/
def gather (st : Store β γ) (sps : List (Span β)) : List γ :=
  sps.flatMap (Span.read st)

/-- The number of positions of a scatter-gather list. -/
def room (sps : List (Span β)) : Nat :=
  (sps.map Span.length).sum

/-- Write `xs` into the spans, in order. -/
def scatter [DecidableEq β] : Store β γ → List (Span β) → List γ → Store β γ
  | st, [], _ => st
  | st, sp :: sps, xs =>
      scatter (write st sp.block sp.offset (xs.take sp.length)) sps (xs.drop sp.length)

/-- Several scatters, one after another. -/
def scatterAll [DecidableEq β] (st : Store β γ) (jobs : List (List (Span β) × List γ)) :
    Store β γ :=
  jobs.foldl (fun st job => scatter st job.1 job.2) st

/-- The part of the spans that the first `n` positions take. -/
def fill : List (Span β) → Nat → List (Span β)
  | [], _ => []
  | sp :: sps, n =>
      if n = 0 then []
      else { sp with length := min sp.length n } :: fill sps (n - min sp.length n)

/-- The spans follow one another in block `b`, from `offset` on. -/
def Contiguous (b : β) : Nat → List (Span β) → Prop
  | _, [] => True
  | offset, sp :: sps => sp.block = b ∧ sp.offset = offset ∧ Contiguous b (offset + sp.length) sps

@[simp] theorem room_nil : room ([] : List (Span β)) = 0 := rfl

theorem room_cons (sp : Span β) (sps : List (Span β)) :
    room (sp :: sps) = sp.length + room sps := by
  simp [room]

theorem contiguous_append {b : β} : ∀ (l r : List (Span β)) (offset : Nat),
    Contiguous b offset (l ++ r) ↔ Contiguous b offset l ∧ Contiguous b (offset + room l) r
  | [], r, offset => by simp [Contiguous]
  | sp :: l, r, offset => by
      rw [List.cons_append, Contiguous, Contiguous, contiguous_append l r, room_cons,
        Nat.add_assoc]
      tauto

/-- The location `(b, i)` lies outside the span. -/
def Span.Avoids (sp : Span β) (b : β) (i : Nat) : Prop :=
  b ≠ sp.block ∨ i < sp.offset ∨ sp.offset + sp.length ≤ i

/-- Two spans without a common location. -/
def Span.Disjoint (s t : Span β) : Prop :=
  s.block ≠ t.block ∨ s.offset + s.length ≤ t.offset ∨ t.offset + t.length ≤ s.offset

instance [DecidableEq β] (s t : Span β) : Decidable (s.Disjoint t) :=
  inferInstanceAs (Decidable (_ ∨ _ ∨ _))

theorem Span.Disjoint.symm {s t : Span β} (h : s.Disjoint t) : t.Disjoint s := by
  rcases h with hb | hi
  · exact Or.inl (Ne.symm hb)
  · exact Or.inr (Or.symm hi)

section Read

variable (st : Store β γ)

@[simp] theorem length_read (b : β) (offset n : Nat) : (read st b offset n).length = n := by
  simp [read]

@[simp] theorem read_zero (b : β) (offset : Nat) : read st b offset 0 = [] := rfl

theorem read_add (b : β) (offset n k : Nat) :
    read st b offset (n + k) = read st b offset n ++ read st b (offset + n) k := by
  simp [read, List.range_add, List.map_append, Nat.add_assoc]

theorem take_read (b : β) (offset n k : Nat) :
    (read st b offset n).take k = read st b offset (min k n) := by
  simp [read, ← List.map_take, List.take_range]

theorem drop_read (b : β) (offset n k : Nat) :
    (read st b offset n).drop k = read st b (offset + k) (n - k) := by
  by_cases h : k ≤ n
  · obtain ⟨d, rfl⟩ := Nat.exists_eq_add_of_le h
    rw [read_add, Nat.add_sub_cancel_left, List.drop_append_of_le_length (by simp),
      List.drop_eq_nil_of_le (by simp), List.nil_append]
  · rw [List.drop_eq_nil_of_le (by simp; omega), show n - k = 0 by omega]
    rfl

/-- A piece of what is read is read from its own offset. -/
theorem piece_read (b : β) (offset n s j : Nat) :
    Pieces.piece s j (read st b offset n) =
      read st b (offset + j * s) (min s (n - j * s)) := by
  rw [Pieces.piece, drop_read, take_read]

theorem read_congr {st st' : Store β γ} {b : β} {offset n : Nat}
    (h : ∀ i, offset ≤ i → i < offset + n → st b i = st' b i) :
    read st b offset n = read st' b offset n := by
  apply List.map_congr_left
  intro i hi
  have := List.mem_range.mp hi
  exact h _ (by omega) (by omega)

end Read

section Write

variable [DecidableEq β]

theorem write_apply_of_avoids (st : Store β γ) {b b' : β} {offset i : Nat} {xs : List γ}
    (h : b' ≠ b ∨ i < offset ∨ offset + xs.length ≤ i) :
    write st b offset xs b' i = st b' i := by
  unfold write
  split_ifs with hc
  · have hi : xs.length ≤ i - offset := by
      rcases h with hb | hi
      · exact absurd hc.1 hb
      · omega
    rw [List.getElem?_eq_none hi, Option.getD_none]
  · rfl

theorem write_apply_self (st : Store β γ) (b : β) (offset : Nat) (xs : List γ) {i : Nat}
    (h : i < xs.length) : write st b offset xs b (offset + i) = xs[i] := by
  unfold write
  rw [if_pos ⟨rfl, by omega⟩, Nat.add_sub_cancel_left, List.getElem?_eq_getElem h,
    Option.getD_some]

theorem read_write_self (st : Store β γ) (b : β) (offset : Nat) (xs : List γ) :
    read (write st b offset xs) b offset xs.length = xs := by
  apply List.ext_getElem
  · simp
  · intro i h1 h2
    simp [read, write_apply_self st b offset xs h2]

theorem read_write_of_disjoint (st : Store β γ) {b b' : β} {offset offset' n : Nat}
    {xs : List γ} (h : b' ≠ b ∨ offset' + n ≤ offset ∨ offset + xs.length ≤ offset') :
    read (write st b offset xs) b' offset' n = read st b' offset' n := by
  apply read_congr
  intro i h1 h2
  apply write_apply_of_avoids
  rcases h with hb | hi
  · exact Or.inl hb
  · exact Or.inr (by omega)

/-- Writing behind what is read extends it. -/
theorem read_write_append (st : Store β γ) (b : β) (offset n : Nat) (xs : List γ) :
    read (write st b (offset + n) xs) b offset (n + xs.length) = read st b offset n ++ xs := by
  rw [read_add, read_write_of_disjoint st (Or.inr (Or.inl (Nat.le_refl _))), read_write_self]

theorem write_nil (st : Store β γ) (b : β) (offset : Nat) : write st b offset [] = st := by
  funext b' i
  exact write_apply_of_avoids st (by simp; omega)

/-- Two adjacent writes are one write. -/
theorem write_write_append (st : Store β γ) (b : β) (offset : Nat) (xs ys : List γ) :
    write (write st b offset xs) b (offset + xs.length) ys = write st b offset (xs ++ ys) := by
  funext b' i
  by_cases hb : b' = b ∧ offset ≤ i
  · obtain ⟨rfl, hi⟩ := hb
    by_cases hx : i < offset + xs.length
    · rw [write_apply_of_avoids _ (Or.inr (Or.inl hx))]
      simp only [write, true_and, if_pos hi, List.getElem?_append_left (show
        i - offset < xs.length by omega)]
    · have e : (xs ++ ys)[i - offset]? = ys[i - (offset + xs.length)]? := by
        rw [List.getElem?_append_right (by omega)]
        congr 1
        omega
      simp only [write, true_and, if_pos hi, if_pos (show offset + xs.length ≤ i by omega), e,
        List.getElem?_eq_none (show xs.length ≤ i - offset by omega), Option.getD_none]
  · have hout : b' ≠ b ∨ i < offset := by
      rcases not_and_or.mp hb with hb | hi
      · exact Or.inl hb
      · exact Or.inr (by omega)
    have hout' : b' ≠ b ∨ i < offset + xs.length := hout.imp_right (by omega)
    rw [write_apply_of_avoids _ (hout'.imp_right Or.inl),
      write_apply_of_avoids _ (hout.imp_right Or.inl),
      write_apply_of_avoids _ (hout.imp_right Or.inl)]

/-- Scattering changes no location outside the spans. -/
theorem scatter_apply_of_avoids {b : β} {i : Nat} :
    ∀ (sps : List (Span β)) (st : Store β γ) (xs : List γ),
      (∀ sp ∈ sps, sp.Avoids b i) → scatter st sps xs b i = st b i
  | [], _, _, _ => rfl
  | sp :: sps, st, xs, h => by
      have hsp := h sp (by simp)
      rw [scatter, scatter_apply_of_avoids sps _ _ (fun t ht => h t (List.mem_cons_of_mem _ ht))]
      apply write_apply_of_avoids
      rcases hsp with hb | hi
      · exact Or.inl hb
      · exact Or.inr (by simp only [List.length_take]; omega)

/-- Scattering treats two stores that agree at a location alike there. -/
theorem scatter_apply_congr {b : β} {i : Nat} :
    ∀ (sps : List (Span β)) {st st' : Store β γ} (xs : List γ),
      st b i = st' b i → scatter st sps xs b i = scatter st' sps xs b i
  | [], _, _, _, h => h
  | sp :: sps, st, st', xs, h => by
      apply scatter_apply_congr sps
      unfold write
      rw [h]

theorem read_scatter_of_disjoint (st : Store β γ) (sps : List (Span β)) (xs : List γ)
    {t : Span β} (h : ∀ sp ∈ sps, t.Disjoint sp) : t.read (scatter st sps xs) = t.read st := by
  apply read_congr
  intro i h1 h2
  apply scatter_apply_of_avoids
  intro sp hsp
  rcases h sp hsp with hb | hi
  · exact Or.inl hb
  · exact Or.inr (by omega)

/-- Scattering over adjacent spans is a single write. -/
theorem scatter_contiguous {b : β} :
    ∀ (sps : List (Span β)) (st : Store β γ) (offset : Nat) (xs : List γ),
      Contiguous b offset sps → scatter st sps xs = write st b offset (xs.take (room sps))
  | [], st, offset, xs, _ => by simp [scatter, room, write_nil]
  | sp :: sps, st, offset, xs, h => by
      obtain ⟨hb, ho, hrest⟩ := h
      rw [scatter, scatter_contiguous sps _ (offset + sp.length) _ hrest, hb, ho, room_cons,
        List.take_add]
      by_cases hx : sp.length ≤ xs.length
      · have e : offset + sp.length = offset + (xs.take sp.length).length := by simp [hx]
        rw [e, write_write_append]
      · have hd : xs.drop sp.length = [] := List.drop_eq_nil_of_le (by omega)
        simp [hd, write_nil]

end Write

section Fill

theorem room_eq_of_uniform {L : Nat} {sps : List (Span β)} (h : ∀ sp ∈ sps, sp.length = L) :
    room sps = sps.length * L := by
  induction sps with
  | nil => simp [room]
  | cons sp sps ih =>
      have h1 := h sp (by simp)
      have h2 := ih (fun t ht => h t (List.mem_cons_of_mem _ ht))
      simp only [room, List.map_cons, List.sum_cons, List.length_cons] at h2 ⊢
      rw [h2, h1, Nat.succ_mul, Nat.add_comm]

/-- What was scattered over disjoint spans of one length is read back as its
pieces of that length. -/
theorem map_read_fill_scatter [DecidableEq β] {L : Nat} (hL : 0 < L) :
    ∀ (sps : List (Span β)) (st : Store β γ) (xs : List γ), (∀ sp ∈ sps, sp.length = L) →
      sps.Pairwise Span.Disjoint → xs.length ≤ room sps →
      (fill sps xs.length).map (Span.read (scatter st sps xs)) = Pieces.pieces L xs
  | [], st, xs, _, _, hx => by
      have : xs = [] := List.eq_nil_of_length_eq_zero (by simpa [room] using hx)
      simp [this, fill, hL]
  | sp :: sps, st, xs, hlen, hd, hx => by
      have hsp := hlen sp (by simp)
      obtain ⟨hd1, hd2⟩ := List.pairwise_cons.mp hd
      have hroom : room (sp :: sps) = sp.length + room sps := by simp [room]
      by_cases hne : xs = []
      · simp [hne, fill, hL]
      · have hpos : 0 < xs.length := List.length_pos_iff.mpr hne
        have hcut : xs.length - min sp.length xs.length = (xs.drop L).length := by
          rw [hsp, List.length_drop]
          omega
        rw [fill, if_neg (by omega), hcut, List.map_cons, scatter, hsp,
          map_read_fill_scatter hL sps _ _ (fun t ht => hlen t (List.mem_cons_of_mem _ ht)) hd2
            (by rw [List.length_drop]; omega),
          Pieces.pieces_of_ne_nil hL hne]
        congr 1
        rw [read_scatter_of_disjoint _ _ _ (fun t ht => ?_)]
        · have e : min L xs.length = (xs.take L).length := by simp
          unfold Span.read
          dsimp only
          rw [e, read_write_self]
        · rcases hd1 t ht with hb | hi
          · exact Or.inl hb
          · exact Or.inr (by dsimp only; omega)

/-- What is filled lies in the spans. -/
theorem exists_of_mem_fill :
    ∀ (sps : List (Span β)) (n : Nat), ∀ t ∈ fill sps n,
      ∃ sp ∈ sps, t.block = sp.block ∧ t.offset = sp.offset ∧ t.length ≤ sp.length
  | [], _, t, ht => by simp [fill] at ht
  | sp :: sps, n, t, ht => by
      unfold fill at ht
      split_ifs at ht with hn
      · simp at ht
      · rcases List.mem_cons.mp ht with rfl | ht
        · exact ⟨sp, by simp, rfl, rfl, Nat.min_le_left _ _⟩
        · obtain ⟨u, hu, h⟩ := exists_of_mem_fill sps _ t ht
          exact ⟨u, List.mem_cons_of_mem _ hu, h⟩

theorem Span.Disjoint.of_le {s t u : Span β} (h : s.Disjoint t) (hb : u.block = s.block)
    (ho : u.offset = s.offset) (hl : u.length ≤ s.length) : u.Disjoint t := by
  rcases h with h | h
  · exact Or.inl (hb ▸ h)
  · exact Or.inr (by omega)

end Fill

section ScatterAll

variable [DecidableEq β]

theorem scatterAll_apply_of_avoids {b : β} {i : Nat} :
    ∀ (jobs : List (List (Span β) × List γ)) (st : Store β γ),
      (∀ job ∈ jobs, ∀ sp ∈ job.1, sp.Avoids b i) → scatterAll st jobs b i = st b i
  | [], _, _ => rfl
  | job :: jobs, st, h => by
      rw [scatterAll, List.foldl_cons]
      exact (scatterAll_apply_of_avoids jobs _
        (fun j hj => h j (List.mem_cons_of_mem _ hj))).trans
          (scatter_apply_of_avoids _ _ _ (h job (by simp)))

theorem read_scatterAll_of_disjoint (jobs : List (List (Span β) × List γ)) (st : Store β γ)
    {t : Span β} (h : ∀ job ∈ jobs, ∀ sp ∈ job.1, t.Disjoint sp) :
    t.read (scatterAll st jobs) = t.read st := by
  apply read_congr
  intro i h1 h2
  apply scatterAll_apply_of_avoids
  intro job hjob sp hsp
  rcases h job hjob sp hsp with hb | hi
  · exact Or.inl hb
  · exact Or.inr (by omega)

/-- Jobs on disjoint spans of one length are all read back. -/
theorem read_fill_scatterAll {L : Nat} (hL : 0 < L) :
    ∀ (jobs : List (List (Span β) × List γ)) (st : Store β γ),
      (∀ job ∈ jobs, (∀ sp ∈ job.1, sp.length = L) ∧ job.2.length ≤ room job.1) →
      (jobs.flatMap Prod.fst).Pairwise Span.Disjoint →
      jobs.flatMap (fun job => (fill job.1 job.2.length).map (Span.read (scatterAll st jobs))) =
        jobs.flatMap fun job => Pieces.pieces L job.2
  | [], _, _, _ => rfl
  | job :: jobs, st, hlen, hd => by
      obtain ⟨hjob, hroom⟩ := hlen job (by simp)
      rw [List.flatMap_cons, List.pairwise_append] at hd
      obtain ⟨hd1, hd2, hd3⟩ := hd
      have ih := read_fill_scatterAll hL jobs (scatter st job.1 job.2)
        (fun j hj => hlen j (List.mem_cons_of_mem _ hj)) hd2
      have hfirst : (fill job.1 job.2.length).map
          (Span.read (scatterAll (scatter st job.1 job.2) jobs)) = Pieces.pieces L job.2 := by
        rw [← map_read_fill_scatter hL job.1 st job.2 hjob hd1 hroom]
        apply List.map_congr_left
        intro t ht
        obtain ⟨sp, hsp, hb, ho, hl⟩ := exists_of_mem_fill _ _ t ht
        apply read_scatterAll_of_disjoint
        intro j hj u hu
        exact (hd3 sp hsp u (List.mem_flatMap.mpr ⟨j, hj, hu⟩)).of_le hb ho hl
      rw [List.flatMap_cons, List.flatMap_cons]
      show _ ++ jobs.flatMap (fun job => (fill job.1 job.2.length).map
        (Span.read (scatterAll (scatter st _ _) jobs))) = _
      rw [ih]
      exact congrArg (· ++ _) hfirst

end ScatterAll

end BlockStore
