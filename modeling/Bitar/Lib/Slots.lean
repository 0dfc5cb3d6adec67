import Bitar.Lib.BlockStore

/-!
# Byte strings in consecutive slots

A slot is a list of adjacent spans together with the byte string that is
written from its beginning.  Several slots, one behind the other, are written
in order.  Reading as many bytes as there are in all the strings gives their
concatenation, whatever the memory held before, exactly when every slot that a
later nonempty string follows is filled by its own string.

**Results.**
* `read_scatterAll_slots`: filled slots read as the concatenation.
* `forall_read_iff_filled`, `forall_old_read_iff_filled`: the converse, over
  all previous contents.
-/

universe u v

namespace BlockStore

variable {β : Type u} {γ : Type v}

/-- Every slot that a nonempty string follows is filled. -/
def Filled : List (Nat × List γ) → Prop
  | [] => True
  | slot :: slots =>
      ((∃ later ∈ slots, later.2 ≠ []) → slot.2.length = slot.1) ∧ Filled slots

instance Filled.decidable : ∀ slots : List (Nat × List γ), Decidable (Filled slots)
  | [] => inferInstanceAs (Decidable True)
  | slot :: slots =>
      haveI := Filled.decidable slots
      haveI : DecidablePred fun later : Nat × List γ => later.2 ≠ [] := fun later =>
        decidable_of_iff (later.2.isEmpty = false) (by
          obtain ⟨_, xs⟩ := later
          cases xs <;> simp)
      inferInstanceAs (Decidable (((∃ later ∈ slots, later.2 ≠ []) → slot.2.length = slot.1) ∧
        Filled slots))

/-- The room and the string of a job. -/
def slot (job : List (Span β) × List γ) : Nat × List γ :=
  (room job.1, job.2)

theorem filled_of_empty : ∀ slots : List (Nat × List γ), (∀ s ∈ slots, s.2 = []) → Filled slots
  | [], _ => trivial
  | _ :: slots, h => ⟨fun ⟨later, hl, hne⟩ => absurd (h later (List.mem_cons_of_mem _ hl)) hne,
      filled_of_empty slots fun s hs => h s (List.mem_cons_of_mem _ hs)⟩

/-- All slots but the last one are filled. -/
theorem filled_of_dropLast :
    ∀ slots : List (Nat × List γ), (∀ s ∈ slots.dropLast, s.2.length = s.1) → Filled slots
  | [], _ => trivial
  | [_], _ => ⟨fun ⟨_, hl, _⟩ => absurd hl List.not_mem_nil, trivial⟩
  | s :: t :: slots, h => ⟨fun _ => h s List.mem_cons_self,
      filled_of_dropLast (t :: slots) fun x hx => h x (List.mem_cons_of_mem _ hx)⟩

/-- The number of bytes in all the strings. -/
def total (slots : List (Nat × List γ)) : Nat :=
  (slots.flatMap Prod.snd).length

section Slots

variable [DecidableEq β] {b : β}

/-- Slots behind a location do not touch it. -/
theorem scatterAll_apply_of_lt :
    ∀ (jobs : List (List (Span β) × List γ)) (st : Store β γ) (offset i : Nat),
      Contiguous b offset (jobs.flatMap Prod.fst) → i < offset →
      scatterAll st jobs b i = st b i := by
  intro jobs st offset i hc hi
  apply scatterAll_apply_of_avoids
  intro job hjob sp hsp
  have key : ∀ (sps : List (Span β)) (offset : Nat), Contiguous b offset sps →
      ∀ sp ∈ sps, offset ≤ sp.offset := by
    intro sps
    induction sps with
    | nil => simp
    | cons t sps ih =>
        intro offset h sp hsp
        rcases List.mem_cons.mp hsp with rfl | hsp
        · exact h.2.1.ge
        · exact (Nat.le_add_right _ _).trans (ih _ h.2.2 sp hsp)
  have := key _ offset hc sp (List.mem_flatMap.mpr ⟨job, hjob, hsp⟩)
  exact Or.inr (Or.inl (by omega))

/-- Writing the first slot. -/
theorem scatterAll_cons {job : List (Span β) × List γ} {jobs : List (List (Span β) × List γ)}
    {offset : Nat} (hc : Contiguous b offset ((job :: jobs).flatMap Prod.fst))
    (hfit : job.2.length ≤ room job.1) (st : Store β γ) :
    scatterAll st (job :: jobs) = scatterAll (write st b offset job.2) jobs ∧
      Contiguous b (offset + room job.1) (jobs.flatMap Prod.fst) := by
  rw [List.flatMap_cons, contiguous_append] at hc
  refine ⟨?_, hc.2⟩
  rw [scatterAll, List.foldl_cons, scatter_contiguous _ _ _ _ hc.1, List.take_of_length_le hfit]
  rfl

theorem read_first_slot {job : List (Span β) × List γ} {jobs : List (List (Span β) × List γ)}
    {offset : Nat} (hc : Contiguous b offset ((job :: jobs).flatMap Prod.fst))
    (hfit : job.2.length ≤ room job.1) (st : Store β γ) :
    read (scatterAll st (job :: jobs)) b offset job.2.length = job.2 := by
  obtain ⟨he, hrest⟩ := scatterAll_cons hc hfit st
  rw [he]
  conv_rhs => rw [← read_write_self st b offset job.2]
  apply read_congr
  intro i _ hi
  exact scatterAll_apply_of_lt jobs _ _ i hrest (by omega)

/-- Slots that are filled as far as it matters. -/
theorem read_scatterAll_slots :
    ∀ (jobs : List (List (Span β) × List γ)) (st : Store β γ) (offset : Nat),
      Contiguous b offset (jobs.flatMap Prod.fst) → (∀ job ∈ jobs, job.2.length ≤ room job.1) →
      Filled (jobs.map slot) →
      read (scatterAll st jobs) b offset (total (jobs.map slot)) =
        (jobs.map slot).flatMap Prod.snd
  | [], _, _, _, _, _ => rfl
  | job :: jobs, st, offset, hc, hfit, hfilled => by
      have hjob := hfit job (by simp)
      obtain ⟨he, hrest⟩ := scatterAll_cons hc hjob st
      have hfirst := read_first_slot hc hjob st
      obtain ⟨hfull, hlater⟩ := hfilled
      have htotal : total ((job :: jobs).map slot) = job.2.length + total (jobs.map slot) := by
        simp [total, slot]
      rw [htotal, read_add, hfirst, List.map_cons, List.flatMap_cons]
      congr 1
      by_cases hne : ∃ later ∈ jobs.map slot, later.2 ≠ []
      · rw [show job.2.length = room job.1 from hfull hne, he]
        exact read_scatterAll_slots jobs _ _ hrest
          (fun j hj => hfit j (List.mem_cons_of_mem _ hj)) hlater
      · have hnil : (jobs.map slot).flatMap Prod.snd = [] := by
          rw [List.flatMap_eq_nil_iff]
          intro later hl
          by_contra hcon
          exact hne ⟨later, hl, hcon⟩
        rw [total, hnil]
        rfl

/-- What is read does not depend on the previous contents before it. -/
theorem scatterAll_congr_ge (jobs : List (List (Span β) × List γ)) {st st' : Store β γ} {i : Nat}
    (h : st b i = st' b i) : scatterAll st jobs b i = scatterAll st' jobs b i := by
  induction jobs generalizing st st' with
  | nil => exact h
  | cons job jobs ih => exact ih (scatter_apply_congr job.1 job.2 h)

/-- **Reading slots.**  The concatenation is read whatever the memory held
before if and only if the slots are filled as far as it matters. -/
theorem forall_read_iff_filled [Nontrivial γ] :
    ∀ (jobs : List (List (Span β) × List γ)) (offset : Nat),
      Contiguous b offset (jobs.flatMap Prod.fst) → (∀ job ∈ jobs, job.2.length ≤ room job.1) →
      ((∀ st : Store β γ, read (scatterAll st jobs) b offset (total (jobs.map slot)) =
        (jobs.map slot).flatMap Prod.snd) ↔ Filled (jobs.map slot)) := by
  intro jobs offset hc hfit
  refine ⟨fun h => ?_, fun h st => read_scatterAll_slots jobs st offset hc hfit h⟩
  induction jobs generalizing offset with
  | nil => trivial
  | cons job jobs ih =>
      have hjob := hfit job (by simp)
      have hrest := (scatterAll_cons hc hjob (fun _ _ => Classical.arbitrary γ)).2
      have htotal : total ((job :: jobs).map slot) = job.2.length + total (jobs.map slot) := by
        simp [total, slot]
      -- the part behind the first string
      have hbehind : ∀ st : Store β γ, read (scatterAll (write st b offset job.2) jobs) b
          (offset + job.2.length) (total (jobs.map slot)) = (jobs.map slot).flatMap Prod.snd := by
        intro st
        have := h st
        rw [htotal, read_add, read_first_slot hc hjob st, List.map_cons, List.flatMap_cons,
          (scatterAll_cons hc hjob st).1] at this
        exact List.append_cancel_left this
      by_cases hne : ∃ later ∈ jobs.map slot, later.2 ≠ []
      · have hfull : job.2.length = room job.1 := by
          by_contra hcon
          -- the location behind the first string keeps its previous contents
          obtain ⟨y, ys, hy⟩ : ∃ y ys, (jobs.map slot).flatMap Prod.snd = y :: ys := by
            rw [← List.ne_nil_iff_exists_cons]
            obtain ⟨later, hl, hln⟩ := hne
            exact fun e => hln (List.flatMap_eq_nil_iff.mp e later hl)
          obtain ⟨c, hcy⟩ := exists_ne y
          have hr := hbehind fun _ _ => c
          rw [total, hy, List.length_cons, Nat.add_comm ys.length 1, read_add] at hr
          have hhead : scatterAll (write (fun _ _ => c) b offset job.2) jobs b
              (offset + job.2.length) = y := by
            simpa [BlockStore.read] using congrArg List.head? hr
          rw [scatterAll_apply_of_lt jobs _ _ _ hrest (by omega),
            write_apply_of_avoids _ (Or.inr (Or.inr (Nat.le_refl _)))] at hhead
          exact hcy hhead
        refine ⟨fun _ => hfull, ih _ hrest (fun j hj => hfit j (List.mem_cons_of_mem _ hj)) ?_⟩
        intro st
        rw [← hbehind st, hfull]
        apply read_congr
        intro i hi _
        apply scatterAll_congr_ge
        exact (write_apply_of_avoids _ (Or.inr (Or.inr (by omega)))).symm
      · refine ⟨fun hc => absurd hc hne, filled_of_empty _ ?_⟩
        intro s hs
        by_contra hcon
        exact hne ⟨s, hs, hcon⟩

/-- The same over all previous contents of the place written to. -/
theorem forall_old_read_iff_filled [Nontrivial γ] (jobs : List (List (Span β) × List γ))
    (offset : Nat) (hc : Contiguous b offset (jobs.flatMap Prod.fst))
    (hfit : ∀ job ∈ jobs, job.2.length ≤ room job.1) (st : Store β γ) :
    (∀ old : List γ, read (scatterAll (write st b offset old) jobs) b offset
        (total (jobs.map slot)) = (jobs.map slot).flatMap Prod.snd) ↔ Filled (jobs.map slot) := by
  rw [← forall_read_iff_filled jobs offset hc hfit]
  constructor
  · intro h st'
    rw [← h (read st' b offset (total (jobs.map slot)))]
    apply read_congr
    intro i hlo hhi
    apply scatterAll_congr_ge
    have hi : i - offset < total (jobs.map slot) := by omega
    have hself := write_apply_self st b offset (read st' b offset (total (jobs.map slot)))
      (show i - offset < _ by simpa using hi)
    rw [Nat.add_sub_cancel' hlo] at hself
    rw [hself]
    simp [BlockStore.read, Nat.add_sub_cancel' hlo]
  · exact fun h old => h _

end Slots

end BlockStore
