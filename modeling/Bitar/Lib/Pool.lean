import Mathlib.Data.Finset.Card
import Mathlib.Data.Finset.SDiff
import Mathlib.Data.Finset.Lattice.Lemmas
import Mathlib.Data.Finset.Dedup

/-!
# Pools of interchangeable objects

A pool is the finite set of its free objects.  `Accounts full free out` says
that the free objects together with the list `out` are all objects of `full`,
each of them once.

**Results.**
* `Accounts.take`, `Accounts.give`: taking free objects, giving back the first
  ones of those outside.
* `Accounts.eq_full`: with nothing outside, the pool is full again.
* `Accounts.card_add_length`: how many objects are free.
-/

universe u

namespace Pool

variable {α : Type u} [DecidableEq α]

/-- What is not free is in `out`, once. -/
structure Accounts (full free : Finset α) (out : List α) : Prop where
  subset : free ⊆ full
  outside : full \ free = out.toFinset
  nodup : out.Nodup

namespace Accounts

variable {full free : Finset α} {out : List α}

theorem refl (full : Finset α) : Accounts full full [] :=
  ⟨Finset.Subset.refl _, by simp, List.nodup_nil⟩

theorem mem_iff (h : Accounts full free out) {x : α} : x ∈ out ↔ x ∈ full ∧ x ∉ free := by
  rw [← List.mem_toFinset, ← h.outside, Finset.mem_sdiff]

theorem perm (h : Accounts full free out) {out' : List α} (hp : out.Perm out') :
    Accounts full free out' :=
  ⟨h.subset, h.outside.trans (List.toFinset_eq_of_perm _ _ hp), hp.nodup_iff.mp h.nodup⟩

theorem take (h : Accounts full free out) {taken : List α} (hnd : taken.Nodup)
    (hfree : ∀ x ∈ taken, x ∈ free) : Accounts full (free \ taken.toFinset) (out ++ taken) := by
  refine ⟨Finset.sdiff_subset.trans h.subset, ?_, ?_⟩
  · ext x
    have h1 := h.mem_iff (x := x)
    have h2 := hfree x
    have h3 := @h.subset x
    simp only [Finset.mem_sdiff, List.mem_toFinset, List.mem_append, h1]
    tauto
  · exact List.Nodup.append h.nodup hnd fun x hx hx' => (h.mem_iff.mp hx).2 (hfree x hx')

theorem give {back : List α} (h : Accounts full free (back ++ out)) :
    Accounts full (free ∪ back.toFinset) out := by
  have hdisj := List.disjoint_of_nodup_append h.nodup
  refine ⟨?_, ?_, h.nodup.sublist (List.sublist_append_right ..)⟩
  · intro x hx
    rcases Finset.mem_union.mp hx with hx | hx
    · exact h.subset hx
    · exact (h.mem_iff.mp (List.mem_append_left _ (List.mem_toFinset.mp hx))).1
  · ext x
    have h1 := h.mem_iff (x := x)
    have h2 := @hdisj x
    rw [List.mem_append] at h1
    simp only [Finset.mem_sdiff, Finset.mem_union, List.mem_toFinset]
    tauto

/-- Nothing of the pool is missing once what is outside is put back. -/
theorem subset_union (h : Accounts full free out) : full ⊆ free ∪ out.toFinset := by
  intro x hx
  rw [Finset.mem_union, List.mem_toFinset, h.mem_iff]
  tauto

theorem eq_full (h : Accounts full free []) : free = full := by
  have := h.outside
  rw [List.toFinset_nil, Finset.sdiff_eq_empty_iff_subset] at this
  exact Finset.Subset.antisymm h.subset this

theorem card_add_length (h : Accounts full free out) :
    free.card + out.length = full.card := by
  rw [← List.toFinset_card_of_nodup h.nodup, ← h.outside, Nat.add_comm]
  exact Finset.card_sdiff_add_card_eq_card h.subset

end Accounts

end Pool
