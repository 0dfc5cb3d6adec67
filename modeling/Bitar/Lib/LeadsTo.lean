import Mathlib.Order.WellFounded

/-!
# Progress in an infinite run

An infinite run is a sequence of states.  `LeadsTo P Q` says that, whenever `P`
holds, `Q` holds then or later; `Unless P Q` says that `P` goes on to hold until
`Q` does.

**Results.**
* `Unless.reaches`: one helpful step suffices.
* `Unless.meanwhile`: what goes on to hold until something else happens.
* `leadsTo_of_measure`: progress in a well-founded order.
-/

universe u v

namespace Runs

variable {σ : Type u} {a : Nat → σ} {P Q R : σ → Prop} {k j : Nat}

/-- Whenever `P` holds, `Q` holds then or later. -/
def LeadsTo (a : Nat → σ) (P Q : σ → Prop) : Prop :=
  ∀ k, P (a k) → ∃ j, k ≤ j ∧ Q (a j)

/-- `P` goes on to hold until `Q` does. -/
def Unless (a : Nat → σ) (P Q : σ → Prop) : Prop :=
  ∀ k, P (a k) → P (a (k + 1)) ∨ Q (a (k + 1))

theorem LeadsTo.trans (hpq : LeadsTo a P Q) (hqr : LeadsTo a Q R) : LeadsTo a P R := by
  intro k hk
  obtain ⟨i, hki, hi⟩ := hpq k hk
  obtain ⟨j, hij, hj⟩ := hqr i hi
  exact ⟨j, hki.trans hij, hj⟩

theorem Unless.run (h : Unless a P Q) (hp : P (a k)) (hkj : k ≤ j) :
    P (a j) ∨ ∃ i, k ≤ i ∧ Q (a i) := by
  induction hkj with
  | refl => exact Or.inl hp
  | @step m hkm ih =>
      rcases ih with hm | hq
      · rcases h m hm with hnext | hq
        · exact Or.inl hnext
        · exact Or.inr ⟨m + 1, Nat.le_succ_of_le hkm, hq⟩
      · exact Or.inr hq

/-- **One helpful step.** -/
theorem Unless.reaches (h : Unless a P Q) (hp : P (a k)) (hkj : k ≤ j)
    (hhelps : P (a j) → Q (a (j + 1))) : ∃ i, k ≤ i ∧ Q (a i) := by
  rcases h.run hp hkj with hj | hq
  · exact ⟨j + 1, Nat.le_succ_of_le hkj, hhelps hj⟩
  · exact hq

/-- **What goes on to hold meanwhile.** -/
theorem Unless.meanwhile (h : Unless a P Q) (hr : LeadsTo a P R) :
    LeadsTo a P fun s => (P s ∧ R s) ∨ Q s := by
  intro k hk
  obtain ⟨j, hkj, hj⟩ := hr k hk
  rcases h.run hk hkj with hpj | ⟨i, hki, hi⟩
  · exact ⟨j, hkj, Or.inl ⟨hpj, hj⟩⟩
  · exact ⟨i, hki, Or.inr hi⟩

/-- **The measure rule.**  From `P m`, either `Q` comes or `P` with a smaller
measure. -/
theorem leadsTo_of_measure {α : Type v} [LT α] [WellFoundedLT α] {P : α → σ → Prop}
    (h : ∀ m, LeadsTo a (P m) fun s => (∃ m', m' < m ∧ P m' s) ∨ Q s) (m : α) :
    LeadsTo a (P m) Q := by
  induction m using WellFoundedLT.induction with
  | _ m ih =>
      intro k hk
      obtain ⟨j, hkj, ⟨m', hlt, hj⟩ | hq⟩ := h m k hk
      · obtain ⟨i, hji, hi⟩ := ih m' hlt j hj
        exact ⟨i, hkj.trans hji, hi⟩
      · exact ⟨j, hkj, hq⟩

end Runs
