import Bitar.Lib.BlockStore

/-!
# Footprints

Several parties share a store.  The footprint of a party lists the blocks that
it reads and those that it writes.  It may grow while the party works, but only
by blocks that belong to nobody.

**Results.**
* `Spares.agree`: who writes what it says leaves the others' blocks alone.
* `RaceFree.update`: one party at a time may change its footprint.
-/

universe u v w

namespace BlockStore

/-- The blocks that a party reads and the blocks that it writes. -/
structure Footprint (β : Type u) where
  reads : List β := []
  writes : List β := []
deriving DecidableEq, Repr

/-- The stores agree on these blocks. -/
def Agree {β : Type u} {γ : Type v} (bs : List β) (st st' : Store β γ) : Prop :=
  ∀ b ∈ bs, st' b = st b

namespace Footprint

variable {β : Type u} {γ : Type v} {π : Type w}

/-- All blocks that the party touches. -/
def blocks (f : Footprint β) : List β :=
  f.reads ++ f.writes

/-- What `f` writes is nothing that `g` touches. -/
def Spares (f g : Footprint β) : Prop :=
  ∀ b ∈ f.writes, b ∉ g.blocks

instance [DecidableEq β] (f g : Footprint β) : Decidable (f.Spares g) :=
  inferInstanceAs (Decidable (∀ b ∈ f.writes, b ∉ g.blocks))

/-- Nothing has changed but the blocks that `f` writes. -/
def Confines (f : Footprint β) (st st' : Store β γ) : Prop :=
  ∀ b, b ∉ f.writes → st' b = st b

/-- No party writes what another one touches. -/
def RaceFree (fs : π → Footprint β) : Prop :=
  ∀ p q, p ≠ q → (fs p).Spares (fs q)

variable {f f' g : Footprint β} {st st' : Store β γ}

theorem mem_blocks {b : β} : b ∈ f.blocks ↔ b ∈ f.reads ∨ b ∈ f.writes :=
  List.mem_append

/-- **Frame rule.** -/
theorem Spares.agree (h : f.Spares g) (hconfines : f.Confines st st') :
    Agree g.blocks st st' :=
  fun b hb => hconfines b fun hw => h b hw hb

/-- **One party at a time.** -/
theorem RaceFree.update [DecidableEq π] {fs : π → Footprint β} (h : RaceFree fs) (p : π)
    (hnew : ∀ q, q ≠ p → f.Spares (fs q) ∧ (fs q).Spares f) :
    RaceFree (Function.update fs p f) := by
  intro q r hne
  by_cases hq : q = p
  · subst hq
    rw [Function.update_self, Function.update_of_ne (Ne.symm hne)]
    exact (hnew r (Ne.symm hne)).1
  · rw [Function.update_of_ne hq]
    by_cases hr : r = p
    · subst hr
      rw [Function.update_self]
      exact (hnew q hq).2
    · rw [Function.update_of_ne hr]
      exact h q r hne

end Footprint

section Agree

variable {β : Type u} {γ : Type v} {bs : List β} {st st' : Store β γ}

theorem Agree.refl (bs : List β) (st : Store β γ) : Agree bs st st :=
  fun _ _ => rfl

theorem Agree.mono (h : Agree bs st st') {cs : List β} (hsub : ∀ b ∈ cs, b ∈ bs) :
    Agree cs st st' :=
  fun b hb => h b (hsub b hb)

theorem Agree.read {b : β} (h : Agree bs st st') (hb : b ∈ bs) (offset n : Nat) :
    read st' b offset n = read st b offset n :=
  read_congr fun _ _ _ => congrFun (h b hb) _

theorem Agree.gather {sps : List (Span β)} (h : Agree bs st st')
    (hsps : ∀ sp ∈ sps, sp.block ∈ bs) : gather st' sps = gather st sps := by
  unfold BlockStore.gather
  apply List.flatMap_congr
  intro sp hsp
  exact h.read (hsps sp hsp) sp.offset sp.length

variable [DecidableEq β]

/-- Agreeing stores agree after the same jobs. -/
theorem Agree.scatterAll (h : Agree bs st st') (jobs : List (List (Span β) × List γ)) :
    Agree bs (scatterAll st jobs) (scatterAll st' jobs) := by
  intro b hb
  funext i
  induction jobs generalizing st st' with
  | nil => exact congrFun (h b hb) i
  | cons job jobs ih =>
      refine ih fun c hc => funext fun j => ?_
      exact scatter_apply_congr job.1 job.2 (congrFun (h c hc) j)

/-- Jobs change the blocks they write to only. -/
theorem confines_scatterAll {f : Footprint β} (jobs : List (List (Span β) × List γ))
    (hjobs : ∀ job ∈ jobs, ∀ sp ∈ job.1, sp.block ∈ f.writes) (st : Store β γ) :
    f.Confines st (BlockStore.scatterAll st jobs) := by
  intro b hb
  funext i
  apply scatterAll_apply_of_avoids
  intro job hjob sp hsp
  exact Or.inl fun he => hb (he ▸ hjobs job hjob sp hsp)

end Agree

end BlockStore
