import Mathlib.Data.List.Basic
import Mathlib.Tactic.Common

/-!
# Runs of a transition system driven by its environment

A system is a step function `step : σ → ι → σ`; the second argument is what
the environment answers in that step.  A finite run is driven by a list of
answers, an infinite one by a sequence of answers.

* `run step s is` is the state after the answers `is`;
* `Along step P s is` says that every step of the run meets `P`, a condition
  on the state before the step and on the answer given in it;
* `stateAt step s is k` is the state after `k` answers of the sequence `is`;
* `collect step f s is` is everything that `f` records in the steps of a run.

**Results.**
* `Along.invariant`: an invariant that every step meeting `P` preserves holds
  at the end of every run whose steps all meet `P`.
* `Along.invariant_collect`: the same for an invariant of the state and of what
  has been recorded so far.
* `run_related`, `collect_related`: runs from related states.
* `eventually`: a measure that no step increases, and that some later step
  decreases as long as the goal is not reached, forces the goal.
-/

universe u v

namespace Runs

variable {σ : Type u} {ι : Type v} (step : σ → ι → σ)

/-- The state after a list of answers. -/
def run (s : σ) (is : List ι) : σ :=
  is.foldl step s

/-- Every step of the run meets `P`. -/
def Along (P : σ → ι → Prop) : σ → List ι → Prop
  | _, [] => True
  | s, i :: is => P s i ∧ Along P (step s i) is

/-- The state after `k` answers of an infinite sequence. -/
def stateAt (s : σ) (is : Nat → ι) : Nat → σ
  | 0 => s
  | k + 1 => step (stateAt s is k) (is k)

/-- Everything that `f` records in the steps of the run. -/
def collect {α : Type*} (f : σ → ι → List α) : σ → List ι → List α
  | _, [] => []
  | s, i :: is => f s i ++ collect f (step s i) is

instance Along.decidable (P : σ → ι → Prop) [∀ s i, Decidable (P s i)] :
    ∀ (s : σ) (is : List ι), Decidable (Along step P s is)
  | _, [] => inferInstanceAs (Decidable True)
  | s, i :: is =>
      haveI := Along.decidable P (step s i) is
      inferInstanceAs (Decidable (P s i ∧ Along step P (step s i) is))

variable {step}

@[simp] theorem run_nil (s : σ) : run step s [] = s := rfl

@[simp] theorem run_cons (s : σ) (i : ι) (is : List ι) :
    run step s (i :: is) = run step (step s i) is := rfl

theorem run_append (s : σ) (is js : List ι) :
    run step s (is ++ js) = run step (run step s is) js := by
  simp [run, List.foldl_append]

@[simp] theorem along_nil {P : σ → ι → Prop} (s : σ) : Along step P s [] := trivial

@[simp] theorem along_cons {P : σ → ι → Prop} {s : σ} {i : ι} {is : List ι} :
    Along step P s (i :: is) ↔ P s i ∧ Along step P (step s i) is := Iff.rfl

theorem along_append {P : σ → ι → Prop} {s : σ} {is js : List ι} :
    Along step P s (is ++ js) ↔
      Along step P s is ∧ Along step P (run step s is) js := by
  induction is generalizing s with
  | nil => simp
  | cons i is ih => simp [ih, and_assoc]

theorem Along.imp {P Q : σ → ι → Prop} {s : σ} {is : List ι}
    (h : Along step P s is) (hPQ : ∀ s i, P s i → Q s i) : Along step Q s is := by
  induction is generalizing s with
  | nil => trivial
  | cons i is ih => exact ⟨hPQ s i h.1, ih h.2⟩

theorem Along.and {P Q : σ → ι → Prop} {s : σ} {is : List ι}
    (hP : Along step P s is) (hQ : Along step Q s is) :
    Along step (fun s i => P s i ∧ Q s i) s is := by
  induction is generalizing s with
  | nil => trivial
  | cons i is ih => exact ⟨⟨hP.1, hQ.1⟩, ih hP.2 hQ.2⟩

theorem along_true (s : σ) (is : List ι) : Along step (fun _ _ => True) s is := by
  induction is generalizing s with
  | nil => trivial
  | cons i is ih => exact ⟨trivial, ih _⟩

/-- **Invariant rule.** -/
theorem Along.invariant {P : σ → ι → Prop} {I : σ → Prop}
    (preserved : ∀ s i, I s → P s i → I (step s i))
    {s : σ} {is : List ι} (init : I s) (h : Along step P s is) : I (run step s is) := by
  induction is generalizing s with
  | nil => exact init
  | cons i is ih => exact ih (preserved s i init h.1) h.2

/-- An invariant that every step preserves holds after every run. -/
theorem run_invariant {I : σ → Prop} (preserved : ∀ s i, I s → I (step s i))
    {s : σ} (is : List ι) (init : I s) : I (run step s is) :=
  Along.invariant (P := fun _ _ => True) (fun s i h _ => preserved s i h) init
    (along_true s is)

/-- With an invariant at hand, steps that meet `P` meet `Q`. -/
theorem Along.of_invariant {P Q : σ → ι → Prop} {I : σ → Prop}
    (preserved : ∀ s i, I s → P s i → I (step s i)) (holds : ∀ s i, I s → P s i → Q s i)
    {s : σ} {is : List ι} (init : I s) (h : Along step P s is) : Along step Q s is := by
  induction is generalizing s with
  | nil => trivial
  | cons i is ih => exact ⟨holds s i init h.1, ih (preserved s i init h.1) h.2⟩

/-- With an invariant at hand, a condition holds along the whole run. -/
theorem along_of_invariant {P : σ → ι → Prop} {I : σ → Prop}
    (preserved : ∀ s i, I s → I (step s i)) (holds : ∀ s i, I s → P s i)
    {s : σ} (is : List ι) (init : I s) : Along step P s is :=
  Along.of_invariant (fun s i h _ => preserved s i h) (fun s i h _ => holds s i h) init
    (along_true s is)

section Collect

variable {α : Type*} {f : σ → ι → List α}

theorem collect_append (s : σ) (is js : List ι) :
    collect step f s (is ++ js) = collect step f s is ++ collect step f (run step s is) js := by
  induction is generalizing s with
  | nil => rfl
  | cons i is ih => rw [List.cons_append, collect, ih, collect, List.append_assoc, run_cons]

theorem length_collect_singleton (g : σ → ι → α) (s : σ) (is : List ι) :
    (collect step (fun s i => [g s i]) s is).length = is.length := by
  induction is generalizing s with
  | nil => rfl
  | cons i is ih => simp [collect, ih]

/-- **Invariant rule with a record.** -/
theorem Along.invariant_collect {P : σ → ι → Prop} {I : List α → σ → Prop}
    (preserved : ∀ log s i, I log s → P s i → I (log ++ f s i) (step s i))
    (log : List α) {s : σ} {is : List ι} (init : I log s) (h : Along step P s is) :
    I (log ++ collect step f s is) (run step s is) := by
  induction is generalizing s log with
  | nil => simpa [collect] using init
  | cons i is ih =>
      have := ih (log ++ f s i) (preserved log s i init h.1) h.2
      rwa [List.append_assoc] at this

/-- Related states have related runs. -/
theorem run_related {R : σ → σ → Prop} (preserved : ∀ s t i, R s t → R (step s i) (step t i))
    {s t : σ} (h : R s t) (is : List ι) : R (run step s is) (run step t is) := by
  induction is generalizing s t with
  | nil => exact h
  | cons i is ih => exact ih (preserved s t i h)

/-- What does not tell related states apart records the same in their runs. -/
theorem collect_related {R : σ → σ → Prop} (preserved : ∀ s t i, R s t → R (step s i) (step t i))
    (same : ∀ s t i, R s t → f s i = f t i) {s t : σ} (h : R s t) (is : List ι) :
    collect step f s is = collect step f t is := by
  induction is generalizing s t with
  | nil => rfl
  | cons i is ih => rw [collect, collect, same s t i h, ih (preserved s t i h)]

end Collect

section Infinite

variable {s : σ} {is : Nat → ι}

/-- A prefix of an infinite run is a finite run. -/
theorem stateAt_eq_run (k : Nat) : stateAt step s is k = run step s ((List.range k).map is) := by
  induction k with
  | zero => rfl
  | succ k ih => simp [stateAt, ih, List.range_succ, run_append]

theorem stateAt_invariant {I : σ → Prop} {P : σ → ι → Prop}
    (preserved : ∀ s i, I s → P s i → I (step s i)) (init : I s)
    (h : ∀ k, P (stateAt step s is k) (is k)) (k : Nat) : I (stateAt step s is k) := by
  induction k with
  | zero => exact init
  | succ k ih => exact preserved _ _ ih (h k)

theorem along_range {P : σ → ι → Prop} (h : ∀ k, P (stateAt step s is k) (is k)) (k : Nat) :
    Along step P s ((List.range k).map is) := by
  induction k with
  | zero => trivial
  | succ k ih =>
      rw [List.range_succ, List.map_append, along_append, ← stateAt_eq_run]
      exact ⟨ih, h k, trivial⟩

theorem Along.stateAt {P : σ → ι → Prop} {n : Nat} (h : Along step P s ((List.range n).map is))
    {k : Nat} (hk : k < n) : P (stateAt step s is k) (is k) := by
  induction n with
  | zero => exact absurd hk (Nat.not_lt_zero k)
  | succ n ih =>
      rw [List.range_succ, List.map_append, along_append, ← stateAt_eq_run] at h
      rcases Nat.lt_succ_iff_lt_or_eq.mp hk with hlt | rfl
      · exact ih h.1 hlt
      · exact h.2.1

/-- Where nothing changes any more. -/
theorem stateAt_of_fixed {n : Nat} (h : ∀ i, step (stateAt step s is n) i = stateAt step s is n)
    {k : Nat} (hk : n ≤ k) : stateAt step s is k = stateAt step s is n := by
  induction hk with
  | refl => rfl
  | step _ ih => rw [stateAt, ih, h]

/-- **Progress rule.**  `μ` never grows; from every point on, either the goal
is reached or some step makes `μ` smaller. -/
theorem eventually (Goal : σ → Prop) {μ : σ → Nat}
    (antitone : ∀ k, μ (stateAt step s is (k + 1)) ≤ μ (stateAt step s is k))
    (progress : ∀ k, ∃ j, k ≤ j ∧
      (Goal (stateAt step s is j) ∨ μ (stateAt step s is (j + 1)) < μ (stateAt step s is j))) :
    ∃ k, Goal (stateAt step s is k) := by
  have mono : ∀ k j, k ≤ j → μ (stateAt step s is j) ≤ μ (stateAt step s is k) := by
    intro k j hkj
    induction hkj with
    | refl => exact Nat.le_refl _
    | step _ ih => exact Nat.le_trans (antitone _) ih
  by_contra hnot
  have none : ∀ k, ¬ Goal (stateAt step s is k) := fun k hk => hnot ⟨k, hk⟩
  have descend : ∀ n k, μ (stateAt step s is k) ≤ n → False := by
    intro n
    induction n with
    | zero =>
        intro k hk
        obtain ⟨j, hkj, hgoal | hlt⟩ := progress k
        · exact none j hgoal
        · have := mono k j hkj
          omega
    | succ n ih =>
        intro k hk
        obtain ⟨j, hkj, hgoal | hlt⟩ := progress k
        · exact none j hgoal
        · have := mono k j hkj
          exact ih (j + 1) (by omega)
  exact descend _ 0 (Nat.le_refl _)

end Infinite

end Runs
