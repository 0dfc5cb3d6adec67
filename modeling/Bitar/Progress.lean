import Bitar.Conservation

/-!
# Calls return

A call makes no progress while the device neither accepts nor gives back an
operation.  A device that serves, sooner or later, as long as an operation is
pending lets every call return in which nothing fails: `load` never grows, and
it becomes smaller in every step in which the device serves and in every step
that assembles something.

**Results.**
* `Continues.load`: the step lemma.
* `Idle.returns`: every such call returns.
-/

namespace Bitar

open BlockStore Pieces

namespace Machine

variable {st st' : Machine} {env : Env}

/-- The device accepts an operation that it is offered, or gives one back. -/
def Serves (st : Machine) (env : Env) : Prop :=
  match st.pc with
  | .enqueue _ => 0 < env.numAccepted
  | .dequeue | .drain => st.queue ≠ [] ∧ env.results ≠ []
  | _ => False

instance (st : Machine) (env : Env) : Decidable (st.Serves env) :=
  show Decidable (match st.pc with
    | .enqueue _ => 0 < env.numAccepted
    | .dequeue | .drain => st.queue ≠ [] ∧ env.results ≠ []
    | _ => False) from
  match st.pc with
  | .enqueue _ => inferInstanceAs (Decidable (0 < env.numAccepted))
  | .dequeue => inferInstanceAs (Decidable (st.queue ≠ [] ∧ env.results ≠ []))
  | .drain => inferInstanceAs (Decidable (st.queue ≠ [] ∧ env.results ≠ []))
  | .assemble => instDecidableFalse
  | .returned _ => instDecidableFalse

/-- As long as an operation is pending, the device will serve. -/
def Live (debug : Bool) (st : Machine) (envs : Nat → Env) : Prop :=
  ∀ k, (Runs.stateAt (step debug) st envs k).qp.pendingOperations ≠ [] →
    ∃ j, k ≤ j ∧ (Runs.stateAt (step debug) st envs j).Serves (envs j)

/-- The steps that are still to be made, with a weight for each kind. -/
def load (st : Machine) : Nat :=
  3 * st.remaining.length + 2 * st.qp.numOpsAssembled + st.queue.length

theorem load_setPc (st : Machine) (pc : Pc) : load { st with pc := pc } = st.load := rfl

theorem load_drainOrFinish (st : Machine) : st.drainOrFinish.load = st.load := by
  simp [load]

theorem Built.load {n : Nat} {os ms : List Nat} {ops : Nat → CompOp} {S T : List Segment}
    (h : Built st st' n os ms ops S T) (hm : 0 < st.cfg.maxSglSegs.toNat) (hT : T.length = n) :
    st'.load < st.load := by
  have hn := h.n_eq
  have hpos := h.n_pos
  have hcount : count st.cfg.maxSglSegs.toNat n ≤ n :=
    (count_le_iff hm).mpr (Nat.le_mul_of_pos_right n hm)
  have hnum : st'.qp.numOpsAssembled =
      st.qp.numOpsAssembled + count st.cfg.maxSglSegs.toNat n := by
    rw [h.state_eq]
    dsimp only
    rw [if_pos hT]
  have hqueue : st'.queue = st.queue := by rw [h.state_eq]
  rw [Machine.load, Machine.load, hnum, hqueue, h.remaining_eq, List.length_drop]
  omega

theorem load_retire (h : st.Ordered) (env : Env) :
    ((st.afterHandBack env).retire (st.queue.take (st.numDequeued env))).load +
      st.numDequeued env = st.load := by
  have hle : st.numDequeued env ≤ st.queue.length := by
    unfold numDequeued
    omega
  rw [load, load, remaining_retire h, retire_afterHandBack (h.queue_prefix env).1]
  dsimp only
  rw [List.length_drop]
  omega

theorem numDequeued_pos (hb : st.cfg.Bounds) (hqueue : st.queue ≠ []) (hres : env.results ≠ []) :
    0 < st.numDequeued env := by
  have h1 := List.length_pos_iff.mpr hqueue
  have h2 := List.length_pos_iff.mpr hres
  have h3 := hb.burstSize_pos
  unfold numDequeued
  omega

/-- **Step lemma.** -/
theorem Continues.load (h : st.Ordered) (hb : st.cfg.Bounds) (hstep : Continues st env st') :
    st'.load ≤ st.load ∧ (st.Serves env → st'.load < st.load) := by
  cases hstep with
  | @built st₁ n os ms ops S T hpc built hT =>
      have : st₁.load < st.load := built.load hb.maxSglSegs_pos hT
      exact ⟨this.le, fun _ => this⟩
  | full hpc hpos => exact ⟨Nat.le_refl _, by simp [Serves, hpc]⟩
  | exhausted hpc hrem hnone => exact ⟨(load_drainOrFinish st).le, by simp [Serves, hpc]⟩
  | enqueued hpc hread =>
      have hpos := (h.enqueue _ hpc).2
      simp only [Serves, hpc, Machine.load, remaining, List.length_append, List.length_take,
        QueuePairMemory.length_assembled]
      omega
  | dequeued hpc hsucc =>
      have hload := load_retire h env
      rw [load_setPc]
      simp only [Serves, hpc]
      constructor
      · omega
      · rintro ⟨hqueue, hres⟩
        have := numDequeued_pos hb hqueue hres
        omega
  | drained hpc hsucc =>
      have hload := load_retire h env
      rw [load_drainOrFinish]
      simp only [Serves, hpc]
      constructor
      · omega
      · rintro ⟨hqueue, hres⟩
        have := numDequeued_pos hb hqueue hres
        omega
  | returned hpc => exact ⟨Nat.le_refl _, by simp [Serves, hpc]⟩

/-- Without pending operations, the next step assembles something or ends the
call. -/
theorem Continues.of_pending_nil (h : st.Ordered) (hb : st.cfg.Bounds)
    (hstep : Continues st env st') (hnil : st.qp.pendingOperations = []) :
    (∃ status, st'.pc = .returned status) ∨ st'.load < st.load := by
  have hnone := (h.idle_of_nil hnil).numOpsAssembled
  cases hstep with
  | built hpc built hT => exact Or.inr (built.load hb.maxSglSegs_pos hT)
  | full hpc hpos => omega
  | exhausted hpc hrem hnone =>
      rcases st.drainOrFinish_cases with ⟨hne, -⟩ | ⟨-, he⟩
      · exact absurd hnil hne
      · exact Or.inl ⟨_, he ▸ finish_pc st⟩
  | enqueued hpc hread =>
      have := (h.enqueue _ hpc).2
      omega
  | dequeued hpc hsucc => exact absurd hnil (h.dequeue hpc)
  | drained hpc hsucc => exact absurd hnil (h.drain hpc).2
  | returned hpc => exact Or.inl ⟨_, hpc⟩

/-- **Every call returns** in which nothing fails and the device stays alive. -/
theorem Idle.returns (hidle : st.Idle) (hb : st.cfg.Bounds) (request : Request) (debug : Bool)
    (envs : Nat → Env)
    (hnf : ∀ k, (Runs.stateAt (step debug) (st.start request) envs k).NoFault (envs k))
    (hlive : Live debug (st.start request) envs) :
    ∃ k status, (Runs.stateAt (step debug) (st.start request) envs k).pc = .returned status := by
  have hs : ∀ k, InOrder st.cfg st.qp.operationPool st.qp.mbufPool
      (Runs.stateAt (step debug) (st.start request) envs k) :=
    Runs.stateAt_invariant (P := NoFault) (fun s e hs hnf => (hs.step hb debug hnf).2)
      (hidle.start_inOrder request) hnf
  have hbk : ∀ k, (Runs.stateAt (step debug) (st.start request) envs k).cfg.Bounds :=
    fun k => (hs k).cfg_eq ▸ hb
  have hc := fun k => ((hs k).step hb debug (hnf k)).1
  have hload : ∀ k, (Runs.stateAt (step debug) (st.start request) envs (k + 1)).load ≤
      (Runs.stateAt (step debug) (st.start request) envs k).load :=
    fun k => ((hc k).load (hs k).ordered (hbk k)).1
  refine Runs.eventually (fun s => ∃ status, s.pc = .returned status) hload ?_
  intro k
  by_cases hnil : (Runs.stateAt (step debug) (st.start request) envs k).qp.pendingOperations = []
  · rcases (hc k).of_pending_nil (hs k).ordered (hbk k) hnil with hret | hlt
    · exact ⟨k + 1, Nat.le_succ k, Or.inl hret⟩
    · exact ⟨k, Nat.le_refl k, Or.inr hlt⟩
  · obtain ⟨j, hkj, hserves⟩ := hlive k hnil
    exact ⟨j, hkj, Or.inr (((hc j).load (hs j).ordered (hbk j)).2 hserves)⟩

end Machine

end Bitar
