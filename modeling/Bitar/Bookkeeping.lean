import Bitar.Steps
import Bitar.Lib.Pool

/-!
# The bookkeeping of a queue pair

An operation is tracked in three places: the enqueue half of `operations_`, the
device queue and `pending_operations_`.  `Ordered` (the pending operations are
those of the device followed by the assembled ones) and `Bookkeeping` (whatever
is outside a pool belongs to exactly one pending operation) are kept by every
step in which nothing fails.

**Results.**
* `Ordered.continues`, `Bookkeeping.continues`: the step lemmas.
* `fifo_bookkeeping`: the invariant of a whole call, which also shows that the
  debug check of `RecycleResources` never fires.
-/

namespace Bitar

open BlockStore Pieces

namespace QueuePairMemory

/-- The mbufs chained to pending operations. -/
def pendingMbufs (qp : QueuePairMemory) : List Nat :=
  qp.pendingOperations.flatMap fun o => (qp.ops o).mbufs

end QueuePairMemory

namespace Machine

variable {st st' : Machine} {env : Env}

section Finish

variable (st)

@[simp] theorem finish_pc : st.finish.pc = .returned .success := by
  unfold finish
  split <;> rfl

@[simp] theorem finish_qp : st.finish.qp = st.qp := by
  unfold finish
  split <;> rfl

@[simp] theorem finish_queue : st.finish.queue = st.queue := by
  unfold finish
  split <;> rfl

@[simp] theorem finish_cfg : st.finish.cfg = st.cfg := by
  unfold finish
  split <;> rfl

theorem drainOrFinish_cases :
    (st.qp.pendingOperations ≠ [] ∧ st.drainOrFinish = { st with pc := .drain }) ∨
    (st.qp.pendingOperations = [] ∧ st.drainOrFinish = st.finish) := by
  unfold drainOrFinish QueuePairMemory.hasPendingOperations
  by_cases h : st.qp.pendingOperations = []
  · right
    simp [h]
  · left
    simp [h]

@[simp] theorem drainOrFinish_qp : st.drainOrFinish.qp = st.qp := by
  rcases st.drainOrFinish_cases with ⟨-, h⟩ | ⟨-, h⟩ <;> simp [h]

@[simp] theorem drainOrFinish_queue : st.drainOrFinish.queue = st.queue := by
  rcases st.drainOrFinish_cases with ⟨-, h⟩ | ⟨-, h⟩ <;> simp [h]

@[simp] theorem drainOrFinish_cfg : st.drainOrFinish.cfg = st.cfg := by
  rcases st.drainOrFinish_cases with ⟨-, h⟩ | ⟨-, h⟩ <;> simp [h]

@[simp] theorem memory_drainOrFinish : st.drainOrFinish.memory = st.memory := by
  rcases st.drainOrFinish_cases with ⟨-, h⟩ | ⟨-, h⟩ <;> rw [h]
  unfold finish
  split <;> rfl

@[simp] theorem zones_drainOrFinish : st.drainOrFinish.zones = st.zones := by
  rcases st.drainOrFinish_cases with ⟨-, h⟩ | ⟨-, h⟩ <;> rw [h]
  unfold finish
  split <;> rfl

end Finish

/-! ## The order of the operations -/

/-- `Ordered` looks at the queue pair memory, the device queue and `pc` only. -/
theorem Ordered.drainOrFinish (h : st.Ordered) (hnone : st.qp.numOpsAssembled = 0) :
    st.drainOrFinish.Ordered := by
  refine ⟨?_, ?_, ?_, ?_, ?_, ?_, ?_, ?_⟩
  · simpa [QueuePairMemory.assembled] using h.pending
  · simpa using h.nodup
  · simpa using h.notFree
  · simpa using h.assembled_le
  all_goals
    rcases st.drainOrFinish_cases with ⟨hne, he⟩ | ⟨hnil, he⟩ <;> rw [he] <;> simp
  · exact ⟨hnone, hne⟩
  · exact hnil

section Built

variable {n : Nat} {os ms : List Nat} {ops : Nat → CompOp} {S T : List Segment}

theorem Built.cfg_eq (h : Built st st' n os ms ops S T) : st'.cfg = st.cfg :=
  (congrArg Machine.cfg h.state_eq).trans rfl

theorem Built.memory_eq (h : Built st st' n os ms ops S T) : st'.memory = st.memory :=
  (congrArg Machine.memory h.state_eq).trans rfl

theorem Built.call_eq (h : Built st st' n os ms ops S T) :
    st'.call = st.call.advance st.cfg n :=
  congrArg Machine.call h.state_eq

theorem Built.assembled (h : Built st st' n os ms ops S T) (hT : T.length = n) :
    st'.qp.assembled = st.qp.assembled ++ os := by
  have hlen := h.ops_handable.length_eq
  rw [h.state_eq, QueuePairMemory.assembled]
  dsimp only
  rw [if_pos hT, ← hlen]
  have := read_write_append st.qp.operations () 0 st.qp.numOpsAssembled os
  rwa [Nat.zero_add] at this

/-- The operations of a burst are new. -/
theorem Built.fresh (h : Built st st' n os ms ops S T) (hst : st.Ordered) :
    ∀ o ∈ st.qp.pendingOperations, o ∉ os := fun o ho hos =>
  hst.notFree o ho (h.ops_handable.free o hos)

theorem Built.count_le (h : Built st st' n os ms ops S T) (hb : st.cfg.Bounds) :
    count st.cfg.maxSglSegs.toNat n ≤ st.cfg.burstSize.toNat - st.qp.numOpsAssembled := by
  rw [count_le_iff hb.maxSglSegs_pos, h.n_eq]
  exact Nat.min_le_right _ _

theorem Ordered.built (hst : st.Ordered) (hb : st.cfg.Bounds)
    (h : Built st st' n os ms ops S T) (hT : T.length = n) :
    { st' with pc := .enqueue (st.qp.numOpsAssembled +
      count st.cfg.maxSglSegs.toNat n) }.Ordered := by
  have hcount := h.count_le hb
  have hpos := count_pos hb.maxSglSegs_pos h.n_pos
  have hle := hst.assembled_le
  have hnum : st'.qp.numOpsAssembled =
      st.qp.numOpsAssembled + count st.cfg.maxSglSegs.toNat n := by
    rw [h.state_eq]
    dsimp only
    rw [if_pos hT]
  have hpend : st'.qp.pendingOperations = st.qp.pendingOperations ++ os := by rw [h.state_eq]
  have hqueue : st'.queue = st.queue := by rw [h.state_eq]
  refine ⟨?_, ?_, ?_, ?_, ?_, by simp, by simp, by simp⟩
  · show st'.qp.pendingOperations = st'.queue ++ st'.qp.assembled
    rw [hpend, hqueue, h.assembled hT, hst.pending, List.append_assoc]
  · show st'.qp.pendingOperations.Nodup
    rw [hpend]
    exact List.Nodup.append hst.nodup h.ops_handable.nodup (h.fresh hst)
  · show ∀ o ∈ st'.qp.pendingOperations, o ∉ st'.qp.operationPool
    intro o ho
    rw [hpend, List.mem_append] at ho
    rw [h.state_eq]
    simp only [Finset.mem_sdiff, List.mem_toFinset, not_and, not_not]
    rcases ho with ho | ho
    · exact fun hf => absurd hf (hst.notFree o ho)
    · exact fun _ => ho
  · show st'.qp.numOpsAssembled ≤ st'.cfg.burstSize.toNat
    rw [hnum, show st'.cfg = st.cfg by rw [h.state_eq]]
    omega
  · intro k hk
    obtain rfl := Pc.enqueue.inj hk
    exact ⟨hnum.symm, by omega⟩

end Built

/-- The device hands back the oldest pending operations. -/
theorem Ordered.queue_prefix (h : st.Ordered) (env : Env) :
    st.queue.Nodup ∧ st.qp.pendingOperations.drop (st.queue.take (st.numDequeued env)).length =
      st.queue.drop (st.numDequeued env) ++ st.qp.assembled := by
  have hnd := h.nodup
  rw [h.pending] at hnd ⊢
  refine ⟨hnd.sublist (List.sublist_append_left ..), ?_⟩
  have hle : (st.queue.take (st.numDequeued env)).length ≤ st.queue.length := by
    rw [List.length_take]
    exact Nat.min_le_right _ _
  have hlen : (st.queue.take (st.numDequeued env)).length = st.numDequeued env := by
    rw [List.length_take]
    unfold numDequeued
    omega
  rw [List.drop_append_of_le_length hle, hlen]

theorem retire_zones (h : st.Ordered) (bs : List Nat) :
    ((st.afterHandBack env).retire bs).zones = st.zones := by
  rw [retire_afterHandBack (h.queue_prefix env).1]

/-- The front of a burst is the front of the pending operations. -/
theorem Ordered.burst_split (h : st.Ordered) {bs : List Nat}
    (hbs : bs <+: st.queue.take (st.numDequeued env)) :
    st.qp.pendingOperations = bs ++ st.qp.pendingOperations.drop bs.length := by
  have hpre : bs <+: st.qp.pendingOperations := by
    rw [h.pending]
    exact (hbs.trans (List.take_prefix ..)).trans (List.prefix_append ..)
  exact (List.prefix_iff_eq_append.mp hpre).symm

/-- After a burst without a failed operation. -/
theorem Ordered.retire (h : st.Ordered) (env : Env) :
    { (st.afterHandBack env).retire (st.queue.take (st.numDequeued env)) with
      pc := .assemble }.Ordered := by
  obtain ⟨hnd, hdrop⟩ := h.queue_prefix env
  have hnodup := h.nodup
  rw [h.pending] at hnodup
  rw [retire_afterHandBack hnd]
  refine ⟨?_, ?_, ?_, h.assembled_le, by simp, by simp, by simp, by simp⟩
  · dsimp only
    rw [hdrop, QueuePairMemory.assembled, QueuePairMemory.assembled]
    dsimp only
    rw [read_write_of_disjoint _ (Or.inr (Or.inl (by
      have := h.assembled_le
      omega)))]
  · exact h.nodup.sublist (List.drop_sublist ..)
  · intro o ho
    dsimp only at ho ⊢
    rw [Finset.mem_union, List.mem_toFinset, not_or]
    refine ⟨h.notFree o (List.mem_of_mem_drop ho), fun hb => ?_⟩
    rw [hdrop] at ho
    rw [← List.take_append_drop (st.numDequeued env) st.queue, List.append_assoc] at hnodup
    exact List.disjoint_of_nodup_append hnodup hb ho

/-- **Step lemma.** -/
theorem Ordered.continues (h : st.Ordered) (hb : st.cfg.Bounds) (hstep : Continues st env st') :
    st'.Ordered := by
  cases hstep with
  | built hpc built hT => exact h.built hb built hT
  | full hpc hpos => exact ⟨h.pending, h.nodup, h.notFree, h.assembled_le, by simpa using hpos,
      by simp, by simp, by simp⟩
  | exhausted hpc hrem hnone => exact h.drainOrFinish hnone
  | @enqueued operations hpc hread =>
      refine ⟨?_, h.nodup, h.notFree, ?_, by simp, fun _ => ?_, by simp, by simp⟩
      · have : read operations () 0 (st.qp.numOpsAssembled -
            min env.numAccepted st.qp.numOpsAssembled) =
      st.qp.assembled.drop env.numAccepted := hread
        dsimp only [QueuePairMemory.assembled] at this ⊢
        rw [this, List.append_assoc]
        show st.qp.pendingOperations =
          st.queue ++ (st.qp.assembled.take env.numAccepted ++ st.qp.assembled.drop env.numAccepted)
        rw [List.take_append_drop, h.pending]
      · exact (Nat.sub_le _ _).trans h.assembled_le
      · have hpos := (h.enqueue _ hpc).2
        show st.qp.pendingOperations ≠ []
        rw [h.pending]
        intro he
        have := congrArg List.length he
        simp only [List.length_append, QueuePairMemory.length_assembled, List.length_nil] at this
        omega
  | dequeued hpc hsucc => exact h.retire env
  | drained hpc hsucc =>
      have hr := (h.retire env).drainOrFinish (show _ = 0 by
        rw [retire_afterHandBack (h.queue_prefix env).1]
        exact (h.drain hpc).1)
      exact hr
  | returned hpc => exact h

/-! ## The pools -/

/-- Whatever is outside the operation pool is a pending operation, and whatever
is outside the mbuf pool is chained to exactly one of them, in one place.
`opPool` and `mbufPool` are the pools of the idle queue pair. -/
structure Bookkeeping (opPool mbufPool : Finset Nat) (st : Machine) : Prop where
  ops : Pool.Accounts opPool st.qp.operationPool st.qp.pendingOperations
  mbufs : Pool.Accounts mbufPool st.qp.mbufPool st.qp.pendingMbufs

variable {opPool mbufPool : Finset Nat}

section Built

variable {n : Nat} {os ms : List Nat} {ops : Nat → CompOp} {S T : List Segment}

theorem Built.length_sources (h : Built st st' n os ms ops S T) : S.length = n := by
  have h1 := congrArg List.length h.source_mbufs
  have h2 := h.mbufs_handable.length_eq
  simp only [List.length_map, List.length_take] at h1
  omega

theorem Built.map_mSrc (h : Built st st' n os ms ops S T) :
    os.map (fun o => (ops o).mSrc.segs) = pieces st.cfg.maxSglSegs.toNat S := by
  apply List.ext_getElem
  · simp [h.ops_handable.length_eq, h.length_sources]
  · intro j h1 h2
    rw [List.getElem_map, h.ops_eq, opAt_mSrc, getElem_pieces]

theorem Built.flatMap_mDst (h : Built st st' n os ms ops S T) (hm : 0 < st.cfg.maxSglSegs.toNat) :
    os.flatMap (fun o => (ops o).mDst.segs) = T := by
  have hos : os.map (fun o => (ops o).mDst.segs) =
      (List.range os.length).map fun j => piece st.cfg.maxSglSegs.toNat j T := by
    apply List.ext_getElem
    · simp
    · intro j h1 h2
      simp only [List.getElem_map, List.getElem_range]
      rw [h.ops_eq, opAt_mDst]
  rw [List.flatMap_def, hos, flatten_map_piece]
  rw [h.ops_handable.length_eq, ← count_le_iff hm]
  exact count_mono h.length_destinations

/-- The mbufs of a burst are chained to its operations, each once. -/
theorem Built.mbufs_perm (h : Built st st' n os ms ops S T) (hm : 0 < st.cfg.maxSglSegs.toNat) :
    (os.flatMap fun o => (ops o).mbufs).Perm (ms.take (n + T.length)) := by
  have hsrc : os.flatMap (fun o => (ops o).mSrc.segs.map Segment.mbuf) = ms.take n := by
    rw [← h.source_mbufs, ← List.map_flatMap, List.flatMap_def, h.map_mSrc, flatten_pieces hm]
  have hdst : os.flatMap (fun o => (ops o).mDst.segs.map Segment.mbuf) =
      (ms.drop n).take T.length := by
    rw [← h.destination_mbufs, ← List.map_flatMap, h.flatMap_mDst hm]
  rw [List.take_add, ← hsrc, ← hdst]
  simp only [CompOp.mbufs, List.map_append]
  exact (List.flatMap_append_perm ..).symm

theorem Built.pendingMbufs (h : Built st st' n os ms ops S T) (hst : st.Ordered) :
    st'.qp.pendingMbufs = st.qp.pendingMbufs ++ os.flatMap fun o => (ops o).mbufs := by
  rw [h.state_eq, QueuePairMemory.pendingMbufs, List.flatMap_append]
  congr 1
  apply List.flatMap_congr
  intro o ho
  exact congrArg CompOp.mbufs (h.ops_other o (h.fresh hst o ho))

end Built

section Pools

theorem Bookkeeping.built {n : Nat} {os ms : List Nat} {ops : Nat → CompOp} {S T : List Segment}
    (h : Bookkeeping opPool mbufPool st) (hst : st.Ordered) (hb : st.cfg.Bounds)
    (hbuilt : Built st st' n os ms ops S T) (hT : T.length = n) :
    Bookkeeping opPool mbufPool st' := by
  have hmbufs : ms.Perm (os.flatMap fun o => (ops o).mbufs) := by
    have := hbuilt.mbufs_perm hb.maxSglSegs_pos
    rw [List.take_of_length_le (by rw [hbuilt.mbufs_handable.length_eq]; omega)] at this
    exact this.symm
  refine ⟨?_, ?_⟩
  · rw [hbuilt.state_eq]
    exact h.ops.take hbuilt.ops_handable.nodup hbuilt.ops_handable.free
  · rw [hbuilt.pendingMbufs hst, hbuilt.state_eq]
    exact (h.mbufs.take hbuilt.mbufs_handable.nodup hbuilt.mbufs_handable.free).perm
      (hmbufs.append_left _)

theorem Bookkeeping.retire (h : Bookkeeping opPool mbufPool st) (hst : st.Ordered)
    {bs : List Nat} (hbs : bs <+: st.queue.take (st.numDequeued env)) :
    Bookkeeping opPool mbufPool ((st.afterHandBack env).retire bs) := by
  obtain ⟨hnd, -⟩ := hst.queue_prefix env
  have hops : (fun o => ((st.handBack env).qp.ops o).mbufs) = fun o => (st.qp.ops o).mbufs :=
    funext (handBack_spec hnd env).mbufs
  have hops' := h.ops
  have hmbufs' := h.mbufs
  rw [hst.burst_split hbs] at hops'
  rw [QueuePairMemory.pendingMbufs, hst.burst_split hbs, List.flatMap_append] at hmbufs'
  rw [retire_afterHandBack hnd]
  refine ⟨hops'.give, ?_⟩
  dsimp only [QueuePairMemory.pendingMbufs]
  rw [hops]
  exact hmbufs'.give

/-- **Step lemma.** -/
theorem Bookkeeping.continues (h : Bookkeeping opPool mbufPool st) (hst : st.Ordered)
    (hb : st.cfg.Bounds) (hstep : Continues st env st') : Bookkeeping opPool mbufPool st' := by
  cases hstep with
  | built hpc built hT => exact ⟨(h.built hst hb built hT).ops, (h.built hst hb built hT).mbufs⟩
  | full hpc hpos => exact ⟨h.ops, h.mbufs⟩
  | exhausted hpc hrem hnone =>
      refine ⟨?_, ?_⟩ <;> rw [drainOrFinish_qp]
      exacts [h.ops, h.mbufs]
  | enqueued hpc hread => exact ⟨h.ops, h.mbufs⟩
  | dequeued hpc hsucc =>
      exact ⟨(h.retire hst List.prefix_rfl).ops, (h.retire hst List.prefix_rfl).mbufs⟩
  | drained hpc hsucc =>
      refine ⟨?_, ?_⟩ <;> rw [drainOrFinish_qp]
      exacts [(h.retire hst List.prefix_rfl).ops, (h.retire hst List.prefix_rfl).mbufs]
  | returned hpc => exact h

end Pools

/-! ## Whole calls -/

/-- The configuration of a machine never changes. -/
theorem Continues.cfg_eq (hst : st.Ordered) (h : Continues st env st') : st'.cfg = st.cfg := by
  cases h with
  | built hpc built hT =>
      show _ = _
      rw [built.state_eq]
  | full hpc hpos => rfl
  | exhausted hpc hrem hnone => exact drainOrFinish_cfg st
  | enqueued hpc hread => rfl
  | dequeued hpc hsucc =>
      rw [retire_afterHandBack (hst.queue_prefix env).1]
  | drained hpc hsucc =>
      rw [drainOrFinish_cfg, retire_afterHandBack (hst.queue_prefix env).1]
  | returned hpc => rfl

/-- Every call starts in order. -/
theorem Idle.start_ordered (h : st.Idle) (request : Request) : (st.start request).Ordered := by
  refine ⟨?_, ?_, ?_, ?_, ?_, ?_, ?_, ?_⟩
  · simp [QueuePairMemory.assembled, h.pending, h.queue, h.numOpsAssembled, BlockStore.read]
  · simp [h.pending]
  · simp [h.pending]
  · simp [h.numOpsAssembled]
  · rcases st.start_pc request with hpc | ⟨status, hpc⟩ <;> simp [hpc]
  · rcases st.start_pc request with hpc | ⟨status, hpc⟩ <;> simp [hpc]
  · rcases st.start_pc request with hpc | ⟨status, hpc⟩ <;> simp [hpc]
  · simp [h.pending]

theorem Idle.start_bookkeeping (h : st.Idle) (request : Request) :
    Bookkeeping st.qp.operationPool st.qp.mbufPool (st.start request) := by
  refine ⟨?_, ?_⟩
  · simpa [h.pending] using Pool.Accounts.refl st.qp.operationPool
  · simpa [QueuePairMemory.pendingMbufs, h.pending] using Pool.Accounts.refl st.qp.mbufPool

/-- Without pending operations the queue pair is idle. -/
theorem Ordered.idle_of_nil (h : st.Ordered) (hnil : st.qp.pendingOperations = []) :
    st.Idle := by
  have hpend := h.pending
  rw [hnil] at hpend
  obtain ⟨hq, ha⟩ := List.append_eq_nil_iff.mp hpend.symm
  refine ⟨hnil, ?_, hq⟩
  have := congrArg List.length ha
  simpa using this

/-- After a call in order has returned, the queue pair is idle. -/
theorem Ordered.idle (h : st.Ordered) {status : Status} (hpc : st.pc = .returned status) :
    st.Idle :=
  h.idle_of_nil (h.returned status hpc)

/-- The states of a call in which nothing has failed so far. -/
structure InOrder (cfg : Configuration) (opPool mbufPool : Finset Nat) (st : Machine) : Prop where
  cfg_eq : st.cfg = cfg
  ordered : st.Ordered
  bookkeeping : Bookkeeping opPool mbufPool st

theorem InOrder.step {cfg : Configuration} (hb : cfg.Bounds) (debug : Bool)
    (h : InOrder cfg opPool mbufPool st) (hnf : st.NoFault env) :
    Continues st env (step debug st env) ∧
      InOrder cfg opPool mbufPool (Machine.step debug st env) := by
  have hb' : st.cfg.Bounds := h.cfg_eq ▸ hb
  rcases step_cases hb' h.ordered debug env with ⟨-, hc⟩ | ⟨hf, -⟩
  · exact ⟨hc, (hc.cfg_eq h.ordered).trans h.cfg_eq, h.ordered.continues hb' hc,
      h.bookkeeping.continues h.ordered hb' hc⟩
  · exact absurd hnf hf

theorem Idle.start_inOrder (h : st.Idle) (request : Request) :
    InOrder st.cfg st.qp.operationPool st.qp.mbufPool (st.start request) :=
  ⟨start_cfg st request, h.start_ordered request, h.start_bookkeeping request⟩

theorem Idle.run_inOrder (hidle : st.Idle) (hb : st.cfg.Bounds) (request : Request) {debug : Bool}
    {envs : List Env} (h : Runs.Along (Machine.step debug) NoFault (st.start request) envs) :
    InOrder st.cfg st.qp.operationPool st.qp.mbufPool
      (Runs.run (Machine.step debug) (st.start request) envs) := by
  exact Runs.Along.invariant (I := InOrder st.cfg st.qp.operationPool st.qp.mbufPool)
    (fun s e hs hnf => (hs.step hb debug hnf).2) (hidle.start_inOrder request) h

/-- In a call that returns OK nothing has failed. -/
theorem Idle.noFault_of_success (hidle : st.Idle) (hb : st.cfg.Bounds) (request : Request)
    (debug : Bool) {envs : List Env}
    (h : (Runs.run (Machine.step debug) (st.start request) envs).result = some .success) :
    Runs.Along (Machine.step debug) NoFault (st.start request) envs := by
  suffices key : ∀ (s : Machine) (envs : List Env), s.cfg.Bounds → s.Ordered →
      (Runs.run (Machine.step debug) s envs).result = some .success →
      Runs.Along (Machine.step debug) NoFault s envs from
    key _ _ (by rwa [start_cfg]) (hidle.start_ordered request) h
  intro s envs
  induction envs generalizing s with
  | nil => exact fun _ _ _ => trivial
  | cons env envs ih =>
      intro hb hs hres
      rcases step_cases hb hs debug env with ⟨hnf, hc⟩ | ⟨-, mid, code, message, hbr, he⟩
      · exact ⟨hnf, ih _ (hc.cfg_eq hs ▸ hb) (hs.continues hb hc) hres⟩
      · -- after a failure the status stays what it is
        rw [Runs.run_cons, he, run_returned (fail_pc mid code message), result_eq_some,
          fail_pc] at hres
        exact absurd (congrArg Status.code (Pc.returned.inj hres)) hbr.code_ne_ok

/-- The run of the debug build is the run of the release build. -/
theorem Idle.run_debug (hidle : st.Idle) (hb : st.cfg.Bounds) (request : Request)
    (debug debug' : Bool) {envs : List Env}
    (h : Runs.Along (Machine.step debug) NoFault (st.start request) envs) :
    Runs.run (Machine.step debug') (st.start request) envs =
      Runs.run (Machine.step debug) (st.start request) envs := by
  suffices key : ∀ (s : Machine) (envs : List Env),
      InOrder st.cfg st.qp.operationPool st.qp.mbufPool s →
      Runs.Along (Machine.step debug) NoFault s envs →
      Runs.run (Machine.step debug') s envs = Runs.run (Machine.step debug) s envs from
    key _ _ (hidle.start_inOrder request) h
  intro s envs
  induction envs generalizing s with
  | nil => exact fun _ _ => rfl
  | cons env envs ih =>
      intro hs hal
      rw [Runs.run_cons, Runs.run_cons, step_debug hs.ordered debug' debug]
      exact ih _ (hs.step hb debug hal.1).2 hal.2

/-- **The FIFO bookkeeping of a call.**  `st` is an idle queue pair and `envs`
any behaviour of the device and the pools in which nothing fails; every state
of the call is reached by such a run. -/
theorem fifo_bookkeeping (hcfg : Accepted st.cfg) (hidle : st.Idle) (request : Request)
    (debug : Bool) (envs : List Env)
    (h : Runs.Along (Machine.step debug) NoFault (st.start request) envs) :
    let s := Runs.run (Machine.step debug) (st.start request) envs
    s.qp.pendingOperations = s.queue ++ s.qp.assembled ∧
    s.qp.pendingOperations.Nodup ∧
    Bookkeeping st.qp.operationPool st.qp.mbufPool s ∧
    (∀ env, Machine.step true s env = Machine.step false s env) ∧
    Runs.run (Machine.step (!debug)) (st.start request) envs = s ∧
    (s.result = some .success → s.Idle ∧ s.qp.operationPool = st.qp.operationPool ∧
      s.qp.mbufPool = st.qp.mbufPool) := by
  have hb := hcfg.bounds
  have hs := hidle.run_inOrder hb request h
  refine ⟨hs.ordered.pending, hs.ordered.nodup, hs.bookkeeping,
    step_debug hs.ordered true false, hidle.run_debug hb request debug (!debug) h, ?_⟩
  intro hres
  have hpc := result_eq_some.mp hres
  have hidle' := hs.ordered.idle hpc
  refine ⟨hidle', ?_, ?_⟩
  · have := hs.bookkeeping.ops
    rw [hidle'.pending] at this
    exact this.eq_full
  · have := hs.bookkeeping.mbufs
    rw [QueuePairMemory.pendingMbufs, hidle'.pending] at this
    exact this.eq_full

/-- Three segments in two bursts, with partial enqueues and dequeues. -/
def sampleSchedule : List Env :=
  [{ bulk := ⟨some [0, 1], some [0, 1, 2, 3]⟩ },
    { numAccepted := 1 },
    { results := [⟨.success, [7, 7, 7]⟩] },
    { bulk := ⟨some [2], some [4, 5]⟩ },
    { numAccepted := 5 },
    {},
    {},
    { results := [⟨.success, [8]⟩] },
    { results := [⟨.success, [9]⟩] }]

theorem fifo_bookkeeping_sample :
    (Runs.run (step true) ((sampleMachine 1 3).start (.compress (some ⟨⟨.host 0, 0⟩, 20⟩)))
      sampleSchedule).Idle :=
  ((fifo_bookkeeping sampleConfig_accepted.1 (sampleMachine_idle 1 3)
    (.compress (some ⟨⟨.host 0, 0⟩, 20⟩)) true sampleSchedule (by decide +kernel)).2.2.2.2.2
      (by decide +kernel)).1

end Machine

end Bitar
