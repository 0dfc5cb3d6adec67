import Bitar.Bursts
import Mathlib.Data.Finset.Lattice.Lemmas
import Mathlib.Data.Finset.Dedup
import Mathlib.Data.List.TakeWhile

/-!
# What the steps of a call do

One specification lemma for each of `EnqueueBurst` and `DequeueBurst`, in terms
of the operations that the device holds and of those that wait to be enqueued.
The results of a burst are applied to distinct operations, so the order in
which the device completes them does not matter for the operations themselves.

**Results.**
* `enqueueBurst_error`, `enqueueBurst_ok`: a prefix of the assembled operations
  moves to the device.
* `handBack_spec`: the oldest operations leave the device.
* `processBurst_spec`: the loop over them stops at the first failed one.
-/

namespace Bitar

open BlockStore

theorem getErrorCount_pos {counter k : Nat} {stats : Stats}
    (h : 0 < (getErrorCount counter k stats).1) : k = 0 := by
  unfold getErrorCount at h
  split_ifs at h with hk
  · simp at h
  all_goals omega

namespace QueuePairMemory

variable {qp : QueuePairMemory}

@[simp] theorem length_assembled : qp.assembled.length = qp.numOpsAssembled := by
  simp [assembled]

/-- The unused operations stay assembled, in their order. -/
theorem accumulateUnused_spec (qp : QueuePairMemory) {accepted : Nat}
    (h : accepted ≤ qp.numOpsAssembled) :
    ∃ operations, qp.accumulateUnused (qp.numOpsAssembled - accepted) =
        ({ qp with
            operations := operations
            numOpsAssembled := qp.numOpsAssembled - accepted }, .ok) ∧
      read operations () 0 (qp.numOpsAssembled - accepted) = qp.assembled.drop accepted := by
  have hdrop : qp.assembled.drop accepted =
      read qp.operations () accepted (qp.numOpsAssembled - accepted) := by
    rw [assembled, drop_read, Nat.zero_add]
  unfold accumulateUnused
  rw [if_neg (by omega), hdrop]
  split_ifs with hmove
  · refine ⟨_, rfl, ?_⟩
    rw [show qp.numOpsAssembled - (qp.numOpsAssembled - accepted) = accepted by omega]
    have := read_write_self qp.operations () 0
      (read qp.operations () accepted (qp.numOpsAssembled - accepted))
    rwa [length_read] at this
  · refine ⟨qp.operations, rfl, ?_⟩
    by_cases h0 : accepted = 0
    · rw [h0]
    · rw [show qp.numOpsAssembled - accepted = 0 by omega]
      rfl

end QueuePairMemory

/-- The operation as the device hands it back. -/
def OpResult.finish (result : OpResult) (op : CompOp) : CompOp :=
  { op with
    status := result.status
    produced := (result.written op).length }

namespace Machine

variable {st : Machine} {env : Env}

/-! ## Enqueueing -/

/-- When an error count is reported, nothing has been enqueued. -/
theorem enqueueBurst_error {n : Nat}
    (herr : 0 < (getErrorCount st.numMaybeNotOk (min env.numAccepted n) env.stats).1) :
    st.enqueueBurst env n =
      ({ st with numMaybeNotOk :=
          (getErrorCount st.numMaybeNotOk (min env.numAccepted n) env.stats).2 }, .ioError) := by
  have h0 := getErrorCount_pos herr
  unfold enqueueBurst
  simp only [if_pos herr]
  rw [h0, show read st.qp.operations () 0 0 = [] from rfl, List.append_nil]

/-- Otherwise the device holds a prefix of what was assembled, and the rest
stays assembled. -/
theorem enqueueBurst_ok (hn : st.qp.numOpsAssembled < 65536)
    (herr : (getErrorCount st.numMaybeNotOk (min env.numAccepted st.qp.numOpsAssembled)
      env.stats).1 = 0) :
    ∃ operations, st.enqueueBurst env st.qp.numOpsAssembled =
      ({ st with
          queue := st.queue ++ st.qp.assembled.take env.numAccepted
          numMaybeNotOk := (getErrorCount st.numMaybeNotOk
            (min env.numAccepted st.qp.numOpsAssembled) env.stats).2
          qp := { st.qp with
            operations := operations
            numOpsAssembled :=
              st.qp.numOpsAssembled - min env.numAccepted st.qp.numOpsAssembled } }, .ok) ∧
      read operations () 0 (st.qp.numOpsAssembled - min env.numAccepted st.qp.numOpsAssembled) =
        st.qp.assembled.drop env.numAccepted := by
  obtain ⟨operations, h1, h2⟩ := st.qp.accumulateUnused_spec
    (Nat.min_le_right env.numAccepted st.qp.numOpsAssembled)
  refine ⟨operations, ?_, ?_⟩
  · unfold enqueueBurst
    simp only [if_neg (Nat.not_lt.mpr (Nat.le_of_eq herr))]
    rw [toUInt16_of_lt (by omega), h1, QueuePairMemory.assembled, take_read]
  · rw [h2]
    by_cases h : env.numAccepted ≤ st.qp.numOpsAssembled
    · rw [Nat.min_eq_left h]
    · rw [Nat.min_eq_right (by omega), List.drop_eq_nil_of_le (by simp),
        List.drop_eq_nil_of_le (by simp; omega)]

/-! ## Dequeueing -/

/-- The operations handed back in a step, with their results. -/
def finished (st : Machine) (env : Env) : List (Nat × OpResult) :=
  (st.queue.take (st.numDequeued env)).zip env.results

theorem map_fst_finished (st : Machine) (env : Env) :
    (st.finished env).map Prod.fst = st.queue.take (st.numDequeued env) := by
  unfold finished
  apply List.map_fst_zip
  rw [List.length_take]
  unfold numDequeued
  omega

/-- The memory after the device has written the outputs. -/
def writtenMemory (st : Machine) (ps : List (Nat × OpResult)) : Memory :=
  scatterAll st.memory
    (ps.map fun p => ((st.qp.ops p.1).destination, p.2.written (st.qp.ops p.1)))

/-- Completing distinct operations, one after another. -/
theorem foldl_complete :
    ∀ (ps : List (Nat × OpResult)) (st : Machine), (ps.map Prod.fst).Nodup →
      ∃ ops, ps.foldl (fun st p => st.complete p.1 p.2) st =
          { st with
            memory := st.writtenMemory ps
            qp := { st.qp with ops := ops } } ∧
        (∀ p ∈ ps, ops p.1 = p.2.finish (st.qp.ops p.1)) ∧
        (∀ o, o ∉ ps.map Prod.fst → ops o = st.qp.ops o)
  | [], st, _ => ⟨st.qp.ops, rfl, by simp, by simp⟩
  | (op, result) :: ps, st, hnd => by
      rw [List.map_cons, List.nodup_cons] at hnd
      obtain ⟨hop, hnd⟩ := hnd
      have hne : ∀ o ∈ ps.map Prod.fst, (st.complete op result).qp.ops o = st.qp.ops o :=
        fun o ho => Function.update_of_ne (fun (e : o = op) => hop (e ▸ ho)) ..
      obtain ⟨ops, h1, h2, h3⟩ := foldl_complete ps (st.complete op result) hnd
      refine ⟨ops, ?_, ?_, ?_⟩
      · rw [List.foldl_cons, h1]
        have hmem : (st.complete op result).writtenMemory ps =
            st.writtenMemory ((op, result) :: ps) := by
          unfold writtenMemory
          rw [List.map_cons]
          refine congrArg (scatterAll (st.complete op result).memory) ?_
          apply List.map_congr_left
          intro p hp
          rw [hne p.1 (List.mem_map_of_mem hp)]
        rw [hmem]
        rfl
      · intro p hp
        rcases List.mem_cons.mp hp with rfl | hp
        · rw [h3 _ hop]
          exact Function.update_self ..
        · rw [h2 p hp, hne p.1 (List.mem_map_of_mem hp)]
      · intro o ho
        rw [List.map_cons, List.mem_cons, not_or] at ho
        rw [h3 o ho.2]
        exact Function.update_of_ne ho.1 ..

/-- The oldest operations leave the device. -/
structure HandedBack (st : Machine) (env : Env) (st' : Machine) : Prop where
  state_eq : st' =
    { st with
      memory := st.writtenMemory (st.finished env)
      queue := st.queue.drop (st.numDequeued env)
      qp := { st.qp with
        ops := st'.qp.ops
        operations := write st.qp.operations () st.cfg.burstSize.toNat
          (st.queue.take (st.numDequeued env)) } }
  ops_finished : ∀ p ∈ st.finished env, st'.qp.ops p.1 = p.2.finish (st.qp.ops p.1)
  ops_other : ∀ o, o ∉ st.queue.take (st.numDequeued env) → st'.qp.ops o = st.qp.ops o

theorem handBack_spec (hnd : st.queue.Nodup) (env : Env) :
    HandedBack st env (st.handBack env) := by
  obtain ⟨ops, h1, h2, h3⟩ := foldl_complete (st.finished env) st
    (by rw [map_fst_finished]; exact hnd.sublist (List.take_sublist ..))
  rw [map_fst_finished] at h3
  have h1' := h1
  unfold finished at h1'
  refine ⟨?_, ?_, ?_⟩
  · simp only [handBack, h1']
    rfl
  · simp only [handBack, h1']
    exact h2
  · simp only [handBack, h1']
    exact h3

/-- The device leaves the chains of an operation alone. -/
theorem HandedBack.chains {st' : Machine} (h : HandedBack st env st') (o : Nat) :
    (st'.qp.ops o).mSrc = (st.qp.ops o).mSrc ∧ (st'.qp.ops o).mDst = (st.qp.ops o).mDst := by
  by_cases ho : o ∈ st.queue.take (st.numDequeued env)
  · rw [← map_fst_finished, List.mem_map] at ho
    obtain ⟨p, hp, rfl⟩ := ho
    rw [h.ops_finished p hp]
    exact ⟨rfl, rfl⟩
  · rw [h.ops_other o ho]
    exact ⟨rfl, rfl⟩

theorem HandedBack.mbufs {st' : Machine} (h : HandedBack st env st') (o : Nat) :
    (st'.qp.ops o).mbufs = (st.qp.ops o).mbufs := by
  unfold CompOp.mbufs
  rw [(h.chains o).1, (h.chains o).2]

/-- The first operations of the pending ones are done: the callback has seen
them, and they are back in their pools. -/
def retire (st : Machine) (bs : List Nat) : Machine :=
  { st with
    call := bs.foldl (fun call o => call.dequeueCallback (st.qp.ops o)) st.call
    qp := { st.qp with
      pendingOperations := st.qp.pendingOperations.drop bs.length
      mbufPool := st.qp.mbufPool ∪ (bs.flatMap fun o => (st.qp.ops o).mbufs).toFinset
      operationPool := st.qp.operationPool ∪ bs.toFinset } }

@[simp] theorem retire_nil (st : Machine) : st.retire [] = st := by
  simp [retire]

/-- The operations up to the first failed one. -/
def succeeded (st : Machine) (bs : List Nat) : List Nat :=
  bs.takeWhile fun o => (st.qp.ops o).status = .success

/-- **The loop of `DequeueBurst`.**  On the oldest pending operations it never
meets an unexpected one. -/
theorem processBurst_spec (debug : Bool) :
    ∀ (bs rest : List Nat) (st : Machine), st.qp.pendingOperations = bs ++ rest →
      processBurst debug bs st =
        (st.retire (st.succeeded bs), if st.succeeded bs = bs then .ok else .ioError)
  | [], rest, st, _ => by simp [processBurst, succeeded, retire]
  | op :: bs, rest, st, h => by
      unfold processBurst
      by_cases hs : (st.qp.ops op).status = .success
      · have hrec : st.qp.recycleResources debug op =
            ({ st.qp with
                pendingOperations := bs ++ rest
                mbufPool := st.qp.mbufPool ∪ (st.qp.ops op).mbufs.toFinset
                operationPool := insert op st.qp.operationPool }, .ok) := by
          unfold QueuePairMemory.recycleResources
          rw [h, if_neg (by simp)]
          rfl
        rw [if_neg (not_not.mpr hs)]
        simp only [hrec]
        rw [processBurst_spec debug bs rest _ rfl]
        have hsucc : st.succeeded (op :: bs) = op :: st.succeeded bs := by
          simp [succeeded, hs]
        rw [hsucc, Prod.mk.injEq]
        refine ⟨?_, ?_⟩
        · unfold retire succeeded
          simp only [List.foldl_cons, List.length_cons, h, List.cons_append, List.drop_succ_cons,
            List.flatMap_cons, List.toFinset_append, List.toFinset_cons, Finset.union_assoc,
            Finset.insert_union, Finset.union_insert]
        · simp only [List.cons.injEq, true_and]
          rfl
      · rw [if_pos hs]
        simp [succeeded, retire, hs]

/-- The machine after the device has handed back a burst and the error count has
been looked at. -/
def afterHandBack (st : Machine) (env : Env) : Machine :=
  { st.handBack env with
    numMaybeNotOk := (getErrorCount st.numMaybeNotOk (st.numDequeued env) env.stats).2 }

theorem retire_afterHandBack (hnd : st.queue.Nodup) (bs : List Nat) :
    (st.afterHandBack env).retire bs =
      { st with
        memory := st.writtenMemory (st.finished env)
        queue := st.queue.drop (st.numDequeued env)
        numMaybeNotOk := (getErrorCount st.numMaybeNotOk (st.numDequeued env) env.stats).2
        call := bs.foldl (fun call o => call.dequeueCallback ((st.handBack env).qp.ops o)) st.call
        qp := { st.qp with
          pendingOperations := st.qp.pendingOperations.drop bs.length
          mbufPool := st.qp.mbufPool ∪ (bs.flatMap fun o => (st.qp.ops o).mbufs).toFinset
          operationPool := st.qp.operationPool ∪ bs.toFinset
          operations := write st.qp.operations () st.cfg.burstSize.toNat
            (st.queue.take (st.numDequeued env))
          ops := (st.handBack env).qp.ops } } := by
  have hhb := handBack_spec hnd env
  have hmbufs : (fun o => ((st.handBack env).qp.ops o).mbufs) = fun o => (st.qp.ops o).mbufs :=
    funext hhb.mbufs
  unfold retire afterHandBack
  dsimp only
  rw [hmbufs]
  conv_lhs => rw [hhb.state_eq]

/-- `DequeueBurst` on a queue pair that follows the order of its pending
operations. -/
theorem dequeueBurst_eq {rest : List Nat} (hpend : st.qp.pendingOperations = st.queue ++ rest)
    (hnd : st.queue.Nodup) (debug : Bool) (env : Env) :
    dequeueBurst debug st env =
      if 0 < (getErrorCount st.numMaybeNotOk (st.numDequeued env) env.stats).1 then
        (st.afterHandBack env, .ioError)
      else
        ((st.afterHandBack env).retire
            ((st.afterHandBack env).succeeded (st.queue.take (st.numDequeued env))),
          if (st.afterHandBack env).succeeded (st.queue.take (st.numDequeued env)) =
              st.queue.take (st.numDequeued env) then .ok else .ioError) := by
  have hhb := handBack_spec hnd env
  have hlen : (st.queue.take (st.numDequeued env)).length = st.numDequeued env := by
    rw [List.length_take]
    unfold numDequeued
    omega
  have hread : read (st.handBack env).qp.operations () (st.handBack env).cfg.burstSize.toNat
      (st.numDequeued env) = st.queue.take (st.numDequeued env) := by
    rw [hhb.state_eq]
    have := read_write_self st.qp.operations () st.cfg.burstSize.toNat
      (st.queue.take (st.numDequeued env))
    rwa [hlen] at this
  have hpend' : (st.afterHandBack env).qp.pendingOperations =
      st.queue.take (st.numDequeued env) ++ (st.queue.drop (st.numDequeued env) ++ rest) := by
    unfold afterHandBack
    rw [hhb.state_eq, ← List.append_assoc, List.take_append_drop]
    exact hpend
  unfold dequeueBurst
  dsimp only
  by_cases herr : 0 < (getErrorCount st.numMaybeNotOk (st.numDequeued env) env.stats).1
  · rw [if_pos herr, if_pos herr]
    rfl
  · rw [if_neg herr, if_neg herr, hread]
    exact processBurst_spec debug _ _ _ hpend'

/-! ## All steps -/

/-- Nothing fails in this step: the allocations succeed, no error count is
reported, and the operations handed back have succeeded. -/
def NoFault (st : Machine) (env : Env) : Prop :=
  match st.pc with
  | .assemble => (st.assembleFrom env).2.isOk = true
  | .enqueue n =>
      (getErrorCount st.numMaybeNotOk (min env.numAccepted (toUInt16 n)) env.stats).1 = 0
  | .dequeue | .drain =>
      (getErrorCount st.numMaybeNotOk (st.numDequeued env) env.stats).1 = 0 ∧
        ∀ p ∈ st.finished env, p.2.status = .success
  | .returned _ => True

instance (st : Machine) (env : Env) : Decidable (st.NoFault env) := by
  unfold NoFault
  split <;> infer_instance

/-- A state of a call in progress: the pending operations are those in the
device, oldest first, followed by those that wait to be enqueued. -/
structure Ordered (st : Machine) : Prop where
  pending : st.qp.pendingOperations = st.queue ++ st.qp.assembled
  nodup : st.qp.pendingOperations.Nodup
  notFree : ∀ o ∈ st.qp.pendingOperations, o ∉ st.qp.operationPool
  assembled_le : st.qp.numOpsAssembled ≤ st.cfg.burstSize.toNat
  enqueue : ∀ n, st.pc = .enqueue n → n = st.qp.numOpsAssembled ∧ 0 < n
  dequeue : st.pc = .dequeue → st.qp.pendingOperations ≠ []
  drain : st.pc = .drain → st.qp.numOpsAssembled = 0 ∧ st.qp.pendingOperations ≠ []
  returned : ∀ status, st.pc = .returned status → st.qp.pendingOperations = []

/-- The steps in which nothing fails. -/
inductive Continues (st : Machine) (env : Env) : Machine → Prop
  | built {st' : Machine} {n : Nat} {os ms : List Nat} {ops : Nat → CompOp} {S T : List Segment}
      (hpc : st.pc = .assemble) (built : Built st st' n os ms ops S T) (hT : T.length = n) :
      Continues st env { st' with
        pc := .enqueue (st.qp.numOpsAssembled + Pieces.count st.cfg.maxSglSegs.toNat n) }
  | full (hpc : st.pc = .assemble) (hpos : 0 < st.qp.numOpsAssembled) :
      Continues st env { st with pc := .enqueue st.qp.numOpsAssembled }
  | exhausted (hpc : st.pc = .assemble) (hrem : st.remaining = [])
      (hnone : st.qp.numOpsAssembled = 0) : Continues st env st.drainOrFinish
  | enqueued {operations : Store Unit Nat} (hpc : st.pc = .enqueue st.qp.numOpsAssembled)
      (hread : read operations () 0
        (st.qp.numOpsAssembled - min env.numAccepted st.qp.numOpsAssembled) =
          st.qp.assembled.drop env.numAccepted) :
      Continues st env
        { st with
          queue := st.queue ++ st.qp.assembled.take env.numAccepted
          numMaybeNotOk := (getErrorCount st.numMaybeNotOk
            (min env.numAccepted st.qp.numOpsAssembled) env.stats).2
          qp := { st.qp with
            operations := operations
            numOpsAssembled :=
              st.qp.numOpsAssembled - min env.numAccepted st.qp.numOpsAssembled }
          pc := .dequeue }
  | dequeued (hpc : st.pc = .dequeue) (hsucc : ∀ p ∈ st.finished env, p.2.status = .success) :
      Continues st env
        { (st.afterHandBack env).retire (st.queue.take (st.numDequeued env)) with pc := .assemble }
  | drained (hpc : st.pc = .drain) (hsucc : ∀ p ∈ st.finished env, p.2.status = .success) :
      Continues st env
        ((st.afterHandBack env).retire (st.queue.take (st.numDequeued env))).drainOrFinish
  | returned {status : Status} (hpc : st.pc = .returned status) : Continues st env st

/-- The steps that fail: the state in which the call takes its error exit. -/
inductive Breaks (st : Machine) (env : Env) : Machine → StatusCode → Prop
  | noOps (hpc : st.pc = .assemble) (hrem : st.remaining ≠ [])
      (hops : ∀ o os, st.opsTaken env ≠ some (o :: os)) : Breaks st env st .outOfMemory
  | noMbufs {os : List Nat} (hpc : st.pc = .assemble) (hne : os ≠ [])
      (hos : st.opsTaken env = some os) (hms : st.mbufsTaken env = none) :
      Breaks st env { st with qp := st.qp.handOutOps os } .outOfMemory
  | short {st' : Machine} {n : Nat} {os ms : List Nat} {ops : Nat → CompOp} {S T : List Segment}
      (hpc : st.pc = .assemble) (built : Built st st' n os ms ops S T) (hT : T.length < n)
      (hne : os ≠ []) (hos : st.opsTaken env = some os) (hzones : ¬ st.Supplied env) :
      Breaks st env st' .ioError
  | enqueue (hpc : st.pc = .enqueue st.qp.numOpsAssembled) (counter : Nat) :
      Breaks st env { st with numMaybeNotOk := counter } .ioError
  | stats (hpc : st.pc = .dequeue ∨ st.pc = .drain) (hnone : st.numDequeued env = 0) :
      Breaks st env (st.afterHandBack env) .ioError
  | failed (hpc : st.pc = .dequeue ∨ st.pc = .drain)
      (hfail : (st.afterHandBack env).succeeded (st.queue.take (st.numDequeued env)) ≠
        st.queue.take (st.numDequeued env)) :
      Breaks st env ((st.afterHandBack env).retire
        ((st.afterHandBack env).succeeded (st.queue.take (st.numDequeued env)))) .ioError

theorem Breaks.code_ne_ok {mid : Machine} {code : StatusCode} (h : Breaks st env mid code) :
    code ≠ .ok := by
  cases h <;> decide

/-- All operations handed back have succeeded if and only if their results
say so. -/
theorem succeeded_eq_iff (hnd : st.queue.Nodup) :
    (st.afterHandBack env).succeeded (st.queue.take (st.numDequeued env)) =
        st.queue.take (st.numDequeued env) ↔
      ∀ p ∈ st.finished env, p.2.status = .success := by
  have hhb := handBack_spec hnd env
  unfold succeeded
  rw [List.takeWhile_eq_self_iff, ← map_fst_finished]
  simp only [List.mem_map, forall_exists_index, and_imp, forall_apply_eq_imp_iff₂,
    decide_eq_true_eq]
  refine forall₂_congr fun p hp => ?_
  rw [show (st.afterHandBack env).qp.ops p.1 = p.2.finish (st.qp.ops p.1) from
    hhb.ops_finished p hp]
  rfl

theorem step_assemble (hb : st.cfg.Bounds) (hpc : st.pc = .assemble) (debug : Bool) :
    (st.NoFault env ∧ Continues st env (step debug st env)) ∨
    (¬ st.NoFault env ∧ ∃ mid code message,
      Breaks st env mid code ∧ step debug st env = mid.fail code message) := by
  have hstep : step debug st env = st.assembleStep env := by simp [step, hpc]
  have hnf : st.NoFault env ↔ (st.assembleFrom env).2.isOk = true := by
    unfold NoFault
    rw [hpc]
  have hout := assembleFrom_spec hb env
  rw [hstep, hnf]
  unfold assembleStep
  cases hr : st.assembleFrom env with
  | mk st' res =>
  rw [hr] at hout
  dsimp only at hout ⊢
  cases hout with
  | nothing hstop =>
      refine Or.inl ⟨rfl, ?_⟩
      dsimp only
      split_ifs with hpos
      · exact .full hpc hpos
      · have hburst := hb.burstSize_pos
        refine .exhausted hpc ?_ (by omega)
        rcases hstop with hrem | hfull
        · exact hrem
        · omega
  | noOps hrem hops =>
      exact Or.inr ⟨by simp [Except.isOk, Except.toBool], _, _, _, .noOps hpc hrem hops, rfl⟩
  | noMbufs hne hos hms =>
      exact Or.inr ⟨by simp [Except.isOk, Except.toBool], _, _, _, .noMbufs hpc hne hos hms, rfl⟩
  | short built hT hne hos hzones =>
      exact Or.inr ⟨by simp [Except.isOk, Except.toBool], _, _, _,
        .short hpc built hT hne hos hzones, rfl⟩
  | complete built hT hms hzones =>
      refine Or.inl ⟨rfl, ?_⟩
      have := Pieces.count_pos hb.maxSglSegs_pos built.n_pos
      dsimp only
      rw [if_pos (by omega)]
      exact .built hpc built hT

theorem step_enqueue (h : st.Ordered) {n : Nat} (hpc : st.pc = .enqueue n) (debug : Bool) :
    (st.NoFault env ∧ Continues st env (step debug st env)) ∨
    (¬ st.NoFault env ∧ ∃ mid code message,
      Breaks st env mid code ∧ step debug st env = mid.fail code message) := by
  obtain ⟨rfl, -⟩ := h.enqueue n hpc
  have hlt : st.qp.numOpsAssembled < 65536 := h.assembled_le.trans_lt st.cfg.burstSize.toNat_lt
  have hstep : step debug st env = st.enqueueStep env st.qp.numOpsAssembled := by simp [step, hpc]
  have hnf : st.NoFault env ↔ (getErrorCount st.numMaybeNotOk
      (min env.numAccepted st.qp.numOpsAssembled) env.stats).1 = 0 := by
    unfold NoFault
    rw [hpc]
    dsimp only
    rw [toUInt16_of_lt hlt]
  rw [hstep, hnf]
  unfold enqueueStep
  rw [toUInt16_of_lt hlt]
  by_cases herr : (getErrorCount st.numMaybeNotOk
      (min env.numAccepted st.qp.numOpsAssembled) env.stats).1 = 0
  · obtain ⟨operations, h1, h2⟩ := enqueueBurst_ok hlt herr
    rw [h1]
    exact Or.inl ⟨herr, .enqueued hpc h2⟩
  · rw [enqueueBurst_error (Nat.pos_of_ne_zero herr)]
    exact Or.inr ⟨herr, _, _, _, .enqueue hpc _, rfl⟩

/-- The two steps at `DequeueBurst` differ in what comes next. -/
theorem step_dequeue (h : st.Ordered) (hpc : st.pc = .dequeue ∨ st.pc = .drain) (debug : Bool) :
    (st.NoFault env ∧ Continues st env (step debug st env)) ∨
    (¬ st.NoFault env ∧ ∃ mid code message,
      Breaks st env mid code ∧ step debug st env = mid.fail code message) := by
  have hnd : st.queue.Nodup := by
    have := h.nodup
    rw [h.pending] at this
    exact this.sublist (List.sublist_append_left ..)
  have hnf : st.NoFault env ↔
      (getErrorCount st.numMaybeNotOk (st.numDequeued env) env.stats).1 = 0 ∧
        (st.afterHandBack env).succeeded (st.queue.take (st.numDequeued env)) =
          st.queue.take (st.numDequeued env) := by
    rw [succeeded_eq_iff hnd]
    unfold NoFault
    rcases hpc with hpc | hpc <;> rw [hpc]
  have hdeq := dequeueBurst_eq h.pending hnd debug env
  rw [hnf]
  by_cases herr : (getErrorCount st.numMaybeNotOk (st.numDequeued env) env.stats).1 = 0
  · rw [if_neg (by omega)] at hdeq
    by_cases hsucc : (st.afterHandBack env).succeeded (st.queue.take (st.numDequeued env)) =
        st.queue.take (st.numDequeued env)
    · rw [if_pos hsucc, hsucc] at hdeq
      refine Or.inl ⟨⟨herr, hsucc⟩, ?_⟩
      rw [succeeded_eq_iff hnd] at hsucc
      rcases hpc with hpc | hpc
      · simp only [step, hpc, dequeueStep, hdeq]
        exact .dequeued hpc hsucc
      · simp only [step, hpc, drainStep, hdeq]
        exact .drained hpc hsucc
    · rw [if_neg hsucc] at hdeq
      refine Or.inr ⟨fun hc => hsucc hc.2, ?_⟩
      rcases id hpc with hpc' | hpc' <;> simp only [step, hpc', dequeueStep, drainStep, hdeq] <;>
        exact ⟨_, _, _, .failed hpc hsucc, rfl⟩
  · rw [if_pos (Nat.pos_of_ne_zero herr)] at hdeq
    have hnone := getErrorCount_pos (Nat.pos_of_ne_zero herr)
    refine Or.inr ⟨fun hc => herr hc.1, ?_⟩
    rcases id hpc with hpc' | hpc' <;> simp only [step, hpc', dequeueStep, drainStep, hdeq] <;>
      exact ⟨_, _, _, .stats hpc hnone, rfl⟩

/-- **Every step** either goes on, or takes the error exit of the call. -/
theorem step_cases (hb : st.cfg.Bounds) (h : st.Ordered) (debug : Bool) (env : Env) :
    (st.NoFault env ∧ Continues st env (step debug st env)) ∨
    (¬ st.NoFault env ∧ ∃ mid code message,
      Breaks st env mid code ∧ step debug st env = mid.fail code message) := by
  cases hpc : st.pc with
  | assemble => exact step_assemble hb hpc debug
  | enqueue n => exact step_enqueue h hpc debug
  | dequeue => exact step_dequeue h (Or.inl hpc) debug
  | drain => exact step_dequeue h (Or.inr hpc) debug
  | returned status =>
      refine Or.inl ⟨by simp [NoFault, hpc], ?_⟩
      rw [step_returned hpc]
      exact .returned hpc

/-- The debug check of `RecycleResources` makes no difference. -/
theorem step_debug (h : st.Ordered) (debug debug' : Bool) (env : Env) :
    step debug st env = step debug' st env := by
  have hnd : st.queue.Nodup := by
    have := h.nodup
    rw [h.pending] at this
    exact this.sublist (List.sublist_append_left ..)
  have hdeq : dequeueBurst debug st env = dequeueBurst debug' st env := by
    rw [dequeueBurst_eq h.pending hnd, dequeueBurst_eq h.pending hnd]
  unfold step dequeueStep drainStep
  rw [hdeq]

end Machine

end Bitar
