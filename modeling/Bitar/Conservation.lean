import Bitar.Bookkeeping

/-!
# Work is neither lost nor repeated

The source spans of the pending operations, followed by the spans that are not
assembled yet, cut as a burst would cut them, are what the call still has to
get back from the device: `todo`.  A step in which nothing fails leaves this
list alone, except that a dequeue takes away as many entries from its front as
operations are handed back.

**Results.**
* `Built.pendingOps`, `pendingOps_retire`: the pending operations as a queue.
* `todo_continues`: the conservation law.
-/

namespace Bitar

open BlockStore Pieces

/-- The memory that an operation reads. -/
def CompOp.sourceSpans (op : CompOp) : List (Span Block) :=
  op.mSrc.segs.map Segment.span

/-- An operation as `AssembleFrom` leaves it: with as many destination segments
as source segments. -/
def CompOp.Whole (xform : Xform) (op : CompOp) : Prop :=
  ∃ S T : List Segment, op = builtOp xform S T ∧ S.length = T.length

theorem CompOp.Whole.source_eq {xform : Xform} {op : CompOp} (h : op.Whole xform)
    (memory : Memory) : op.source memory = gather memory op.sourceSpans := by
  obtain ⟨S, T, rfl, -⟩ := h
  exact source_builtOp xform S T memory

/-- The callback of `Compress` on a whole burst. -/
theorem foldl_dequeueCallback_emitted (f : Nat → CompOp) :
    ∀ (bs : List Nat) (input : Buffer) (offset : Nat) (out : List Buffer),
      bs.foldl (fun (call : Call) o => call.dequeueCallback (f o)) (.compress input offset out) =
        Call.compress input offset
          (out ++ bs.flatMap fun o => emitBuffers (f o).mDst.segs (f o).produced)
  | [], input, offset, out => by simp
  | o :: bs, input, offset, out => by
      rw [List.foldl_cons, Call.dequeueCallback, foldl_dequeueCallback_emitted f bs]
      simp [List.append_assoc]

/-- The callback of `Decompress` on a whole burst. -/
theorem foldl_dequeueCallback_size (f : Nat → CompOp) :
    ∀ (bs : List Nat) (buffers : List Buffer) (output : ResizableBuffer)
      (index offset size : Nat),
      bs.foldl (fun (call : Call) o => call.dequeueCallback (f o))
          (.decompress buffers output index offset size) =
        Call.decompress buffers output index offset (size + (bs.map fun o => (f o).produced).sum)
  | [], buffers, output, index, offset, size => by simp
  | o :: bs, buffers, output, index, offset, size => by
      rw [List.foldl_cons, Call.dequeueCallback, foldl_dequeueCallback_size f bs]
      simp [Nat.add_assoc]

@[simp] theorem dequeueCallback_remaining (call : Call) (cfg : Configuration) (op : CompOp) :
    (call.dequeueCallback op).remaining cfg = call.remaining cfg := by
  cases call <;> rfl

theorem foldl_dequeueCallback_remaining (cfg : Configuration) (f : Nat → CompOp) :
    ∀ (bs : List Nat) (call : Call),
      (bs.foldl (fun call o => call.dequeueCallback (f o)) call).remaining cfg =
        call.remaining cfg
  | [], _ => rfl
  | o :: bs, call => by
      rw [List.foldl_cons, foldl_dequeueCallback_remaining cfg f bs, dequeueCallback_remaining]

namespace Machine

variable {st st' : Machine} {env : Env}

/-- The pending operations, oldest first. -/
def pendingOps (st : Machine) : List CompOp :=
  st.qp.pendingOperations.map st.qp.ops

/-- What the call still has to get back from the device. -/
def todo (st : Machine) : List (List (Span Block)) :=
  st.pendingOps.map CompOp.sourceSpans ++ pieces st.cfg.maxSglSegs.toNat st.remaining

/-- How many operations leave the device in a step. -/
def numRetired (st : Machine) (env : Env) : Nat :=
  match st.pc with
  | .dequeue | .drain => st.numDequeued env
  | _ => 0

@[simp] theorem pendingOps_drainOrFinish (st : Machine) :
    st.drainOrFinish.pendingOps = st.pendingOps := by
  simp [pendingOps]

@[simp] theorem remaining_finish (st : Machine) : st.finish.remaining = st.remaining := by
  unfold finish remaining
  split
  · rfl
  · next heq => rw [heq]; rfl

@[simp] theorem remaining_drainOrFinish (st : Machine) :
    st.drainOrFinish.remaining = st.remaining := by
  rcases st.drainOrFinish_cases with ⟨-, h⟩ | ⟨-, h⟩ <;> rw [h]
  · rfl
  · exact remaining_finish st

section Built

variable {n : Nat} {os ms : List Nat} {ops : Nat → CompOp} {S T : List Segment}

/-- The operations of a complete burst. -/
theorem Built.map_ops (h : Built st st' n os ms ops S T) (hT : T.length = n) :
    os.map ops = List.zipWith (builtOp st.call.xform) (pieces st.cfg.maxSglSegs.toNat S)
      (pieces st.cfg.maxSglSegs.toNat T) := by
  have hS := h.length_sources
  apply List.ext_getElem
  · simp [h.ops_handable.length_eq, hS, hT]
  · intro j h1 h2
    have hj : j < os.length := by simpa using h1
    rw [List.getElem_map, h.ops_eq j hj, List.getElem_zipWith, getElem_pieces, getElem_pieces, opAt,
      closedOps, if_pos hT, if_pos (h.ops_handable.length_eq ▸ hj)]

theorem Built.pendingOps_append (h : Built st st' n os ms ops S T) (hst : st.Ordered) :
    st'.pendingOps = st.pendingOps ++ os.map ops := by
  rw [h.state_eq, Machine.pendingOps, List.map_append]
  congr 1
  apply List.map_congr_left
  intro o ho
  exact h.ops_other o (h.fresh hst o ho)

/-- The source spans of the operations of a complete burst. -/
theorem Built.sourceSpans (h : Built st st' n os ms ops S T) (hT : T.length = n) :
    (os.map ops).map CompOp.sourceSpans =
      pieces st.cfg.maxSglSegs.toNat (st.remaining.take n) := by
  rw [h.map_ops hT, List.map_zipWith, ← h.sources, pieces_map]
  apply List.ext_getElem
  · simp [h.length_sources, hT]
  · intro j h1 h2
    simp [CompOp.sourceSpans, builtOp, opWith]

theorem Built.pendingOps (h : Built st st' n os ms ops S T) (hst : st.Ordered)
    (hT : T.length = n) :
    st'.pendingOps = st.pendingOps ++ List.zipWith (builtOp st.call.xform)
      (pieces st.cfg.maxSglSegs.toNat S) (pieces st.cfg.maxSglSegs.toNat T) := by
  rw [h.pendingOps_append hst, h.map_ops hT]

/-- A burst takes whole operations off what remains. -/
theorem Built.pieces_remaining (h : Built st st' n os ms ops S T) (hb : st.cfg.Bounds) :
    pieces st.cfg.maxSglSegs.toNat st.remaining =
      pieces st.cfg.maxSglSegs.toNat (st.remaining.take n) ++
        pieces st.cfg.maxSglSegs.toNat st'.remaining := by
  rw [h.remaining_eq, ← pieces_append hb.maxSglSegs_pos, List.take_append_drop]
  have hn := h.n_eq
  rcases Nat.le_total st.remaining.length
    ((st.cfg.burstSize.toNat - st.qp.numOpsAssembled) * st.cfg.maxSglSegs.toNat) with hle | hle
  · right
    apply List.drop_eq_nil_of_le
    rw [hn, Nat.min_eq_left hle]
  · left
    rw [Nat.min_eq_right hle] at hn
    rw [List.length_take, Nat.min_eq_left (hn ▸ hle), hn]
    exact Nat.dvd_mul_left _ _

theorem Built.whole (h : Built st st' n os ms ops S T) (hT : T.length = n) :
    ∀ op ∈ List.zipWith (builtOp st.call.xform) (pieces st.cfg.maxSglSegs.toNat S)
      (pieces st.cfg.maxSglSegs.toNat T), op.Whole st.call.xform := by
  intro op hop
  obtain ⟨j, hj, rfl⟩ := List.getElem_of_mem hop
  rw [List.getElem_zipWith, getElem_pieces, getElem_pieces]
  exact ⟨_, _, rfl, by rw [length_piece, length_piece, h.length_sources, hT]⟩

end Built

theorem pendingOps_retire (h : st.Ordered) (env : Env) :
    ((st.afterHandBack env).retire (st.queue.take (st.numDequeued env))).pendingOps =
      st.pendingOps.drop (st.numDequeued env) := by
  obtain ⟨hnd, hdrop⟩ := h.queue_prefix env
  have hhb := handBack_spec hnd env
  have hnodup := h.nodup
  rw [h.pending, ← List.take_append_drop (st.numDequeued env) st.queue, List.append_assoc]
    at hnodup
  have hlen : (st.queue.take (st.numDequeued env)).length = st.numDequeued env := by
    rw [List.length_take]
    unfold numDequeued
    omega
  rw [retire_afterHandBack hnd, pendingOps, pendingOps, ← List.map_drop]
  dsimp only
  rw [hlen] at hdrop ⊢
  apply List.map_congr_left
  intro o ho
  rw [hdrop] at ho
  exact hhb.ops_other o fun hb => List.disjoint_of_nodup_append hnodup hb ho

/-- The callbacks of a burst on the machine. -/
theorem retire_call (h : st.Ordered) (env : Env) (bs : List Nat) :
    ((st.afterHandBack env).retire bs).call =
      bs.foldl (fun call o => call.dequeueCallback ((st.handBack env).qp.ops o)) st.call := by
  rw [retire_afterHandBack (h.queue_prefix env).1]

/-- The operations of the front of a burst. -/
theorem pendingOps_front (h : st.Ordered) {bs : List Nat}
    (hbs : bs <+: st.queue.take (st.numDequeued env)) :
    bs.map st.qp.ops = st.pendingOps.take bs.length := by
  rw [pendingOps, h.burst_split hbs, List.map_append, List.take_left' (List.length_map _)]

theorem pendingOps_burst (h : st.Ordered) (env : Env) :
    (st.queue.take (st.numDequeued env)).map st.qp.ops =
      st.pendingOps.take (st.numDequeued env) := by
  rw [pendingOps_front h List.prefix_rfl, List.length_take]
  unfold numDequeued
  congr 1
  omega

theorem finished_ops (h : st.Ordered) (env : Env) :
    (st.finished env).map (fun p => st.qp.ops p.1) = st.pendingOps.take (st.numDequeued env) := by
  rw [← pendingOps_burst h env, ← map_fst_finished, List.map_map]
  rfl

theorem finished_mem (h : st.Ordered) {p : Nat × OpResult} (hp : p ∈ st.finished env) :
    st.qp.ops p.1 ∈ st.pendingOps := by
  have := List.mem_map_of_mem (f := fun p : Nat × OpResult => st.qp.ops p.1) hp
  rw [finished_ops h env] at this
  exact List.mem_of_mem_take this

theorem remaining_retire (h : st.Ordered) (env : Env) (bs : List Nat) :
    ((st.afterHandBack env).retire bs).remaining = st.remaining := by
  rw [retire_afterHandBack (h.queue_prefix env).1]
  exact foldl_dequeueCallback_remaining st.cfg _ bs st.call

/-- The call stays a call of `Compress` on the same input. -/
theorem compress_continues {input : Buffer}
    (h : ∃ offset out, st.call = .compress input offset out) (hst : st.Ordered)
    (hstep : Continues st env st') :
    ∃ offset out, st'.call = .compress input offset out := by
  obtain ⟨offset, out, hcall⟩ := h
  have hretire := retire_call hst env (st.queue.take (st.numDequeued env))
  rw [hcall, foldl_dequeueCallback_emitted] at hretire
  have hfinish : ∀ (s : Machine) (offset : Nat) (out : List Buffer),
      s.call = .compress input offset out → s.drainOrFinish.call = .compress input offset out := by
    intro s offset out hs
    rcases s.drainOrFinish_cases with ⟨-, he⟩ | ⟨-, he⟩ <;> rw [he]
    · exact hs
    · unfold finish
      rw [hs]
  cases hstep with
  | built hpc built hT =>
      have hadvance := built.call_eq
      rw [hcall] at hadvance
      exact ⟨_, _, hadvance⟩
  | full hpc hpos => exact ⟨_, _, hcall⟩
  | exhausted hpc hrem hnone => exact ⟨_, _, hfinish _ _ _ hcall⟩
  | enqueued hpc hread => exact ⟨_, _, hcall⟩
  | dequeued hpc hsucc => exact ⟨_, _, hretire⟩
  | drained hpc hsucc => exact ⟨_, _, hfinish _ _ _ hretire⟩
  | returned hpc => exact ⟨_, _, hcall⟩

/-- **Conservation law.** -/
theorem todo_continues (h : st.Ordered) (hb : st.cfg.Bounds) (hstep : Continues st env st') :
    st'.todo = st.todo.drop (st.numRetired env) := by
  have hcfg := hstep.cfg_eq h
  have hdrop : st.numDequeued env ≤ (st.pendingOps.map CompOp.sourceSpans).length := by
    rw [List.length_map, pendingOps, List.length_map, h.pending, List.length_append]
    unfold numDequeued
    omega
  unfold todo numRetired
  rw [hcfg]
  cases hstep with
  | @built st₁ n os ms ops S T hpc built hT =>
      rw [hpc, List.drop_zero, built.pieces_remaining hb, ← List.append_assoc]
      congr 1
      show st₁.pendingOps.map CompOp.sourceSpans = _
      rw [built.pendingOps_append h, List.map_append, built.sourceSpans hT]
  | full hpc hpos =>
      rw [hpc]
      rfl
  | exhausted hpc hrem hnone => simp [hpc]
  | enqueued hpc hread =>
      rw [hpc]
      rfl
  | dequeued hpc hsucc =>
      rw [hpc]
      dsimp only
      rw [List.drop_append_of_le_length hdrop, ← List.map_drop, ← pendingOps_retire h env,
        ← remaining_retire h env]
      rfl
  | drained hpc hsucc =>
      rw [hpc]
      dsimp only
      rw [pendingOps_drainOrFinish, remaining_drainOrFinish, pendingOps_retire h env,
        remaining_retire h env, List.drop_append_of_le_length hdrop, List.map_drop]
  | returned hpc =>
      rw [hpc]
      rfl

theorem whole_continues {xform : Xform} (hx : st.call.xform = xform) (h : st.Ordered)
    (hw : ∀ op ∈ st.pendingOps, op.Whole xform) (hstep : Continues st env st') :
    ∀ op ∈ st'.pendingOps, op.Whole xform := by
  have hretire : ∀ op ∈ ((st.afterHandBack env).retire
      (st.queue.take (st.numDequeued env))).pendingOps, op.Whole xform := by
    rw [pendingOps_retire h env]
    exact fun op hop => hw op (List.mem_of_mem_drop hop)
  cases hstep with
  | @built st₁ n os ms ops S T hpc built hT =>
      show ∀ op ∈ st₁.pendingOps, op.Whole xform
      rw [built.pendingOps h hT]
      intro op hop
      rcases List.mem_append.mp hop with hop | hop
      · exact hw op hop
      · exact hx ▸ built.whole hT op hop
  | full hpc hpos => exact hw
  | exhausted hpc hrem hnone => rwa [pendingOps_drainOrFinish]
  | enqueued hpc hread => exact hw
  | dequeued hpc hsucc => exact hretire
  | drained hpc hsucc => rwa [pendingOps_drainOrFinish]
  | returned hpc => exact hw

/-- A call waits for its last operations only when everything is assembled. -/
def Exhausted (st : Machine) : Prop :=
  (st.pc = .drain ∨ ∃ status, st.pc = .returned status) →
    st.remaining = [] ∧ ∀ status, st.pc = .returned status → status = .success

theorem Exhausted.drainOrFinish (hrem : st.remaining = []) : st.drainOrFinish.Exhausted := by
  intro _
  refine ⟨by rw [remaining_drainOrFinish, hrem], ?_⟩
  intro status hpc
  rcases st.drainOrFinish_cases with ⟨-, h⟩ | ⟨-, h⟩ <;> rw [h] at hpc
  · simp at hpc
  · rw [finish_pc] at hpc
    exact (Pc.returned.inj hpc).symm

theorem Exhausted.continues (h : st.Exhausted) (hst : st.Ordered)
    (hstep : Continues st env st') : st'.Exhausted := by
  cases hstep with
  | built hpc built hT => simp [Exhausted]
  | full hpc hpos => simp [Exhausted]
  | exhausted hpc hrem hnone => exact .drainOrFinish hrem
  | enqueued hpc hread => simp [Exhausted]
  | dequeued hpc hsucc => simp [Exhausted]
  | drained hpc hsucc =>
      apply Exhausted.drainOrFinish
      rw [remaining_retire hst]
      exact (h (Or.inl hpc)).1
  | returned hpc => exact h

end Machine

end Bitar
