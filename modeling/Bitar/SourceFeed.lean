import Bitar.Conservation

/-!
# What the device is fed

An enqueue step passes the oldest assembled operations to the device.  What has
been fed, what is assembled and what is left to be assembled make up the source
spans that the call has begun with.  For `Decompress` these have the sizes of
the buffers, narrowed to the 16 bits of an mbuf length.

**Results.**
* `unfed_continues`: the conservation law.
* `decompress_feeds_iff`: when the source chains cover the buffers.
-/

namespace Bitar

open BlockStore Pieces

/-- All bytes of a buffer. -/
def Buffer.span (buffer : Buffer) : Span Block :=
  ⟨buffer.data.block, buffer.data.offset, buffer.size⟩

namespace Machine

variable {st st' : Machine} {env : Env}

/-- The source spans of the operations that the device accepts in a step. -/
def enqueued (st : Machine) (env : Env) : List (List (Span Block)) :=
  match st.pc with
  | .enqueue _ =>
      (st.qp.assembled.take env.numAccepted).map fun o => (st.qp.ops o).sourceSpans
  | _ => []

/-- The source spans of the operations that are enqueued in a run, in order. -/
def fed (debug : Bool) (st : Machine) (envs : List Env) : List (List (Span Block)) :=
  Runs.collect (step debug) enqueued st envs

/-- What the device has not been fed yet. -/
def unfed (st : Machine) : List (List (Span Block)) :=
  st.qp.assembled.map (fun o => (st.qp.ops o).sourceSpans) ++
    pieces st.cfg.maxSglSegs.toNat st.remaining

theorem unfed_drainOrFinish (st : Machine) : st.drainOrFinish.unfed = st.unfed := by
  rw [unfed, drainOrFinish_qp, drainOrFinish_cfg, remaining_drainOrFinish]
  rfl

section Built

variable {n : Nat} {os ms : List Nat} {ops : Nat → CompOp} {S T : List Segment}

theorem Built.unfed (h : Built st st' n os ms ops S T) (hst : st.Ordered) (hb : st.cfg.Bounds)
    (hT : T.length = n) : st'.unfed = st.unfed := by
  have hops : st'.qp.ops = ops := by rw [h.state_eq]
  have hkept : st.qp.assembled.map (fun o => (ops o).sourceSpans) =
      st.qp.assembled.map fun o => (st.qp.ops o).sourceSpans := by
    refine List.map_congr_left fun o ho => ?_
    have hpending : o ∈ st.qp.pendingOperations := by
      rw [hst.pending]
      exact List.mem_append_right _ ho
    rw [h.ops_other o (h.fresh hst o hpending)]
  have hnew : os.map (fun o => (ops o).sourceSpans) = (os.map ops).map CompOp.sourceSpans := by
    rw [List.map_map]
    rfl
  rw [Machine.unfed, Machine.unfed, h.assembled hT, hops, h.cfg_eq, List.map_append, hkept, hnew,
    h.sourceSpans hT, List.append_assoc, ← h.pieces_remaining hb]

end Built

theorem unfed_retire (h : st.Ordered) (env : Env) :
    ((st.afterHandBack env).retire (st.queue.take (st.numDequeued env))).unfed = st.unfed := by
  have hnd := (h.queue_prefix env).1
  have hhb := handBack_spec hnd env
  have hrem := remaining_retire h env (st.queue.take (st.numDequeued env))
  have hle := h.assembled_le
  rw [unfed, hrem, retire_afterHandBack hnd, unfed]
  congr 1
  rw [QueuePairMemory.assembled, QueuePairMemory.assembled]
  dsimp only
  rw [read_write_of_disjoint _ (Or.inr (Or.inl (by omega)))]
  refine List.map_congr_left fun o _ => ?_
  rw [CompOp.sourceSpans, CompOp.sourceSpans, (hhb.chains o).1]

/-- **Conservation law.** -/
theorem unfed_continues (h : st.Ordered) (hb : st.cfg.Bounds) (hstep : Continues st env st') :
    st.unfed = st.enqueued env ++ st'.unfed := by
  cases hstep with
  | built hpc built hT =>
      have hnone : st.enqueued env = [] := by simp [enqueued, hpc]
      rw [hnone, List.nil_append]
      exact (built.unfed h hb hT).symm
  | full hpc hpos =>
      have hnone : st.enqueued env = [] := by simp [enqueued, hpc]
      rw [hnone]
      rfl
  | exhausted hpc hrem hnone =>
      have hnone : st.enqueued env = [] := by simp [enqueued, hpc]
      rw [hnone, unfed_drainOrFinish]
      rfl
  | @enqueued operations hpc hread =>
      have hsome : st.enqueued env =
          (st.qp.assembled.take env.numAccepted).map fun o => (st.qp.ops o).sourceSpans := by
        simp [Machine.enqueued, hpc]
      rw [hsome, unfed, unfed, ← List.append_assoc, ← List.map_append]
      show _ = ((st.qp.assembled.take env.numAccepted ++ read operations () 0 _).map _) ++ _
      rw [hread, List.take_append_drop]
      rfl
  | dequeued hpc hsucc =>
      have hnone : st.enqueued env = [] := by simp [enqueued, hpc]
      rw [hnone, ← unfed_retire h env]
      rfl
  | drained hpc hsucc =>
      have hnone : st.enqueued env = [] := by simp [enqueued, hpc]
      rw [hnone, unfed_drainOrFinish, unfed_retire h env]
      rfl
  | returned hpc =>
      have hnone : st.enqueued env = [] := by simp [enqueued, hpc]
      rw [hnone]
      rfl

/-- A call that has returned with nothing left to assemble has fed everything. -/
theorem unfed_eq_nil (h : st.Ordered) (hb : st.cfg.Bounds) (he : st.Exhausted) {status : Status}
    (hpc : st.pc = .returned status) : st.unfed = [] := by
  have hidle := h.idle hpc
  rw [unfed, (he (Or.inr ⟨status, hpc⟩)).1, pieces_nil hb.maxSglSegs_pos,
    QueuePairMemory.assembled, hidle.numOpsAssembled]
  rfl

section Calls

variable {debug : Bool} {envs : List Env}

/-- A call in which nothing fails feeds all its source spans to the device. -/
theorem fed_of_returned (hb : st.cfg.Bounds) (hidle : st.Idle) (request : Request)
    (hstart : (st.start request).pc = .assemble)
    (h : Runs.Along (step debug) NoFault (st.start request) envs) {status : Status}
    (hpc : (Runs.run (step debug) (st.start request) envs).pc = .returned status) :
    (st.start request).fed debug envs =
      pieces st.cfg.maxSglSegs.toNat (st.start request).remaining := by
  have hinit : (st.start request).unfed =
      pieces st.cfg.maxSglSegs.toNat (st.start request).remaining := by
    rw [unfed, start_qp, start_cfg, QueuePairMemory.assembled, hidle.numOpsAssembled]
    rfl
  have hexhausted : (st.start request).Exhausted := by simp [Exhausted, hstart]
  obtain ⟨⟨hs, he⟩, hlog⟩ := Runs.Along.invariant_collect (f := enqueued)
    (I := fun log s => (InOrder st.cfg st.qp.operationPool st.qp.mbufPool s ∧ s.Exhausted) ∧
      log ++ s.unfed = (st.start request).unfed)
    (fun log s env hs hnf => by
      obtain ⟨⟨hs, he⟩, hlog⟩ := hs
      obtain ⟨hc, hs'⟩ := hs.step hb debug hnf
      refine ⟨⟨hs', he.continues hs.ordered hc⟩, ?_⟩
      rw [List.append_assoc, ← unfed_continues hs.ordered (hs.cfg_eq ▸ hb) hc]
      exact hlog) [] ⟨⟨hidle.start_inOrder request, hexhausted⟩, rfl⟩ h
  rw [unfed_eq_nil hs.ordered (hs.cfg_eq ▸ hb) he hpc, List.nil_append, List.append_nil,
    hinit] at hlog
  exact hlog

variable {buffers : List Buffer} {output : Option ResizableBuffer}

/-- A call of `Decompress` that returns OK has got past all guards. -/
theorem decompress_pc_of_success (hne : buffers ≠ [])
    (h : (Runs.run (step debug) (st.decompress buffers output) envs).result = some .success) :
    (st.decompress buffers output).pc = .assemble := by
  by_contra hpc
  obtain ⟨status, hstatus, hcode⟩ : ∃ status,
      (st.decompress buffers output).pc = .returned status ∧ status.code ≠ .ok := by
    cases output with
    | none => exact ⟨_, rfl, by simp [hne]⟩
    | some output =>
        simp only [decompress, hne, if_false] at hpc ⊢
        split_ifs at hpc ⊢ with h1 h2
        · exact ⟨_, rfl, by simp⟩
        · exact absurd rfl hpc
        · exact ⟨_, rfl, h2⟩
  rw [run_returned hstatus, result_eq_some, hstatus] at h
  exact hcode (congrArg Status.code (Pc.returned.inj h))

theorem decompress_remaining (h : (st.decompress buffers output).pc = .assemble) :
    (st.decompress buffers output).remaining = bufferSpans buffers 0 := by
  cases output with
  | none =>
      simp only [decompress] at h
      cases h
  | some output => rfl

/-- A buffer keeps all its bytes if and only if its size fits in 16 bits. -/
theorem bufferSpans_eq_iff (buffers : List Buffer) :
    bufferSpans buffers 0 = buffers.map Buffer.span ↔ ∀ buffer ∈ buffers, buffer.size < 65536 := by
  rw [bufferSpans, List.drop_zero, List.map_inj_left]
  refine forall₂_congr fun buffer _ => ?_
  rw [Buffer.span, Span.mk.injEq, and_iff_right rfl, and_iff_right rfl, toUInt16]
  omega

/-- **What `Decompress` feeds the device.**  In a call that returns OK the source
chains of the operations enqueued cover every buffer from its first to its last
byte, if and only if every buffer has fewer than 65536 bytes. -/
theorem decompress_feeds_iff (hcfg : Accepted st.cfg) (hidle : st.Idle) (hne : buffers ≠ [])
    (h : (Runs.run (step debug) (st.decompress buffers output) envs).result = some .success) :
    ((st.decompress buffers output).fed debug envs).flatten = buffers.map Buffer.span ↔
      ∀ buffer ∈ buffers, buffer.size < 65536 := by
  have hb := hcfg.bounds
  have hpc := decompress_pc_of_success hne h
  have hfed := fed_of_returned hb hidle (.decompress buffers output) hpc
    (hidle.noFault_of_success hb (.decompress buffers output) debug h) (result_eq_some.mp h)
  rw [← bufferSpans_eq_iff, ← decompress_remaining hpc,
    ← flatten_pieces hb.maxSglSegs_pos (st.decompress buffers output).remaining]
  exact Eq.congr_left (congrArg List.flatten hfed)

end Calls

/-- One buffer in one operation. -/
def sampleFeed : List Env :=
  [{ bulk := ⟨some [0], some [0, 1]⟩ }, { numAccepted := 1 }, { results := [⟨.success, [7]⟩] }, {}]

theorem decompress_feeds_sample :
    (((sampleMachine 1 3).decompress [⟨⟨.host 1, 0⟩, 3⟩]
      (some ⟨⟨.host 0, 0⟩, 16, 0⟩)).fed true sampleFeed).flatten = [⟨.host 1, 0, 3⟩] :=
  (decompress_feeds_iff sampleConfig_accepted.1 (sampleMachine_idle 1 3) (by decide)
    (by decide +kernel)).mpr (by decide)

/-- Of a buffer of 65536 bytes the device sees nothing, and the call returns OK. -/
theorem decompress_feeds_nothing :
    let start := (sampleMachine 1 3).decompress [⟨⟨.host 1, 0⟩, 65536⟩]
      (some ⟨⟨.host 0, 0⟩, 16, 0⟩)
    Accepted (sampleMachine 1 3).cfg ∧ (sampleMachine 1 3).Idle ∧
      (Runs.run (step true) start sampleFeed).result = some .success ∧
      (start.fed true sampleFeed).flatten = [⟨.host 1, 0, 0⟩] :=
  ⟨sampleConfig_accepted.1, sampleMachine_idle 1 3, by decide +kernel⟩

end Machine

end Bitar
