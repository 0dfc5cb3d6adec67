import Bitar.Conservation

/-!
# One assembling step

The loop over the source mbufs and the loop over the destination mbufs walk the
same operations, but the first stops short at the last segment, where the second
closes the last operation.  What `AssembleFrom` has built when both are done is
stated here in terms of the arrays and the cursors.

**Results.**
* `inputSpans_take`: the slices of a burst, in order, are the input between two
  offsets.
* `assembling_step`: both overloads of `AssembleFrom`, when they succeed.
-/

namespace Bitar

open BlockStore Pieces

/-- The call has input left to assemble. -/
def Call.WorkLeft : Call → Prop
  | .compress decompressedBuffer offset _ => offset < decompressedBuffer.size
  | .decompress compressedBuffers _ index _ _ => index < compressedBuffers.length

/-- The compressed buffers fit the length of an mbuf, and the destination has
passed the check of `Decompress`. -/
def Call.Checked (cfg : Configuration) : Call → Prop
  | .compress .. => True
  | .decompress compressedBuffers decompressedBuffer _ _ _ =>
      (∀ buffer ∈ compressedBuffers, buffer.size ≤ 65535) ∧
        compressedBuffers.length * cfg.decompressedSegSize.toNat ≤ decompressedBuffer.capacity

/-- The spans are, in order and without gap or overlap, the input between the
old and the new position of the call. -/
def Call.Covers (spans : List (Span Block)) : Call → Call → Prop
  | .compress input offset _, .compress input' offset' _ =>
      input' = input ∧ offset ≤ offset' ∧ offset' ≤ input.size ∧
        Contiguous input.data.block (input.data.offset + offset) spans ∧
        room spans = offset' - offset
  | .decompress buffers _ index _ _, .decompress buffers' _ index' _ _ =>
      buffers' = buffers ∧ index ≤ index' ∧ index' ≤ buffers.length ∧
        spans = ((buffers.take index').drop index).map fun buffer =>
          ⟨buffer.data.block, buffer.data.offset, buffer.size⟩
  | _, _ => False

section Spans

variable {s : Nat}

/-- The first `n` slices of the input from `offset` on. -/
theorem inputSpans_take (hs : 0 < s) (input : Buffer) :
    ∀ (n offset : Nat), offset ≤ input.size →
      Contiguous input.data.block (input.data.offset + offset)
          ((inputSpans s input offset).take n) ∧
        room ((inputSpans s input offset).take n) = min (offset + n * s) input.size - offset
  | 0, offset, h => by
      simp only [List.take_zero, room_nil, Nat.zero_mul, Nat.add_zero, Nat.min_eq_left h,
        Nat.sub_self]
      exact ⟨trivial, trivial⟩
  | n + 1, offset, h => by
      rcases Nat.eq_or_lt_of_le h with heq | hlt
      · have hnil : inputSpans s input offset = [] := (inputSpans_eq_nil hs).mpr (by omega)
        rw [hnil, List.take_nil, room_nil]
        exact ⟨trivial, by omega⟩
      · obtain ⟨ih1, ih2⟩ := inputSpans_take hs input n (offset + min s (input.size - offset))
          (by omega)
        rw [inputSpans_of_lt hs hlt, List.take_succ_cons, room_cons, ih2]
        refine ⟨⟨rfl, rfl, ?_⟩, ?_⟩
        · rw [Nat.add_assoc]
          exact ih1
        · rw [Nat.succ_mul]
          dsimp only
          omega

theorem bufferSpans_take {buffers : List Buffer} (hsize : ∀ buffer ∈ buffers, buffer.size ≤ 65535)
    (index n : Nat) :
    (bufferSpans buffers index).take n =
      ((buffers.take (index + n)).drop index).map fun buffer =>
        ⟨buffer.data.block, buffer.data.offset, buffer.size⟩ := by
  rw [bufferSpans, ← List.map_take, ← List.take_drop]
  apply List.map_congr_left
  intro buffer hbuffer
  have hmem := List.mem_of_mem_drop (List.mem_of_mem_take hbuffer)
  rw [toUInt16_of_lt (Nat.lt_succ_of_le (hsize buffer hmem))]

end Spans

namespace Machine

variable {st st' : Machine}

/-- What a successful `AssembleFrom` has done with the operations `os` and the
mbufs `ms`. -/
structure AssemblingStep (st st' : Machine) (os ms : List Nat) : Prop where
  /-- `BulkAllocate` took them out of their pools. -/
  ops_taken : os.Nodup ∧ (∀ o ∈ os, o ∈ st.qp.operationPool) ∧
    st'.qp.operationPool = st.qp.operationPool \ os.toFinset
  mbufs_taken : ms.Nodup ∧ (∀ m ∈ ms, m ∈ st.qp.mbufPool) ∧
    st'.qp.mbufPool = st.qp.mbufPool \ ms.toFinset
  ops_pos : 0 < os.length
  numOpsAssembled : st'.qp.numOpsAssembled = st.qp.numOpsAssembled + os.length
  within_burst : st.qp.numOpsAssembled + os.length ≤ st.cfg.burstSize.toNat
  untouched : read st'.qp.operations () 0 st.qp.numOpsAssembled = st.qp.assembled
  array : read st'.qp.operations () st.qp.numOpsAssembled os.length = os
  pending : st'.qp.pendingOperations = st.qp.pendingOperations ++ os
  covers : st.call.Covers (os.flatMap fun o => (st'.qp.ops o).sourceSpans) st'.call
  full : ∀ o ∈ os.dropLast, (st'.qp.ops o).mSrc.segs.length = st.cfg.maxSglSegs.toNat
  segs : ∀ o ∈ os, 0 < (st'.qp.ops o).mSrc.segs.length ∧
    (st'.qp.ops o).mSrc.segs.length ≤ st.cfg.maxSglSegs.toNat
  balanced : ∀ o ∈ os, (st'.qp.ops o).mDst.segs.length = (st'.qp.ops o).mSrc.segs.length
  chained : (os.flatMap fun o => (st'.qp.ops o).mbufs).Perm ms
  lengths : ∀ o ∈ os, (st'.qp.ops o).srcLength = room (st'.qp.ops o).sourceSpans ∧
    (st'.qp.ops o).mSrc.pktLen = room (st'.qp.ops o).sourceSpans

section Built

variable {n : Nat} {os ms : List Nat} {ops : Nat → CompOp} {S T : List Segment}

theorem Built.covers (h : Built st st' n os ms ops S T) (hb : st.cfg.Bounds)
    (hwork : st.call.WorkLeft) (hchecked : st.call.Checked st.cfg) :
    st.call.Covers (st.remaining.take n) st'.call := by
  have hn : n ≤ st.remaining.length := h.n_eq ▸ Nat.min_le_left _ _
  rw [h.call_eq, remaining]
  rw [remaining] at hn
  cases hcall : st.call with
  | compress input offset out =>
      rw [hcall] at hwork
      obtain ⟨hcontiguous, hroom⟩ :=
        inputSpans_take hb.segSize_pos input n offset (Nat.le_of_lt hwork)
      have hlt : offset < input.size := hwork
      exact ⟨rfl, by omega, Nat.min_le_right _ _, hcontiguous, hroom⟩
  | decompress buffers output index offset size =>
      rw [hcall] at hwork hchecked hn
      rw [Call.remaining, length_bufferSpans] at hn
      have hlt : index < buffers.length := hwork
      exact ⟨rfl, Nat.le_add_right _ _, by omega, bufferSpans_take hchecked.1 index n⟩

/-- The source and the destination chains of a complete burst, in order. -/
theorem Built.getElem_ops (h : Built st st' n os ms ops S T) (hT : T.length = n) {j : Nat}
    (hj : j < os.length) :
    ops os[j] = builtOp st.call.xform (piece st.cfg.maxSglSegs.toNat j S)
      (piece st.cfg.maxSglSegs.toNat j T) := by
  rw [h.ops_eq j hj, opAt, closedOps, if_pos hT, if_pos (h.ops_handable.length_eq ▸ hj)]

theorem Built.assemblingStep (h : Built st st' n os ms ops S T) (hT : T.length = n)
    (hb : st.cfg.Bounds) (hwork : st.call.WorkLeft) (hchecked : st.call.Checked st.cfg) :
    AssemblingStep st st' os ms := by
  have hm := hb.maxSglSegs_pos
  have hlen := h.ops_handable.length_eq
  have hcount := h.count_le hb
  have hops : st'.qp.ops = ops := by rw [h.state_eq]
  have hmSrc := h.map_mSrc
  have hpiece : ∀ o ∈ os, ∃ j, (st'.qp.ops o).mSrc.segs = piece st.cfg.maxSglSegs.toNat j S ∧
      st'.qp.ops o = builtOp st.call.xform (piece st.cfg.maxSglSegs.toNat j S)
        (piece st.cfg.maxSglSegs.toNat j T) := by
    intro o ho
    obtain ⟨j, hj, rfl⟩ := List.getElem_of_mem ho
    rw [hops, h.getElem_ops hT hj]
    exact ⟨j, rfl, rfl⟩
  refine ⟨⟨h.ops_handable.nodup, h.ops_handable.free, ?_⟩,
    ⟨h.mbufs_handable.nodup, h.mbufs_handable.free, ?_⟩, ?_, ?_, ?_, ?_, ?_, ?_, ?_, ?_, ?_, ?_,
    ?_, ?_⟩
  · rw [h.state_eq]
  · rw [h.state_eq]
  · rw [hlen]
    exact count_pos hm h.n_pos
  · rw [h.state_eq]
    simp only [if_pos hT, hlen]
  · have hpos := count_pos hm h.n_pos
    omega
  · rw [h.state_eq]
    exact read_write_of_disjoint _ (Or.inr (Or.inl (by omega)))
  · rw [h.state_eq]
    exact read_write_self _ _ _ _
  · rw [h.state_eq]
  · have hflat : (os.flatMap fun o => (st'.qp.ops o).sourceSpans) = st.remaining.take n := by
      rw [hops, ← h.sources, ← flatten_pieces hm S, ← hmSrc, ← List.flatMap_def, List.map_flatMap]
      rfl
    rw [hflat]
    exact h.covers hb hwork hchecked
  · intro o ho
    have hmem := List.mem_map_of_mem (f := fun o => (ops o).mSrc.segs) ho
    rw [List.map_dropLast, hmSrc] at hmem
    rw [hops]
    exact length_of_mem_dropLast_pieces hm S _ hmem
  · intro o ho
    have hmem := List.mem_map_of_mem (f := fun o => (ops o).mSrc.segs) ho
    rw [hmSrc] at hmem
    rw [hops]
    exact length_of_mem_pieces hm hmem
  · intro o ho
    obtain ⟨j, -, hop⟩ := hpiece o ho
    rw [hop]
    show (piece _ j T).length = (piece _ j S).length
    rw [length_piece, length_piece, h.length_sources, hT]
  · have hperm := h.mbufs_perm hm
    rw [List.take_of_length_le (by rw [h.mbufs_handable.length_eq]; omega)] at hperm
    rw [hops]
    exact hperm
  · intro o ho
    obtain ⟨j, -, hop⟩ := hpiece o ho
    have hsum : (st'.qp.ops o).mSrc.pktLen = room (st'.qp.ops o).sourceSpans := by
      rw [hop]
      simp [builtOp, opWith, chainOf, CompOp.sourceSpans, room, Segment.span, Function.comp_def]
    refine ⟨?_, hsum⟩
    rw [← hsum, hop]
    rfl

end Built

/-- **One assembling step**, of either overload. -/
theorem assembling_step (hcfg : Accepted st.cfg)
    (hroom : st.qp.numOpsAssembled < st.cfg.burstSize.toNat) (hwork : st.call.WorkLeft)
    (hchecked : st.call.Checked st.cfg) (env : Env) {result : Nat}
    (hok : st.assembleFrom env = (st', .ok result)) :
    ∃ os ms, result = st.qp.numOpsAssembled + os.length ∧ AssemblingStep st st' os ms := by
  have hb := hcfg.bounds
  have hout := assembleFrom_spec hb env
  rw [hok] at hout
  dsimp only at hout
  cases hout with
  | nothing h =>
      exfalso
      rcases h with hnil | hfull
      · have hlen := congrArg List.length hnil
        rw [remaining] at hlen
        cases hcall : st.call with
        | compress input offset out =>
            rw [hcall] at hlen hwork
            have hlt : offset < input.size := hwork
            have := count_pos hb.segSize_pos (show 0 < input.size - offset by omega)
            rw [Call.remaining, length_inputSpans, List.length_nil] at hlen
            omega
        | decompress buffers output index offset size =>
            rw [hcall] at hlen hwork
            have hlt : index < buffers.length := hwork
            rw [Call.remaining, length_bufferSpans, List.length_nil] at hlen
            omega
      · omega
  | complete built hT hms hzones =>
      exact ⟨_, _, by rw [built.ops_handable.length_eq], built.assemblingStep hT hb hwork hchecked⟩

/-- Two bursts of one call, the second behind an operation that was not enqueued. -/
def sampleAssembled : Machine :=
  Runs.run (step true) ((sampleMachine 2 3).compress (some ⟨⟨.host 0, 0⟩, 41⟩))
    [{ bulk := ⟨some [0, 1], some (List.range 8)⟩, memzones := [none, none, none, some 10] },
      { numAccepted := 1 }, {}]

def sampleAnswer : Env where
  bulk := ⟨some [2], some [8, 9, 10, 11]⟩
  memzones := [some 11, some 12]

theorem assembling_step_sample :
    ∃ os ms, 2 = sampleAssembled.qp.numOpsAssembled + os.length ∧
      AssemblingStep sampleAssembled (sampleAssembled.assembleFrom sampleAnswer).1 os ms :=
  assembling_step sampleConfig_accepted.2 (by decide +kernel)
    (show sampleAssembled.call.WorkLeft from show (32 : Nat) < 41 by decide) trivial sampleAnswer
    (Prod.ext rfl rfl)

end Machine

end Bitar
