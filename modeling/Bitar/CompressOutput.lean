import Bitar.Oblivious
import Bitar.ZonesInUse
import Mathlib.Data.List.Flatten

/-!
# The output of `Compress`

The device computes `enc`, an arbitrary function, of the source bytes of every
compress operation.  In a call in which nothing fails, the contents of the
buffers emitted so far, followed by what `enc` will make of the spans in
`todo`, cut at the ends of the destination segments, is a constant.  In the
beginning it is determined by the input alone; in the end nothing is left to
do.

**Results.**
* `Compressing.continues`: the invariant.
* `compress_output`: the vector that `Compress` returns.
-/

namespace Bitar

open BlockStore Pieces

/-- The buffers of a destination chain cover the part of it that was filled. -/
theorem map_bytes_emitBuffers (memory : Memory) :
    ∀ (segs : List Segment) (n : Nat),
      (emitBuffers segs n).map (fun b => b.bytes memory) =
        (fill (segs.map Segment.span) n).map (Span.read memory)
  | [], _ => rfl
  | seg :: segs, n => by
      unfold emitBuffers
      rw [List.map_cons, fill]
      split_ifs with hn
      · rfl
      · rw [List.map_cons, List.map_cons, map_bytes_emitBuffers memory segs]
        rfl

theorem pairwise_disjoint_of_memzones {L : Nat} {segs : List Segment}
    (h : ∀ seg ∈ segs, ∃ z, seg.IsMemzone L z) (hnd : (segs.filterMap Segment.memzone).Nodup) :
    (segs.map Segment.span).Pairwise Span.Disjoint := by
  rw [List.pairwise_map]
  have hpw := List.pairwise_filterMap.mp hnd
  refine hpw.imp_of_mem ?_
  intro a b ha hb hab
  obtain ⟨za, hza⟩ := h a ha
  obtain ⟨zb, hzb⟩ := h b hb
  refine Or.inl ?_
  have := hab za hza.memzone zb hzb.memzone
  simpa [Segment.span, hza.bufAddr, hzb.bufAddr, memzoneAddr] using this

namespace Machine

variable {st st' : Machine} {env : Env} {enc : List UInt8 → List UInt8}

/-- The device computes `enc`: an operation handed back has the output that
`enc` gives for its source bytes, and its destination had room for it. -/
def Encodes (enc : List UInt8 → List UInt8) (st : Machine) (env : Env) : Prop :=
  (st.pc = .dequeue ∨ st.pc = .drain) → ∀ p ∈ st.finished env,
    p.2.output = enc ((st.qp.ops p.1).source st.memory) ∧
      p.2.output.length ≤ room (st.qp.ops p.1).destination

instance (st : Machine) (env : Env) : Decidable (st.Encodes enc env) := by
  unfold Encodes
  infer_instance

/-- The contents of the emitted buffers. -/
def contents (st : Machine) : List (List UInt8) :=
  st.call.emitted.map fun b => b.bytes st.memory

/-- What the device makes of the source spans of an operation. -/
def encoded (enc : List UInt8 → List UInt8) (L : Nat) (memory : Memory)
    (spans : List (Span Block)) : List (List UInt8) :=
  pieces L (enc (gather memory spans))

/-- The invariant of a `Compress` call on `input` that starts with the memory
`memory` and has to return `total`. -/
structure Compressing (enc : List UInt8 → List UInt8) (input : Buffer) (memory : Memory)
    (total : List (List UInt8)) (st : Machine) : Prop where
  compress : ∃ offset out, st.call = .compress input offset out
  zones : st.ZonesInUse
  whole : ∀ op ∈ st.pendingOps, op.Whole .compress
  exhausted : st.Exhausted
  apart : st.Apart input
  memory_eq : ∀ i, st.memory input.data.block i = memory input.data.block i
  todo_block : ∀ spans ∈ st.todo, ∀ sp ∈ spans, sp.block = input.data.block
  conserved : st.contents ++ st.todo.flatMap (encoded enc st.cfg.segLen memory) = total

/-- What lies in the block of the input reads as it did in the beginning. -/
theorem Compressing.gather_eq {input : Buffer} {memory : Memory} {total : List (List UInt8)}
    (h : Compressing enc input memory total st) {spans : List (Span Block)}
    (hspans : spans ∈ st.todo) : gather st.memory spans = gather memory spans := by
  unfold gather
  apply List.flatMap_congr
  intro sp hsp
  have hb := h.todo_block spans hspans sp hsp
  apply read_congr
  intro i _ _
  rw [hb]
  exact h.memory_eq i

section Burst

variable {input : Buffer} {memory : Memory} {total : List (List UInt8)}

/-- Every destination span of a burst is a memzone in use that no emitted buffer
and no other span of the burst shares. -/
theorem Compressing.jobs_ok (h : Compressing enc input memory total st) (hst : st.Ordered)
    (env : Env) :
    (∀ job ∈ st.jobs env, (∀ sp ∈ job.1, sp.length = st.cfg.segLen) ∧
      job.2.length ≤ room job.1) ∧
    ((st.jobs env).flatMap Prod.fst).Pairwise Span.Disjoint := by
  obtain ⟨offset, out, hcall⟩ := h.compress
  have hdest : ∀ op ∈ st.pendingOps, ∀ seg ∈ op.mDst.segs, ∃ z, seg.IsMemzone st.cfg.segLen z := by
    intro op hop seg hseg
    have := h.zones.destinations op hop seg hseg
    rwa [hcall] at this
  refine ⟨?_, ?_⟩
  · intro job hjob
    obtain ⟨p, hp, rfl⟩ := List.mem_map.mp hjob
    refine ⟨?_, by simp [OpResult.written]⟩
    intro sp hsp
    obtain ⟨seg, hseg, rfl⟩ := List.mem_map.mp hsp
    obtain ⟨z, hz⟩ := hdest _ (finished_mem hst hp) seg hseg
    exact hz.dataLen
  · have hflat : (st.jobs env).flatMap Prod.fst =
        ((st.pendingOps.take (st.numDequeued env)).flatMap fun op => op.mDst.segs).map
          Segment.span := by
      rw [← finished_ops hst env, jobs, List.flatMap_map, List.flatMap_map, List.map_flatMap]
      rfl
    rw [hflat]
    apply pairwise_disjoint_of_memzones
    · intro seg hseg
      obtain ⟨op, hop, hseg⟩ := List.mem_flatMap.mp hseg
      exact hdest op (List.mem_of_mem_take hop) seg hseg
    · have hnd := (List.nodup_append.mp h.zones.nodup).2.1
      rw [List.filterMap_flatMap]
      refine hnd.sublist ?_
      exact (List.take_sublist ..).flatMap _

theorem todo_take (hst : st.Ordered) (env : Env) :
    st.todo.take (st.numDequeued env) =
      (st.finished env).map fun p => (st.qp.ops p.1).sourceSpans := by
  have hle : st.numDequeued env ≤ (st.pendingOps.map CompOp.sourceSpans).length := by
    rw [List.length_map, pendingOps, List.length_map, hst.pending, List.length_append]
    unfold numDequeued
    omega
  rw [todo, List.take_append_of_le_length hle, ← List.map_take, ← finished_ops hst env,
    List.map_map]
  rfl

/-- What a burst adds to the contents of the emitted buffers. -/
theorem Compressing.contents_retire (h : Compressing enc input memory total st)
    (hst : st.Ordered) (hb : st.cfg.Bounds) (env : Env) (hpc : st.pc = .dequeue ∨ st.pc = .drain)
    (henc : st.Encodes enc env) :
    ((st.afterHandBack env).retire (st.queue.take (st.numDequeued env))).contents =
      st.contents ++
        (st.todo.take (st.numDequeued env)).flatMap (encoded enc st.cfg.segLen memory) := by
  obtain ⟨offset, out, hcall⟩ := h.compress
  obtain ⟨hlen, hdisj⟩ := h.jobs_ok hst env
  have hhb := handBack_spec (hst.queue_prefix env).1 env
  have hmem : ((st.afterHandBack env).retire
      (st.queue.take (st.numDequeued env))).memory = scatterAll st.memory (st.jobs env) := by
    rw [retire_afterHandBack (hst.queue_prefix env).1]
    rfl
  unfold contents
  rw [hmem, retire_call hst, hcall, foldl_dequeueCallback_emitted]
  simp only [Call.emitted, List.map_append, List.map_flatMap]
  congr 1
  · -- the buffers emitted earlier lie in other memzones
    apply List.map_congr_left
    intro b hb'
    have hbout : b ∈ st.call.emitted := by
      rw [hcall]
      exact hb'
    obtain ⟨z, hz⟩ := h.zones.buffers b hbout
    refine read_scatterAll_of_disjoint (t := ⟨b.data.block, b.data.offset, b.size⟩) _ _ ?_
    intro job hjob sp hsp
    obtain ⟨p, hp, rfl⟩ := List.mem_map.mp hjob
    obtain ⟨seg, hseg, rfl⟩ := List.mem_map.mp hsp
    have hop := finished_mem hst hp
    have hok := h.zones.destinations _ hop seg hseg
    rw [hcall] at hok
    obtain ⟨z', hz'⟩ := hok
    refine Or.inl ?_
    have hzb : z ∈ st.call.emitted.filterMap Buffer.memzone :=
      List.mem_filterMap.mpr ⟨b, hbout, by simp [Buffer.memzone, hz, memzoneAddr]⟩
    have hzp : z' ∈ st.pendingOps.flatMap CompOp.memzones :=
      List.mem_flatMap.mpr ⟨_, hop, List.mem_filterMap.mpr ⟨seg, hseg, hz'.memzone⟩⟩
    have hne : z ≠ z' := fun e =>
      List.disjoint_of_nodup_append h.zones.nodup hzb (e ▸ hzp)
    simpa [Segment.span, hz, hz'.bufAddr, memzoneAddr] using hne
  · -- the new buffers
    rw [← map_fst_finished, List.flatMap_map, todo_take hst, List.flatMap_map]
    have hread := read_fill_scatterAll (segLen_pos hb) (st.jobs env) st.memory hlen hdisj
    rw [jobs, List.flatMap_map, List.flatMap_map, ← jobs] at hread
    refine Eq.trans ?_ (hread.trans ?_)
    · apply List.flatMap_congr
      intro p hp
      rw [hhb.ops_finished p hp, map_bytes_emitBuffers]
      rfl
    · apply List.flatMap_congr
      intro p hp
      obtain ⟨hout, hroom⟩ := henc hpc p hp
      have hop := finished_mem hst hp
      have hspans : (st.qp.ops p.1).sourceSpans ∈ st.todo :=
        List.mem_append_left _ (List.mem_map_of_mem hop)
      unfold encoded
      rw [← h.gather_eq hspans, ← CompOp.Whole.source_eq (h.whole _ hop), ← hout, OpResult.written,
        List.take_of_length_le hroom]

end Burst

section Invariant

variable {input : Buffer} {memory : Memory} {total : List (List UInt8)}

/-- A burst leaves the block of the input alone. -/
theorem Compressing.memory_retire (h : Compressing enc input memory total st) (hst : st.Ordered)
    (env : Env) (i : Nat) :
    ((st.afterHandBack env).retire
      (st.queue.take (st.numDequeued env))).memory input.data.block i =
        st.memory input.data.block i := by
  obtain ⟨offset, out, hcall⟩ := h.compress
  rw [retire_afterHandBack (hst.queue_prefix env).1]
  apply scatterAll_apply_of_avoids
  intro job hjob sp hsp
  obtain ⟨p, hp, rfl⟩ := List.mem_map.mp hjob
  obtain ⟨seg, hseg, rfl⟩ := List.mem_map.mp hsp
  have hop := finished_mem hst hp
  have hok := h.zones.destinations _ hop seg hseg
  rw [hcall] at hok
  obtain ⟨z, hz⟩ := hok
  refine Or.inl fun hb => ?_
  have hblock : input.data.block = .memzone z := by
    rw [hb, Segment.span, hz.bufAddr]
    rfl
  exact (h.apart z hblock).2.2 (List.mem_append_right _
    (List.mem_flatMap.mpr ⟨_, hop, List.mem_filterMap.mpr ⟨seg, hseg, hz.memzone⟩⟩))

theorem contents_setPc (s : Machine) (pc : Pc) : contents { s with pc := pc } = s.contents := rfl

theorem contents_drainOrFinish (s : Machine) : s.drainOrFinish.contents = s.contents := by
  unfold contents
  rw [emitted_drainOrFinish, memory_drainOrFinish]

/-- **Step lemma.** -/
theorem Compressing.continues (h : Compressing enc input memory total st) (hst : st.Ordered)
    (hb : st.cfg.Bounds) (henc : st.Encodes enc env) (hstep : Continues st env st') :
    Compressing enc input memory total st' := by
  have hcfg := hstep.cfg_eq hst
  have htodo := todo_continues hst hb hstep
  have hxform : st.call.xform = .compress := by
    obtain ⟨offset, out, hcall⟩ := h.compress
    rw [hcall]
    rfl
  refine ⟨compress_continues h.compress hst hstep, h.zones.continues hst hb hstep,
    whole_continues hxform hst h.whole hstep, h.exhausted.continues hst hstep,
    h.apart.continues h.zones hst hb hstep, ?_, ?_, ?_⟩
  · intro i
    rw [← h.memory_eq i]
    cases hstep with
    | built hpc built hT => exact congrFun (congrFun built.memory_eq _) _
    | full hpc hpos => rfl
    | exhausted hpc hrem hnone => rw [memory_drainOrFinish]
    | enqueued hpc hread => rfl
    | dequeued hpc hsucc => exact h.memory_retire hst env i
    | drained hpc hsucc => exact (by rw [memory_drainOrFinish]; exact h.memory_retire hst env i)
    | returned hpc => rfl
  · rw [htodo]
    exact fun spans hspans => h.todo_block spans (List.mem_of_mem_drop hspans)
  · rw [htodo, hcfg]
    have hretire := h.contents_retire hst hb env
    have hsplit : (st.todo.take (st.numDequeued env)).flatMap (encoded enc st.cfg.segLen memory) ++
        (st.todo.drop (st.numDequeued env)).flatMap (encoded enc st.cfg.segLen memory) =
          st.todo.flatMap (encoded enc st.cfg.segLen memory) := by
      rw [← List.flatMap_append, List.take_append_drop]
    unfold numRetired
    cases hstep with
    | @built st₁ n os ms ops S T hpc built hT =>
        rw [hpc]
        have hsame : st₁.contents = st.contents := by
          unfold contents
          rw [built.emitted, built.memory_eq]
        have := h.conserved
        rw [← hsame] at this
        exact this
    | full hpc hpos =>
        rw [hpc]
        exact h.conserved
    | exhausted hpc hrem hnone =>
        rw [hpc, contents_drainOrFinish]
        exact h.conserved
    | enqueued hpc hread =>
        rw [hpc]
        exact h.conserved
    | dequeued hpc hsucc =>
        rw [hpc]
        dsimp only
        rw [contents_setPc, hretire (Or.inl hpc) henc, List.append_assoc, hsplit]
        exact h.conserved
    | drained hpc hsucc =>
        rw [hpc, contents_drainOrFinish, hretire (Or.inr hpc) henc]
        dsimp only
        rw [List.append_assoc, hsplit]
        exact h.conserved
    | returned hpc =>
        rw [hpc]
        exact h.conserved

end Invariant

/-! ## Whole calls -/

/-- The spans of the input read as its slices. -/
theorem map_read_inputSpans {s : Nat} (memory : Memory) (input : Buffer) :
    (inputSpans s input 0).map (Span.read memory) = pieces s (input.bytes memory) := by
  simp only [inputSpans, pieces, List.map_map, Nat.sub_zero, Nat.add_zero]
  rw [show (input.bytes memory).length = input.size by simp [Buffer.bytes]]
  apply List.map_congr_left
  intro i _
  rw [Buffer.bytes, piece_read]
  rfl

/-- Grouped into operations, they read as its blocks. -/
theorem map_gather_inputSpans {m s : Nat} (hm : 0 < m) (hs : 0 < s) (memory : Memory)
    (input : Buffer) :
    (pieces m (inputSpans s input 0)).map (gather memory) =
      pieces (m * s) (input.bytes memory) := by
  rw [← map_flatten_pieces hm hs, ← map_read_inputSpans, pieces_map, List.map_map]
  apply List.map_congr_left
  intro spans _
  rw [Function.comp_apply, gather, List.flatMap_def]

/-- A call of `Compress` begins with all of its input to do. -/
theorem compressing_start (enc : List UInt8 → List UInt8) (hb : st.cfg.Bounds) (hready : st.Ready)
    (hidle : st.Idle)
    (hzones : st.zones.WellFormed st.cfg.compressedSegSize) {input : Buffer}
    (hinput : 0 < input.size) (hapart : ∀ z, input.data.block = .memzone z →
      z ∈ st.zones.pool.allocated ∧ z ∉ st.zones.device.memzonePool) :
    Compressing enc input st.memory
      ((pieces (st.cfg.maxSglSegs.toNat * st.cfg.decompressedSegSize.toNat)
        (input.bytes st.memory)).flatMap fun block => pieces st.cfg.segLen (enc block))
      (st.compress (some input)) := by
  have hops : (st.compress (some input)).pendingOps = [] := by
    simp [pendingOps, compress, hidle.pending]
  have huse : (st.compress (some input)).zonesInUse = [] :=
    hidle.start_zonesInUse (.compress (some input))
  have htodo : (st.compress (some input)).todo = pieces st.cfg.maxSglSegs.toNat
      (inputSpans st.cfg.decompressedSegSize.toNat input 0) := by
    unfold todo
    rw [hops]
    rfl
  refine ⟨⟨_, _, rfl⟩, hidle.start_inUse hzones (.compress (some input)), ?_, ?_, ?_,
    fun _ => rfl, ?_, ?_⟩
  · simp [hops]
  · intro hpc
    rw [compress_pc hready hidle hinput] at hpc
    simp at hpc
  · intro z hz
    exact ⟨(hapart z hz).1, (hapart z hz).2, by simp [huse]⟩
  · rw [htodo]
    intro spans hspans sp hsp
    obtain ⟨i, -, rfl⟩ := List.mem_map.mp (subset_of_mem_pieces hspans hsp)
    rfl
  · rw [htodo, ← map_gather_inputSpans hb.maxSglSegs_pos hb.segSize_pos, List.flatMap_map]
    rfl

theorem run_compressing {opPool mbufPool : Finset Nat} {cfg : Configuration} (hb : cfg.Bounds)
    {debug : Bool} {input : Buffer} {memory : Memory} {total : List (List UInt8)}
    {s : Machine} {envs : List Env} (hs : InOrder cfg opPool mbufPool s)
    (hc : Compressing enc input memory total s)
    (h : Runs.Along (step debug) (fun s env => s.NoFault env ∧ s.Encodes enc env) s envs) :
    InOrder cfg opPool mbufPool (Runs.run (step debug) s envs) ∧
      Compressing enc input memory total (Runs.run (step debug) s envs) := by
  refine Runs.Along.invariant
    (I := fun s => InOrder cfg opPool mbufPool s ∧ Compressing enc input memory total s)
    ?_ ⟨hs, hc⟩ h
  rintro s env ⟨hs, hc⟩ ⟨hnf, henc⟩
  obtain ⟨hcont, hs'⟩ := hs.step hb debug hnf
  exact ⟨hs', hc.continues hs.ordered (hs.cfg_eq ▸ hb) henc hcont⟩

/-- When the call has returned, nothing is left to do. -/
theorem Compressing.returned {input : Buffer} {memory : Memory} {total : List (List UInt8)}
    (h : Compressing enc input memory total st) (hst : st.Ordered) (hb : st.cfg.Bounds)
    {status : Status} (hpc : st.pc = .returned status) :
    status = .success ∧ st.todo = [] ∧ st.contents = total := by
  obtain ⟨hrem, hok⟩ := h.exhausted (Or.inr ⟨status, hpc⟩)
  have htodo : st.todo = [] := by
    unfold todo pendingOps
    rw [(hst.idle hpc).pending, hrem, pieces_nil hb.maxSglSegs_pos]
    rfl
  have hcons := h.conserved
  rw [htodo, List.flatMap_nil, List.append_nil] at hcons
  exact ⟨hok status hpc, htodo, hcons⟩

/-- **The output of `Compress`.**  Whatever the schedule, as long as nothing
fails: the call returns OK, and the buffers hold, block after block of the
input, the device's output cut into pieces of one destination segment. -/
theorem compress_output (hcfg : Accepted st.cfg) (hready : st.Ready) (hidle : st.Idle)
    (hzones : st.zones.WellFormed st.cfg.compressedSegSize) {input : Buffer}
    (hinput : 0 < input.size) (hapart : ∀ z, input.data.block = .memzone z →
      z ∈ st.zones.pool.allocated ∧ z ∉ st.zones.device.memzonePool)
    (enc : List UInt8 → List UInt8) (debug : Bool) (envs : List Env)
    (h : Runs.Along (step debug) (fun s env => s.NoFault env ∧ s.Encodes enc env)
      (st.compress (some input)) envs) :
    let s := Runs.run (step debug) (st.compress (some input)) envs
    ∀ status, s.result = some status →
      status = .success ∧
      s.call.emitted.map (fun b => b.bytes s.memory) =
        (pieces (st.cfg.maxSglSegs.toNat * st.cfg.decompressedSegSize.toNat)
          (input.bytes st.memory)).flatMap fun block => pieces st.cfg.segLen (enc block) := by
  intro s status hres
  have hb := hcfg.bounds
  obtain ⟨hs, hc⟩ := run_compressing hb (hidle.start_inOrder (.compress (some input)))
    (compressing_start enc hb hready hidle hzones hinput hapart) h
  obtain ⟨hok, -, hcontents⟩ :=
    hc.returned hs.ordered (hs.cfg_eq ▸ hb) (result_eq_some.mp hres)
  exact ⟨hok, hcontents⟩

/-- A device that writes the number of bytes and then the bytes. -/
def sampleEncode (block : List UInt8) : List UInt8 :=
  UInt8.ofNat block.length :: block

/-- Twelve bytes in two bursts of one operation with two segments at most. -/
def sampleCompression : List Env :=
  [{ bulk := ⟨some [0], some [0, 1, 2, 3]⟩ },
    {},
    {},
    {},
    { numAccepted := 1 },
    { results := [⟨.success, 12 :: (List.range 12).map UInt8.ofNat⟩] },
    {}]

theorem compress_output_sample :
    let s := Runs.run (step true) ((sampleMachine 2 3).compress (some ⟨⟨.host 0, 0⟩, 12⟩))
      sampleCompression
    s.call.emitted.map (fun b => b.bytes s.memory) = [12 :: (List.range 12).map UInt8.ofNat] :=
  (compress_output sampleConfig_accepted.2 ⟨rfl, by decide⟩ (sampleMachine_idle 2 3)
    (sampleMachine_wellFormed 2 3) (by decide) (by simp) sampleEncode true sampleCompression
    (by decide +kernel) .success (by decide +kernel)).2.trans (by decide +kernel)

end Machine

end Bitar
