import Bitar.SourceFeed
import Bitar.Oblivious
import Bitar.Lib.Slots

/-!
# The output of `Decompress`

A decompress operation writes from a position that `AssembleFrom` fixes in
advance: `decompressed_seg_size` bytes for every source buffer before it.  The
size that is reported in the end is the sum of what the operations produced.
The two fit together when no operation that leaves room is followed by one that
produces anything.

**Results.**
* `Decompressing.continues`: where the operations of a call write.
* `decompress_output`: the first bytes of the output are what the operations
  produced, whatever the buffer held before, if and only if the operations fill
  their places as far as it matters.
-/

namespace Bitar

open BlockStore Pieces

/-- The contents of the buffer that `Decompress` writes to, up to its size. -/
def Call.decompressed (memory : Memory) : Call → List UInt8
  | .compress .. => []
  | .decompress _ output _ _ _ => read memory output.data.block output.data.offset output.size

/-- The room for the operations of a `Decompress` call: one slice of the output
for every source buffer. -/
def operationRooms (cfg : Configuration) (buffers : List Buffer) : List Nat :=
  (pieces cfg.maxSglSegs.toNat buffers).map fun group =>
    group.length * cfg.decompressedSegSize.toNat

namespace Machine

variable {st st' : Machine} {env : Env}

/-- The jobs that a run finds done, in order. -/
def work (debug : Bool) (st : Machine) (envs : List Env) : List (List (Span Block) × List UInt8) :=
  Runs.collect (step debug) completed st envs

/-- What the operations of a run have produced, in order. -/
def outputs (debug : Bool) (st : Machine) (envs : List Env) : List (List UInt8) :=
  (st.work debug envs).map Prod.snd

/-- The invariant of a `Decompress` call.  `log` is the work that was found to be
done so far and `index` the number of buffers that are assembled. -/
structure Decompressing (buffers : List Buffer) (output : ResizableBuffer) (memory : Memory)
    (log : List (List (Span Block) × List UInt8)) (index : Nat) (st : Machine) : Prop where
  call_eq : ∃ size, st.call = .decompress buffers { output with size := size } index
      (index * st.cfg.decompressedSegSize.toNat) (log.flatMap Prod.snd).length ∧
    ∀ status, st.pc = .returned status → size = (log.flatMap Prod.snd).length
  index_le : index ≤ buffers.length
  memory_eq : st.memory = scatterAll memory log
  fits : ∀ job ∈ log, job.2.length ≤ room job.1
  layout : log.map Prod.fst ++ st.pendingOps.map CompOp.destination ++
      pieces st.cfg.maxSglSegs.toNat (outputSpans st.cfg.decompressedSegSize.toNat output.data
        (index * st.cfg.decompressedSegSize.toNat) (buffers.length - index)) =
    pieces st.cfg.maxSglSegs.toNat
      (outputSpans st.cfg.decompressedSegSize.toNat output.data 0 buffers.length)
  exhausted : st.Exhausted

section Invariant

variable {buffers : List Buffer} {output : ResizableBuffer} {memory : Memory}
  {log : List (List (Span Block) × List UInt8)} {index : Nat}

theorem Decompressing.length_remaining (h : Decompressing buffers output memory log index st) :
    st.remaining.length = buffers.length - index := by
  obtain ⟨size, hcall, -⟩ := h.call_eq
  rw [remaining, hcall, Call.remaining, length_bufferSpans]

/-- The part of the output that is not assembled yet, behind a burst. -/
theorem pieces_outputSpans {m s n k : Nat} (hm : 0 < m) (output : Addr)
    (h : m ∣ n ∨ k = 0) (offset : Nat) :
    pieces m (outputSpans s output offset (n + k)) =
      pieces m (outputSpans s output offset n) ++
        pieces m (outputSpans s output (offset + n * s) k) := by
  rw [outputSpans_append, pieces_append hm]
  rcases h with h | rfl
  · exact Or.inl (by simpa using h)
  · exact Or.inr rfl

theorem Decompressing.built {n : Nat} {os ms : List Nat} {ops : Nat → CompOp} {S T : List Segment}
    (h : Decompressing buffers output memory log index st) (hst : st.Ordered)
    (hb : st.cfg.Bounds) (built : Built st st' n os ms ops S T) (hT : T.length = n) (k : Nat) :
    Decompressing buffers output memory log (index + n) { st' with pc := .enqueue k } := by
  obtain ⟨size, hcall, -⟩ := h.call_eq
  have hlen := h.length_remaining
  have hle := h.index_le
  have hn := built.n_eq
  have hdest := built.destinations
  rw [hcall] at hdest
  obtain ⟨-, -, hspans, -⟩ := hdest
  have hoffset : (index + n) * st.cfg.decompressedSegSize.toNat =
      index * st.cfg.decompressedSegSize.toNat + n * st.cfg.decompressedSegSize.toNat :=
    Nat.add_mul ..
  refine ⟨⟨size, ?_, by simp⟩, by omega, ?_, h.fits, ?_, by simp [Exhausted]⟩
  · show st'.call = _
    rw [built.call_eq, built.cfg_eq, hcall, hoffset]
    rfl
  · show st'.memory = _
    rw [built.memory_eq, h.memory_eq]
  · show log.map Prod.fst ++ st'.pendingOps.map CompOp.destination ++
      pieces st'.cfg.maxSglSegs.toNat (outputSpans st'.cfg.decompressedSegSize.toNat output.data
        ((index + n) * st'.cfg.decompressedSegSize.toNat) (buffers.length - (index + n))) = _
    rw [built.cfg_eq, ← h.layout, built.pendingOps hst hT, List.map_append]
    have hops : (List.zipWith (builtOp st.call.xform) (pieces st.cfg.maxSglSegs.toNat S)
        (pieces st.cfg.maxSglSegs.toNat T)).map CompOp.destination =
          pieces st.cfg.maxSglSegs.toNat (outputSpans st.cfg.decompressedSegSize.toNat output.data
            (index * st.cfg.decompressedSegSize.toNat) n) := by
      rw [← hspans, pieces_map]
      apply List.ext_getElem
      · simp [built.length_sources, hT]
      · intro j h1 h2
        simp [CompOp.destination, builtOp, opWith]
    have hcut := pieces_outputSpans (s := st.cfg.decompressedSegSize.toNat) (n := n)
      (k := buffers.length - (index + n)) hb.maxSglSegs_pos output.data ?_
      (index * st.cfg.decompressedSegSize.toNat)
    · rw [show n + (buffers.length - (index + n)) = buffers.length - index by omega] at hcut
      rw [hops, hcut, hoffset]
      simp only [List.append_assoc]
    · rcases Nat.le_total st.remaining.length
        ((st.cfg.burstSize.toNat - st.qp.numOpsAssembled) * st.cfg.maxSglSegs.toNat) with hle | hle
      · rw [Nat.min_eq_left hle] at hn
        exact Or.inr (by omega)
      · rw [Nat.min_eq_right hle] at hn
        exact Or.inl (hn ▸ Nat.dvd_mul_left ..)

/-- The bytes that a burst reports. -/
theorem sum_produced (hst : st.Ordered) (env : Env) :
    ((st.queue.take (st.numDequeued env)).map fun o =>
      ((st.handBack env).qp.ops o).produced).sum =
        ((st.jobs env).flatMap Prod.snd).length := by
  have hhb := handBack_spec (hst.queue_prefix env).1 env
  rw [← map_fst_finished, List.map_map, jobs, List.flatMap_map, List.length_flatMap]
  congr 1
  apply List.map_congr_left
  intro p hp
  rw [Function.comp_apply, hhb.ops_finished p hp]
  rfl

theorem Decompressing.retire (h : Decompressing buffers output memory log index st)
    (hst : st.Ordered) (env : Env) (hpc : st.pc = .dequeue ∨ st.pc = .drain) :
    Decompressing buffers output memory (log ++ st.jobs env) index
      ((st.afterHandBack env).retire (st.queue.take (st.numDequeued env))) := by
  obtain ⟨size, hcall, -⟩ := h.call_eq
  have hretire : (st.afterHandBack env).retire (st.queue.take (st.numDequeued env)) = _ :=
    retire_afterHandBack (hst.queue_prefix env).1 _
  have hcfg := (congrArg Machine.cfg hretire).trans rfl
  have hmemory := congrArg Machine.memory hretire
  have hpc' : ((st.afterHandBack env).retire (st.queue.take (st.numDequeued env))).pc = st.pc :=
    (congrArg Machine.pc hretire).trans rfl
  have hcall' := retire_call hst env (st.queue.take (st.numDequeued env))
  rw [hcall, foldl_dequeueCallback_size, sum_produced hst] at hcall'
  refine ⟨⟨size, ?_, ?_⟩, h.index_le, ?_, ?_, ?_, ?_⟩
  · rw [hcall', hcfg, List.flatMap_append, List.length_append]
  · intro status hr
    rw [hpc'] at hr
    rcases hpc with hpc | hpc <;> rw [hpc] at hr <;> cases hr
  · rw [hmemory]
    show scatterAll st.memory (st.jobs env) = _
    rw [h.memory_eq, scatterAll, scatterAll, scatterAll, List.foldl_append]
  · intro job hjob
    rcases List.mem_append.mp hjob with hjob | hjob
    · exact h.fits job hjob
    · obtain ⟨p, -, rfl⟩ := List.mem_map.mp hjob
      simp [OpResult.written]
  · have hdone : (st.jobs env).map Prod.fst =
        (st.pendingOps.take (st.numDequeued env)).map CompOp.destination := by
      rw [← finished_ops hst env, jobs, List.map_map, List.map_map]
      rfl
    rw [pendingOps_retire hst env, hcfg, List.map_append, hdone, ← h.layout]
    simp only [List.append_assoc]
    rw [← List.append_assoc (List.map _ (List.take _ _)), ← List.map_append,
      List.take_append_drop]
  · intro hend
    rw [hpc'] at hend
    rw [remaining_retire hst, hpc']
    exact h.exhausted hend

theorem Decompressing.drainOrFinish (h : Decompressing buffers output memory log index st)
    (hrem : st.remaining = []) :
    Decompressing buffers output memory log index st.drainOrFinish := by
  obtain ⟨size, hcall, -⟩ := h.call_eq
  refine ⟨?_, h.index_le, ?_, h.fits, ?_, .drainOrFinish hrem⟩
  · rw [drainOrFinish_cfg]
    rcases st.drainOrFinish_cases with ⟨-, he⟩ | ⟨-, he⟩
    · rw [he]
      exact ⟨size, hcall, by simp⟩
    · refine ⟨(log.flatMap Prod.snd).length, ?_, fun _ _ => rfl⟩
      rw [he, finish, hcall]
  · rw [memory_drainOrFinish, h.memory_eq]
  · rw [pendingOps_drainOrFinish, drainOrFinish_cfg]
    exact h.layout

/-- **Step lemma.** -/
theorem Decompressing.continues (h : Decompressing buffers output memory log index st)
    (hst : st.Ordered) (hb : st.cfg.Bounds) (hstep : Continues st env st') :
    ∃ index', Decompressing buffers output memory (log ++ st.completed env) index' st' := by
  cases hstep with
  | built hpc built hT =>
      have hnone : st.completed env = [] := by simp [completed, hpc]
      rw [hnone, List.append_nil]
      exact ⟨_, h.built hst hb built hT _⟩
  | full hpc hpos =>
      have hnone : st.completed env = [] := by simp [completed, hpc]
      rw [hnone, List.append_nil]
      obtain ⟨size, hcall, -⟩ := h.call_eq
      exact ⟨index, ⟨size, hcall, by simp⟩, h.index_le, h.memory_eq, h.fits, h.layout,
        by simp [Exhausted]⟩
  | exhausted hpc hrem hnone =>
      have hnone : st.completed env = [] := by simp [completed, hpc]
      rw [hnone, List.append_nil]
      exact ⟨index, h.drainOrFinish hrem⟩
  | enqueued hpc hread =>
      have hnone : st.completed env = [] := by simp [completed, hpc]
      rw [hnone, List.append_nil]
      obtain ⟨size, hcall, -⟩ := h.call_eq
      exact ⟨index, ⟨size, hcall, by simp⟩, h.index_le, h.memory_eq, h.fits, h.layout,
        by simp [Exhausted]⟩
  | dequeued hpc hsucc =>
      have hjobs : st.completed env = st.jobs env := by simp [completed, hpc]
      have hr := h.retire hst env (Or.inl hpc)
      obtain ⟨size, hcall, -⟩ := hr.call_eq
      rw [hjobs]
      exact ⟨index, ⟨size, hcall, by simp⟩, hr.index_le, hr.memory_eq, hr.fits, hr.layout,
        by simp [Exhausted]⟩
  | drained hpc hsucc =>
      have hjobs : st.completed env = st.jobs env := by simp [completed, hpc]
      rw [hjobs]
      refine ⟨index, (h.retire hst env (Or.inr hpc)).drainOrFinish ?_⟩
      rw [remaining_retire hst]
      exact (h.exhausted (Or.inl hpc)).1
  | returned hpc =>
      have hnone : st.completed env = [] := by simp [completed, hpc]
      rw [hnone, List.append_nil]
      exact ⟨index, h⟩

end Invariant

/-! ## Whole calls -/

section Calls

variable {buffers : List Buffer} {output : ResizableBuffer} {debug : Bool} {envs : List Env}

theorem decompressing_start (hidle : st.Idle)
    (hpc : (st.decompress buffers (some output)).pc = .assemble) :
    Decompressing buffers output st.memory [] 0 (st.decompress buffers (some output)) := by
  have hops : (st.decompress buffers (some output)).pendingOps = [] := by
    simp [pendingOps, decompress, hidle.pending]
  refine ⟨⟨output.size, by simp [decompress], ?_⟩, Nat.zero_le _, rfl, by simp, ?_, ?_⟩
  · intro status hr
    rw [hpc] at hr
    cases hr
  · rw [hops]
    simp [decompress]
  · rintro (hr | ⟨status, hr⟩) <;> rw [hpc] at hr <;> cases hr

theorem run_decompressing (hb : st.cfg.Bounds) (hidle : st.Idle)
    (hpc : (st.decompress buffers (some output)).pc = .assemble)
    (h : Runs.Along (step debug) NoFault (st.decompress buffers (some output)) envs) :
    let s := Runs.run (step debug) (st.decompress buffers (some output)) envs
    InOrder st.cfg st.qp.operationPool st.qp.mbufPool s ∧
      ∃ index, Decompressing buffers output st.memory
        ((st.decompress buffers (some output)).work debug envs) index s := by
  refine Runs.Along.invariant_collect
    (I := fun log s => InOrder st.cfg st.qp.operationPool st.qp.mbufPool s ∧
      ∃ index, Decompressing buffers output st.memory log index s) ?_ []
    ⟨hidle.start_inOrder (.decompress buffers (some output)), 0, decompressing_start hidle hpc⟩ h
  rintro log s env ⟨hs, index, hd⟩ hnf
  obtain ⟨hc, hs'⟩ := hs.step hb debug hnf
  exact ⟨hs', hd.continues hs.ordered (hs.cfg_eq ▸ hb) hc⟩

/-- The places of the operations have the rooms that the buffers ask for. -/
theorem map_room_outputSpans (cfg : Configuration) (buffers : List Buffer) (output : Addr) :
    (pieces cfg.maxSglSegs.toNat
      (outputSpans cfg.decompressedSegSize.toNat output 0 buffers.length)).map room =
        operationRooms cfg buffers := by
  have hroom : ∀ place ∈ pieces cfg.maxSglSegs.toNat
      (outputSpans cfg.decompressedSegSize.toNat output 0 buffers.length),
      room place = place.length * cfg.decompressedSegSize.toNat := by
    intro place hplace
    apply room_eq_of_uniform
    intro sp hsp
    obtain ⟨i, -, rfl⟩ := List.mem_map.mp (subset_of_mem_pieces hplace hsp)
    rfl
  rw [List.map_congr_left hroom]
  simp [operationRooms, pieces]

/-- The operations of a finished call cut the output as the buffers were cut. -/
theorem Decompressing.slots {memory : Memory} {log : List (List (Span Block) × List UInt8)}
    {index : Nat} (h : Decompressing buffers output memory log index st) (hst : st.Ordered)
    (hb : st.cfg.Bounds) {status : Status} (hpc : st.pc = .returned status) :
    Contiguous output.data.block output.data.offset (log.flatMap Prod.fst) ∧
      log.map (fun job => room job.1) = operationRooms st.cfg buffers ∧
      st.call.decompressed st.memory =
        read (scatterAll memory log) output.data.block output.data.offset
          (total (log.map slot)) := by
  have hm := hb.maxSglSegs_pos
  obtain ⟨size, hcall, hsize⟩ := h.call_eq
  have hrem := h.length_remaining
  rw [(h.exhausted (Or.inr ⟨status, hpc⟩)).1, List.length_nil] at hrem
  have hlayout := h.layout
  rw [← hrem, pendingOps, (hst.idle hpc).pending] at hlayout
  simp only [List.map_nil, List.append_nil, outputSpans, List.range_zero, pieces_nil hm]
    at hlayout
  refine ⟨?_, ?_, ?_⟩
  · have hflat := flatten_pieces hm
      (outputSpans st.cfg.decompressedSegSize.toNat output.data 0 buffers.length)
    rw [outputSpans, ← hlayout, ← outputSpans, ← List.flatMap_def] at hflat
    rw [hflat]
    exact contiguous_outputSpans output.data 0 buffers.length
  · rw [show log.map (fun job => room job.1) = (log.map Prod.fst).map room by simp, hlayout]
    exact map_room_outputSpans st.cfg buffers output.data
  · rw [hcall, Call.decompressed, hsize status hpc, h.memory_eq]
    congr 1
    rw [total, List.flatMap_map]
    rfl

/-- What a call that returns OK has done. -/
theorem work_of_success (hb : st.cfg.Bounds) (hidle : st.Idle) (hne : buffers ≠ [])
    (h : (Runs.run (step debug) (st.decompress buffers (some output)) envs).result =
      some .success) :
    let s := Runs.run (step debug) (st.decompress buffers (some output)) envs
    let jobs := (st.decompress buffers (some output)).work debug envs
    Contiguous output.data.block output.data.offset (jobs.flatMap Prod.fst) ∧
      (∀ job ∈ jobs, job.2.length ≤ room job.1) ∧
      jobs.map (fun job => room job.1) = operationRooms st.cfg buffers ∧
      s.call.decompressed s.memory =
        read (scatterAll st.memory jobs) output.data.block output.data.offset
          (total (jobs.map slot)) := by
  obtain ⟨hs, index, hd⟩ := run_decompressing hb hidle (decompress_pc_of_success hne h)
    (hidle.noFault_of_success hb (.decompress buffers (some output)) debug h)
  obtain ⟨h1, h2, h3⟩ := hd.slots hs.ordered (hs.cfg_eq ▸ hb) (result_eq_some.mp h)
  exact ⟨h1, hd.fits, hs.cfg_eq ▸ h2, h3⟩

/-- The same after other contents of memory. -/
theorem decompressed_withMemory (hb : st.cfg.Bounds) (hidle : st.Idle) (hne : buffers ≠ [])
    (h : (Runs.run (step debug) (st.decompress buffers (some output)) envs).result =
      some .success) (memory : Memory) :
    let s := Runs.run (step debug) ((st.withMemory memory).decompress buffers (some output)) envs
    let jobs := (st.decompress buffers (some output)).work debug envs
    s.result = some .success ∧ s.call.decompressed s.memory =
      read (scatterAll memory jobs) output.data.block output.data.offset
        (total (jobs.map slot)) := by
  have hstart : (st.withMemory memory).decompress buffers (some output) =
      (st.decompress buffers (some output)).withMemory memory := rfl
  have hwork : ((st.withMemory memory).decompress buffers (some output)).work debug envs =
      (st.decompress buffers (some output)).work debug envs :=
    collect_completed_withMemory debug (st.decompress buffers (some output)) memory envs
  have hres : (Runs.run (step debug)
      ((st.withMemory memory).decompress buffers (some output)) envs).result = some .success := by
    obtain ⟨memory', hrun⟩ :=
      run_withMemory debug (st.decompress buffers (some output)) memory envs
    rw [hstart, hrun]
    exact h
  have hidle' : (st.withMemory memory).Idle := ⟨hidle.pending, hidle.numOpsAssembled, hidle.queue⟩
  have hb' : (st.withMemory memory).cfg.Bounds := hb
  obtain ⟨-, -, -, hread⟩ := work_of_success hb' hidle' hne hres
  rw [hwork] at hread
  exact ⟨hres, hread⟩

/-- **The output of `Decompress`.**  In a call that returns OK, the first
`size()` bytes of the output are what the operations produced, in order and
whatever the buffer held before, if and only if every operation that a
productive one follows fills its place. -/
theorem decompress_output (hcfg : Accepted st.cfg) (hidle : st.Idle) (hne : buffers ≠ [])
    (h : (Runs.run (step debug) (st.decompress buffers (some output)) envs).result =
      some .success) :
    (∀ old : List UInt8,
      let s := Runs.run (step debug)
        ((st.withMemory (write st.memory output.data.block output.data.offset old)).decompress
          buffers (some output)) envs
      s.result = some .success ∧
      s.call.decompressed s.memory =
        (outputs debug (st.decompress buffers (some output)) envs).flatten) ↔
    Filled ((operationRooms st.cfg buffers).zip
      (outputs debug (st.decompress buffers (some output)) envs)) := by
  have hb := hcfg.bounds
  have : Nontrivial UInt8 := ⟨0, 1, by decide⟩
  obtain ⟨hc, hfits, hrooms, -⟩ := work_of_success hb hidle hne h
  have hslots : ((st.decompress buffers (some output)).work debug envs).map slot =
      (operationRooms st.cfg buffers).zip
        (((st.decompress buffers (some output)).work debug envs).map Prod.snd) := by
    rw [← hrooms, List.zip_map']
    rfl
  have hother := decompressed_withMemory hb hidle hne h
  have hproduced : (((st.decompress buffers (some output)).work debug envs).map slot).flatMap
      Prod.snd = (outputs debug (st.decompress buffers (some output)) envs).flatten := by
    rw [List.flatMap_map, outputs, ← List.flatMap_def]
    rfl
  rw [outputs, ← hslots, ← forall_old_read_iff_filled _ output.data.offset hc hfits st.memory,
    hproduced]
  constructor
  · intro hall old
    rw [← (hother _).2]
    exact (hall old).2
  · intro hall old
    exact ⟨(hother _).1, (hother _).2.trans (hall old)⟩

end Calls

/-- Two compressed buffers, one burst, and what the device makes of them. -/
def sampleDecompression (first second : List UInt8) : List Env :=
  [{ bulk := ⟨some [0, 1], some [0, 1, 2, 3]⟩ },
    { numAccepted := 2 },
    { results := [⟨.success, first⟩, ⟨.success, second⟩] },
    {}]

def sampleBuffers : List Buffer :=
  [⟨⟨.host 1, 0⟩, 3⟩, ⟨⟨.host 1, 3⟩, 3⟩]

theorem decompress_output_sample :
    let st := sampleMachine 1 3
    let output : ResizableBuffer := ⟨⟨.host 0, 0⟩, 16, 0⟩
    let envs := sampleDecompression [0, 1, 2, 3, 4, 5, 6, 7] [8, 9]
    let s := Runs.run (step false)
      ((st.withMemory (write st.memory output.data.block output.data.offset
        (List.replicate 16 255))).decompress sampleBuffers (some output)) envs
    s.result = some .success ∧
    s.call.decompressed s.memory =
      (outputs false (st.decompress sampleBuffers (some output)) envs).flatten :=
  (decompress_output sampleConfig_accepted.1 (sampleMachine_idle 1 3) (by decide)
    (by decide +kernel)).mpr (by decide +kernel) (List.replicate 16 255)

/-- The first operation leaves five bytes of its place as they were. -/
theorem decompress_output_gap :
    let st := sampleMachine 1 3
    let start := st.decompress sampleBuffers (some ⟨⟨.host 0, 0⟩, 16, 0⟩)
    let envs := sampleDecompression [1, 2, 3] [4, 5]
    let s := Runs.run (step false) start envs
    Accepted st.cfg ∧ st.Idle ∧ s.result = some .success ∧
      s.call.decompressed s.memory = [1, 2, 3, 3, 4] ∧
      (outputs false start envs).flatten = [1, 2, 3, 4, 5] :=
  ⟨sampleConfig_accepted.1, sampleMachine_idle 1 3, by decide +kernel⟩

end Machine

end Bitar
