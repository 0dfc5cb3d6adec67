import Bitar.Episodes
import Bitar.RoundTrip

/-!
# The output of calls that run at the same time

What `Compress` returns on one queue pair does not depend on what happens on the
others, and the buffers keep their contents until somebody recycles them.

**Results.**
* `Compressing.disturbed`: the invariant of `Compress` is stable.
* `concurrent_compress`: the vector that `Compress` returns amid other calls.
-/

namespace Bitar

open BlockStore Pieces

namespace Machine

variable {st st' : Machine} {enc : List UInt8 → List UInt8}

/-- The guard lets a call pass on a started device only. -/
theorem ready_of_guard (h : st.guardStatus.code = .ok) : st.Ready := by
  unfold guardStatus entryGuard at h
  by_cases hrank : st.state.rank < DeviceState.started.rank
  · rw [if_pos hrank] at h
    cases h
  · rw [if_neg hrank] at h
    by_cases hle : st.numQps ≤ st.queuePairId
    · rw [if_pos hle] at h
      cases h
    · refine ⟨?_, Nat.not_le.mp hle⟩
      cases hstate : st.state with
      | started => rfl
      | undefined => simp [hstate, DeviceState.rank] at hrank
      | configured => simp [hstate, DeviceState.rank] at hrank

/-- A call of `Compress` that goes on is one on a queue pair that is ready; one
that returns OK at once has nothing to compress. -/
theorem compress_cases (st : Machine) (input : Buffer) :
    ((st.compress (some input)).result = none → st.Ready ∧ 0 < input.size) ∧
    ((st.compress (some input)).result = some .success → input.size = 0) := by
  by_cases hsize : input.size = 0
  · exact ⟨fun h => by simp [compress, hsize, result] at h, fun _ => hsize⟩
  · by_cases hguard : st.guardStatus.code = .ok
    · exact ⟨fun _ => ⟨ready_of_guard hguard, Nat.pos_of_ne_zero hsize⟩,
        fun h => by simp [compress, hsize, hguard, result] at h⟩
    · refine ⟨fun h => by simp [compress, hsize, hguard, result] at h, fun h => ?_⟩
      simp only [compress, hsize, hguard, result, if_false, Option.some.injEq] at h
      exact absurd (congrArg Status.code h) hguard

section Compress

variable {input : Buffer} {memory : Memory} {total : List (List UInt8)}

/-- **The invariant of `Compress` is stable.** -/
theorem Compressing.disturbed (h : Compressing enc input memory total st)
    (hnone : st.result = none) (hd : st.Disturbed st') :
    Compressing enc input memory total st' := by
  obtain ⟨offset, out, hcall⟩ := h.compress
  have hagree := hd.agree
  have hsettled := hd.settled
  rw [footprint_of_none hnone] at hagree hsettled
  have hinput : input.data.block ∈ st.call.readBlocks := by
    rw [hcall]
    exact List.mem_singleton.mpr rfl
  have hread : st'.memory input.data.block = st.memory input.data.block :=
    hagree _ (Footprint.mem_blocks.mpr (Or.inl hinput))
  have hcontents : st'.contents = st.contents := by
    unfold contents
    rw [show st'.call = st.call by rw [hd.shared]; rfl]
    apply List.map_congr_left
    intro b hb
    obtain ⟨z, hz⟩ := h.zones.buffers b hb
    refine hagree.read (Footprint.mem_blocks.mpr (Or.inr ?_)) _ _
    rw [hz]
    refine h.zones.reserves.mem_writeBlocks (List.mem_append_left _ ?_)
    exact List.mem_filterMap.mpr ⟨b, hb, by simp [Buffer.memzone, hz, memzoneAddr]⟩
  have hmem := hd.wellFormed
  have hocc := hd.occupied
  have hsize := hd.size_eq
  rw [hd.shared] at hcontents hread ⊢
  refine ⟨h.compress, ⟨hmem, h.zones.nodup, hocc, hsize, h.zones.buffers, h.zones.destinations⟩,
    h.whole, h.exhausted, fun z hz => ?_, fun i => ?_, h.todo_block, ?_⟩
  · have hzone := hsettled _ (Footprint.mem_blocks.mpr (Or.inl hinput))
    rw [hz] at hzone
    exact ⟨hzone.1, hzone.2, (h.apart z hz).2.2⟩
  · exact (congrFun hread i).trans (h.memory_eq i)
  · rw [hcontents]
    exact h.conserved

end Compress

end Machine

namespace Session

open Machine

variable {s : Session} {cfg : Configuration} {zones : Zones} {debug : Bool} {e : Episode}
  {D : Machine → Env → Prop} {enc : List UInt8 → List UInt8}

/-- The blocks that the buffers lie in. -/
def blocksOf (buffers : List Buffer) : List Block :=
  buffers.map fun buffer => buffer.data.block

/-- The queue pair when the call comes and when it has begun. -/
theorem Episode.Happens.begins (h : e.Happens D debug s) (hs : Separate cfg zones s)
    (hb : cfg.Bounds) :
    ∃ zones, Separate cfg zones (e.called debug s) ∧ Separate cfg zones (e.begun debug s) ∧
      ((e.called debug s).machineOf cfg zones e.queuePairId).Idle ∧
      (e.begun debug s).machineOf cfg zones e.queuePairId =
        ((e.called debug s).machineOf cfg zones e.queuePairId).start e.request := by
  obtain ⟨zones, hcalled⟩ := hs.run hb h.before
  obtain ⟨hmoved, hlane⟩ := hcalled.call h.call.1 h.call.2
  obtain ⟨opPool, mbufPool, hin⟩ := hcalled.inService.inOrder e.queuePairId
  have hmachine := machine_eq hcalled.inService.configuration_eq hcalled.inService.zones_eq
    e.queuePairId
  obtain ⟨status, hstatus⟩ := Option.ne_none_iff_exists'.mp (h.call.1 _ hmachine)
  exact ⟨zones, hcalled, hmoved.separate, hin.ordered.idle (result_eq_some.mp hstatus), hlane⟩

/-- A call that returns at once ends its episode. -/
theorem Episode.Happens.answered_eq (h : e.Happens D debug s)
    (hbegun : InService cfg zones (e.begun debug s)) {status : Status}
    (hres : ((e.begun debug s).machineOf cfg zones e.queuePairId).result = some status) :
    e.answered debug s = e.begun debug s := by
  have hduring := h.during
  unfold Episode.answered
  cases hevents : e.during with
  | nil => rfl
  | cons event events =>
      rw [hevents] at hduring
      have hmachine := machine_eq hbegun.configuration_eq hbegun.zones_eq e.queuePairId
      have hnone := (hduring.1.2 _ hmachine).1
      rw [hres] at hnone
      cases hnone

/-- The emitted buffers lie in blocks that the call writes. -/
theorem Party.blocksOf_emitted {queuePairId : Nat} (h : Party cfg zones s queuePairId) :
    ∀ b ∈ blocksOf (s.lanes queuePairId).call.emitted,
      b ∈ (s.machineOf cfg zones queuePairId).writeBlocks := by
  intro b hb
  obtain ⟨buffer, hbuffer, rfl⟩ := List.mem_map.mp hb
  obtain ⟨z, hz⟩ := h.reserves.buffers buffer hbuffer
  rw [hz]
  refine h.reserves.mem_writeBlocks (List.mem_append_left _ ?_)
  exact List.mem_filterMap.mpr ⟨buffer, hbuffer, by simp [Buffer.memzone, hz, memzoneAddr]⟩

/-- What a call has written stays as it is when the call has returned. -/
theorem Party.held {queuePairId : Nat} (h : Party cfg zones s queuePairId) {status : Status}
    (hpc : (s.lanes queuePairId).pc = .returned status) {blocks : List Block}
    (hblocks : ∀ b ∈ blocks, b ∈ (s.machineOf cfg zones queuePairId).writeBlocks) :
    Held blocks s.memory cfg zones s := by
  refine ⟨.refl _ _, fun b hb => h.settled_writes b (hblocks b hb), fun other b hw hb => ?_⟩
  by_cases hne : other = queuePairId
  · subst hne
    rw [footprint_of_returned (show (s.machineOf cfg zones other).pc = _ from hpc)] at hw
    cases hw
  · exact h.unshared b (hblocks b hb) other hne (Footprint.mem_blocks.mpr (Or.inr hw))

/-- What a call of `Compress` still has to do, or has done with streams that fit. -/
def Compresses (enc : List UInt8 → List UInt8) (cfg : Configuration) (input : Buffer)
    (memory : Memory) (st : Machine) : Prop :=
  Compressing enc input memory ((cfg.blocks (input.bytes memory)).flatMap fun block =>
      pieces cfg.segLen (enc block)) st ∧
    ∀ spans ∈ pieces cfg.maxSglSegs.toNat (inputSpans cfg.decompressedSegSize.toNat input 0),
      spans ∈ st.todo ∨ (enc (gather memory spans)).length ≤ spans.length * cfg.segLen

theorem compresses_start {st : Machine} (hb : st.cfg.Bounds) (hready : st.Ready)
    (hidle : st.Idle) (hwf : st.zones.WellFormed st.cfg.compressedSegSize) {input : Buffer}
    (hinput : 0 < input.size) (hsettled : st.zones.Settled input.data.block) :
    Compresses enc st.cfg input st.memory (st.compress (some input)) := by
  refine ⟨compressing_start enc hb hready hidle hwf hinput fun z hz => ?_, fun spans hspans => ?_⟩
  · rw [hz] at hsettled
    exact hsettled
  · left
    unfold todo
    simpa [pendingOps, compress, hidle.pending, remaining, Call.remaining] using hspans

theorem Compresses.own {input : Buffer} {memory : Memory} (hb : cfg.Bounds)
    {st st' : Machine} {env : Env} (hcfg : st.cfg = cfg) (hadvances : st.Advances debug env st')
    (henc : Encodes enc st env) (h : Compresses enc cfg input memory st) :
    Compresses enc cfg input memory st' := by
  subst hcfg
  obtain ⟨hc, hfits⟩ := h
  obtain ⟨hst, -, -, hcont⟩ := hadvances
  refine ⟨hc.continues hst hb henc hcont, fun spans hspans => ?_⟩
  have hnext := hc.fits_continues hst hb henc hcont (hfits spans hspans)
  rwa [hcont.cfg_eq hst] at hnext

theorem Compresses.stable {input : Buffer} {memory : Memory} {st st' : Machine}
    (hnone : st.result = none) (h : Compresses enc cfg input memory st) (hd : st.Disturbed st') :
    Compresses enc cfg input memory st' := by
  have htodo : st'.todo = st.todo := by
    rw [hd.shared]
    rfl
  refine ⟨h.1.disturbed hnone hd, fun spans hspans => ?_⟩
  rw [htodo]
  exact h.2 spans hspans

/-- When the call has returned, everything is done. -/
theorem Compresses.returned {input : Buffer} {memory : Memory} {st : Machine}
    (h : Compresses enc cfg input memory st) (hcfg : st.cfg = cfg) (hst : st.Ordered)
    (hb : cfg.Bounds) {status : Status} (hpc : st.pc = .returned status) :
    st.contents = (cfg.blocks (input.bytes memory)).flatMap
        (fun block => pieces cfg.segLen (enc block)) ∧
      ∀ block ∈ cfg.blocks (input.bytes memory),
        (enc block).length ≤ count cfg.decompressedSegSize.toNat block.length * cfg.segLen := by
  subst hcfg
  obtain ⟨hc, hfits⟩ := h
  obtain ⟨-, hnil, hcontents⟩ := hc.returned hst hb hpc
  refine ⟨hcontents, fun block hblock => ?_⟩
  obtain ⟨spans, hspans, rfl, hlen⟩ :=
    exists_spans_of_block hb.maxSglSegs_pos hb.segSize_pos memory input hblock
  have hfit := hfits spans hspans
  rw [hnil] at hfit
  rw [← hlen]
  exact hfit.resolve_left List.not_mem_nil

/-- What a call of `Compress` has returned, amid everything else. -/
theorem Episode.Happens.compressed (h : e.Happens (Encodes enc) debug s)
    (hs : Separate cfg zones s) (hb : cfg.Bounds) {input : Buffer}
    (hrequest : e.request = .compress (some input)) :
    ∃ later, Separate cfg later (e.answered debug s) ∧
      Held (blocksOf (e.call debug s).emitted) (e.answered debug s).memory cfg later
        (e.answered debug s) ∧
      (e.call debug s).emitted.map (fun b => b.bytes (e.answered debug s).memory) =
        (cfg.blocks (input.bytes (e.called debug s).memory)).flatMap
          (fun block => pieces cfg.segLen (enc block)) ∧
      ∀ block ∈ cfg.blocks (input.bytes (e.called debug s).memory),
        (enc block).length ≤ count cfg.decompressedSegSize.toNat block.length * cfg.segLen := by
  obtain ⟨zones, hcalled, hbegun, hidle, hlane⟩ := h.begins hs hb
  rw [hrequest] at hlane
  obtain ⟨hgoes, hempty⟩ :=
    compress_cases ((e.called debug s).machineOf cfg zones e.queuePairId) input
  change (e.begun debug s).machineOf cfg zones e.queuePairId =
    ((e.called debug s).machineOf cfg zones e.queuePairId).compress (some input) at hlane
  rw [← hlane] at hgoes hempty
  have hsuccess := h.success
  cases hres : ((e.begun debug s).machineOf cfg zones e.queuePairId).result with
  | some status =>
      -- there was nothing to compress
      have hanswered := h.answered_eq hbegun.inService hres
      rw [hanswered] at hsuccess
      have hsize := hempty (result_eq_some.mpr hsuccess)
      have hemitted : (e.call debug s).emitted = [] := by
        have hcall := congrArg (fun st : Machine => st.call.emitted) hlane
        rw [Episode.call, hanswered]
        exact hcall
      have hblocks : cfg.blocks (input.bytes (e.called debug s).memory) = [] := by
        rw [Configuration.blocks, Buffer.bytes, hsize]
        exact pieces_nil hb.blockSize_pos
      rw [hemitted, hblocks, hanswered]
      exact ⟨zones, hbegun, ⟨.refl _ _, by simp [blocksOf], by simp [blocksOf]⟩, rfl, by simp⟩
  | none =>
      obtain ⟨hready, hinput⟩ := hgoes hres
      have hparty := hbegun.party e.queuePairId hres
      have hsettled : zones.Settled input.data.block := by
        apply hparty.settled_reads
        rw [hlane]
        exact List.mem_singleton.mpr rfl
      have hstart : Compresses enc cfg input (e.called debug s).memory
          ((e.begun debug s).machineOf cfg zones e.queuePairId) := by
        rw [hlane]
        exact compresses_start hb hready hidle hcalled.inService.wellFormed hinput hsettled
      obtain ⟨later, hanswered, hparty', hj⟩ := hbegun.lane hb
        (fun st st' env hcfg _ hadvances henc hj => hj.own hb hcfg hadvances henc)
        (fun st st' hnone hj hd => hj.stable hnone hd) hparty hstart h.during
      obtain ⟨opPool, mbufPool, hin⟩ := hanswered.inService.inOrder e.queuePairId
      obtain ⟨hcontents, hfits⟩ := hj.returned rfl hin.ordered hb hsuccess
      exact ⟨later, hanswered, hparty'.held hsuccess hparty'.blocksOf_emitted, hcontents, hfits⟩

/-- **The result of `Compress` amid other calls.**  Whatever happens on the other
queue pairs and whatever is recycled meanwhile, the buffers hold what the device
makes of the blocks of the input; and they still do later on, as long as nobody
recycles them or has `Decompress` write to them. -/
theorem concurrent_compress (hrest : AtRest cfg zones s)
    (h : e.Happens (Encodes enc) debug s) {input : Buffer}
    (hrequest : e.request = .compress (some input)) {after : List Event}
    (hafter : Runs.Along (act debug) (fun now event => now.Orderly debug event ∧
      now.Keeps (blocksOf (e.call debug s).emitted) event) (e.answered debug s) after) :
    (e.call debug s).emitted.map
        (fun b => b.bytes (Runs.run (act debug) (e.answered debug s) after).memory) =
      (cfg.blocks (input.bytes (e.called debug s).memory)).flatMap fun block =>
        pieces cfg.segLen (enc block) := by
  have hb := hrest.accepted.bounds
  obtain ⟨zones, hanswered, hheld, hcontents, -⟩ := h.compressed hrest.separate hb hrequest
  obtain ⟨later, -, hlater⟩ := hheld.run hanswered hb hafter
  rw [← hcontents]
  apply List.map_congr_left
  intro b hb'
  exact hlater.agree.read (List.mem_map_of_mem (f := fun buffer : Buffer => buffer.data.block) hb')
    _ _

/-- `Compress` on twelve bytes through queue pair 0, while queue pair 1 compresses
eight others. -/
def sampleEpisode : Episode where
  before := []
  queuePairId := 0
  request := .compress (some (sampleInput 12))
  during :=
    [.step 0 { bulk := ⟨some [0, 1], some [0, 1, 2, 3]⟩ },
      .call 1 (.compress (some ⟨⟨.host 1, 0⟩, 8⟩)),
      .step 1 { bulk := ⟨some [0], some [0, 1]⟩ },
      .step 0 { numAccepted := 2 },
      .step 1 { numAccepted := 1 },
      .step 0 { results := [⟨.success, sampleStream (sampleBytes 0 8)⟩,
        ⟨.success, sampleStream (sampleBytes 8 4)⟩] },
      .step 0 {}]

theorem sampleEpisode_happens :
    sampleEpisode.Happens (Encodes sampleStream) true sampleService :=
  ⟨trivial, by decide +kernel, by decide +kernel, by decide +kernel⟩

/-- Queue pair 1 returns, and its buffer is recycled. -/
def sampleAfterwards : List Event :=
  [.step 1 { results := [⟨.success, sampleStream (sampleBytes 0 8)⟩] },
    .step 1 {},
    .recycle [⟨memzoneAddr 2, 17⟩]]

theorem concurrent_compress_sample :
    (sampleEpisode.call true sampleService).emitted.map
        (fun b => b.bytes (Runs.run (act true) (sampleEpisode.answered true sampleService)
          sampleAfterwards).memory) =
      [sampleStream (sampleBytes 0 8), sampleStream (sampleBytes 8 4)] :=
  (concurrent_compress sampleService_atRest sampleEpisode_happens rfl
    (by decide +kernel)).trans (by decide +kernel)

end Session

end Bitar
