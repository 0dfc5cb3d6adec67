import Bitar.ConcurrentOutput

/-!
# Round trips amid other calls

A call of `Decompress` looks at the blocks that it reads and writes, and so does
the device on its behalf.  In the presence of other calls it takes the steps that
it would take on a memory of its own, its view, which agrees with the memory on
these blocks.

**Results.**
* `Viewed.advances`: the steps of a call and those on its view.
* `concurrent_round_trip`: the round trip amid other calls succeeds if and only
  if the cuts agree.
-/

namespace Bitar

open BlockStore Pieces

namespace Machine

variable {st st' : Machine} {env : Env} {debug : Bool} {view : Memory}
  {enc : List UInt8 → List UInt8}

/-- The blocks that the call touches, also after it has returned. -/
def touched (st : Machine) : List Block :=
  st.call.readBlocks ++ st.writeBlocks

/-- The memory, as far as the call is concerned. -/
def Viewed (view : Memory) (st : Machine) : Prop :=
  Agree st.touched view st.memory

theorem noFault_withMemory (st : Machine) (memory : Memory) (env : Env) :
    (st.withMemory memory).NoFault env ↔ st.NoFault env := by
  unfold NoFault
  rw [withMemory_pc]
  cases st.pc with
  | assemble => rw [assembleFrom_withMemory]
  | _ => exact Iff.rfl

theorem Ordered.withMemory (h : st.Ordered) (memory : Memory) : (st.withMemory memory).Ordered := by
  obtain ⟨h1, h2, h3, h4, h5, h6, h7, h8⟩ := h
  exact ⟨h1, h2, h3, h4, h5, h6, h7, h8⟩

/-- A call of `Decompress` touches the same blocks all the time. -/
theorem Continues.touched_eq (hstep : Continues st env st') (hst : st.Ordered) {block : Block}
    (hout : st.call.outputBlock = some block) : st'.touched = st.touched := by
  rw [touched, touched, writeBlocks, writeBlocks, hstep.readBlocks_eq hst,
    hstep.outputBlock_eq hst, hout]

/-- **The steps of `Decompress` on its view.** -/
theorem Viewed.advances (h : st.Viewed view) (hb : st.cfg.Bounds)
    (hadvances : st.Advances debug env st') {block : Block}
    (hout : st.call.outputBlock = some block) :
    ∃ later, st'.Viewed later ∧
      Continues (st.withMemory view) env (st'.withMemory later) := by
  obtain ⟨hst, hnf, rfl, hcont⟩ := hadvances
  have hst' := hst.withMemory view
  have hcont' : Continues (st.withMemory view) env (step debug (st.withMemory view) env) := by
    rcases @step_cases (st.withMemory view) hb hst' debug env with ⟨-, hc⟩ | ⟨hf, -⟩
    · exact hc
    · exact absurd ((noFault_withMemory st view env).mpr hnf) hf
  have hmemory := hcont'.memory_eq hst'
  obtain ⟨later, hlater⟩ := st.step_withMemory view env debug
  rw [hlater] at hcont' hmemory
  refine ⟨later, ?_, hcont'⟩
  rw [Viewed, hcont.touched_eq hst hout, hcont.memory_eq hst,
    show later = scatterAll view (st.completed env) from hmemory]
  exact Agree.scatterAll h _

/-- What the device is given to read is in the view. -/
theorem Viewed.decodes (h : st.Viewed view) (hst : st.Ordered) (htargeted : st.Targeted)
    (hwhole : ∀ op ∈ st.pendingOps, op.Whole .decompress) (hdec : st.Decodes enc env) :
    (st.withMemory view).Decodes enc env := by
  intro hpc p hp x rest hsource hroom
  refine hdec hpc p hp x rest ?_ hroom
  have hop := finished_mem hst hp
  have hspans : (st.qp.ops p.1).sourceSpans ∈ st.todo :=
    List.mem_append_left _ (List.mem_map_of_mem hop)
  have hw := hwhole _ hop
  change (st.qp.ops p.1).source view = enc x ++ rest at hsource
  rw [hw.source_eq] at hsource ⊢
  rw [← hsource]
  exact Agree.gather h fun sp hsp =>
    List.mem_append_left _ (htargeted.sources _ hspans sp hsp)

theorem Viewed.disturbed (h : st.Viewed view) (hnone : st.result = none) (hd : st.Disturbed st') :
    st'.Viewed view := by
  have hagree := hd.agree
  rw [footprint_of_none hnone] at hagree
  have hsame : st'.touched = st.touched := by
    rw [hd.shared]
    rfl
  rw [Viewed, hsame]
  intro b hb
  rw [hagree b hb]
  exact h b hb

/-- A call of `Decompress` that goes on has something to decompress; one that
returns OK at once does not. -/
theorem decompress_cases (st : Machine) (buffers : List Buffer) (output : ResizableBuffer) :
    ((st.decompress buffers (some output)).result = none →
      (st.decompress buffers (some output)).pc = .assemble) ∧
    ((st.decompress buffers (some output)).result = some .success → buffers = []) := by
  refine ⟨fun h => ?_, fun h => ?_⟩
  · rcases st.start_pc (.decompress buffers (some output)) with hpc | ⟨status, hpc⟩
    · exact hpc
    · have hres := result_eq_some.mpr hpc
      change (st.decompress buffers (some output)).result = some status at hres
      rw [h] at hres
      cases hres
  · by_contra hne
    simp only [decompress, hne, result, if_false] at h
    split_ifs at h with hcapacity hguard
    all_goals simp only [Option.some.injEq] at h
    · exact absurd (congrArg Status.code h) (by simp [Status.success])
    · exact absurd (congrArg Status.code h) hguard

end Machine

namespace Session

open Machine

variable {s : Session} {cfg : Configuration} {zones : Zones} {debug : Bool} {e : Episode}
  {enc : List UInt8 → List UInt8} {input : List UInt8} {buffers : List Buffer}
  {output : ResizableBuffer} {memory : Memory}

/-- What a call of `Decompress` on the streams of the blocks of `input` has done. -/
def Decompresses (enc : List UInt8 → List UInt8) (cfg : Configuration) (input : List UInt8)
    (buffers : List Buffer) (output : ResizableBuffer) (memory : Memory) (st : Machine) : Prop :=
  ∃ view log index, st.Viewed view ∧
    Decompressing buffers output memory log index (st.withMemory view) ∧
    (CutsAgree cfg enc input →
      Decoding enc (cfg.blocks input) output memory log (st.withMemory view))

theorem Decompresses.own (hb : cfg.Bounds)
    (hrooms : CutsAgree cfg enc input → HasRoom cfg buffers (cfg.blocks input))
    {st st' : Machine} {env : Env} (hcfg : st.cfg = cfg) (htargeted : st.Targeted)
    (hadvances : st.Advances debug env st') (hdec : Decodes enc st env)
    (h : Decompresses enc cfg input buffers output memory st) :
    Decompresses enc cfg input buffers output memory st' := by
  subst hcfg
  obtain ⟨view, log, index, hview, hd, hdecoding⟩ := h
  obtain ⟨size, hcall, -⟩ := hd.call_eq
  have hout : st.call.outputBlock = some output.data.block :=
    congrArg Call.outputBlock hcall
  have hst := hadvances.ordered.withMemory view
  have hcfg' : st'.cfg = st.cfg := hadvances.continues.cfg_eq hadvances.ordered
  obtain ⟨later, hlater, hcont⟩ := hview.advances hb hadvances hout
  obtain ⟨index', hd'⟩ := hd.continues hst hb hcont
  refine ⟨later, _, index', hlater, hd', fun hagree => ?_⟩
  have hnow := hdecoding hagree
  exact hnow.continues hd hst hb (hrooms hagree)
    (hview.decodes hadvances.ordered htargeted hnow.whole hdec) hcont

theorem Decompresses.stable {st st' : Machine} (hnone : st.result = none)
    (h : Decompresses enc cfg input buffers output memory st) (hd : st.Disturbed st') :
    Decompresses enc cfg input buffers output memory st' := by
  obtain ⟨view, log, index, hview, hdec, hdecoding⟩ := h
  refine ⟨view, log, index, hview.disturbed hnone hd, ?_, fun hagree => ?_⟩
  · rw [hd.shared]
    obtain ⟨h1, h2, h3, h4, h5, h6⟩ := hdec
    exact ⟨h1, h2, h3, h4, h5, h6⟩
  · rw [hd.shared]
    obtain ⟨h1, h2, h3, h4⟩ := hdecoding hagree
    exact ⟨h1, h2, h3, h4⟩

/-- What the call has returned. -/
theorem Decompresses.returned {st : Machine}
    (h : Decompresses enc cfg input buffers output memory st) (hcfg : st.cfg = cfg)
    (hst : st.Ordered) (hb : cfg.Bounds) {status : Status} (hpc : st.pc = .returned status)
    (hbytes : buffers.map (fun b => b.bytes memory) =
      (cfg.blocks input).flatMap fun block => pieces cfg.segLen (enc block)) :
    (st.call.decompressed st.memory).length ≤
        buffers.length * cfg.decompressedSegSize.toNat ∧
      (CutsAgree cfg enc input → st.call.decompressed st.memory = input) := by
  subst hcfg
  obtain ⟨view, log, index, hview, hd, hdecoding⟩ := h
  have hst' := hst.withMemory view
  have hsame : st.call.decompressed st.memory = st.call.decompressed view := by
    obtain ⟨size, hcall, -⟩ := hd.call_eq
    have hmine : output.data.block ∈ st.touched := by
      refine List.mem_append_right _ ?_
      rw [writeBlocks, show st.call.outputBlock = some output.data.block from
        congrArg Call.outputBlock hcall]
      exact List.mem_singleton.mpr rfl
    have hcall' : st.call = _ := hcall
    rw [hcall', Call.decompressed, Call.decompressed]
    exact hview.read hmine _ _
  rw [hsame]
  refine ⟨?_, fun hagree => ?_⟩
  · obtain ⟨-, hrooms, hread⟩ := hd.slots hst' hb hpc
    change st.call.decompressed view = _ at hread
    rw [hread, length_read, total, ← sum_operationRooms hb, ← show _ = operationRooms st.cfg buffers
      from hrooms, List.flatMap_map, List.length_flatMap]
    exact List.sum_le_sum hd.fits
  · exact ((hdecoding hagree).decompressed hd hst' hb hagree hbytes hpc).2

theorem decompresses_start {st : Machine} (hb : st.cfg.Bounds) (hidle : st.Idle)
    (hpc : (st.decompress buffers (some output)).pc = .assemble)
    (hbytes : buffers.map (fun b => b.bytes st.memory) =
      (st.cfg.blocks input).flatMap fun block => pieces st.cfg.segLen (enc block))
    (hplace : ∀ b ∈ buffers, b.data.block ≠ output.data.block) :
    Decompresses enc st.cfg input buffers output st.memory (st.decompress buffers (some output)) :=
  ⟨st.memory, [], 0, .refl _ _, decompressing_start hidle hpc,
    fun hagree => decoding_start hb hidle hagree hbytes hplace⟩

/-- What a call of `Decompress` has returned, amid everything else. -/
theorem Episode.Happens.decompressed (h : e.Happens (Decodes enc) debug s)
    (hs : Separate cfg zones s) (hb : cfg.Bounds)
    (hrequest : e.request = .decompress buffers (some output)) (hne : buffers ≠ [])
    (hbytes : buffers.map (fun b => b.bytes (e.called debug s).memory) =
      (cfg.blocks input).flatMap fun block => pieces cfg.segLen (enc block)) :
    ((e.call debug s).decompressed (e.answered debug s).memory).length ≤
        buffers.length * cfg.decompressedSegSize.toNat ∧
      (CutsAgree cfg enc input →
        (e.call debug s).decompressed (e.answered debug s).memory = input) := by
  obtain ⟨zones, hcalled, hbegun, hidle, hlane⟩ := h.begins hs hb
  rw [hrequest] at hlane
  obtain ⟨hgoes, hempty⟩ :=
    decompress_cases ((e.called debug s).machineOf cfg zones e.queuePairId) buffers output
  change (e.begun debug s).machineOf cfg zones e.queuePairId =
    ((e.called debug s).machineOf cfg zones e.queuePairId).decompress buffers (some output) at hlane
  have hsuccess := h.success
  cases hres : ((e.begun debug s).machineOf cfg zones e.queuePairId).result with
  | some status =>
      rw [h.answered_eq hbegun.inService hres] at hsuccess
      exact absurd (hempty (hlane ▸ result_eq_some.mpr hsuccess)) hne
  | none =>
      have hparty := hbegun.party e.queuePairId hres
      have hpc := hgoes (hlane ▸ hres)
      have hplace : ∀ b ∈ buffers, b.data.block ≠ output.data.block := by
        intro b hb' he
        have hapart := hparty.apart
        rw [hlane] at hapart
        exact hapart _ (List.mem_singleton.mpr rfl) (he ▸ List.mem_map_of_mem
          (f := fun buffer : Buffer => buffer.data.block) hb')
      have hstart : Decompresses enc cfg input buffers output (e.called debug s).memory
          ((e.begun debug s).machineOf cfg zones e.queuePairId) := by
        rw [hlane]
        exact decompresses_start hb hidle hpc hbytes hplace
      obtain ⟨later, hanswered, -, hj⟩ := hbegun.lane hb
        (fun st st' env hcfg htargeted hadvances hdec hj => hj.own hb
          (fun hagree => hasRoom_of_cutsAgree hb hagree hbytes) hcfg htargeted hadvances hdec)
        (fun st st' hnone hj hd => hj.stable hnone hd) hparty hstart h.during
      obtain ⟨opPool, mbufPool, hin⟩ := hanswered.inService.inOrder e.queuePairId
      exact hj.returned rfl hin.ordered hb hsuccess hbytes

/-- **The round trip amid other calls.**  `Compress` returns the buffers `v` on one
queue pair; later on `Decompress` returns OK for them, on the same or another
queue pair.  All the time there are other calls, and vectors are recycled, but
nobody touches `v` in between.  The output is the input if and only if the stream
of every block of the input occupies as many segments as the block. -/
theorem concurrent_round_trip (hself : SelfDelimiting enc) (hrest : AtRest cfg zones s)
    (h : e.Happens (Encodes enc) debug s) {input : Buffer}
    (hrequest : e.request = .compress (some input)) (hinput : 0 < input.size)
    {v : List Buffer} (hv : v = (e.call debug s).emitted) {e' : Episode}
    (hkept : Runs.Along (act debug) (Keeps (blocksOf v)) (e.answered debug s) e'.before)
    (h' : e'.Happens (Decodes enc) debug (e.answered debug s))
    (hrequest' : e'.request = .decompress v (some output)) :
    (e'.call debug (e.answered debug s)).decompressed
        (e'.answered debug (e.answered debug s)).memory =
      input.bytes (e.called debug s).memory ↔
    CutsAgree cfg enc (input.bytes (e.called debug s).memory) := by
  have hb := hrest.accepted.bounds
  obtain ⟨zones, hanswered, hheld, hcontents, hfits⟩ := h.compressed hrest.separate hb hrequest
  rw [← hv] at hheld hcontents
  obtain ⟨later, -, hcalled⟩ := hheld.run hanswered hb (h'.before.and hkept)
  have hbytes : v.map (fun b => b.bytes (e'.called debug (e.answered debug s)).memory) =
      (cfg.blocks (input.bytes (e.called debug s).memory)).flatMap fun block =>
        pieces cfg.segLen (enc block) := by
    rw [← hcontents]
    apply List.map_congr_left
    intro b hb'
    exact hcalled.agree.read
      (List.mem_map_of_mem (f := fun buffer : Buffer => buffer.data.block) hb') _ _
  have hinputBytes : input.bytes (e.called debug s).memory ≠ [] := by
    rw [← List.length_pos_iff]
    simpa [Buffer.bytes] using hinput
  have hne : v ≠ [] := by
    rintro rfl
    exact streams_ne_nil hself hb hinputBytes hbytes.symm
  obtain ⟨hle, hrecovers⟩ := h'.decompressed hanswered hb hrequest' hne hbytes
  refine ⟨fun he => cutsAgree_of_le hb hfits ?_, hrecovers⟩
  rwa [he, ← List.length_map (f := fun b : Buffer =>
    b.bytes (e'.called debug (e.answered debug s)).memory), hbytes] at hle

theorem Episode.Happens.mono {D D' : Machine → Env → Prop} (h : e.Happens D debug s)
    (himp : ∀ st env, D st env → D' st env) : e.Happens D' debug s :=
  ⟨h.before, h.call, h.during.imp fun _ _ hd =>
    ⟨hd.1, fun st hst => ⟨(hd.2 st hst).1, fun env henv => himp _ _ ((hd.2 st hst).2 env henv)⟩⟩,
    h.success⟩

/-- The twelve bytes are decompressed through queue pair 1, while queue pair 0
compresses eight others. -/
def sampleReply : Episode where
  before := sampleAfterwards
  queuePairId := 1
  request := .decompress (sampleEpisode.call true sampleService).emitted (some (sampleOutput 16))
  during :=
    [.step 1 { bulk := ⟨some [0, 1], some [0, 1, 2, 3]⟩ },
      .call 0 (.compress (some ⟨⟨.host 1, 0⟩, 8⟩)),
      .step 0 { bulk := ⟨some [0], some [0, 1]⟩ },
      .step 1 { numAccepted := 2 },
      .step 0 { numAccepted := 1 },
      .step 0 { results := [⟨.success, [7]⟩] },
      .step 1 { results := [⟨.success, sampleBytes 0 8⟩, ⟨.success, sampleBytes 8 4⟩] },
      .step 1 {}]

theorem sampleReply_happens :
    sampleReply.Happens (Decodes sampleStream) true (sampleEpisode.answered true sampleService) :=
  Episode.Happens.mono (D := SampleDecodes)
    ⟨by decide +kernel, by decide +kernel, by decide +kernel, by decide +kernel⟩
    fun _ _ h => h.decodes

theorem concurrent_round_trip_sample :
    (sampleReply.call true (sampleEpisode.answered true sampleService)).decompressed
      (sampleReply.answered true (sampleEpisode.answered true sampleService)).memory =
        sampleBytes 0 12 :=
  ((concurrent_round_trip sampleStream_selfDelimiting sampleService_atRest sampleEpisode_happens
    rfl (by decide) rfl (by decide +kernel) sampleReply_happens rfl).mpr
      (by unfold CutsAgree; decide +kernel)).trans (by decide +kernel)

end Session

end Bitar
