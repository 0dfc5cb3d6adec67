import Bitar.CompressRounds

/-!
# A round of decompression on one device

Each of the first `n` queue pairs of a device is given one result of `Compress` to
decompress into an output of its own.

**Results.**
* `cutsAgree_of_fits`: operations with one segment each.
* `DecompressRound.call`, `DecompressRound.step`: the step lemmas of a round.
* `DecompressRound.elsewhere`: work on the other devices.
* `DecompressRound.holding`: what a round leaves behind.
-/

namespace Bitar

open BlockStore Pieces

/-- With one segment for each operation the cuts agree as soon as the streams fit. -/
theorem cutsAgree_of_fits {cfg : Configuration} {enc : List UInt8 → List UInt8}
    {input : List UInt8} (hb : cfg.Bounds) (hself : SelfDelimiting enc)
    (hone : cfg.maxSglSegs.toNat = 1) (hfits : cfg.Fits enc input) : CutsAgree cfg enc input := by
  intro block hblock
  have hmem : block ∈ pieces (cfg.maxSglSegs.toNat * cfg.decompressedSegSize.toNat) input := hblock
  obtain ⟨hpos, hle⟩ := length_of_mem_pieces hb.blockSize_pos hmem
  rw [hone] at hle
  have hcount : count cfg.decompressedSegSize.toNat block.length = 1 := by
    have h1 := count_pos hb.segSize_pos hpos
    have h2 := (count_le_iff hb.segSize_pos).mpr hle
    omega
  have hfit := hfits block hblock
  rw [hcount] at hfit ⊢
  have h1 := count_pos (segLen_pos hb) (List.length_pos_iff.mpr (hself.ne_nil block))
  have h2 := (count_le_iff (segLen_pos hb)).mpr hfit
  omega

namespace Session

open Machine

variable {s : Session} {cfg : Configuration} {zones later : Zones} {debug : Bool}
  {n queuePairId : Nat} {called : Set Nat} {enc : List UInt8 → List UInt8}
  {vectors : Nat → List Buffer} {data : Nat → List UInt8} {outputs : Nat → ResizableBuffer}

/-- The blocks that a call of `Decompress` touches. -/
theorem Decompresses.blocks {input : List UInt8} {buffers : List Buffer} {output : ResizableBuffer}
    {memory : Memory} {st : Machine} (h : Decompresses enc cfg input buffers output memory st) :
    st.call.readBlocks = blocksOf buffers ∧ st.writeBlocks = [output.data.block] := by
  obtain ⟨view, log, index, -, hd, -⟩ := h
  obtain ⟨size, hcall, -⟩ := hd.call_eq
  have hcall' : st.call = _ := hcall
  rw [writeBlocks, hcall']
  exact ⟨rfl, rfl⟩

/-- The output of a call that has returned. -/
theorem Decompresses.output {input : List UInt8} {buffers : List Buffer} {output : ResizableBuffer}
    {memory : Memory} {st : Machine} (h : Decompresses enc cfg input buffers output memory st) :
    ∃ size index offset total,
      st.call = .decompress buffers { output with size := size } index offset total := by
  obtain ⟨view, log, index, -, hd, -⟩ := h
  obtain ⟨size, hcall, -⟩ := hd.call_eq
  exact ⟨size, _, _, _, hcall⟩

/-- The invariant: `data` are what the streams in `vectors` are made of. -/
structure DecompressRound (enc : List UInt8 → List UInt8) (cfg : Configuration)
    (vectors : Nat → List Buffer) (outputs : Nat → ResizableBuffer) (data : Nat → List UInt8)
    (n : Nat) (zones : Zones) (called : Set Nat) (s : Session) : Prop where
  attended : Attended cfg zones n called s
  results : ∀ q < n, Result cfg zones s (vectors q) (cfg.streams enc (data q))
  vectors_apart : ∀ p < n, ∀ q < n, p ≠ q →
    ∀ b ∈ blocksOf (vectors p), b ∉ blocksOf (vectors q)
  agree : ∀ q < n, CutsAgree cfg enc (data q)
  outputs_host : ∀ q < n, ∃ id, (outputs q).data.block = .host id
  outputs_apart : ∀ p < n, ∀ q < n, p ≠ q → (outputs p).data.block ≠ (outputs q).data.block
  capacity : ∀ q < n, (vectors q).length * cfg.decompressedSegSize.toNat ≤ (outputs q).capacity
  size_eq : ∀ q < n, vectors q = [] → data q = [] ∧ (outputs q).size = 0
  going : ∀ q ∈ called, (s.machineOf cfg zones q).result = none →
    ∃ memory, (vectors q).map (fun b => b.bytes memory) = cfg.streams enc (data q) ∧
      Decompresses enc cfg (data q) (vectors q) (outputs q) memory (s.machineOf cfg zones q)
  done : ∀ q ∈ called, ∀ status, (s.lanes q).pc = .returned status → status = .success ∧
    ∃ size index offset total,
      (s.lanes q).call = .decompress (vectors q) { outputs q with size := size } index offset
        total ∧
      Stored cfg zones s [⟨(outputs q).data, size⟩] [data q]

/-- The request of a queue pair. -/
def decompressRequest (vectors : Nat → List Buffer) (outputs : Nat → ResizableBuffer) (q : Nat) :
    Request :=
  .decompress (vectors q) (some (outputs q))

theorem Result.ne_host {v : List Buffer} {contents : List (List UInt8)}
    (h : Result cfg zones s v contents) {block : Block} (hblock : ∃ id, block = .host id) :
    block ∉ blocksOf v := by
  intro hmem
  obtain ⟨id, rfl⟩ := hblock
  obtain ⟨z, hz⟩ := h.block_memzone _ hmem
  cases hz

/-- What the calls in progress touch. -/
theorem DecompressRound.blocks (h : DecompressRound enc cfg vectors outputs data n zones called s)
    {q : Nat} {b : Block} (hmem : b ∈ (s.machineOf cfg zones q).footprint.blocks) :
    q < n ∧ (b ∈ blocksOf (vectors q) ∨ b = (outputs q).data.block) := by
  have hnone := result_of_mem_blocks hmem
  have hcalled := h.attended.called_of_none hnone
  obtain ⟨memory, -, hdec⟩ := h.going q hcalled hnone
  obtain ⟨hreads, hwrites⟩ := hdec.blocks
  rw [footprint_of_none hnone, hreads, hwrites, Footprint.mem_blocks] at hmem
  exact ⟨h.attended.lt_of_called q hcalled, hmem.imp id List.mem_singleton.mp⟩

/-- A call without buffers returns at once; the others go on. -/
theorem decompress_begins {st : Machine} (hready : st.Ready) (hidle : st.Idle)
    {buffers : List Buffer} {output : ResizableBuffer}
    (hcapacity : buffers.length * st.cfg.decompressedSegSize.toNat ≤ output.capacity) :
    ((st.decompress buffers (some output)).pc = .assemble ∧ buffers ≠ []) ∨
      ((st.decompress buffers (some output)).pc = .returned .success ∧ buffers = []) := by
  by_cases hnil : buffers = []
  · exact Or.inr ⟨by simp [decompress, hnil], hnil⟩
  · exact Or.inl ⟨decompress_pc hready hidle hnil hcapacity, hnil⟩

/-- A new call may begin. -/
theorem DecompressRound.orderly (h : DecompressRound enc cfg vectors outputs data n zones called s)
    (hq : queuePairId < n) (hnot : queuePairId ∉ called) :
    s.Orderly debug (.call queuePairId (decompressRequest vectors outputs queuePairId)) := by
  refine h.attended.separate.orderly_call (h.attended.idle queuePairId hnot) (fun b hmem => ?_)
    fun b hmem => ?_
  · have hmem' : b ∈ blocksOf (vectors queuePairId) := hmem
    have hheld := (h.results queuePairId hq).held
    exact ⟨hheld.settled b hmem', fun other hw => hheld.spared other b hw hmem'⟩
  · obtain rfl : b = (outputs queuePairId).data.block := List.mem_singleton.mp hmem
    obtain ⟨id, hid⟩ := h.outputs_host queuePairId hq
    refine ⟨hid ▸ trivial, (h.results queuePairId hq).ne_host ⟨id, hid⟩, fun other hne htouch => ?_⟩
    obtain ⟨hlt, hreads | hwrites⟩ := h.blocks htouch
    · exact (h.results other hlt).ne_host ⟨id, hid⟩ hreads
    · exact h.outputs_apart queuePairId hq other hlt (Ne.symm hne) hwrites

/-- What the new call writes. -/
theorem DecompressRound.keeps (h : DecompressRound enc cfg vectors outputs data n zones called s)
    {blocks : List Block} (hblocks : (outputs queuePairId).data.block ∉ blocks) :
    s.Keeps blocks (.call queuePairId (decompressRequest vectors outputs queuePairId)) := by
  have hs := h.attended.separate
  intro st hst b hw
  obtain rfl := Option.some.inj ((machine_eq hs.inService.configuration_eq
    hs.inService.zones_eq queuePairId).symm.trans hst)
  obtain rfl : b = (outputs queuePairId).data.block :=
    List.mem_singleton.mp (writes_subset _ b hw)
  exact hblocks

/-- **Step lemma**: a call begins. -/
theorem DecompressRound.call (h : DecompressRound enc cfg vectors outputs data n zones called s)
    (hb : cfg.Bounds) (hq : queuePairId < n) (hnot : queuePairId ∉ called) :
    DecompressRound enc cfg vectors outputs data n zones (insert queuePairId called)
      (s.act debug (.call queuePairId (decompressRequest vectors outputs queuePairId))) := by
  have hs := h.attended.separate
  have horderly := @DecompressRound.orderly s cfg zones debug n queuePairId called enc vectors data
    outputs h hq hnot
  obtain ⟨hmoved, hlane⟩ := hs.call horderly.1 horderly.2
  have hidle := h.attended.idle_machine hnot
  have hbegins := decompress_begins (h.attended.ready hq) hidle
    (show _ * (s.machineOf cfg zones queuePairId).cfg.decompressedSegSize.toNat ≤ _ from
      h.capacity queuePairId hq)
  have hlane' : (s.act debug (.call queuePairId (decompressRequest vectors outputs
      queuePairId))).machineOf cfg zones queuePairId =
        (s.machineOf cfg zones queuePairId).decompress (vectors queuePairId)
          (some (outputs queuePairId)) := hlane
  refine ⟨h.attended.moved horderly hmoved (fun q => Set.mem_insert_iff) hq,
    fun q hq' => (h.results q hq').act hs hb horderly (h.keeps ?_) hmoved.separate,
    h.vectors_apart, h.agree, h.outputs_host, h.outputs_apart, h.capacity, h.size_eq,
    fun q hcalled hnone => ?_, fun q hcalled status hpc => ?_⟩
  · exact (h.results q hq').ne_host (h.outputs_host queuePairId hq)
  · by_cases hsame : q = queuePairId
    · subst hsame
      have hresult := h.results q hq
      refine ⟨s.memory, hresult.contents_eq, ?_⟩
      rw [hlane'] at hnone ⊢
      rcases hbegins with ⟨hpc, hne⟩ | ⟨hpc, -⟩
      · exact decompresses_start hb hidle hpc hresult.contents_eq fun b hb' he =>
          hresult.ne_host (h.outputs_host q hq) (he ▸ mem_blocksOf hb')
      · rw [result_eq_some.mpr hpc] at hnone
        cases hnone
    · have hne : some q ≠ some queuePairId := by simpa using hsame
      have hnone' : (s.machineOf cfg zones q).result = none := by
        rwa [hmoved.shared q hne] at hnone
      obtain ⟨memory, hbytes, hdec⟩ :=
        h.going q (Set.mem_of_mem_insert_of_ne hcalled hsame) hnone'
      exact ⟨memory, hbytes, hdec.stable hnone' (hmoved.others q hne hnone')⟩
  · by_cases hsame : q = queuePairId
    · subst hsame
      have hpc' : ((s.machineOf cfg zones q).decompress (vectors q) (some (outputs q))).pc =
          .returned status := hlane' ▸ hpc
      rcases hbegins with ⟨hstart, -⟩ | ⟨hret, hnil⟩
      · rw [hstart] at hpc'
        cases hpc'
      · obtain ⟨hdata, hsize⟩ := h.size_eq q hq hnil
        obtain ⟨id, hid⟩ := h.outputs_host q hq
        refine ⟨Pc.returned.inj (hpc'.symm.trans hret), (outputs q).size, 0, 0, 0,
          congrArg Machine.call hlane', ⟨⟨.refl _ _, ?_, ?_⟩, ?_⟩⟩
        · intro b hb'
          obtain rfl : b = (outputs q).data.block := List.mem_singleton.mp hb'
          rw [hid]
          trivial
        · intro other b hw hb'
          -- no call in progress writes the output
          obtain rfl : b = (outputs q).data.block := List.mem_singleton.mp hb'
          by_cases hne : other = q
          · subst hne
            rw [footprint_of_returned (show (Session.machineOf _ cfg zones other).pc = _ from hpc)]
              at hw
            cases hw
          · have hother : some other ≠ some q := by simpa using hne
            rw [hmoved.shared other hother] at hw
            obtain ⟨hlt, hreads | hwrites⟩ := h.blocks (Footprint.mem_blocks.mpr (Or.inr hw))
            · exact (h.results other hlt).ne_host ⟨id, hid⟩ hreads
            · exact h.outputs_apart q hq other hlt (Ne.symm hne) hwrites
        · simp [Buffer.bytes, hsize, hdata]
    · have hne : some q ≠ some queuePairId := by simpa using hsame
      obtain ⟨hpc', hcall⟩ := hmoved.lane_eq hne
      rw [hpc'] at hpc
      rw [hcall]
      have hin := Set.mem_of_mem_insert_of_ne hcalled hsame
      obtain ⟨hok, size, index, offset, total, hqcall, hstored⟩ := h.done q hin status hpc
      refine ⟨hok, size, index, offset, total, hqcall,
        hstored.act hs hb horderly (h.keeps fun hmem => ?_) hmoved.separate⟩
      exact h.outputs_apart queuePairId hq q (h.attended.lt_of_called q hin) (Ne.symm hsame)
        (List.mem_singleton.mp hmem)

/-- **Step lemma**: a step of a call. -/
theorem DecompressRound.step (h : DecompressRound enc cfg vectors outputs data n zones called s)
    (hb : cfg.Bounds) (hcalled : queuePairId ∈ called)
    (hnone : (s.machineOf cfg zones queuePairId).result = none) {env : Env}
    (hok : s.Succeeds debug (.step queuePairId env))
    (hdec : Decodes enc (s.machineOf cfg zones queuePairId) env) :
    ∃ later, DecompressRound enc cfg vectors outputs data n later called
      (s.act debug (.step queuePairId env)) := by
  have hs := h.attended.separate
  have hq := h.attended.lt_of_called _ hcalled
  have horderly : s.Orderly debug (.step queuePairId env) := ⟨hok, trivial⟩
  obtain ⟨later, hmoved, hadvances, hparty⟩ := hs.step hb hok
  have hparty := hparty hnone
  obtain ⟨memory, hbytes, hdecompresses⟩ := h.going queuePairId hcalled hnone
  have hnext := hdecompresses.own hb (fun hagree => hasRoom_of_cutsAgree hb hagree hbytes) rfl
    (hs.party queuePairId hnone).targeted hadvances hdec
  refine ⟨later, h.attended.moved horderly hmoved (fun q => ?_) hq,
    fun q hq' => (h.results q hq').act hs hb horderly trivial hmoved.separate,
    h.vectors_apart, h.agree, h.outputs_host, h.outputs_apart, h.capacity, h.size_eq,
    fun q hq' hnone' => ?_, fun q hq' status hpc => ?_⟩
  · exact ⟨Or.inr, fun hq' => hq'.elim (fun he => he ▸ hcalled) id⟩
  · by_cases hsame : q = queuePairId
    · subst hsame
      exact ⟨memory, hbytes, hnext⟩
    · have hne : some q ≠ some queuePairId := by simpa using hsame
      have hnone'' : (s.machineOf cfg zones q).result = none := by
        rwa [hmoved.shared q hne] at hnone'
      obtain ⟨memory, hbytes, hd⟩ := h.going q hq' hnone''
      exact ⟨memory, hbytes, hd.stable hnone'' (hmoved.others q hne hnone'')⟩
  · by_cases hsame : q = queuePairId
    · subst hsame
      have hpc' : ((s.act debug (.step q env)).machineOf cfg later q).pc = .returned status := hpc
      obtain ⟨opPool, mbufPool, hin⟩ := hmoved.separate.inService.inOrder q
      obtain ⟨-, hrecovers⟩ := hnext.returned rfl hin.ordered hb hpc' hbytes
      obtain ⟨size, index, offset, total, hcall⟩ := hnext.output
      have hcall' : ((s.act debug (.step q env)).lanes q).call = _ := hcall
      refine ⟨hadvances.continues.status_eq hnone hpc', size, index, offset, total, hcall',
        Held.stored (hparty.held hpc fun b hb' => ?_) ?_⟩
      · rw [hnext.blocks.2]
        exact hb'
      · have hread := hrecovers (h.agree q hq)
        rw [hcall] at hread
        exact congrArg (fun bytes => [bytes]) hread
    · have hne : some q ≠ some queuePairId := by simpa using hsame
      obtain ⟨hpc', hcall⟩ := hmoved.lane_eq hne
      rw [hpc'] at hpc
      rw [hcall]
      obtain ⟨hok', size, index, offset, total, hqcall, hstored⟩ := h.done q hq' status hpc
      exact ⟨hok', size, index, offset, total, hqcall,
        hstored.act hs hb horderly trivial hmoved.separate⟩

/-! ## The other devices -/

/-- The blocks of the outputs. -/
def outputBlocks (outputs : Nat → ResizableBuffer) (n : Nat) : Set Block :=
  {b | ∃ q < n, b = (outputs q).data.block}

/-- The calls of a round write their outputs only. -/
theorem DecompressRound.writes (h : DecompressRound enc cfg vectors outputs data n zones called s)
    {q : Nat} {b : Block} (hb : b ∈ (s.machineOf cfg zones q).footprint.writes) :
    b ∈ outputBlocks outputs n := by
  have hmem := Footprint.mem_blocks.mpr (Or.inr hb)
  obtain ⟨memory, -, hdec⟩ := h.going q (h.attended.called_of_none (result_of_mem_blocks hmem))
    (result_of_mem_blocks hmem)
  have hwrites := writes_subset _ b hb
  rw [hdec.blocks.2] at hwrites
  exact ⟨q, (h.blocks hmem).1, List.mem_singleton.mp hwrites⟩

/-- The calls of a round touch nothing but the vectors and the outputs. -/
theorem DecompressRound.relies (h : DecompressRound enc cfg vectors outputs data n zones called s)
    {q : Nat} {b : Block} (hb : b ∈ (s.machineOf cfg zones q).footprint.blocks) :
    Relies zones (outputBlocks outputs n) b := by
  obtain ⟨hq, hread | rfl⟩ := h.blocks hb
  · exact (h.results q hq).relies hread
  · exact Or.inl ⟨q, hq, rfl⟩

/-- **Frame rule** of a round. -/
theorem DecompressRound.elsewhere {s' : Session}
    (h : DecompressRound enc cfg vectors outputs data n zones called s)
    (helse : Elsewhere (Relies zones (outputBlocks outputs n)) s s') :
    DecompressRound enc cfg vectors outputs data n (zones.withPool s'.pool) called s' := by
  have hs := h.attended.separate
  have hzones := hs.inService.zones_eq
  have hrelies : ∀ q, ∀ b ∈ (s.machineOf cfg zones q).footprint.blocks,
      Relies zones (outputBlocks outputs n) b := fun q b hb => h.relies hb
  have hmoved := hs.elsewhere helse hrelies
  refine ⟨h.attended.elsewhere helse hrelies,
    fun q hq => (h.results q hq).elsewhere hzones helse, h.vectors_apart, h.agree, h.outputs_host,
    h.outputs_apart, h.capacity, h.size_eq, fun q hq hnone => ?_, fun q hq status hpc => ?_⟩
  · have hnone' : (s.machineOf cfg zones q).result = none := by
      rwa [helse.machineOf_eq] at hnone
    obtain ⟨memory, hbytes, hdec⟩ := h.going q hq hnone'
    exact ⟨memory, hbytes, hdec.stable hnone' (hmoved.others q (by simp) hnone')⟩
  · rw [helse.lanes_eq] at hpc ⊢
    obtain ⟨hok, size, index, offset, total, hcall, hstored⟩ := h.done q hq status hpc
    refine ⟨hok, size, index, offset, total, hcall, hstored.elsewhere hzones helse fun b hb => ?_⟩
    obtain rfl : b = (outputs q).data.block := List.mem_singleton.mp hb
    exact Or.inl ⟨q, h.attended.lt_of_called q hq, rfl⟩

/-! ## Between two rounds -/

variable {hosts : Nat → Buffer} {outputs' : Nat → ResizableBuffer}

/-- Results that nobody has recycled can be decompressed. -/
theorem Holding.decompressRound (h : Holding enc cfg hosts data n vectors {q | q < n} zones s)
    (hb : cfg.Bounds) (hself : SelfDelimiting enc)
    (hagree : ∀ q < n, CutsAgree cfg enc (data q))
    (hhost : ∀ q < n, ∃ id, (outputs q).data.block = .host id)
    (hapart : ∀ p < n, ∀ q < n, p ≠ q → (outputs p).data.block ≠ (outputs q).data.block)
    (hcapacity : ∀ q < n,
      (vectors q).length * cfg.decompressedSegSize.toNat ≤ (outputs q).capacity)
    (hsize : ∀ q < n, vectors q = [] → (outputs q).size = 0) :
    DecompressRound enc cfg vectors outputs data n zones ∅ s := by
  refine ⟨h.attended, fun q hq => h.results q hq, fun p hp q hq => h.apart p hp q hq, hagree, hhost,
    hapart, hcapacity, fun q hq hnil => ⟨?_, hsize q hq hnil⟩, by simp, by simp⟩
  by_contra hne
  have hcontents := (h.results q hq).contents_eq
  rw [hnil] at hcontents
  exact streams_ne_nil hself hb hne hcontents.symm

/-- The outputs of a round that is over, with the sizes that they have been given. -/
structure Outputs (vectors : Nat → List Buffer) (outputs' : Nat → ResizableBuffer) (n : Nat)
    (called : Set Nat) (s : Session) : Prop where
  all_called : ∀ q < n, q ∈ called
  returned : ∀ q < n, ∃ status, (s.lanes q).pc = .returned status
  call_eq : ∀ q < n, ∃ index offset total,
    (s.lanes q).call = .decompress (vectors q) (outputs' q) index offset total

theorem DecompressRound.output (h : DecompressRound enc cfg vectors outputs data n zones called s)
    (ho : Outputs vectors outputs' n called s) {q : Nat} (hq : q < n) :
    (outputs' q).data = (outputs q).data ∧ (outputs' q).capacity = (outputs q).capacity ∧
      Stored cfg zones s [⟨(outputs' q).data, (outputs' q).size⟩] [data q] := by
  obtain ⟨status, hpc⟩ := ho.returned q hq
  obtain ⟨index, offset, total, hcall⟩ := ho.call_eq q hq
  obtain ⟨-, size, index', offset', total', hcall', hstored⟩ :=
    h.done q (ho.all_called q hq) status hpc
  rw [hcall] at hcall'
  obtain ⟨-, houtput, -⟩ := Call.decompress.inj hcall'
  rw [houtput]
  exact ⟨rfl, rfl, hstored⟩

/-- What a round leaves behind: the outputs hold the data. -/
theorem DecompressRound.holding (h : DecompressRound enc cfg vectors outputs data n zones called s)
    (ho : Outputs vectors outputs' n called s) :
    Holding enc cfg (fun q => ⟨(outputs' q).data, (outputs' q).size⟩) data n vectors {q | q < n}
      zones s := by
  refine ⟨h.attended.finished fun q hq => ho.returned q (h.attended.lt_of_called q hq),
    fun q hq => ?_, fun q hq => (h.output ho hq).2.2, h.results, h.vectors_apart⟩
  rw [(h.output ho hq).1]
  exact h.outputs_host q hq

/-- Another round may begin. -/
theorem DecompressRound.again (h : DecompressRound enc cfg vectors outputs data n zones called s)
    (ho : Outputs vectors outputs' n called s) :
    DecompressRound enc cfg vectors outputs' data n zones ∅ s := by
  refine ⟨h.attended.finished fun q hq => ho.returned q (h.attended.lt_of_called q hq), h.results,
    h.vectors_apart, h.agree, fun q hq => ?_, fun p hp q hq => ?_, fun q hq => ?_,
    fun q hq hnil => ⟨(h.size_eq q hq hnil).1, ?_⟩, by simp, by simp⟩
  · rw [(h.output ho hq).1]
    exact h.outputs_host q hq
  · rw [(h.output ho hp).1, (h.output ho hq).1]
    exact h.outputs_apart p hp q hq
  · rw [(h.output ho hq).2.1]
    exact h.capacity q hq
  · have hbytes := (h.output ho hq).2.2.contents_eq
    rw [(h.size_eq q hq hnil).1] at hbytes
    simpa [Buffer.bytes] using congrArg (fun c => (c.map List.length)) hbytes

end Session

end Bitar
