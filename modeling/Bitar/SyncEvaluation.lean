import Bitar.EvaluateAsync

/-!
# `EvaluateSync`

`EvaluateSync` compresses its input on the first queue pair of a device, several
times over, decompresses the last result in the same way and compares the output
with the input.  All results but the last one are recycled at once.

**Results.**
* `Sound.step`: the step lemma.
* `evaluateSync_ok`: whenever nothing fails, the output is the input, and the device
  is at rest again.
-/

namespace Bitar

open BlockStore Pieces Session

/-- Where `EvaluateSync` is. -/
inductive SyncPc
  | calling (job : Job) (round : Nat)
  /-- In `Compress` or `Decompress`. -/
  | underway (job : Job) (round : Nat)
  | returned (status : Status)
  | terminated (fault : Fault)
deriving DecidableEq, Repr

/-- The benchmark in progress. -/
def SyncPc.job : SyncPc → Option Job
  | .calling job _ | .underway job _ => some job
  | .returned _ | .terminated _ => none

structure SyncEvaluation where
  device : Session
  inputBuffer : Buffer
  compressedBuffers : List Buffer := []
  decompressedBuffer : ResizableBuffer := ⟨⟨.host 0, 0⟩, 0, 0⟩
  pc : SyncPc := .calling .compress 0

/-- What happens in a step.  `EvaluateSync` may have to allocate the output: the
block, and the room that the output has beyond its size. -/
structure SyncAnswer where
  env : Env := {}
  allocation : Option (Nat × Nat) := none

namespace SyncEvaluation

section Parts

variable (ev : SyncEvaluation)

/-- The queue pair that is used. -/
def lane : Lane := ev.device.lanes 0

def act (debug : Bool) (event : Event) : SyncEvaluation :=
  { ev with device := ev.device.act debug event }

/-- The arguments of the calls. -/
def request : Job → Machine.Request
  | .compress => .compress (some ev.inputBuffer)
  | .decompress => .decompress ev.compressedBuffers (some ev.decompressedBuffer)

/-- `Recycle`, and what comes after it. -/
def recycleThen (debug : Bool) (next : SyncEvaluation → SyncPc) : SyncEvaluation :=
  if ev.device.recycled ev.compressedBuffers = ev.compressedBuffers.length then
    let after := { ev.act debug (.recycle ev.compressedBuffers) with compressedBuffers := [] }
    { after with pc := next after }
  else { ev with pc := .terminated .checkFailed }

/-- `Recycle` on the way out; nobody looks at what it returns. -/
def recycleAndReturn (debug : Bool) (status : Status) : SyncEvaluation :=
  { ev.act debug (.recycle ev.compressedBuffers) with pc := .returned status }

/-- The comparison at the end. -/
def compare : Status :=
  let output := ev.decompressedBuffer
  if output.size ≠ ev.inputBuffer.size then
    .invalid "Decompressed buffer length is not equal to the input buffer length"
  else if read ev.device.memory output.data.block output.data.offset output.size ≠
      ev.inputBuffer.bytes ev.device.memory then
    .invalid "Decompressed buffer is not the same as the input buffer"
  else .success

/-- The allocation of the output. -/
def allocateOutput (debug : Bool) : Option (Nat × Nat) → SyncEvaluation
  | none => ev.recycleAndReturn debug ⟨.outOfMemory, ""⟩
  | some (id, extra) =>
      let size := ev.compressedBuffers.length * kDecompressedSegSize
      { ev with
        decompressedBuffer := ⟨⟨.host id, 0⟩, size + extra, size⟩
        pc := .calling .decompress 0 }

/-- What comes after a call that has returned OK. -/
def endRound (debug : Bool) (allocation : Option (Nat × Nat)) (round : Nat) : Job → SyncEvaluation
  | .compress =>
      let ev := { ev with compressedBuffers := ev.lane.call.emitted }
      if round + 1 < kNumTests then ev.recycleThen debug fun _ => .calling .compress (round + 1)
      else ev.allocateOutput debug allocation
  | .decompress =>
      let ev := { ev with
        decompressedBuffer := ev.lane.call.output.getD ev.decompressedBuffer }
      if round + 1 < kNumTests then { ev with pc := .calling .decompress (round + 1) }
      else ev.recycleThen debug fun after => .returned after.compare

/-- What comes after a call that has not returned OK. -/
def fail (debug : Bool) (status : Status) : Job → SyncEvaluation
  | .compress => { ev with pc := .returned status }
  | .decompress => ev.recycleAndReturn debug status

end Parts

/-- The next step. -/
def step (debug : Bool) (ev : SyncEvaluation) (answer : SyncAnswer) : SyncEvaluation :=
  match ev.pc with
  | .calling job round =>
      { ev.act debug (.call 0 (ev.request job)) with pc := .underway job round }
  | .underway job round =>
      match ev.lane.pc with
      | .returned status =>
          if status.code ≠ .ok then ev.fail debug status job
          else ev.endRound debug answer.allocation round job
      | _ => ev.act debug (.step 0 answer.env)
  | .returned _ | .terminated _ => ev

/-- `EvaluateSync` is called. -/
def begin (device : Session) (inputBuffer : Buffer) : SyncEvaluation where
  device := device
  inputBuffer := inputBuffer

/-! ## The rounds -/

/-- The device does what it is asked to do, with `enc`, and the output is allocated
in a block of its own. -/
structure Clean (enc : List UInt8 → List UInt8) (debug : Bool) (ev : SyncEvaluation)
    (answer : SyncAnswer) : Prop where
  step : ∀ job round, ev.pc = .underway job round → (∀ status, ev.lane.pc ≠ .returned status) →
    ev.device.Succeeds debug (.step 0 answer.env) ∧
      ∀ st ∈ ev.device.machine 0, job.Codes enc st answer.env
  allocated : ∀ round, ev.pc = .underway .compress round →
    (∃ status, ev.lane.pc = .returned status) →
    round + 1 = kNumTests → ∃ id extra, answer.allocation = some (id, extra) ∧
      .host id ≠ ev.inputBuffer.data.block

/-- A round on the first queue pair; `data` is what the input holds. -/
def InRound (enc : List UInt8 → List UInt8) (cfg : Configuration) (data : List UInt8)
    (ev : SyncEvaluation) (zones : Zones) (called : Set Nat) : Job → Prop
  | .compress =>
      CompressRound enc cfg (fun _ => ev.inputBuffer) (fun _ => data) 1 zones called ev.device
  | .decompress =>
      DecompressRound enc cfg (fun _ => ev.compressedBuffers) (fun _ => ev.decompressedBuffer)
        (fun _ => data) 1 zones called ev.device ∧
      ev.decompressedBuffer.data.block ≠ ev.inputBuffer.data.block

section Round

variable {enc : List UInt8 → List UInt8} {cfg : Configuration} {data : List UInt8}
  {ev : SyncEvaluation} {zones : Zones} {called : Set Nat} {job : Job} {debug : Bool} {env : Env}

theorem InRound.attended (h : ev.InRound enc cfg data zones called job) :
    Attended cfg zones 1 called ev.device := by
  cases job with
  | compress => exact CompressRound.attended h
  | decompress => exact DecompressRound.attended h.1

/-- The call writes something else than the input. -/
theorem InRound.spares (h : ev.InRound enc cfg data zones called job)
    (hhost : ∃ id, ev.inputBuffer.data.block = .host id) :
    ev.inputBuffer.data.block ∉ (ev.device.machineOf cfg zones 0).footprint.writes := by
  obtain ⟨id, hid⟩ := hhost
  intro hmem
  cases job with
  | compress =>
      obtain ⟨z, -, hz⟩ := CompressRound.writes h hmem
      rw [hid] at hz
      cases hz
  | decompress =>
      obtain ⟨q, -, he⟩ := DecompressRound.writes h.1 hmem
      exact h.2 he.symm

/-- The call begins. -/
theorem InRound.call (h : ev.InRound enc cfg data zones ∅ job) (hb : cfg.Bounds) :
    (ev.act debug (.call 0 (ev.request job))).InRound enc cfg data zones (insert 0 ∅) job := by
  cases job with
  | compress =>
      exact @CompressRound.call _ _ _ debug _ _ _ _ _ _ h hb Nat.one_pos (Set.notMem_empty 0)
  | decompress =>
      exact ⟨@DecompressRound.call _ _ _ debug _ _ _ _ _ _ _ h.1 hb Nat.one_pos
        (Set.notMem_empty 0), h.2⟩

/-- The call goes on. -/
theorem InRound.step (h : ev.InRound enc cfg data zones called job) (hb : cfg.Bounds)
    (hcalled : 0 ∈ called) (hnone : (ev.device.machineOf cfg zones 0).result = none)
    (hok : ev.device.Succeeds debug (.step 0 env))
    (hcodes : job.Codes enc (ev.device.machineOf cfg zones 0) env) :
    ∃ later, (ev.act debug (.step 0 env)).InRound enc cfg data later called job := by
  cases job with
  | compress => exact CompressRound.step h hb hcalled hnone hok hcodes
  | decompress =>
      obtain ⟨later, hlater⟩ := DecompressRound.step h.1 hb hcalled hnone hok hcodes
      exact ⟨later, hlater, h.2⟩

/-- The call has succeeded when it has returned. -/
theorem InRound.success (h : ev.InRound enc cfg data zones called job) (hcalled : 0 ∈ called)
    {status : Status} (hpc : ev.lane.pc = .returned status) : status = .success := by
  cases job with
  | compress => exact (CompressRound.done h 0 hcalled status hpc).1
  | decompress => exact (DecompressRound.done h.1 0 hcalled status hpc).1

end Round

/-! ## The invariant -/

/-- What `EvaluateSync` keeps: the input, and what the other devices rely on. -/
structure Kept (start : Session) (input : Buffer) (data : List UInt8) (ev : SyncEvaluation) :
    Prop where
  input_eq : ev.inputBuffer = input
  proceeds : start.Proceeds ev.device
  bytes_eq : input.bytes ev.device.memory = data

/-- Where `EvaluateSync` is. -/
def Stage (enc : List UInt8 → List UInt8) (cfg : Configuration) (data : List UInt8)
    (ev : SyncEvaluation) : Prop :=
  match ev.pc with
  | .calling job round => round < kNumTests ∧ ∃ zones, ev.InRound enc cfg data zones ∅ job
  | .underway job round => round < kNumTests ∧
      ∃ zones, ev.InRound enc cfg data zones (insert 0 ∅) job
  | .returned status => status = .success ∧ ∃ zones, Attended cfg zones 1 ∅ ev.device
  | .terminated _ => False

/-- What the device is expected to do with the input. -/
structure Suited (enc : List UInt8 → List UInt8) (cfg : Configuration) (input : Buffer) : Prop where
  bounds : cfg.Bounds
  maxSglSegs_eq : cfg.maxSglSegs.toNat = 1
  segSize_eq : cfg.decompressedSegSize.toNat = kDecompressedSegSize
  selfDelimiting : SelfDelimiting enc
  host : ∃ id, input.data.block = .host id

/-- The invariant. -/
structure Sound (enc : List UInt8 → List UInt8) (cfg : Configuration) (start : Session)
    (input : Buffer) (data : List UInt8) (ev : SyncEvaluation) : Prop where
  kept : ev.Kept start input data
  stage : ev.Stage enc cfg data

section Steps

variable {enc : List UInt8 → List UInt8} {cfg : Configuration} {start : Session} {input : Buffer}
  {data : List UInt8} {ev : SyncEvaluation} {zones later : Zones} {job : Job} {round : Nat}
  {debug : Bool} {answer : SyncAnswer}

/-- An event of the call. -/
theorem Kept.act {writes : Set Block} {event : Event} (h : ev.Kept start input data)
    (heffect : Effect zones later writes ev.device (ev.device.act debug event))
    (hevent : ∀ attempt, event ≠ .initializeDevice attempt)
    (hspares : ev.inputBuffer.data.block ∉ writes) :
    (ev.act debug event).Kept start input data := by
  refine ⟨h.input_eq, h.proceeds.trans (heffect.proceeds hevent), ?_⟩
  rw [h.input_eq] at hspares
  have hsame : (ev.device.act debug event).memory input.data.block =
      ev.device.memory input.data.block := heffect.confined _ hspares
  have hbytes : input.bytes (ev.device.act debug event).memory = input.bytes ev.device.memory := by
    unfold Buffer.bytes BlockStore.read
    rw [hsame]
  exact hbytes.trans h.bytes_eq

/-- **The call begins.** -/
theorem Sound.begins (hs : Suited enc cfg input) (h : ev.Kept start input data)
    (hround : ev.InRound enc cfg data zones ∅ job) (hlt : round < kNumTests) :
    Sound enc cfg start input data
      { ev.act debug (.call 0 (ev.request job)) with pc := .underway job round } := by
  have hnext := @InRound.call _ _ _ _ _ _ debug hround hs.bounds
  have heffect := @call_effect ev.device zones debug 0 (ev.request job) ∅
    hround.attended.separate.inService.zones_eq hnext.attended.separate.inService.zones_eq
  have hkept := h.act heffect (by simp) (Set.notMem_empty _)
  exact ⟨⟨hkept.input_eq, hkept.proceeds, hkept.bytes_eq⟩, hlt, zones, by cases job <;> exact hnext⟩

/-- **The call goes on.** -/
theorem Sound.goesOn (hs : Suited enc cfg input) (h : ev.Kept start input data)
    (hpc : ev.pc = .underway job round) (hround : ev.InRound enc cfg data zones (insert 0 ∅) job)
    (hlt : round < kNumTests) (hgoing : ∀ status, ev.lane.pc ≠ .returned status)
    (hclean : ev.Clean enc debug answer) :
    Sound enc cfg start input data (ev.act debug (.step 0 answer.env)) := by
  have hsep := hround.attended.separate
  obtain ⟨hok, hcodes⟩ := hclean.step job round hpc hgoing
  have hcodes := hcodes _ (machine_eq hsep.inService.configuration_eq hsep.inService.zones_eq 0)
  have hnone : (ev.device.machineOf cfg zones 0).result = none := by
    cases hresult : (ev.device.machineOf cfg zones 0).result with
    | none => rfl
    | some status => exact absurd (Machine.result_eq_some.mp hresult) (hgoing status)
  obtain ⟨later, hnext⟩ := hround.step hs.bounds (Set.mem_insert 0 ∅) hnone hok hcodes
  obtain ⟨later', hmoved, hadvances, -⟩ := hsep.step hs.bounds hok
  have heffect := hsep.step_effect hmoved.separate hadvances
  refine ⟨h.act heffect (by simp) (hround.spares (h.input_eq ▸ hs.host)), ?_⟩
  unfold Stage
  rw [show (ev.act debug (.step 0 answer.env)).pc = .underway job round from hpc]
  exact ⟨hlt, later, hnext⟩

/-! ### The end of a round -/

/-- The first queue pair is the only one. -/
theorem called_all : (insert 0 ∅ : Set Nat) = {q | q < 1} := by
  ext q
  simp

/-- What a round leaves behind: the last result, and either the input or the output. -/
abbrev HoldingOne (enc : List UInt8 → List UInt8) (cfg : Configuration) (host : Buffer)
    (data : List UInt8) (v : List Buffer) (pending : Set Nat) (zones : Zones) (s : Session) :
    Prop :=
  Holding enc cfg (fun _ => host) (fun _ => data) 1 (fun _ => v) pending zones s

/-- `Recycle` finds all buffers. -/
theorem Kept.recycleThen (h : ev.Kept start input data) (hb : cfg.Bounds) {host : Buffer}
    (hholding : HoldingOne enc cfg host data ev.compressedBuffers {q | q < 1} zones ev.device)
    (next : SyncEvaluation → SyncPc) :
    ∃ after : SyncEvaluation, ∃ later,
      ev.recycleThen debug next = { after with pc := next after } ∧
      after.Kept start input data ∧ after.decompressedBuffer = ev.decompressedBuffer ∧
      HoldingOne enc cfg host data [] ∅ later after.device := by
  obtain ⟨hall, later, hlater⟩ :=
    @Holding.recycle _ _ _ debug _ _ _ _ _ _ hholding hb 0 Nat.one_pos
  have hservice := hholding.attended.separate.inService
  have hkeeps := @InService.recycle_keeps _ _ _ debug hservice ev.compressedBuffers
  have hproceeds := @InService.recycle_proceeds _ _ _ debug hservice ev.compressedBuffers
  refine ⟨{ ev.act debug (.recycle ev.compressedBuffers) with compressedBuffers := [] }, later,
    if_pos hall, ⟨h.input_eq, h.proceeds.trans hproceeds, ?_⟩, rfl, hlater.attended,
    hlater.hosts_host, hlater.hosts_stored, by simp, by simp⟩
  rw [← h.bytes_eq]
  exact congrArg input.bytes hkeeps.1

/-- A round of compression that is over. -/
theorem compress_holding (h : ev.InRound enc cfg data zones (insert 0 ∅) .compress)
    {status : Status} (hpc : ev.lane.pc = .returned status) :
    HoldingOne enc cfg ev.inputBuffer data ev.lane.call.emitted {q | q < 1} zones ev.device ∧
      cfg.Fits enc data := by
  have hreturned : ∀ q ∈ (insert 0 ∅ : Set Nat), ∃ status,
      (ev.device.lanes q).pc = .returned status := by
    intro q hq
    obtain rfl : q = 0 := by simpa using hq
    exact ⟨status, hpc⟩
  refine ⟨?_, (CompressRound.done h 0 (Set.mem_insert 0 ∅) status hpc).2.2⟩
  rw [← called_all]
  refine CompressRound.holding h hreturned fun q hq => ?_
  obtain rfl : q = 0 := by simpa using hq
  rfl

/-- **The end of a round of compression.** -/
theorem Sound.endCompress (hs : Suited enc cfg input) (h : ev.Kept start input data)
    (hevpc : ev.pc = .underway .compress round)
    (hround : ev.InRound enc cfg data zones (insert 0 ∅) .compress) (hlt : round < kNumTests)
    {status : Status} (hpc : ev.lane.pc = .returned status) (hclean : ev.Clean enc debug answer) :
    Sound enc cfg start input data (ev.endRound debug answer.allocation round .compress) := by
  obtain ⟨hholding, hfits⟩ := compress_holding hround hpc
  set ev' : SyncEvaluation := { ev with compressedBuffers := ev.lane.call.emitted } with hev'
  have hkept : ev'.Kept start input data := ⟨h.input_eq, h.proceeds, h.bytes_eq⟩
  unfold endRound
  dsimp only
  rw [← hev']
  split_ifs with hlast
  · -- the result is recycled
    obtain ⟨after, later, he, hafter, -, hlater⟩ := @Kept.recycleThen _ _ _ _ _ ev' _ debug hkept
      hs.bounds _ hholding fun _ => .calling .compress (round + 1)
    rw [he]
    refine ⟨⟨hafter.input_eq, hafter.proceeds, hafter.bytes_eq⟩, hlast, later, ?_⟩
    have hnext := Holding.compressRound hlater
    rw [h.input_eq] at hnext
    show CompressRound enc cfg (fun _ => after.inputBuffer) (fun _ => data) 1 later ∅ after.device
    rw [hafter.input_eq]
    exact hnext
  · -- the output is allocated
    obtain ⟨id, extra, hallocation, hne⟩ :=
      hclean.allocated round hevpc ⟨status, hpc⟩ (by omega)
    rw [hallocation]
    refine ⟨⟨h.input_eq, h.proceeds, h.bytes_eq⟩, by decide, zones, ?_, hne⟩
    refine Holding.decompressRound hholding hs.bounds hs.selfDelimiting
      (fun _ _ => cutsAgree_of_fits hs.bounds hs.selfDelimiting hs.maxSglSegs_eq hfits)
      (fun _ _ => ⟨id, rfl⟩) (fun p hp q hq hne => absurd (by omega) hne) (fun _ _ => ?_)
      fun _ _ hnil => ?_
    · rw [hs.segSize_eq]
      exact Nat.le_add_right _ _
    · change ev.lane.call.emitted = [] at hnil
      show ev.lane.call.emitted.length * kDecompressedSegSize = 0
      rw [hnil]
      exact Nat.zero_mul _

/-- The output of a round of decompression that is over. -/
theorem decompress_outputs (h : ev.InRound enc cfg data zones (insert 0 ∅) .decompress)
    {status : Status} (hpc : ev.lane.pc = .returned status) :
    let output := ev.lane.call.output.getD ev.decompressedBuffer
    Outputs (fun _ => ev.compressedBuffers) (fun _ => output) 1 (insert 0 ∅) ev.device ∧
      output.data = ev.decompressedBuffer.data := by
  intro output
  have houtputs : Outputs (fun _ => ev.compressedBuffers) (fun _ => output) 1 (insert 0 ∅)
      ev.device := by
    refine ⟨fun q hq => ?_, fun q hq => ?_, fun q hq => ?_⟩
    all_goals obtain rfl : q = 0 := Nat.lt_one_iff.mp hq
    · exact Set.mem_insert 0 ∅
    · exact ⟨status, hpc⟩
    · obtain ⟨-, size, index, offset, total, hcall, -⟩ :=
        DecompressRound.done h.1 0 (Set.mem_insert 0 ∅) status hpc
      have houtput : output = { ev.decompressedBuffer with size := size } := by
        show (ev.device.lanes 0).call.output.getD _ = _
        rw [hcall]
        rfl
      rw [houtput]
      exact ⟨index, offset, total, hcall⟩
  exact ⟨houtputs, (DecompressRound.output h.1 houtputs Nat.one_pos).1⟩

/-- The output holds what the input holds. -/
theorem compare_eq (hbytes : ev.inputBuffer.bytes ev.device.memory = data)
    (houtput : (⟨ev.decompressedBuffer.data, ev.decompressedBuffer.size⟩ : Buffer).bytes
      ev.device.memory = data) : ev.compare = .success := by
  have hsize : ev.decompressedBuffer.size = ev.inputBuffer.size := by
    have hlength := congrArg List.length (houtput.trans hbytes.symm)
    simpa [Buffer.bytes] using hlength
  have hread : BlockStore.read ev.device.memory ev.decompressedBuffer.data.block
      ev.decompressedBuffer.data.offset ev.decompressedBuffer.size =
        ev.inputBuffer.bytes ev.device.memory := houtput.trans hbytes.symm
  unfold compare
  dsimp only
  rw [if_neg (not_not.mpr hsize), if_neg (not_not.mpr hread)]

/-- **The end of a round of decompression.** -/
theorem Sound.endDecompress (hs : Suited enc cfg input) (h : ev.Kept start input data)
    (hround : ev.InRound enc cfg data zones (insert 0 ∅) .decompress) {status : Status}
    (hpc : ev.lane.pc = .returned status) (allocation : Option (Nat × Nat)) :
    Sound enc cfg start input data (ev.endRound debug allocation round .decompress) := by
  obtain ⟨houtputs, hdata⟩ := decompress_outputs hround hpc
  set output := ev.lane.call.output.getD ev.decompressedBuffer with houtput
  set ev' : SyncEvaluation := { ev with decompressedBuffer := output } with hev'
  have hkept : ev'.Kept start input data := ⟨h.input_eq, h.proceeds, h.bytes_eq⟩
  unfold endRound
  dsimp only
  rw [← houtput, ← hev']
  split_ifs with hlast
  · refine ⟨⟨h.input_eq, h.proceeds, h.bytes_eq⟩, hlast, zones,
      DecompressRound.again hround.1 houtputs, ?_⟩
    show output.data.block ≠ _
    rw [hdata]
    exact hround.2
  · have hholding : HoldingOne enc cfg ⟨output.data, output.size⟩ data ev'.compressedBuffers
        {q | q < 1} zones ev'.device := DecompressRound.holding hround.1 houtputs
    obtain ⟨after, later, he, hafter, hsame, hlater⟩ := @Kept.recycleThen _ _ _ _ _ ev' _ debug
      hkept hs.bounds _ hholding fun after => .returned after.compare
    rw [he]
    have hstored := (hlater.hosts_stored 0 Nat.one_pos).contents_eq
    have hcompare : after.compare = .success := by
      refine compare_eq (hafter.input_eq ▸ hafter.bytes_eq) ?_
      rw [hsame]
      simpa using hstored
    exact ⟨⟨hafter.input_eq, hafter.proceeds, hafter.bytes_eq⟩, hcompare, later, hlater.attended⟩

/-- **Step lemma.** -/
theorem Sound.step (h : Sound enc cfg start input data ev) (hs : Suited enc cfg input)
    (hclean : ev.Clean enc debug answer) :
    Sound enc cfg start input data (ev.step debug answer) := by
  obtain ⟨hkept, hstage⟩ := h
  unfold Stage at hstage
  cases hevpc : ev.pc with
  | calling job round =>
      rw [hevpc] at hstage
      obtain ⟨hlt, zones, hround⟩ := hstage
      unfold SyncEvaluation.step
      rw [hevpc]
      exact Sound.begins hs hkept hround hlt
  | underway job round =>
      rw [hevpc] at hstage
      obtain ⟨hlt, zones, hround⟩ := hstage
      unfold SyncEvaluation.step
      rw [hevpc]
      dsimp only
      split
      · next status hpc =>
          obtain rfl := hround.success (Set.mem_insert 0 ∅) hpc
          rw [if_neg (by decide)]
          cases job with
          | compress => exact Sound.endCompress hs hkept hevpc hround hlt hpc hclean
          | decompress => exact Sound.endDecompress hs hkept hround hpc _
      · next hgoing => exact Sound.goesOn hs hkept hevpc hround hlt hgoing hclean
  | returned status =>
      have he : ev.step debug answer = ev := by
        unfold SyncEvaluation.step
        rw [hevpc]
      rw [he]
      exact ⟨hkept, hstage⟩
  | terminated fault =>
      rw [hevpc] at hstage
      exact hstage.elim

/-! ## The whole evaluation -/

theorem begin_sound (hs : Suited enc cfg input) (hrest : AtRest cfg zones start)
    (hstarted : start.device.state = .started) (hqps : 0 < start.device.numQps) :
    Sound enc cfg start input (input.bytes start.memory) (begin start input) := by
  have hattended : Attended cfg zones 1 ∅ start :=
    Evaluation.attended_of_atRest hrest hstarted hqps start.memory
  refine ⟨⟨rfl, .refl start, rfl⟩, by decide, zones, hattended, fun _ _ => hs.host, fun _ _ => ?_,
    by simp, by simp, by simp⟩
  exact Evaluation.stored_host hattended hs.host rfl

/-- What the program comes to. -/
theorem Sound.outcome (h : Sound enc cfg start input data ev) (haccepted : Accepted cfg) :
    (∀ fault, ev.pc ≠ .terminated fault) ∧
      ∀ status, ev.pc = .returned status → status = .success ∧
        (∃ zones, AtRest cfg zones ev.device) ∧ start.Proceeds ev.device ∧
        input.bytes ev.device.memory = data := by
  obtain ⟨hkept, hstage⟩ := h
  unfold Stage at hstage
  refine ⟨fun fault hpc => ?_, fun status hpc => ?_⟩
  · rw [hpc] at hstage
    exact hstage
  · rw [hpc] at hstage
    obtain ⟨hstatus, zones, hattended⟩ := hstage
    exact ⟨hstatus, ⟨zones, hattended.atRest haccepted⟩, hkept.proceeds, hkept.bytes_eq⟩

/-- **`EvaluateSync`** on a started device.  As long as no call of the driver fails, the
device compresses and decompresses with `enc` and the allocation of the output
succeeds: the program does not terminate in the middle, and when it returns, it
has found that the output is the input.  The device is at rest again. -/
theorem evaluateSync_ok (hs : Suited enc cfg input) (hrest : AtRest cfg zones start)
    (hstarted : start.device.state = .started) (hqps : 0 < start.device.numQps)
    {answers : List SyncAnswer}
    (hclean : Runs.Along (SyncEvaluation.step debug) (Clean enc debug)
      (begin start input) answers) :
    let later := Runs.run (SyncEvaluation.step debug) (begin start input) answers
    (∀ fault, later.pc ≠ .terminated fault) ∧
      ∀ status, later.pc = .returned status → status = .success ∧
        (∃ zones, AtRest cfg zones later.device) ∧ start.Proceeds later.device ∧
        input.bytes later.device.memory = input.bytes start.memory := by
  intro later
  have hsound : Sound enc cfg start input (input.bytes start.memory) later :=
    Runs.Along.invariant (fun ev answer hev hok => hev.step hs hok)
      (begin_sound hs hrest hstarted hqps) hclean
  exact hsound.outcome hrest.accepted

end Steps

/-! ## A device with one queue pair -/

/-- Two bytes outside the memzones. -/
def sampleInput : Buffer := ⟨⟨.host 9, 0⟩, 2⟩

/-- A round takes six steps. -/
def sampleAnswers : List SyncAnswer :=
  (List.range 36).map fun k =>
    { env := Evaluation.sampleAnswer (k / 6) [0, 0], allocation := some (8, 0) }

theorem sampleInput_suited :
    Suited Machine.sampleStream Evaluation.sampleAsyncConfig sampleInput :=
  ⟨Evaluation.sampleAsyncConfig_accepted.bounds, rfl, rfl, Machine.sampleStream_selfDelimiting, 9,
    rfl⟩

/-- What can be checked of `Clean`. -/
def SampleClean (ev : SyncEvaluation) (answer : SyncAnswer) : Prop :=
  answer.allocation = some (8, 0) ∧ ev.inputBuffer = sampleInput ∧
    ∀ st ∈ ev.device.machine 0, st.result = none → Machine.Goes true st answer.env ∧
      (ev.pc.job = some .compress → st.Encodes Machine.sampleStream answer.env) ∧
      (ev.pc.job = some .decompress → st.SampleDecodes answer.env)

instance (ev : SyncEvaluation) (answer : SyncAnswer) : Decidable (ev.SampleClean answer) := by
  unfold SampleClean
  infer_instance

theorem SampleClean.clean {ev : SyncEvaluation} {answer : SyncAnswer}
    (h : ev.SampleClean answer) : ev.Clean Machine.sampleStream true answer := by
  obtain ⟨hallocation, hinput, hmachine⟩ := h
  refine ⟨fun job round hpc hgoing => ?_, fun _ _ _ _ => ⟨8, 0, hallocation, ?_⟩⟩
  · have hnone : ∀ st ∈ ev.device.machine 0, st.result = none := by
      intro st hst
      obtain ⟨cfg, zones, -, -, rfl⟩ := exists_machineOf hst
      cases hresult : (ev.device.machineOf cfg zones 0).result with
      | none => rfl
      | some status => exact absurd (Machine.result_eq_some.mp hresult) (hgoing status)
    refine ⟨fun st hst => (hmachine st hst (hnone st hst)).1, fun st hst => ?_⟩
    obtain ⟨-, hcompress, hdecompress⟩ := hmachine st hst (hnone st hst)
    rw [hpc] at hcompress hdecompress
    cases job with
    | compress => exact hcompress rfl
    | decompress => exact (hdecompress rfl).decodes
  · rw [hinput]
    decide

theorem sampleAnswers_clean :
    Runs.Along (SyncEvaluation.step true) SampleClean
      (begin (Evaluation.sampleDevices 0) sampleInput) sampleAnswers := by
  decide +kernel

theorem evaluateSync_ok_sample :
    let later := Runs.run (SyncEvaluation.step true)
      (begin (Evaluation.sampleDevices 0) sampleInput) sampleAnswers
    later.pc = .returned .success ∧
      ∃ zones, AtRest Evaluation.sampleAsyncConfig zones later.device := by
  intro later
  have hpc : later.pc = .returned .success := by decide +kernel
  have hok := evaluateSync_ok sampleInput_suited (Evaluation.sampleDevices_atRest (by decide)) rfl
    (by decide) (sampleAnswers_clean.imp fun _ _ h => SampleClean.clean h)
  exact ⟨hpc, (hok.2 _ hpc).2.1⟩

end SyncEvaluation

end Bitar
