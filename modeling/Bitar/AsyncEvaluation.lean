import Bitar.DecompressRounds
import Bitar.Places
import Bitar.SplitInput

/-!
# `EvaluateAsync`

`EvaluateAsync` compresses the segments of its input on all lcores at the same
time, several times over, decompresses the last results in the same way and
compares the outputs with the input.  An `Evaluation` is this program in the
middle of its work: the main lcore, the functions on the worker lcores and the
devices.  The main lcore and the worker lcores take their steps in any order.

An lcore is in the `WAIT` state when it has no task.  A task is called, goes on
step by step and ends with its callback; the callback takes one step.

The devices share the memory and the pool of memzones.  Nobody locks anything; no
buffer of a test is used with two devices.
-/

namespace Bitar

open BlockStore

/-- `kDecompressedSegSize`. -/
def kDecompressedSegSize : Nat := 59460

/-- `kNumTests`. -/
def kNumTests : Nat := 3

/-- `kAsyncReturnOK`. -/
def kAsyncReturnOK : Int := 2

/-- `EXIT_FAILURE`. -/
def exitFailure : Int := 1

/-- The two benchmarks, `BenchmarkCompressAsync` and `BenchmarkDecompressAsync`. -/
inductive Job
  | compress
  | decompress
deriving DecidableEq, Repr

/-- `LcoreCompressFunc` or `LcoreDecompressFunc` on an lcore, with its argument. -/
structure Task where
  job : Job
  test : Nat
  place : Place
  /-- Whether `Compress` or `Decompress` has been called. -/
  called : Bool
deriving DecidableEq, Repr

/-- What the EAL knows about an lcore. -/
structure LcoreConfig where
  /-- `none` in the `WAIT` state. -/
  task : Option Task := none
  /-- What the last function has returned. -/
  ret : Int := 0
deriving DecidableEq, Repr

/-- What the main lcore does next. -/
inductive MainPc
  | launching (job : Job) (round idx : Nat) (place : Place)
  /-- `WaitForAsyncCompletion`. -/
  | waiting (job : Job) (round idx : Nat) (place : Place) (asyncSuccess : Bool)
  | returned (status : Status)
  | terminated (fault : Fault)
deriving DecidableEq, Repr

structure Evaluation where
  numParallelTests : Nat
  /-- The contents of `input_buffer`. -/
  inputBuffer : List UInt8
  numDevices : Nat
  devices : Devices
  lcoreConfig : Nat → LcoreConfig := fun _ => {}
  inputBufferVector : Nat → Buffer
  /-- `device_to_compressed_buffers_vector`. -/
  compressedBuffers : Nat → Option (List (List Buffer))
  decompressedBufferVector : Nat → ResizableBuffer := fun _ => ⟨⟨.host 0, 0⟩, 0, 0⟩
  main : MainPc

/-- The output of `Decompress`. -/
def Call.output : Call → Option ResizableBuffer
  | .compress .. => none
  | .decompress _ output _ _ _ => some output

namespace Evaluation

/-- What happens next.  The main lcore may have to allocate the outputs: the blocks,
and the room that an output has beyond its size. -/
inductive Action
  | main (allocations : Nat → Option (Nat × Nat))
  | worker (lcoreId : Nat) (env : Env)

section Parts

variable (ev : Evaluation)

def workerLcores : List (List Nat) :=
  (List.range ev.numDevices).map fun d => (ev.devices d).device.workerLcores

/-- `device_to_compressed_buffers_vector.at(device_id)[queue_pair_id]`. -/
def compressedAt (p : Place) : Option (List Buffer) :=
  (ev.compressedBuffers p.deviceId).bind (·[p.queuePairId]?)

def setDevice (d : Nat) (s : Session) : Evaluation :=
  { ev with devices := ev.devices.set d s }

def setLcore (lcoreId : Nat) (config : LcoreConfig) : Evaluation :=
  { ev with lcoreConfig := Function.update ev.lcoreConfig lcoreId config }

/-! ## The worker lcores -/

/-- The arguments with which a task calls `Compress` or `Decompress`. -/
def request (t : Task) : Machine.Request :=
  match t.job with
  | .compress => .compress (some (ev.inputBufferVector t.test))
  | .decompress =>
      .decompress ((ev.compressedAt t.place).getD []) (some (ev.decompressedBufferVector t.test))

/-- What the callback of a call that has returned OK does with the result.  The
result of `Compress` is stored under the id of the device.  `Decompress` has
resized its output. -/
def storeResult (t : Task) : Option Evaluation :=
  let device := ev.devices t.place.deviceId
  let call := (device.lanes t.place.queuePairId).call
  match t.job with
  | .compress =>
      match ev.compressedBuffers device.device.deviceId.toNat with
      -- `at` throws
      | none => none
      | some vectors =>
          if t.place.queuePairId < vectors.length then
            some { ev with
              compressedBuffers := Function.update ev.compressedBuffers
                device.device.deviceId.toNat
                (some (vectors.set t.place.queuePairId call.emitted)) }
          else none
  | .decompress =>
      some { ev with
        decompressedBufferVector := Function.update ev.decompressedBufferVector t.test
          (call.output.getD (ev.decompressedBufferVector t.test)) }

/-- `compress_result_callback` and `decompress_result_callback`. -/
def callback (lcoreId : Nat) (t : Task) (status : Status) : Evaluation :=
  if status.code ≠ .ok then ev.setLcore lcoreId ⟨none, exitFailure⟩
  else
    match ev.storeResult t with
    | none => { ev with main := .terminated .readPastEnd }
    | some ev => ev.setLcore lcoreId ⟨none, kAsyncReturnOK⟩

/-- The next step of the function on an lcore. -/
def worker (debug : Bool) (lcoreId : Nat) (env : Env) : Evaluation :=
  match (ev.lcoreConfig lcoreId).task with
  | none => ev
  | some t =>
      let device := ev.devices t.place.deviceId
      if t.called = false then
        (ev.setDevice t.place.deviceId
            (device.act debug (.call t.place.queuePairId (ev.request t)))).setLcore lcoreId
          { ev.lcoreConfig lcoreId with task := some { t with called := true } }
      else
        match (device.lanes t.place.queuePairId).pc with
        | .returned status => ev.callback lcoreId t status
        | _ => ev.setDevice t.place.deviceId (device.act debug (.step t.place.queuePairId env))

/-! ## The main lcore -/

/-- The vectors that `Recycle` goes through. -/
def vectors : List (Nat × List Buffer) :=
  (List.range ev.numDevices).flatMap fun d => ((ev.compressedBuffers d).getD []).map (d, ·)

/-- `Recycle` on the vectors of all devices; `none` when a check fails. -/
def recycleVectors (debug : Bool) :
    List (Nat × List Buffer) → Devices → Option Devices
  | [], devices => some devices
  | (d, buffers) :: rest, devices =>
      if (devices d).recycled buffers = buffers.length then
        recycleVectors debug rest (devices.set d ((devices d).act debug (.recycle buffers)))
      else none

/-- `Recycle`, and what comes after it. -/
def recycleThen (debug : Bool) (next : Evaluation → MainPc) : Evaluation :=
  match recycleVectors debug ev.vectors ev.devices with
  | none => { ev with main := .terminated .checkFailed }
  | some devices =>
      let after := { ev with devices := devices }
      { after with main := next after }

/-- The output for a test, with room for as many segments as there are buffers. -/
def allocated (idx : Nat) (allocation : Option (Nat × Nat)) : Option ResizableBuffer :=
  let size := ((ev.compressedAt (places ev.workerLcores idx)).getD []).length * kDecompressedSegSize
  allocation.map fun (id, extra) => ⟨⟨.host id, 0⟩, size + extra, size⟩

/-- The loop that allocates the outputs. -/
def allocateOutputs (debug : Bool) (allocations : Nat → Option (Nat × Nat)) : Evaluation :=
  if ∀ idx < ev.numParallelTests, (allocations idx).isSome then
    { ev with
      decompressedBufferVector := fun idx =>
        (ev.allocated idx (allocations idx)).getD (ev.decompressedBufferVector idx)
      main := .launching .decompress 0 0 ⟨0, 0⟩ }
  else ev.recycleThen debug fun _ => .returned ⟨.outOfMemory, ""⟩

/-- The bytes of an output. -/
def outputBytes (idx : Nat) : List UInt8 :=
  let output := ev.decompressedBufferVector idx
  read ev.devices.memory output.data.block output.data.offset output.size

/-- The comparison at the end. -/
def compare : Status :=
  compareOutputs ev.inputBuffer ((List.range ev.numParallelTests).map ev.outputBytes)

/-- What the main lcore does when all lcores are in the `WAIT` state again. -/
def endRound (debug : Bool) (job : Job) (round : Nat) (asyncSuccess : Bool)
    (allocations : Nat → Option (Nat × Nat)) : Evaluation :=
  match job with
  | .compress =>
      if asyncSuccess = false then
        ev.recycleThen debug fun _ =>
          .returned ⟨.ioError, "Failed to complete async compression"⟩
      else if round + 1 < kNumTests then
        ev.recycleThen debug fun _ => .launching .compress (round + 1) 0 ⟨0, 0⟩
      else ev.allocateOutputs debug allocations
  | .decompress =>
      if asyncSuccess = false then
        ev.recycleThen debug fun _ =>
          .returned ⟨.ioError, "Failed to complete async decompression"⟩
      else if round + 1 < kNumTests then
        { ev with main := .launching .decompress (round + 1) 0 ⟨0, 0⟩ }
      else ev.recycleThen debug fun after => .returned after.compare

/-- `rte_eal_remote_launch` and the loop around it. -/
def launch (job : Job) (round idx : Nat) (place : Place) : Evaluation :=
  if idx < ev.numParallelTests then
    match lcoreAt ev.workerLcores place with
    | none => { ev with main := .terminated .readPastEnd }
    | some lcoreId =>
        if job = .decompress ∧ ev.compressedAt place = none then
          { ev with main := .terminated .readPastEnd }
        else if (ev.lcoreConfig lcoreId).task ≠ none then
          -- `-EBUSY`
          { ev with main := .waiting job round 0 ⟨0, 0⟩ true }
        else
          { ev.setLcore lcoreId { ev.lcoreConfig lcoreId with
              task := some ⟨job, idx, place, false⟩ } with
            main := .launching job round (idx + 1)
              (place.advance (numQpsAt ev.workerLcores place.deviceId)) }
  else { ev with main := .waiting job round 0 ⟨0, 0⟩ true }

/-- `rte_eal_wait_lcore` and the loop around it. -/
def await (debug : Bool) (job : Job) (round idx : Nat) (place : Place) (asyncSuccess : Bool)
    (allocations : Nat → Option (Nat × Nat)) : Evaluation :=
  if idx < ev.numParallelTests then
    match lcoreAt ev.workerLcores place with
    | none => { ev with main := .terminated .readPastEnd }
    | some lcoreId =>
        if (ev.lcoreConfig lcoreId).task ≠ none then ev
        else
          { ev with
            main := .waiting job round (idx + 1)
              (place.advance (numQpsAt ev.workerLcores place.deviceId))
              (asyncSuccess && (ev.lcoreConfig lcoreId).ret == kAsyncReturnOK) }
  else ev.endRound debug job round asyncSuccess allocations

/-- The next step of the main lcore. -/
def mainStep (debug : Bool) (allocations : Nat → Option (Nat × Nat)) : Evaluation :=
  match ev.main with
  | .launching job round idx place => ev.launch job round idx place
  | .waiting job round idx place asyncSuccess =>
      ev.await debug job round idx place asyncSuccess allocations
  | .returned _ | .terminated _ => ev

end Parts

/-- After `std::terminate` nothing happens any more. -/
def step (debug : Bool) (ev : Evaluation) (action : Action) : Evaluation :=
  match ev.main with
  | .terminated _ => ev
  | _ =>
      match action with
      | .main allocations => ev.mainStep debug allocations
      | .worker lcoreId env => ev.worker debug lcoreId env

/-! ## The beginning -/

/-- The loop that gives every test a slot for its result. -/
def emptyVectors (lcores : List (List Nat)) : Nat → Nat → Option (List (List Buffer))
  | 0 => fun _ => none
  | idx + 1 =>
      let vectors := emptyVectors lcores idx
      let d := (places lcores idx).deviceId
      Function.update vectors d (some ((vectors d).getD [] ++ [[]]))

/-- The loop that copies the segments of the input into the blocks `ids`. -/
def fillSegments (inputBuffer : List UInt8) (numSegments : Nat) (ids : Nat → Nat)
    (memory : Memory) : Nat → Memory
  | 0 => memory
  | idx + 1 =>
      write (fillSegments inputBuffer numSegments ids memory idx) (.host (ids idx)) 0
        (segment inputBuffer numSegments idx)

/-- The sum of `num_qps()` over all devices, in 32 bits. -/
def totalNumQps (numDevices : Nat) (devices : Devices) : Nat :=
  toUInt32 ((List.range numDevices).map fun d => (devices d).device.numQps).sum

/-- `EvaluateAsync` up to the first launch; `allocations` are the blocks for the
segments. -/
def begin (numParallelTests numDevices : Nat) (devices : Devices) (inputBuffer : List UInt8)
    (lcoreConfig : Nat → LcoreConfig) (allocations : Nat → Option Nat) : Evaluation :=
  let lcores := (List.range numDevices).map fun d => (devices d).device.workerLcores
  let total := totalNumQps numDevices devices
  let ids := fun idx => (allocations idx).getD 0
  let ev : Evaluation :=
    { numParallelTests := numParallelTests
      inputBuffer := inputBuffer
      numDevices := numDevices
      devices := devices
      lcoreConfig := lcoreConfig
      inputBufferVector := fun idx =>
        ⟨⟨.host (ids idx), 0⟩, segmentSize inputBuffer.length numParallelTests idx⟩
      compressedBuffers := emptyVectors lcores numParallelTests
      main := .launching .compress 0 0 ⟨0, 0⟩ }
  if total < numParallelTests then
    { ev with
      main := .returned ⟨.cancelled, s!"Total # of allocated queue pairs ({total})" ++
        s!" < num_parallel_tests ({numParallelTests})"⟩ }
  else if ∀ idx < numParallelTests, (allocations idx).isSome then
    { ev with
      devices := { devices with
        memory := fillSegments inputBuffer numParallelTests ids devices.memory
          numParallelTests } }
  else { ev with main := .returned ⟨.outOfMemory, ""⟩ }

/-! ## Two devices with one queue pair each -/

/-- The configuration of the application, with one segment for each operation. -/
def sampleAsyncConfig : Configuration where
  burstSize := 2
  maxSglSegs := 1
  decompressedSegSize := 59460
  windowSize := 15

/-- Started devices, with lcore `d + 1` and two memzones each. -/
def sampleDevices : Devices where
  memory := fun _ _ => 0
  pool := ⟨Finset.range 4, fun _ => sampleAsyncConfig.compressedSegSize,
    4 * sampleAsyncConfig.compressedSegSize⟩
  own d :=
    { device :=
        { deviceId := UInt8.ofNat d
          workerLcores := [d + 1]
          configuration := some sampleAsyncConfig
          state := .started
          deviceMemory := some ⟨d, [2 * d, 2 * d + 1], ∅, 2⟩
          qpMemory := [{ operationPool := Finset.range 8, mbufPool := Finset.range 16 }] } }

/-- What a device answers in a round, with an operation and mbufs of that round;
there are three rounds of compression and three of decompression. -/
def sampleAnswer (round : Nat) (bytes : List UInt8) : Env where
  bulk := ⟨some [round], some [2 * round, 2 * round + 1]⟩
  numAccepted := 1
  results := [⟨.success, if round < kNumTests then Machine.sampleStream bytes else bytes⟩]

/-- The main lcore and the two worker lcores take turns.  Every lcore has nine turns
in a round. -/
def sampleSchedule (k : Nat) : Action :=
  let round := k / 27 % 6
  match k % 3 with
  | 0 => .main fun idx => some (idx, 0)
  | 1 => .worker 1 (sampleAnswer round [10, 20])
  | _ => .worker 2 (sampleAnswer round [30])

/-- The program up to the return. -/
def sampleActions : List Action :=
  (List.range 160).map sampleSchedule

def sampleEvaluation : Evaluation :=
  begin 2 2 sampleDevices [10, 20, 30] (fun _ => {}) fun idx => some idx

end Evaluation

end Bitar
