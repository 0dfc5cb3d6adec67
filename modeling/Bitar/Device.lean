import Bitar.QueuePairMemory
import Bitar.Lib.Runs

/-!
# Calls on a queue pair of a device

`Machine` is one queue pair of a compress device in the middle of a call of
`Compress` or `Decompress`.  One step of it is one call of `AssembleFrom`,
`EnqueueBurst` or `DequeueBurst`; `Pc` says which one comes next.

The device and the memory pools belong to the environment, which answers every
step: which free objects the pools hand out, how many operations the device
accepts, which of the operations it holds are finished, and what its error
counters are.  A queue pair of the device is a FIFO queue.  The effects of an
operation on memory are those of its status, its output and the count
`produced`; they are applied when the operation is handed back, since the
library looks at none of them before.

**Results.**
* `step_returned`, `run_returned`: a call that has returned takes no more steps.
-/

namespace Bitar

open BlockStore

/-- `internal::DeviceState`. -/
inductive DeviceState
  | undefined
  | configured
  | started
deriving DecidableEq, Repr

/-- `magic_enum::enum_name`. -/
def DeviceState.name : DeviceState → String
  | .undefined => "kUndefined"
  | .configured => "kConfigured"
  | .started => "kStarted"

/-- `operator<` on `DeviceState`. -/
def DeviceState.rank : DeviceState → Nat
  | .undefined => 1
  | .configured => 2
  | .started => 4

/-- `EntryGuard`. -/
def entryGuard (deviceId : Nat) (state : DeviceState) (numQps queuePairId : Nat)
    (qp : QueuePairMemory) : Status :=
  if state.rank < DeviceState.started.rank then
    .invalid s!"Compress device {deviceId} has not started. [Current state: {state.name}]"
  else if numQps ≤ queuePairId then
    .invalid s!"queue_pair_id must be in the range of [0, {numQps})"
  else if qp.hasPendingOperations then
    -- the device id is printed as a character here
    ⟨.cancelled, s!"Queue pair {queuePairId} of compress device {showChar (.ofNat deviceId)} is busy"⟩
  else .success

/-- `arrow::ResizableBuffer`. -/
structure ResizableBuffer where
  data : Addr
  capacity : Nat
  size : Nat
deriving DecidableEq, Repr

def kNumIgnoredMaybeNotOKBurst : Nat := 10

/-- `rte_compressdev_stats`, as far as it is looked at. -/
structure Stats where
  enqueueErrCount : Nat := 0
  dequeueErrCount : Nat := 0
deriving DecidableEq, Repr

/-- `GetErrorCount`, with its static counter of 32 bits. -/
def getErrorCount (numMaybeNotOk numBurstedOps : Nat) (stats : Stats) : Nat × Nat :=
  if 0 < numBurstedOps then (0, 0)
  else
    let numMaybeNotOk := (numMaybeNotOk + 1) % 4294967296
    if numMaybeNotOk % kNumIgnoredMaybeNotOKBurst ≠ 0 then (0, numMaybeNotOk)
    else if 0 < stats.enqueueErrCount then (stats.enqueueErrCount, numMaybeNotOk)
    else if 0 < stats.dequeueErrCount then (stats.dequeueErrCount, numMaybeNotOk)
    else (0, 0)

/-- What the device did to one operation. -/
structure OpResult where
  status : OpStatus
  output : List UInt8
deriving DecidableEq, Repr

/-- The answers of the environment in one step. -/
structure Env where
  bulk : BulkAnswer := ⟨none, none⟩
  memzones : List (Option Nat) := []
  /-- How many operations the device accepts at most. -/
  numAccepted : Nat := 0
  /-- The results of the oldest operations, as many as are finished. -/
  results : List OpResult := []
  stats : Stats := {}

/-- The arguments and local variables of the call in progress. -/
inductive Call
  | compress (decompressedBuffer : Buffer) (offset : Nat) (compressedBuffers : List Buffer)
  | decompress (compressedBuffers : List Buffer) (decompressedBuffer : ResizableBuffer)
      (index offset decompressedBufferSize : Nat)
deriving DecidableEq, Repr

/-- The word for the kind of the call in error messages. -/
def Call.kind : Call → String
  | .compress .. => "compression"
  | .decompress .. => "decompression"

/-- What comes next. -/
inductive Pc
  | assemble
  | enqueue (numOpsAssembled : Nat)
  /-- The dequeue of the main loop. -/
  | dequeue
  /-- The dequeue of the loop that waits for the pending operations. -/
  | drain
  | returned (status : Status)
deriving DecidableEq, Repr

structure Machine where
  cfg : Configuration
  deviceId : Nat
  queuePairId : Nat
  numQps : Nat
  state : DeviceState
  memory : Memory
  zones : Zones
  qp : QueuePairMemory
  /-- The operations that the device holds, oldest first. -/
  queue : List Nat := []
  /-- The static counter of `GetErrorCount`. -/
  numMaybeNotOk : Nat := 0
  call : Call
  pc : Pc

/-- The buffers that `dequeue_callback` of `Compress` makes out of a
destination chain. -/
def emitBuffers : List Segment → Nat → List Buffer
  | [], _ => []
  | seg :: segs, remainingLength =>
      if remainingLength = 0 then []
      else
        let dataLen := min seg.dataLen remainingLength
        ⟨seg.bufAddr, dataLen⟩ :: emitBuffers segs (remainingLength - dataLen)

/-- `dequeue_callback`. -/
def Call.dequeueCallback (call : Call) (op : CompOp) : Call :=
  match call with
  | .compress input offset compressedBuffers =>
      .compress input offset (compressedBuffers ++ emitBuffers op.mDst.segs op.produced)
  | .decompress compressedBuffers output index offset decompressedBufferSize =>
      .decompress compressedBuffers output index offset (decompressedBufferSize + op.produced)

/-- The part of the output that the destination of an operation has room for. -/
def OpResult.written (result : OpResult) (op : CompOp) : List UInt8 :=
  result.output.take (room op.destination)

namespace Machine

/-- `AssembleFrom`, on the span and the cursors of the call in progress. -/
def assembleFrom (st : Machine) (env : Env) : Machine × Except StatusCode Nat :=
  match st.call with
  | .compress input offset compressedBuffers =>
      let r := assembleFromDecompressed st.cfg env.bulk input st.qp offset ⟨st.zones, env.memzones⟩
      ({ st with
          qp := r.qp
          zones := r.destination.zones
          call := .compress input r.source compressedBuffers }, r.result)
  | .decompress buffers output index offset size =>
      let r := assembleFromCompressed st.cfg env.bulk buffers output.data st.qp index offset
      ({ st with
          qp := r.qp
          call := .decompress buffers output r.source r.destination size }, r.result)

/-- `EnqueueBurst`. -/
def enqueueBurst (st : Machine) (env : Env) (numOpsAssembled : Nat) : Machine × StatusCode :=
  let numEnqueued := min env.numAccepted numOpsAssembled
  let errors := getErrorCount st.numMaybeNotOk numEnqueued env.stats
  let st :=
    { st with
      queue := st.queue ++ read st.qp.operations () 0 numEnqueued
      numMaybeNotOk := errors.2 }
  if 0 < errors.1 then
    -- Unable to enqueue operations to the compress device
    (st, .ioError)
  else
    let accumulated := st.qp.accumulateUnused (toUInt16 (numOpsAssembled - numEnqueued))
    ({ st with qp := accumulated.1 }, accumulated.2)

/-- The device completes an operation. -/
def complete (st : Machine) (op : Nat) (result : OpResult) : Machine :=
  let written := result.written (st.qp.ops op)
  { st with
    memory := scatter st.memory (st.qp.ops op).destination written
    qp := { st.qp with
      ops := Function.update st.qp.ops op
        { st.qp.ops op with
          status := result.status
          produced := written.length } } }

/-- How many operations `rte_compressdev_dequeue_burst` hands back. -/
def numDequeued (st : Machine) (env : Env) : Nat :=
  min env.results.length (min st.cfg.burstSize.toNat st.queue.length)

/-- `rte_compressdev_dequeue_burst`. -/
def handBack (st : Machine) (env : Env) : Machine :=
  let burst := st.queue.take (st.numDequeued env)
  let done := (burst.zip env.results).foldl (fun st p => st.complete p.1 p.2) st
  { done with
    queue := st.queue.drop (st.numDequeued env)
    -- `dequeue_ops` is `&operations_[burst_size]`
    qp := { done.qp with
      operations := write done.qp.operations () st.cfg.burstSize.toNat burst } }

/-- The loop of `DequeueBurst` over the operations handed back. -/
def processBurst (debug : Bool) : List Nat → Machine → Machine × StatusCode
  | [], st => (st, .ok)
  | currentOp :: rest, st =>
      if (st.qp.ops currentOp).status ≠ .success then (st, .ioError)
      else
        let st := { st with call := st.call.dequeueCallback (st.qp.ops currentOp) }
        match st.qp.recycleResources debug currentOp with
        | (qp, .ok) => processBurst debug rest { st with qp := qp }
        | (qp, code) => ({ st with qp := qp }, code)

/-- `DequeueBurst`. -/
def dequeueBurst (debug : Bool) (st : Machine) (env : Env) : Machine × StatusCode :=
  let numDequeued := st.numDequeued env
  let errors := getErrorCount st.numMaybeNotOk numDequeued env.stats
  let st := { st.handBack env with numMaybeNotOk := errors.2 }
  if 0 < errors.1 then
    -- Unable to dequeue operations from the compress device
    (st, .ioError)
  else
    processBurst debug (read st.qp.operations () st.cfg.burstSize.toNat numDequeued) st

/-- `ReleaseAll`: `Recycle` the buffers, last one first, then `Release`. -/
def releaseAll (st : Machine) (buffers : List Buffer) : Machine :=
  let released := st.qp.release (st.zones.putAll (buffers.reverse.map Buffer.data))
  { st with
    qp := released.1
    zones := released.2 }

/-- The error exits of `Compress` and `Decompress`. -/
def fail (st : Machine) (code : StatusCode) (message : String) : Machine :=
  match st.call with
  | .compress _ _ compressedBuffers =>
      { st.releaseAll compressedBuffers with pc := .returned ⟨code, message⟩ }
  | .decompress .. => { st with pc := .returned ⟨code, message⟩ }

/-- The end of a call that succeeds. -/
def finish (st : Machine) : Machine :=
  match st.call with
  | .compress .. => { st with pc := .returned .success }
  | .decompress buffers output index offset size =>
      { st with
        call := .decompress buffers { output with size := size } index offset size
        pc := .returned .success }

/-- The condition of the loop that waits for the pending operations. -/
def drainOrFinish (st : Machine) : Machine :=
  if st.qp.hasPendingOperations then { st with pc := .drain } else st.finish

/-- The step at `AssembleFrom`, with the condition of the main loop. -/
def assembleStep (st : Machine) (env : Env) : Machine :=
  match st.assembleFrom env with
  | (st, .ok numOpsAssembled) =>
      if 0 < numOpsAssembled then { st with pc := .enqueue numOpsAssembled }
      else st.drainOrFinish
  | (st, .error code) =>
      st.fail code s!"Failed to assemble {st.call.kind} operations for queue pair {st.queuePairId} of compress device {st.deviceId}"

def enqueueStep (st : Machine) (env : Env) (numOpsAssembled : Nat) : Machine :=
  match st.enqueueBurst env (toUInt16 numOpsAssembled) with
  | (st, .ok) => { st with pc := .dequeue }
  | (st, code) =>
      st.fail code s!"Failed to enqueue {st.call.kind} operations to compress device {st.deviceId} via queue pair {st.queuePairId}"

def dequeueStep (debug : Bool) (st : Machine) (env : Env) : Machine :=
  match dequeueBurst debug st env with
  | (st, .ok) => { st with pc := .assemble }
  | (st, code) =>
      st.fail code s!"Failed to dequeue {st.call.kind} operations from compress device {st.deviceId} via queue pair {st.queuePairId}"

def drainStep (debug : Bool) (st : Machine) (env : Env) : Machine :=
  match dequeueBurst debug st env with
  | (st, .ok) => st.drainOrFinish
  | (st, code) =>
      st.fail code s!"Failed to dequeue pending {st.call.kind} operations from compress device {st.deviceId} via queue pair {st.queuePairId}"

/-- One step of the call in progress. -/
def step (debug : Bool) (st : Machine) (env : Env) : Machine :=
  match st.pc with
  | .assemble => st.assembleStep env
  | .enqueue numOpsAssembled => st.enqueueStep env numOpsAssembled
  | .dequeue => dequeueStep debug st env
  | .drain => drainStep debug st env
  | .returned _ => st

/-- The guard of a call on this queue pair. -/
def guardStatus (st : Machine) : Status :=
  entryGuard st.deviceId st.state st.numQps st.queuePairId st.qp

/-- The entry of `Compress`. -/
def compress (st : Machine) (decompressedBuffer : Option Buffer) : Machine :=
  match decompressedBuffer with
  | none => { st with
      call := .compress ⟨⟨.host 0, 0⟩, 0⟩ 0 []
      pc := .returned .success }
  | some input =>
      { st with
        call := .compress input 0 []
        pc :=
          if input.size = 0 then .returned .success
          else if st.guardStatus.code = .ok then .assemble
          else .returned st.guardStatus }

/-- The entry of `Decompress`. -/
def decompress (st : Machine) (compressedBuffers : List Buffer)
    (decompressedBuffer : Option ResizableBuffer) : Machine :=
  let minDecompressedBufferCapacity := compressedBuffers.length * st.cfg.decompressedSegSize.toNat
  let capacityError : Status :=
    ⟨.capacityError, s!"The decompressed_buffer is required to be >= {minDecompressedBufferCapacity} bytes"⟩
  match decompressedBuffer with
  | none => { st with
      call := .decompress compressedBuffers ⟨⟨.host 0, 0⟩, 0, 0⟩ 0 0 0
      pc := .returned (if compressedBuffers = [] then .success else capacityError) }
  | some output =>
      { st with
        call := .decompress compressedBuffers output 0 0 0
        pc :=
          if compressedBuffers = [] then .returned .success
          else if output.capacity < minDecompressedBufferCapacity then .returned capacityError
          else if st.guardStatus.code = .ok then .assemble
          else .returned st.guardStatus }

/-- The arguments of a call. -/
inductive Request
  | compress (decompressedBuffer : Option Buffer)
  | decompress (compressedBuffers : List Buffer) (decompressedBuffer : Option ResizableBuffer)
deriving DecidableEq, Repr

/-- The beginning of a call. -/
def start (st : Machine) : Request → Machine
  | .compress decompressedBuffer => st.compress decompressedBuffer
  | .decompress compressedBuffers decompressedBuffer =>
      st.decompress compressedBuffers decompressedBuffer

/-- A queue pair on which no work is left. -/
structure Idle (st : Machine) : Prop where
  pending : st.qp.pendingOperations = []
  numOpsAssembled : st.qp.numOpsAssembled = 0
  queue : st.queue = []

/-- The device has started and the queue pair exists. -/
structure Ready (st : Machine) : Prop where
  started : st.state = .started
  queuePairId_lt : st.queuePairId < st.numQps

/-- The status that the call has returned. -/
def result (st : Machine) : Option Status :=
  match st.pc with
  | .returned status => some status
  | _ => none

section Start

variable (st : Machine) (request : Request)

@[simp] theorem start_qp : (st.start request).qp = st.qp := by
  cases request with
  | compress input => cases input <;> rfl
  | decompress buffers output => cases output <;> rfl

@[simp] theorem start_queue : (st.start request).queue = st.queue := by
  cases request with
  | compress input => cases input <;> rfl
  | decompress buffers output => cases output <;> rfl

@[simp] theorem start_cfg : (st.start request).cfg = st.cfg := by
  cases request with
  | compress input => cases input <;> rfl
  | decompress buffers output => cases output <;> rfl

@[simp] theorem start_zones : (st.start request).zones = st.zones := by
  cases request with
  | compress input => cases input <;> rfl
  | decompress buffers output => cases output <;> rfl

@[simp] theorem start_memory : (st.start request).memory = st.memory := by
  cases request with
  | compress input => cases input <;> rfl
  | decompress buffers output => cases output <;> rfl

@[simp] theorem start_counter : (st.start request).numMaybeNotOk = st.numMaybeNotOk := by
  cases request with
  | compress input => cases input <;> rfl
  | decompress buffers output => cases output <;> rfl

/-- A call begins with `AssembleFrom`, or returns at once. -/
theorem start_pc : (st.start request).pc = .assemble ∨
    ∃ status, (st.start request).pc = .returned status := by
  cases request with
  | compress input =>
      cases input with
      | none => exact Or.inr ⟨_, rfl⟩
      | some input =>
          simp only [start, compress]
          split_ifs <;> simp
  | decompress buffers output =>
      cases output with
      | none => exact Or.inr ⟨_, rfl⟩
      | some output =>
          simp only [start, decompress]
          split_ifs <;> simp

variable {st}

theorem guardStatus_ok (hready : st.Ready) (hidle : st.Idle) : st.guardStatus = .success := by
  have h := hready.queuePairId_lt
  simp [guardStatus, entryGuard, hready.started, DeviceState.rank,
    QueuePairMemory.hasPendingOperations, hidle.pending, Nat.not_le.mpr h]

theorem compress_pc (hready : st.Ready) (hidle : st.Idle) {input : Buffer}
    (hinput : 0 < input.size) : (st.compress (some input)).pc = .assemble := by
  simp [compress, Nat.ne_of_gt hinput, guardStatus_ok hready hidle, Status.success]

theorem decompress_pc (hready : st.Ready) (hidle : st.Idle) {buffers : List Buffer}
    {output : ResizableBuffer} (hbuffers : buffers ≠ [])
    (hcapacity : buffers.length * st.cfg.decompressedSegSize.toNat ≤ output.capacity) :
    (st.decompress buffers (some output)).pc = .assemble := by
  simp [decompress, hbuffers, Nat.not_lt.mpr hcapacity, guardStatus_ok hready hidle,
    Status.success]

end Start

theorem result_eq_some {st : Machine} {status : Status} :
    st.result = some status ↔ st.pc = .returned status := by
  unfold result
  cases st.pc <;> simp

/-- Another call is in progress on the queue pair, and this one is turned away. -/
def Refuses (st : Machine) (request : Request) : Prop :=
  st.result = none ∧ (st.start request).result ≠ none

instance (st : Machine) (request : Request) : Decidable (st.Refuses request) :=
  inferInstanceAs (Decidable (_ ∧ _))

/-- A call comes.  One that is refused leaves the call in progress alone. -/
def receive (st : Machine) (request : Request) : Machine :=
  if st.Refuses request then st else st.start request

section Receive

variable (st : Machine) (request : Request)

theorem receive_of_returned {st : Machine} (h : st.result ≠ none) (request : Request) :
    st.receive request = st.start request :=
  if_neg fun hrefuses => h hrefuses.1

@[simp] theorem receive_qp : (st.receive request).qp = st.qp := by
  unfold receive
  split_ifs <;> simp

@[simp] theorem receive_queue : (st.receive request).queue = st.queue := by
  unfold receive
  split_ifs <;> simp

@[simp] theorem receive_zones : (st.receive request).zones = st.zones := by
  unfold receive
  split_ifs <;> simp

@[simp] theorem receive_memory : (st.receive request).memory = st.memory := by
  unfold receive
  split_ifs <;> simp

@[simp] theorem receive_counter : (st.receive request).numMaybeNotOk = st.numMaybeNotOk := by
  unfold receive
  split_ifs <;> simp

end Receive

theorem step_returned {st : Machine} {status : Status} (h : st.pc = .returned status)
    (debug : Bool) (env : Env) : step debug st env = st := by
  simp [step, h]

theorem run_returned {st : Machine} {status : Status} (h : st.pc = .returned status)
    (debug : Bool) (envs : List Env) : Runs.run (step debug) st envs = st := by
  induction envs with
  | nil => rfl
  | cons env envs ih => rw [Runs.run_cons, step_returned h, ih]

/-- Nothing happens to a call that has returned. -/
theorem along_returned {st : Machine} {debug : Bool} {P : Machine → Env → Prop}
    {status : Status} (hP : ∀ s env, s.pc = .returned status → P s env)
    (hpc : st.pc = .returned status)
    (envs : List Env) : Runs.Along (step debug) P st envs := by
  refine Runs.along_of_invariant (I := fun s => s.pc = .returned status) ?_ hP envs hpc
  intro s env hs
  rw [step_returned hs]
  exact hs

theorem stateAt_returned {debug : Bool} {st : Machine} {envs : Nat → Env} {k : Nat}
    {status : Status} (h : (Runs.stateAt (step debug) st envs k).pc = .returned status) :
    ∀ j, Runs.stateAt (step debug) st envs (k + j) = Runs.stateAt (step debug) st envs k
  | 0 => rfl
  | j + 1 => by
      rw [← Nat.add_assoc, Runs.stateAt, stateAt_returned h j, step_returned h]

@[simp] theorem fail_pc (st : Machine) (code : StatusCode) (message : String) :
    (st.fail code message).pc = .returned ⟨code, message⟩ := by
  unfold fail
  cases st.call <;> rfl

end Machine

/-! ## A small queue pair for examples -/

/-- Bursts of two operations with segments of eight bytes. -/
def sampleConfig (maxSglSegs : UInt16) : Configuration where
  burstSize := 2
  maxSglSegs := maxSglSegs
  decompressedSegSize := 8
  windowSize := 15

theorem sampleConfig_accepted : Accepted (sampleConfig 1) ∧ Accepted (sampleConfig 2) :=
  ⟨⟨0, 0, 1, ⟨0, some ⟨true, true, true, ⟨15, 15, 0⟩⟩⟩, sampleConfig 1, by decide⟩,
    ⟨0, 0, 1, ⟨0, some ⟨true, true, true, ⟨15, 15, 0⟩⟩⟩, sampleConfig 2, by decide⟩⟩

/-- An idle queue pair of a started device with `numZones` free memzones. -/
def sampleMachine (maxSglSegs : UInt16) (numZones : Nat) : Machine where
  cfg := sampleConfig maxSglSegs
  deviceId := 0
  queuePairId := 0
  numQps := 1
  state := .started
  memory := fun _ i => UInt8.ofNat i
  zones :=
    { device := ⟨0, List.range numZones, ∅, numZones⟩
      pool := ⟨Finset.range numZones, fun _ => (sampleConfig maxSglSegs).compressedSegSize,
        numZones * (sampleConfig maxSglSegs).compressedSegSize⟩ }
  qp := { operationPool := Finset.range 8, mbufPool := Finset.range 16 }
  call := .compress ⟨⟨.host 0, 0⟩, 0⟩ 0 []
  pc := .returned .success

theorem sampleMachine_wellFormed (maxSglSegs : UInt16) (numZones : Nat) :
    (sampleMachine maxSglSegs numZones).zones.WellFormed
      (sampleConfig maxSglSegs).compressedSegSize :=
  ⟨List.nodup_range, by simp [sampleMachine], by simp [sampleMachine], by simp [sampleMachine],
    fun _ _ => rfl⟩

theorem sampleMachine_idle (maxSglSegs : UInt16) (numZones : Nat) :
    (sampleMachine maxSglSegs numZones).Idle :=
  ⟨rfl, rfl, rfl⟩

end Bitar
