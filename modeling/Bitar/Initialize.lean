import Bitar.Device
import Bitar.MemzoneOwnership
import Bitar.Preallocate

/-!
# `Initialize`

`Initialize` replaces the configuration, checks it, replaces the device memory,
adds the memories of the queue pairs and brings the device up.  It can fail in
each of these steps, and what it has done by then stays.

The device memory and the memories of the queue pairs hold references to the
members `configuration_` and `device_memory_`, not to the objects behind them.
The old device memory is therefore destroyed under the new configuration, and
the memories of earlier calls go on with the new members.

**Results.**
* `initialize_cases`, `initialize_ok`: what one call can do.
* `queue_pair_memories`: exactly when a call that returns OK leaves one memory
  for every queue pair.
-/

namespace Bitar

/-- A `BlueFieldCompressDevice`. -/
structure CompressDevice where
  deviceId : UInt8
  workerLcores : List Nat
  /-- `configuration_`; `none` is the null pointer. -/
  configuration : Option Configuration := none
  state : DeviceState := .undefined
  deviceMemory : Option DeviceMemory := none
  qpMemory : List QueuePairMemory := []

/-- The argument of `Initialize`, and what the environment answers in it. -/
structure Attempt where
  configuration : Configuration
  /-- Fuel for the loop of `ValidateWindowSize`. -/
  fuel : Nat := 256
  info : DeviceInfo
  /-- The address of the new device memory. -/
  self : Nat
  /-- The order in which the old device memory finds its taken memzones. -/
  order : List Nat := []
  memzones : List (Option Nat) := []
  queuePairs : Nat → PreallocateAnswer := fun _ => {}
  /-- The results of `rte_compressdev_configure`, `rte_compressdev_queue_pair_setup`
  and `rte_compressdev_start`. -/
  configure : Int := 0
  queuePairSetup : Nat → Int := fun _ => 0
  start : Int := 0

/-- What `Initialize` leaves behind and returns. -/
structure Initialized where
  device : CompressDevice
  pool : MemzonePool
  status : Status

namespace CompressDevice

/-- The constructor. -/
def new (deviceId : UInt8) (workerLcores : List Nat) : CompressDevice where
  deviceId := deviceId
  workerLcores := workerLcores

def numQps (device : CompressDevice) : Nat :=
  toUInt16 device.workerLcores.length

/-- The new device memory, once the old one has been destroyed under the
configuration `cfg`. -/
def newDeviceMemory (device : CompressDevice) (pool : MemzonePool) (cfg : Configuration)
    (attempt : Attempt) : Zones where
  device := .new attempt.self
  pool :=
    match device.deviceMemory with
    | none => pool
    | some old => Zones.destroy ⟨old, pool⟩ cfg.compressedSegSize attempt.order

/-- The new device memory after its `Preallocate`. -/
def preallocatedMemory (device : CompressDevice) (pool : MemzonePool) (cfg : Configuration)
    (attempt : Attempt) : Zones × Status :=
  (device.newDeviceMemory pool cfg attempt).preallocate device.deviceId.toNat cfg attempt.memzones

/-- The loop of `PreAllocateMemory` over the queue pairs. -/
def preallocateQueuePairs (deviceId : Nat) (cfg : Configuration)
    (answers : Nat → PreallocateAnswer) : List Nat → List QueuePairMemory × Status
  | [] => ([], .success)
  | qpId :: rest =>
      let qp := QueuePairMemory.preallocate {} deviceId qpId cfg (answers qpId)
      if qp.2.code = .ok then
        let others := preallocateQueuePairs deviceId cfg answers rest
        (qp.1 :: others.1, others.2)
      else ([qp.1], qp.2)

/-- `PreAllocateMemory`. -/
def preAllocateMemory (device : CompressDevice) (pool : MemzonePool) (cfg : Configuration)
    (attempt : Attempt) : Initialized :=
  let zones := device.preallocatedMemory pool cfg attempt
  let device := { device with deviceMemory := some zones.1.device }
  if zones.2.code = .ok then
    let qps := preallocateQueuePairs device.deviceId.toNat cfg attempt.queuePairs
      (List.range device.numQps)
    ⟨{ device with qpMemory := device.qpMemory ++ qps.1 }, zones.1.pool, qps.2⟩
  else ⟨device, zones.1.pool, zones.2⟩

/-- The part of `Initialize` that configures and starts the device. -/
def bringUp (device : CompressDevice) (attempt : Attempt) : CompressDevice × Status :=
  if attempt.configure < 0 then (device, .invalid "Device configuration failed")
  else
    let device := { device with state := .configured }
    match (List.range device.numQps).find? (fun qpId => attempt.queuePairSetup qpId < 0) with
    | some qpId =>
        -- the device id is printed as a character here
        (device, .invalid s!"Failed to setup queue pair {qpId} for device {showChar device.deviceId}. [Error code: {attempt.queuePairSetup qpId}]")
    | none =>
        if attempt.start < 0 then
          (device, .invalid s!"Failed to start device {device.deviceId.toNat}. [Error code: {attempt.start}]")
        else ({ device with state := .started }, .success)

/-- `set_configuration`. -/
def setConfiguration (device : CompressDevice) (cfg : Configuration) : CompressDevice × Status :=
  if cfg.typeName ≠ kBlueFieldConfigurationTypeName then
    (device, .invalid s!"Configuration of type {cfg.typeName} cannot be applied to compress device of type {kBlueFieldConfigurationTypeName}")
  else ({ device with configuration := some cfg }, .success)

/-- `Initialize` after `ValidateConfiguration`, which has left `cfg` and returned
`status`. -/
def initializeWith (device : CompressDevice) (pool : MemzonePool) (attempt : Attempt)
    (cfg : Configuration) (status : Status) : Initialized :=
  let device := { device with configuration := some cfg }
  if status.code = .ok then
    let allocated := device.preAllocateMemory pool cfg attempt
    if allocated.status.code = .ok then
      let up := allocated.device.bringUp attempt
      ⟨up.1, allocated.pool, up.2⟩
    else allocated
  else ⟨device, pool, status⟩

/-- `Initialize`; `none` when it does not return. -/
def initializeDevice (device : CompressDevice) (pool : MemzonePool) (attempt : Attempt) :
    Option Initialized :=
  let set := device.setConfiguration attempt.configuration
  if set.2.code = .ok then
    (validateConfiguration attempt.fuel device.deviceId device.numQps attempt.info
      attempt.configuration).map fun validated =>
        set.1.initializeWith pool attempt validated.1 validated.2
  else some ⟨set.1, pool, set.2⟩

section Cases

variable {device : CompressDevice} {pool : MemzonePool} {attempt : Attempt} {out : Initialized}
  {cfg : Configuration} {status : Status}

/-- A configuration of another type is turned away. -/
theorem initialize_of_ne (h : attempt.configuration.typeName ≠ kBlueFieldConfigurationTypeName) :
    ∃ status, status.code = .invalid ∧
      device.initializeDevice pool attempt = some ⟨device, pool, status⟩ := by
  unfold initializeDevice setConfiguration
  rw [if_pos h]
  exact ⟨_, rfl, if_neg (by simp [Status.invalid])⟩

theorem initialize_of_eq (h : attempt.configuration.typeName = kBlueFieldConfigurationTypeName) :
    device.initializeDevice pool attempt =
      (validateConfiguration attempt.fuel device.deviceId device.numQps attempt.info
        attempt.configuration).map fun validated =>
          device.initializeWith pool attempt validated.1 validated.2 := by
  unfold initializeDevice setConfiguration
  rw [if_neg (not_not.mpr h)]
  exact if_pos rfl

/-- What one call can do: turn the configuration away, or go on with it. -/
theorem initialize_cases (h : device.initializeDevice pool attempt = some out) :
    (attempt.configuration.typeName ≠ kBlueFieldConfigurationTypeName ∧
      out.device = device ∧ out.pool = pool ∧ out.status.code = .invalid) ∨
    (attempt.configuration.typeName = kBlueFieldConfigurationTypeName ∧
      ∃ cfg status,
        validateConfiguration attempt.fuel device.deviceId device.numQps attempt.info
          attempt.configuration = some (cfg, status) ∧
        out = device.initializeWith pool attempt cfg status) := by
  by_cases htype : attempt.configuration.typeName = kBlueFieldConfigurationTypeName
  · rw [initialize_of_eq htype] at h
    obtain ⟨⟨cfg, status⟩, hvalid, hout⟩ := Option.map_eq_some_iff.mp h
    exact Or.inr ⟨htype, cfg, status, hvalid, hout.symm⟩
  · obtain ⟨status, hcode, he⟩ := @initialize_of_ne device pool attempt htype
    rw [he] at h
    obtain rfl := Option.some.inj h
    exact Or.inl ⟨htype, rfl, rfl, hcode⟩

/-- A call does not return when the checks do not. -/
theorem initialize_eq_none (h : device.initializeDevice pool attempt = none) :
    attempt.configuration.typeName = kBlueFieldConfigurationTypeName ∧
      validateConfiguration attempt.fuel device.deviceId device.numQps attempt.info
        attempt.configuration = none := by
  by_cases htype : attempt.configuration.typeName = kBlueFieldConfigurationTypeName
  · rw [initialize_of_eq htype, Option.map_eq_none_iff] at h
    exact ⟨htype, h⟩
  · obtain ⟨status, -, he⟩ := @initialize_of_ne device pool attempt htype
    rw [he] at h
    simp at h

theorem bringUp_device (device : CompressDevice) (attempt : Attempt) :
    ∃ state, (device.bringUp attempt).1 = { device with state := state } ∧
      ((device.bringUp attempt).2.code = .ok → state = .started) := by
  unfold bringUp
  split_ifs with hconfigure hstart
  · exact ⟨device.state, rfl, fun h => by simp [Status.invalid] at h⟩
  · dsimp only
    split <;> exact ⟨.configured, rfl, fun h => by simp [Status.invalid] at h⟩
  · dsimp only
    split
    · exact ⟨.configured, rfl, fun h => by simp [Status.invalid] at h⟩
    · exact ⟨.started, rfl, fun _ => rfl⟩

/-- A configuration that fails the checks is in force nevertheless. -/
theorem initializeWith_invalid (h : status.code ≠ .ok) :
    device.initializeWith pool attempt cfg status =
      ⟨{ device with configuration := some cfg }, pool, status⟩ := by
  simp [initializeWith, h]

/-- The memories of queue pairs that a call adds. -/
def addedQueuePairs (device : CompressDevice) (pool : MemzonePool) (cfg : Configuration)
    (attempt : Attempt) : List QueuePairMemory × Status :=
  if (device.preallocatedMemory pool cfg attempt).2.code = .ok then
    preallocateQueuePairs device.deviceId.toNat cfg attempt.queuePairs (List.range device.numQps)
  else ([], (device.preallocatedMemory pool cfg attempt).2)

/-- What a call leaves behind whose configuration passes the checks. -/
structure Allocates (device : CompressDevice) (pool : MemzonePool) (attempt : Attempt)
    (cfg : Configuration) (out : Initialized) : Prop where
  device_eq : ∃ state, out.device = { device with
    configuration := some cfg
    state := state
    deviceMemory := some (device.preallocatedMemory pool cfg attempt).1.device
    qpMemory := device.qpMemory ++ (device.addedQueuePairs pool cfg attempt).1 } ∧
    (out.status.code = .ok → state = .started)
  pool_eq : out.pool = (device.preallocatedMemory pool cfg attempt).1.pool
  added_ok : out.status.code = .ok → (device.addedQueuePairs pool cfg attempt).2.code = .ok

theorem initializeWith_valid (h : status.code = .ok) :
    Allocates device pool attempt cfg (device.initializeWith pool attempt cfg status) := by
  have hmemory : { device with configuration := some cfg }.preallocatedMemory pool cfg attempt =
      device.preallocatedMemory pool cfg attempt := rfl
  unfold initializeWith preAllocateMemory
  rw [if_pos h]
  dsimp only
  rw [hmemory]
  by_cases hzones : (device.preallocatedMemory pool cfg attempt).2.code = .ok
  · have hadded : device.addedQueuePairs pool cfg attempt =
        preallocateQueuePairs device.deviceId.toNat cfg attempt.queuePairs
          (List.range device.numQps) := if_pos hzones
    rw [if_pos hzones]
    dsimp only
    split_ifs with hqps
    · obtain ⟨state, hdevice, hstate⟩ := bringUp_device { device with
        configuration := some cfg
        deviceMemory := some (device.preallocatedMemory pool cfg attempt).1.device
        qpMemory := device.qpMemory ++ (device.addedQueuePairs pool cfg attempt).1 } attempt
      rw [hadded] at hdevice hstate
      exact ⟨⟨state, by rw [hadded]; exact hdevice, hstate⟩, rfl,
        fun _ => by rw [hadded]; exact hqps⟩
    · refine ⟨⟨device.state, ?_, fun hok => absurd hok hqps⟩, rfl, fun hok => absurd hok hqps⟩
      rw [hadded]
      rfl
  · have hadded : device.addedQueuePairs pool cfg attempt =
        ([], (device.preallocatedMemory pool cfg attempt).2) := if_neg hzones
    rw [if_neg hzones, if_neg hzones]
    refine ⟨⟨device.state, by rw [hadded, List.append_nil], fun hok => absurd hok hzones⟩, rfl,
      fun hok => absurd hok hzones⟩

/-- A call that returns OK has accepted its configuration and allocated everything. -/
theorem initialize_ok (h : device.initializeDevice pool attempt = some out)
    (hok : out.status.code = .ok) :
    ∃ windowSize,
      let cfg := { attempt.configuration.withMaxSglSegs with windowSize := windowSize }
      Accepted cfg ∧ Allocates device pool attempt cfg out := by
  rcases initialize_cases h with ⟨-, -, -, hcode⟩ | ⟨-, cfg, status, hvalid, rfl⟩
  · exact absurd (hcode.symm.trans hok) (by decide)
  · have hstatus : status.code = .ok := by
      by_contra hne
      rw [initializeWith_invalid hne] at hok
      exact hne hok
    have haccepted : Accepted cfg :=
      ⟨_, _, _, _, _, validateConfiguration_success hvalid hstatus ▸ hvalid⟩
    have hallocates : Allocates device pool attempt cfg
        (device.initializeWith pool attempt cfg status) := initializeWith_valid hstatus
    rcases validateConfiguration_cases hvalid with ⟨-, hne⟩ | ⟨windowSize, rfl, -⟩
    · exact absurd hstatus hne
    · exact ⟨windowSize, haccepted, hallocates⟩

end Cases

/-! ## The memories of the queue pairs -/

/-- `PreAllocateMemory` gets as far as the queue pairs. -/
def reachesQueuePairs (device : CompressDevice) (pool : MemzonePool) (attempt : Attempt) : Bool :=
  attempt.configuration.typeName = kBlueFieldConfigurationTypeName &&
    match validateConfiguration attempt.fuel device.deviceId device.numQps attempt.info
        attempt.configuration with
    | none => false
    | some (cfg, status) =>
        decide (status.code = .ok) &&
          decide ((device.preallocatedMemory pool cfg attempt).2.code = .ok)

/-- One memory for every queue pair, all of whose resources were acquired for
the configuration in force. -/
structure HasQueuePairs (device : CompressDevice) : Prop where
  length_eq : device.qpMemory.length = device.numQps
  acquired : ∀ queuePairId < device.numQps, ∃ qp cfg answer,
    device.qpMemory[queuePairId]? = some qp ∧ device.configuration = some cfg ∧
    QueuePairMemory.preallocate {} device.deviceId.toNat queuePairId cfg answer = (qp, .success) ∧
    qp.resources = Resources.full cfg

section QueuePairs

variable {deviceId : Nat} {cfg : Configuration} {answers : Nat → PreallocateAnswer}

theorem acquire_status (steps : List (Option String × (Resources → Resources))) :
    ∀ resources : Resources, (acquire steps resources).2.code = .ok →
      (acquire steps resources).2 = .success := by
  induction steps with
  | nil => exact fun _ _ => rfl
  | cons step steps ih =>
      intro resources
      obtain ⟨message, set⟩ := step
      cases message with
      | none => exact ih (set resources)
      | some message =>
          intro h
          simp [acquire, Status.invalid] at h

theorem preallocateQueuePairs_ne_nil {ids : List Nat} (hne : ids ≠ []) :
    (preallocateQueuePairs deviceId cfg answers ids).1 ≠ [] := by
  cases ids with
  | nil => exact absurd rfl hne
  | cons qpId rest =>
      unfold preallocateQueuePairs
      dsimp only
      split_ifs <;> simp

theorem preallocateQueuePairs_ok :
    ∀ {ids : List Nat}, (preallocateQueuePairs deviceId cfg answers ids).2.code = .ok →
      List.Forall₂ (fun qpId qp =>
        QueuePairMemory.preallocate {} deviceId qpId cfg (answers qpId) = (qp, .success)) ids
        (preallocateQueuePairs deviceId cfg answers ids).1
  | [], _ => .nil
  | qpId :: rest, h => by
      unfold preallocateQueuePairs at h ⊢
      dsimp only at h ⊢
      split_ifs at h ⊢ with hcode
      · exact .cons (Prod.ext rfl (acquire_status _ _ hcode)) (preallocateQueuePairs_ok h)
      · exact absurd h hcode

end QueuePairs

section History

variable {device : CompressDevice} {pool : MemzonePool} {attempt : Attempt} {out : Initialized}

/-- What the call adds to the memories of the queue pairs. -/
theorem initialize_qpMemory (h : device.initializeDevice pool attempt = some out) :
    (device.reachesQueuePairs pool attempt = true ∧ out.device.numQps = device.numQps ∧
      ∃ cfg, out.device.configuration = some cfg ∧ out.device.deviceId = device.deviceId ∧
        out.device.qpMemory = device.qpMemory ++
          (preallocateQueuePairs device.deviceId.toNat cfg attempt.queuePairs
            (List.range device.numQps)).1 ∧
        (out.status.code = .ok →
          (preallocateQueuePairs device.deviceId.toNat cfg attempt.queuePairs
            (List.range device.numQps)).2.code = .ok)) ∨
    (device.reachesQueuePairs pool attempt = false ∧ out.device.numQps = device.numQps ∧
      out.device.qpMemory = device.qpMemory ∧ out.status.code ≠ .ok) := by
  rcases initialize_cases h with ⟨htype, hdevice, -, hcode⟩ | ⟨htype, cfg, status, hvalid, rfl⟩
  · refine Or.inr ⟨?_, by rw [hdevice], by rw [hdevice], by simp [hcode]⟩
    simp [reachesQueuePairs, htype]
  · by_cases hok : status.code = .ok
    · obtain ⟨⟨state, hdevice, -⟩, -, hadded⟩ :=
        @initializeWith_valid device pool attempt cfg status hok
      unfold addedQueuePairs at hdevice hadded
      by_cases hzones : (device.preallocatedMemory pool cfg attempt).2.code = .ok
      · rw [if_pos hzones] at hdevice hadded
        refine Or.inl ⟨?_, ?_, cfg, ?_, ?_, ?_, hadded⟩
        · simp [reachesQueuePairs, htype, hvalid, hok, hzones]
        · rw [hdevice]
          rfl
        · rw [hdevice]
        · rw [hdevice]
        · rw [hdevice]
      · rw [if_neg hzones] at hdevice hadded
        refine Or.inr ⟨?_, ?_, ?_, fun hout => hzones (hadded hout)⟩
        · simp [reachesQueuePairs, hvalid, hzones]
        · rw [hdevice]
          rfl
        · rw [hdevice, List.append_nil]
    · rw [initializeWith_invalid hok]
      refine Or.inr ⟨?_, rfl, rfl, hok⟩
      simp [reachesQueuePairs, hvalid, hok]

/-- One call after another; a call that does not return is left out. -/
def attemptStep (st : CompressDevice × MemzonePool) (attempt : Attempt) :
    CompressDevice × MemzonePool :=
  match st.1.initializeDevice st.2 attempt with
  | none => st
  | some out => (out.device, out.pool)

/-- A call adds memories of queue pairs exactly when it gets as far as these. -/
theorem attemptStep_qpMemory (st : CompressDevice × MemzonePool) (attempt : Attempt) :
    (attemptStep st attempt).1.numQps = st.1.numQps ∧
      ((attemptStep st attempt).1.qpMemory = [] ↔ st.1.qpMemory = [] ∧
        (st.1.numQps = 0 ∨ st.1.reachesQueuePairs st.2 attempt = false)) := by
  obtain ⟨device, pool⟩ := st
  unfold attemptStep
  dsimp only
  split
  · next hnone =>
      have hreach : device.reachesQueuePairs pool attempt = false := by
        unfold reachesQueuePairs
        rw [(initialize_eq_none hnone).2]
        exact Bool.and_false _
      simp [hreach]
  · next out h =>
      rcases initialize_qpMemory h with
        ⟨hreach, hqps, cfg, -, -, hmemory, -⟩ | ⟨hreach, hqps, hsame, -⟩
      · refine ⟨hqps, ?_⟩
        rw [hmemory, List.append_eq_nil_iff, hreach]
        refine and_congr_right fun _ => ⟨fun hnil => Or.inl ?_, fun hzero => ?_⟩
        · by_contra hne
          exact preallocateQueuePairs_ne_nil (by simpa using hne) hnil
        · have hzero := hzero.resolve_right (by simp)
          rw [hzero]
          rfl
      · exact ⟨hqps, by rw [hsame, hreach]; simp⟩

/-- What the calls have left behind in `qp_memory_`. -/
theorem run_qpMemory (st : CompressDevice × MemzonePool) (attempts : List Attempt) :
    (Runs.run attemptStep st attempts).1.numQps = st.1.numQps ∧
      ((Runs.run attemptStep st attempts).1.qpMemory = [] ↔ st.1.qpMemory = [] ∧
        (st.1.numQps = 0 ∨
          Runs.Along attemptStep (fun st attempt => st.1.reachesQueuePairs st.2 attempt = false) st
            attempts)) := by
  induction attempts generalizing st with
  | nil => simp
  | cons attempt attempts ih =>
      obtain ⟨hqps, hstep⟩ := attemptStep_qpMemory st attempt
      obtain ⟨hrunQps, hrun⟩ := ih (attemptStep st attempt)
      rw [hqps] at hrun hrunQps
      rw [Runs.run_cons]
      refine ⟨hrunQps, ?_⟩
      rw [hrun, hstep, Runs.along_cons, and_assoc, ← or_and_left]

theorem hasQueuePairs_iff (h : device.initializeDevice pool attempt = some out)
    (hok : out.status.code = .ok) :
    out.device.HasQueuePairs ↔ device.qpMemory = [] := by
  rcases initialize_qpMemory h with ⟨-, hqps, cfg, hcfg, hid, hmemory, hadded⟩ | ⟨-, -, -, hcode⟩
  · have hall := preallocateQueuePairs_ok (hadded hok)
    have hlen := hall.length_eq
    rw [List.length_range] at hlen
    constructor
    · intro hright
      have hlength := hright.length_eq
      rw [hmemory, List.length_append, hqps, ← hlen] at hlength
      exact List.eq_nil_of_length_eq_zero (by omega)
    · intro hnil
      rw [hnil, List.nil_append] at hmemory
      refine ⟨by rw [hmemory, hqps]; exact hlen.symm, fun queuePairId hlt => ?_⟩
      rw [hqps] at hlt
      have hlt' := hlt
      rw [hlen] at hlt'
      have hone := List.forall₂_iff_get.mp hall
      have hget := hone.2 queuePairId (by rwa [List.length_range]) hlt'
      simp only [List.get_eq_getElem, List.getElem_range] at hget
      rw [hmemory, hid]
      exact ⟨_, cfg, attempt.queuePairs queuePairId, List.getElem?_eq_getElem hlt', hcfg, hget,
        QueuePairMemory.preallocate_success hget⟩
  · exact absurd hok hcode

/-- **The memories of the queue pairs.**  On a new device, `last` returns OK after
any calls before it. -/
theorem queue_pair_memories (deviceId : UInt8) (workerLcores : List Nat) (pool : MemzonePool)
    (earlier : List Attempt) (last : Attempt) {out : Initialized}
    (hlast : (Runs.run attemptStep (new deviceId workerLcores, pool) earlier).1.initializeDevice
      (Runs.run attemptStep (new deviceId workerLcores, pool) earlier).2 last = some out)
    (hok : out.status.code = .ok) :
    out.device.HasQueuePairs ↔ toUInt16 workerLcores.length = 0 ∨
      Runs.Along attemptStep (fun st attempt => st.1.reachesQueuePairs st.2 attempt = false)
        (new deviceId workerLcores, pool) earlier := by
  have hrun := (run_qpMemory (new deviceId workerLcores, pool) earlier).2
  rw [hasQueuePairs_iff hlast hok, hrun]
  exact and_iff_right rfl

end History

/-- An attempt on a device with one queue pair. -/
def sampleAttempt (decompressedSegSize : UInt16) (self : Nat) : Attempt where
  configuration :=
    { burstSize := 2, decompressedSegSize := decompressedSegSize, maxPreallocateMemzones := 20 }
  info := ⟨0, some ⟨true, true, true, ⟨15, 15, 0⟩⟩⟩
  self := self
  memzones := (List.range 20).map some

/-- The device memory of an earlier attempt fails. -/
def sampleShort : Attempt :=
  { sampleAttempt 8 1 with memzones := [some 0, none] }

/-- The mbuf pool of queue pair 0 fails. -/
def sampleNoMbufs : Attempt :=
  { sampleAttempt 8 1 with
    queuePairs := fun _ => { mbufPool := some (12, "Cannot allocate memory") } }

/-- Two attempts on a new device with one queue pair. -/
def sampleRetry (first : Attempt) : Option Initialized :=
  let st := attemptStep (new 0 [1], ⟨∅, fun _ => 0, 0⟩) first
  st.1.initializeDevice st.2 (sampleAttempt 8 2)

theorem queue_pair_memories_sample :
    ∃ out, sampleRetry sampleShort = some out ∧ out.device.HasQueuePairs := by
  have hok : (sampleRetry sampleShort).map (fun out => out.status.code) = some .ok := by
    decide +kernel
  obtain ⟨out, hout, hcode⟩ := Option.map_eq_some_iff.mp hok
  refine ⟨out, hout, ?_⟩
  exact (queue_pair_memories 0 [1] ⟨∅, fun _ => 0, 0⟩ [sampleShort] (sampleAttempt 8 2) hout
    hcode).mpr (Or.inr ⟨by decide +kernel, trivial⟩)

/-- After a first attempt without the mbuf pool, the second returns OK on two
memories, the first of which has no pool. -/
theorem queue_pair_memories_shifted :
    ∃ out, sampleRetry sampleNoMbufs = some out ∧ out.status.code = .ok ∧ out.device.numQps = 1 ∧
      out.device.qpMemory.map (fun qp => qp.resources.mbufPool.isSome) = [false, true] ∧
      ¬ out.device.HasQueuePairs := by
  have h : (sampleRetry sampleNoMbufs).map (fun out => (out.status.code, out.device.numQps,
      out.device.qpMemory.map fun qp => qp.resources.mbufPool.isSome)) =
        some (.ok, 1, [false, true]) := by
    decide +kernel
  obtain ⟨out, hout, he⟩ := Option.map_eq_some_iff.mp h
  simp only [Prod.mk.injEq] at he
  obtain ⟨hcode, hqps, hpools⟩ := he
  refine ⟨out, hout, hcode, hqps, hpools, fun hright => ?_⟩
  have hlen := congrArg List.length hpools
  rw [List.length_map, hright.length_eq, hqps] at hlen
  simp at hlen

end CompressDevice

end Bitar
