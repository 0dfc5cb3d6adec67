import Bitar.Initialize
import Bitar.MemzoneTraffic

/-!
# A device and the calls on it

A `Session` is a compress device with all its queue pairs, each in the middle of
a call or between two calls.  The steps of the calls are those of `Machine`, for
the members of the device that are in force at the time; the steps of different
queue pairs, further calls, `Recycle` and `Initialize` come in any order.

**Results.**
* `initialize_harmless`: exactly when an `Initialize` that fails leaves a started
  device as it was.
-/

namespace Bitar

/-- A queue pair in the driver, and the call in progress on it. -/
structure Lane where
  queue : List Nat := []
  call : Call := .compress ⟨⟨.host 0, 0⟩, 0⟩ 0 []
  pc : Pc := .returned .success

structure Session where
  device : CompressDevice
  pool : MemzonePool
  memory : Memory
  /-- The static counter of `GetErrorCount`. -/
  numMaybeNotOk : Nat := 0
  lanes : Nat → Lane := fun _ => {}

namespace Session

/-- A new device that nobody has called. -/
def begin (deviceId : UInt8) (workerLcores : List Nat) (pool : MemzonePool) (memory : Memory) :
    Session where
  device := .new deviceId workerLcores
  pool := pool
  memory := memory

/-- The queue pair with the members of the device that are in force.  Nothing can
be called before there is a configuration and a device memory. -/
def machine (s : Session) (queuePairId : Nat) : Option Machine :=
  match s.device.configuration, s.device.deviceMemory with
  | some cfg, some deviceMemory =>
      some
        { cfg := cfg
          deviceId := s.device.deviceId.toNat
          queuePairId := queuePairId
          numQps := s.device.numQps
          state := s.device.state
          memory := s.memory
          zones := ⟨deviceMemory, s.pool⟩
          qp := s.device.qpMemory.getD queuePairId {}
          queue := (s.lanes queuePairId).queue
          numMaybeNotOk := s.numMaybeNotOk
          call := (s.lanes queuePairId).call
          pc := (s.lanes queuePairId).pc }
  | _, _ => none

/-- The session after the queue pair has become `st`. -/
def store (s : Session) (queuePairId : Nat) (st : Machine) : Session where
  device := { s.device with
    deviceMemory := some st.zones.device
    qpMemory := s.device.qpMemory.set queuePairId st.qp }
  pool := st.zones.pool
  memory := st.memory
  numMaybeNotOk := st.numMaybeNotOk
  lanes := Function.update s.lanes queuePairId ⟨st.queue, st.call, st.pc⟩

/-- Storing a memory where it comes from. -/
theorem set_getD_self (qps : List QueuePairMemory) (queuePairId : Nat) :
    qps.set queuePairId (qps.getD queuePairId {}) = qps := by
  by_cases hlt : queuePairId < qps.length
  · rw [List.getD_eq_getElem _ _ hlt, List.set_getElem_self]
  · exact List.set_eq_of_length_le (Nat.not_lt.mp hlt)

/-- What can happen to a device. -/
inductive Event
  | initializeDevice (attempt : Attempt)
  | call (queuePairId : Nat) (request : Machine.Request)
  /-- The next step of the call in progress. -/
  | step (queuePairId : Nat) (env : Env)
  | recycle (buffers : List Buffer)

/-- The free and the taken memzones, and the pool they come from. -/
def zones (s : Session) : Option Zones :=
  s.device.deviceMemory.map fun deviceMemory => ⟨deviceMemory, s.pool⟩

/-- Work on one queue pair. -/
def onQueuePair (s : Session) (queuePairId : Nat) (f : Machine → Machine) : Session :=
  match s.machine queuePairId with
  | none => s
  | some st => s.store queuePairId (f st)

def act (debug : Bool) (s : Session) : Event → Session
  | .initializeDevice attempt =>
      match s.device.initializeDevice s.pool attempt with
      | none => s
      | some out => { s with device := out.device, pool := out.pool }
  | .call queuePairId request => s.onQueuePair queuePairId fun st => st.receive request
  | .step queuePairId env => s.onQueuePair queuePairId fun st => Machine.step debug st env
  | .recycle buffers =>
      match s.zones with
      | none => s
      | some zones =>
          let recycled := (zones.recycle (buffers.map Buffer.data)).2
          { s with
            device := { s.device with deviceMemory := some recycled.device }
            pool := recycled.pool }

/-! ## `Initialize` on a started device -/

/-- What an `Initialize` that has failed should leave alone.  The pool is part of
it: memzones under buffers that the user still holds are not freed. -/
structure Harmless (debug : Bool) (s after : Session) : Prop where
  configuration_eq : after.device.configuration = s.device.configuration
  deviceMemory_eq : after.device.deviceMemory = s.device.deviceMemory
  qpMemory_eq : after.device.qpMemory = s.device.qpMemory
  pool_eq : after.pool = s.pool
  later : ∀ events : List Event,
    Runs.run (act debug) after events = Runs.run (act debug) s events

/-- **A failed `Initialize`.**  Whatever the state of the device is and whatever
the call returns, it leaves everything as it was exactly if the configuration is
turned away, or fails the checks and is what is in force already.  The address
of the new device memory differs from that of the old one, since both exist at
the same time. -/
theorem initialize_harmless {s : Session} {attempt : Attempt} {out : Initialized}
    (h : s.device.initializeDevice s.pool attempt = some out) (debug : Bool)
    (hself : ∀ old, s.device.deviceMemory = some old → attempt.self ≠ old.self) :
    Harmless debug s (s.act debug (.initializeDevice attempt)) ↔
      attempt.configuration.typeName ≠ kBlueFieldConfigurationTypeName ∨
      ∃ cfg status, validateConfiguration attempt.fuel s.device.deviceId s.device.numQps
          attempt.info attempt.configuration = some (cfg, status) ∧
        status.code ≠ .ok ∧ s.device.configuration = some cfg := by
  have hact : s.act debug (.initializeDevice attempt) =
      { s with device := out.device, pool := out.pool } := by
    dsimp only [act]
    rw [h]
  rw [hact]
  have hsame : out.device = s.device → out.pool = s.pool →
      Harmless debug s { s with device := out.device, pool := out.pool } := by
    intro hdevice hpool
    rw [hdevice, hpool]
    exact ⟨rfl, rfl, rfl, rfl, fun _ => rfl⟩
  rcases CompressDevice.initialize_cases h with
    ⟨htype, hdevice, hpool, -⟩ | ⟨htype, cfg, status, hvalid, rfl⟩
  · exact ⟨fun _ => Or.inl htype, fun _ => hsame hdevice hpool⟩
  · by_cases hok : status.code = .ok
    · -- the old device memory is gone
      obtain ⟨⟨state, hdevice, -⟩, -, -⟩ :=
        @CompressDevice.initializeWith_valid s.device s.pool attempt cfg status hok
      constructor
      · intro hharmless
        have hmemory := hharmless.deviceMemory_eq
        dsimp only at hmemory
        rw [hdevice] at hmemory
        dsimp only at hmemory
        have hnew := Zones.preallocate_self (s.device.newDeviceMemory s.pool cfg attempt)
          s.device.deviceId.toNat cfg attempt.memzones
        exact absurd hnew.symm (hself _ hmemory.symm)
      · rintro (hne | ⟨cfg', status', hvalid', hne, -⟩)
        · exact absurd htype hne
        · rw [hvalid, Option.some.injEq, Prod.mk.injEq] at hvalid'
          exact absurd (hvalid'.2 ▸ hok) hne
    · rw [CompressDevice.initializeWith_invalid hok] at hsame ⊢
      constructor
      · intro hharmless
        exact Or.inr ⟨cfg, status, hvalid, hok, hharmless.configuration_eq.symm⟩
      · rintro (hne | ⟨cfg', status', hvalid', -, hcfg⟩)
        · exact absurd htype hne
        · rw [hvalid, Option.some.injEq, Prod.mk.injEq] at hvalid'
          obtain ⟨rfl, -⟩ := hvalid'
          exact hsame (by rw [← hcfg]) rfl

/-- A device with one queue pair that has just been started. -/
def sampleSession : Session :=
  act false ⟨.new 0 [1], ⟨∅, fun _ => 0, 0⟩, fun _ i => UInt8.ofNat i, 0, fun _ => {}⟩
    (.initializeDevice (CompressDevice.sampleAttempt 8 1))

/-- An attempt with another burst size. -/
def sampleBurstSize (burstSize : UInt16) (typeName : String) : Attempt :=
  { CompressDevice.sampleAttempt 8 2 with
    configuration :=
      { typeName := typeName
        burstSize := burstSize
        decompressedSegSize := 8
        maxPreallocateMemzones := 20 } }

/-- `Compress` on eight bytes. -/
def sampleCompress : List Event :=
  [.call 0 (.compress (some ⟨⟨.host 1, 0⟩, 8⟩)), .step 0 {}]

theorem initialize_harmless_sample :
    Harmless false sampleSession
      (sampleSession.act false (.initializeDevice (sampleBurstSize 4 "generic"))) := by
  have hsome : (sampleSession.device.initializeDevice sampleSession.pool
      (sampleBurstSize 4 "generic")).isSome = true := by
    decide +kernel
  obtain ⟨out, h⟩ := Option.isSome_iff_exists.mp hsome
  have hself : sampleSession.device.deviceMemory.map DeviceMemory.self = some 1 := by
    decide +kernel
  refine (initialize_harmless h false ?_).mpr (Or.inl (by decide))
  intro old hold
  rw [hold, Option.map_some, Option.some.injEq] at hself
  rw [hself]
  decide

/-- The device after an attempt with a burst size of 0. -/
def sampleBroken : Session :=
  sampleSession.act false
    (.initializeDevice (sampleBurstSize 0 kBlueFieldConfigurationTypeName))

/-- A configuration with a burst size of 0 fails the checks, and a later
`Compress` on eight bytes returns OK without having compressed any of them. -/
theorem initialize_harmless_burst_zero :
    ∃ out, sampleSession.device.initializeDevice sampleSession.pool
        (sampleBurstSize 0 kBlueFieldConfigurationTypeName) = some out ∧
      sampleSession.device.state = .started ∧ out.status.code = .invalid ∧
      out.device.state = .started ∧
      ((Runs.run (act false) sampleBroken sampleCompress).lanes 0).pc = .returned .success ∧
      ((Runs.run (act false) sampleBroken sampleCompress).lanes 0).call =
        .compress ⟨⟨.host 1, 0⟩, 8⟩ 0 [] ∧
      ¬ Harmless false sampleSession sampleBroken := by
  have h : (sampleSession.device.initializeDevice sampleSession.pool
      (sampleBurstSize 0 kBlueFieldConfigurationTypeName)).map
        (fun out => (out.status.code, out.device.state)) = some (.invalid, .started) := by
    decide +kernel
  obtain ⟨out, hout, he⟩ := Option.map_eq_some_iff.mp h
  obtain ⟨hcode, hstate⟩ := Prod.mk.inj he
  refine ⟨out, hout, by decide +kernel, hcode, hstate, by decide +kernel, by decide +kernel,
    fun hharmless => ?_⟩
  have hcfg := hharmless.configuration_eq
  exact absurd hcfg (by decide +kernel)

end Session

end Bitar
