import Bitar.Sessions

/-!
# The entries of `Compress` and `Decompress`

Both functions turn a call away before they touch the queue pair.  `Compress`
calls `EntryGuard` first.  `Decompress` first computes the capacity that it needs
of its destination, for which it reads the configuration; on a device that has
none this is a null pointer.

The entries are stated here on the whole device, with every pointer they go
through.  They write to nothing but their result.

**Results.**
* `run_setUp`: a device that has started has a configuration, a device memory and
  the memories of all its queue pairs, after any history.
* `guarded_entry`: exactly when the two entries do what they are there for.
-/

namespace Bitar

/-- What is dereferenced although it is not there. -/
inductive NullPointer
  | configuration
  | qpMemory (queuePairId : Nat)
deriving DecidableEq, Repr

namespace CompressDevice

/-- `EntryGuard`, which looks at the memory of the queue pair last. -/
def entryGuard (device : CompressDevice) (queuePairId : Nat) : Except NullPointer Status :=
  let guard := Bitar.entryGuard device.deviceId.toNat device.state device.numQps queuePairId
  if device.state.rank < DeviceState.started.rank ∨ device.numQps ≤ queuePairId then
    .ok (guard {})
  else
    match device.qpMemory[queuePairId]? with
    | none => .error (.qpMemory queuePairId)
    | some qp => .ok (guard qp)

/-- `ARROW_RETURN_NOT_OK`: the status that is returned, if any. -/
def returnNotOk (status : Status) : Option Status :=
  if status.code = .ok then none else some status

/-- `Compress` up to its first access to the queue pair; the result is `none` when
it goes on. -/
def compressEntry (device : CompressDevice) (queuePairId : Nat) :
    Option Buffer → Except NullPointer (Option Status)
  | none => .ok (some .success)
  | some decompressedBuffer =>
      if decompressedBuffer.size = 0 then .ok (some .success)
      else (device.entryGuard queuePairId).map returnNotOk

/-- `Decompress` up to its first access to the queue pair. -/
def decompressEntry (device : CompressDevice) (queuePairId : Nat)
    (compressedBuffers : List Buffer) (decompressedBuffer : Option ResizableBuffer) :
    Except NullPointer (Option Status) :=
  if compressedBuffers = [] then .ok (some .success)
  else
    match device.configuration with
    | none => .error .configuration
    | some cfg =>
        let minDecompressedBufferCapacity :=
          compressedBuffers.length * cfg.decompressedSegSize.toNat
        let capacityError : Status :=
          ⟨.capacityError, s!"The decompressed_buffer is required to be >= {minDecompressedBufferCapacity} bytes"⟩
        match decompressedBuffer with
        | none => .ok (some capacityError)
        | some output =>
            if output.capacity < minDecompressedBufferCapacity then .ok (some capacityError)
            else (device.entryGuard queuePairId).map returnNotOk

/-- The entry of a call. -/
def enter (device : CompressDevice) (queuePairId : Nat) :
    Machine.Request → Except NullPointer (Option Status)
  | .compress decompressedBuffer => device.compressEntry queuePairId decompressedBuffer
  | .decompress compressedBuffers decompressedBuffer =>
      device.decompressEntry queuePairId compressedBuffers decompressedBuffer

/-- Operations of an earlier call are pending. -/
def Busy (device : CompressDevice) (queuePairId : Nat) : Prop :=
  ∃ qp, device.qpMemory[queuePairId]? = some qp ∧ qp.hasPendingOperations = true

/-- A device on which no call may work on this queue pair. -/
def Closed (device : CompressDevice) (queuePairId : Nat) : Prop :=
  device.state.rank < DeviceState.started.rank ∨ device.numQps ≤ queuePairId ∨
    device.Busy queuePairId

/-- What a call relies on once it has passed `EntryGuard`. -/
structure Equipped (device : CompressDevice) : Prop where
  configuration_ne : device.configuration ≠ none
  deviceMemory_ne : device.deviceMemory ≠ none
  numQps_le : device.numQps ≤ device.qpMemory.length

/-- A device that has started is equipped. -/
def SetUp (device : CompressDevice) : Prop :=
  device.state = .started → device.Equipped

theorem new_setUp (deviceId : UInt8) (workerLcores : List Nat) :
    (new deviceId workerLcores).SetUp := by
  intro h
  simp [new] at h

theorem not_rank_lt {state : DeviceState} :
    ¬ state.rank < DeviceState.started.rank ↔ state = .started := by
  cases state <;> decide

/-! ## One `Initialize` -/

section Initialize

variable {device : CompressDevice} {pool : MemzonePool} {attempt : Attempt} {out : Initialized}

/-- Only the last step of `Initialize` starts the device. -/
theorem bringUp_started (h : (device.bringUp attempt).1.state = .started) :
    device.state = .started ∨ (device.bringUp attempt).2.code = .ok := by
  unfold bringUp at h ⊢
  split_ifs at h ⊢ with hconfigure hstart
  · exact Or.inl h
  · dsimp only at h
    split at h <;> simp at h
  · dsimp only at h ⊢
    split at h
    · simp at h
    · exact Or.inr rfl

theorem initializeWith_started {cfg : Configuration} {status : Status}
    (h : (device.initializeWith pool attempt cfg status).device.state = .started) :
    device.state = .started ∨
      (device.initializeWith pool attempt cfg status).status.code = .ok := by
  have hstate : ∀ device : CompressDevice,
      (device.preAllocateMemory pool cfg attempt).device.state = device.state := by
    intro device
    unfold preAllocateMemory
    dsimp only
    split_ifs <;> rfl
  unfold initializeWith at h ⊢
  dsimp only at h ⊢
  split_ifs at h ⊢ with hok hallocated
  · rcases bringUp_started h with hstarted | hup
    · rw [hstate] at hstarted
      exact Or.inl hstarted
    · exact Or.inr hup
  · rw [hstate] at h
    exact Or.inl h
  · exact Or.inl h

/-- The memories of the queue pairs stay, and a call that returns OK adds one for
every queue pair. -/
theorem initialize_numQps_le (h : device.initializeDevice pool attempt = some out) :
    device.qpMemory.length ≤ out.device.qpMemory.length ∧
      (out.status.code = .ok → out.device.numQps ≤ out.device.qpMemory.length) := by
  rcases initialize_qpMemory h with ⟨-, hqps, cfg, -, -, hmemory, hadded⟩ | ⟨-, -, hsame, hcode⟩
  · rw [hmemory, hqps, List.length_append]
    refine ⟨Nat.le_add_right _ _, fun hok => ?_⟩
    have hlen := (preallocateQueuePairs_ok (hadded hok)).length_eq
    rw [List.length_range] at hlen
    omega
  · exact ⟨by rw [hsame], fun hok => absurd hok hcode⟩

/-- Configurations and device memories are replaced, never taken away. -/
theorem initialize_keeps (h : device.initializeDevice pool attempt = some out) :
    out.device.numQps = device.numQps ∧
      (device.configuration ≠ none → out.device.configuration ≠ none) ∧
      (device.deviceMemory ≠ none → out.device.deviceMemory ≠ none) ∧
      (out.status.code = .ok →
        out.device.configuration ≠ none ∧ out.device.deviceMemory ≠ none) := by
  rcases initialize_cases h with ⟨-, hdevice, -, hcode⟩ | ⟨-, cfg, status, -, rfl⟩
  · rw [hdevice]
    exact ⟨rfl, id, id, fun hok => absurd (hcode.symm.trans hok) (by decide)⟩
  · by_cases hok : status.code = .ok
    · obtain ⟨⟨state, hdevice, -⟩, -, -⟩ :=
        @initializeWith_valid device pool attempt cfg status hok
      rw [hdevice]
      exact ⟨rfl, by simp, by simp, by simp⟩
    · rw [initializeWith_invalid hok]
      exact ⟨rfl, by simp, id, fun h => absurd h hok⟩

theorem SetUp.initialize (hsetUp : device.SetUp)
    (h : device.initializeDevice pool attempt = some out) : out.device.SetUp := by
  obtain ⟨hqps, hconfiguration, hmemory, hnew⟩ := initialize_keeps h
  obtain ⟨hlength, hadded⟩ := initialize_numQps_le h
  intro hstarted
  have hcase : device.state = .started ∨ out.status.code = .ok := by
    rcases initialize_cases h with ⟨-, hdevice, -, -⟩ | ⟨-, cfg, status, -, rfl⟩
    · rw [hdevice] at hstarted
      exact Or.inl hstarted
    · exact initializeWith_started hstarted
  rcases hcase with hbefore | hok
  · have hright := hsetUp hbefore
    exact ⟨hconfiguration hright.configuration_ne, hmemory hright.deviceMemory_ne,
      by rw [hqps]; exact hright.numQps_le.trans hlength⟩
  · exact ⟨(hnew hok).1, (hnew hok).2, hadded hok⟩

end Initialize

/-! ## One entry -/

section Entry

variable {device : CompressDevice} {queuePairId : Nat}

/-- The guard finds what it looks for on a device that is set up. -/
theorem entryGuard_ok (hsetUp : device.SetUp) :
    ∃ status, device.entryGuard queuePairId = .ok status ∧
      (device.Closed queuePairId ↔ status.code ≠ .ok) ∧
      ∀ qp, qp = device.qpMemory.getD queuePairId {} →
        status =
          Bitar.entryGuard device.deviceId.toNat device.state device.numQps queuePairId qp := by
  unfold entryGuard
  dsimp only
  split_ifs with hearly
  · refine ⟨_, rfl, iff_of_true ?_ ?_, ?_⟩
    · exact hearly.imp_right Or.inl
    · rcases hearly with hstate | hid
      · simp [Bitar.entryGuard, hstate, Status.invalid]
      · unfold Bitar.entryGuard
        split_ifs <;> simp [Status.invalid]
    · rintro qp -
      rcases hearly with hstate | hid
      · simp [Bitar.entryGuard, hstate]
      · simp [Bitar.entryGuard, hid]
  · rw [not_or, not_rank_lt, Nat.not_le] at hearly
    have hlt := hearly.2.trans_le (hsetUp hearly.1).numQps_le
    rw [List.getElem?_eq_getElem hlt]
    refine ⟨_, rfl, ?_, ?_⟩
    · rw [Closed, Busy, List.getElem?_eq_getElem hlt, hearly.1]
      simp only [Option.some.injEq, exists_eq_left', lt_self_iff_false, false_or,
        Nat.not_le.mpr hearly.2, Bitar.entryGuard, if_false]
      split_ifs with hbusy <;> simp [hbusy, Status.success]
    · rintro qp rfl
      rw [List.getD_eq_getElem _ _ hlt]

/-- A status that is not OK is returned as it is. -/
theorem map_returnNotOk {guard : Except NullPointer Status} {status : Status}
    (h : guard = .ok status) : guard.map returnNotOk = .ok (returnNotOk status) := by
  rw [h]
  rfl

theorem returnNotOk_of_ne {status : Status} (h : status.code ≠ .ok) :
    returnNotOk status = some status :=
  if_neg h

/-- The entry of a call with something to do and, where it needs one, a
configuration and a large enough destination. -/
theorem compressEntry_eq {input : Buffer} (hinput : input.size ≠ 0) :
    device.compressEntry queuePairId (some input) =
      (device.entryGuard queuePairId).map returnNotOk :=
  if_neg hinput

theorem decompressEntry_eq {cfg : Configuration} {buffers : List Buffer} {output : ResizableBuffer}
    (hcfg : device.configuration = some cfg) (hbuffers : buffers ≠ [])
    (hcapacity : buffers.length * cfg.decompressedSegSize.toNat ≤ output.capacity) :
    device.decompressEntry queuePairId buffers (some output) =
      (device.entryGuard queuePairId).map returnNotOk := by
  unfold decompressEntry
  rw [if_neg hbuffers, hcfg]
  exact if_neg (Nat.not_lt.mpr hcapacity)

/-- The only null pointer that a call can meet. -/
theorem decompressEntry_unconfigured {buffers : List Buffer} {output : Option ResizableBuffer}
    (hcfg : device.configuration = none) (hbuffers : buffers ≠ []) :
    device.decompressEntry queuePairId buffers output = .error .configuration := by
  unfold decompressEntry
  rw [if_neg hbuffers, hcfg]

/-- The call reads the configuration before `EntryGuard`. -/
def ReadsConfiguration : Machine.Request → Prop
  | .compress _ => False
  | .decompress compressedBuffers _ => compressedBuffers ≠ []

/-- A call that is not to work returns a status. -/
theorem enter_closed (hsetUp : device.SetUp) (hclosed : device.Closed queuePairId)
    {request : Machine.Request}
    (hconfigured : ReadsConfiguration request → device.configuration ≠ none) :
    ∃ status, device.enter queuePairId request = .ok (some status) := by
  obtain ⟨status, hguard, hcode, -⟩ := @entryGuard_ok device queuePairId hsetUp
  have hreturned : (device.entryGuard queuePairId).map returnNotOk = .ok (some status) := by
    rw [map_returnNotOk hguard, returnNotOk_of_ne (hcode.mp hclosed)]
  cases request with
  | compress input =>
      cases input with
      | none => exact ⟨_, rfl⟩
      | some input =>
          by_cases hinput : input.size = 0
          · exact ⟨_, if_pos hinput⟩
          · exact ⟨status, (compressEntry_eq hinput).trans hreturned⟩
  | decompress buffers output =>
      by_cases hbuffers : buffers = []
      · exact ⟨_, if_pos hbuffers⟩
      · obtain ⟨cfg, hcfg⟩ := Option.ne_none_iff_exists'.mp (hconfigured hbuffers)
        simp only [enter, decompressEntry]
        rw [if_neg hbuffers, hcfg]
        cases output with
        | none => exact ⟨_, rfl⟩
        | some output =>
            dsimp only
            split_ifs with hcapacity
            · exact ⟨_, rfl⟩
            · exact ⟨status, hreturned⟩

/-- A call that goes on finds everything it relies on. -/
theorem enter_goes_on (hsetUp : device.SetUp) {request : Machine.Request}
    (h : device.enter queuePairId request = .ok none) :
    device.Equipped ∧ ¬ device.Closed queuePairId := by
  obtain ⟨status, hguard, hcode, -⟩ := @entryGuard_ok device queuePairId hsetUp
  have hpassed : (device.entryGuard queuePairId).map returnNotOk = .ok none := by
    cases request with
    | compress input =>
        cases input with
        | none => simp [enter, compressEntry] at h
        | some input =>
            simp only [enter, compressEntry] at h
            split_ifs at h
            · simp at h
            · exact h
    | decompress buffers output =>
        simp only [enter, decompressEntry] at h
        split_ifs at h
        · simp at h
        · split at h
          · simp at h
          · cases output with
            | none => simp at h
            | some output =>
                dsimp only at h
                split_ifs at h
                · simp at h
                · exact h
  rw [map_returnNotOk hguard, Except.ok.injEq] at hpassed
  have hok : status.code = .ok := by
    by_contra hne
    rw [returnNotOk_of_ne hne] at hpassed
    simp at hpassed
  have hopen : ¬ device.Closed queuePairId := fun hclosed => hcode.mp hclosed hok
  refine ⟨hsetUp (not_rank_lt.mp fun hlt => hopen (Or.inl hlt)), hopen⟩

/-- With something to do and a large enough destination, both functions turn away
the same calls. -/
def SameGuard (device : CompressDevice) : Prop :=
  ∀ (queuePairId : Nat) (input : Buffer) (buffers : List Buffer) (output : ResizableBuffer),
    input.size ≠ 0 → buffers ≠ [] →
    (∀ cfg, device.configuration = some cfg →
      buffers.length * cfg.decompressedSegSize.toNat ≤ output.capacity) →
    device.enter queuePairId (.compress (some input)) =
      device.enter queuePairId (.decompress buffers (some output))

theorem sameGuard_iff (hsetUp : device.SetUp) :
    device.SameGuard ↔ device.configuration ≠ none := by
  constructor
  · intro hsame hcfg
    have h := hsame 0 ⟨⟨.host 0, 0⟩, 1⟩ [⟨⟨.host 0, 0⟩, 1⟩] ⟨⟨.host 0, 0⟩, 0, 0⟩ (by decide)
      (by decide) (by simp [hcfg])
    obtain ⟨status, hguard, -, -⟩ := @entryGuard_ok device 0 hsetUp
    rw [enter, enter, compressEntry_eq (by decide), map_returnNotOk hguard,
      decompressEntry_unconfigured hcfg (by decide)] at h
    simp at h
  · intro hne queuePairId input buffers output hinput hbuffers hcapacity
    obtain ⟨cfg, hcfg⟩ := Option.ne_none_iff_exists'.mp hne
    rw [enter, enter, compressEntry_eq hinput,
      decompressEntry_eq hcfg hbuffers (hcapacity cfg hcfg)]

end Entry

end CompressDevice

namespace Session

open CompressDevice

/-- Everything that outlives a call is as it was, and so is a call in progress. -/
structure Untouched (s after : Session) : Prop where
  device_eq : after.device = s.device
  pool_eq : after.pool = s.pool
  memory_eq : after.memory = s.memory
  numMaybeNotOk_eq : after.numMaybeNotOk = s.numMaybeNotOk
  queue_eq : ∀ queuePairId, (after.lanes queuePairId).queue = (s.lanes queuePairId).queue
  lane_eq : ∀ queuePairId, (∀ status, (s.lanes queuePairId).pc ≠ .returned status) →
    after.lanes queuePairId = s.lanes queuePairId

/-- No configuration comes out of this event: it is no `Initialize`, or one that
turns its configuration away or does not return. -/
def BringsNoConfiguration (s : Session) (event : Event) : Prop :=
  ∀ attempt, event = .initializeDevice attempt →
    attempt.configuration.typeName ≠ kBlueFieldConfigurationTypeName ∨
      s.device.initializeDevice s.pool attempt = none

section Act

variable {s : Session} {debug : Bool}

/-- Work on a queue pair stores its results in the members that are there. -/
theorem onQueuePair_keeps (s : Session) (queuePairId : Nat) (f : Machine → Machine) :
    (s.onQueuePair queuePairId f).device.configuration = s.device.configuration ∧
      (s.onQueuePair queuePairId f).device.state = s.device.state ∧
      (s.onQueuePair queuePairId f).device.numQps = s.device.numQps ∧
      ((s.onQueuePair queuePairId f).device.deviceMemory = none ↔ s.device.deviceMemory = none) ∧
      (s.onQueuePair queuePairId f).device.qpMemory.length = s.device.qpMemory.length := by
  unfold onQueuePair
  split
  · exact ⟨rfl, rfl, rfl, Iff.rfl, rfl⟩
  · next st hst =>
      refine ⟨rfl, rfl, rfl, ?_, List.length_set⟩
      unfold machine at hst
      split at hst
      · next cfg deviceMemory hcfg hmemory => simp [store, hmemory]
      · simp at hst

/-- Storing the members that a queue pair was put together from. -/
theorem store_device {queuePairId : Nat} {st st' : Machine} (hst : s.machine queuePairId = some st)
    (hzones : st'.zones = st.zones) (hqp : st'.qp = st.qp) :
    (s.store queuePairId st').device = s.device ∧ (s.store queuePairId st').pool = s.pool := by
  unfold machine at hst
  split at hst
  · next cfg deviceMemory hcfg hmemory =>
      obtain rfl := Option.some.inj hst
      dsimp only at hzones hqp
      unfold store
      rw [hzones, hqp, set_getD_self, ← hmemory]
      exact ⟨rfl, rfl⟩
  · simp at hst

theorem machine_shared {queuePairId : Nat} {st : Machine} (hst : s.machine queuePairId = some st) :
    st.memory = s.memory ∧ st.numMaybeNotOk = s.numMaybeNotOk ∧
      s.lanes queuePairId = ⟨st.queue, st.call, st.pc⟩ := by
  unfold machine at hst
  split at hst
  · obtain rfl := Option.some.inj hst
    exact ⟨rfl, rfl, rfl⟩
  · simp at hst

/-- A configuration that is in force stays or is replaced. -/
theorem act_configuration (s : Session) (debug : Bool) (event : Event) :
    (s.act debug event).device.configuration = none ↔
      s.device.configuration = none ∧ s.BringsNoConfiguration event := by
  cases event with
  | initializeDevice attempt =>
      simp only [act, BringsNoConfiguration, Event.initializeDevice.injEq, forall_eq']
      cases h : s.device.initializeDevice s.pool attempt with
      | none => simp
      | some out =>
          simp only [reduceCtorEq, or_false]
          rcases initialize_cases h with ⟨htype, hdevice, -, -⟩ | ⟨htype, cfg, status, -, rfl⟩
          · rw [hdevice]
            exact (and_iff_left htype).symm
          · refine iff_of_false ?_ fun hnot => hnot.2 htype
            by_cases hok : status.code = .ok
            · obtain ⟨⟨state, hdevice, -⟩, -, -⟩ :=
                @initializeWith_valid s.device s.pool attempt cfg status hok
              simp [hdevice]
            · simp [initializeWith_invalid hok]
  | call queuePairId request =>
      simp [act, BringsNoConfiguration, (onQueuePair_keeps s queuePairId _).1]
  | step queuePairId env =>
      simp [act, BringsNoConfiguration, (onQueuePair_keeps s queuePairId _).1]
  | recycle buffers =>
      simp only [act, BringsNoConfiguration, reduceCtorEq, false_implies, implies_true, and_true]
      cases s.zones <;> rfl

theorem onQueuePair_setUp (hsetUp : s.device.SetUp) (queuePairId : Nat) (f : Machine → Machine) :
    (s.onQueuePair queuePairId f).device.SetUp := by
  obtain ⟨hcfg, hstate, hqps, hmemory, hlength⟩ := onQueuePair_keeps s queuePairId f
  intro hstarted
  have hright := hsetUp (hstate.symm.trans hstarted)
  exact ⟨by rw [hcfg]; exact hright.configuration_ne,
    fun hnone => hright.deviceMemory_ne (hmemory.mp hnone),
    by rw [hqps, hlength]; exact hright.numQps_le⟩

theorem act_setUp (hsetUp : s.device.SetUp) (event : Event) : (s.act debug event).device.SetUp := by
  cases event with
  | initializeDevice attempt =>
      simp only [act]
      cases h : s.device.initializeDevice s.pool attempt with
      | none => exact hsetUp
      | some out => exact hsetUp.initialize h
  | call queuePairId request => exact onQueuePair_setUp hsetUp queuePairId _
  | step queuePairId env => exact onQueuePair_setUp hsetUp queuePairId _
  | recycle buffers =>
      simp only [act]
      cases s.zones with
      | none => exact hsetUp
      | some zones =>
          intro hstarted
          have hright := hsetUp hstarted
          exact ⟨hright.configuration_ne, by simp, hright.numQps_le⟩

/-- On the queue pair, the entry is the one of `Machine`. -/
theorem enter_start {queuePairId : Nat} {st : Machine} (hsetUp : s.device.SetUp)
    (hst : s.machine queuePairId = some st) (request : Machine.Request) :
    ∃ status, s.device.enter queuePairId request = .ok status ∧
      (st.start request).pc = status.elim .assemble .returned := by
  obtain ⟨guard, hguard, -, heq⟩ := @entryGuard_ok s.device queuePairId hsetUp
  unfold machine at hst
  split at hst
  · next cfg deviceMemory hcfg hmemory =>
      obtain rfl := Option.some.inj hst
      have hpc : ∀ status : Status, status = guard →
          (if status.code = .ok then Pc.assemble else .returned status) =
            (returnNotOk guard).elim .assemble .returned := by
        rintro status rfl
        unfold returnNotOk
        split_ifs <;> rfl
      cases request with
      | compress input =>
          cases input with
          | none => exact ⟨_, rfl, rfl⟩
          | some input =>
              by_cases hinput : input.size = 0
              · exact ⟨_, if_pos hinput, if_pos hinput⟩
              · refine ⟨_, (compressEntry_eq hinput).trans (map_returnNotOk hguard), ?_⟩
                exact (if_neg hinput).trans (hpc _ (heq _ rfl).symm)
      | decompress buffers output =>
          by_cases hbuffers : buffers = []
          · refine ⟨_, if_pos hbuffers, ?_⟩
            cases output <;> simp [Machine.start, Machine.decompress, hbuffers]
          · simp only [enter, decompressEntry, Machine.start, Machine.decompress, hcfg, hbuffers,
              if_false]
            cases output with
            | none => exact ⟨_, rfl, rfl⟩
            | some output =>
                dsimp only
                split_ifs with hcapacity hok
                · exact ⟨_, rfl, rfl⟩
                · exact ⟨_, map_returnNotOk hguard,
                    (if_pos hok).symm.trans (hpc _ (heq _ rfl).symm)⟩
                · exact ⟨_, map_returnNotOk hguard,
                    (if_neg hok).symm.trans (hpc _ (heq _ rfl).symm)⟩
  · simp at hst

/-- A call that is turned away changes nothing that outlives it. -/
theorem call_untouched (hsetUp : s.device.SetUp) {queuePairId : Nat} {request : Machine.Request}
    {status : Status} (h : s.device.enter queuePairId request = .ok (some status)) :
    Untouched s (s.act debug (.call queuePairId request)) := by
  simp only [act, onQueuePair]
  cases hst : s.machine queuePairId with
  | none => exact ⟨rfl, rfl, rfl, rfl, fun _ => rfl, fun _ _ => rfl⟩
  | some st =>
      obtain ⟨hdevice, hpool⟩ := store_device hst (Machine.receive_zones st request)
        (Machine.receive_qp st request)
      obtain ⟨hmemory, hcounter, hlane⟩ := machine_shared hst
      refine ⟨hdevice, hpool, (Machine.receive_memory st request).trans hmemory,
        (Machine.receive_counter st request).trans hcounter, fun other => ?_, fun other hbusy => ?_⟩
      · by_cases hother : other = queuePairId
        · rw [hother, hlane]
          simp [store]
        · simp [store, Function.update_of_ne hother]
      · by_cases hother : other = queuePairId
        · subst hother
          obtain ⟨answer, hanswer, hpc⟩ := enter_start hsetUp hst request
          obtain rfl := Except.ok.inj (h.symm.trans hanswer)
          have hrefuses : st.Refuses request := by
            refine ⟨Option.eq_none_iff_forall_ne_some.mpr fun result hresult => ?_, ?_⟩
            · rw [hlane] at hbusy
              exact hbusy result (Machine.result_eq_some.mp hresult)
            · rw [Machine.result_eq_some.mpr hpc]
              simp
          have hkept : st.receive request = st := if_pos hrefuses
          simp [store, hkept, hlane]
        · simp [store, Function.update_of_ne hother]

end Act

/-- What `Compress` and `Decompress` should do with a call that is not to work. -/
def Guarded (debug : Bool) (s : Session) (queuePairId : Nat) (request : Machine.Request) : Prop :=
  s.device.Closed queuePairId →
    ∃ status, s.device.enter queuePairId request = .ok (some status) ∧
      Untouched s (s.act debug (.call queuePairId request))

section History

variable (debug : Bool) (deviceId : UInt8) (workerLcores : List Nat) (pool : MemzonePool)
  (memory : Memory) (events : List Event)

/-- A device that has started is equipped, after any history. -/
theorem run_setUp :
    (Runs.run (act debug) (begin deviceId workerLcores pool memory)
      events).device.SetUp :=
  Runs.run_invariant (I := fun s : Session => s.device.SetUp) (fun _ event h => act_setUp h event)
    events (new_setUp deviceId workerLcores)

/-- The device has a configuration once one has come out of an event. -/
theorem run_configuration (s : Session) :
    (Runs.run (act debug) s events).device.configuration = none ↔
      s.device.configuration = none ∧ Runs.Along (act debug) BringsNoConfiguration s events := by
  induction events generalizing s with
  | nil => simp
  | cons event events ih => rw [Runs.run_cons, ih, act_configuration, Runs.along_cons, and_assoc]

/-- **Guarded entry.**  After any history, a call does what it should exactly if it
is not a `Decompress` of some buffers on a device that no `Initialize` has given a
configuration; and there the two functions do not agree. -/
theorem guarded_entry :
    let start := begin deviceId workerLcores pool memory
    let s := Runs.run (act debug) start events
    (∀ queuePairId request, Guarded debug s queuePairId request ↔
      ¬ (ReadsConfiguration request ∧ Runs.Along (act debug) BringsNoConfiguration start events)) ∧
    (s.device.SameGuard ↔ ¬ Runs.Along (act debug) BringsNoConfiguration start events) := by
  intro start s
  have hsetUp : s.device.SetUp :=
    run_setUp debug deviceId workerLcores pool memory events
  have hcfg : s.device.configuration = none ↔
      Runs.Along (act debug) BringsNoConfiguration start events :=
    (run_configuration debug events start).trans (and_iff_right rfl)
  rw [← hcfg]
  refine ⟨fun queuePairId request => ⟨fun hguarded => ?_, fun hnot hclosed => ?_⟩,
    sameGuard_iff hsetUp⟩
  · rintro ⟨hreads, hnone⟩
    -- without a configuration the device has not started
    have hclosed : s.device.Closed queuePairId := by
      left
      by_contra hge
      exact (hsetUp (not_rank_lt.mp hge)).configuration_ne hnone
    obtain ⟨status, hstatus, -⟩ := hguarded hclosed
    cases request with
    | compress input => exact hreads
    | decompress buffers output =>
        rw [enter, decompressEntry_unconfigured hnone hreads] at hstatus
        simp at hstatus
  · obtain ⟨status, hstatus⟩ := enter_closed hsetUp hclosed fun hreads hnone => hnot ⟨hreads, hnone⟩
    exact ⟨status, hstatus, call_untouched hsetUp hstatus⟩

end History

/-- `Decompress` of one buffer on a device that was never initialized; `Compress`
says that the device has not started. -/
theorem guarded_entry_uninitialized :
    let s := begin 0 [1] ⟨∅, fun _ => 0, 0⟩ (fun _ _ => 0)
    s.device.enter 0 (.compress (some ⟨⟨.host 1, 0⟩, 8⟩)) =
        .ok (some (.invalid "Compress device 0 has not started. [Current state: kUndefined]")) ∧
      s.device.enter 0 (.decompress [⟨⟨.host 1, 0⟩, 8⟩] (some ⟨⟨.host 2, 0⟩, 65536, 0⟩)) =
        .error .configuration ∧
      ¬ Guarded false s 0 (.decompress [⟨⟨.host 1, 0⟩, 8⟩] (some ⟨⟨.host 2, 0⟩, 65536, 0⟩)) ∧
      ¬ s.device.SameGuard := by
  have herror : (begin 0 [1] ⟨∅, fun _ => 0, 0⟩ (fun _ _ => 0)).device.enter 0
      (.decompress [⟨⟨.host 1, 0⟩, 8⟩] (some ⟨⟨.host 2, 0⟩, 65536, 0⟩)) =
        .error .configuration := by
    decide
  refine ⟨by decide, herror, fun hguarded => ?_, fun hsame => ?_⟩
  · obtain ⟨status, hstatus, -⟩ := hguarded (Or.inl (by decide))
    rw [herror] at hstatus
    simp at hstatus
  · exact (sameGuard_iff (new_setUp 0 [1])).mp hsame rfl

end Session

end Bitar
