import Bitar.EvaluateAsync

/-!
# `GetBlueFieldCompressDevices`

The program finds its devices, shares out the lcores among them (`GetDevices`) and
initializes one after another with one configuration.  The devices share the pool
from which each of them takes its memzones.

**Results.**
* `BroughtUp.step`: what the loop has done after one more device.
* `getBlueFieldCompressDevices_prepared`: the devices that the program gets have been
  prepared for `EvaluateAsync`, and suit it.
-/

namespace Bitar

open Rows Session

/-! ## The function -/

/-- A value stored in 64 bits. -/
def toUInt64 (n : Nat) : Nat := n % 18446744073709551616

def kBurstSize : UInt16 := 32 * 1

/-- The configuration of each of the devices. -/
def bluefieldConfig (maxBufferSize numParallelTests numDevices : Nat) : Configuration :=
  let maxPreallocateMemzonesTotal :=
    toUInt64 (maxBufferSize + kDecompressedSegSize - 1) / kDecompressedSegSize + numParallelTests
  { decompressedSegSize := UInt16.ofNat kDecompressedSegSize
    burstSize := kBurstSize
    maxPreallocateMemzones := UInt16.ofNat
      (toUInt64 (maxPreallocateMemzonesTotal + numDevices - 1) / numDevices) }

/-- The devices that `GetDevices` has returned. -/
def Devices.created (devices : List CompressDevice) (pool : MemzonePool) (memory : Memory) :
    Devices where
  memory := memory
  pool := pool
  own d := ⟨devices.getD d (.new 0 []), fun _ => {}⟩

/-- `Initialize` has been called on a device. -/
def Devices.initialized (devices : Devices) (d : Nat) (out : Initialized) : Devices :=
  devices.set d { devices d with device := out.device, pool := out.pool }

/-- The loop over the devices, from the one at position `d` on. -/
def initializeFrom (cfg : Configuration) (attempts : Nat → Attempt) :
    Nat → Nat → Devices → Option (Except Failure Devices)
  | 0, _, devices => some (.ok devices)
  | remaining + 1, d, devices =>
      match (devices d).device.initializeDevice devices.pool
          { attempts d with configuration := cfg } with
      | none => none
      | some out =>
          if out.status.code = .ok then
            initializeFrom cfg attempts remaining (d + 1) (devices.initialized d out)
          else some (.error (.status out.status))

/-- `GetBlueFieldCompressDevices`, with the number of devices.  The environment
answers as in `attempts`.  The only devices that `GetDevices` creates are
`BlueFieldCompressDevice`s, so the cast does not fail. -/
def getBlueFieldCompressDevices (l : Lcores) (found : List UInt8) (bus : PCIBus) (fuel : Nat)
    (maxBufferSize : Nat) (attempts : Nat → Attempt) (pool : MemzonePool) (memory : Memory) :
    Option (Except Failure (Nat × Devices)) :=
  match listAvailableDeviceIds found with
  | .error status => some (.error (.status status))
  | .ok deviceIds =>
      match getDevices l found bus fuel deviceIds with
      | none => none
      | some (.error failure) => some (.error failure)
      | some (.ok devices) =>
          let cfg := bluefieldConfig maxBufferSize l.numParallelTests devices.length
          (initializeFrom cfg attempts devices.length 0 (.created devices pool memory)).map
            fun result => result.map (devices.length, ·)

/-! ## One device -/

/-- A device that has been started with the configuration `given`, in which the
checks have filled in the defaults. -/
structure Ready (given : Configuration) (device : CompressDevice) (s : Session) : Prop where
  atRest : ∃ windowSize zones,
    AtRest { given.withMaxSglSegs with windowSize := windowSize } zones s
  started : s.device.state = .started
  deviceId_eq : s.device.deviceId = device.deviceId
  workerLcores_eq : s.device.workerLcores = device.workerLcores

section Device

variable {given cfg : Configuration} {device : CompressDevice} {s s' : Session} {zones : Zones}
  {kept : Block → Prop}

theorem Session.AtRest.elsewhere (h : AtRest cfg zones s) (he : Elsewhere kept s s') :
    AtRest cfg (zones.withPool s'.pool) s' := by
  have hservice := h.inService.elsewhere he
  refine ⟨h.accepted, hservice.configuration_eq, hservice.zones_eq, hservice.owned,
    hservice.numQps_le, fun q => ?_, fun q => ?_⟩
  · rw [he.machineOf_eq]
    exact ⟨(h.idle q).pending, (h.idle q).numOpsAssembled, (h.idle q).queue⟩
  · rw [he.lanes_eq]
    exact h.returned q

theorem Ready.elsewhere (h : Ready given device s) (he : Elsewhere kept s s') :
    Ready given device s' := by
  obtain ⟨windowSize, zones, hrest⟩ := h.atRest
  refine ⟨⟨windowSize, _, hrest.elsewhere he⟩, ?_, ?_, ?_⟩
  · rw [he.device_eq]
    exact h.started
  · rw [he.device_eq]
    exact h.deviceId_eq
  · rw [he.device_eq]
    exact h.workerLcores_eq

/-- **`Initialize` on a new device**: it is ready, and has taken memzones that have
been nobody's. -/
theorem initialize_ready {deviceId : UInt8} {workerLcores : List Nat} {pool : MemzonePool}
    {memory : Memory} {attempt : Attempt} {out : Initialized}
    (h : (CompressDevice.new deviceId workerLcores).initializeDevice pool attempt = some out)
    (hok : out.status.code = .ok) :
    let s := { begin deviceId workerLcores pool memory with device := out.device, pool := out.pool }
    Ready attempt.configuration (.new deviceId workerLcores) s ∧ pool.Grows out.pool ∧
      ∀ z, s.Holds z → z ∉ pool.allocated := by
  intro s
  obtain ⟨cfg, zones, hrest⟩ := @initialize_atRest _ _ pool memory _ _ h hok false
  have hact : (begin deviceId workerLcores pool memory).act false (.initializeDevice attempt) =
      s := by
    dsimp only [act]
    rw [show (begin deviceId workerLcores pool memory).device = .new deviceId workerLcores from rfl,
      show (begin deviceId workerLcores pool memory).pool = pool from rfl, h]
  rw [hact] at hrest
  obtain ⟨windowSize, -, ⟨state, hdevice, hstate⟩, hpool, -⟩ := CompressDevice.initialize_ok h hok
  have hcfg : cfg = { attempt.configuration.withMaxSglSegs with windowSize := windowSize } := by
    have hconfiguration : out.device.configuration = some cfg := hrest.configuration_eq
    rw [hdevice] at hconfiguration
    exact (Option.some.inj hconfiguration).symm
  rw [← hcfg] at hdevice hpool
  -- the memzones of the new device memory
  have howns := Zones.preallocate_owns attempt.self deviceId.toNat pool cfg attempt.memzones
  set memzones := (CompressDevice.new deviceId workerLcores).preallocatedMemory pool cfg attempt
    with hmemzones
  change Zones.Owns _ pool memzones.1 memzones.1.device.memzonePool at howns
  have hzones : s.zones = some memzones.1 := by
    unfold Session.zones
    dsimp only [s]
    rw [hdevice, hpool]
    rfl
  refine ⟨⟨⟨windowSize, zones, hcfg ▸ hrest⟩, ?_, ?_, ?_⟩, ⟨fun z hz => ?_, fun z hz => ?_⟩,
    fun z hz => ?_⟩
  · show out.device.state = .started
    rw [hdevice]
    exact hstate hok
  · show out.device.deviceId = deviceId
    rw [hdevice]
    rfl
  · show out.device.workerLcores = workerLcores
    rw [hdevice]
    rfl
  · rw [hpool, howns.reserved.allocated_eq]
    exact Finset.mem_union_left _ hz
  · rw [hpool]
    exact howns.reserved.size_old z hz
  · exact howns.reserved.fresh z ((howns.held_iff z).mp ((holds_iff hzones).mp hz))

end Device

/-! ## The loop -/

/-- The first `k` of the devices are ready, the others are new. -/
structure BroughtUp (given : Configuration) (created : Nat → CompressDevice) (n k : Nat)
    (devices : Devices) : Prop where
  counter : devices.numMaybeNotOk = 0
  ready : ∀ d < k, Ready given (created d) (devices d)
  new : ∀ d, k ≤ d → devices.own d = ⟨created d, fun _ => {}⟩
  apart : devices.Apart n

section Loop

variable {given : Configuration} {created : Nat → CompressDevice} {n k d : Nat}
  {devices after : Devices}

/-- A new device has no memzones. -/
theorem Devices.not_holds_new {device : CompressDevice} {lanes : Nat → Lane}
    (hown : devices.own d = ⟨device, lanes⟩)
    (hnew : device = .new device.deviceId device.workerLcores) (z : Nat) :
    ¬ (devices d).Holds z := by
  rintro ⟨deviceMemory, hmem, -⟩
  change deviceMemory ∈ (devices.own d).device.deviceMemory at hmem
  rw [hown, hnew] at hmem
  cases hmem

/-- **Step lemma.**  One more device has been initialized. -/
theorem BroughtUp.step (h : BroughtUp given created n k devices)
    (hnew : ∀ d, created d = .new (created d).deviceId (created d).workerLcores) (hk : k < n)
    {attempt : Attempt} {out : Initialized}
    (hinit : (devices k).device.initializeDevice devices.pool
      { attempt with configuration := given } = some out)
    (hok : out.status.code = .ok) :
    BroughtUp given created n (k + 1) (devices.initialized k out) := by
  have hsession : devices k = begin (created k).deviceId (created k).workerLcores devices.pool
      devices.memory := by
    show devices.session k = _
    rw [Devices.session, h.new k (Nat.le_refl k), h.counter]
    dsimp only
    rw [hnew k]
    rfl
  rw [hsession] at hinit
  obtain ⟨hready, hgrows, hfresh⟩ := @initialize_ready _ _ _ devices.memory _ _ hinit hok
  rw [← hsession, ← hnew k] at hready
  rw [← hsession] at hfresh
  refine ⟨h.counter, fun d hd => ?_, fun d hd => ?_, ?_⟩
  · by_cases hsame : d = k
    · subst hsame
      rw [Devices.initialized, Devices.set_self]
      exact hready
    · have helse : Elsewhere (fun _ => True) (devices d) (devices.initialized k out d) := by
        rw [Devices.initialized, Devices.set_of_ne hsame]
        exact ⟨rfl, rfl, hgrows, fun _ _ => rfl⟩
      exact (h.ready d (by omega)).elsewhere helse
  · rw [← h.new d (by omega)]
    exact Function.update_of_ne (by omega) _ _
  · refine h.apart.set hk (fun d hd z hz => ?_) fun z hz => Or.inr (hfresh z hz)
    by_cases hlt : d < k
    · obtain ⟨windowSize, zones, hrest⟩ := (h.ready d hlt).atRest
      exact hrest.inService.mem_allocated hz
    · exact absurd hz (Devices.not_holds_new (h.new d (Nat.not_lt.mp hlt)) (hnew d) z)

/-- **The loop.** -/
theorem initializeFrom_broughtUp {attempts : Nat → Attempt}
    (hnew : ∀ d, created d = .new (created d).deviceId (created d).workerLcores) :
    ∀ {remaining k : Nat} {devices : Devices}, k + remaining = n →
      BroughtUp given created n k devices →
      initializeFrom given attempts remaining k devices = some (.ok after) →
      BroughtUp given created n n after := by
  intro remaining
  induction remaining with
  | zero =>
      intro k devices hn h hrun
      obtain rfl : devices = after := Except.ok.inj (Option.some.inj hrun)
      obtain rfl : k = n := hn
      exact h
  | succ remaining ih =>
      intro k devices hn h hrun
      rw [initializeFrom] at hrun
      split at hrun
      · cases hrun
      · next out hinit =>
          split_ifs at hrun with hok
          · exact ih (by omega) (h.step hnew (by omega) hinit hok) hrun
          · cases hrun

end Loop

/-! ## The devices of the program -/

/-- The configurations in force. -/
def Devices.configurations (devices : Devices) (d : Nat) : Configuration :=
  (devices d).device.configuration.getD {}

section Program

variable {l : Lcores} {found deviceIds : List UInt8} {bus : PCIBus} {fuel : Nat}
  {created : List CompressDevice} {maxBufferSize numDevices : Nat} {attempts : Nat → Attempt}
  {pool : MemzonePool} {memory : Memory} {devices : Devices}

/-- `GetDevices` returns devices only after its checks. -/
theorem passesChecks_of_getDevices (hpos : 0 < l.count)
    (h : getDevices l found bus fuel deviceIds = some (.ok created)) :
    PassesChecks l found deviceIds := by
  have hworkers : toUInt32 (l.count + 4294967295) = l.count - 1 := Lcores.numParallelTests_eq hpos
  unfold getDevices listAvailableDeviceIds at h
  rw [hworkers] at h
  by_cases hnone : found.length = 0
  · rw [if_pos hnone] at h
    cases h
  rw [if_neg hnone] at h
  rcases check_cases h with ⟨-, he⟩ | ⟨havailable, h⟩
  · cases he
  rcases check_cases h with ⟨-, he⟩ | ⟨hworker, h⟩
  · cases he
  rcases check_cases h with ⟨-, he⟩ | ⟨hle, -⟩
  · cases he
  refine ⟨fun hnil => hnone (List.length_eq_zero_iff.mpr hnil), fun id hid => ?_, by omega,
    by omega⟩
  by_contra hnot
  refine havailable ?_
  unfold hasDeviceIds
  dsimp only
  rw [if_pos (List.ne_nil_of_mem (List.mem_filter.mpr ⟨hid, by simpa using hnot⟩))]
  exact invalid_ne_ok _

/-- What `GetDevices` returns is new. -/
theorem getDevices_new (hmain : l.mainLcore < l.maxLcore ∧ l.isEnabled l.mainLcore = true)
    (hchecks : PassesChecks l found deviceIds)
    (h : getDevices l found bus fuel deviceIds = some (.ok created)) (d : Nat) :
    let device := created.getD d (.new 0 [])
    device = .new device.deviceId device.workerLcores := by
  rw [getDevices_eq hmain hchecks] at h
  obtain ⟨workers, -, hcreated⟩ := Option.map_eq_some_iff.mp h
  rw [List.getD_eq_getElem?_getD]
  cases hd : created[d]? with
  | none => rfl
  | some device => exact (createDevices_new hcreated).2 device (List.mem_of_getElem? hd)

/-- What the loop starts from. -/
theorem created_broughtUp (given : Configuration)
    (hnew : ∀ d, let device := created.getD d (.new 0 [])
      device = .new device.deviceId device.workerLcores) (pool : MemzonePool) (memory : Memory) :
    BroughtUp given (fun d => created.getD d (.new 0 [])) created.length 0
      (.created created pool memory) :=
  ⟨rfl, fun d hd => absurd hd (Nat.not_lt_zero d), fun _ _ => rfl,
    fun d _ _ _ _ z hz => absurd hz (Devices.not_holds_new rfl (hnew d) z)⟩

/-- The result, taken apart. -/
theorem getBlueFieldCompressDevices_cases
    (h : getBlueFieldCompressDevices l found bus fuel maxBufferSize attempts pool memory =
      some (.ok (numDevices, devices))) :
    ∃ created, getDevices l found bus fuel found = some (.ok created) ∧
      numDevices = created.length ∧
      initializeFrom (bluefieldConfig maxBufferSize l.numParallelTests created.length) attempts
        created.length 0 (.created created pool memory) = some (.ok devices) := by
  unfold getBlueFieldCompressDevices listAvailableDeviceIds at h
  by_cases hnone : found.length = 0
  · rw [if_pos hnone] at h
    cases h
  rw [if_neg hnone] at h
  dsimp only at h
  split at h
  · cases h
  · cases h
  · next created hcreated =>
      obtain ⟨result, hresult, he⟩ := Option.map_eq_some_iff.mp h
      cases result with
      | error failure => cases he
      | ok after =>
          obtain ⟨rfl, rfl⟩ := Prod.mk.inj (Except.ok.inj he)
          exact ⟨created, hcreated, rfl, hresult⟩

/-- There is a device, and there are enough lcores for all of them. -/
theorem getBlueFieldCompressDevices_length
    (hmain : l.mainLcore < l.maxLcore ∧ l.isEnabled l.mainLcore = true) (hcount : l.count ≤ 65536)
    (h : getBlueFieldCompressDevices l found bus fuel maxBufferSize attempts pool memory =
      some (.ok (numDevices, devices))) :
    0 < numDevices ∧ numDevices ≤ l.numParallelTests := by
  obtain ⟨created, hcreated, rfl, -⟩ := getBlueFieldCompressDevices_cases h
  have hpos : 0 < l.count := List.countP_pos_iff.mpr
    ⟨l.mainLcore, List.mem_range.mpr hmain.1, hmain.2⟩
  have hchecks := passesChecks_of_getDevices hpos hcreated
  have hlength : created.length = found.length := by
    rw [← (sharedOut_of_getDevices hmain hchecks hcount hcreated).ids, List.length_map]
  rw [hlength, Lcores.numParallelTests_eq hpos]
  exact ⟨List.length_pos_iff.mpr hchecks.found_ne_nil, hchecks.length_le⟩

/-- The checks of `Initialize` fill in nothing but the window size. -/
theorem bluefieldConfig_withMaxSglSegs (numParallelTests numDevices : Nat) :
    (bluefieldConfig maxBufferSize numParallelTests numDevices).withMaxSglSegs =
      bluefieldConfig maxBufferSize numParallelTests numDevices :=
  if_neg (show ¬ (1 : UInt16) < 1 by decide)

/-- **The devices of the program** have been prepared for `EvaluateAsync`, and suit it,
when their ids are their positions. -/
theorem getBlueFieldCompressDevices_prepared
    (hmain : l.mainLcore < l.maxLcore ∧ l.isEnabled l.mainLcore = true)
    (hcount : l.count ≤ 65536) (hids : found.map UInt8.toNat = List.range found.length)
    (h : getBlueFieldCompressDevices l found bus fuel maxBufferSize attempts pool memory =
      some (.ok (numDevices, devices))) :
    Evaluation.Prepared devices.configurations numDevices devices ∧
      ∀ enc, SelfDelimiting enc →
        Suited enc devices.configurations
          ((List.range numDevices).map fun d => (devices d).device.workerLcores)
          l.numParallelTests := by
  obtain ⟨created, hcreated, rfl, hrun⟩ := getBlueFieldCompressDevices_cases h
  have hpos : 0 < l.count := List.countP_pos_iff.mpr
    ⟨l.mainLcore, List.mem_range.mpr hmain.1, hmain.2⟩
  have hchecks := passesChecks_of_getDevices hpos hcreated
  have hnew := getDevices_new hmain hchecks hcreated
  have hshared := sharedOut_of_getDevices hmain hchecks hcount hcreated
  have hbrought := initializeFrom_broughtUp hnew (Nat.zero_add _)
    (created_broughtUp _ hnew pool memory) hrun
  -- the configurations in force
  have hrest : ∀ d < created.length, ∃ windowSize zones,
      devices.configurations d =
        { bluefieldConfig maxBufferSize l.numParallelTests created.length with
          windowSize := windowSize } ∧
      AtRest (devices.configurations d) zones (devices d) := by
    intro d hd
    obtain ⟨windowSize, zones, hrest⟩ := (hbrought.ready d hd).atRest
    rw [bluefieldConfig_withMaxSglSegs] at hrest
    have hcfg := congrArg (fun configuration => configuration.getD {}) hrest.configuration_eq
    change devices.configurations d = _ at hcfg
    exact ⟨windowSize, zones, hcfg, hcfg ▸ hrest⟩
  have hgetD : ∀ d (hd : d < created.length), created.getD d (.new 0 []) = created[d] := fun d hd =>
    List.getD_eq_getElem _ _ hd
  constructor
  · refine ⟨fun d hd => ?_, fun d hd => (hbrought.ready d hd).started, fun d hd => ?_,
      hbrought.apart⟩
    · obtain ⟨windowSize, zones, -, hrest⟩ := hrest d hd
      exact ⟨zones, hrest⟩
    · rw [(hbrought.ready d hd).deviceId_eq, hgetD d hd]
      have hnum : (created.map CompressDevice.deviceId).map UInt8.toNat =
          List.range found.length := hshared.ids.symm ▸ hids
      have hid : ((created.map CompressDevice.deviceId).map UInt8.toNat)[d]? =
          some created[d].deviceId.toNat := by
        simp [List.getElem?_eq_getElem hd]
      rw [hnum, List.getElem?_eq_some_iff] at hid
      obtain ⟨_, hid⟩ := hid
      rw [← hid, List.getElem_range]
  · intro enc henc
    have hlcores : ((List.range created.length).map fun d => (devices d).device.workerLcores) =
        created.map CompressDevice.workerLcores := by
      refine List.ext_getElem (by simp) fun d hd _ => ?_
      simp only [List.length_map, List.length_range] at hd
      simp only [List.getElem_map, List.getElem_range]
      rw [(hbrought.ready d hd).workerLcores_eq, hgetD d hd]
    rw [hlcores]
    have hnodup : found.Nodup := List.Nodup.of_map UInt8.toNat (hids ▸ List.nodup_range)
    have hlength := Lcores.length_workersFrom_zero hmain.1 hmain.2
    have htests := Lcores.numParallelTests_eq hpos
    have hone := hchecks.one_lt_count
    refine ⟨⟨hshared.countable hnodup hcount hmain, ?_, ?_⟩, by omega, fun d hd => ?_,
      fun d hd => ?_,
      fun d hd => ?_, henc⟩
    · exact hshared.ascending.imp Nat.ne_of_lt
    · rw [hshared.flatten_eq]
      omega
    all_goals
      rw [List.length_map] at hd
      obtain ⟨windowSize, zones, hcfg, hrest⟩ := hrest d hd
    · exact hrest.accepted.bounds
    · rw [hcfg]
      rfl
    · rw [hcfg]
      rfl

end Program

/-- The devices take twenty memzones each. -/
def sampleInitialize (d : Nat) : Attempt :=
  { CompressDevice.sampleAttempt 8 d with
    memzones := (List.range 20).map fun z => some (20 * d + z) }

/-- On three lcores, with an input of 38 segments and a bit. -/
def sampleBlueField : Option (Except Failure (Nat × Devices)) :=
  getBlueFieldCompressDevices threeLcores [0, 1] blueFieldBus 4 2260000 sampleInitialize
    ⟨∅, fun _ => 0, 0⟩ fun _ _ => 0

theorem getBlueFieldCompressDevices_two :
    ∃ devices, sampleBlueField = some (.ok (2, devices)) ∧
      Evaluation.Prepared devices.configurations 2 devices := by
  have hnum : sampleBlueField.map (fun result => result.toOption.map Prod.fst) = some (some 2) := by
    decide +kernel
  obtain ⟨result, hresult, he⟩ := Option.map_eq_some_iff.mp hnum
  cases result with
  | error failure => cases he
  | ok pair =>
      obtain ⟨numDevices, devices⟩ := pair
      obtain rfl : numDevices = 2 := Option.some.inj he
      exact ⟨devices, hresult, (getBlueFieldCompressDevices_prepared (by decide) (by decide) rfl
        hresult).1⟩

end Bitar
