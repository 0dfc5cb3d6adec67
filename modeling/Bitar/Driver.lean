import Bitar.Lcores
import Bitar.Initialize
import Mathlib.Data.List.SplitLengths
import Mathlib.Data.List.Range

/-!
# Sharing out the worker lcores

`GetDevices` collects the enabled lcores other than the main one and hands them
out to the devices in turn.  The first devices get one lcore more than the
others, as long as the division leaves a remainder.

**Results.**
* `workerLcores_eq`: the lcores that are collected.
* `createLoop_ok`: the lists that the devices get, one after another.
* `getDevices_shares_iff`: when the lcores are shared out exactly.
-/

namespace Bitar

/-- `PCIVendorId`. -/
inductive PCIVendorId
  | mellanox
deriving DecidableEq, Repr

/-- `PCIDeviceId`. -/
inductive PCIDeviceId
  | mellanoxConnectx6dxbf
  | mellanoxConnectx7bf
deriving DecidableEq, Repr

/-- What is known about the compress devices of the machine. -/
structure PCIBus where
  /-- `rte_compressdev_name_get`. -/
  name : UInt8 → Option String
  /-- The two uses of `GetPCIId`. -/
  vendorId : String → Except Status PCIVendorId
  deviceId : String → Except Status PCIDeviceId

/-- Why a function does not return an `arrow::Status`. -/
inductive Fault
  | divisionByZero
  | readPastEnd
  | checkFailed
deriving DecidableEq, Repr

inductive Failure
  | status (status : Status)
  | fault (fault : Fault)
deriving DecidableEq, Repr

/-- `ListAvailableDeviceIds`, given what `rte_compressdev_devices_get` finds. -/
def listAvailableDeviceIds (found : List UInt8) : Except Status (List UInt8) :=
  if found.length = 0 then
    .error (.invalid "No compress device is available with driver name: MLX5_PCI")
  else .ok found

/-- `HasDeviceIds`. -/
def hasDeviceIds (availDevIds deviceIds : List UInt8) : Status :=
  let notAvailDevIds := deviceIds.filter fun id => id ∉ availDevIds
  if notAvailDevIds ≠ [] then
    .invalid ("Not available device ids: " ++
      ", ".intercalate (notAvailDevIds.map fun id => toString id.toNat))
  else .success

/-! ## Collecting the lcores -/

namespace Lcores

variable (l : Lcores)

/-- `rte_lcore_count()`. -/
def count : Nat :=
  (List.range l.maxLcore).countP l.isEnabled

/-- The loop that collects the worker lcores, from the lcore `lcoreId` on. -/
def workerLoop (fuel : Nat) : Nat → Nat → Option (List Nat)
  | 0, _ => none
  | rounds + 1, lcoreId =>
      if lcoreId < l.maxLcore then
        (l.getNextLcore fuel (lcoreId + 1) 1 0).bind fun next =>
          (workerLoop fuel rounds next).map (lcoreId :: ·)
      else some []

def workerLcores (fuel : Nat) : Option (List Nat) :=
  (l.getNextLcore fuel 0 1 0).bind (l.workerLoop fuel fuel)

/-- The enabled lcores other than the main one from `startId` on, in ascending
order. -/
def workersFrom (startId : Nat) : List Nat :=
  (List.range' startId (l.maxLcore - startId)).filter (l.Eligible 1 ·)

variable {l}

theorem workersFrom_eq {startId id : Nat} (hle : startId ≤ id)
    (h : l.IsLeastFrom startId 1 id) :
    l.workersFrom startId = if id < l.maxLcore then id :: l.workersFrom (id + 1) else [] := by
  rcases h with ⟨heligible, -, hleast⟩ | ⟨hout, hnone⟩
  · have hlt := heligible.1
    have hsplit : List.range' startId (l.maxLcore - startId) =
        List.range' startId (id - startId) ++ id ::
          List.range' (id + 1) (l.maxLcore - (id + 1)) := by
      rw [show l.maxLcore - startId = (id - startId) + (l.maxLcore - (id + 1) + 1) by omega,
        ← List.range'_append_1, show startId + (id - startId) = id by omega, List.range'_succ]
    have hskipped : (List.range' startId (id - startId)).filter (l.Eligible 1 ·) = [] := by
      refine List.filter_eq_nil_iff.mpr fun other hother => ?_
      rw [List.mem_range'_1] at hother
      rw [decide_eq_true_eq]
      intro he
      have := hleast other hother.1 he
      omega
    rw [workersFrom, hsplit, List.filter_append, hskipped, List.nil_append, List.filter_cons,
      if_pos (decide_eq_true heligible), if_pos hlt]
    rfl
  · rw [if_neg (Nat.not_lt.mpr hout)]
    refine List.filter_eq_nil_iff.mpr fun other hother => ?_
    rw [List.mem_range'_1] at hother
    simpa using hnone other hother.1

theorem workerLoop_eq {fuel : Nat} (rounds : Nat) {startId lcoreId : Nat} {workers : List Nat}
    (hle : startId ≤ lcoreId) (hleast : l.IsLeastFrom startId 1 lcoreId)
    (h : l.workerLoop fuel rounds lcoreId = some workers) : workers = l.workersFrom startId := by
  induction rounds generalizing startId lcoreId workers with
  | zero => cases h
  | succ rounds ih =>
      rw [workersFrom_eq hle hleast]
      rw [workerLoop] at h
      split_ifs at h ⊢ with hlt
      · obtain ⟨next, hnext, hrest⟩ := Option.bind_eq_some_iff.mp h
        obtain ⟨rest, hloop, rfl⟩ := Option.map_eq_some_iff.mp hrest
        obtain ⟨hle', hleast'⟩ := getNextLcore_noWrap_isLeast hnext
        rw [ih hle' hleast' hloop]
      · exact (Option.some.inj h).symm

theorem workerLoop_ends {fuel : Nat} (hfuel : l.maxLcore < fuel) (rounds : Nat) {lcoreId : Nat}
    (h : l.maxLcore - lcoreId < rounds) :
    ∃ workers, l.workerLoop fuel rounds lcoreId = some workers := by
  induction rounds generalizing lcoreId with
  | zero => omega
  | succ rounds ih =>
      rw [workerLoop]
      split_ifs with hlt
      · obtain ⟨next, hnext⟩ : ∃ next, l.getNextLcore fuel (lcoreId + 1) 1 0 = some next :=
          getNextLcore_noWrap (by omega) 1
        have hle := (getNextLcore_noWrap_isLeast hnext).1
        obtain ⟨rest, hrest⟩ : ∃ rest, l.workerLoop fuel rounds next = some rest :=
          ih (by omega)
        exact ⟨lcoreId :: rest, by rw [hnext, Option.bind_some, hrest, Option.map_some]⟩
      · exact ⟨[], rfl⟩

/-- The lcores that are collected. -/
theorem workerLcores_eq {fuel : Nat} {workers : List Nat}
    (h : l.workerLcores fuel = some workers) : workers = l.workersFrom 0 := by
  obtain ⟨lcoreId, hfirst, hloop⟩ := Option.bind_eq_some_iff.mp h
  obtain ⟨hle, hleast⟩ := getNextLcore_noWrap_isLeast hfirst
  exact workerLoop_eq fuel hle hleast hloop

theorem workerLcores_ends {fuel : Nat} (hfuel : l.maxLcore < fuel) :
    l.workerLcores fuel = some (l.workersFrom 0) := by
  obtain ⟨lcoreId, hfirst⟩ : ∃ lcoreId, l.getNextLcore fuel 0 1 0 = some lcoreId :=
    getNextLcore_noWrap (by omega) 1
  obtain ⟨workers, hloop⟩ : ∃ workers, l.workerLoop fuel fuel lcoreId = some workers :=
    workerLoop_ends hfuel fuel (by omega)
  have h : l.workerLcores fuel = some workers := by
    rw [workerLcores, hfirst, Option.bind_some, hloop]
  rw [h, workerLcores_eq h]

/-- All enabled lcores but the main one are workers. -/
theorem length_workersFrom_zero (hlt : l.mainLcore < l.maxLcore)
    (henabled : l.isEnabled l.mainLcore = true) : (l.workersFrom 0).length = l.count - 1 := by
  have herase : l.workersFrom 0 =
      ((List.range l.maxLcore).filter l.isEnabled).erase l.mainLcore := by
    rw [List.Nodup.erase_eq_filter (List.nodup_range.filter _), List.filter_filter, workersFrom,
      List.range_eq_range', Nat.sub_zero]
    refine List.filter_congr fun id hid => ?_
    rw [List.mem_range'_1] at hid
    rw [Bool.eq_iff_iff]
    simp [Eligible, and_comm, show id < l.maxLcore by omega]
  rw [herase, List.length_erase_of_mem
    (List.mem_filter.mpr ⟨List.mem_range.mpr hlt, henabled⟩), count, List.countP_eq_length_filter]

end Lcores

/-! ## Creating the devices -/

namespace PCIBus

/-- The ids that decide which device is created. -/
def ids (bus : PCIBus) (deviceId : UInt8) : Except Status (PCIVendorId × PCIDeviceId) :=
  match bus.name deviceId with
  | none =>
      .error (.unknownError ("Unable to get the device name from device id: " ++
        showChar deviceId))
  | some name =>
      match bus.vendorId name with
      | .error status => .error status
      | .ok vendorId =>
          match bus.deviceId name with
          | .error status => .error status
          | .ok pciDeviceId => .ok (vendorId, pciDeviceId)

end PCIBus

/-- `DeviceManager::Create`; it is specialised for one pair of ids only. -/
def createDevice (deviceId : UInt8) (workerLcores : List Nat) :
    PCIVendorId × PCIDeviceId → Except Status CompressDevice
  | (.mellanox, .mellanoxConnectx6dxbf) => .ok (.new deviceId workerLcores)
  | _ => .error (.notImplemented s!"Unsupported compress device {deviceId.toNat}")

/-- The loop of `CreateDevices`; `lcores` are those from the iterator on. -/
def createLoop (bus : PCIBus) (minNumQpsPerDev : Nat) :
    List UInt8 → List Nat → Nat → Except Failure (List CompressDevice)
  | [], _, _ => .ok []
  | deviceId :: deviceIds, lcores, remainingLcores =>
      let numLcores := minNumQpsPerDev + if 0 < remainingLcores then 1 else 0
      match bus.ids deviceId with
      | .error status => .error (.status status)
      | .ok ids =>
          if lcores.length < numLcores then .error (.fault .readPastEnd)
          else
            match createDevice deviceId (lcores.take numLcores) ids with
            | .error status => .error (.status status)
            | .ok device =>
                (createLoop bus minNumQpsPerDev deviceIds (lcores.drop numLcores)
                  (remainingLcores - 1)).map (device :: ·)

def createDevices (bus : PCIBus) (deviceIds : List UInt8) (workerLcores : List Nat) :
    Except Failure (List CompressDevice) :=
  if deviceIds.length = 0 then .error (.fault .divisionByZero)
  else
    createLoop bus (toUInt16 (workerLcores.length / deviceIds.length)) deviceIds workerLcores
      (workerLcores.length % deviceIds.length)

/-- `GetDevices`, with fuel for the loops over the lcores. -/
def getDevices (l : Lcores) (found : List UInt8) (bus : PCIBus) (fuel : Nat)
    (deviceIds : List UInt8) : Option (Except Failure (List CompressDevice)) :=
  match listAvailableDeviceIds found with
  | .error status => some (.error (.status status))
  | .ok availDevIds =>
      let available := hasDeviceIds availDevIds deviceIds
      -- leave one as the main lcore for management
      let numWorkerLcores := toUInt32 (l.count + 4294967295)
      if available.code ≠ .ok then some (.error (.status available))
      else if numWorkerLcores = 0 then
        some (.error (.status (.invalid
          "Not enough worker lcores for setting up queue pairs for devices.")))
      else if numWorkerLcores < deviceIds.length then
        some (.error (.status (.invalid s!"The number of devices to set up ({deviceIds.length}) is greater than the number of available worker lcores ({numWorkerLcores}).")))
      else
        (l.workerLcores fuel).map fun workerLcores =>
          if numWorkerLcores ≠ workerLcores.length then .error (.fault .checkFailed)
          else createDevices bus deviceIds workerLcores

/-! ## Sharing -/

/-- How many lcores each of `n` devices gets. -/
def shares (quotient : Nat) : Nat → Nat → List Nat
  | 0, _ => []
  | n + 1, remaining =>
      (quotient + if 0 < remaining then 1 else 0) :: shares quotient n (remaining - 1)

theorem sum_shares (quotient n : Nat) : ∀ remaining,
    (shares quotient n remaining).sum = quotient * n + min remaining n := by
  induction n with
  | zero => intro remaining; simp [shares]
  | succ n ih =>
      intro remaining
      rw [shares, List.sum_cons, ih, Nat.mul_succ]
      split_ifs <;> omega

theorem mem_shares {quotient n : Nat} : ∀ {remaining x : Nat},
    x ∈ shares quotient n remaining → quotient ≤ x ∧ x ≤ quotient + min 1 remaining := by
  induction n with
  | zero => intro remaining x h; simp [shares] at h
  | succ n ih =>
      intro remaining x h
      rw [shares, List.mem_cons] at h
      rcases h with rfl | h
      · split_ifs <;> omega
      · have := ih h
        omega

/-- No device gets fewer lcores than a later one, and none more than one more. -/
theorem pairwise_shares (quotient n : Nat) : ∀ remaining,
    (shares quotient n remaining).Pairwise fun x y => y ≤ x ∧ x ≤ y + 1 := by
  induction n with
  | zero => exact fun _ => List.Pairwise.nil
  | succ n ih =>
      intro remaining
      rw [shares]
      refine List.pairwise_cons.mpr ⟨fun y hy => ?_, ih (remaining - 1)⟩
      have := mem_shares hy
      split_ifs <;> omega

/-- The device can be created. -/
def PCIBus.Creates (bus : PCIBus) (deviceId : UInt8) : Prop :=
  bus.ids deviceId = .ok (.mellanox, .mellanoxConnectx6dxbf)

/-- With enough lcores the loop reads no lcore past the end. -/
theorem createLoop_no_fault (bus : PCIBus) (quotient : Nat) (deviceIds : List UInt8) :
    ∀ {lcores : List Nat} {remaining : Nat},
      (shares quotient deviceIds.length remaining).sum ≤ lcores.length →
      ∀ fault, createLoop bus quotient deviceIds lcores remaining ≠ .error (.fault fault) := by
  induction deviceIds with
  | nil => intro lcores remaining _ fault h; cases h
  | cons deviceId deviceIds ih =>
      intro lcores remaining hsum fault
      rw [List.length_cons, shares, List.sum_cons] at hsum
      rw [createLoop]
      cases bus.ids deviceId with
      | error status => exact fun h => by cases h
      | ok ids =>
          dsimp only
          rw [if_neg (by omega)]
          cases createDevice deviceId _ ids with
          | error status => exact fun h => by cases h
          | ok device =>
              have hle : (shares quotient deviceIds.length (remaining - 1)).sum ≤
                  (lcores.drop (quotient + if 0 < remaining then 1 else 0)).length := by
                rw [List.length_drop]
                omega
              have hrest := ih hle fault
              cases hr : createLoop bus quotient deviceIds _ (remaining - 1) with
              | error failure =>
                  rw [hr] at hrest
                  exact fun h => hrest (by cases h; rfl)
              | ok devices => exact fun h => by cases h

/-- The lists that the devices get, one after another. -/
theorem createLoop_ok {bus : PCIBus} (quotient : Nat) (deviceIds : List UInt8)
    (hbus : ∀ id ∈ deviceIds, bus.Creates id) :
    ∀ {lcores : List Nat} {remaining : Nat},
      (shares quotient deviceIds.length remaining).sum ≤ lcores.length →
      createLoop bus quotient deviceIds lcores remaining =
        .ok (List.zipWith CompressDevice.new deviceIds
          ((shares quotient deviceIds.length remaining).splitLengths lcores)) := by
  induction deviceIds with
  | nil => intro lcores remaining _; rfl
  | cons deviceId deviceIds ih =>
      intro lcores remaining hsum
      rw [List.length_cons, shares, List.sum_cons] at hsum
      rw [createLoop, show bus.ids deviceId = _ from hbus deviceId List.mem_cons_self]
      dsimp only
      rw [if_neg (by omega), ih (fun id hid => hbus id (List.mem_cons_of_mem _ hid))
        (by rw [List.length_drop]; omega), List.length_cons, shares, List.splitLengths_cons]
      rfl

/-! ## When the lcores are shared out exactly -/

/-- The checks that `GetDevices` makes. -/
structure PassesChecks (l : Lcores) (found deviceIds : List UInt8) : Prop where
  found_ne_nil : found ≠ []
  available : ∀ id ∈ deviceIds, id ∈ found
  one_lt_count : 1 < l.count
  length_le : deviceIds.length ≤ l.count - 1

/-- The devices with these ids share all lcores but the main one. -/
structure SharedOut (l : Lcores) (deviceIds : List UInt8) (devices : List CompressDevice) :
    Prop where
  ids : devices.map CompressDevice.deviceId = deviceIds
  mem_iff : ∀ id, id ∈ (devices.map CompressDevice.workerLcores).flatten ↔
    id < l.maxLcore ∧ l.isEnabled id = true ∧ id ≠ l.mainLcore
  ascending : (devices.map CompressDevice.workerLcores).flatten.Pairwise (· < ·)
  ne_nil : ∀ device ∈ devices, device.workerLcores ≠ []
  even : devices.Pairwise fun d e =>
    e.workerLcores.length ≤ d.workerLcores.length ∧
      d.workerLcores.length ≤ e.workerLcores.length + 1

namespace Lcores

theorem mem_workersFrom_zero {l : Lcores} {id : Nat} :
    id ∈ l.workersFrom 0 ↔ id < l.maxLcore ∧ l.isEnabled id = true ∧ id ≠ l.mainLcore := by
  simp [workersFrom, Eligible]

theorem workersFrom_ascending (l : Lcores) (startId : Nat) :
    (l.workersFrom startId).Pairwise (· < ·) :=
  List.Pairwise.filter _ List.pairwise_lt_range'

theorem count_lt (l : Lcores) : l.count < 4294967296 := by
  have h : l.count ≤ (List.range l.maxLcore).length := List.countP_le_length
  rw [List.length_range] at h
  exact Nat.lt_of_le_of_lt h l.maxLcore_lt

end Lcores

theorem map_zipWith_new (deviceIds : List UInt8) : ∀ {lcores : List (List Nat)},
    lcores.length = deviceIds.length →
      (List.zipWith CompressDevice.new deviceIds lcores).map CompressDevice.deviceId = deviceIds ∧
      (List.zipWith CompressDevice.new deviceIds lcores).map CompressDevice.workerLcores =
        lcores := by
  induction deviceIds with
  | nil =>
      intro lcores h
      rw [List.length_eq_zero_iff.mp h]
      exact ⟨rfl, rfl⟩
  | cons deviceId deviceIds ih =>
      intro lcores h
      obtain ⟨first, rest, rfl⟩ := List.exists_cons_of_length_eq_add_one h
      obtain ⟨hids, hlcores⟩ := ih (Nat.succ.inj h)
      exact ⟨congrArg (deviceId :: ·) hids, congrArg (first :: ·) hlcores⟩

theorem length_shares (quotient n : Nat) : ∀ remaining,
    (shares quotient n remaining).length = n := by
  induction n with
  | zero => exact fun _ => rfl
  | succ n ih => exact fun remaining => congrArg Nat.succ (ih (remaining - 1))

section Checked

variable {l : Lcores} {found deviceIds : List UInt8}
  (hmain : l.mainLcore < l.maxLcore ∧ l.isEnabled l.mainLcore = true)
  (hchecks : PassesChecks l found deviceIds)
include hmain hchecks

/-- Past the checks all workers go to `CreateDevices`. -/
theorem getDevices_eq (bus : PCIBus) (fuel : Nat) :
    getDevices l found bus fuel deviceIds =
      (l.workerLcores fuel).map fun _ => createDevices bus deviceIds (l.workersFrom 0) := by
  have hfound : listAvailableDeviceIds found = .ok found :=
    if_neg fun h => hchecks.found_ne_nil (List.length_eq_zero_iff.mp h)
  have havailable : hasDeviceIds found deviceIds = .success := by
    have hnil : (deviceIds.filter fun id => id ∉ found) = [] :=
      List.filter_eq_nil_iff.mpr fun id hid => by simpa using hchecks.available id hid
    dsimp only [hasDeviceIds]
    rw [hnil, if_neg (not_not_intro rfl)]
  have hworkers : toUInt32 (l.count + 4294967295) = l.count - 1 := by
    have hlt := l.count_lt
    have hpos := hchecks.one_lt_count
    unfold toUInt32
    omega
  have hpos := hchecks.one_lt_count
  have hle := hchecks.length_le
  rw [getDevices, hfound]
  dsimp only
  rw [havailable, hworkers, if_neg (by decide), if_neg (by omega), if_neg (by omega)]
  refine Option.map_congr fun workers hmem => ?_
  rw [Lcores.workerLcores_eq hmem, if_neg]
  rw [Lcores.length_workersFrom_zero hmain.1 hmain.2]
  exact not_not_intro rfl

/-- What holds of every result of `GetDevices` holds of that of `CreateDevices`. -/
theorem getDevices_forall_iff (bus : PCIBus)
    (P : Except Failure (List CompressDevice) → Prop) :
    ((∃ fuel r, getDevices l found bus fuel deviceIds = some r) ∧
      ∀ fuel r, getDevices l found bus fuel deviceIds = some r → P r) ↔
      P (createDevices bus deviceIds (l.workersFrom 0)) := by
  have hends : getDevices l found bus (l.maxLcore + 1) deviceIds =
      some (createDevices bus deviceIds (l.workersFrom 0)) := by
    rw [getDevices_eq hmain hchecks, Lcores.workerLcores_ends (Nat.lt_succ_self _)]
    rfl
  constructor
  · exact fun h => h.2 _ _ hends
  · refine fun h => ⟨⟨_, _, hends⟩, fun fuel r hr => ?_⟩
    rw [getDevices_eq hmain hchecks] at hr
    obtain ⟨workers, -, rfl⟩ := Option.map_eq_some_iff.mp hr
    exact h

end Checked

/-- Shares computed without overflow share out all lcores. -/
theorem sharedOut_of_shares {l : Lcores} {deviceIds : List UInt8} (hne : deviceIds ≠ [])
    (hle : deviceIds.length ≤ (l.workersFrom 0).length) :
    SharedOut l deviceIds (List.zipWith CompressDevice.new deviceIds
      ((shares ((l.workersFrom 0).length / deviceIds.length) deviceIds.length
        ((l.workersFrom 0).length % deviceIds.length)).splitLengths (l.workersFrom 0))) := by
  have hpos : 0 < deviceIds.length := List.length_pos_iff.mpr hne
  set workers := l.workersFrom 0 with hworkers
  set sizes := shares (workers.length / deviceIds.length) deviceIds.length
    (workers.length % deviceIds.length) with hsizes
  have hsum : sizes.sum = workers.length := by
    have hmod := Nat.mod_lt workers.length hpos
    have hdiv := Nat.div_add_mod workers.length deviceIds.length
    rw [hsizes, sum_shares, Nat.min_eq_left (Nat.le_of_lt hmod), Nat.mul_comm, hdiv]
  have hlengths : (sizes.splitLengths workers).map List.length = sizes :=
    List.map_splitLengths_length _ _ (Nat.le_of_eq hsum)
  have hlength : (sizes.splitLengths workers).length = deviceIds.length := by
    rw [List.length_splitLengths, hsizes, length_shares]
  obtain ⟨hids, hlcores⟩ := map_zipWith_new deviceIds hlength
  have hflatten : (sizes.splitLengths workers).flatten = workers :=
    List.flatten_splitLengths _ _ (Nat.le_of_eq hsum.symm)
  set devices := List.zipWith CompressDevice.new deviceIds (sizes.splitLengths workers)
  have hnums : devices.map (fun d => d.workerLcores.length) = sizes := by
    rw [← hlengths, ← hlcores, List.map_map]
    rfl
  refine ⟨hids, ?_, ?_, ?_, ?_⟩
  · intro id
    rw [hlcores, hflatten]
    exact Lcores.mem_workersFrom_zero
  · rw [hlcores, hflatten]
    exact l.workersFrom_ascending 0
  · intro device hdevice hnil
    have hmem : device.workerLcores.length ∈ sizes := by
      rw [← hnums]
      exact List.mem_map_of_mem hdevice
    have hquotient := Nat.div_pos hle hpos
    have := (mem_shares hmem).1
    rw [hnil, List.length_nil] at this
    omega
  · have hpair := pairwise_shares (workers.length / deviceIds.length) deviceIds.length
      (workers.length % deviceIds.length)
    rw [← hsizes, ← hnums, List.pairwise_map] at hpair
    exact hpair

/-- A machine on which every device is a BlueField-2. -/
def blueFieldBus : PCIBus where
  name _ := some "mlx5"
  vendorId _ := .ok .mellanox
  deviceId _ := .ok .mellanoxConnectx6dxbf

theorem blueFieldBus_creates (deviceId : UInt8) : blueFieldBus.Creates deviceId := rfl

/-- What is asked of the result of `GetDevices`. -/
def ReturnsShares (l : Lcores) (deviceIds : List UInt8) (bus : PCIBus)
    (result : Except Failure (List CompressDevice)) : Prop :=
  (∀ fault, result ≠ .error (.fault fault)) ∧
    ((∀ id ∈ deviceIds, bus.Creates id) →
      ∃ devices, result = .ok devices ∧ SharedOut l deviceIds devices)

theorem createDevices_shares {l : Lcores} {deviceIds : List UInt8} (bus : PCIBus)
    (hne : deviceIds ≠ []) (hle : deviceIds.length ≤ (l.workersFrom 0).length)
    (hlt : (l.workersFrom 0).length / deviceIds.length < 65536) :
    ReturnsShares l deviceIds bus (createDevices bus deviceIds (l.workersFrom 0)) := by
  have hpos : 0 < deviceIds.length := List.length_pos_iff.mpr hne
  have hsum : (shares ((l.workersFrom 0).length / deviceIds.length) deviceIds.length
      ((l.workersFrom 0).length % deviceIds.length)).sum ≤ (l.workersFrom 0).length := by
    have hmod := Nat.mod_lt (l.workersFrom 0).length hpos
    have hdiv := Nat.div_add_mod (l.workersFrom 0).length deviceIds.length
    rw [sum_shares, Nat.min_eq_left (Nat.le_of_lt hmod), Nat.mul_comm]
    exact Nat.le_of_eq hdiv
  rw [createDevices, if_neg (Nat.ne_of_gt hpos), toUInt16_of_lt hlt]
  refine ⟨createLoop_no_fault bus _ deviceIds hsum, fun hbus => ?_⟩
  exact ⟨_, createLoop_ok _ deviceIds hbus hsum, sharedOut_of_shares hne hle⟩

/-- A quotient that is narrowed leaves lcores over. -/
theorem quotient_lt_of_shares {l : Lcores} {deviceIds : List UInt8} (hne : deviceIds ≠ [])
    (h : ReturnsShares l deviceIds blueFieldBus
      (createDevices blueFieldBus deviceIds (l.workersFrom 0))) :
    (l.workersFrom 0).length / deviceIds.length < 65536 := by
  have hpos : 0 < deviceIds.length := List.length_pos_iff.mpr hne
  obtain ⟨devices, hdevices, hshared⟩ := h.2 fun id _ => blueFieldBus_creates id
  have hperm : (devices.map CompressDevice.workerLcores).flatten.Perm (l.workersFrom 0) := by
    refine (List.perm_ext_iff_of_nodup ?_ ?_).mpr fun id => ?_
    · exact hshared.ascending.imp Nat.ne_of_lt
    · exact (l.workersFrom_ascending 0).imp Nat.ne_of_lt
    · rw [hshared.mem_iff, Lcores.mem_workersFrom_zero]
  by_contra hge
  set n := deviceIds.length with hn
  set quotient := (l.workersFrom 0).length / n with hquotient
  have hnarrow : toUInt16 quotient < quotient :=
    Nat.lt_of_lt_of_le (Nat.mod_lt _ (by omega)) (Nat.not_lt.mp hge)
  have hdiv : n * quotient + (l.workersFrom 0).length % n = (l.workersFrom 0).length :=
    Nat.div_add_mod _ _
  have hmod := Nat.mod_lt (l.workersFrom 0).length hpos
  have hmul : toUInt16 quotient * n < n * quotient := by
    rw [Nat.mul_comm n]
    exact Nat.mul_lt_mul_of_pos_right hnarrow hpos
  have hsum : (shares (toUInt16 quotient) n ((l.workersFrom 0).length % n)).sum <
      (l.workersFrom 0).length := by
    rw [sum_shares, Nat.min_eq_left (Nat.le_of_lt hmod)]
    omega
  rw [createDevices, if_neg (Nat.ne_of_gt hpos), createLoop_ok _ deviceIds
    (fun id _ => blueFieldBus_creates id) (Nat.le_of_lt hsum)] at hdevices
  obtain rfl := Except.ok.inj hdevices
  have hlength : ((shares (toUInt16 quotient) n ((l.workersFrom 0).length % n)).splitLengths
      (l.workersFrom 0)).length = n := by
    rw [List.length_splitLengths, length_shares]
  have htotal := hperm.length_eq
  rw [(map_zipWith_new deviceIds hlength).2, List.length_flatten,
    List.map_splitLengths_length _ _ (Nat.le_of_lt hsum)] at htotal
  omega

/-- **Sharing out the lcores.**  Past its checks `GetDevices` returns, with
every worker lcore in exactly one device, if and only if it is given a device
and the lcores per device are counted in 16 bits. -/
theorem getDevices_shares_iff {l : Lcores} {found deviceIds : List UInt8}
    (hmain : l.mainLcore < l.maxLcore ∧ l.isEnabled l.mainLcore = true)
    (hchecks : PassesChecks l found deviceIds) :
    (∀ bus, (∃ fuel result, getDevices l found bus fuel deviceIds = some result) ∧
      ∀ fuel result, getDevices l found bus fuel deviceIds = some result →
        ReturnsShares l deviceIds bus result) ↔
      deviceIds ≠ [] ∧ (l.count - 1) / deviceIds.length < 65536 := by
  have hlength := Lcores.length_workersFrom_zero hmain.1 hmain.2
  simp only [getDevices_forall_iff hmain hchecks, ← hlength]
  constructor
  · intro h
    have hne : deviceIds ≠ [] := by
      rintro rfl
      exact (h blueFieldBus).1 .divisionByZero rfl
    exact ⟨hne, quotient_lt_of_shares hne (h blueFieldBus)⟩
  · rintro ⟨hne, hlt⟩ bus
    refine createDevices_shares bus hne ?_ hlt
    rw [hlength]
    exact hchecks.length_le

/-- Three lcores, the first one being the main lcore. -/
def threeLcores : Lcores where
  maxLcore := 3
  maxLcore_pos := by decide
  maxLcore_lt := by decide
  isEnabled _ := true
  mainLcore := 0

theorem getDevices_shares_three :
    ∃ fuel devices, getDevices threeLcores [0, 1] blueFieldBus fuel [1, 0] = some (.ok devices) ∧
      SharedOut threeLcores [1, 0] devices := by
  obtain ⟨⟨fuel, result, h⟩, hall⟩ :=
    (getDevices_shares_iff (by decide) (show PassesChecks threeLcores [0, 1] [1, 0] from
      ⟨by decide, by simp, by decide, by decide⟩)).mpr (by decide) blueFieldBus
  obtain ⟨devices, rfl, hshared⟩ := (hall fuel result h).2 fun id _ => rfl
  exact ⟨fuel, devices, h, hshared⟩

/-- Asked for no device, `GetDevices` passes its checks and divides by zero. -/
theorem getDevices_none :
    PassesChecks threeLcores [0, 1] [] ∧
      getDevices threeLcores [0, 1] blueFieldBus 4 [] =
        some (.error (.fault .divisionByZero)) := by
  have hchecks : PassesChecks threeLcores [0, 1] [] :=
    ⟨by decide, by simp, by decide, by decide⟩
  refine ⟨hchecks, ?_⟩
  rw [getDevices_eq (by decide) hchecks, Lcores.workerLcores_ends (by decide)]
  rfl

end Bitar
