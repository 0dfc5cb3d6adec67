import Bitar.Lib.Rows
import Bitar.Driver

/-!
# Where the asynchronous tests run

`EvaluateAsync` runs its tests on one queue pair after another, device after
device: `Advance` goes from a queue pair to the next one.  The counters have 8 and
16 bits; as long as the devices and the queue pairs of each device are counted in
these, the tests visit the queue pairs in the order in which `GetDevices` has
given out the lcores.

**Results.**
* `places_offset`, `exists_places`: which queue pair a test runs on.
* `tests_on_worker_lcores`: the lcores of the tests are the worker lcores in order.
-/

namespace Bitar

open Rows

/-- A queue pair of a device; the device is given by its position. -/
structure Place where
  deviceId : Nat
  queuePairId : Nat
deriving DecidableEq, Repr

/-- `Advance`, with counters of 8 and 16 bits. -/
def Place.advance (p : Place) (numQps : Nat) : Place :=
  let queuePairId := toUInt16 (p.queuePairId + 1)
  if queuePairId = numQps then ⟨(p.deviceId + 1) % 256, 0⟩ else ⟨p.deviceId, queuePairId⟩

/-- `num_qps()` of the device at a position; `lcores` are the worker lcores of the
devices. -/
def numQpsAt (lcores : List (List Nat)) (deviceId : Nat) : Nat :=
  toUInt16 (lcores.getD deviceId []).length

/-- The queue pair of a test. -/
def places (lcores : List (List Nat)) : Nat → Place
  | 0 => ⟨0, 0⟩
  | idx + 1 => (places lcores idx).advance (numQpsAt lcores (places lcores idx).deviceId)

/-- `LcoreOf`. -/
def lcoreAt (lcores : List (List Nat)) (p : Place) : Option Nat :=
  lcores[p.deviceId]?.bind (·[p.queuePairId]?)

/-- The devices and their queue pairs are counted in 8 and 16 bits. -/
structure Countable (lcores : List (List Nat)) : Prop where
  length_le : lcores.length ≤ 256
  ne_nil : ∀ row ∈ lcores, row ≠ []
  lt : ∀ row ∈ lcores, row.length < 65536

section Walk

variable {lcores : List (List Nat)} {d q : Nat} {row : List Nat}

theorem Countable.numQpsAt_eq (h : Countable lcores) (hrow : lcores[d]? = some row) :
    numQpsAt lcores d = row.length := by
  rw [numQpsAt, List.getD_eq_getElem?_getD, hrow, Option.getD_some,
    toUInt16_of_lt (h.lt row (List.mem_of_getElem? hrow))]

theorem Countable.lt_length (h : Countable lcores) (hrow : lcores[d]? = some row) :
    d < 256 ∧ 0 < row.length := by
  have hd := (List.getElem?_eq_some_iff.mp hrow).1
  have hpos := List.length_pos_iff.mpr (h.ne_nil row (List.mem_of_getElem? hrow))
  exact ⟨Nat.lt_of_lt_of_le hd h.length_le, hpos⟩

/-- **Step lemma.**  The next queue pair is that of the next column, or the first
one of the next row. -/
theorem Countable.advance_eq (h : Countable lcores) (hrow : lcores[d]? = some row)
    (hq : q < row.length) :
    Place.advance ⟨d, q⟩ (numQpsAt lcores d) =
      if q + 1 = row.length then ⟨(d + 1) % 256, 0⟩ else ⟨d, q + 1⟩ := by
  have hlt := h.lt row (List.mem_of_getElem? hrow)
  have hnext : toUInt16 (q + 1) = q + 1 := toUInt16_of_lt (by omega)
  rw [Place.advance, h.numQpsAt_eq hrow]
  dsimp only
  rw [hnext]

/-- The test whose index is that of row `d` and column `q`. -/
theorem places_offset (h : Countable lcores) :
    ∀ {d q : Nat} {row : List Nat}, lcores[d]? = some row → q < row.length →
      places lcores (offset lcores d + q) = ⟨d, q⟩ := by
  intro d
  induction d with
  | zero =>
      intro q row hrow hq
      induction q with
      | zero => rfl
      | succ q ih =>
          rw [← Nat.add_assoc, places, ih (by omega), h.advance_eq hrow (by omega),
            if_neg (by omega)]
  | succ d ihd =>
      intro q row hrow hq
      have hd := (h.lt_length hrow).1
      induction q with
      | zero =>
          -- the test before is on the last queue pair of the row before
          obtain ⟨before, hbefore⟩ : ∃ before, lcores[d]? = some before :=
            ⟨_, List.getElem?_eq_getElem (by
              have := (List.getElem?_eq_some_iff.mp hrow).1
              omega)⟩
          have hpos := (h.lt_length hbefore).2
          have hindex : offset lcores (d + 1) + 0 =
              offset lcores d + (before.length - 1) + 1 := by
            rw [offset_succ hbefore]
            omega
          rw [hindex, places, ihd hbefore (by omega), h.advance_eq hbefore (by omega),
            if_pos (by omega), Nat.mod_eq_of_lt hd]
      | succ q ih =>
          rw [← Nat.add_assoc, places, ih (by omega), h.advance_eq hrow (by omega),
            if_neg (by omega)]

/-- Every test has a queue pair, and an lcore. -/
theorem exists_places (h : Countable lcores) {idx : Nat} (hidx : idx < lcores.flatten.length) :
    ∃ row, lcores[(places lcores idx).deviceId]? = some row ∧
      (places lcores idx).queuePairId < row.length ∧
      idx = offset lcores (places lcores idx).deviceId + (places lcores idx).queuePairId ∧
      lcoreAt lcores (places lcores idx) = lcores.flatten[idx]? := by
  obtain ⟨d, row, q, hrow, hq, rfl⟩ := exists_of_lt hidx
  rw [places_offset h hrow hq]
  refine ⟨row, hrow, hq, rfl, ?_⟩
  rw [getElem?_flatten hrow hq, lcoreAt, hrow, Option.bind_some]

/-- No two tests are on the same queue pair. -/
theorem places_inj (h : Countable lcores) {i j : Nat} (hi : i < lcores.flatten.length)
    (hj : j < lcores.flatten.length) (he : places lcores i = places lcores j) : i = j := by
  obtain ⟨-, -, -, hindex, -⟩ := exists_places h hi
  obtain ⟨-, -, -, hindex', -⟩ := exists_places h hj
  rw [hindex, hindex', he]

/-- Every queue pair has a test. -/
theorem exists_test (h : Countable lcores) {p : Place} (hrow : lcores[p.deviceId]? = some row)
    (hq : p.queuePairId < row.length) :
    ∃ idx < lcores.flatten.length, places lcores idx = p := by
  refine ⟨offset lcores p.deviceId + p.queuePairId, ?_, places_offset h hrow hq⟩
  have hitem := getElem?_flatten hrow hq
  rw [List.getElem?_eq_getElem hq] at hitem
  exact (List.getElem?_eq_some_iff.mp hitem).1

end Walk

/-! ## The lcores of the tests -/

/-- `num_parallel_tests()`. -/
def Lcores.numParallelTests (l : Lcores) : Nat :=
  toUInt32 (l.count + 4294967295)

theorem Lcores.numParallelTests_eq {l : Lcores} (hpos : 0 < l.count) :
    l.numParallelTests = l.count - 1 := by
  have hlt := l.count_lt
  unfold numParallelTests toUInt32
  omega

/-- The worker lcores of the devices, put one after another. -/
theorem SharedOut.flatten_eq {l : Lcores} {deviceIds : List UInt8} {devices : List CompressDevice}
    (h : SharedOut l deviceIds devices) :
    (devices.map CompressDevice.workerLcores).flatten = l.workersFrom 0 := by
  have hperm : (devices.map CompressDevice.workerLcores).flatten.Perm (l.workersFrom 0) := by
    refine (List.perm_ext_iff_of_nodup ?_ ?_).mpr fun id => ?_
    · exact h.ascending.imp Nat.ne_of_lt
    · exact (l.workersFrom_ascending 0).imp Nat.ne_of_lt
    · rw [h.mem_iff, Lcores.mem_workersFrom_zero]
  exact hperm.eq_of_pairwise (fun a b _ _ hab hba => absurd hab (Nat.lt_asymm hba)) h.ascending
    (l.workersFrom_ascending 0)

/-- What `GetDevices` returns is countable. -/
theorem SharedOut.countable {l : Lcores} {deviceIds : List UInt8} {devices : List CompressDevice}
    (h : SharedOut l deviceIds devices) (hnodup : deviceIds.Nodup) (hcount : l.count ≤ 65536)
    (hmain : l.mainLcore < l.maxLcore ∧ l.isEnabled l.mainLcore = true) :
    Countable (devices.map CompressDevice.workerLcores) := by
  have hpos : 0 < l.count := List.countP_pos_iff.mpr
    ⟨l.mainLcore, List.mem_range.mpr hmain.1, hmain.2⟩
  refine ⟨?_, fun row hrow => ?_, fun row hrow => ?_⟩
  · have hids : (deviceIds.map UInt8.toNat).Nodup :=
      hnodup.map fun a b hab => UInt8.toNat_inj.mp hab
    have hsub : deviceIds.map UInt8.toNat ⊆ List.range 256 := by
      intro n hn
      obtain ⟨id, -, rfl⟩ := List.mem_map.mp hn
      exact List.mem_range.mpr id.toNat_lt
    have hlength := (hids.subperm hsub).length_le
    rwa [List.length_map, List.length_range, ← h.ids, List.length_map,
      ← List.length_map (f := CompressDevice.workerLcores)] at hlength
  · obtain ⟨device, hdevice, rfl⟩ := List.mem_map.mp hrow
    exact h.ne_nil device hdevice
  · have hle : row.length ≤ (devices.map CompressDevice.workerLcores).flatten.length :=
      (List.sublist_flatten_of_mem hrow).length_le
    rw [h.flatten_eq, Lcores.length_workersFrom_zero hmain.1 hmain.2] at hle
    omega

/-- Devices that have been created can be created, and are new. -/
theorem createLoop_new {bus : PCIBus} (quotient : Nat) :
    ∀ {deviceIds : List UInt8} {lcores : List Nat} {remaining : Nat}
      {devices : List CompressDevice},
      createLoop bus quotient deviceIds lcores remaining = .ok devices →
      (∀ id ∈ deviceIds, bus.Creates id) ∧
        ∀ device ∈ devices, device = .new device.deviceId device.workerLcores := by
  intro deviceIds
  induction deviceIds with
  | nil =>
      intro lcores remaining devices h
      obtain rfl := Except.ok.inj h
      exact ⟨by simp, by simp⟩
  | cons deviceId deviceIds ih =>
      intro lcores remaining devices h
      rw [createLoop] at h
      cases hids : bus.ids deviceId with
      | error status =>
          rw [hids] at h
          cases h
      | ok ids =>
          rw [hids] at h
          dsimp only at h
          generalize quotient + (if 0 < remaining then 1 else 0) = numLcores at h
          split_ifs at h with hlt
          cases hcreate : createDevice deviceId (lcores.take numLcores) ids with
          | error status =>
              rw [hcreate] at h
              cases h
          | ok device =>
              rw [hcreate] at h
              dsimp only at h
              obtain ⟨hpair, hnew⟩ : ids = (.mellanox, .mellanoxConnectx6dxbf) ∧
                  device = .new deviceId (lcores.take numLcores) := by
                unfold createDevice at hcreate
                split at hcreate
                · exact ⟨rfl, (Except.ok.inj hcreate).symm⟩
                · cases hcreate
              cases hrest : createLoop bus quotient deviceIds (lcores.drop numLcores)
                  (remaining - 1) with
              | error failure =>
                  rw [hrest] at h
                  cases h
              | ok rest =>
                  rw [hrest] at h
                  obtain rfl : device :: rest = devices := Except.ok.inj h
                  refine ⟨fun id hid => ?_, fun other hother => ?_⟩
                  · rcases List.mem_cons.mp hid with rfl | hid
                    · rw [PCIBus.Creates, hids, hpair]
                    · exact (ih hrest).1 id hid
                  · rcases List.mem_cons.mp hother with rfl | hother
                    · rw [hnew]
                      rfl
                    · exact (ih hrest).2 other hother

/-- What `CreateDevices` returns is new. -/
theorem createDevices_new {bus : PCIBus} {deviceIds : List UInt8} {workers : List Nat}
    {devices : List CompressDevice} (h : createDevices bus deviceIds workers = .ok devices) :
    (∀ id ∈ deviceIds, bus.Creates id) ∧
      ∀ device ∈ devices, device = .new device.deviceId device.workerLcores := by
  unfold createDevices at h
  split_ifs at h
  exact createLoop_new _ h

/-- What `GetDevices` returns shares out the worker lcores. -/
theorem sharedOut_of_getDevices {l : Lcores} {found deviceIds : List UInt8} {bus : PCIBus}
    {fuel : Nat} {devices : List CompressDevice}
    (hmain : l.mainLcore < l.maxLcore ∧ l.isEnabled l.mainLcore = true)
    (hchecks : PassesChecks l found deviceIds) (hcount : l.count ≤ 65536)
    (h : getDevices l found bus fuel deviceIds = some (.ok devices)) :
    SharedOut l deviceIds devices := by
  rw [getDevices_eq hmain hchecks] at h
  obtain ⟨workers, -, hcreated⟩ := Option.map_eq_some_iff.mp h
  have hlength := Lcores.length_workersFrom_zero hmain.1 hmain.2
  have hne : deviceIds ≠ [] := by
    rintro rfl
    cases hcreated
  have hle : deviceIds.length ≤ (l.workersFrom 0).length := by
    rw [hlength]
    exact hchecks.length_le
  have hlt : (l.workersFrom 0).length / deviceIds.length < 65536 := by
    have := Nat.div_le_self (l.workersFrom 0).length deviceIds.length
    have := hchecks.one_lt_count
    omega
  obtain ⟨devices', hdevices, hshared⟩ :=
    (createDevices_shares bus hne hle hlt).2 (createDevices_new hcreated).1
  rw [hcreated] at hdevices
  obtain rfl := Except.ok.inj hdevices
  exact hshared

/-- **The lcores of the tests.**  On the devices that `GetDevices` returns, the
tests run on the worker lcores in ascending order, one test on each of them; and
every queue pair has exactly one test. -/
theorem tests_on_worker_lcores {l : Lcores} {found deviceIds : List UInt8} {bus : PCIBus}
    {fuel : Nat} {devices : List CompressDevice}
    (hmain : l.mainLcore < l.maxLcore ∧ l.isEnabled l.mainLcore = true)
    (hchecks : PassesChecks l found deviceIds) (hnodup : deviceIds.Nodup)
    (hcount : l.count ≤ 65536)
    (h : getDevices l found bus fuel deviceIds = some (.ok devices)) :
    let lcores := devices.map CompressDevice.workerLcores
    (∀ idx < l.numParallelTests,
      lcoreAt lcores (places lcores idx) = (l.workersFrom 0)[idx]?) ∧
    ∀ d q device, devices[d]? = some device → q < device.numQps →
      ∃! idx, idx < l.numParallelTests ∧ places lcores idx = ⟨d, q⟩ := by
  intro lcores
  have hshared := sharedOut_of_getDevices hmain hchecks hcount h
  have hcountable := hshared.countable hnodup hcount hmain
  have hlength : lcores.flatten.length = l.numParallelTests := by
    rw [hshared.flatten_eq, Lcores.length_workersFrom_zero hmain.1 hmain.2,
      Lcores.numParallelTests_eq (Nat.lt_of_succ_lt hchecks.one_lt_count)]
  refine ⟨fun idx hidx => ?_, fun d q device hdevice hq => ?_⟩
  · obtain ⟨row, -, -, -, hlcore⟩ := exists_places hcountable (hlength.symm ▸ hidx)
    rw [hlcore, hshared.flatten_eq]
  · have hrow : lcores[d]? = some device.workerLcores := by
      rw [List.getElem?_map, hdevice]
      rfl
    rw [CompressDevice.numQps,
      toUInt16_of_lt (hcountable.lt _ (List.mem_of_getElem? hrow))] at hq
    obtain ⟨idx, hidx, hplace⟩ := @exists_test _ _ hcountable ⟨d, q⟩ hrow hq
    refine ⟨idx, ⟨hlength ▸ hidx, hplace⟩, fun other hother => ?_⟩
    exact places_inj hcountable (hlength.symm ▸ hother.1) hidx (hother.2.trans hplace.symm)

theorem tests_on_worker_lcores_three :
    ∃ fuel devices, getDevices threeLcores [0, 1] blueFieldBus fuel [1, 0] = some (.ok devices) ∧
      (let lcores := devices.map CompressDevice.workerLcores
       (∀ idx < 2, lcoreAt lcores (places lcores idx) = some (idx + 1))) := by
  have hchecks : PassesChecks threeLcores [0, 1] [1, 0] :=
    ⟨by decide, by simp, by decide, by decide⟩
  have h : getDevices threeLcores [0, 1] blueFieldBus 4 [1, 0] =
      some (.ok [.new 1 [1], .new 0 [2]]) := by
    rw [getDevices_eq (by decide) hchecks, Lcores.workerLcores_ends (by decide)]
    rfl
  refine ⟨4, _, h, fun idx hidx => ?_⟩
  have hall := (tests_on_worker_lcores (by decide) hchecks (by decide) (by decide) h).1 idx hidx
  rw [hall]
  match idx, hidx with
  | 0, _ => rfl
  | 1, _ => rfl

end Bitar
