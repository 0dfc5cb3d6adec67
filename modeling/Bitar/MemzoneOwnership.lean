import Bitar.DeviceMemory
import Bitar.Lib.Runs

/-!
# Whom a memzone belongs to

Between `Preallocate` and the destructor only `Take` and `Put` touch the
memzones of a device.  Each of them runs under the mutex of the device memory,
so the calls of all queue pairs, and of the users who recycle buffers, form one
sequence.

**Results.**
* `Owns.step`: what one call preserves.
* `memzone_ownership`: free and taken memzones are at any time, each once, those
  that the device memory has ever reserved.
-/

namespace Bitar

/-- `zs` were reserved with `size` to get from `pool` to `pool'`. -/
structure MemzonePool.Reserved (size : Nat) (zs : List Nat) (pool pool' : MemzonePool) :
    Prop where
  nodup : zs.Nodup
  fresh : ∀ z ∈ zs, z ∉ pool.allocated
  allocated_eq : pool'.allocated = pool.allocated ∪ zs.toFinset
  size_new : ∀ z ∈ zs, pool'.size z = size
  size_old : ∀ z ∈ pool.allocated, pool'.size z = pool.size z
  bytes_eq : pool'.bytesAllocated = pool.bytesAllocated + zs.length * size

namespace MemzonePool.Reserved

variable {size : Nat} {zs ws : List Nat} {pool pool' pool'' : MemzonePool}

theorem refl (pool : MemzonePool) : Reserved size [] pool pool :=
  ⟨List.nodup_nil, by simp, by simp, by simp, fun _ _ => rfl, by simp⟩

theorem perm (h : Reserved size zs pool pool') (hp : zs.Perm ws) : Reserved size ws pool pool' :=
  ⟨hp.nodup_iff.mp h.nodup, fun z hz => h.fresh z (hp.mem_iff.mpr hz),
    by rw [h.allocated_eq, List.toFinset_eq_of_perm _ _ hp],
    fun z hz => h.size_new z (hp.mem_iff.mpr hz), h.size_old, by rw [h.bytes_eq, hp.length_eq]⟩

/-- One more reservation. -/
theorem allocateOne (h : Reserved size zs pool pool') {answer : Option Nat} {z : Nat}
    (hz : pool'.allocateOne size answer = some (z, pool'')) :
    Reserved size (zs ++ [z]) pool pool'' := by
  cases answer with
  | none => simp [MemzonePool.allocateOne] at hz
  | some y =>
      unfold MemzonePool.allocateOne at hz
      dsimp only at hz
      split_ifs at hz with hy
      obtain ⟨rfl, rfl⟩ := Prod.mk.inj (Option.some.inj hz)
      have hnew := hy
      rw [h.allocated_eq, Finset.mem_union, List.mem_toFinset, not_or] at hnew
      refine ⟨?_, ?_, ?_, ?_, ?_, ?_⟩
      · exact List.nodup_append.mpr ⟨h.nodup, by simp, by
          intro a ha b hb e
          rw [List.mem_singleton] at hb
          exact hnew.2 (hb ▸ e ▸ ha)⟩
      · intro x hx
        rcases List.mem_append.mp hx with hx | hx
        · exact h.fresh x hx
        · exact List.mem_singleton.mp hx ▸ hnew.1
      · ext x
        simp only [h.allocated_eq, Finset.mem_insert, Finset.mem_union, List.mem_toFinset,
          List.mem_append, List.mem_singleton]
        tauto
      · intro x hx
        rcases List.mem_append.mp hx with hx | hx
        · have hne : x ≠ y := fun e => hnew.2 (e ▸ hx)
          simp [hne, h.size_new x hx]
        · simp [List.mem_singleton.mp hx]
      · intro x hx
        have hne : x ≠ y := fun e => hnew.1 (e ▸ hx)
        simp [hne, h.size_old x hx]
      · dsimp only
        rw [h.bytes_eq, List.length_append, List.length_singleton]
        push_cast
        ring

end MemzonePool.Reserved

namespace Zones

/-! ## The loop of `Preallocate` -/

theorem preallocateLoop_spec (size : Nat) {pool : MemzonePool} :
    ∀ (n : Nat) (answers : List (Option Nat)) (zones : Zones) (zs : List Nat),
      zones.device.memzonePool = zs.reverse → MemzonePool.Reserved size zs pool zones.pool →
      ∃ ws, preallocateLoop size n answers zones =
          { device := { zones.device with memzonePool := ws.reverse }
            pool := (preallocateLoop size n answers zones).pool } ∧
        MemzonePool.Reserved size ws pool (preallocateLoop size n answers zones).pool ∧
        zs.length ≤ ws.length ∧ ws.length ≤ zs.length + n
  | 0, _, zones, zs, hzs, h => ⟨zs, by rw [preallocateLoop, ← hzs], h, by omega, by omega⟩
  | n + 1, answers, zones, zs, hzs, h => by
      unfold preallocateLoop
      split
      · exact ⟨zs, by rw [← hzs], h, by omega, by omega⟩
      · next z pool' hz =>
          obtain ⟨ws, h1, h2, h3, h4⟩ := preallocateLoop_spec size n answers.tail
            { device := { zones.device with memzonePool := z :: zones.device.memzonePool }
              pool := pool' } (zs ++ [z]) (by simp [hzs]) (h.allocateOne hz)
          rw [List.length_append, List.length_singleton] at h3 h4
          exact ⟨ws, h1, h2, by omega, by omega⟩

/-- What `Preallocate` leaves behind in a new device memory when it returns OK. -/
theorem preallocate_new {self deviceId : Nat} {pool : MemzonePool} {cfg : Configuration}
    {answers : List (Option Nat)} {zones : Zones}
    (h : preallocate ⟨.new self, pool⟩ deviceId cfg answers = (zones, .success)) :
    ∃ zs, zones.device = ⟨self, zs.reverse, ∅, zs.length⟩ ∧
      MemzonePool.Reserved cfg.compressedSegSize zs pool zones.pool := by
  obtain ⟨zs, hloop, hreserved, -, hlen⟩ := preallocateLoop_spec cfg.compressedSegSize
    cfg.maxPreallocateMemzones.toNat answers ⟨.new self, pool⟩ [] rfl (.refl pool)
  have hdevice := congrArg Zones.device hloop
  have hmax := cfg.maxPreallocateMemzones.toNat_lt
  unfold preallocate at h
  simp only [List.length_nil, Nat.zero_add] at hlen
  dsimp only [DeviceMemory.new, List.length_nil, Nat.sub_zero] at h hdevice
  split at h
  · have hcode : StatusCode.outOfMemory = .ok := congrArg (fun r => r.2.code) h
    simp at hcode
  · obtain ⟨rfl, -⟩ := Prod.mk.inj h
    refine ⟨zs, ?_, hreserved⟩
    dsimp only
    rw [hdevice, List.length_reverse, toUInt16_of_lt (by omega)]

theorem preallocateLoop_self (size : Nat) :
    ∀ (n : Nat) (answers : List (Option Nat)) (zones : Zones),
      (preallocateLoop size n answers zones).device.self = zones.device.self
  | 0, _, _ => rfl
  | n + 1, answers, zones => by
      unfold preallocateLoop
      split
      · rfl
      · exact preallocateLoop_self size n answers.tail _

/-- `Preallocate` adds nothing to its loop but the count. -/
theorem preallocate_zones (zones : Zones) (deviceId : Nat) (cfg : Configuration)
    (answers : List (Option Nat)) :
    ∃ num, (zones.preallocate deviceId cfg answers).1 =
      let loop := preallocateLoop cfg.compressedSegSize
        (cfg.maxPreallocateMemzones.toNat - zones.device.memzonePool.length) answers zones
      { loop with device := { loop.device with numPreallocatedMemzones := num } } := by
  unfold preallocate
  dsimp only
  split_ifs
  · exact ⟨_, rfl⟩
  · exact ⟨_, rfl⟩

@[simp] theorem preallocate_self (zones : Zones) (deviceId : Nat) (cfg : Configuration)
    (answers : List (Option Nat)) :
    (zones.preallocate deviceId cfg answers).1.device.self = zones.device.self := by
  obtain ⟨num, h⟩ := preallocate_zones zones deviceId cfg answers
  rw [h]
  exact preallocateLoop_self _ _ _ _

/-! ## `Take` and `Put` in any order -/

/-- A call on the device memory. -/
inductive MemOp
  | take (answer : Option Nat)
  | put (addr : Addr)
deriving DecidableEq, Repr

def memStep (size : Nat) (zones : Zones) : MemOp → Zones
  | .take answer => (zones.take size answer).2
  | .put addr => (zones.put addr).2

/-- The memzone that the call reserves: `Take` does so when none is free. -/
def newlyReserved (size : Nat) (zones : Zones) : MemOp → List Nat
  | .take answer =>
      if zones.device.memzonePool = [] then (zones.take size answer).1.toList else []
  | .put _ => []

/-- Free and taken memzones are, each once, those of the list `ever`, which
were reserved in addition to `pool`. -/
structure Owns (size : Nat) (pool : MemzonePool) (zones : Zones) (ever : List Nat) : Prop where
  reserved : MemzonePool.Reserved size ever pool zones.pool
  nodup : zones.device.memzonePool.Nodup
  disjoint : ∀ z ∈ zones.device.memzonePool, z ∉ zones.device.occupiedMemzones
  held_iff : ∀ z, z ∈ zones.device.memzonePool ∨ z ∈ zones.device.occupiedMemzones ↔ z ∈ ever

section Owns

variable {size : Nat} {pool : MemzonePool} {zones zones' : Zones} {ever : List Nat}

theorem Owns.mem_allocated (h : Owns size pool zones ever) {z : Nat} (hz : z ∈ ever) :
    z ∈ zones.pool.allocated := by
  rw [h.reserved.allocated_eq, Finset.mem_union, List.mem_toFinset]
  exact Or.inr hz

/-- What is held, listed. -/
theorem Owns.freed_perm (h : Owns size pool zones ever) {order : List Nat} (hnd : order.Nodup)
    (horder : ∀ z, z ∈ order ↔ z ∈ zones.device.occupiedMemzones) :
    (zones.freed order).Perm ever := by
  refine (List.perm_ext_iff_of_nodup ?_ h.reserved.nodup).mpr fun z => ?_
  · exact List.Nodup.append h.nodup hnd fun z hz hz' => h.disjoint z hz ((horder z).mp hz')
  · rw [freed, List.mem_append, horder, h.held_iff]

theorem Owns.held_eq (h : Owns size pool zones ever) : zones.held = ever.length := by
  have hperm := h.freed_perm (zones.device.occupiedMemzones.nodup_toList)
    fun z => Finset.mem_toList
  rw [← hperm.length_eq, freed, List.length_append, Finset.length_toList, held]

theorem Owns.take (h : Owns size pool zones ever) (answer : Option Nat) :
    Owns size pool (zones.take size answer).2
      (ever ++ newlyReserved size zones (.take answer)) := by
  rcases take_cases zones size answer with ⟨z, rest, hp, he⟩ | ⟨z, hp, hz, he⟩ | ⟨hp, he⟩
  · have hnew : newlyReserved size zones (.take answer) = [] := by simp [newlyReserved, hp]
    have hnd := h.nodup
    rw [hp, List.nodup_cons] at hnd
    rw [hnew, List.append_nil, he]
    refine ⟨h.reserved, hnd.2, fun x hx => ?_, fun x => ?_⟩
    · have hne : x ≠ z := fun e => hnd.1 (e ▸ hx)
      rw [Finset.mem_insert, not_or]
      exact ⟨hne, h.disjoint x (by simp [hp, hx])⟩
    · rw [← h.held_iff, hp]
      simp only [Finset.mem_insert, List.mem_cons]
      tauto
  · have hnew : newlyReserved size zones (.take answer) = [z] := by
      simp [newlyReserved, hp, he]
    have hreserve : ∃ pool', zones.pool.allocateOne size answer = some (z, pool') ∧
        (zones.take size answer).2.pool = pool' := by
      unfold Zones.take at he ⊢
      simp only [hp] at he ⊢
      cases ha : zones.pool.allocateOne size answer with
      | none => simp [ha] at he
      | some got =>
          obtain ⟨y, pool'⟩ := got
          simp only [ha, Prod.mk.injEq, Option.some.injEq] at he
          exact ⟨pool', by rw [he.1], rfl⟩
    obtain ⟨pool', ha, hpool⟩ := hreserve
    have hres := h.reserved.allocateOne ha
    rw [← hpool] at hres
    rw [hnew]
    refine ⟨hres, ?_, ?_, fun x => ?_⟩
    · simp [he, hp]
    · simp [he, hp]
    · rw [he, List.mem_append, ← h.held_iff]
      simp only [Finset.mem_insert, List.mem_singleton, hp]
      tauto
  · have hnew : newlyReserved size zones (.take answer) = [] := by simp [newlyReserved, hp, he]
    rw [hnew, List.append_nil, he]
    exact h

theorem Owns.put (h : Owns size pool zones ever) (addr : Addr) :
    Owns size pool (zones.put addr).2 ever := by
  rcases put_cases zones addr with ⟨z, -, -, ho, he⟩ | ⟨-, he⟩
  · rw [he]
    have hz : z ∉ zones.device.memzonePool := fun hz => h.disjoint z hz ho
    refine ⟨h.reserved, List.nodup_cons.mpr ⟨hz, h.nodup⟩, fun x hx => ?_, fun x => ?_⟩
    · rw [Finset.mem_erase, not_and]
      intro hne
      exact h.disjoint x ((List.mem_cons.mp hx).resolve_left hne)
    · rw [← h.held_iff]
      simp only [List.mem_cons, Finset.mem_erase]
      by_cases hx : x = z
      · simp [hx, ho]
      · simp [hx]
  · rw [he]
    exact h

/-- **Step lemma.** -/
theorem Owns.step (h : Owns size pool zones ever) (op : MemOp) :
    Owns size pool (memStep size zones op) (ever ++ newlyReserved size zones op) := by
  cases op with
  | take answer => exact h.take answer
  | put addr =>
      rw [newlyReserved, List.append_nil]
      exact h.put addr

theorem Owns.run (h : Owns size pool zones ever) (ops : List MemOp) :
    Owns size pool (Runs.run (memStep size) zones ops)
      (ever ++ Runs.collect (memStep size) (newlyReserved size) zones ops) := by
  induction ops generalizing zones ever with
  | nil => simpa [Runs.collect] using h
  | cons op ops ih =>
      rw [Runs.run_cons, Runs.collect, ← List.append_assoc]
      exact ih (h.step op)

end Owns

theorem memStep_numPreallocatedMemzones (size : Nat) (zones : Zones) (op : MemOp) :
    (memStep size zones op).device.numPreallocatedMemzones =
      zones.device.numPreallocatedMemzones := by
  cases op with
  | take answer =>
      rw [memStep]
      rcases take_cases zones size answer with ⟨z, rest, -, he⟩ | ⟨z, -, -, he⟩ | ⟨-, he⟩ <;>
        rw [he]
  | put addr =>
      rw [memStep]
      rcases put_cases zones addr with ⟨z, -, -, -, he⟩ | ⟨-, he⟩ <;> rw [he]

theorem run_numPreallocatedMemzones (size : Nat) (zones : Zones) (ops : List MemOp) :
    (Runs.run (memStep size) zones ops).device.numPreallocatedMemzones =
      zones.device.numPreallocatedMemzones := by
  induction ops generalizing zones with
  | nil => rfl
  | cons op ops ih => rw [Runs.run_cons, ih, memStep_numPreallocatedMemzones]

theorem foldl_free_eq {size : Nat} :
    ∀ (zs : List Nat) (pool : MemzonePool),
      (zs.foldl (fun pool z => pool.free z size) pool).allocated = pool.allocated \ zs.toFinset ∧
      (zs.foldl (fun pool z => pool.free z size) pool).bytesAllocated =
        pool.bytesAllocated - zs.length * size
  | [], pool => by simp
  | z :: zs, pool => by
      rw [List.foldl_cons, (foldl_free_eq zs _).1, (foldl_free_eq zs _).2]
      refine ⟨?_, ?_⟩
      · ext x
        simp only [MemzonePool.free, Finset.mem_sdiff, Finset.mem_erase, List.toFinset_cons,
          Finset.mem_insert]
        tauto
      · rw [MemzonePool.free, List.length_cons]
        push_cast
        ring

/-- Freeing what has been reserved restores the pool. -/
theorem foldl_free {size : Nat} {pool : MemzonePool} (zs : List Nat) (pool' : MemzonePool)
    (h : MemzonePool.Reserved size zs pool pool') :
    (zs.foldl (fun pool z => pool.free z size) pool').allocated = pool.allocated ∧
      (zs.foldl (fun pool z => pool.free z size) pool').bytesAllocated = pool.bytesAllocated := by
  rw [(foldl_free_eq zs pool').1, (foldl_free_eq zs pool').2, h.allocated_eq, h.bytes_eq]
  refine ⟨?_, by ring⟩
  ext x
  have := h.fresh x
  simp only [Finset.mem_sdiff, Finset.mem_union, List.mem_toFinset]
  tauto

/-- `Preallocate` on a new device memory, whether it succeeds or not. -/
theorem preallocate_owns (self deviceId : Nat) (pool : MemzonePool) (cfg : Configuration)
    (answers : List (Option Nat)) :
    Owns cfg.compressedSegSize pool (preallocate ⟨.new self, pool⟩ deviceId cfg answers).1
      (preallocate ⟨.new self, pool⟩ deviceId cfg answers).1.device.memzonePool := by
  obtain ⟨ws, hloop, hreserved, -, -⟩ := preallocateLoop_spec cfg.compressedSegSize
    cfg.maxPreallocateMemzones.toNat answers ⟨.new self, pool⟩ [] rfl (.refl pool)
  have hmemzones : (preallocateLoop cfg.compressedSegSize cfg.maxPreallocateMemzones.toNat answers
      ⟨.new self, pool⟩).device.memzonePool = ws.reverse :=
    congrArg (fun zones => zones.device.memzonePool) hloop
  have hoccupied : (preallocateLoop cfg.compressedSegSize cfg.maxPreallocateMemzones.toNat answers
      ⟨.new self, pool⟩).device.occupiedMemzones = ∅ :=
    congrArg (fun zones => zones.device.occupiedMemzones) hloop
  obtain ⟨num, h⟩ := preallocate_zones ⟨.new self, pool⟩ deviceId cfg answers
  change _ = Zones.mk { (preallocateLoop cfg.compressedSegSize cfg.maxPreallocateMemzones.toNat
    answers ⟨.new self, pool⟩).device with numPreallocatedMemzones := num }
    (preallocateLoop cfg.compressedSegSize cfg.maxPreallocateMemzones.toNat answers
      ⟨.new self, pool⟩).pool at h
  generalize preallocateLoop cfg.compressedSegSize cfg.maxPreallocateMemzones.toNat answers
    ⟨.new self, pool⟩ = loop at hreserved hmemzones hoccupied h
  rw [h]
  dsimp only
  rw [hmemzones]
  refine ⟨hreserved.perm (List.reverse_perm ws).symm, ?_, ?_, ?_⟩
  · exact List.nodup_reverse.mpr hreserved.nodup
  · simp [hoccupied]
  · simp [hoccupied]

/-- **Memzone ownership.**  `Preallocate` has returned OK on a new device
memory, and `ops` are all calls of `Take` and `Put` since, in the order in which
they got the mutex. -/
theorem memzone_ownership {self deviceId : Nat} {pool : MemzonePool} {cfg : Configuration}
    {answers : List (Option Nat)} {start : Zones}
    (hok : preallocate ⟨.new self, pool⟩ deviceId cfg answers = (start, .success))
    (ops : List MemOp) :
    let size := cfg.compressedSegSize
    let zones := Runs.run (memStep size) start ops
    let ever := start.device.memzonePool ++
      Runs.collect (memStep size) (newlyReserved size) start ops
    -- what is held, and how much of it there is
    ever.Nodup ∧ zones.device.memzonePool.Nodup ∧
    (∀ z ∈ zones.device.memzonePool, z ∉ zones.device.occupiedMemzones) ∧
    (∀ z, z ∈ zones.device.memzonePool ∨ z ∈ zones.device.occupiedMemzones ↔ z ∈ ever) ∧
    zones.device.numPreallocatedMemzones ≤ zones.held ∧
    -- the next `Take` and the next `Put`
    (∀ answer z zones', zones.take size answer = (some z, zones') →
      z ∉ zones.device.occupiedMemzones) ∧
    (zones.device.memzonePool = [] →
      zones.device.numPreallocatedMemzones ≤ zones.device.occupiedMemzones.card) ∧
    (∀ answer, (zones.take size answer).1 = none → (zones.take size answer).2 = zones) ∧
    (∀ addr, (zones.put addr).1 = 0 → (zones.put addr).2 = zones) ∧
    -- the destructor
    (∀ order : List Nat, order.Nodup → (∀ z, z ∈ order ↔ z ∈ zones.device.occupiedMemzones) →
      (zones.freed order).Nodup ∧ (∀ z, z ∈ zones.freed order ↔ z ∈ ever) ∧
      (zones.destroy size order).allocated = pool.allocated ∧
      (zones.destroy size order).bytesAllocated = pool.bytesAllocated) := by
  intro size zones ever
  obtain ⟨zs, hdevice, hreserved⟩ := preallocate_new hok
  have hstart : Owns size pool start start.device.memzonePool := by
    have hnew := preallocate_owns self deviceId pool cfg answers
    rwa [hok] at hnew
  have h : Owns size pool zones ever := hstart.run ops
  have hnum : zones.device.numPreallocatedMemzones ≤ zones.held := by
    have hstartNum : start.device.numPreallocatedMemzones = start.device.memzonePool.length := by
      rw [hdevice, List.length_reverse]
    rw [h.held_eq, run_numPreallocatedMemzones, hstartNum, List.length_append]
    exact Nat.le_add_right _ _
  have hever : ∀ z ∈ zones.device.occupiedMemzones, z ∈ ever := fun z hz =>
    (h.held_iff z).mp (Or.inr hz)
  refine ⟨h.reserved.nodup, h.nodup, h.disjoint, h.held_iff, hnum, ?_, ?_, ?_, ?_, ?_⟩
  · intro answer z zones' htake
    rcases take_cases zones size answer with ⟨y, rest, hp, he⟩ | ⟨y, -, hy, he⟩ | ⟨-, he⟩
    · rw [he] at htake
      obtain rfl := Option.some.inj (Prod.mk.inj htake).1
      exact h.disjoint y (by simp [hp])
    · rw [he] at htake
      obtain rfl := Option.some.inj (Prod.mk.inj htake).1
      exact fun ho => hy (h.mem_allocated (hever y ho))
    · rw [he] at htake
      simp at htake
  · intro hempty
    rwa [held, hempty, List.length_nil, Nat.zero_add] at hnum
  · intro answer hnone
    exact take_none (Prod.ext hnone rfl)
  · intro addr hzero
    rcases put_cases zones addr with ⟨z, -, -, -, he⟩ | ⟨-, he⟩
    · simp [he] at hzero
    · rw [he]
  · intro order hnd horder
    have hperm := h.freed_perm hnd horder
    obtain ⟨hallocated, hbytes⟩ := foldl_free (zones.freed order) zones.pool
      (h.reserved.perm hperm.symm)
    exact ⟨hperm.nodup_iff.mpr h.reserved.nodup, fun z => hperm.mem_iff, hallocated, hbytes⟩

/-- The result of `Preallocate` for twenty memzones. -/
def samplePreallocate : Zones × Status :=
  preallocate ⟨.new 0, ⟨∅, fun _ => 0, 0⟩⟩ 0 { maxPreallocateMemzones := 20 }
    ((List.range 20).map some)

/-- A memzone is put back twice and a foreign address once, and a reservation
fails. -/
def sampleOps : List MemOp :=
  List.replicate 21 (.take none) ++
    [.put (memzoneAddr 3), .put (memzoneAddr 3), .put ⟨.host 5, 8⟩]

theorem memzone_ownership_sample :
    (Runs.run (memStep ({ maxPreallocateMemzones := 20 } : Configuration).compressedSegSize)
      samplePreallocate.1 sampleOps).device.memzonePool.Nodup :=
  (@memzone_ownership 0 0 ⟨∅, fun _ => 0, 0⟩ { maxPreallocateMemzones := 20 }
    ((List.range 20).map some) samplePreallocate.1
    (Prod.ext rfl (show samplePreallocate.2 = .success by decide +kernel)) sampleOps).2.1

end Zones

end Bitar
