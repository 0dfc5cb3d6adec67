import Bitar.Configuration
import Bitar.Lib.BlockStore
import Mathlib.Data.Finset.Basic
import Mathlib.Data.Finset.Insert
import Mathlib.Data.Finset.SDiff
import Mathlib.Data.Finset.Dedup
import Mathlib.Data.Finset.Card
import Mathlib.Data.Int.Notation

/-!
# Memzones and the memory of a device

A memzone is a block of memory reserved from DPDK.  `MemzonePool` is the part
of the `Rtememzone` memory pool that a device uses: the tracker, which maps the
address of every reserved memzone to it, and the byte counter.  `DeviceMemory`
keeps the memzones of one device: a stack of free ones and the set of those
taken for compressed data.

The environment answers every reservation.  An answer is the memzone that DPDK
hands out; naming a memzone that is already reserved counts as a failure, so
whatever is handed out is distinct from all live ones.

**Results.**
* `Zones.take_cases`: what one `Take` can do.
* `Zones.WellFormed.take`, `Zones.WellFormed.put`: free and taken memzones stay
  distinct, reserved and of the segment length in force.
-/

namespace Bitar

open BlockStore

/-- Where a pointer can point: into a memzone or into other memory. -/
inductive Block
  | memzone (id : Nat)
  | host (id : Nat)
deriving DecidableEq, Repr

/-- A pointer. -/
structure Addr where
  block : Block
  offset : Nat
deriving DecidableEq, Repr

abbrev Memory := Store Block UInt8

/-- The base address of a memzone. -/
def memzoneAddr (z : Nat) : Addr := ⟨.memzone z, 0⟩

/-- The `Rtememzone` pool with its tracker. -/
structure MemzonePool where
  /-- `RtememzoneAllocatorTracker::allocated_memzones_`. -/
  allocated : Finset Nat
  /-- The size each memzone was allocated with. -/
  size : Nat → Nat
  bytesAllocated : Int

namespace MemzonePool

/-- `AllocateOne`. -/
def allocateOne (pool : MemzonePool) (size : Nat) : Option Nat → Option (Nat × MemzonePool)
  | none => none
  | some z =>
      if z ∈ pool.allocated then none
      else some (z, { allocated := insert z pool.allocated
                      size := Function.update pool.size z size
                      bytesAllocated := pool.bytesAllocated + size })

/-- `Free`, on the address of a memzone. -/
def free (pool : MemzonePool) (z size : Nat) : MemzonePool :=
  { pool with
    allocated := pool.allocated.erase z
    bytesAllocated := pool.bytesAllocated - size }

/-- `RtememzoneAllocatorTracker::Of`. -/
def of (pool : MemzonePool) (addr : Addr) : Option Nat :=
  match addr.block with
  | .memzone z => if addr.offset = 0 ∧ z ∈ pool.allocated then some z else none
  | .host _ => none

/-- `static_cast<std::uint16_t>(memzone->len)`. -/
def len (pool : MemzonePool) (z : Nat) : Nat :=
  toUInt16 (memzoneLen (pool.size z))

end MemzonePool

structure DeviceMemory where
  /-- The address of the C++ object. -/
  self : Nat
  memzonePool : List Nat
  occupiedMemzones : Finset Nat
  numPreallocatedMemzones : Nat

/-- The constructor of `DeviceMemory`. -/
def DeviceMemory.new (self : Nat) : DeviceMemory :=
  ⟨self, [], ∅, 0⟩

/-- The memory of a device together with the pool it allocates from. -/
structure Zones where
  device : DeviceMemory
  pool : MemzonePool

namespace Zones

/-- `DeviceMemory::Take`. -/
def take (zones : Zones) (compressedSegSize : Nat) (answer : Option Nat) : Option Nat × Zones :=
  match zones.device.memzonePool with
  | z :: rest =>
      (some z, { zones with device := { zones.device with
        memzonePool := rest
        occupiedMemzones := insert z zones.device.occupiedMemzones } })
  | [] =>
      match zones.pool.allocateOne compressedSegSize answer with
      | none => (none, zones)
      | some (z, pool) =>
          (some z, { device := { zones.device with
                      occupiedMemzones := insert z zones.device.occupiedMemzones }
                     pool := pool })

/-- `DeviceMemory::Put`. -/
def put (zones : Zones) (addr : Addr) : Nat × Zones :=
  match zones.pool.of addr with
  | none => (0, zones)
  | some z =>
      if z ∈ zones.device.occupiedMemzones then
        (1, { zones with device := { zones.device with
          memzonePool := z :: zones.device.memzonePool
          occupiedMemzones := zones.device.occupiedMemzones.erase z } })
      else (0, zones)

/-- Put back the memzones at several addresses, one after another. -/
def putAll (zones : Zones) (addrs : List Addr) : Zones :=
  addrs.foldl (fun zs addr => (zs.put addr).2) zones

/-- `Recycle` puts back the memzones under the buffers, last one first, and
counts them. -/
def recycle (zones : Zones) (addrs : List Addr) : Nat × Zones :=
  addrs.reverse.foldl (fun acc addr => (acc.1 + (acc.2.put addr).1, (acc.2.put addr).2)) (0, zones)

/-- The loop of `Preallocate`: reserve `n` memzones, or as many as there are. -/
def preallocateLoop (compressedSegSize : Nat) : Nat → List (Option Nat) → Zones → Zones
  | 0, _, zones => zones
  | n + 1, answers, zones =>
      match zones.pool.allocateOne compressedSegSize answers.head?.join with
      | none => zones
      | some (z, pool) =>
          preallocateLoop compressedSegSize n answers.tail
            { device := { zones.device with memzonePool := z :: zones.device.memzonePool }
              pool := pool }

/-- `DeviceMemory::Preallocate`. -/
def preallocate (zones : Zones) (deviceId : Nat) (cfg : Configuration)
    (answers : List (Option Nat)) : Zones × Status :=
  let maxPreallocateMemzones := cfg.maxPreallocateMemzones.toNat
  let zones := preallocateLoop cfg.compressedSegSize
    (maxPreallocateMemzones - zones.device.memzonePool.length) answers zones
  let size := zones.device.memzonePool.length
  -- below the maximum, the loop has ended with a failed reservation
  if size < maxPreallocateMemzones ∧ size < kMinPreallocateMemzones then
    (zones, ⟨.outOfMemory, s!"Cannot allocate at least {kMinPreallocateMemzones} memzones for compress device {deviceId}"⟩)
  else
    ({ zones with device := { zones.device with numPreallocatedMemzones := toUInt16 size } },
      .success)

/-- The memzones that the destructor frees; `order` is the order in which it
finds the taken ones in their hash set. -/
def freed (zones : Zones) (order : List Nat) : List Nat :=
  zones.device.memzonePool ++ order

/-- `~DeviceMemory`. -/
def destroy (zones : Zones) (compressedSegSize : Nat) (order : List Nat) : MemzonePool :=
  (zones.freed order).foldl (fun pool z => pool.free z compressedSegSize) zones.pool

/-- How many memzones the device memory holds. -/
def held (zones : Zones) : Nat :=
  zones.device.memzonePool.length + zones.device.occupiedMemzones.card

/-- Free and taken memzones are distinct and reserved, and every free one was
reserved with the size in force. -/
structure WellFormed (size : Nat) (zones : Zones) : Prop where
  nodup : zones.device.memzonePool.Nodup
  disjoint : ∀ z ∈ zones.device.memzonePool, z ∉ zones.device.occupiedMemzones
  pool_allocated : ∀ z ∈ zones.device.memzonePool, z ∈ zones.pool.allocated
  occupied_allocated : ∀ z ∈ zones.device.occupiedMemzones, z ∈ zones.pool.allocated
  pool_size : ∀ z ∈ zones.device.memzonePool, zones.pool.size z = size

/-- `later` was reached from `start` by taking memzones and by putting back
memzones that were not taken at `start`. -/
structure Since (start later : Zones) : Prop where
  occupied_subset : ∀ z ∈ start.device.occupiedMemzones, z ∈ later.device.occupiedMemzones
  allocated_subset : ∀ z ∈ start.pool.allocated, z ∈ later.pool.allocated
  size_eq : ∀ z ∈ start.pool.allocated, later.pool.size z = start.pool.size z
  split : ∀ z,
    (z ∈ later.device.memzonePool ∨
        (z ∈ later.device.occupiedMemzones ∧ z ∉ start.device.occupiedMemzones)) ↔
      (z ∈ start.device.memzonePool ∨
        (z ∈ later.pool.allocated ∧ z ∉ start.pool.allocated))

section Take

variable {zones : Zones} {size : Nat} {answer : Option Nat}

/-- What one `Take` can do: hand out the top of the stack, reserve a new
memzone, or fail without any effect. -/
theorem take_cases (zones : Zones) (size : Nat) (answer : Option Nat) :
    (∃ z rest, zones.device.memzonePool = z :: rest ∧
      zones.take size answer =
        (some z, { zones with device := { zones.device with
          memzonePool := rest
          occupiedMemzones := insert z zones.device.occupiedMemzones } })) ∨
    (∃ z, zones.device.memzonePool = [] ∧ z ∉ zones.pool.allocated ∧
      zones.take size answer =
        (some z, { device := { zones.device with
                    occupiedMemzones := insert z zones.device.occupiedMemzones }
                   pool := { allocated := insert z zones.pool.allocated
                             size := Function.update zones.pool.size z size
                             bytesAllocated := zones.pool.bytesAllocated + size } })) ∨
    (zones.device.memzonePool = [] ∧ zones.take size answer = (none, zones)) := by
  unfold take
  cases hp : zones.device.memzonePool with
  | cons z rest => exact Or.inl ⟨z, rest, rfl, rfl⟩
  | nil =>
      right
      cases answer with
      | none => exact Or.inr ⟨rfl, rfl⟩
      | some z =>
          by_cases hz : z ∈ zones.pool.allocated
          · right
            simp [MemzonePool.allocateOne, hz]
          · left
            exact ⟨z, rfl, hz, by simp [MemzonePool.allocateOne, hz]⟩

theorem take_none {zones' : Zones} (h : zones.take size answer = (none, zones')) :
    zones' = zones := by
  rcases take_cases zones size answer with ⟨z, rest, -, he⟩ | ⟨z, -, -, he⟩ | ⟨-, he⟩
  all_goals
    rw [he] at h
    simp at h
  exact h.symm

/-- The memzone on top of the stack is handed out. -/
theorem WellFormed.takeTop {z : Nat} {rest : List Nat} (hwf : zones.WellFormed size)
    (hp : zones.device.memzonePool = z :: rest) :
    let zones' : Zones := { zones with device := { zones.device with
      memzonePool := rest
      occupiedMemzones := insert z zones.device.occupiedMemzones } }
    zones'.WellFormed size ∧ zones.Since zones' := by
  have hnd := hwf.nodup
  rw [hp, List.nodup_cons] at hnd
  have hpool : ∀ x, x ∈ zones.device.memzonePool ↔ x = z ∨ x ∈ rest := by
    intro x
    rw [hp, List.mem_cons]
  have hzo := hwf.disjoint z (by simp [hp])
  refine ⟨⟨hnd.2, ?_, ?_, ?_, ?_⟩, ⟨?_, fun _ hx => hx, fun _ _ => rfl, ?_⟩⟩
  · intro x hx
    have := hwf.disjoint x ((hpool x).mpr (Or.inr hx))
    simp only [Finset.mem_insert, not_or]
    exact ⟨fun hxz => hnd.1 (hxz ▸ hx), this⟩
  · exact fun x hx => hwf.pool_allocated x ((hpool x).mpr (Or.inr hx))
  · intro x hx
    rcases Finset.mem_insert.mp hx with rfl | hx
    · exact hwf.pool_allocated x (by simp [hp])
    · exact hwf.occupied_allocated x hx
  · exact fun x hx => hwf.pool_size x ((hpool x).mpr (Or.inr hx))
  · exact fun x hx => Finset.mem_insert_of_mem hx
  · intro x
    simp only [Finset.mem_insert, hpool]
    constructor
    · rintro (hx | ⟨hx | hx, hn⟩)
      · exact Or.inl (Or.inr hx)
      · exact Or.inl (Or.inl hx)
      · exact absurd hx hn
    · rintro ((rfl | hx) | ⟨hx, hn⟩)
      · exact Or.inr ⟨Or.inl rfl, hzo⟩
      · exact Or.inl hx
      · exact absurd hx hn

/-- A memzone is reserved for an empty stack and handed out. -/
theorem WellFormed.takeNew {z : Nat} (hwf : zones.WellFormed size)
    (hp : zones.device.memzonePool = []) (hz : z ∉ zones.pool.allocated) :
    let zones' : Zones :=
      { device := { zones.device with
          occupiedMemzones := insert z zones.device.occupiedMemzones }
        pool := { allocated := insert z zones.pool.allocated
                  size := Function.update zones.pool.size z size
                  bytesAllocated := zones.pool.bytesAllocated + size } }
    zones'.WellFormed size ∧ zones.Since zones' := by
  have hzo : z ∉ zones.device.occupiedMemzones := fun ho => hz (hwf.occupied_allocated z ho)
  refine ⟨⟨hwf.nodup, ?_, ?_, ?_, ?_⟩, ⟨?_, ?_, ?_, ?_⟩⟩
  · intro x hx
    simp [hp] at hx
  · intro x hx
    simp [hp] at hx
  · intro x hx
    rcases Finset.mem_insert.mp hx with rfl | hx
    · exact Finset.mem_insert_self _ _
    · exact Finset.mem_insert_of_mem (hwf.occupied_allocated x hx)
  · intro x hx
    simp [hp] at hx
  · exact fun x hx => Finset.mem_insert_of_mem hx
  · exact fun x hx => Finset.mem_insert_of_mem hx
  · intro x hx
    have hxz : x ≠ z := fun e => hz (e ▸ hx)
    simp [hxz]
  · intro x
    simp only [hp, List.not_mem_nil, false_or, Finset.mem_insert]
    constructor
    · rintro ⟨rfl | hx, hn⟩
      · exact ⟨Or.inl rfl, hz⟩
      · exact absurd hx hn
    · rintro ⟨rfl | hx, hn⟩
      · exact ⟨Or.inl rfl, hzo⟩
      · exact absurd hx hn

theorem WellFormed.take {z : Nat} {zones' : Zones} (hwf : zones.WellFormed size)
    (h : zones.take size answer = (some z, zones')) :
    zones'.WellFormed size ∧ z ∉ zones.device.occupiedMemzones ∧
      zones'.device.occupiedMemzones = insert z zones.device.occupiedMemzones ∧
      zones'.pool.size z = size ∧ zones.Since zones' := by
  rcases take_cases zones size answer with ⟨y, rest, hp, he⟩ | ⟨y, hp, hy, he⟩ | ⟨hp, he⟩
  · rw [he] at h
    obtain ⟨hz, rfl⟩ := Prod.mk.inj h
    obtain rfl := Option.some.inj hz
    have htop : y ∈ zones.device.memzonePool := by simp [hp]
    obtain ⟨hwf', hsince⟩ := hwf.takeTop hp
    exact ⟨hwf', hwf.disjoint y htop, rfl, hwf.pool_size y htop, hsince⟩
  · rw [he] at h
    obtain ⟨hz, rfl⟩ := Prod.mk.inj h
    obtain rfl := Option.some.inj hz
    obtain ⟨hwf', hsince⟩ := hwf.takeNew hp hy
    exact ⟨hwf', fun ho => hy (hwf.occupied_allocated y ho), rfl, by simp, hsince⟩
  · rw [he] at h
    simp at h

end Take

section Put

variable {zones : Zones} {size : Nat}

/-- `Put` moves a taken memzone back to the stack, or does nothing. -/
theorem put_cases (zones : Zones) (addr : Addr) :
    (∃ z, addr = memzoneAddr z ∧ z ∈ zones.pool.allocated ∧
      z ∈ zones.device.occupiedMemzones ∧
      zones.put addr = (1, { zones with device := { zones.device with
        memzonePool := z :: zones.device.memzonePool
        occupiedMemzones := zones.device.occupiedMemzones.erase z } })) ∨
    ((∀ z, addr = memzoneAddr z → z ∈ zones.pool.allocated →
        z ∉ zones.device.occupiedMemzones) ∧ zones.put addr = (0, zones)) := by
  obtain ⟨block, offset⟩ := addr
  cases block with
  | host id => exact Or.inr ⟨fun z hz => by simp [memzoneAddr] at hz, rfl⟩
  | memzone y =>
      by_cases hy : offset = 0 ∧ y ∈ zones.pool.allocated
      · obtain ⟨rfl, hy⟩ := hy
        by_cases ho : y ∈ zones.device.occupiedMemzones
        · exact Or.inl ⟨y, rfl, hy, ho, by simp [put, MemzonePool.of, hy, ho]⟩
        · refine Or.inr ⟨fun z hz _ => ?_, by simp [put, MemzonePool.of, hy, ho]⟩
          simp only [memzoneAddr, Addr.mk.injEq, Block.memzone.injEq, and_true] at hz
          exact hz ▸ ho
      · refine Or.inr ⟨fun z hz hza => ?_, by simp [put, MemzonePool.of, hy]⟩
        simp only [memzoneAddr, Addr.mk.injEq, Block.memzone.injEq] at hz
        exact absurd ⟨hz.2, hz.1 ▸ hza⟩ hy

/-- Putting a memzone back that was taken. -/
theorem put_memzoneAddr {z : Nat} (ha : z ∈ zones.pool.allocated)
    (ho : z ∈ zones.device.occupiedMemzones) :
    (zones.put (memzoneAddr z)).2 = { zones with device := { zones.device with
      memzonePool := z :: zones.device.memzonePool
      occupiedMemzones := zones.device.occupiedMemzones.erase z } } := by
  simp [put, MemzonePool.of, memzoneAddr, ha, ho]

@[simp] theorem put_pool (addr : Addr) : (zones.put addr).2.pool = zones.pool := by
  rcases put_cases zones addr with ⟨z, -, -, -, he⟩ | ⟨-, he⟩ <;> rw [he]

theorem WellFormed.put (hwf : zones.WellFormed size) {addr : Addr}
    (hsize : ∀ z, addr = memzoneAddr z → zones.pool.size z = size) :
    (zones.put addr).2.WellFormed size := by
  rcases put_cases zones addr with ⟨z, ha, hz, ho, he⟩ | ⟨-, he⟩
  · rw [he]
    have hnot : z ∉ zones.device.memzonePool := fun h => hwf.disjoint z h ho
    refine ⟨List.nodup_cons.mpr ⟨hnot, hwf.nodup⟩, ?_, ?_, ?_, ?_⟩
    · intro x hx
      rcases List.mem_cons.mp hx with rfl | hx
      · exact Finset.notMem_erase _ _
      · exact fun h => hwf.disjoint x hx (Finset.mem_of_mem_erase h)
    · intro x hx
      rcases List.mem_cons.mp hx with rfl | hx
      · exact hz
      · exact hwf.pool_allocated x hx
    · exact fun x hx => hwf.occupied_allocated x (Finset.mem_of_mem_erase hx)
    · intro x hx
      rcases List.mem_cons.mp hx with rfl | hx
      · exact hsize x ha
      · exact hwf.pool_size x hx
  · rw [he]
    exact hwf

/-- Taken memzones on the stack again. -/
theorem WellFormed.putBack (hwf : zones.WellFormed size) {zs : List Nat} (hnd : zs.Nodup)
    (h : ∀ z ∈ zs, z ∈ zones.device.occupiedMemzones ∧ zones.pool.size z = size) :
    WellFormed size { zones with device := { zones.device with
      memzonePool := zs ++ zones.device.memzonePool
      occupiedMemzones := zones.device.occupiedMemzones \ zs.toFinset } } := by
  refine ⟨?_, ?_, ?_, ?_, ?_⟩
  · exact List.Nodup.append hnd hwf.nodup fun z hz hp => hwf.disjoint z hp (h z hz).1
  · intro z hz
    rw [Finset.mem_sdiff, List.mem_toFinset, not_and, not_not]
    intro ho
    exact (List.mem_append.mp hz).resolve_right fun hp => hwf.disjoint z hp ho
  · intro z hz
    rcases List.mem_append.mp hz with hz | hz
    · exact hwf.occupied_allocated z (h z hz).1
    · exact hwf.pool_allocated z hz
  · exact fun z hz => hwf.occupied_allocated z (Finset.mem_sdiff.mp hz).1
  · intro z hz
    rcases List.mem_append.mp hz with hz | hz
    · exact (h z hz).2
    · exact hwf.pool_size z hz

/-- Putting distinct memzones back that were taken. -/
theorem putAll_memzones :
    ∀ (zs : List Nat) (zones : Zones), zs.Nodup →
      (∀ z ∈ zs, z ∈ zones.pool.allocated ∧ z ∈ zones.device.occupiedMemzones) →
      zones.putAll (zs.map memzoneAddr) = { zones with device := { zones.device with
        memzonePool := zs.reverse ++ zones.device.memzonePool
        occupiedMemzones := zones.device.occupiedMemzones \ zs.toFinset } }
  | [], zones, _, _ => by simp [putAll]
  | z :: zs, zones, hnd, h => by
      obtain ⟨hz, hnd⟩ := List.nodup_cons.mp hnd
      obtain ⟨ha, ho⟩ := h z (by simp)
      have hrest : ∀ x ∈ zs, x ∈ zones.pool.allocated ∧
          x ∈ zones.device.occupiedMemzones.erase z := fun x hx =>
        ⟨(h x (by simp [hx])).1,
          Finset.mem_erase.mpr ⟨fun e => hz (e ▸ hx), (h x (by simp [hx])).2⟩⟩
      have ih := putAll_memzones zs (zones.put (memzoneAddr z)).2 hnd
        (by rw [put_memzoneAddr ha ho]; exact hrest)
      have hocc : zones.device.occupiedMemzones.erase z \ zs.toFinset =
          zones.device.occupiedMemzones \ (z :: zs).toFinset := by
        ext x
        simp only [Finset.mem_sdiff, Finset.mem_erase, List.mem_toFinset, List.mem_cons]
        tauto
      unfold putAll at ih ⊢
      rw [List.map_cons, List.foldl_cons, ih, put_memzoneAddr ha ho]
      simp only [hocc, List.reverse_cons, List.append_assoc, List.singleton_append]

end Put

section Since

variable {start zones later : Zones} {size : Nat}

theorem Since.refl (zones : Zones) : zones.Since zones := by
  refine ⟨fun _ h => h, fun _ h => h, fun _ _ => rfl, fun z => ?_⟩
  constructor
  · rintro (h | ⟨h, hn⟩)
    · exact Or.inl h
    · exact absurd h hn
  · rintro (h | ⟨h, hn⟩)
    · exact Or.inl h
    · exact absurd h hn

theorem Since.trans (h1 : start.Since zones) (h2 : zones.Since later) : start.Since later := by
  refine ⟨fun z hz => h2.occupied_subset z (h1.occupied_subset z hz),
    fun z hz => h2.allocated_subset z (h1.allocated_subset z hz), fun z hz => ?_, fun z => ?_⟩
  · rw [h2.size_eq z (h1.allocated_subset z hz), h1.size_eq z hz]
  · have e1 := h1.split z
    have e2 := h2.split z
    have o1 := h1.occupied_subset z
    have o2 := h2.occupied_subset z
    have a1 := h1.allocated_subset z
    have a2 := h2.allocated_subset z
    grind

/-- Putting back a memzone that was not taken at the start. -/
theorem Since.put (h : start.Since zones) {addr : Addr}
    (hnew : ∀ z, addr = memzoneAddr z → z ∉ start.device.occupiedMemzones) :
    start.Since (zones.put addr).2 := by
  rcases put_cases zones addr with ⟨z, ha, hz, ho, he⟩ | ⟨-, he⟩
  · rw [he]
    have hzs := hnew z ha
    refine ⟨fun x hx => ?_, h.allocated_subset, h.size_eq, fun x => ?_⟩
    · exact Finset.mem_erase.mpr ⟨fun e => hzs (e ▸ hx), h.occupied_subset x hx⟩
    · rw [← h.split x]
      simp only [List.mem_cons, Finset.mem_erase]
      by_cases hx : x = z
      · subst hx
        simp [ho, hzs]
      · simp [hx]
  · rw [he]
    exact h

end Since

end Zones

end Bitar
