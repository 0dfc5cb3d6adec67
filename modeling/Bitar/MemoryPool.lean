import Bitar.DeviceMemory
import Bitar.Lib.Runs
import Mathlib.Data.List.Perm.Basic
import Mathlib.Algebra.BigOperators.Group.List.Basic

/-!
# The `Rtememzone` memory pool as a heap

Three layers: `BaseMemoryPoolImpl` checks the size, poisons and counts;
`RtememzoneAllocator` serves requests of size zero from a static area and every
other one from a memzone of its own; the tracker maps the address of a memzone
to it.  `Heap` is the pool with the allocations that its callers hold.

**Results.**
* `allocate_cases`, `reallocate_cases`: what one call can do.
* `act_inStep`, `act_served`: one call keeps the layers in step and serves its
  caller.
* `memory_pool`: the same for every run of calls.
* `Views.allocate`, `Views.free`: the part of the pool that a device sees is
  `MemzonePool`.
-/

namespace Bitar

open BlockStore

/-- `rte_memzone`. -/
structure Memzone where
  addr : Addr
  len : Nat
deriving DecidableEq

def Memzone.span (z : Memzone) : Span Block := ⟨z.addr.block, z.addr.offset, z.len⟩

/-- The answer of `rte_memzone_reserve_aligned`: a memzone, or `rte_errno` with
its text. -/
inductive Reservation
  | memzone (z : Memzone)
  | failure (rteErrno : Nat) (rteStrerror : String)

/-- `kZeroSizeArea`, which points to the eight bytes of `zero_size_area`. -/
def kZeroSizeArea : Addr := ⟨.host 0, 0⟩

def zeroSizeArea : Span Block := ⟨.host 0, 0, 8⟩

/-- `std::numeric_limits<std::size_t>::max()`. -/
def sizeMax : Int := 2 ^ 64 - 1

def kAllocPoison : UInt8 := 0xBC

def kReallocPoison : UInt8 := 0xBD

def kDeallocPoison : UInt8 := 0xBE

/-- The pool, with the tracker that its allocator uses. -/
structure RtememzonePool where
  memory : Memory
  /-- The memzones that are reserved from DPDK. -/
  reserved : Finset Memzone := ∅
  /-- `RtememzoneAllocatorTracker::allocated_memzones_`. -/
  allocatedMemzones : Addr → Option Memzone := fun _ => none
  /-- The arguments of `rte_memzone_free` so far. -/
  freed : List Memzone := []
  bytesAllocated : Int := 0

namespace RtememzonePool

variable (pool : RtememzonePool)

/-- `RtememzoneAllocatorTracker::Of`. -/
def of (addr : Addr) : Option Memzone := pool.allocatedMemzones addr

/-- `RtememzoneAllocatorTracker::Emplace`. -/
def emplace (addr : Addr) (z : Memzone) : RtememzonePool :=
  { pool with
    allocatedMemzones := if pool.allocatedMemzones addr = none then
      Function.update pool.allocatedMemzones addr (some z) else pool.allocatedMemzones }

/-- `RtememzoneAllocatorTracker::Release`. -/
def release (addr : Addr) : RtememzonePool :=
  match pool.allocatedMemzones addr with
  | none => pool
  | some z =>
      { pool with
        reserved := pool.reserved.erase z
        freed := pool.freed ++ [z]
        allocatedMemzones := Function.update pool.allocatedMemzones addr none }

/-- `RtememzoneAllocator::AllocateAligned`. -/
def allocateAligned (size : Int) (answer : Reservation) (out : Addr) :
    RtememzonePool × Addr × Status :=
  if size = 0 then (pool, kZeroSizeArea, .success)
  else
    match answer with
    | .failure rteErrno rteStrerror =>
        (pool, out, ⟨.outOfMemory,
          s!"Reserving memzone of {size} bytes failed. [Error {rteErrno}: {rteStrerror}]"⟩)
    | .memzone z =>
        (({ pool with reserved := insert z pool.reserved }).emplace z.addr z, z.addr, .success)

/-- `RtememzoneAllocator::DeallocateAligned`. -/
def deallocateAligned (ptr : Addr) : RtememzonePool :=
  if ptr = kZeroSizeArea then pool else pool.release ptr

/-- `RtememzoneAllocator::ReallocateAligned`. -/
def reallocateAligned (oldSize newSize : Int) (answer : Reservation) (ptr : Addr) :
    RtememzonePool × Addr × Status :=
  if ptr = kZeroSizeArea then pool.allocateAligned newSize answer ptr
  else if newSize = 0 then (pool.deallocateAligned ptr, kZeroSizeArea, .success)
  else
    match pool.allocateAligned newSize answer ptr with
    | (pool, out, status) =>
        if status.code ≠ .ok then (pool, ptr, status)
        else
          let copied := write pool.memory out.block out.offset
            (read pool.memory ptr.block ptr.offset (min newSize oldSize).toNat)
          (({ pool with memory := copied }).release ptr, out, .success)

/-- `ptr[first] = value` and `ptr[last] = value`. -/
def poison (memory : Memory) (ptr : Addr) (first last : Int) (value : UInt8) : Memory :=
  write (write memory ptr.block (ptr.offset + first.toNat) [value])
    ptr.block (ptr.offset + last.toNat) [value]

variable (debug : Bool)

/-- `BaseMemoryPoolImpl::Allocate`. -/
def allocate (size : Int) (answer : Reservation) (out : Addr) : RtememzonePool × Addr × Status :=
  if size < 0 then (pool, out, .invalid "negative malloc size")
  else if sizeMax ≤ size then (pool, out, ⟨.outOfMemory, "malloc size overflows size_t"⟩)
  else
    match pool.allocateAligned size answer out with
    | (pool, out, status) =>
        if status.code ≠ .ok then (pool, out, status)
        else
          ({ pool with
             memory := if debug ∧ 0 < size then poison pool.memory out 0 (size - 1) kAllocPoison
               else pool.memory
             bytesAllocated := pool.bytesAllocated + size }, out, .success)

/-- `BaseMemoryPoolImpl::Reallocate`. -/
def reallocate (oldSize newSize : Int) (answer : Reservation) (ptr : Addr) :
    RtememzonePool × Addr × Status :=
  if newSize < 0 then (pool, ptr, .invalid "negative realloc size")
  else if sizeMax ≤ newSize then (pool, ptr, ⟨.outOfMemory, "realloc overflows size_t"⟩)
  else
    match pool.reallocateAligned oldSize newSize answer ptr with
    | (pool, ptr, status) =>
        if status.code ≠ .ok then (pool, ptr, status)
        else
          ({ pool with
             memory := if debug ∧ oldSize < newSize then
                 poison pool.memory ptr oldSize (newSize - 1) kReallocPoison
               else pool.memory
             bytesAllocated := pool.bytesAllocated + (newSize - oldSize) }, ptr, .success)

/-- `BaseMemoryPoolImpl::Free`. -/
def free (ptr : Addr) (size : Int) : RtememzonePool :=
  let poisoned := { pool with
    memory := if debug ∧ 0 < size then poison pool.memory ptr 0 (size - 1) kDeallocPoison
      else pool.memory }
  let pool := poisoned.deallocateAligned ptr
  { pool with bytesAllocated := pool.bytesAllocated - size }

end RtememzonePool

/-- The memzone that a request for `size` bytes takes, unless it fails. -/
def Reservation.given (size : Int) : Reservation → Option Memzone
  | .memzone z => if size = 0 then none else some z
  | .failure _ _ => none

/-- The pointer that such a request returns. -/
def baseOf : Option Memzone → Addr
  | none => kZeroSizeArea
  | some z => z.addr

/-- A memzone that DPDK can answer with: it is large enough and overlaps nothing
that is in use. -/
def Reservation.Fresh (reserved : Finset Memzone) (size : Int) (answer : Reservation) : Prop :=
  ∀ z ∈ answer.given size,
    size ≤ z.len ∧ z.span.Disjoint zeroSizeArea ∧ ∀ y ∈ reserved, z.span.Disjoint y.span

instance (reserved : Finset Memzone) (size : Int) (answer : Reservation) :
    Decidable (answer.Fresh reserved size) :=
  inferInstanceAs (Decidable (∀ z ∈ answer.given size,
    size ≤ z.len ∧ z.span.Disjoint zeroSizeArea ∧ ∀ y ∈ reserved, z.span.Disjoint y.span))

/-- What a caller holds: a pointer, the size it asked for, and the memzone that
was reserved for it. -/
structure Allocation where
  ptr : Addr
  size : Nat
  memzone : Option Memzone
deriving DecidableEq

/-- The bytes of an allocation. -/
def Allocation.region (al : Allocation) : Span Block := ⟨al.ptr.block, al.ptr.offset, al.size⟩

/-- The pool and the allocations that have not been freed. -/
structure Heap where
  pool : RtememzonePool
  live : List Allocation

namespace RtememzonePool

variable (pool : RtememzonePool)

/-- The reservation of a request and the entry for it. -/
def obtain : Option Memzone → RtememzonePool
  | none => pool
  | some z => ({ pool with reserved := insert z pool.reserved }).emplace z.addr z

@[simp] theorem obtain_memory (given : Option Memzone) :
    (pool.obtain given).memory = pool.memory := by
  cases given <;> rfl

@[simp] theorem obtain_freed (given : Option Memzone) : (pool.obtain given).freed = pool.freed := by
  cases given <;> rfl

@[simp] theorem obtain_bytesAllocated (given : Option Memzone) :
    (pool.obtain given).bytesAllocated = pool.bytesAllocated := by
  cases given <;> rfl

@[simp] theorem deallocateAligned_memory (ptr : Addr) :
    (pool.deallocateAligned ptr).memory = pool.memory := by
  unfold deallocateAligned release
  split_ifs
  · rfl
  · split <;> rfl

@[simp] theorem deallocateAligned_bytesAllocated (ptr : Addr) :
    (pool.deallocateAligned ptr).bytesAllocated = pool.bytesAllocated := by
  unfold deallocateAligned release
  split_ifs
  · rfl
  · split <;> rfl

theorem allocateAligned_cases (size : Int) (answer : Reservation) (out : Addr) :
    (∃ status : Status, status.code ≠ .ok ∧
      pool.allocateAligned size answer out = (pool, out, status)) ∨
    ((answer.given size = none → size = 0) ∧
      pool.allocateAligned size answer out =
        (pool.obtain (answer.given size), baseOf (answer.given size), .success)) := by
  by_cases hsize : size = 0
  · right
    cases answer <;> simp [allocateAligned, Reservation.given, hsize, obtain, baseOf]
  · cases answer with
    | failure e message =>
        left
        simp only [allocateAligned, if_neg hsize]
        exact ⟨_, by simp, rfl⟩
    | memzone z =>
        right
        simp [allocateAligned, Reservation.given, hsize, obtain, baseOf]

variable (debug : Bool)

/-- What `Allocate` can do. -/
theorem allocate_cases (size : Int) (answer : Reservation) (out : Addr) :
    (∃ status : Status, status.code ≠ .ok ∧
      pool.allocate debug size answer out = (pool, out, status)) ∨
    (0 ≤ size ∧ (answer.given size = none → size = 0) ∧
      pool.allocate debug size answer out =
        ({ pool.obtain (answer.given size) with
            memory := if debug ∧ 0 < size then
                poison pool.memory (baseOf (answer.given size)) 0 (size - 1) kAllocPoison
              else pool.memory
            bytesAllocated := pool.bytesAllocated + size },
          baseOf (answer.given size), .success)) := by
  by_cases hneg : size < 0
  · left
    exact ⟨.invalid "negative malloc size", by simp [Status.invalid], by simp [allocate, hneg]⟩
  by_cases hmax : sizeMax ≤ size
  · left
    exact ⟨⟨.outOfMemory, "malloc size overflows size_t"⟩, by simp, by simp [allocate, hneg, hmax]⟩
  rcases pool.allocateAligned_cases size answer out with ⟨status, hstatus, heq⟩ | ⟨hgiven, heq⟩
  · left
    exact ⟨status, hstatus, by simp [allocate, hneg, hmax, heq, hstatus]⟩
  · right
    exact ⟨by omega, hgiven, by simp [allocate, hneg, hmax, heq, Status.success]⟩

end RtememzonePool

/-- How an allocation was served. -/
inductive Allocation.Served (al : Allocation) : Prop
  | fromZeroArea (hmemzone : al.memzone = none) (hsize : al.size = 0)
      (hptr : al.ptr = kZeroSizeArea)
  | fromMemzone (z : Memzone) (hmemzone : al.memzone = some z) (hsize : 0 < al.size)
      (hlen : al.size ≤ z.len) (hptr : al.ptr = z.addr) (hzero : z.span.Disjoint zeroSizeArea)

theorem Memzone.addr_ne {y z : Memzone} (hy : 0 < y.len) (hz : 0 < z.len)
    (h : z.span.Disjoint y.span) : z.addr ≠ y.addr := by
  intro e
  rcases h with h | h
  · exact h (by simp [Memzone.span, e])
  · simp only [Memzone.span, e] at h
    omega

theorem Memzone.addr_ne_zeroArea {z : Memzone} (hz : 0 < z.len) (h : z.span.Disjoint zeroSizeArea) :
    z.addr ≠ kZeroSizeArea := by
  intro e
  rcases h with h | h
  · exact h (by simp [Memzone.span, e, zeroSizeArea, kZeroSizeArea])
  · simp only [Memzone.span, e, zeroSizeArea, kZeroSizeArea] at h
    omega

/-- The comparison with `kZeroSizeArea` tells whether the size is zero. -/
theorem Allocation.Served.ptr_eq_iff {al : Allocation} (h : al.Served) :
    al.ptr = kZeroSizeArea ↔ al.size = 0 := by
  cases h with
  | fromZeroArea _ hsize hptr => exact iff_of_true hptr hsize
  | fromMemzone z _ hsize hlen hptr hzero =>
      refine iff_of_false ?_ (by omega)
      rw [hptr]
      exact Memzone.addr_ne_zeroArea (by omega) hzero

namespace RtememzonePool

variable (pool : RtememzonePool) (debug : Bool)

/-- `ReallocateAligned` allocates, copies and releases, also where it says so in
another way: nothing is copied from or to the zero-size area. -/
theorem reallocateAligned_cases {al : Allocation} (h : al.Served) {newSize : Int}
    (hnew : 0 ≤ newSize) (answer : Reservation) :
    (∃ status : Status, status.code ≠ .ok ∧
      pool.reallocateAligned al.size newSize answer al.ptr = (pool, al.ptr, status)) ∨
    ((answer.given newSize = none → newSize = 0) ∧
      pool.reallocateAligned al.size newSize answer al.ptr =
        (({ pool.obtain (answer.given newSize) with
            memory := write pool.memory (baseOf (answer.given newSize)).block
              (baseOf (answer.given newSize)).offset
              (read pool.memory al.ptr.block al.ptr.offset (min newSize al.size).toNat)
            }).deallocateAligned al.ptr, baseOf (answer.given newSize), .success)) := by
  by_cases hptr : al.ptr = kZeroSizeArea
  · have hsize := h.ptr_eq_iff.mp hptr
    have hnone : (min newSize (al.size : Int)).toNat = 0 := by omega
    rcases pool.allocateAligned_cases newSize answer al.ptr with
      ⟨status, hstatus, heq⟩ | ⟨hgiven, heq⟩
    · left
      exact ⟨status, hstatus, by rw [reallocateAligned, if_pos hptr, heq]⟩
    · right
      refine ⟨hgiven, ?_⟩
      rw [reallocateAligned, if_pos hptr, heq, hnone, deallocateAligned, if_pos hptr]
      simp only [read_zero, write_nil]
      congr 1
      rw [← obtain_memory pool (answer.given newSize)]
  by_cases hzero : newSize = 0
  · right
    subst hzero
    have hgiven : answer.given 0 = none := by cases answer <;> rfl
    refine ⟨fun _ => rfl, ?_⟩
    rw [reallocateAligned, if_neg hptr, if_pos rfl, hgiven]
    simp [write_nil, obtain, baseOf]
  · rcases pool.allocateAligned_cases newSize answer al.ptr with
      ⟨status, hstatus, heq⟩ | ⟨hgiven, heq⟩
    · left
      refine ⟨status, hstatus, ?_⟩
      simp [reallocateAligned, hptr, hzero, heq, hstatus]
    · right
      refine ⟨hgiven, ?_⟩
      simp [reallocateAligned, hptr, hzero, heq, Status.success, deallocateAligned]

/-- What `Reallocate` can do. -/
theorem reallocate_cases {al : Allocation} (h : al.Served) (newSize : Int) (answer : Reservation) :
    (∃ status : Status, status.code ≠ .ok ∧
      pool.reallocate debug al.size newSize answer al.ptr = (pool, al.ptr, status)) ∨
    (0 ≤ newSize ∧ (answer.given newSize = none → newSize = 0) ∧ ∃ memory,
      pool.reallocate debug al.size newSize answer al.ptr =
        ({ ({ pool.obtain (answer.given newSize) with memory := memory }).deallocateAligned
          al.ptr with
            memory := if debug ∧ al.size < newSize then
                poison memory (baseOf (answer.given newSize)) al.size (newSize - 1) kReallocPoison
              else memory
            bytesAllocated := pool.bytesAllocated + (newSize - al.size) },
          baseOf (answer.given newSize), .success) ∧
      memory = write pool.memory (baseOf (answer.given newSize)).block
        (baseOf (answer.given newSize)).offset
        (read pool.memory al.ptr.block al.ptr.offset (min newSize al.size).toNat)) := by
  by_cases hneg : newSize < 0
  · left
    exact ⟨.invalid "negative realloc size", by simp [Status.invalid], by simp [reallocate, hneg]⟩
  by_cases hmax : sizeMax ≤ newSize
  · left
    exact ⟨⟨.outOfMemory, "realloc overflows size_t"⟩, by simp, by simp [reallocate, hneg, hmax]⟩
  rcases pool.reallocateAligned_cases h (Int.not_lt.mp hneg) answer with
    ⟨status, hstatus, heq⟩ | ⟨hgiven, heq⟩
  · left
    exact ⟨status, hstatus, by simp [reallocate, hneg, hmax, heq, hstatus]⟩
  · right
    exact ⟨by omega, hgiven, _, by simp [reallocate, hneg, hmax, heq, Status.success], rfl⟩

end RtememzonePool

/-! ## The books of the pool -/

/-- The memzones of a list of allocations. -/
def memzones (live : List Allocation) : List Memzone := live.filterMap Allocation.memzone

theorem memzones_cons (al : Allocation) (live : List Allocation) :
    memzones (al :: live) = al.memzone.toList ++ memzones live := by
  unfold memzones
  cases h : al.memzone with
  | none => simp [h]
  | some z => simp [h]

/-- The tracker and DPDK agree with the list of live allocations. -/
structure Books (pool : RtememzonePool) (live : List Allocation) : Prop where
  served : ∀ al ∈ live, al.Served
  disjoint : (memzones live).Pairwise fun y z => y.span.Disjoint z.span
  reserved_iff : ∀ z, z ∈ pool.reserved ↔ z ∈ memzones live
  tracked_iff : ∀ a z, pool.of a = some z ↔ z ∈ memzones live ∧ z.addr = a
  freed : ∀ z ∈ pool.freed, z.span.Disjoint zeroSizeArea

namespace Books

variable {pool : RtememzonePool} {live : List Allocation}

/-- The contents of the memory and the counter are not part of the books. -/
theorem of_eq (h : Books pool live) {pool' : RtememzonePool}
    (hreserved : pool'.reserved = pool.reserved)
    (hallocated : pool'.allocatedMemzones = pool.allocatedMemzones)
    (hfreed : pool'.freed = pool.freed) : Books pool' live := by
  refine ⟨h.served, h.disjoint, ?_, ?_, ?_⟩
  · rw [hreserved]
    exact h.reserved_iff
  · unfold RtememzonePool.of
    rw [hallocated]
    exact h.tracked_iff
  · rw [hfreed]
    exact h.freed

theorem perm (h : Books pool live) {live' : List Allocation} (hperm : live.Perm live') :
    Books pool live' := by
  have hzones : (memzones live).Perm (memzones live') := hperm.filterMap _
  constructor
  · exact fun al hal => h.served al (hperm.mem_iff.mpr hal)
  · exact (hzones.pairwise_iff fun hd => Span.Disjoint.symm hd).mp h.disjoint
  · exact fun z => (h.reserved_iff z).trans hzones.mem_iff
  · exact fun a z => (h.tracked_iff a z).trans (and_congr_left' hzones.mem_iff)
  · exact h.freed

/-- Every memzone in use has bytes, and none of the zero-size area. -/
theorem memzone (h : Books pool live) {z : Memzone} (hz : z ∈ memzones live) :
    0 < z.len ∧ z.span.Disjoint zeroSizeArea := by
  obtain ⟨al, hal, hmemzone⟩ := List.mem_filterMap.mp hz
  cases h.served al hal with
  | fromZeroArea hnone _ _ => simp [hnone] at hmemzone
  | fromMemzone y hy hsize hlen _ hzero =>
      obtain rfl : y = z := Option.some.inj (hy.symm.trans hmemzone)
      exact ⟨by omega, hzero⟩

/-- The zero-size area is not tracked. -/
theorem of_zeroArea (h : Books pool live) : pool.of kZeroSizeArea = none := by
  cases hz : pool.of kZeroSizeArea with
  | none => rfl
  | some z =>
      obtain ⟨hmem, haddr⟩ := (h.tracked_iff _ z).mp hz
      obtain ⟨hlen, hzero⟩ := h.memzone hmem
      exact absurd haddr (Memzone.addr_ne_zeroArea hlen hzero)

/-- A request that is granted. -/
theorem obtain (h : Books pool live) {size : Int} {answer : Reservation} (hsize : 0 ≤ size)
    (hgiven : answer.given size = none → size = 0) (hfresh : answer.Fresh pool.reserved size) :
    Books (pool.obtain (answer.given size))
      (⟨baseOf (answer.given size), size.toNat, answer.given size⟩ :: live) := by
  cases hz : answer.given size with
  | none =>
      have hserved : Allocation.Served ⟨baseOf none, size.toNat, none⟩ :=
        .fromZeroArea rfl (by simp [hgiven hz]) rfl
      refine ⟨List.forall_mem_cons.mpr ⟨hserved, h.served⟩, ?_, ?_, ?_, h.freed⟩
      all_goals rw [memzones_cons, Option.toList_none, List.nil_append]
      · exact h.disjoint
      · exact h.reserved_iff
      · exact h.tracked_iff
  | some z =>
      obtain ⟨hlen, hzero, hother⟩ := hfresh z hz
      have hne : size ≠ 0 := by
        rintro rfl
        cases answer <;> simp [Reservation.given] at hz
      have hserved : Allocation.Served ⟨baseOf (some z), size.toNat, some z⟩ :=
        .fromMemzone z rfl (by dsimp only; omega) (by dsimp only; omega) rfl hzero
      have hapart : ∀ y ∈ memzones live, z.span.Disjoint y.span := fun y hy =>
        hother y ((h.reserved_iff y).mpr hy)
      have haddr : ∀ y ∈ memzones live, z.addr ≠ y.addr := fun y hy =>
        Memzone.addr_ne (h.memzone hy).1 (by omega) (hapart y hy)
      have hnone : pool.allocatedMemzones z.addr = none := by
        cases hy : pool.allocatedMemzones z.addr with
        | none => rfl
        | some y =>
            obtain ⟨hmem, he⟩ := (h.tracked_iff _ y).mp hy
            exact absurd he.symm (haddr y hmem)
      refine ⟨List.forall_mem_cons.mpr ⟨hserved, h.served⟩, ?_, ?_, ?_, h.freed⟩
      all_goals rw [memzones_cons, Option.toList_some, List.singleton_append]
      · exact List.pairwise_cons.mpr ⟨hapart, h.disjoint⟩
      · intro y
        simp only [RtememzonePool.obtain, RtememzonePool.emplace, Finset.mem_insert, h.reserved_iff,
          List.mem_cons]
      · intro a y
        have htracked := h.tracked_iff a y
        simp only [RtememzonePool.obtain, RtememzonePool.emplace, RtememzonePool.of, if_pos hnone,
          Function.update_apply, List.mem_cons] at htracked ⊢
        split_ifs with ha
        · subst ha
          have := haddr y
          grind
        · grind

/-- The end of an allocation. -/
theorem deallocate {al : Allocation} (h : Books pool (al :: live)) :
    Books (pool.deallocateAligned al.ptr) live ∧
      (pool.deallocateAligned al.ptr).freed = pool.freed ++ al.memzone.toList := by
  have hbytes : ∀ z ∈ memzones (al :: live), 0 < z.len := fun z hz => (h.memzone hz).1
  obtain ⟨hserved, hdisjoint, hreserved, htracked, hfreed⟩ := h
  obtain ⟨hal, hserved⟩ := List.forall_mem_cons.mp hserved
  rw [memzones_cons] at hdisjoint hreserved htracked hbytes
  cases hal with
  | fromZeroArea hnone hsize hptr =>
      rw [hnone, Option.toList_none, List.nil_append] at hdisjoint hreserved htracked
      rw [RtememzonePool.deallocateAligned, if_pos hptr, hnone]
      exact ⟨⟨hserved, hdisjoint, hreserved, htracked, hfreed⟩, by simp⟩
  | fromMemzone z hz hsize hlen hptr hzero =>
      rw [hz, Option.toList_some, List.singleton_append] at hdisjoint hreserved htracked hbytes
      obtain ⟨hapart, hdisjoint⟩ := List.pairwise_cons.mp hdisjoint
      have haddr : ∀ y ∈ memzones live, z.addr ≠ y.addr := fun y hy =>
        Memzone.addr_ne (hbytes y (List.mem_cons_of_mem _ hy)) (hbytes z (by simp)) (hapart y hy)
      have hentry : pool.allocatedMemzones z.addr = some z := (htracked _ z).mpr ⟨by simp, rfl⟩
      have hne : z.addr ≠ kZeroSizeArea := Memzone.addr_ne_zeroArea (by omega) hzero
      rw [RtememzonePool.deallocateAligned, hptr, if_neg hne, RtememzonePool.release, hentry, hz]
      refine ⟨⟨hserved, hdisjoint, ?_, ?_, ?_⟩, by simp⟩
      · intro y
        have := haddr y
        simp only [Finset.mem_erase, hreserved, List.mem_cons]
        grind
      · intro a y
        have := htracked a y
        simp only [RtememzonePool.of, Function.update_apply, List.mem_cons] at this ⊢
        have := haddr y
        split_ifs with ha
        · grind
        · grind
      · exact List.forall_mem_append.mpr ⟨hfreed, by simpa using hzero⟩

end Books

/-! ## Where the pool writes -/

theorem poison_apply_of_avoids (memory : Memory) {ptr : Addr} {first last : Int} {n : Nat}
    (hfirst : 0 ≤ first ∧ first < n) (hlast : 0 ≤ last ∧ last < n) (value : UInt8)
    {b : Block} {i : Nat} (h : Span.Avoids ⟨ptr.block, ptr.offset, n⟩ b i) :
    RtememzonePool.poison memory ptr first last value b i = memory b i := by
  have hout : ∀ k : Int, 0 ≤ k ∧ k < n → b ≠ ptr.block ∨ i < ptr.offset + k.toNat ∨
      ptr.offset + k.toNat + 1 ≤ i := by
    rintro k ⟨hk, hlt⟩
    rcases h with hb | hi
    · exact Or.inl hb
    · right
      dsimp only at hi
      omega
  rw [RtememzonePool.poison, write_apply_of_avoids _ (hout last hlast),
    write_apply_of_avoids _ (hout first hfirst)]

/-- The bytes of an allocation are not those of the zero-size area. -/
theorem Allocation.Served.avoids_zeroArea {al : Allocation} (h : al.Served) {i : Nat} (hi : i < 8) :
    al.region.Avoids zeroSizeArea.block i := by
  cases h with
  | fromZeroArea _ hsize _ =>
      right
      simp only [Allocation.region, hsize]
      omega
  | fromMemzone z _ _ hlen hptr hzero =>
      rcases hzero with hb | hd
      · exact Or.inl (by simpa [Allocation.region, hptr, Memzone.span] using hb.symm)
      · right
        simp only [Memzone.span, zeroSizeArea] at hd
        simp only [Allocation.region, hptr]
        omega

/-- Two live allocations share no byte. -/
theorem Books.avoids {pool : RtememzonePool} {live : List Allocation} {al other : Allocation}
    (h : Books pool (al :: live)) (hother : other ∈ live) {i : Nat} (hi : other.ptr.offset ≤ i)
    (hlt : i < other.ptr.offset + other.size) : al.region.Avoids other.ptr.block i := by
  obtain ⟨hal, hserved⟩ := List.forall_mem_cons.mp h.served
  have hdisjoint := h.disjoint
  rw [memzones_cons] at hdisjoint
  cases hal with
  | fromZeroArea _ hsize _ =>
      right
      simp only [Allocation.region, hsize]
      omega
  | fromMemzone z hz _ hlen hptr _ =>
      cases hserved other hother with
      | fromZeroArea _ hsize _ => omega
      | fromMemzone y hy _ hlen' hptr' _ =>
          rw [hz, Option.toList_some, List.singleton_append] at hdisjoint
          rcases (List.pairwise_cons.mp hdisjoint).1 y (List.mem_filterMap.mpr ⟨other, hother, hy⟩)
            with hb | hd
          · exact Or.inl (by simpa [Allocation.region, hptr, hptr', Memzone.span] using hb.symm)
          · right
            simp only [Memzone.span, ← hptr, ← hptr'] at hd
            simp only [Allocation.region]
            omega

namespace Heap

/-- A call, with the answer of DPDK to the reservation that it may make. -/
inductive Call
  | allocate (size : Int) (out : Addr) (answer : Reservation)
  | reallocate (allocation : Allocation) (newSize : Int) (answer : Reservation)
  | free (allocation : Allocation)

namespace Call

/-- The value of the pointer of the caller before the call. -/
def ptr : Call → Addr
  | .allocate _ out _ => out
  | .reallocate al _ _ => al.ptr
  | .free al => al.ptr

/-- The allocation that the call ends. -/
def ended : Call → Option Allocation
  | .allocate _ _ _ => none
  | .reallocate al _ _ => some al
  | .free al => some al

/-- The allocation that the call begins when it succeeds with a pointer. -/
def begun (out : Addr) : Call → Option Allocation
  | .allocate size _ answer => some ⟨out, size.toNat, answer.given size⟩
  | .reallocate _ newSize answer => some ⟨out, newSize.toNat, answer.given newSize⟩
  | .free _ => none

end Call

/-- The pool, the pointer of the caller and the status after a call. -/
def serve (debug : Bool) (s : Heap) : Call → RtememzonePool × Addr × Status
  | .allocate size out answer => s.pool.allocate debug size answer out
  | .reallocate al newSize answer => s.pool.reallocate debug al.size newSize answer al.ptr
  | .free al => (s.pool.free debug al.ptr al.size, al.ptr, .success)

/-- The live allocations that a call has nothing to do with. -/
def others (s : Heap) (call : Call) : List Allocation :=
  call.ended.elim s.live s.live.erase

/-- One call, with the list of live allocations. -/
def act (debug : Bool) (s : Heap) (call : Call) : Heap :=
  match s.serve debug call with
  | (pool, ptr, status) =>
      if status.code ≠ .ok then { s with pool := pool }
      else { pool := pool, live := (call.begun ptr).toList ++ s.others call }

/-- `Reallocate` and `Free` are given a live allocation, and DPDK reserves what
is free. -/
def Proper (s : Heap) : Call → Prop
  | .allocate size _ answer => answer.Fresh s.pool.reserved size
  | .reallocate al newSize answer => al ∈ s.live ∧ answer.Fresh s.pool.reserved newSize
  | .free al => al ∈ s.live

/-- The layers of the pool are in step with the live allocations. -/
structure InStep (memory : Memory) (s : Heap) : Prop where
  books : Books s.pool s.live
  bytes : s.pool.bytesAllocated = (s.live.map fun al => (al.size : Int)).sum
  untracked : s.pool.of kZeroSizeArea = none
  zeroArea : zeroSizeArea.read s.pool.memory = zeroSizeArea.read memory

/-- What a call does for its caller and to the other allocations. -/
structure Served (debug : Bool) (s : Heap) (call : Call) : Prop where
  failed : (s.serve debug call).2.2.code ≠ .ok →
    s.act debug call = s ∧ (s.serve debug call).2.1 = call.ptr
  freed : (s.serve debug call).2.2.code = .ok →
    (s.act debug call).pool.freed = s.pool.freed ++ (call.ended.bind Allocation.memzone).toList
  kept : ∀ al newSize answer, call = .reallocate al newSize answer →
    (s.serve debug call).2.2.code = .ok →
    read (s.act debug call).pool.memory (s.serve debug call).2.1.block
        (s.serve debug call).2.1.offset (min al.size newSize.toNat) =
      read s.pool.memory al.ptr.block al.ptr.offset (min al.size newSize.toNat)
  others : ∀ al ∈ s.others call,
    al.region.read (s.act debug call).pool.memory = al.region.read s.pool.memory

/-- A call that succeeds, and the allocation that it begins. -/
structure Granted (s : Heap) (call : Call) (s' : Heap) (begun : Option Allocation) : Prop where
  live_eq : s'.live = begun.toList ++ s.others call
  books : Books s'.pool s'.live
  bytes : s'.pool.bytesAllocated = s.pool.bytesAllocated +
    (begun.elim 0 (fun al => (al.size : Int)) - call.ended.elim 0 fun al => (al.size : Int))
  freed : s'.pool.freed = s.pool.freed ++ (call.ended.bind Allocation.memzone).toList
  memory : ∀ b i, (∀ al ∈ begun.toList ++ call.ended.toList, al.region.Avoids b i) →
    s'.pool.memory b i = s.pool.memory b i

variable {s : Heap} {debug : Bool} {call : Call} {pool : RtememzonePool} {ptr : Addr}
  {status : Status}

@[simp] theorem act_pool (s : Heap) (debug : Bool) (call : Call) :
    (s.act debug call).pool = (s.serve debug call).1 := by
  unfold act
  rcases s.serve debug call with ⟨pool, ptr, status⟩
  dsimp only
  split_ifs <;> rfl

theorem act_of_failed (h : s.serve debug call = (pool, ptr, status)) (hstatus : status.code ≠ .ok) :
    s.act debug call = { s with pool := pool } := by
  rw [act, h]
  exact if_pos hstatus

theorem act_of_success (h : s.serve debug call = (pool, ptr, .success)) :
    s.act debug call = ⟨pool, (call.begun ptr).toList ++ s.others call⟩ := by
  rw [act, h]
  exact if_neg (not_not.mpr rfl)

/-- The live allocations with the one that a call is given in front. -/
theorem books_ended (h : Books s.pool s.live) {al : Allocation} (hal : al ∈ s.live) :
    Books s.pool (al :: s.live.erase al) :=
  h.perm (List.perm_cons_erase hal)

theorem allocate_granted (h : Books s.pool s.live) {size : Int} {out : Addr} {answer : Reservation}
    (hproper : s.Proper (.allocate size out answer)) :
    (∃ status : Status, status.code ≠ .ok ∧
      s.serve debug (.allocate size out answer) = (s.pool, out, status)) ∨
    ∃ pool, s.serve debug (.allocate size out answer) =
        (pool, baseOf (answer.given size), .success) ∧
      s.Granted (.allocate size out answer) (s.act debug (.allocate size out answer))
        (some ⟨baseOf (answer.given size), size.toNat, answer.given size⟩) := by
  rcases s.pool.allocate_cases debug size answer out with hfailed | ⟨hsize, hgiven, heq⟩
  · exact Or.inl hfailed
  · right
    refine ⟨_, heq, ?_⟩
    rw [@act_of_success s debug (.allocate size out answer) _ _ heq]
    constructor
    · rfl
    · exact (h.obtain hsize hgiven hproper).of_eq rfl rfl rfl
    · simp [Call.ended, hsize]
    · simp [Call.ended]
    · intro b i havoids
      have hnew : Span.Avoids ⟨_, _, size.toNat⟩ b i :=
        havoids _ (List.mem_append_left _ (List.mem_singleton_self _))
      dsimp only
      split_ifs with hpoison
      · exact poison_apply_of_avoids _ (by omega) (by omega) _ hnew
      · rfl

theorem reallocate_granted (h : Books s.pool s.live) {al : Allocation} {newSize : Int}
    {answer : Reservation} (hproper : s.Proper (.reallocate al newSize answer)) :
    (∃ status : Status, status.code ≠ .ok ∧
      s.serve debug (.reallocate al newSize answer) = (s.pool, al.ptr, status)) ∨
    ∃ pool, s.serve debug (.reallocate al newSize answer) =
        (pool, baseOf (answer.given newSize), .success) ∧
      s.Granted (.reallocate al newSize answer) (s.act debug (.reallocate al newSize answer))
        (some ⟨baseOf (answer.given newSize), newSize.toNat, answer.given newSize⟩) := by
  obtain ⟨hal, hfresh⟩ := hproper
  have hended := books_ended h hal
  rcases s.pool.reallocate_cases debug (h.served al hal) newSize answer with
    hfailed | ⟨hsize, hgiven, memory, heq, hmemory⟩
  · exact Or.inl hfailed
  · right
    refine ⟨_, heq, ?_⟩
    rw [@act_of_success s debug (.reallocate al newSize answer) _ _ heq]
    -- first the new memzone joins the old one, then the old one goes
    have hboth : Books { s.pool.obtain (answer.given newSize) with memory := memory } _ :=
      ((hended.obtain hsize hgiven hfresh).perm (List.Perm.swap _ _ _)).of_eq rfl rfl rfl
    obtain ⟨hbooks, hfreed⟩ := hboth.deallocate
    constructor
    · rfl
    · exact hbooks.of_eq rfl rfl rfl
    · simp [Call.ended, hsize]
    · simpa [Call.ended] using hfreed
    · intro b i havoids
      have hnew : Span.Avoids ⟨_, _, newSize.toNat⟩ b i :=
        havoids _ (List.mem_append_left _ (List.mem_singleton_self _))
      have hcopied : memory b i = s.pool.memory b i := by
        rw [hmemory]
        apply write_apply_of_avoids
        rcases hnew with hb | hi
        · exact Or.inl hb
        · right
          simp only [length_read] at hi ⊢
          omega
      dsimp only
      split_ifs with hpoison
      · rw [poison_apply_of_avoids _ (by omega) (by omega) _ hnew, hcopied]
      · exact hcopied

theorem free_granted (h : Books s.pool s.live) {al : Allocation} (hproper : s.Proper (.free al)) :
    s.Granted (.free al) (s.act debug (.free al)) none := by
  rw [@act_of_success s debug (.free al) _ _ rfl]
  have hpoisoned : ∀ memory, Books { s.pool with memory := memory } (al :: s.live.erase al) :=
    fun memory => (books_ended h hproper).of_eq rfl rfl rfl
  constructor
  · rfl
  · exact (hpoisoned _).deallocate.1.of_eq rfl rfl rfl
  · simp only [RtememzonePool.free, RtememzonePool.deallocateAligned_bytesAllocated, Call.ended,
      Option.elim]
    omega
  · exact (hpoisoned _).deallocate.2
  · intro b i havoids
    have hold := havoids al (by simp [Call.ended])
    simp only [RtememzonePool.free, RtememzonePool.deallocateAligned_memory]
    split_ifs with hpoison
    · exact poison_apply_of_avoids _ (by omega) (by omega) _ hold
    · rfl

section Step

variable {memory : Memory} {s' : Heap} {new : Option Allocation}

/-- The list of live allocations before a call. -/
theorem live_perm (hproper : s.Proper call) : s.live.Perm (call.ended.toList ++ s.others call) := by
  cases call with
  | allocate size out answer => exact List.Perm.refl _
  | reallocate al newSize answer => exact List.perm_cons_erase hproper.1
  | free al => exact List.perm_cons_erase hproper

/-- A location that no allocation which the call begins or ends can cover is left alone. -/
theorem Granted.memory_eq (hg : s.Granted call s' new) (h : Books s.pool s.live)
    (hproper : s.Proper call) {b : Block} {i : Nat}
    (hout : ∀ pool al, Books pool (al :: s.others call) → al.region.Avoids b i) :
    s'.pool.memory b i = s.pool.memory b i := by
  have hbefore := h.perm (live_perm hproper)
  have hafter := hg.books
  rw [hg.live_eq] at hafter
  apply hg.memory
  intro al hal
  rcases List.mem_append.mp hal with hnew | hended
  · rw [Option.mem_toList] at hnew
    rw [hnew, Option.toList_some, List.singleton_append] at hafter
    exact hout _ al hafter
  · rw [Option.mem_toList] at hended
    rw [hended, Option.toList_some, List.singleton_append] at hbefore
    exact hout _ al hbefore

theorem sum_toList (al : Option Allocation) :
    (al.toList.map fun al => (al.size : Int)).sum = al.elim 0 fun al => (al.size : Int) := by
  cases al <;> simp

theorem Granted.inStep (hg : s.Granted call s' new) (h : s.InStep memory)
    (hproper : s.Proper call) : s'.InStep memory := by
  refine ⟨hg.books, ?_, hg.books.of_zeroArea, ?_⟩
  · have hsum := ((live_perm hproper).map fun al => (al.size : Int)).sum_eq
    rw [List.map_append, List.sum_append, sum_toList] at hsum
    rw [hg.bytes, hg.live_eq, h.bytes, List.map_append, List.sum_append, sum_toList, hsum]
    omega
  · rw [← h.zeroArea]
    apply read_congr
    intro i _ hi
    apply hg.memory_eq h.books hproper
    intro pool al hbooks
    exact (hbooks.served al (by simp)).avoids_zeroArea (by simpa [zeroSizeArea] using hi)

theorem Granted.others (hg : s.Granted call s' new) (h : Books s.pool s.live)
    (hproper : s.Proper call) {other : Allocation} (hother : other ∈ s.others call) :
    other.region.read s'.pool.memory = other.region.read s.pool.memory := by
  apply read_congr
  intro i hi hlt
  apply hg.memory_eq h hproper
  intro pool al hbooks
  exact hbooks.avoids hother hi hlt

/-- **Step lemma.**  A call fails and changes nothing, or is granted. -/
theorem call_cases (h : Books s.pool s.live) (debug : Bool) (hproper : s.Proper call) :
    ((s.serve debug call).2.2.code ≠ .ok ∧ s.act debug call = s ∧
      (s.serve debug call).2.1 = call.ptr) ∨
    ((s.serve debug call).2.2.code = .ok ∧
      ∃ new, s.Granted call (s.act debug call) new) := by
  have hfailed : ∀ status : Status, status.code ≠ .ok →
      s.serve debug call = (s.pool, call.ptr, status) →
      (s.serve debug call).2.2.code ≠ .ok ∧ s.act debug call = s ∧
        (s.serve debug call).2.1 = call.ptr := by
    intro status hstatus heq
    rw [act_of_failed heq hstatus, heq]
    exact ⟨hstatus, rfl, rfl⟩
  cases call with
  | allocate size out answer =>
      rcases allocate_granted h hproper with ⟨status, hstatus, heq⟩ | ⟨pool, heq, hg⟩
      · exact Or.inl (hfailed status hstatus heq)
      · exact Or.inr ⟨by rw [heq]; rfl, _, hg⟩
  | reallocate al newSize answer =>
      rcases reallocate_granted h hproper with ⟨status, hstatus, heq⟩ | ⟨pool, heq, hg⟩
      · exact Or.inl (hfailed status hstatus heq)
      · exact Or.inr ⟨by rw [heq]; rfl, _, hg⟩
  | free al => exact Or.inr ⟨rfl, _, free_granted h hproper⟩

theorem act_inStep (h : s.InStep memory) (debug : Bool) (hproper : s.Proper call) :
    (s.act debug call).InStep memory := by
  rcases call_cases h.books debug hproper with ⟨-, heq, -⟩ | ⟨-, new, hg⟩
  · rw [heq]
    exact h
  · exact hg.inStep h hproper

/-- A successful `Reallocate` keeps what both sizes cover: the poison lies behind it. -/
theorem reallocate_kept (h : Books s.pool s.live) {al : Allocation} {newSize : Int}
    {answer : Reservation} (hproper : s.Proper (.reallocate al newSize answer))
    (hok : (s.serve debug (.reallocate al newSize answer)).2.2.code = .ok) :
    let served := s.serve debug (.reallocate al newSize answer)
    read served.1.memory served.2.1.block served.2.1.offset (min al.size newSize.toNat) =
      read s.pool.memory al.ptr.block al.ptr.offset (min al.size newSize.toNat) := by
  rcases s.pool.reallocate_cases debug (h.served al hproper.1) newSize answer with
    ⟨status, hstatus, heq⟩ | ⟨hsize, hgiven, memory, heq, hmemory⟩
  · rw [serve, heq] at hok
    exact absurd hok hstatus
  · have hmin : (min newSize (al.size : Int)).toNat = min al.size newSize.toNat := by omega
    set dst := baseOf (answer.given newSize)
    have hcopied : read memory dst.block dst.offset (min al.size newSize.toNat) =
        read s.pool.memory al.ptr.block al.ptr.offset (min al.size newSize.toNat) := by
      have hself := read_write_self s.pool.memory dst.block dst.offset
        (read s.pool.memory al.ptr.block al.ptr.offset (min newSize al.size).toNat)
      rwa [← hmemory, length_read, hmin] at hself
    rw [serve, heq, ← hcopied]
    dsimp only
    split_ifs with hpoison
    · rw [RtememzonePool.poison, read_write_of_disjoint _ (by right; left; omega),
        read_write_of_disjoint _ (by right; left; omega)]
    · rfl

theorem act_served (h : Books s.pool s.live) (debug : Bool) (hproper : s.Proper call) :
    s.Served debug call := by
  rcases call_cases h debug hproper with ⟨hstatus, heq, hptr⟩ | ⟨hok, new, hg⟩
  · exact ⟨fun _ => ⟨heq, hptr⟩, fun hok => absurd hok hstatus,
      fun al newSize answer _ hok => absurd hok hstatus, fun al _ => by rw [heq]⟩
  · refine ⟨fun hstatus => absurd hok hstatus, fun _ => hg.freed, ?_,
      fun al hal => hg.others h hproper hal⟩
    rintro al newSize answer rfl hok
    rw [act_pool]
    exact reallocate_kept h hproper hok

end Step

/-- Before the first call. -/
def start (memory : Memory) : Heap := ⟨{ memory := memory }, []⟩

theorem start_inStep (memory : Memory) : (start memory).InStep memory :=
  ⟨⟨by simp [start], by simp [start, memzones], by simp [start, memzones],
    by simp [start, memzones, RtememzonePool.of], by simp [start]⟩, rfl, rfl, rfl⟩

/-- **The pool as a heap.**  In every run of calls that are given live
allocations, whatever reservations fail, the tracker maps the addresses of the
live memzones to them, the counter is the sum of the live sizes, and every call
serves its caller and leaves the other allocations and the zero-size area alone. -/
theorem memory_pool (debug : Bool) (memory : Memory) (calls : List Call)
    (hproper : Runs.Along (act debug) Proper (start memory) calls) :
    (Runs.run (act debug) (start memory) calls).InStep memory ∧
      Runs.Along (act debug) (Served debug) (start memory) calls := by
  have preserved : ∀ (s : Heap) (call : Call), s.InStep memory → s.Proper call →
      (s.act debug call).InStep memory := fun s call h hproper => act_inStep h debug hproper
  constructor
  · exact hproper.invariant preserved (start_inStep memory)
  · exact hproper.of_invariant preserved (fun s call h hproper => act_served h.books debug hproper)
      (start_inStep memory)

instance Proper.decidable (s : Heap) : ∀ call : Call, Decidable (s.Proper call)
  | .allocate size _ answer => inferInstanceAs (Decidable (answer.Fresh s.pool.reserved size))
  | .reallocate al newSize answer =>
      inferInstanceAs (Decidable (al ∈ s.live ∧ answer.Fresh s.pool.reserved newSize))
  | .free al => inferInstanceAs (Decidable (al ∈ s.live))

/-- An allocation of 10 bytes moves to a larger memzone, after a failed attempt. -/
def sampleCalls : List Call :=
  [.allocate 0 kZeroSizeArea (.failure 12 "Cannot allocate memory"),
    .allocate 10 kZeroSizeArea (.memzone ⟨⟨.memzone 0, 0⟩, 64⟩),
    .reallocate ⟨⟨.memzone 0, 0⟩, 10, some ⟨⟨.memzone 0, 0⟩, 64⟩⟩ 100
      (.failure 12 "Cannot allocate memory"),
    .reallocate ⟨⟨.memzone 0, 0⟩, 10, some ⟨⟨.memzone 0, 0⟩, 64⟩⟩ 100
      (.memzone ⟨⟨.memzone 0, 64⟩, 128⟩),
    .free ⟨kZeroSizeArea, 0, none⟩]

theorem memory_pool_sample :
    (Runs.run (act true) (start fun _ _ => 0) sampleCalls).pool.bytesAllocated = 100 ∧
    (Runs.run (act true) (start fun _ _ => 0) sampleCalls).InStep (fun _ _ => 0) :=
  ⟨by decide +kernel, (memory_pool true (fun _ _ => 0) sampleCalls (by decide +kernel)).1⟩

end Heap

/-! ## What a device sees -/

namespace MemzonePool

/-- The entry of an address, as the tracker has it. -/
def entry (view : MemzonePool) (addr : Addr) : Option Memzone :=
  (view.of addr).map fun z => ⟨memzoneAddr z, memzoneLen (view.size z)⟩

theorem entry_memzoneAddr (view : MemzonePool) (z : Nat) :
    view.entry (memzoneAddr z) =
      if z ∈ view.allocated then some ⟨memzoneAddr z, memzoneLen (view.size z)⟩ else none := by
  unfold entry of memzoneAddr
  split_ifs with h <;> simp [h]

/-- The entries at two pools agree where the same memzones are allocated. -/
theorem entry_congr {view view' : MemzonePool} {addr : Addr}
    (h : ∀ z, addr = memzoneAddr z →
      (z ∈ view.allocated ↔ z ∈ view'.allocated) ∧ view.size z = view'.size z) :
    view.entry addr = view'.entry addr := by
  obtain ⟨block, offset⟩ := addr
  cases block with
  | host id => rfl
  | memzone z =>
      by_cases hoffset : offset = 0
      · subst hoffset
        obtain ⟨hmem, hsize⟩ := h z rfl
        have h1 := view.entry_memzoneAddr z
        have h2 := view'.entry_memzoneAddr z
        rw [memzoneAddr] at h1 h2
        rw [h1, h2, hsize]
        simp only [hmem]
      · simp [entry, of, hoffset]

end MemzonePool

/-- The pool of the device model is the tracker and the counter of this pool. -/
structure Views (pool : RtememzonePool) (view : MemzonePool) : Prop where
  of_eq : ∀ addr, pool.of addr = view.entry addr
  bytes : pool.bytesAllocated = view.bytesAllocated

namespace Views

variable {pool : RtememzonePool} {view : MemzonePool}

/-- `Allocate` and `Of` are `AllocateOne` of the device model. -/
theorem allocate (h : Views pool view) (debug : Bool) {size z : Nat} (out : Addr) (hpos : 0 < size)
    (hsize : (size : Int) < sizeMax) (hz : z ∉ view.allocated) :
    let served := pool.allocate debug size (.memzone ⟨memzoneAddr z, memzoneLen size⟩) out
    served.2 = (memzoneAddr z, .success) ∧
      ∃ view', view.allocateOne size (some z) = some (z, view') ∧ Views served.1 view' := by
  have hne : size ≠ 0 := by omega
  have hmax : ¬ sizeMax ≤ (size : Int) := by omega
  have hnone : pool.allocatedMemzones (memzoneAddr z) = none := by
    have := h.of_eq (memzoneAddr z)
    rwa [MemzonePool.entry_memzoneAddr, if_neg hz] at this
  have hcode : Status.success.code = .ok := rfl
  simp only [RtememzonePool.allocate, RtememzonePool.allocateAligned, Int.natCast_eq_zero,
    hne, hmax,
    if_false, hcode, ne_eq, not_true_eq_false, RtememzonePool.emplace, if_pos hnone,
    show ¬ (size : Int) < 0 by omega]
  refine ⟨trivial, _, by rw [MemzonePool.allocateOne, if_neg hz], ?_, ?_⟩
  · intro addr
    simp only [RtememzonePool.of, Function.update_apply]
    split_ifs with haddr
    · rw [haddr, MemzonePool.entry_memzoneAddr]
      simp
    · refine (h.of_eq addr).trans (MemzonePool.entry_congr fun y hy => ?_)
      have hyz : y ≠ z := fun e => haddr (by rw [hy, e])
      simp [hyz]
  · rw [h.bytes]

/-- `Free` is that of the device model. -/
theorem free (h : Views pool view) (debug : Bool) (z size : Nat) :
    Views (pool.free debug (memzoneAddr z) size) (view.free z size) := by
  have hne : memzoneAddr z ≠ kZeroSizeArea := by simp [memzoneAddr, kZeroSizeArea]
  constructor
  · intro addr
    have hother : addr ≠ memzoneAddr z → pool.of addr = (view.free z size).entry addr := by
      intro haddr
      refine (h.of_eq addr).trans (MemzonePool.entry_congr fun y hy => ?_)
      have hyz : y ≠ z := fun e => haddr (by rw [hy, e])
      simp [MemzonePool.free, hyz]
    have hself : (view.free z size).entry (memzoneAddr z) = none := by
      rw [MemzonePool.entry_memzoneAddr, MemzonePool.free]
      simp
    simp only [RtememzonePool.free, RtememzonePool.deallocateAligned, if_neg hne,
      RtememzonePool.release, RtememzonePool.of] at hother ⊢
    by_cases haddr : addr = memzoneAddr z
    · rw [haddr, hself]
      split
      · assumption
      · exact Function.update_self _ _ _
    · rw [← hother haddr]
      split
      · rfl
      · exact Function.update_of_ne haddr _ _
  · simp [RtememzonePool.free, MemzonePool.free, h.bytes]

end Views

end Bitar
