import Bitar.MemoryPool

/-!
# The template of the memory pools, and the `Rtemalloc` pool

`BaseMemoryPoolImpl` is a template over its allocator.  `PoolImpl` is what it
uses of the allocator and of itself; `RtememzonePool` is one instance and
`RtemallocPool`, which leaves everything to the heap of DPDK, the other one.
The alignment only reaches DPDK, whose answers are arbitrary.

The two allocators treat their output parameter in different ways: that of
`Rtemalloc` writes the null pointer to it when an allocation fails.

**Results.**
* `PoolImpl.reallocate_atomic_iff`: the template adds no failure that changes
  anything.
* `failed_reallocate_atomic`: when a failed `Reallocate` changes nothing.
-/

namespace Bitar

open BlockStore

/-! ## `BaseMemoryPoolImpl` -/

/-- An instance of the template, with the answers of DPDK to the call. -/
structure PoolImpl (σ π : Type) where
  allocateAligned : Int → σ → π → σ × π × Status
  reallocateAligned : Int → Int → σ → π → σ × π × Status
  deallocateAligned : Int → σ → π → σ
  poison : π → Int → Int → UInt8 → σ → σ
  updateAllocatedBytes : Int → σ → σ

namespace PoolImpl

variable {σ π : Type} (impl : PoolImpl σ π) (debug : Bool)

/-- `BaseMemoryPoolImpl::Allocate`. -/
def allocate (size : Int) (pool : σ) (out : π) : σ × π × Status :=
  if size < 0 then (pool, out, .invalid "negative malloc size")
  else if sizeMax ≤ size then (pool, out, ⟨.outOfMemory, "malloc size overflows size_t"⟩)
  else
    match impl.allocateAligned size pool out with
    | (pool, out, status) =>
        if status.code ≠ .ok then (pool, out, status)
        else
          (impl.updateAllocatedBytes size
            (if debug ∧ 0 < size then impl.poison out 0 (size - 1) kAllocPoison pool else pool),
            out, .success)

/-- `BaseMemoryPoolImpl::Reallocate`. -/
def reallocate (oldSize newSize : Int) (pool : σ) (ptr : π) : σ × π × Status :=
  if newSize < 0 then (pool, ptr, .invalid "negative realloc size")
  else if sizeMax ≤ newSize then (pool, ptr, ⟨.outOfMemory, "realloc overflows size_t"⟩)
  else
    match impl.reallocateAligned oldSize newSize pool ptr with
    | (pool, ptr, status) =>
        if status.code ≠ .ok then (pool, ptr, status)
        else
          (impl.updateAllocatedBytes (newSize - oldSize)
            (if debug ∧ oldSize < newSize then
              impl.poison ptr oldSize (newSize - 1) kReallocPoison pool else pool),
            ptr, .success)

/-- `BaseMemoryPoolImpl::Free`. -/
def free (pool : σ) (ptr : π) (size : Int) : σ :=
  impl.updateAllocatedBytes (-size) (impl.deallocateAligned size
    (if debug ∧ 0 < size then impl.poison ptr 0 (size - 1) kDeallocPoison pool else pool) ptr)

/-- A call that returns an error has changed neither the pool nor the pointer. -/
def Atomic (pool : σ) (ptr : π) (result : σ × π × Status) : Prop :=
  result.2.2.code ≠ .ok → result.1 = pool ∧ result.2.1 = ptr

variable {impl debug}

/-- Past the size checks, `Reallocate` fails as its allocator does. -/
theorem reallocate_atomic_iff {oldSize newSize : Int} {pool : σ} {ptr : π} :
    Atomic pool ptr (impl.reallocate debug oldSize newSize pool ptr) ↔
      (0 ≤ newSize → newSize < sizeMax →
        Atomic pool ptr (impl.reallocateAligned oldSize newSize pool ptr)) := by
  by_cases hneg : newSize < 0
  · rw [reallocate, if_pos hneg]
    exact iff_of_true (fun _ => ⟨rfl, rfl⟩) fun h => absurd h (by omega)
  by_cases hmax : sizeMax ≤ newSize
  · rw [reallocate, if_neg hneg, if_pos hmax]
    exact iff_of_true (fun _ => ⟨rfl, rfl⟩) fun _ h => absurd h (by omega)
  rw [reallocate, if_neg hneg, if_neg hmax, forall_prop_of_true (Int.not_lt.mp hneg),
    forall_prop_of_true (Int.not_le.mp hmax)]
  rcases impl.reallocateAligned oldSize newSize pool ptr with ⟨pool', ptr', status⟩
  by_cases hstatus : status.code ≠ .ok
  · simp only [Atomic, if_pos hstatus]
  · simp only [Atomic, if_neg hstatus]
    exact iff_of_true (fun h => absurd rfl h) fun h => absurd h hstatus

end PoolImpl

/-! ## The `Rtememzone` instance -/

namespace RtememzonePool

/-- `BaseMemoryPoolImpl<RtememzoneAllocator>`. -/
def impl (answer : Reservation) : PoolImpl RtememzonePool Addr where
  allocateAligned size pool out := pool.allocateAligned size answer out
  reallocateAligned oldSize newSize pool ptr := pool.reallocateAligned oldSize newSize answer ptr
  deallocateAligned _ pool ptr := pool.deallocateAligned ptr
  poison ptr first last value pool :=
    { pool with memory := poison pool.memory ptr first last value }
  updateAllocatedBytes diff pool := { pool with bytesAllocated := pool.bytesAllocated + diff }

variable (pool : RtememzonePool) (debug : Bool) (answer : Reservation)

theorem allocate_eq_impl (size : Int) (out : Addr) :
    pool.allocate debug size answer out = (impl answer).allocate debug size pool out := by
  by_cases hpoison : debug = true ∧ 0 < size
  · simp only [allocate, PoolImpl.allocate, impl, if_pos hpoison]
  · simp only [allocate, PoolImpl.allocate, impl, if_neg hpoison]

theorem reallocate_eq_impl (oldSize newSize : Int) (ptr : Addr) :
    pool.reallocate debug oldSize newSize answer ptr =
      (impl answer).reallocate debug oldSize newSize pool ptr := by
  by_cases hpoison : debug = true ∧ oldSize < newSize
  · simp only [reallocate, PoolImpl.reallocate, impl, if_pos hpoison]
  · simp only [reallocate, PoolImpl.reallocate, impl, if_neg hpoison]

theorem free_eq_impl (ptr : Addr) (size : Int) :
    pool.free debug ptr size = (impl answer).free debug pool ptr size := by
  by_cases hpoison : debug = true ∧ 0 < size
  · simp only [free, PoolImpl.free, impl, if_pos hpoison, Int.sub_eq_add_neg]
  · simp only [free, PoolImpl.free, impl, if_neg hpoison, Int.sub_eq_add_neg]

end RtememzonePool

/-! ## The `Rtemalloc` instance -/

/-- The pool, with the blocks that the heap of DPDK has handed out. -/
structure RtemallocPool where
  memory : Memory
  blocks : List (Span Block) := []
  bytesAllocated : Int := 0

/-- The pointer to a block. -/
def baseAddr (b : Span Block) : Addr := ⟨b.block, b.offset⟩

namespace RtemallocPool

variable (pool : RtemallocPool)

/-- `rte_malloc`. -/
def rteMalloc (answer : Option (Span Block)) : RtemallocPool × Option Addr :=
  match answer with
  | none => (pool, none)
  | some b => ({ pool with blocks := b :: pool.blocks }, some (baseAddr b))

/-- `rte_free`. -/
def rteFree (ptr : Option Addr) : RtemallocPool :=
  { pool with blocks := pool.blocks.filter fun b => some (baseAddr b) ≠ ptr }

/-- `rte_realloc`: the block stays or moves, with its contents, or nothing
happens.  Without a block it is `rte_malloc`. -/
def rteRealloc (newSize : Int) (answer : Option (Span Block)) (ptr : Option Addr) :
    RtemallocPool × Option Addr :=
  match ptr, answer with
  | none, _ => pool.rteMalloc answer
  | some _, none => (pool, none)
  | some p, some b =>
      let oldLength := (pool.blocks.find? fun c => baseAddr c = p).elim 0 Span.length
      let kept := read pool.memory p.block p.offset (min oldLength newSize.toNat)
      (({ pool.rteFree ptr with memory := write pool.memory b.block b.offset kept }).rteMalloc
        (some b))

/-- `RtemallocAllocator::AllocateAligned`. -/
def allocateAligned (size : Int) (answer : Option (Span Block)) :
    RtemallocPool × Option Addr × Status :=
  if size = 0 then (pool, some kZeroSizeArea, .success)
  else
    match pool.rteMalloc answer with
    | (pool, none) => (pool, none, ⟨.outOfMemory, s!"malloc of size {size} failed"⟩)
    | (pool, out) => (pool, out, .success)

/-- `RtemallocAllocator::DeallocateAligned`. -/
def deallocateAligned (ptr : Option Addr) : RtemallocPool :=
  if ptr = some kZeroSizeArea then pool else pool.rteFree ptr

/-- `RtemallocAllocator::ReallocateAligned`. -/
def reallocateAligned (newSize : Int) (answer : Option (Span Block)) (ptr : Option Addr) :
    RtemallocPool × Option Addr × Status :=
  let previousPtr := ptr
  if previousPtr = some kZeroSizeArea then pool.allocateAligned newSize answer
  else if newSize = 0 then (pool.deallocateAligned previousPtr, some kZeroSizeArea, .success)
  else
    match pool.rteRealloc newSize answer ptr with
    | (pool, none) =>
        (pool, previousPtr, ⟨.outOfMemory, s!"realloc of size {newSize} failed"⟩)
    | (pool, ptr) => (pool, ptr, .success)

/-- `ptr[first] = value` and `ptr[last] = value`. -/
def poison (ptr : Option Addr) (first last : Int) (value : UInt8) : RtemallocPool :=
  match ptr with
  | none => pool
  | some p => { pool with memory := RtememzonePool.poison pool.memory p first last value }

/-- `BaseMemoryPoolImpl<RtemallocAllocator>`. -/
def impl (answer : Option (Span Block)) : PoolImpl RtemallocPool (Option Addr) where
  allocateAligned size pool _ := pool.allocateAligned size answer
  reallocateAligned _ newSize pool ptr := pool.reallocateAligned newSize answer ptr
  deallocateAligned _ pool ptr := pool.deallocateAligned ptr
  poison ptr first last value pool := pool.poison ptr first last value
  updateAllocatedBytes diff pool := { pool with bytesAllocated := pool.bytesAllocated + diff }

/-- `size` bytes from `ptr` on are a live allocation: a block of their own, or
the zero-size area. -/
inductive Holds (ptr : Addr) (size : Nat) : Prop
  | fromZeroArea (hsize : size = 0) (hptr : ptr = kZeroSizeArea)
  | fromBlock (b : Span Block) (hmem : b ∈ pool.blocks) (hsize : 0 < size)
      (hlen : size ≤ b.length) (hptr : ptr = baseAddr b) (hzero : b.Disjoint zeroSizeArea)

variable {pool}

theorem baseAddr_ne_zeroArea {b : Span Block} (hlen : 0 < b.length)
    (h : b.Disjoint zeroSizeArea) : baseAddr b ≠ kZeroSizeArea := by
  intro e
  obtain ⟨hblock, hoffset⟩ := Addr.mk.inj e
  rcases h with h | h
  · exact h hblock
  · simp only [hoffset, zeroSizeArea] at h
    omega

/-- The comparison with `kZeroSizeArea` tells whether the size is zero. -/
theorem Holds.ptr_eq_iff {ptr : Addr} {size : Nat} (h : pool.Holds ptr size) :
    ptr = kZeroSizeArea ↔ size = 0 := by
  cases h with
  | fromZeroArea hsize hptr => exact iff_of_true hptr hsize
  | fromBlock b hmem hsize hlen hptr hzero =>
      refine iff_of_false ?_ (by omega)
      rw [hptr]
      exact baseAddr_ne_zeroArea (by omega) hzero

/-- From a block on, the pointer is put back when `rte_realloc` fails. -/
theorem reallocateAligned_atomic {ptr : Addr} (hptr : ptr ≠ kZeroSizeArea) (newSize : Int)
    (answer : Option (Span Block)) :
    PoolImpl.Atomic pool (some ptr) (pool.reallocateAligned newSize answer (some ptr)) := by
  have hne : some ptr ≠ some kZeroSizeArea := fun h => hptr (Option.some.inj h)
  rw [reallocateAligned, if_neg hne]
  by_cases hzero : newSize = 0
  · rw [if_pos hzero]
    exact fun h => absurd rfl h
  · rw [if_neg hzero]
    cases answer with
    | none => exact fun _ => ⟨rfl, rfl⟩
    | some b => exact fun h => absurd rfl h

/-- From the zero-size area on, a failed allocation leaves the null pointer. -/
theorem reallocateAligned_zeroArea (newSize : Int) :
    (∀ answer, PoolImpl.Atomic pool (some kZeroSizeArea)
      (pool.reallocateAligned newSize answer (some kZeroSizeArea))) ↔ newSize = 0 := by
  constructor
  · intro h
    by_contra hne
    have hnone := h none
    rw [reallocateAligned, if_pos rfl, allocateAligned, if_neg hne] at hnone
    obtain ⟨-, hptr⟩ := hnone (by simp [rteMalloc])
    cases hptr
  · rintro rfl answer h
    rw [reallocateAligned, if_pos rfl, allocateAligned, if_pos rfl] at h
    exact absurd rfl h

end RtemallocPool

/-! ## Failed calls -/

/-- **A failed `Reallocate`** changes nothing in the `Rtememzone` pool, and
nothing in the `Rtemalloc` pool either, unless it would have grown an allocation
of size zero. -/
theorem failed_reallocate_atomic {memory : Memory} {s : Heap} {al : Allocation}
    (hs : s.InStep memory) (hal : al ∈ s.live) {pool : RtemallocPool} {ptr : Addr} {size : Nat}
    (hptr : pool.Holds ptr size) (newSize : Int) :
    (∀ debug answer, PoolImpl.Atomic s.pool al.ptr
      (s.pool.reallocate debug al.size newSize answer al.ptr)) ∧
    ((∀ debug answer, PoolImpl.Atomic pool (some ptr)
        ((RtemallocPool.impl answer).reallocate debug size newSize pool (some ptr))) ↔
      ¬ (size = 0 ∧ 0 < newSize ∧ newSize < sizeMax)) := by
  constructor
  · intro debug answer hstatus
    rcases s.pool.reallocate_cases debug (hs.books.served al hal) newSize answer with
      ⟨status, -, heq⟩ | ⟨-, -, memory', heq, -⟩
    · rw [heq]
      exact ⟨rfl, rfl⟩
    · rw [heq] at hstatus
      exact absurd rfl hstatus
  · simp only [PoolImpl.reallocate_atomic_iff]
    by_cases hzero : size = 0
    · obtain rfl := hptr.ptr_eq_iff.mpr hzero
      have hiff := pool.reallocateAligned_zeroArea newSize
      constructor
      · rintro h ⟨-, hpos, hmax⟩
        have := hiff.mp fun answer => h false answer (by omega) hmax
        omega
      · intro h debug answer hnonneg hmax
        refine hiff.mpr ?_ answer
        by_contra hne
        exact h ⟨hzero, by omega, hmax⟩
    · refine iff_of_true (fun debug answer _ _ => ?_) fun h => hzero h.1
      exact RtemallocPool.reallocateAligned_atomic (mt hptr.ptr_eq_iff.mp hzero) newSize answer

/-- A pool with one block of 64 bytes. -/
def samplePool : RtemallocPool where
  memory _ _ := 0
  blocks := [⟨.host 1, 0, 64⟩]
  bytesAllocated := 10

theorem failed_reallocate_sample :
    PoolImpl.Atomic samplePool (some ⟨.host 1, 0⟩)
      ((RtemallocPool.impl none).reallocate true 10 100 samplePool (some ⟨.host 1, 0⟩)) := by
  have hs : ((Heap.start fun _ _ => 0).act true
      (.allocate 10 kZeroSizeArea (.memzone ⟨⟨.memzone 0, 0⟩, 64⟩))).InStep fun _ _ => 0 :=
    Heap.act_inStep (Heap.start_inStep _) true (by decide)
  have hptr : samplePool.Holds ⟨.host 1, 0⟩ 10 :=
    .fromBlock ⟨.host 1, 0, 64⟩ List.mem_cons_self (by decide) (by decide) rfl
      (Or.inl (by decide))
  exact (failed_reallocate_atomic hs List.mem_cons_self hptr 100).2.mpr (by decide) true none

/-- Growing an allocation of size zero fails, and the pointer is null. -/
theorem failed_reallocate_null :
    samplePool.Holds kZeroSizeArea 0 ∧
      ((RtemallocPool.impl none).reallocate false 0 8 samplePool (some kZeroSizeArea)).2 =
        (none, ⟨.outOfMemory, "malloc of size 8 failed"⟩) :=
  ⟨.fromZeroArea rfl rfl, by decide⟩

end Bitar
