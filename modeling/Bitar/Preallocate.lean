import Bitar.QueuePairMemory

/-!
# Setting up the memory of a queue pair

The sizes of the pools and arrays follow from `burst_size` and `max_sgl_segs`.
They are computed with 32 bits; `wrap` is what becomes of a result, so that the
same definitions give the sizes over the integers.

`Preallocate` acquires one resource after another and stops at the first that it
does not get.  What it has acquired by then stays.

**Results.**
* `burstSize_le_numOpsInPool`: a burst always fits behind the first one in the
  array `operations_`.
* `preallocate_success`: `Preallocate` returns OK only with all resources.
-/

namespace Bitar

def kCacheSizeAmplifier : Nat := 2

def kMaxInflightMbufs : Nat := kMaxInflightOps * 16

/-- `RTE_MEMPOOL_CACHE_MAX_SIZE` of the DPDK build configuration. -/
def mempoolCacheMaxSize : Nat := 512

/-- A value stored in 32 bits. -/
def toUInt32 (n : Nat) : Nat := n % 4294967296

namespace Configuration

section Sizes

variable (wrap : Nat → Nat) (cfg : Configuration)

/-- A burst contains src mbufs and dst mbufs. -/
def numMbufsInBurst : Nat :=
  wrap (cfg.burstSize.toNat * cfg.maxSglSegs.toNat * 2)

def mbufPoolCacheSize : Nat :=
  min (wrap (cfg.numMbufsInBurst wrap * kCacheSizeAmplifier)) mempoolCacheMaxSize

def numInflightMbufs : Nat :=
  min (wrap (cfg.numMbufsInBurst wrap * kMaxInflightOps)) kMaxInflightMbufs

def numMbufsInPool : Nat :=
  wrap (cfg.numInflightMbufs wrap + cfg.mbufPoolCacheSize wrap + cfg.numMbufsInBurst wrap)

def operationPoolCacheSize : Nat :=
  min (cfg.burstSize.toNat * kCacheSizeAmplifier) mempoolCacheMaxSize

/-- Round up division of `numMbufsInPool / 2` by `maxSglSegs`. -/
def numOpsInPool : Nat :=
  wrap (cfg.numMbufsInPool wrap / 2 + cfg.maxSglSegs.toNat - 1) / cfg.maxSglSegs.toNat

/-- The entries of the array `operations_`. -/
def numOperations : Nat :=
  cfg.burstSize.toNat + cfg.numOpsInPool wrap

end Sizes

/-- The entries used for dequeueing fit behind those used for enqueueing. -/
theorem burstSize_le_numOpsInPool {cfg : Configuration} (hm : 0 < cfg.maxSglSegs.toNat) :
    cfg.burstSize.toNat ≤ cfg.numOpsInPool id := by
  have hpool : cfg.burstSize.toNat * cfg.maxSglSegs.toNat ≤ cfg.numMbufsInPool id / 2 := by
    have : cfg.numMbufsInBurst id ≤ cfg.numMbufsInPool id := Nat.le_add_left _ _
    simp only [numMbufsInBurst, id] at this
    omega
  rw [numOpsInPool, Nat.le_div_iff_mul_le hm]
  simp only [id]
  omega

end Configuration

/-! ## `Preallocate` -/

/-- Why DPDK did not create a pool: `rte_errno` and its text. -/
abbrev RteError := Nat × String

/-- What the environment answers to the requests of `Preallocate`. -/
structure PreallocateAnswer where
  socketId : Int := 0
  mbufPool : Option RteError := none
  operationPool : Option RteError := none
  /-- Which of the four arrays and objects are allocated. -/
  operations : Bool := true
  mbufs : Bool := true
  sharedInfoDecompressedMbuf : Bool := true
  sharedInfoCompressedMbuf : Bool := true
  /-- The results of `rte_compressdev_private_xform_create`. -/
  privateXformCompress : Int := 0
  privateXformDecompress : Int := 0

/-- `Preallocate` has acquired everything for the configuration. -/
def Resources.full (cfg : Configuration) : Resources where
  mbufPool := some (cfg.numMbufsInPool toUInt32, cfg.mbufPoolCacheSize toUInt32)
  operationPool := some (cfg.numOpsInPool toUInt32, cfg.operationPoolCacheSize)
  operations := some (cfg.numOperations toUInt32)
  mbufs := some (cfg.numMbufsInBurst toUInt32)
  sharedInfoDecompressedMbuf := true
  sharedInfoCompressedMbuf := true
  privateXformCompress := true
  privateXformDecompress := true

/-- The steps of `QueuePairMemory::Preallocate`: the error if the step fails,
and the resources once it has succeeded. -/
def preallocateSteps (deviceId queuePairId : Nat) (cfg : Configuration)
    (answer : PreallocateAnswer) : List (Option String × (Resources → Resources)) :=
  [(if answer.socketId < 0 then some s!"Unable to detect compress device {deviceId}" else none, id),
    (answer.mbufPool.map fun e => s!"Unable to allocate mbuf pool: mbuf_pool_dev_{deviceId}_qp_{queuePairId}. [Error {e.1}: {e.2}]",
      fun r => { r with mbufPool := (Resources.full cfg).mbufPool }),
    (answer.operationPool.map fun e => s!"Unable to allocate operation pool: op_pool_dev_{deviceId}_qp_{queuePairId}. [Error {e.1}: {e.2}]",
      fun r => { r with operationPool := (Resources.full cfg).operationPool }),
    (if answer.operations then none
      else some "Unable to allocate memory for holding pointers to compression operations",
      fun r => { r with operations := (Resources.full cfg).operations }),
    (if answer.mbufs then none
      else some "Unable to allocate memory for holding pointers to mbufs",
      fun r => { r with mbufs := (Resources.full cfg).mbufs }),
    (if answer.sharedInfoDecompressedMbuf then none
      else some "Unable to allocate memory for the shared_info used by decompressed mbufs",
      fun r => { r with sharedInfoDecompressedMbuf := true }),
    (if answer.sharedInfoCompressedMbuf then none
      else some "Unable to allocate memory for the shared_info used by compressed mbufs",
      fun r => { r with sharedInfoCompressedMbuf := true }),
    (if answer.privateXformCompress < 0 then some s!"Private xform could not be created for compression operations. [Error code: {answer.privateXformCompress}]"
      else none,
      fun r => { r with privateXformCompress := true }),
    (if answer.privateXformDecompress < 0 then some s!"Private xform could not be created for decompression operations. [Error code: {answer.privateXformDecompress}]"
      else none,
      fun r => { r with privateXformDecompress := true })]

/-- Acquire one resource after another, up to the first failure. -/
def acquire : List (Option String × (Resources → Resources)) → Resources → Resources × Status
  | [], resources => (resources, .success)
  | (none, set) :: steps, resources => acquire steps (set resources)
  | (some message, _) :: _, resources => (resources, .invalid message)

/-- `QueuePairMemory::Preallocate`.  A new pool has all its objects. -/
def QueuePairMemory.preallocate (qp : QueuePairMemory) (deviceId queuePairId : Nat)
    (cfg : Configuration) (answer : PreallocateAnswer) : QueuePairMemory × Status :=
  let acquired := acquire (preallocateSteps deviceId queuePairId cfg answer) qp.resources
  ({ qp with
      resources := acquired.1
      mbufPool := Finset.range (acquired.1.mbufPool.elim 0 Prod.fst)
      operationPool := Finset.range (acquired.1.operationPool.elim 0 Prod.fst) }, acquired.2)

theorem acquire_success {steps : List (Option String × (Resources → Resources))}
    {resources : Resources} :
    (acquire steps resources).2 = .success →
      (acquire steps resources).1 = steps.foldl (fun r step => step.2 r) resources := by
  induction steps generalizing resources with
  | nil => exact fun _ => rfl
  | cons step steps ih =>
      obtain ⟨message, set⟩ := step
      cases message with
      | none => exact ih
      | some message =>
          intro h
          simp [acquire, Status.invalid, Status.success] at h

/-- `Preallocate` returns OK only with all resources. -/
theorem QueuePairMemory.preallocate_success {qp qp' : QueuePairMemory} {deviceId queuePairId : Nat}
    {cfg : Configuration} {answer : PreallocateAnswer}
    (h : qp.preallocate deviceId queuePairId cfg answer = (qp', .success)) :
    qp'.resources = Resources.full cfg := by
  have hstatus := congrArg Prod.snd h
  have hqp := congrArg (fun p => p.1.resources) h
  exact hqp.symm.trans (acquire_success hstatus)

end Bitar
