import Bitar.Preallocate
import Bitar.Device

/-!
# The arithmetic of the sizes

`burst_size`, `max_sgl_segs` and `decompressed_seg_size` have 16 bits each;
their products are formed in `int`, and those for the pools go on in 32 bits
without sign.  `ValidateConfiguration` does not bound the first two.

DPDK creates a pool only if its cache is small enough: at most
`RTE_MEMPOOL_CACHE_MAX_SIZE`, and with the flush threshold, half as much again,
within the pool.

**Results.**
* `exactSizes_iff`: which configurations are computed with exactly.
* `preallocatable_iff`: for which of them DPDK can create the two pools.
-/

namespace Bitar

open Pieces

/-! ## Signed arithmetic -/

/-- A value computed as `int`, as the machine leaves it when it overflows. -/
def toInt32 (n : Int) : Int :=
  n.bmod 4294967296

theorem toInt32_of_lt {n : Int} (hlow : -2147483648 ≤ n) (hhigh : n < 2147483648) :
    toInt32 n = n := by
  rw [toInt32, Int.bmod_def]
  split_ifs <;> omega

theorem toInt32_natCast {n : Nat} (h : n < 2147483648) : toInt32 n = n :=
  toInt32_of_lt (by omega) (by omega)

theorem toInt32_lt (n : Int) : toInt32 n < 2147483648 := by
  rw [toInt32, Int.bmod_def]
  split_ifs <;> omega

theorem toInt32_emod (n : Int) : toInt32 n % 4294967296 = n % 4294967296 :=
  Int.bmod_emod

theorem toUInt32_of_lt {n : Nat} (h : n < 4294967296) : toUInt32 n = n :=
  Nat.mod_eq_of_lt h

namespace Configuration

variable (cfg : Configuration)

/-- `burst_size() * max_sgl_segs() * 2`. -/
def mbufsInBurst : Int :=
  toInt32 (toInt32 (cfg.burstSize.toNat * cfg.maxSglSegs.toNat) * 2)

/-- `next_burst_bytes_capacity`. -/
def nextBurstBytesCapacity (numOpsAssembled : Nat) : Int :=
  toInt32 (toInt32 ((cfg.burstSize.toNat - numOpsAssembled : Int) * cfg.maxSglSegs.toNat) *
    cfg.decompressedSegSize.toNat)

/-- `next_burst_bytes`. -/
def nextBurstBytes (numOpsAssembled : Nat) (remainingBytes : Int) : Int :=
  min remainingBytes (cfg.nextBurstBytesCapacity numOpsAssembled)

/-- `next_burst_num_src_mbufs`. -/
def nextBurstNumSrcMbufs (numOpsAssembled : Nat) (remainingBytes : Int) : Nat :=
  ((cfg.nextBurstBytes numOpsAssembled remainingBytes + cfg.decompressedSegSize.toNat - 1).tdiv
    cfg.decompressedSegSize.toNat % 4294967296).toNat

/-- `next_burst_num_ops`. -/
def nextBurstNumOps (numOpsAssembled : Nat) (remainingBytes : Int) : Nat :=
  toUInt16 (toUInt32 (cfg.nextBurstNumSrcMbufs numOpsAssembled remainingBytes +
    cfg.maxSglSegs.toNat - 1) / cfg.maxSglSegs.toNat)

/-- The sizes of the pools start from this product. -/
theorem numMbufsInBurst_toUInt32 :
    (cfg.numMbufsInBurst toUInt32 : Int) = cfg.mbufsInBurst % 4294967296 := by
  have h := toInt32_emod (cfg.burstSize.toNat * cfg.maxSglSegs.toNat)
  have h2 := toInt32_emod (toInt32 (cfg.burstSize.toNat * cfg.maxSglSegs.toNat) * 2)
  rw [mbufsInBurst, h2, Int.mul_emod, h, ← Int.mul_emod, numMbufsInBurst, toUInt32]
  push_cast
  rfl

/-! ## Exact sizes -/

/-- The products behind the sizes of the pools do not overflow. -/
structure PoolProductsFit : Prop where
  burst : cfg.burstSize.toNat * cfg.maxSglSegs.toNat * 2 < 2147483648
  cache : cfg.burstSize.toNat * cfg.maxSglSegs.toNat * 2 * kCacheSizeAmplifier < 4294967296
  inflight : cfg.burstSize.toNat * cfg.maxSglSegs.toNat * 2 * kMaxInflightOps < 4294967296

/-- Every size is computed exactly, and every burst makes progress. -/
structure ExactSizes : Prop where
  burst : cfg.mbufsInBurst = cfg.burstSize.toNat * cfg.maxSglSegs.toNat * 2
  cache : toUInt32 (cfg.numMbufsInBurst toUInt32 * kCacheSizeAmplifier) =
    cfg.burstSize.toNat * cfg.maxSglSegs.toNat * 2 * kCacheSizeAmplifier
  inflight : toUInt32 (cfg.numMbufsInBurst toUInt32 * kMaxInflightOps) =
    cfg.burstSize.toNat * cfg.maxSglSegs.toNat * 2 * kMaxInflightOps
  pool : cfg.numMbufsInPool toUInt32 = cfg.numMbufsInPool id
  capacity : ∀ numOpsAssembled : Nat, numOpsAssembled < cfg.burstSize.toNat →
    cfg.nextBurstBytesCapacity numOpsAssembled =
      (cfg.burstSize.toNat - numOpsAssembled : Int) * cfg.maxSglSegs.toNat *
        cfg.decompressedSegSize.toNat
  positive : ∀ numOpsAssembled : Nat, numOpsAssembled < cfg.burstSize.toNat →
    ∀ remainingBytes : Int, 0 < remainingBytes →
      0 < cfg.nextBurstBytes numOpsAssembled remainingBytes ∧
      0 < cfg.nextBurstNumSrcMbufs numOpsAssembled remainingBytes ∧
      0 < cfg.nextBurstNumOps numOpsAssembled remainingBytes

variable {cfg}

theorem PoolProductsFit.of_lt
    (h : cfg.burstSize.toNat * cfg.maxSglSegs.toNat < 4194304) : cfg.PoolProductsFit := by
  constructor
  · omega
  · unfold kCacheSizeAmplifier
    omega
  · unfold kMaxInflightOps
    omega

namespace PoolProductsFit

variable (h : cfg.PoolProductsFit)
include h

theorem numMbufsInBurst_eq : cfg.numMbufsInBurst toUInt32 = cfg.numMbufsInBurst id :=
  toUInt32_of_lt (Nat.lt_trans h.burst (by omega))

theorem mbufPoolCacheSize_eq : cfg.mbufPoolCacheSize toUInt32 = cfg.mbufPoolCacheSize id := by
  have hcache : cfg.numMbufsInBurst id * kCacheSizeAmplifier < 4294967296 := h.cache
  rw [mbufPoolCacheSize, h.numMbufsInBurst_eq, toUInt32_of_lt hcache]
  rfl

theorem numInflightMbufs_eq : cfg.numInflightMbufs toUInt32 = cfg.numInflightMbufs id := by
  have hinflight : cfg.numMbufsInBurst id * kMaxInflightOps < 4294967296 := h.inflight
  rw [numInflightMbufs, h.numMbufsInBurst_eq, toUInt32_of_lt hinflight]
  rfl

theorem numMbufsInPool_lt : cfg.numMbufsInPool id < 2147500000 := by
  have hburst : cfg.numMbufsInBurst id < 2147483648 := h.burst
  have hcache : cfg.mbufPoolCacheSize id ≤ 512 := Nat.min_le_right _ _
  have hinflight : cfg.numInflightMbufs id ≤ 8192 := Nat.min_le_right _ _
  simp only [numMbufsInPool, id]
  omega

theorem numMbufsInPool_eq : cfg.numMbufsInPool toUInt32 = cfg.numMbufsInPool id := by
  have hlt := h.numMbufsInPool_lt
  rw [numMbufsInPool, h.numInflightMbufs_eq, h.mbufPoolCacheSize_eq, h.numMbufsInBurst_eq]
  exact toUInt32_of_lt (Nat.lt_trans hlt (by omega))

theorem numOpsInPool_eq : cfg.numOpsInPool toUInt32 = cfg.numOpsInPool id := by
  have hlt := h.numMbufsInPool_lt
  have hsgl := cfg.maxSglSegs.toNat_lt
  rw [numOpsInPool, h.numMbufsInPool_eq, toUInt32_of_lt (by omega)]
  rfl

end PoolProductsFit

section Capacity

variable {numOpsAssembled : Nat}

theorem nextBurstBytesCapacity_eq
    (hfit : cfg.burstSize.toNat * cfg.maxSglSegs.toNat * cfg.decompressedSegSize.toNat <
      2147483648)
    (hsegments : cfg.burstSize.toNat * cfg.maxSglSegs.toNat < 2147483648)
    (hlt : numOpsAssembled < cfg.burstSize.toNat) :
    cfg.nextBurstBytesCapacity numOpsAssembled =
      ((cfg.burstSize.toNat - numOpsAssembled) * cfg.maxSglSegs.toNat *
        cfg.decompressedSegSize.toNat : Nat) := by
  have hsegs : (cfg.burstSize.toNat - numOpsAssembled) * cfg.maxSglSegs.toNat ≤
      cfg.burstSize.toNat * cfg.maxSglSegs.toNat :=
    Nat.mul_le_mul_right _ (Nat.sub_le _ _)
  have hbytes := Nat.mul_le_mul_right cfg.decompressedSegSize.toNat hsegs
  have hwrap : toInt32 ((cfg.burstSize.toNat - numOpsAssembled) * cfg.maxSglSegs.toNat : Nat) =
      ((cfg.burstSize.toNat - numOpsAssembled) * cfg.maxSglSegs.toNat : Nat) :=
    toInt32_natCast (by omega)
  rw [nextBurstBytesCapacity, ← Int.ofNat_sub (Nat.le_of_lt hlt), ← Int.natCast_mul, hwrap,
    ← Int.natCast_mul]
  exact toInt32_natCast (by omega)

/-- The segments of a burst that is computed exactly. -/
theorem nextBurstNumSrcMbufs_eq (hb : cfg.Bounds) {bytes : Nat} {remainingBytes : Int}
    (hbytes : cfg.nextBurstBytes numOpsAssembled remainingBytes = bytes)
    (hlt : bytes < 2147483648) :
    cfg.nextBurstNumSrcMbufs numOpsAssembled remainingBytes =
      count cfg.decompressedSegSize.toNat bytes := by
  have hpos := hb.segSize_pos
  have hd := cfg.decompressedSegSize.toNat_lt
  have hle : count cfg.decompressedSegSize.toNat bytes ≤
      bytes + cfg.decompressedSegSize.toNat - 1 := Nat.div_le_self _ _
  have hsub : (bytes + cfg.decompressedSegSize.toNat : Nat) - (1 : Int) =
      (bytes + cfg.decompressedSegSize.toNat - 1 : Nat) := by omega
  rw [nextBurstNumSrcMbufs, hbytes, ← Int.natCast_add, hsub, ← Int.ofNat_tdiv]
  change ((count cfg.decompressedSegSize.toNat bytes : Int) % 4294967296).toNat = _
  omega

/-- The operations of a burst that is computed exactly. -/
theorem nextBurstNumOps_eq (hb : cfg.Bounds) {bytes : Nat} {remainingBytes : Int}
    (hbytes : cfg.nextBurstBytes numOpsAssembled remainingBytes = bytes)
    (hlt : bytes < 2147483648)
    (hle : bytes ≤ (cfg.burstSize.toNat - numOpsAssembled) * cfg.maxSglSegs.toNat *
      cfg.decompressedSegSize.toNat) :
    cfg.nextBurstNumOps numOpsAssembled remainingBytes =
      count cfg.maxSglSegs.toNat (count cfg.decompressedSegSize.toNat bytes) := by
  have hb1 := cfg.burstSize.toNat_lt
  have hs := cfg.maxSglSegs.toNat_lt
  have hd := cfg.decompressedSegSize.toNat_lt
  have hsegments : count cfg.decompressedSegSize.toNat bytes ≤
      bytes + cfg.decompressedSegSize.toNat - 1 := Nat.div_le_self _ _
  have hops : count cfg.maxSglSegs.toNat (count cfg.decompressedSegSize.toNat bytes) ≤
      cfg.burstSize.toNat - numOpsAssembled :=
    (count_le_iff hb.maxSglSegs_pos).mpr ((count_le_iff hb.segSize_pos).mpr hle)
  rw [nextBurstNumOps, nextBurstNumSrcMbufs_eq hb hbytes hlt, toUInt32_of_lt (by omega)]
  exact toUInt16_of_lt (Nat.lt_of_le_of_lt hops (by omega))

end Capacity

theorem ExactSizes.of_lt (hb : cfg.Bounds)
    (hsegments : cfg.burstSize.toNat * cfg.maxSglSegs.toNat < 4194304)
    (hbytes : cfg.burstSize.toNat * cfg.maxSglSegs.toNat * cfg.decompressedSegSize.toNat <
      2147483648) : cfg.ExactSizes := by
  have hfit := PoolProductsFit.of_lt hsegments
  have hwrap : toInt32 (cfg.burstSize.toNat * cfg.maxSglSegs.toNat : Nat) =
      (cfg.burstSize.toNat * cfg.maxSglSegs.toNat : Nat) := toInt32_natCast (by omega)
  refine ⟨?_, ?_, ?_, hfit.numMbufsInPool_eq, ?_, ?_⟩
  · rw [mbufsInBurst, ← Int.natCast_mul, hwrap]
    exact toInt32_of_lt (by omega) (by omega)
  · rw [hfit.numMbufsInBurst_eq]
    exact toUInt32_of_lt hfit.cache
  · rw [hfit.numMbufsInBurst_eq]
    exact toUInt32_of_lt hfit.inflight
  · intro n hlt
    rw [nextBurstBytesCapacity_eq hbytes (by omega) hlt, ← Int.ofNat_sub (Nat.le_of_lt hlt)]
    push_cast
    rfl
  · intro n hlt remainingBytes hpos
    have hcapacity := nextBurstBytesCapacity_eq hbytes (by omega) hlt
    have hsegs : (cfg.burstSize.toNat - n) * cfg.maxSglSegs.toNat ≤
        cfg.burstSize.toNat * cfg.maxSglSegs.toNat := Nat.mul_le_mul_right _ (Nat.sub_le _ _)
    have hle := Nat.mul_le_mul_right cfg.decompressedSegSize.toNat hsegs
    have hroom : 0 < (cfg.burstSize.toNat - n) * cfg.maxSglSegs.toNat *
        cfg.decompressedSegSize.toNat :=
      Nat.mul_pos (Nat.mul_pos (by omega) hb.maxSglSegs_pos) hb.segSize_pos
    obtain ⟨bytes, hnext⟩ : ∃ bytes : Nat, cfg.nextBurstBytes n remainingBytes = bytes :=
      ⟨(cfg.nextBurstBytes n remainingBytes).toNat, by
        rw [nextBurstBytes, hcapacity]
        omega⟩
    have hbounds : 0 < bytes ∧ bytes ≤ (cfg.burstSize.toNat - n) * cfg.maxSglSegs.toNat *
        cfg.decompressedSegSize.toNat := by
      rw [nextBurstBytes, hcapacity] at hnext
      omega
    have hcount := count_pos hb.segSize_pos hbounds.1
    rw [nextBurstNumSrcMbufs_eq hb hnext (by omega),
      nextBurstNumOps_eq hb hnext (by omega) hbounds.2, hnext]
    exact ⟨by omega, hcount, count_pos hb.maxSglSegs_pos hcount⟩

/-- **Exact sizes.**  The sizes are computed exactly, if and only if a burst has
fewer than `2 ^ 22` segments and, in all of them, fewer than `2 ^ 31` bytes. -/
theorem exactSizes_iff (hcfg : Accepted cfg) :
    cfg.ExactSizes ↔
      cfg.burstSize.toNat * cfg.maxSglSegs.toNat < 4194304 ∧
      cfg.burstSize.toNat * cfg.maxSglSegs.toNat * cfg.decompressedSegSize.toNat <
        2147483648 := by
  have hb := hcfg.bounds
  constructor
  · intro h
    constructor
    · have hlt : toUInt32 (cfg.numMbufsInBurst toUInt32 * kMaxInflightOps) < 4294967296 :=
        Nat.mod_lt _ (by omega)
      rw [h.inflight, kMaxInflightOps] at hlt
      omega
    · have hlt : cfg.nextBurstBytesCapacity 0 < 2147483648 := toInt32_lt _
      rw [h.capacity 0 hb.burstSize_pos, Int.natCast_zero, Int.sub_zero, ← Int.natCast_mul,
        ← Int.natCast_mul] at hlt
      omega
  · exact fun ⟨hsegments, hbytes⟩ => .of_lt hb hsegments hbytes

/-- Bursts of 32768 operations with as many segments each. -/
def wideConfig : Configuration where
  burstSize := 32768
  maxSglSegs := 32768
  decompressedSegSize := 8
  windowSize := 15

theorem exactSizes_sample : (sampleConfig 2).ExactSizes :=
  (exactSizes_iff sampleConfig_accepted.2).mpr (by decide)

/-- The product for the inflight mbufs wraps round to zero, and the capacity of
the next burst as well: no burst makes progress. -/
theorem wideConfig_not_exact :
    Accepted wideConfig ∧ ¬ wideConfig.ExactSizes ∧
      wideConfig.numInflightMbufs toUInt32 = 0 ∧ wideConfig.nextBurstBytes 0 8 = 0 := by
  refine ⟨⟨0, 0, 1, ⟨0, some ⟨true, true, true, ⟨15, 15, 0⟩⟩⟩, wideConfig, by decide⟩, ?_,
    by decide, by decide⟩
  intro h
  exact absurd h.inflight (by decide)

/-! ## What DPDK requires of a pool -/

end Configuration

/-- `rte_mempool_create` accepts the cache of a pool: it is not too large, and
its flush threshold is within the pool. -/
def MempoolAccepts (elements cacheSize : Nat) : Prop :=
  cacheSize ≤ mempoolCacheMaxSize ∧ cacheSize * 3 / 2 ≤ elements

instance (elements cacheSize : Nat) : Decidable (MempoolAccepts elements cacheSize) :=
  inferInstanceAs (Decidable (_ ∧ _))

/-- With enough memory, only the sizes of a pool can be a reason to refuse it. -/
structure PreallocateAnswer.Ample (cfg : Configuration) (answer : PreallocateAnswer) : Prop where
  socketId : 0 ≤ answer.socketId
  mbufPool : answer.mbufPool ≠ none →
    ¬ MempoolAccepts (cfg.numMbufsInPool toUInt32) (cfg.mbufPoolCacheSize toUInt32)
  operationPool : answer.operationPool ≠ none →
    ¬ MempoolAccepts (cfg.numOpsInPool toUInt32) cfg.operationPoolCacheSize
  operations : answer.operations = true
  mbufs : answer.mbufs = true
  sharedInfoDecompressedMbuf : answer.sharedInfoDecompressedMbuf = true
  sharedInfoCompressedMbuf : answer.sharedInfoCompressedMbuf = true
  privateXformCompress : 0 ≤ answer.privateXformCompress
  privateXformDecompress : 0 ≤ answer.privateXformDecompress

theorem acquire_of_forall_none {steps : List (Option String × (Resources → Resources))} :
    ∀ {resources : Resources}, (∀ step ∈ steps, step.1 = none) →
      (acquire steps resources).2 = .success := by
  induction steps with
  | nil => exact fun _ => rfl
  | cons step steps ih =>
      obtain ⟨message, set⟩ := step
      intro resources h
      obtain ⟨rfl, hrest⟩ := List.forall_mem_cons.mp h
      exact ih hrest

namespace Configuration

variable {cfg : Configuration}

theorem mbufPool_accepts (hb : cfg.Bounds) :
    MempoolAccepts (cfg.numMbufsInPool id) (cfg.mbufPoolCacheSize id) := by
  have hpos := Nat.mul_pos hb.burstSize_pos hb.maxSglSegs_pos
  refine ⟨Nat.min_le_right _ _, ?_⟩
  simp only [numMbufsInPool, numInflightMbufs, mbufPoolCacheSize, numMbufsInBurst, id,
    kCacheSizeAmplifier, kMaxInflightOps, kMaxInflightMbufs, mempoolCacheMaxSize]
  omega

/-- The operation pool as the rounded quotient of half the mbufs. -/
theorem le_numOpsInPool_iff (hb : cfg.Bounds) {k : Nat} (hk : 0 < k) :
    k ≤ cfg.numOpsInPool id ↔
      (k - 1) * cfg.maxSglSegs.toNat < cfg.numMbufsInPool id / 2 := by
  rw [← lt_count_iff hb.maxSglSegs_pos]
  change k ≤ count cfg.maxSglSegs.toNat (cfg.numMbufsInPool id / 2) ↔ _
  omega

/-- Half the mbufs of a pool for bursts of `n` segments. -/
theorem numMbufsInPool_half (cfg : Configuration) :
    cfg.numMbufsInPool id / 2 =
      min (cfg.burstSize.toNat * cfg.maxSglSegs.toNat * 512) 4096 +
      min (cfg.burstSize.toNat * cfg.maxSglSegs.toNat * 2) 256 +
      cfg.burstSize.toNat * cfg.maxSglSegs.toNat := by
  simp only [numMbufsInPool, numInflightMbufs, mbufPoolCacheSize, numMbufsInBurst, id,
    kCacheSizeAmplifier, kMaxInflightOps, kMaxInflightMbufs, mempoolCacheMaxSize]
  omega

theorem operationPool_accepts_iff (hb : cfg.Bounds) :
    MempoolAccepts (cfg.numOpsInPool id) cfg.operationPoolCacheSize ↔
      (min (3 * cfg.burstSize.toNat) 768 - (cfg.burstSize.toNat + 1)) * cfg.maxSglSegs.toNat <
        4352 := by
  have hburst := hb.burstSize_pos
  have hthreshold : cfg.operationPoolCacheSize * 3 / 2 = min (3 * cfg.burstSize.toNat) 768 := by
    simp only [operationPoolCacheSize, kCacheSizeAmplifier, mempoolCacheMaxSize]
    omega
  have hle : cfg.operationPoolCacheSize ≤ mempoolCacheMaxSize := Nat.min_le_right _ _
  rw [MempoolAccepts, and_iff_right hle, hthreshold, le_numOpsInPool_iff hb (by omega),
    numMbufsInPool_half]
  set b := cfg.burstSize.toNat
  set s := cfg.maxSglSegs.toNat
  have hs : 0 < s := hb.maxSglSegs_pos
  -- the threshold less one burst, in segments
  have hsplit : (min (3 * b) 768 - 1) * s ≤ (min (3 * b) 768 - (b + 1)) * s + b * s := by
    rw [← Nat.add_mul]
    exact Nat.mul_le_mul_right _ (by omega)
  by_cases hlarge : 128 ≤ b * s
  · by_cases hcap : b < 767
    · have hsplit' : (min (3 * b) 768 - 1) * s = (min (3 * b) 768 - (b + 1)) * s + b * s := by
        rw [← Nat.add_mul]
        congr 1
        omega
      omega
    · have hzero : min (3 * b) 768 - (b + 1) = 0 := by omega
      rw [hzero, Nat.zero_mul] at hsplit ⊢
      omega
  · -- no cap is reached
    have hthree : (min (3 * b) 768 - (b + 1)) * s ≤ 2 * (b * s) := by
      rw [← Nat.mul_assoc]
      exact Nat.mul_le_mul_right _ (by omega)
    have hpos : 0 < b * s := Nat.mul_pos hburst hs
    omega

/-- With enough memory every step of `Preallocate` succeeds. -/
theorem preallocate_of_ample {answer : PreallocateAnswer} (hanswer : answer.Ample cfg)
    (hmbufs : MempoolAccepts (cfg.numMbufsInPool toUInt32) (cfg.mbufPoolCacheSize toUInt32))
    (hops : MempoolAccepts (cfg.numOpsInPool toUInt32) cfg.operationPoolCacheSize)
    (qp : QueuePairMemory) (deviceId queuePairId : Nat) :
    (qp.preallocate deviceId queuePairId cfg answer).2 = .success := by
  have hmbufPool : answer.mbufPool = none := by
    by_contra h
    exact hanswer.mbufPool h hmbufs
  have hoperationPool : answer.operationPool = none := by
    by_contra h
    exact hanswer.operationPool h hops
  apply acquire_of_forall_none
  simp [preallocateSteps, hmbufPool, hoperationPool, hanswer.operations, hanswer.mbufs,
    hanswer.sharedInfoDecompressedMbuf, hanswer.sharedInfoCompressedMbuf, hanswer.socketId,
    hanswer.privateXformCompress, hanswer.privateXformDecompress]

/-- **Sizes that DPDK accepts.**  The two pools of a queue pair can be created,
if and only if the cache of the operation pool does not outgrow it. -/
theorem preallocatable_iff (hcfg : Accepted cfg) (hfit : cfg.PoolProductsFit) :
    (MempoolAccepts (cfg.numMbufsInPool toUInt32) (cfg.mbufPoolCacheSize toUInt32) ∧
      MempoolAccepts (cfg.numOpsInPool toUInt32) cfg.operationPoolCacheSize ∧
      ∀ (qp : QueuePairMemory) (deviceId queuePairId : Nat) (answer : PreallocateAnswer),
        answer.Ample cfg → (qp.preallocate deviceId queuePairId cfg answer).2 = .success) ↔
      (min (3 * cfg.burstSize.toNat) 768 - (cfg.burstSize.toNat + 1)) * cfg.maxSglSegs.toNat <
        4352 := by
  have hmbufs : MempoolAccepts (cfg.numMbufsInPool toUInt32) (cfg.mbufPoolCacheSize toUInt32) := by
    rw [hfit.numMbufsInPool_eq, hfit.mbufPoolCacheSize_eq]
    exact mbufPool_accepts hcfg.bounds
  rw [← operationPool_accepts_iff hcfg.bounds, ← hfit.numOpsInPool_eq, and_iff_right hmbufs]
  exact and_iff_left_of_imp fun hops qp deviceId queuePairId answer hanswer =>
    preallocate_of_ample hanswer hmbufs hops qp deviceId queuePairId

theorem preallocatable_sample :
    MempoolAccepts ((sampleConfig 2).numOpsInPool toUInt32)
      (sampleConfig 2).operationPoolCacheSize :=
  ((preallocatable_iff sampleConfig_accepted.2 (.of_lt (by decide))).mpr (by decide)).2.1

/-- Bursts of 256 operations with 1000 segments each. -/
def longChainConfig : Configuration where
  burstSize := 256
  maxSglSegs := 1000
  windowSize := 15

/-- The cache of the operation pool asks for 768 operations; there are 261. -/
theorem longChainConfig_not_preallocatable :
    Accepted longChainConfig ∧ longChainConfig.PoolProductsFit ∧
      ¬ MempoolAccepts (longChainConfig.numOpsInPool toUInt32)
        longChainConfig.operationPoolCacheSize :=
  ⟨⟨0, 0, 1, ⟨0, some ⟨true, true, true, ⟨15, 15, 0⟩⟩⟩, longChainConfig, by decide⟩,
    .of_lt (by decide), by decide⟩

end Configuration

end Bitar
