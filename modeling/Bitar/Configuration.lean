import Mathlib.Tactic.Common
import Mathlib.Data.Nat.Bitwise

/-!
# Configurations of a compress device

`Configuration` holds the fields of the C++ class of that name and of its only
subclass, `BlueFieldConfiguration`.  `compressedSegSize` is not a field: the
class recomputes it (`UpdateCompressedSegSize`) in its constructor and whenever
`decompressedSegSize` is set, so it is a function of the latter.

`validateConfiguration` is the check that `Initialize` makes before it
allocates anything.  It also fills in two defaults (`maxSglSegs`,
`windowSize`) in the configuration it is given; both are kept when a later
check fails, so it returns the configuration together with the status.

Two loops of this file need not end.  They are given fuel and return `none`
when it runs out.

**Results.**
* `validateConfiguration_cases`: what the check leaves behind.
* `Accepted.bounds`: what an accepted configuration satisfies.
* `segLen_pos`, `segLen_lt`: one destination segment is neither empty nor too
  long for the 16 bits of an mbuf length.
-/

namespace Bitar

/-- The codes of `arrow::StatusCode` that this library uses. -/
inductive StatusCode
  | ok
  | outOfMemory
  | invalid
  | ioError
  | capacityError
  | cancelled
  | unknownError
  | notImplemented
deriving DecidableEq, Repr

/-- `arrow::Status`. -/
structure Status where
  code : StatusCode
  message : String
deriving DecidableEq, Repr

namespace Status

/-- `arrow::Status::OK()`. -/
def success : Status := ⟨.ok, ""⟩

def invalid (message : String) : Status := ⟨.invalid, message⟩

def unknownError (message : String) : Status := ⟨.unknownError, message⟩

def notImplemented (message : String) : Status := ⟨.notImplemented, message⟩

end Status

/-! ## Constants -/

/-- `RTE_PKTMBUF_HEADROOM` of the DPDK build configuration. -/
def pktmbufHeadroom : Nat := 128

/-- `RTE_MAX_MEMZONE` of the DPDK build configuration. -/
def maxMemzone : Nat := 2560

def kMaxMbufDataSize : Nat := 65535 - pktmbufHeadroom

def kMinSegSize : Nat := 8

/-- `kMaxMbufDataSize / kExpanseRatio`, the ratio being 11/10. -/
def kMaxSegSize : Nat := kMaxMbufDataSize * 10 / 11

def kMaxInflightOps : Nat := 512

def kMinPreallocateMemzones : Nat := 20

/-- `kBlueFieldConfigurationTypeName`. -/
def kBlueFieldConfigurationTypeName : String := "bluefield"

/-- A value stored in 16 bits. -/
def toUInt16 (n : Nat) : Nat := n % 65536

theorem toUInt16_of_lt {n : Nat} (h : n < 65536) : toUInt16 n = n :=
  Nat.mod_eq_of_lt h

/-- `rte_comp_huffman`. -/
inductive Huffman
  | default
  | fixed
  | dynamic
deriving DecidableEq, Repr

structure Configuration where
  typeName : String := kBlueFieldConfigurationTypeName
  /-- Whether the object is a `BlueFieldConfiguration` (the dynamic cast). -/
  isBlueField : Bool := true
  burstSize : UInt16 := 32
  maxSglSegs : UInt16 := 1
  decompressedSegSize : UInt16 := 2048
  windowSize : UInt8 := 0
  huffmanEnc : Huffman := .dynamic
  maxPreallocateMemzones : UInt16 := 2560
deriving DecidableEq, Repr

/-! ## The size of a segment of compressed data -/

/-- The loop of `UpdateCompressedSegSize`: shift `num` down to a bit that it
shares with `lowerBound`. -/
def probe (lowerBound : Nat) : Nat → Nat → Option Nat
  | 0, _ => none
  | fuel + 1, num =>
      if num &&& lowerBound = 0 then probe lowerBound fuel (num >>> 1) else some num

/-- `UpdateCompressedSegSize`, with fuel for its loop. -/
def updateCompressedSegSize (fuel : Nat) (decompressedSegSize : UInt16) : Option UInt16 :=
  (probe (decompressedSegSize.toNat <<< 1) fuel 65536).map fun num =>
    UInt16.ofNat
      (if num > 65536 >>> 1 then decompressedSegSize.toNat * 11 / 10 else num)

/-- `compressed_seg_size()`. -/
def Configuration.compressedSegSize (cfg : Configuration) : Nat :=
  ((updateCompressedSegSize 18 cfg.decompressedSegSize).getD 0).toNat

/-- The `len` of a memzone reserved with `size` bytes: whole cache lines, at
least one. -/
def memzoneLen (size : Nat) : Nat :=
  max 64 ((size + 63) / 64 * 64)

/-- The length of one destination segment of a compress operation. -/
def Configuration.segLen (cfg : Configuration) : Nat :=
  toUInt16 (memzoneLen cfg.compressedSegSize)

/-! ## Validation -/

/-- `rte_param_log2_range`. -/
structure Log2Range where
  min : UInt8
  max : UInt8
  increment : UInt8
deriving DecidableEq, Repr

/-- The part of `rte_compressdev_capabilities` for DEFLATE that is checked. -/
structure Capability where
  oopSglInSglOut : Bool
  huffmanFixed : Bool
  huffmanDynamic : Bool
  windowSize : Log2Range
deriving DecidableEq, Repr

/-- What the driver reports about a device. -/
structure DeviceInfo where
  maxNbQueuePairs : Nat
  deflate : Option Capability
deriving DecidableEq, Repr

/-- A byte as `operator<<` prints it. -/
def showChar (n : UInt8) : String :=
  String.singleton (Char.ofNat n.toNat)

/-- The loop of `ValidateWindowSize`; the counter has eight bits. -/
def windowLoop (windowSize : UInt8) (range : Log2Range) : Nat → UInt8 → Option Bool
  | 0, _ => none
  | fuel + 1, nextSize =>
      if nextSize ≤ range.max then
        if windowSize = nextSize then some true
        else windowLoop windowSize range fuel (nextSize + range.increment)
      else some false

/-- `ValidateWindowSize`, with fuel for its loop. -/
def validateWindowSize (fuel : Nat) (windowSize : UInt8) (range : Log2Range) :
    Option Status :=
  if windowSize < range.min ∨ range.max < windowSize then
    some (.invalid ("window_size is not in the range of [" ++ showChar range.min ++ ", " ++
      showChar range.max ++ "]"))
  else if range.increment = 0 then
    some .success
  else
    (windowLoop windowSize range fuel range.min).map fun found =>
      if found then .success else .invalid "The value of window_size is invalid"

/-- `set_max_sgl_segs(1)` when the field is below one. -/
def Configuration.withMaxSglSegs (cfg : Configuration) : Configuration :=
  if cfg.maxSglSegs < 1 then { cfg with maxSglSegs := 1 } else cfg

/-- The checks of `ValidateConfiguration` that come after the window size. -/
def validateRest (capability : Capability) (cfg : Configuration) : Status :=
  if cfg.huffmanEnc = .fixed ∧ capability.huffmanFixed = false then
    .invalid "Compress device does not supported fixed Huffman"
  else if cfg.huffmanEnc = .dynamic ∧ capability.huffmanDynamic = false then
    .invalid "Compress device does not supported dynamic Huffman"
  else if cfg.maxPreallocateMemzones.toNat < kMinPreallocateMemzones ∨
      maxMemzone < cfg.maxPreallocateMemzones.toNat then
    .invalid s!"max_preallocate_memzones ({cfg.maxPreallocateMemzones.toNat}) is not in the range of [{kMinPreallocateMemzones}, {maxMemzone}]"
  else .success

/-- `CompressDevice::ValidateConfiguration`. -/
def validateBase (fuel : Nat) (deviceId : UInt8) (numQps : Nat) (info : DeviceInfo)
    (cfg : Configuration) : Option (Configuration × Status) :=
  if 0 < info.maxNbQueuePairs ∧ info.maxNbQueuePairs < numQps then
    some (cfg, .invalid s!"The requested number of queue pairs ({numQps}) exceeds the maximum ({info.maxNbQueuePairs}) allowed for device {deviceId.toNat}")
  else if cfg.burstSize = 0 then
    some (cfg, .invalid "Burst size must be greater than 0")
  else
    match info.deflate with
    | none =>
        some (cfg, .notImplemented s!"Compress device {deviceId.toNat} does not support DEFLATE")
    | some capability =>
        let cfg := cfg.withMaxSglSegs
        if 1 < cfg.maxSglSegs ∧ capability.oopSglInSglOut = false then
          some (cfg, .invalid "Compress device does not support chained mbufs.")
        else if cfg.decompressedSegSize.toNat < kMinSegSize ∨
            kMaxSegSize < cfg.decompressedSegSize.toNat then
          some (cfg, .invalid s!"decompressed_seg_size is not in the range of [{kMinSegSize}, {kMaxSegSize}]")
        else if cfg.windowSize = 0 then
          let cfg := { cfg with windowSize := capability.windowSize.max }
          some (cfg, validateRest capability cfg)
        else
          (validateWindowSize fuel cfg.windowSize capability.windowSize).map fun status =>
            if status.code = .ok then (cfg, validateRest capability cfg)
            else (cfg, status)

/-- `BlueFieldCompressDevice::ValidateConfiguration`. -/
def validateConfiguration (fuel : Nat) (deviceId : UInt8) (numQps : Nat) (info : DeviceInfo)
    (cfg : Configuration) : Option (Configuration × Status) :=
  if cfg.isBlueField = false then
    some (cfg, .invalid "Invalid configuration for BlueFieldCompressDevice")
  else if cfg.huffmanEnc ≠ .fixed ∧ cfg.huffmanEnc ≠ .dynamic then
    some (cfg, .invalid s!"Compress device of type {cfg.typeName} only supports huffman encoding of either RTE_COMP_HUFFMAN_FIXED or RTE_COMP_HUFFMAN_DYNAMIC")
  else validateBase fuel deviceId numQps info cfg

/-- The configuration in force after `ValidateConfiguration` returned OK. -/
def Accepted (cfg : Configuration) : Prop :=
  ∃ fuel deviceId numQps info given,
    validateConfiguration fuel deviceId numQps info given = some (cfg, .success)

/-- What the checks guarantee of the fields. -/
structure Configuration.Bounds (cfg : Configuration) : Prop where
  burstSize_pos : 0 < cfg.burstSize.toNat
  maxSglSegs_pos : 0 < cfg.maxSglSegs.toNat
  minSegSize_le : kMinSegSize ≤ cfg.decompressedSegSize.toNat
  le_maxSegSize : cfg.decompressedSegSize.toNat ≤ kMaxSegSize

theorem Configuration.Bounds.segSize_pos {cfg : Configuration} (h : cfg.Bounds) :
    0 < cfg.decompressedSegSize.toNat :=
  Nat.lt_of_lt_of_le (by decide) h.minSegSize_le

theorem withMaxSglSegs_pos (cfg : Configuration) : 0 < cfg.withMaxSglSegs.maxSglSegs.toNat := by
  unfold Configuration.withMaxSglSegs
  split_ifs with h
  · exact show 0 < (1 : UInt16).toNat by decide
  · have := UInt16.not_lt.mp h
    rw [UInt16.le_iff_toNat_le] at this
    exact this

@[simp] theorem withMaxSglSegs_burstSize (cfg : Configuration) :
    cfg.withMaxSglSegs.burstSize = cfg.burstSize := by
  unfold Configuration.withMaxSglSegs
  split_ifs <;> rfl

@[simp] theorem withMaxSglSegs_decompressedSegSize (cfg : Configuration) :
    cfg.withMaxSglSegs.decompressedSegSize = cfg.decompressedSegSize := by
  unfold Configuration.withMaxSglSegs
  split_ifs <;> rfl

theorem burstSize_pos_of_ne_zero {n : UInt16} (h : n ≠ 0) : 0 < n.toNat := by
  rcases Nat.eq_zero_or_pos n.toNat with h0 | h0
  · exact absurd (UInt16.toNat_inj.mp h0) h
  · exact h0

/-- A check either turns the configuration away or is passed. -/
theorem check_cases {α : Type} {c : Prop} [Decidable c] {x y : α} {o : Option α}
    (h : (if c then some x else o) = some y) : c ∧ x = y ∨ ¬ c ∧ o = some y := by
  by_cases hc : c
  · rw [if_pos hc] at h
    exact Or.inl ⟨hc, Option.some.inj h⟩
  · rw [if_neg hc] at h
    exact Or.inr ⟨hc, h⟩

theorem invalid_ne_ok (message : String) : (Status.invalid message).code ≠ .ok :=
  StatusCode.noConfusion

/-- What the checks guarantee of a configuration that comes to the last ones. -/
structure PassesFirst (given : Configuration) : Prop where
  burstSize_ne_zero : given.burstSize ≠ 0
  minSegSize_le : kMinSegSize ≤ given.decompressedSegSize.toNat
  le_maxSegSize : given.decompressedSegSize.toNat ≤ kMaxSegSize

/-- What the check leaves behind: the configuration as it was, or with defaults
for two fields.  Only after the last checks the status can be OK. -/
theorem validateBase_cases {fuel : Nat} {deviceId : UInt8} {numQps : Nat} {info : DeviceInfo}
    {given cfg : Configuration} {status : Status}
    (h : validateBase fuel deviceId numQps info given = some (cfg, status)) :
    (cfg = given ∧ status.code ≠ .ok) ∨
    ∃ windowSize, cfg = { given.withMaxSglSegs with windowSize := windowSize } ∧
      (status.code ≠ .ok ∨
        PassesFirst given ∧ ∃ capability, status = validateRest capability cfg) := by
  unfold validateBase at h
  rcases check_cases h with ⟨-, he⟩ | ⟨-, h⟩
  · obtain ⟨rfl, rfl⟩ := Prod.mk.inj he
    exact Or.inl ⟨rfl, invalid_ne_ok _⟩
  rcases check_cases h with ⟨-, he⟩ | ⟨hburst, h⟩
  · obtain ⟨rfl, rfl⟩ := Prod.mk.inj he
    exact Or.inl ⟨rfl, invalid_ne_ok _⟩
  cases hc : info.deflate with
  | none =>
      rw [hc] at h
      obtain ⟨rfl, rfl⟩ := Prod.mk.inj (Option.some.inj h)
      exact Or.inl ⟨rfl, StatusCode.noConfusion⟩
  | some capability =>
      rw [hc] at h
      right
      rcases check_cases h with ⟨-, he⟩ | ⟨-, h⟩
      · obtain ⟨rfl, rfl⟩ := Prod.mk.inj he
        exact ⟨_, rfl, Or.inl (invalid_ne_ok _)⟩
      rcases check_cases h with ⟨-, he⟩ | ⟨hsize, h⟩
      · obtain ⟨rfl, rfl⟩ := Prod.mk.inj he
        exact ⟨_, rfl, Or.inl (invalid_ne_ok _)⟩
      rw [withMaxSglSegs_decompressedSegSize, not_or, Nat.not_lt, Nat.not_lt] at hsize
      have hfirst : PassesFirst given := ⟨hburst, hsize.1, hsize.2⟩
      rcases check_cases h with ⟨-, he⟩ | ⟨-, h⟩
      · obtain ⟨rfl, rfl⟩ := Prod.mk.inj he
        exact ⟨_, rfl, Or.inr ⟨hfirst, capability, rfl⟩⟩
      · obtain ⟨checked, -, hs⟩ := Option.map_eq_some_iff.mp h
        by_cases hok : checked.code = .ok
        · rw [if_pos hok] at hs
          obtain ⟨rfl, rfl⟩ := Prod.mk.inj hs
          exact ⟨_, rfl, Or.inr ⟨hfirst, capability, rfl⟩⟩
        · rw [if_neg hok] at hs
          obtain ⟨rfl, rfl⟩ := Prod.mk.inj hs
          exact ⟨_, rfl, Or.inl hok⟩

theorem validateConfiguration_cases {fuel : Nat} {deviceId : UInt8} {numQps : Nat}
    {info : DeviceInfo} {given cfg : Configuration} {status : Status}
    (h : validateConfiguration fuel deviceId numQps info given = some (cfg, status)) :
    (cfg = given ∧ status.code ≠ .ok) ∨
    ∃ windowSize, cfg = { given.withMaxSglSegs with windowSize := windowSize } ∧
      (status.code ≠ .ok ∨
        PassesFirst given ∧ ∃ capability, status = validateRest capability cfg) := by
  unfold validateConfiguration at h
  rcases check_cases h with ⟨-, he⟩ | ⟨-, h⟩
  · obtain ⟨rfl, rfl⟩ := Prod.mk.inj he
    exact Or.inl ⟨rfl, invalid_ne_ok _⟩
  rcases check_cases h with ⟨-, he⟩ | ⟨-, h⟩
  · obtain ⟨rfl, rfl⟩ := Prod.mk.inj he
    exact Or.inl ⟨rfl, invalid_ne_ok _⟩
  exact validateBase_cases h

theorem validateRest_success {capability : Capability} {cfg : Configuration}
    (h : (validateRest capability cfg).code = .ok) : validateRest capability cfg = .success := by
  unfold validateRest at h ⊢
  split_ifs at h ⊢
  · simp [Status.invalid] at h
  · simp [Status.invalid] at h
  · simp [Status.invalid] at h
  · rfl

/-- A status that is OK has no message. -/
theorem validateConfiguration_success {fuel : Nat} {deviceId : UInt8} {numQps : Nat}
    {info : DeviceInfo} {given cfg : Configuration} {status : Status}
    (h : validateConfiguration fuel deviceId numQps info given = some (cfg, status))
    (hok : status.code = .ok) : status = .success := by
  rcases validateConfiguration_cases h with
    ⟨-, hne⟩ | ⟨windowSize, -, hne | ⟨-, capability, rfl⟩⟩
  · exact absurd hok hne
  · exact absurd hok hne
  · exact validateRest_success hok

/-- The checks leave the segment size alone. -/
theorem validateConfiguration_segSize {fuel : Nat} {deviceId : UInt8} {numQps : Nat}
    {info : DeviceInfo} {given cfg : Configuration} {status : Status}
    (h : validateConfiguration fuel deviceId numQps info given = some (cfg, status)) :
    cfg.compressedSegSize = given.compressedSegSize := by
  have hseg : cfg.decompressedSegSize = given.decompressedSegSize := by
    rcases validateConfiguration_cases h with ⟨rfl, -⟩ | ⟨windowSize, rfl, -⟩
    · rfl
    · exact withMaxSglSegs_decompressedSegSize given
  unfold Configuration.compressedSegSize
  rw [hseg]

theorem Accepted.bounds {cfg : Configuration} (h : Accepted cfg) : cfg.Bounds := by
  obtain ⟨fuel, deviceId, numQps, info, given, h⟩ := h
  rcases validateConfiguration_cases h with ⟨-, hne⟩ | ⟨windowSize, rfl, hne | ⟨hfirst, -⟩⟩
  · exact absurd rfl hne
  · exact absurd rfl hne
  · have hburst := burstSize_pos_of_ne_zero hfirst.burstSize_ne_zero
    rw [← withMaxSglSegs_burstSize] at hburst
    have hmin := hfirst.minSegSize_le
    have hmax := hfirst.le_maxSegSize
    rw [← withMaxSglSegs_decompressedSegSize] at hmin hmax
    exact ⟨hburst, withMaxSglSegs_pos given, hmin, hmax⟩

/-! ## The length of a destination segment -/

theorem compressedSegSize_le {cfg : Configuration} (h : cfg.Bounds) :
    cfg.compressedSegSize ≤ 65408 := by
  have hs := h.le_maxSegSize
  have hmax : kMaxSegSize = 59460 := by decide
  unfold Configuration.compressedSegSize updateCompressedSegSize
  cases hp : probe (cfg.decompressedSegSize.toNat <<< 1) 18 65536 with
  | none => simp
  | some num =>
      simp only [Option.map_some, Option.getD_some, UInt16.toNat_ofNat']
      split_ifs with hb
      · exact (Nat.mod_le _ _).trans (by omega)
      · have e : 65536 >>> 1 = 32768 := by decide
        exact (Nat.mod_le _ _).trans (by omega)

theorem segLen_eq {cfg : Configuration} (h : cfg.Bounds) :
    cfg.segLen = memzoneLen cfg.compressedSegSize := by
  have := compressedSegSize_le h
  apply toUInt16_of_lt
  unfold memzoneLen
  omega

theorem segLen_pos {cfg : Configuration} (h : cfg.Bounds) : 0 < cfg.segLen := by
  rw [segLen_eq h]
  unfold memzoneLen
  omega

theorem segLen_lt {cfg : Configuration} : cfg.segLen < 65536 :=
  Nat.mod_lt _ (by omega)

end Bitar
