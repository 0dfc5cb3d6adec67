import Bitar.Stored

/-!
# Work on the other devices

All devices of a program share its memory, the pool of memzones and the counter of
`GetErrorCount`.  Work on one of them is work elsewhere for the others.  They stay
what they are as long as nobody writes the blocks that they rely on, and the pool
only grows.

**Results.**
* `Separate.elsewhere`: what work elsewhere does to every queue pair.
* `Stored.elsewhere`, `Result.elsewhere`: buffers that nobody writes.
* `Separate.step_effect`: what a step of a call does to the pool and the memory.
* `Devices.set_elsewhere`: it is work elsewhere for the other devices.
* `Devices.Apart.set`: no memzone comes to belong to two devices.
-/

namespace Bitar

open BlockStore

/-- Nothing is freed. -/
structure MemzonePool.Grows (pool later : MemzonePool) : Prop where
  allocated_subset : ∀ z ∈ pool.allocated, z ∈ later.allocated
  size_eq : ∀ z ∈ pool.allocated, later.size z = pool.size z

theorem MemzonePool.Grows.refl (pool : MemzonePool) : pool.Grows pool :=
  ⟨fun _ hz => hz, fun _ _ => rfl⟩

theorem MemzonePool.Grows.trans {pool later last : MemzonePool} (h : pool.Grows later)
    (h' : later.Grows last) : pool.Grows last :=
  ⟨fun z hz => h'.allocated_subset z (h.allocated_subset z hz),
    fun z hz => (h'.size_eq z (h.allocated_subset z hz)).trans (h.size_eq z hz)⟩

namespace Zones

variable {zones later : Zones} {size : Nat}

theorem Since.grows (h : zones.Since later) : zones.pool.Grows later.pool :=
  ⟨h.allocated_subset, h.size_eq⟩

/-- A new memzone has been nobody's before. -/
theorem Since.holds (h : zones.Since later) {z : Nat} (hz : later.device.Holds z) :
    zones.device.Holds z ∨ z ∉ zones.pool.allocated := by
  by_cases hocc : z ∈ zones.device.occupiedMemzones
  · exact Or.inl (Or.inr hocc)
  · rcases (h.split z).mp (hz.imp id fun hlater => ⟨hlater, hocc⟩) with hfree | ⟨-, hnew⟩
    · exact Or.inl (Or.inl hfree)
    · exact Or.inr hnew

/-- Somebody else has worked on the pool. -/
def withPool (zones : Zones) (pool : MemzonePool) : Zones :=
  { zones with pool := pool }

theorem Settled.withPool {pool : MemzonePool} {b : Block} (h : zones.Settled b)
    (hgrows : zones.pool.Grows pool) : (zones.withPool pool).Settled b := by
  cases b with
  | host id => trivial
  | memzone z => exact ⟨hgrows.allocated_subset z h.1, h.2⟩

/-- The memzones of the others count among those that were there before. -/
theorem Owns.withPool {base pool : MemzonePool} {ever : List Nat}
    (h : zones.Owns size base ever) (hgrows : zones.pool.Grows pool) :
    ∃ base', (zones.withPool pool).Owns size base' ever := by
  refine ⟨⟨pool.allocated \ ever.toFinset, pool.size, pool.bytesAllocated - ever.length * size⟩,
    ⟨h.reserved.nodup, fun z hz => ?_, ?_, fun z hz => ?_, fun z _ => rfl, ?_⟩, h.nodup, h.disjoint,
    h.held_iff⟩
  · simp [hz]
  · refine (Finset.sdiff_union_of_subset fun z hz => ?_).symm
    exact hgrows.allocated_subset z (h.mem_allocated (List.mem_toFinset.mp hz))
  · exact (hgrows.size_eq z (h.mem_allocated hz)).trans (h.reserved.size_new z hz)
  · exact (Int.sub_add_cancel _ _).symm

end Zones

namespace Session

open Machine

/-- What a device relies on: its taken memzones, and some blocks outside the
memzones. -/
def Relies (zones : Zones) (hosts : Set Block) (b : Block) : Prop :=
  b ∈ hosts ∨ ∃ z ∈ zones.device.occupiedMemzones, b = .memzone z

/-- The rest of the program has reserved memzones, counted empty bursts and
written to the memory, but not to these blocks. -/
structure Elsewhere (kept : Block → Prop) (s s' : Session) : Prop where
  device_eq : s'.device = s.device
  lanes_eq : s'.lanes = s.lanes
  grows : s.pool.Grows s'.pool
  agree : ∀ b, kept b → s'.memory b = s.memory b

section Elsewhere

variable {s s' : Session} {cfg : Configuration} {zones : Zones} {kept : Block → Prop}
  {blocks : List Block} {v : List Buffer} {contents : List (List UInt8)}

theorem Elsewhere.machineOf_eq (h : Elsewhere kept s s') (queuePairId : Nat) :
    s'.machineOf cfg (zones.withPool s'.pool) queuePairId =
      (s.machineOf cfg zones queuePairId).withShared (zones.withPool s'.pool) s'.memory
        s'.numMaybeNotOk := by
  unfold machineOf withShared
  rw [h.device_eq, h.lanes_eq]

theorem Elsewhere.zones_grow (h : Elsewhere kept s s') (hzones : s.zones = some zones) :
    zones.pool.Grows s'.pool := by
  obtain ⟨deviceMemory, -, rfl⟩ := Option.map_eq_some_iff.mp hzones
  exact h.grows

theorem InService.elsewhere (hs : InService cfg zones s) (h : Elsewhere kept s s') :
    InService cfg (zones.withPool s'.pool) s' := by
  obtain ⟨base, ever, howns⟩ := hs.owned
  obtain ⟨base', howns'⟩ := howns.withPool (h.zones_grow hs.zones_eq)
  refine ⟨?_, ?_, ⟨base', ever, howns'⟩, ?_, fun queuePairId => ?_, fun queuePairId hle => ?_⟩
  · rw [h.device_eq]
    exact hs.configuration_eq
  · obtain ⟨deviceMemory, hmemory, rfl⟩ := Option.map_eq_some_iff.mp hs.zones_eq
    rw [Session.zones, h.device_eq, hmemory]
    rfl
  · rw [h.device_eq]
    exact hs.numQps_le
  · obtain ⟨opPool, mbufPool, hin⟩ := hs.inOrder queuePairId
    rw [h.machineOf_eq]
    exact ⟨opPool, mbufPool, hin.withShared⟩
  · rw [h.device_eq] at hle
    rw [h.lanes_eq]
    exact hs.absent queuePairId hle

/-- **Frame rule.** -/
theorem Separate.elsewhere (hs : Separate cfg zones s) (h : Elsewhere kept s s')
    (hkept : ∀ queuePairId, ∀ b ∈ (s.machineOf cfg zones queuePairId).footprint.blocks, kept b) :
    Moved cfg zones (zones.withPool s'.pool) s s' none := by
  have hservice := hs.inService.elsewhere h
  have hgrows := h.zones_grow hs.inService.zones_eq
  have hothers : ∀ queuePairId, (s.machineOf cfg zones queuePairId).result = none →
      (s.machineOf cfg zones queuePairId).Disturbed
        (s'.machineOf cfg (zones.withPool s'.pool) queuePairId) := by
    intro queuePairId hnone
    have huse := (hs.party queuePairId hnone).inUse hs.inService
    rw [h.machineOf_eq]
    exact ⟨rfl, hservice.wellFormed, fun z hz => (huse z hz).1,
      fun z hz => hservice.size_eq (huse z hz).1,
      fun b hb => (hs.settled queuePairId b hb).withPool hgrows,
      fun b hb => h.agree b (hkept queuePairId b hb)⟩
  refine ⟨⟨hservice, fun queuePairId hnone => ?_⟩, fun queuePairId _ => h.machineOf_eq queuePairId,
    fun queuePairId _ => hothers queuePairId⟩
  rw [h.machineOf_eq, withShared_result] at hnone
  refine (hs.party queuePairId hnone).disturbed (hothers queuePairId hnone) ?_ hnone
  intro b hb other hne
  rw [h.machineOf_eq]
  exact (hs.party queuePairId hnone).unshared b hb other hne

theorem Held.elsewhere {memory : Memory} (hheld : Held blocks memory cfg zones s)
    (hzones : s.zones = some zones) (h : Elsewhere kept s s') (hkept : ∀ b ∈ blocks, kept b) :
    Held blocks memory cfg (zones.withPool s'.pool) s' := by
  refine ⟨fun b hb => (h.agree b (hkept b hb)).trans (hheld.agree b hb),
    fun b hb => (hheld.settled b hb).withPool (h.zones_grow hzones), fun queuePairId b hw => ?_⟩
  rw [h.machineOf_eq] at hw
  exact hheld.spared queuePairId b hw

theorem Stored.elsewhere (hstored : Stored cfg zones s v contents)
    (hzones : s.zones = some zones) (h : Elsewhere kept s s') (hkept : ∀ b ∈ blocksOf v, kept b) :
    Stored cfg (zones.withPool s'.pool) s' v contents :=
  (hstored.held.elsewhere hzones h hkept).stored hstored.contents_eq

/-- The buffers of a result lie in taken memzones. -/
theorem Result.relies {hosts : Set Block} (hresult : Result cfg zones s v contents) {b : Block}
    (hb : b ∈ blocksOf v) : Relies zones hosts b := by
  obtain ⟨buffer, hbuffer, rfl⟩ := List.mem_map.mp hb
  obtain ⟨z, hz⟩ := hresult.buffers buffer hbuffer
  refine Or.inr ⟨z, hresult.occupied z ?_, by rw [hz]; rfl⟩
  exact List.mem_filterMap.mpr ⟨buffer, hbuffer, by simp [Buffer.memzone, hz, memzoneAddr]⟩

theorem Result.elsewhere {hosts : Set Block} (hresult : Result cfg zones s v contents)
    (hzones : s.zones = some zones) (h : Elsewhere (Relies zones hosts) s s') :
    Result cfg (zones.withPool s'.pool) s' v contents :=
  ⟨hresult.toStored.elsewhere hzones h fun _ hb => hresult.relies hb, hresult.buffers,
    hresult.nodup, hresult.occupied⟩

end Elsewhere

/-! ## What a device does to the others -/

section Effect

variable {s s' : Session} {cfg : Configuration} {zones later : Zones} {debug : Bool}
  {queuePairId : Nat} {env : Env}

/-- A device reserves memzones that have been nobody's, and writes blocks that
its calls write. -/
structure Effect (zones later : Zones) (writes : Set Block) (s s' : Session) : Prop where
  since : zones.Since later
  zones_eq : s.zones = some zones
  later_eq : s'.zones = some later
  confined : ∀ b, b ∉ writes → s'.memory b = s.memory b

theorem exists_machineOf {st : Machine} (hst : s.machine queuePairId = some st) :
    ∃ cfg zones, s.device.configuration = some cfg ∧ s.zones = some zones ∧
      st = s.machineOf cfg zones queuePairId := by
  unfold machine at hst
  split at hst
  · next cfg deviceMemory hcfg hmemory =>
      refine ⟨cfg, ⟨deviceMemory, s.pool⟩, hcfg, ?_, (Option.some.inj hst).symm⟩
      rw [zones, hmemory]
      rfl
  · cases hst

/-- The beginning of a call changes nothing but the call. -/
theorem call_effect {request : Request} (writes : Set Block) (hzones : s.zones = some zones)
    (hlater : (s.act debug (.call queuePairId request)).zones = some zones) :
    Effect zones zones writes s (s.act debug (.call queuePairId request)) := by
  refine ⟨.refl _, hzones, hlater, fun b _ => ?_⟩
  dsimp only [act, onQueuePair]
  split
  · rfl
  · next st hst =>
      obtain ⟨cfg, zones', -, -, rfl⟩ := exists_machineOf hst
      exact congrFun (receive_memory _ _) b

/-- **What a step does.** -/
theorem Separate.step_effect (h : Separate cfg zones s)
    (hlater : Separate cfg later (s.act debug (.step queuePairId env)))
    (hadvances : Advances debug (s.machineOf cfg zones queuePairId) env
      ((s.act debug (.step queuePairId env)).machineOf cfg later queuePairId)) :
    Effect zones later {b | b ∈ (s.machineOf cfg zones queuePairId).footprint.writes} s
      (s.act debug (.step queuePairId env)) := by
  have hwf : (s.machineOf cfg zones queuePairId).zones.WellFormed
      (s.machineOf cfg zones queuePairId).cfg.compressedSegSize := h.inService.wellFormed
  refine ⟨hadvances.continues.since hadvances.ordered hwf, h.inService.zones_eq,
    hlater.inService.zones_eq, ?_⟩
  exact hadvances.continues.confines hadvances.ordered fun hnone =>
    (h.party queuePairId hnone).targeted

/-- The memzones of a device. -/
def Holds (s : Session) (z : Nat) : Prop :=
  ∃ deviceMemory ∈ s.device.deviceMemory, deviceMemory.Holds z

theorem holds_iff (hzones : s.zones = some zones) {z : Nat} :
    s.Holds z ↔ zones.device.Holds z := by
  obtain ⟨deviceMemory, hmemory, rfl⟩ := Option.map_eq_some_iff.mp hzones
  simp [Holds, hmemory]

theorem map_zones (s : Session) : s.zones.map Zones.device = s.device.deviceMemory := by
  rw [Session.zones, Option.map_map]
  exact congrFun Option.map_id s.device.deviceMemory

theorem pool_eq (hzones : s.zones = some zones) : s.pool = zones.pool := by
  obtain ⟨deviceMemory, -, rfl⟩ := Option.map_eq_some_iff.mp hzones
  rfl

theorem InService.mem_allocated (h : InService cfg zones s) {z : Nat} (hz : s.Holds z) :
    z ∈ s.pool.allocated := by
  obtain ⟨base, ever, howns⟩ := h.owned
  rw [pool_eq h.zones_eq]
  exact howns.mem_allocated ((howns.held_iff z).mp ((holds_iff h.zones_eq).mp hz))

theorem Effect.holds {writes : Set Block} (h : Effect zones later writes s s') {z : Nat}
    (hz : s'.Holds z) : s.Holds z ∨ z ∉ s.pool.allocated := by
  rw [holds_iff h.zones_eq, pool_eq h.zones_eq]
  exact h.since.holds ((holds_iff h.later_eq).mp hz)

theorem Effect.grows {writes : Set Block} (h : Effect zones later writes s s') :
    s.pool.Grows s'.pool := by
  rw [pool_eq h.zones_eq, pool_eq h.later_eq]
  exact h.since.grows

/-- What has become of a device, as the rest of the program sees it. -/
structure Proceeds (s s' : Session) : Prop where
  state_eq : s'.device.state = s.device.state
  workerLcores_eq : s'.device.workerLcores = s.device.workerLcores
  deviceId_eq : s'.device.deviceId = s.device.deviceId
  grows : s.pool.Grows s'.pool
  holds : ∀ z, s'.Holds z → s.Holds z ∨ z ∉ s.pool.allocated

theorem Proceeds.refl (s : Session) : s.Proceeds s :=
  ⟨rfl, rfl, rfl, .refl _, fun _ => Or.inl⟩

theorem Proceeds.trans {s'' : Session} (h : s.Proceeds s') (h' : s'.Proceeds s'') :
    s.Proceeds s'' := by
  refine ⟨h'.state_eq.trans h.state_eq, h'.workerLcores_eq.trans h.workerLcores_eq,
    h'.deviceId_eq.trans h.deviceId_eq, h.grows.trans h'.grows, fun z hz => ?_⟩
  rcases h'.holds z hz with hold | hnew
  · exact h.holds z hold
  · exact Or.inr fun hz => hnew (h.grows.allocated_subset z hz)

/-- An event of a call. -/
theorem Effect.proceeds {writes : Set Block} {event : Event}
    (h : Effect zones later writes s (s.act debug event))
    (hevent : ∀ attempt, event ≠ .initializeDevice attempt) : s.Proceeds (s.act debug event) :=
  have heq := act_device_eq debug s hevent
  ⟨heq.1, heq.2.1, heq.2.2, h.grows, fun _ => h.holds⟩

/-- `Recycle` moves memzones from one set of the device to the other one. -/
theorem InService.recycle_keeps (h : InService cfg zones s) (buffers : List Buffer) :
    let s' := s.act debug (.recycle buffers)
    s'.memory = s.memory ∧ s'.pool = s.pool ∧ s'.numMaybeNotOk = s.numMaybeNotOk ∧
      ∀ z, s'.Holds z → s.Holds z := by
  intro s'
  obtain ⟨zs, -, hlisted, he⟩ := Zones.recycle_eq h.tracked (buffers.map Buffer.data)
  have hs' : s' = { s with
      device := { s.device with deviceMemory := some (zones.pushed zs).device }
      pool := (zones.pushed zs).pool } := by
    show s.act debug (.recycle buffers) = _
    dsimp only [Session.act]
    rw [h.zones_eq]
    dsimp only
    rw [he]
  rw [hs']
  refine ⟨rfl, (pool_eq h.zones_eq).symm, rfl, fun z hz => ?_⟩
  obtain ⟨deviceMemory, hmemory, hz⟩ := hz
  obtain rfl : (zones.pushed zs).device = deviceMemory := Option.some.inj hmemory
  rw [holds_iff h.zones_eq]
  rcases hz with hfree | hocc
  · rcases List.mem_append.mp hfree with hmem | hold
    · have hz : z ∈ zones.listed (buffers.map Buffer.data) := hlisted ▸ List.mem_toFinset.mpr hmem
      exact Or.inr (Zones.mem_listed.mp hz).1
    · exact Or.inl hold
  · exact Or.inr (Finset.mem_sdiff.mp hocc).1

theorem InService.recycle_proceeds (h : InService cfg zones s) (buffers : List Buffer) :
    s.Proceeds (s.act debug (.recycle buffers)) := by
  obtain ⟨-, hpool, -, hholds⟩ := @InService.recycle_keeps s cfg zones debug h buffers
  obtain ⟨hstate, hlcores, hid⟩ := @act_device_eq (.recycle buffers) debug s (by simp)
  exact ⟨hstate, hlcores, hid, hpool ▸ .refl _, fun z hz => Or.inl (hholds z hz)⟩

end Effect

end Session

/-! ## The devices of a program -/

/-- What belongs to one device alone. -/
structure OwnState where
  device : CompressDevice
  lanes : Nat → Lane := fun _ => {}

/-- The devices of a program, with what they share. -/
structure Devices where
  memory : Memory
  /-- The `Rtememzone` pool. -/
  pool : MemzonePool
  /-- The static counter of `GetErrorCount`. -/
  numMaybeNotOk : Nat := 0
  own : Nat → OwnState

namespace Devices

/-- A device, with what it shares with the others. -/
def session (devices : Devices) (d : Nat) : Session where
  device := (devices.own d).device
  pool := devices.pool
  memory := devices.memory
  numMaybeNotOk := devices.numMaybeNotOk
  lanes := (devices.own d).lanes

instance : CoeFun Devices fun _ => Nat → Session :=
  ⟨session⟩

/-- Work on one device. -/
def set (devices : Devices) (d : Nat) (s : Session) : Devices where
  memory := s.memory
  pool := s.pool
  numMaybeNotOk := s.numMaybeNotOk
  own := Function.update devices.own d ⟨s.device, s.lanes⟩

/-- No memzone belongs to two of the first `n` devices. -/
def Apart (devices : Devices) (n : Nat) : Prop :=
  ∀ d < n, ∀ d' < n, d ≠ d' → ∀ z, (devices d).Holds z → ¬ (devices d').Holds z

variable {devices : Devices} {d d' n : Nat} {s : Session}

@[simp] theorem set_self (devices : Devices) (d : Nat) (s : Session) : devices.set d s d = s := by
  simp [set, session]

theorem set_of_ne (hne : d' ≠ d) :
    devices.set d s d' =
      { devices d' with
        memory := s.memory
        pool := s.pool
        numMaybeNotOk := s.numMaybeNotOk } := by
  simp [set, session, Function.update_of_ne hne]

/-- Work that leaves alone what is shared. -/
theorem set_of_shared (hne : d' ≠ d) (hmemory : s.memory = devices.memory)
    (hpool : s.pool = devices.pool) (hcounter : s.numMaybeNotOk = devices.numMaybeNotOk) :
    devices.set d s d' = devices d' := by
  rw [set_of_ne hne, hmemory, hpool, hcounter]
  rfl

/-- A call on another device sees no more of it than what they share. -/
theorem machine_set_of_ne {queuePairId : Nat} {st : Machine} (hne : d' ≠ d)
    (hst : (devices d').machine queuePairId = some st) :
    ∃ zones memory numMaybeNotOk, (devices.set d s d').machine queuePairId =
      some (st.withShared zones memory numMaybeNotOk) := by
  obtain ⟨cfg, zones, hcfg, hzones, rfl⟩ := Session.exists_machineOf hst
  obtain ⟨deviceMemory, hmemory, rfl⟩ := Option.map_eq_some_iff.mp hzones
  rw [set_of_ne hne]
  refine ⟨⟨deviceMemory, s.pool⟩, s.memory, s.numMaybeNotOk, ?_⟩
  unfold Session.machine
  rw [hcfg, hmemory]
  rfl

/-- **Frame rule**: work on one device is work elsewhere for the others. -/
theorem set_elsewhere {zones later : Zones} {writes : Set Block} {kept : Block → Prop}
    (h : Session.Effect zones later writes (devices d) s) (hne : d' ≠ d)
    (hkept : ∀ b, kept b → b ∉ writes) :
    Session.Elsewhere kept (devices d') (devices.set d s d') := by
  rw [set_of_ne hne]
  exact ⟨rfl, rfl, h.grows, fun b hb => h.confined b (hkept b hb)⟩

/-- **New memzones belong to one device.** -/
theorem Apart.set (h : devices.Apart n) (hd : d < n)
    (hallocated : ∀ d' < n, ∀ z, (devices d').Holds z → z ∈ devices.pool.allocated)
    (hholds : ∀ z, s.Holds z → (devices d).Holds z ∨ z ∉ devices.pool.allocated) :
    (devices.set d s).Apart n := by
  -- what another device holds is not new
  have hother : ∀ d' < n, d' ≠ d → ∀ z, s.Holds z → ¬ (devices d').Holds z := by
    intro d' hd' hne z hz hz'
    rcases hholds z hz with hold | hnew
    · exact h d hd d' hd' (Ne.symm hne) z hold hz'
    · exact hnew (hallocated d' hd' z hz')
  intro p hp q hq hne z hz hz'
  by_cases hpd : p = d
  · subst hpd
    rw [set_self] at hz
    rw [set_of_ne (Ne.symm hne)] at hz'
    exact hother q hq (Ne.symm hne) z hz hz'
  · rw [set_of_ne hpd] at hz
    by_cases hqd : q = d
    · subst hqd
      rw [set_self] at hz'
      exact hother p hp hpd z hz' hz
    · rw [set_of_ne hqd] at hz'
      exact h p hp q hq hne z hz hz'

end Devices

end Bitar
