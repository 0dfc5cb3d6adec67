import Bitar.Sessions
import Mathlib.Data.Finset.Sort

/-!
# The accounts of the pool

The size of a memzone is not stored with it.  The destructor of `DeviceMemory`
frees every memzone with the segment size of the configuration in force, which
may not be the size it was reserved with.

The ledger of a session lists what the device reserves from the `Rtememzone`
pool and what it frees, each with the size that the pool is told.

**Results.**
* `Accounted.act`: what one event preserves.
* `allocation_accounting`: as long as the segment size stays while memzones are
  held, every memzone is freed once and with its size.
-/

namespace Bitar

namespace MemzonePool

/-- The memzones reserved between two states of the pool. -/
def added (pool pool' : MemzonePool) : List Nat :=
  (pool'.allocated \ pool.allocated).sort (· ≤ ·)

theorem added_perm {size : Nat} {base pool pool' : MemzonePool} {ever new : List Nat}
    (h : Reserved size ever base pool) (h' : Reserved size (ever ++ new) base pool') :
    (added pool pool').Perm new := by
  have hnd := List.nodup_append.mp h'.nodup
  refine (List.perm_ext_iff_of_nodup (Finset.sort_nodup _ _) hnd.2.1).mpr fun z => ?_
  simp only [Finset.mem_sort, Finset.mem_sdiff, h'.allocated_eq, h.allocated_eq,
    Finset.mem_union, List.mem_toFinset, List.mem_append]
  have hfresh := h'.fresh z
  have hdisj := hnd.2.2
  constructor
  · rintro ⟨hz | hz | hz, hn⟩
    · exact absurd (Or.inl hz) hn
    · exact absurd (Or.inr hz) hn
    · exact hz
  · intro hz
    refine ⟨Or.inr (Or.inr hz), ?_⟩
    rintro (hb | he)
    · exact hfresh (List.mem_append_right _ hz) hb
    · exact hdisj z he z hz rfl

end MemzonePool

namespace Zones

variable {size : Nat} {base : MemzonePool} {zones : Zones}

/-- Nothing held has any size. -/
theorem Owns.resize (h : Owns size base zones []) (size' : Nat) : Owns size' base zones [] := by
  refine ⟨⟨List.nodup_nil, by simp, h.reserved.allocated_eq, by simp, h.reserved.size_old, ?_⟩,
    h.nodup, h.disjoint, h.held_iff⟩
  rw [h.reserved.bytes_eq]
  simp

theorem Owns.traffic {ever : List Nat} {later : Zones} (h : Owns size base zones ever)
    (ht : Traffic size zones later) : ∃ new, Owns size base later (ever ++ new) := by
  obtain ⟨ops, rfl⟩ := ht
  exact ⟨_, h.run ops⟩

end Zones

namespace Session

/-! ## The ledger -/

/-- What the pool is told about a memzone and its size. -/
inductive LedgerEntry
  | reserve (memzone : Nat × Nat)
  | free (memzone : Nat × Nat)
deriving DecidableEq, Repr

/-- The memzones of the device memory, when it is destroyed; `order` is the order
in which it finds the taken ones. -/
def freed (s : Session) (order : List Nat) : List Nat :=
  s.zones.elim [] fun zones => zones.freed order

/-- The pool after the device memory has been destroyed under a segment size. -/
def destroyed (s : Session) (compressedSegSize : Nat) (order : List Nat) : MemzonePool :=
  s.zones.elim s.pool fun zones => zones.destroy compressedSegSize order

def frees (size : Nat) (zs : List Nat) : List LedgerEntry :=
  (zs.map fun z => (z, size)).map .free

def reservations (pool pool' : MemzonePool) : List LedgerEntry :=
  ((pool.added pool').map fun z => (z, pool'.size z)).map .reserve

/-- The configuration for which `Initialize` goes on to replace the device memory. -/
def passes (s : Session) (attempt : Attempt) : Option Configuration :=
  if attempt.configuration.typeName = kBlueFieldConfigurationTypeName then
    match validateConfiguration attempt.fuel s.device.deviceId s.device.numQps attempt.info
        attempt.configuration with
    | none => none
    | some (cfg, status) => if status.code = .ok then some cfg else none
  else none

/-- What an event adds to the ledger.  `Initialize` destroys the old device memory
before the new one reserves. -/
def ledger (debug : Bool) (s : Session) : Event → List LedgerEntry
  | .initializeDevice attempt =>
      (s.passes attempt).elim [] fun cfg =>
        frees cfg.compressedSegSize (s.freed attempt.order) ++
          reservations (s.destroyed cfg.compressedSegSize attempt.order)
            (s.act debug (.initializeDevice attempt)).pool
  | event => reservations s.pool (s.act debug event).pool

/-- What the destruction of the device adds. -/
def closing (s : Session) (order : List Nat) : List LedgerEntry :=
  s.device.configuration.elim [] fun cfg => frees cfg.compressedSegSize (s.freed order)

/-- The pool after the destruction of the device. -/
def close (s : Session) (order : List Nat) : MemzonePool :=
  s.device.configuration.elim s.pool fun cfg => s.destroyed cfg.compressedSegSize order

/-- `order` lists the taken memzones. -/
def Lists (s : Session) (order : List Nat) : Prop :=
  order.Nodup ∧ order.toFinset = s.zones.elim ∅ fun zones => zones.device.occupiedMemzones

/-- A device memory that is destroyed finds its taken memzones. -/
def FindsTaken (s : Session) : Event → Prop
  | .initializeDevice attempt => s.Lists attempt.order
  | _ => True

/-- A configuration that is put in force has the segment size of the one before,
unless no memzones are held. -/
def KeepsSize (s : Session) : Event → Prop
  | .initializeDevice attempt =>
      attempt.configuration.typeName ≠ kBlueFieldConfigurationTypeName ∨
      s.zones.elim 0 Zones.held = 0 ∨
      s.device.configuration.map Configuration.compressedSegSize =
        some attempt.configuration.compressedSegSize
  | _ => True

section Act

variable {s : Session} {size : Nat}

/-- What `Initialize` does to the configuration and to the memzones. -/
theorem act_initialize (debug : Bool) (s : Session) (attempt : Attempt) :
    let after := s.act debug (.initializeDevice attempt)
    (s.passes attempt = none ∧ after.device.configuration = s.device.configuration ∧
      after.zones = s.zones ∧ after.pool = s.pool) ∨
    (s.passes attempt = none ∧
      attempt.configuration.typeName = kBlueFieldConfigurationTypeName ∧
      (∃ cfg, after.device.configuration = some cfg ∧
        cfg.compressedSegSize = attempt.configuration.compressedSegSize) ∧
      after.zones = s.zones ∧ after.pool = s.pool) ∨
    (attempt.configuration.typeName = kBlueFieldConfigurationTypeName ∧
      ∃ cfg, s.passes attempt = some cfg ∧ after.device.configuration = some cfg ∧
        cfg.compressedSegSize = attempt.configuration.compressedSegSize ∧
        after.zones = some (Zones.preallocate
          ⟨.new attempt.self, s.destroyed cfg.compressedSegSize attempt.order⟩
          s.device.deviceId.toNat cfg attempt.memzones).1) := by
  dsimp only [act]
  cases hinit : s.device.initializeDevice s.pool attempt with
  | none =>
      obtain ⟨htype, hvalid⟩ := CompressDevice.initialize_eq_none hinit
      refine Or.inl ⟨?_, rfl, rfl, rfl⟩
      unfold passes
      rw [if_pos htype, hvalid]
  | some out =>
      dsimp only
      rcases CompressDevice.initialize_cases hinit with
        ⟨htype, hdevice, hpool, -⟩ | ⟨htype, cfg, status, hvalid, rfl⟩
      · refine Or.inl ⟨?_, by rw [hdevice], ?_, hpool⟩
        · unfold passes
          exact if_neg htype
        · unfold zones
          rw [hdevice, hpool]
      · have hsize := validateConfiguration_segSize hvalid
        have hpasses : s.passes attempt = if status.code = .ok then some cfg else none := by
          unfold passes
          rw [if_pos htype, hvalid]
        by_cases hok : status.code = .ok
        · obtain ⟨⟨state, hdevice, -⟩, hpool, -⟩ :=
            @CompressDevice.initializeWith_valid s.device s.pool attempt cfg status hok
          refine Or.inr (Or.inr ⟨htype, cfg, by rw [hpasses, if_pos hok],
              by rw [hdevice], hsize, ?_⟩)
          unfold zones
          rw [hdevice, hpool]
          unfold CompressDevice.preallocatedMemory CompressDevice.newDeviceMemory destroyed zones
          cases s.device.deviceMemory <;> rfl
        · rw [CompressDevice.initializeWith_invalid hok]
          exact Or.inr (Or.inl ⟨by rw [hpasses, if_neg hok], htype, ⟨cfg, rfl, hsize⟩, rfl, rfl⟩)

/-- Work on a queue pair takes and puts, with the segment size in force. -/
theorem onQueuePair_zones {f : Machine → Machine}
    (hf : ∀ st, Zones.Traffic st.cfg.compressedSegSize st.zones (f st).zones) (queuePairId : Nat) :
    let after := s.onQueuePair queuePairId f
    after.device.configuration = s.device.configuration ∧
    ((after.zones = s.zones ∧ after.pool = s.pool) ∨
      ∃ cfg zones later, s.device.configuration = some cfg ∧ s.zones = some zones ∧
        after.zones = some later ∧ Zones.Traffic cfg.compressedSegSize zones later) := by
  intro after
  cases hmachine : s.machine queuePairId with
  | none =>
      have hafter : after = s := by
        dsimp only [after, onQueuePair]
        rw [hmachine]
      rw [hafter]
      exact ⟨rfl, Or.inl ⟨rfl, rfl⟩⟩
  | some st =>
      have hafter : after = s.store queuePairId (f st) := by
        dsimp only [after, onQueuePair]
        rw [hmachine]
      rw [hafter]
      refine ⟨rfl, Or.inr ?_⟩
      unfold machine at hmachine
      split at hmachine
      · next cfg deviceMemory hcfg hmemory =>
          have hst := hf st
          obtain rfl := Option.some.inj hmachine
          refine ⟨cfg, _, _, hcfg, ?_, rfl, hst⟩
          unfold zones
          rw [hmemory]
          rfl
      · simp at hmachine

/-- Every other event takes and puts at most. -/
theorem act_zones (debug : Bool) (s : Session) {event : Event}
    (hevent : ∀ attempt, event ≠ .initializeDevice attempt) :
    let after := s.act debug event
    after.device.configuration = s.device.configuration ∧
    ((after.zones = s.zones ∧ after.pool = s.pool) ∨
      ∃ zones later, s.zones = some zones ∧ after.zones = some later ∧
        ∀ size, (∀ cfg, s.device.configuration = some cfg → cfg.compressedSegSize = size) →
          Zones.Traffic size zones later) := by
  have hqueuePair : ∀ (queuePairId : Nat) (f : Machine → Machine),
      (∀ st, Zones.Traffic st.cfg.compressedSegSize st.zones (f st).zones) →
      let after := s.onQueuePair queuePairId f
      after.device.configuration = s.device.configuration ∧
      ((after.zones = s.zones ∧ after.pool = s.pool) ∨
        ∃ zones later, s.zones = some zones ∧ after.zones = some later ∧
          ∀ size, (∀ cfg, s.device.configuration = some cfg → cfg.compressedSegSize = size) →
            Zones.Traffic size zones later) := by
    intro queuePairId f hf
    obtain ⟨hcfg, h | ⟨cfg, zones, later, hsome, hz, hl, ht⟩⟩ := onQueuePair_zones hf queuePairId
    · exact ⟨hcfg, Or.inl h⟩
    · refine ⟨hcfg, Or.inr ⟨zones, later, hz, hl, fun size hsize => ?_⟩⟩
      rw [← hsize cfg hsome]
      exact ht
  cases event with
  | initializeDevice attempt => exact absurd rfl (hevent attempt)
  | call queuePairId request =>
      refine hqueuePair queuePairId _ fun st => ?_
      rw [Machine.receive_zones]
      exact .refl _ _
  | step queuePairId env =>
      exact hqueuePair queuePairId _ fun st => Machine.step_traffic debug st env
  | recycle buffers =>
      dsimp only [act]
      cases hzones : s.zones with
      | none => exact ⟨rfl, Or.inl ⟨hzones, rfl⟩⟩
      | some zones =>
          exact ⟨rfl, Or.inr ⟨zones, _, rfl, rfl, fun size _ => Zones.recycle_traffic size zones _⟩⟩

end Act

/-! ## The invariant -/

/-- What a memzone is told with, counted in a list of memzones of one size. -/
theorem count_frees (size : Nat) (zs : List Nat) (p : Nat × Nat) :
    (frees size zs).count (.free p) = (zs.map fun z => (z, size)).count p ∧
      (frees size zs).count (.reserve p) = 0 := by
  refine ⟨List.count_map_of_injective _ _ (fun a b h => LedgerEntry.free.inj h) p, ?_⟩
  refine List.count_eq_zero.mpr fun h => ?_
  obtain ⟨q, -, hq⟩ := List.mem_map.mp h
  simp at hq

theorem count_reservations {size : Nat} {base pool pool' : MemzonePool} {ever new : List Nat}
    (h : MemzonePool.Reserved size ever base pool)
    (h' : MemzonePool.Reserved size (ever ++ new) base pool') (p : Nat × Nat) :
    (reservations pool pool').count (.reserve p) = (new.map fun z => (z, size)).count p ∧
      (reservations pool pool').count (.free p) = 0 := by
  have hperm := MemzonePool.added_perm h h'
  have hsizes : (pool.added pool').map (fun z => (z, pool'.size z)) =
      (pool.added pool').map fun z => (z, size) := by
    refine List.map_congr_left fun z hz => ?_
    rw [h'.size_new z (List.mem_append_right _ (hperm.mem_iff.mp hz))]
  unfold reservations
  rw [hsizes]
  refine ⟨?_, ?_⟩
  · rw [List.count_map_of_injective _ _ (fun a b h => LedgerEntry.reserve.inj h) p]
    exact (hperm.map _).count_eq p
  · refine List.count_eq_zero.mpr fun h => ?_
    obtain ⟨q, -, hq⟩ := List.mem_map.mp h
    simp at hq

/-- The pool is `first` with the memzones of `ever`, all of one size, which the
device memory holds; the ledger says so too. -/
structure Accounted (first : MemzonePool) (log : List LedgerEntry) (s : Session)
    (base : MemzonePool) (size : Nat) (ever : List Nat) : Prop where
  allocated_eq : base.allocated = first.allocated
  bytes_eq : base.bytesAllocated = first.bytesAllocated
  owns : ∀ zones, s.zones = some zones → Zones.Owns size base zones ever
  pool_eq : s.zones = none → s.pool = base ∧ ever = []
  configured : s.device.configuration = none → s.zones = none
  balance : ∀ p, log.count (.reserve p) =
    log.count (.free p) + (ever.map fun z => (z, size)).count p

/-- The segment size in force. -/
def InForce (s : Session) (size : Nat) : Prop :=
  ∀ cfg, s.device.configuration = some cfg → cfg.compressedSegSize = size

section Accounted

variable {first base : MemzonePool} {log : List LedgerEntry} {s : Session} {size : Nat}
  {ever : List Nat}

theorem zones_pool {zones : Zones} (h : s.zones = some zones) : zones.pool = s.pool := by
  obtain ⟨deviceMemory, -, rfl⟩ := Option.map_eq_some_iff.mp h
  rfl

theorem Accounted.reserved (h : Accounted first log s base size ever) :
    MemzonePool.Reserved size ever base s.pool := by
  cases hzones : s.zones with
  | none =>
      obtain ⟨hpool, rfl⟩ := h.pool_eq hzones
      rw [hpool]
      exact .refl base
  | some zones =>
      rw [← zones_pool hzones]
      exact (h.owns zones hzones).reserved

theorem Accounted.held_eq (h : Accounted first log s base size ever) :
    s.zones.elim 0 Zones.held = ever.length := by
  cases hzones : s.zones with
  | none => rw [(h.pool_eq hzones).2]; rfl
  | some zones => exact (h.owns zones hzones).held_eq

/-- The accounts depend on the pool and the device memory alone. -/
theorem Accounted.frame (h : Accounted first log s base size ever) {s' : Session}
    (hzones : s'.zones = s.zones) (hpool : s'.pool = s.pool)
    (hconfigured : s'.device.configuration = none → s.device.configuration = none) :
    Accounted first log s' base size ever := by
  refine ⟨h.allocated_eq, h.bytes_eq, ?_, ?_, fun hnone => ?_, h.balance⟩
  · rw [hzones]
    exact h.owns
  · rw [hzones, hpool]
    exact h.pool_eq
  · rw [hzones]
    exact h.configured (hconfigured hnone)

/-- The accounts of a device with a device memory. -/
theorem accounted_of_owns {zones : Zones} (hallocated : base.allocated = first.allocated)
    (hbytes : base.bytesAllocated = first.bytesAllocated) (hzones : s.zones = some zones)
    (howns : Zones.Owns size base zones ever) (hconfigured : s.device.configuration ≠ none)
    (hbalance : ∀ p, log.count (.reserve p) =
      log.count (.free p) + (ever.map fun z => (z, size)).count p) :
    Accounted first log s base size ever := by
  refine ⟨hallocated, hbytes, fun zones' hzones' => ?_, fun hnone => ?_,
    fun hnone => absurd hnone hconfigured, hbalance⟩
  · rw [hzones] at hzones'
    exact Option.some.inj hzones' ▸ howns
  · rw [hzones] at hnone
    simp at hnone

theorem InForce.congr (h : s.InForce size) {s' : Session}
    (hcfg : s'.device.configuration = s.device.configuration) : s'.InForce size := by
  unfold InForce
  rw [hcfg]
  exact h

theorem inForce_of_some {cfg : Configuration} (hcfg : s.device.configuration = some cfg)
    (hsize : cfg.compressedSegSize = size) : s.InForce size := by
  intro cfg' hcfg'
  rw [hcfg, Option.some.injEq] at hcfg'
  exact hcfg' ▸ hsize

/-- The accounts under the segment size of a new configuration. -/
theorem Accounted.resize (h : Accounted first log s base size ever) (hforce : s.InForce size)
    {attempt : Attempt}
    (htype : attempt.configuration.typeName = kBlueFieldConfigurationTypeName)
    (hkeeps : s.KeepsSize (.initializeDevice attempt)) :
    Accounted first log s base attempt.configuration.compressedSegSize ever := by
  rcases hkeeps with hne | hheld | hsize
  · exact absurd htype hne
  · rw [h.held_eq] at hheld
    obtain rfl := List.eq_nil_of_length_eq_zero hheld
    exact ⟨h.allocated_eq, h.bytes_eq, fun zones hzones => (h.owns zones hzones).resize _,
      h.pool_eq,
      h.configured, h.balance⟩
  · obtain ⟨cfg, hcfg, he⟩ := Option.map_eq_some_iff.mp hsize
    rwa [← he, hforce cfg hcfg]

/-- The destruction of the device memory settles the accounts. -/
theorem Accounted.destroyed (h : Accounted first log s base size ever) {order : List Nat}
    (hlists : s.Lists order) :
    (s.destroyed size order).allocated = first.allocated ∧
      (s.destroyed size order).bytesAllocated = first.bytesAllocated ∧
      ∀ p, (log ++ frees size (s.freed order)).count (.reserve p) =
        (log ++ frees size (s.freed order)).count (.free p) := by
  have hpool : (s.destroyed size order).allocated = base.allocated ∧
      (s.destroyed size order).bytesAllocated = base.bytesAllocated ∧
      (s.freed order).Perm ever := by
    unfold Session.destroyed freed
    cases hzones : s.zones with
    | none =>
        obtain ⟨hpool, rfl⟩ := h.pool_eq hzones
        exact ⟨congrArg _ hpool, congrArg _ hpool, .refl _⟩
    | some zones =>
        have howns := h.owns zones hzones
        obtain ⟨hnd, horder⟩ := hlists
        rw [hzones] at horder
        have hperm := howns.freed_perm hnd fun z => by rw [← List.mem_toFinset, horder]; rfl
        obtain ⟨hallocated, hbytes⟩ := Zones.foldl_free (zones.freed order) zones.pool
          (howns.reserved.perm hperm.symm)
        exact ⟨hallocated, hbytes, hperm⟩
  obtain ⟨hallocated, hbytes, hperm⟩ := hpool
  refine ⟨hallocated.trans h.allocated_eq, hbytes.trans h.bytes_eq, fun p => ?_⟩
  rw [List.count_append, List.count_append, (count_frees size _ p).1, (count_frees size _ p).2,
    h.balance p, (hperm.map _).count_eq p]
  omega

/-- Other events than `Initialize`. -/
theorem Accounted.act_other (h : Accounted first log s base size ever) (hforce : s.InForce size)
    (debug : Bool) {event : Event} (hevent : ∀ attempt, event ≠ .initializeDevice attempt) :
    ∃ ever', Accounted first (log ++ s.ledger debug event) (s.act debug event) base size ever' ∧
      (s.act debug event).InForce size := by
  have hledger : s.ledger debug event = reservations s.pool (s.act debug event).pool := by
    cases event with
    | initializeDevice attempt => exact absurd rfl (hevent attempt)
    | call queuePairId request => rfl
    | step queuePairId env => rfl
    | recycle buffers => rfl
  obtain ⟨hcfg, hsame | ⟨zones, later, hzones, hlater, htraffic⟩⟩ := act_zones debug s hevent
  · obtain ⟨hzones, hpool⟩ := hsame
    have hnothing : reservations s.pool s.pool = [] := by
      unfold reservations MemzonePool.added
      simp
    rw [hledger, hpool, hnothing, List.append_nil]
    exact ⟨ever, h.frame hzones hpool fun hnone => hcfg ▸ hnone, hforce.congr hcfg⟩
  · obtain ⟨new, howns⟩ := (h.owns zones hzones).traffic (htraffic size hforce)
    have hpool : (s.act debug event).pool = later.pool := (zones_pool hlater).symm
    refine ⟨ever ++ new, accounted_of_owns h.allocated_eq h.bytes_eq hlater howns (fun hnone => ?_)
      fun p => ?_, hforce.congr hcfg⟩
    · rw [hcfg] at hnone
      rw [h.configured hnone] at hzones
      simp at hzones
    · obtain ⟨hr, hf⟩ := count_reservations h.reserved howns.reserved p
      rw [hledger, hpool, List.count_append, List.count_append, hr, hf, h.balance p,
        List.map_append,
        List.count_append]
      omega

theorem Accounted.act_initialize (h : Accounted first log s base size ever)
    (hforce : s.InForce size) (debug : Bool) {attempt : Attempt}
    (hlists : s.Lists attempt.order) (hkeeps : s.KeepsSize (.initializeDevice attempt)) :
    ∃ base' size' ever',
      Accounted first (log ++ s.ledger debug (.initializeDevice attempt))
        (s.act debug (.initializeDevice attempt)) base' size' ever' ∧
      (s.act debug (.initializeDevice attempt)).InForce size' := by
  have hledger : s.ledger debug (.initializeDevice attempt) =
      (s.passes attempt).elim [] fun cfg =>
        frees cfg.compressedSegSize (s.freed attempt.order) ++
          reservations (s.destroyed cfg.compressedSegSize attempt.order)
            (s.act debug (.initializeDevice attempt)).pool := rfl
  rw [hledger]
  rcases Session.act_initialize debug s attempt with
    ⟨hpasses, hcfg, hzones, hpool⟩ | ⟨hpasses, htype, ⟨cfg, hcfg, hsize⟩, hzones, hpool⟩ |
    ⟨htype, cfg, hpasses, hcfg, hsize, hzones⟩
  · rw [hpasses, Option.elim_none, List.append_nil]
    exact ⟨base, size, ever, h.frame hzones hpool fun hnone => hcfg ▸ hnone, hforce.congr hcfg⟩
  · -- the configuration has failed the checks and is in force
    have h' := h.resize hforce htype hkeeps
    rw [hpasses, Option.elim_none, List.append_nil]
    refine ⟨base, _, ever, h'.frame hzones hpool fun hnone => ?_, inForce_of_some hcfg hsize⟩
    rw [hcfg] at hnone
    simp at hnone
  · -- the device memory has been replaced
    have h' := h.resize hforce htype hkeeps
    rw [← hsize] at h'
    obtain ⟨hallocated, hbytes, hbalance⟩ := h'.destroyed hlists
    have howns := Zones.preallocate_owns attempt.self s.device.deviceId.toNat
      (s.destroyed cfg.compressedSegSize attempt.order) cfg attempt.memzones
    set new := (Zones.preallocate
      ⟨.new attempt.self, s.destroyed cfg.compressedSegSize attempt.order⟩
      s.device.deviceId.toNat cfg attempt.memzones).1.device.memzonePool
    have hpool := zones_pool hzones
    rw [hpasses, Option.elim_some]
    refine ⟨s.destroyed cfg.compressedSegSize attempt.order, cfg.compressedSegSize, new,
      accounted_of_owns hallocated hbytes hzones howns (by rw [hcfg]; simp) fun p => ?_,
      inForce_of_some hcfg rfl⟩
    have hreserved := howns.reserved
    rw [hpool] at hreserved
    obtain ⟨hr, hf⟩ := @count_reservations cfg.compressedSegSize _ _ _ [] new (.refl _) hreserved p
    have hb := hbalance p
    simp only [List.count_append] at hb ⊢
    omega

/-- **Step lemma.** -/
theorem Accounted.act (h : Accounted first log s base size ever) (hforce : s.InForce size)
    (debug : Bool) {event : Event} (hfinds : s.FindsTaken event) (hkeeps : s.KeepsSize event) :
    ∃ base' size' ever',
      Accounted first (log ++ s.ledger debug event) (s.act debug event) base' size' ever' ∧
      (s.act debug event).InForce size' := by
  have hother : (∀ attempt, event ≠ .initializeDevice attempt) → _ := fun hevent =>
    h.act_other hforce debug hevent
  cases event with
  | initializeDevice attempt => exact h.act_initialize hforce debug hfinds hkeeps
  | call queuePairId request => exact ⟨base, size, hother (by simp)⟩
  | step queuePairId env => exact ⟨base, size, hother (by simp)⟩
  | recycle buffers => exact ⟨base, size, hother (by simp)⟩

/-- **Run lemma.** -/
theorem Accounted.run {debug : Bool} {events : List Event}
    (h : Accounted first log s base size ever) (hforce : s.InForce size)
    (hall : Runs.Along (Session.act debug) (fun s event => s.FindsTaken event ∧ s.KeepsSize event) s
      events) :
    ∃ base' size' ever',
      Accounted first (log ++ Runs.collect (Session.act debug) (ledger debug) s events)
        (Runs.run (Session.act debug) s events) base' size' ever' ∧
      (Runs.run (Session.act debug) s events).InForce size' := by
  refine Runs.Along.invariant_collect (f := ledger debug)
    (I := fun log s => ∃ base size ever, Accounted first log s base size ever ∧ s.InForce size)
    ?_ log ⟨base, size, ever, h, hforce⟩ hall
  rintro log s event ⟨base, size, ever, h, hforce⟩ ⟨hfinds, hkeeps⟩
  exact h.act hforce debug hfinds hkeeps

end Accounted

/-- **Allocation accounting.**  On a new device, any events come in any order, and
then the device is destroyed.  If every configuration that is put in force while
memzones are held has the segment size of the one before, then the ledger has as
many entries for freeing a memzone with a size as for reserving it with that
size, and the pool is as it was. -/
theorem allocation_accounting (deviceId : UInt8) (workerLcores : List Nat) (pool : MemzonePool)
    (memory : Memory) (debug : Bool) (events : List Event) (order : List Nat)
    (hall : Runs.Along (act debug) (fun s event => s.FindsTaken event ∧ s.KeepsSize event)
      (begin deviceId workerLcores pool memory) events)
    (hlists : (Runs.run (act debug) (begin deviceId workerLcores pool memory) events).Lists order) :
    let last := Runs.run (act debug) (begin deviceId workerLcores pool memory) events
    let entries := Runs.collect (act debug) (ledger debug) (begin deviceId workerLcores pool memory)
      events ++ last.closing order
    (∀ z size, entries.count (.free (z, size)) = entries.count (.reserve (z, size))) ∧
      (last.close order).allocated = pool.allocated ∧
      (last.close order).bytesAllocated = pool.bytesAllocated := by
  intro last entries
  have hnone : (begin deviceId workerLcores pool memory).zones = none := rfl
  have hbegin : Accounted pool [] (begin deviceId workerLcores pool memory) pool 0 [] :=
    ⟨rfl, rfl, fun zones h => absurd (hnone.symm.trans h) (by simp), fun _ => ⟨rfl, rfl⟩,
      fun _ => rfl, fun p => rfl⟩
  obtain ⟨base, size, ever, h, hforce⟩ := hbegin.run (fun cfg h => by
    simp [begin, CompressDevice.new] at h) hall
  change Accounted pool _ last base size ever at h
  dsimp only [entries]
  unfold closing close
  cases hcfg : last.device.configuration with
  | none =>
      obtain ⟨hpool, rfl⟩ := h.pool_eq (h.configured hcfg)
      refine ⟨fun z size => ?_, ?_, ?_⟩
      · have := h.balance (z, size)
        simp only [List.nil_append, List.map_nil, List.count_nil, Nat.add_zero] at this
        simp [this]
      · exact (congrArg MemzonePool.allocated hpool).trans h.allocated_eq
      · exact (congrArg MemzonePool.bytesAllocated hpool).trans h.bytes_eq
  | some cfg =>
      have hsize := hforce cfg hcfg
      obtain ⟨hallocated, hbytes, hbalance⟩ := h.destroyed hlists
      rw [Option.elim_some, Option.elim_some, hsize]
      exact ⟨fun z n => (hbalance (z, n)).symm, hallocated, hbytes⟩

/-- Two calls of `Initialize` on a new device. -/
def sampleEvents (first second : UInt16) : List Event :=
  [.initializeDevice (CompressDevice.sampleAttempt first 1),
    .initializeDevice (CompressDevice.sampleAttempt second 2)]

def sampleBegin : Session :=
  begin 0 [1] ⟨∅, fun _ => 0, 0⟩ (fun _ _ => 0)

theorem allocation_accounting_sample :
    ((Runs.run (act false) sampleBegin (sampleEvents 8 8)).close []).bytesAllocated = 0 :=
  (allocation_accounting 0 [1] ⟨∅, fun _ => 0, 0⟩ (fun _ _ => 0) false (sampleEvents 8 8) []
    ⟨⟨⟨List.nodup_nil, by decide +kernel⟩, Or.inr (Or.inl (by decide +kernel))⟩,
      ⟨⟨List.nodup_nil, by decide +kernel⟩, Or.inr (Or.inr (by decide +kernel))⟩, trivial⟩
    ⟨List.nodup_nil, by decide +kernel⟩).2.2

/-- The second call frees twenty memzones of 16 bytes as memzones of 4096 bytes. -/
theorem allocation_accounting_resized :
    Runs.Along (act false) FindsTaken sampleBegin (sampleEvents 8 2048) ∧
    (Runs.run (act false) sampleBegin (sampleEvents 8 2048)).Lists [] ∧
    (Runs.run (act false) sampleBegin (sampleEvents 8 2048)).device.state = .started ∧
    sampleBegin.pool.bytesAllocated = 0 ∧
    ((Runs.run (act false) sampleBegin (sampleEvents 8 2048)).close []).bytesAllocated = -81600 :=
  ⟨⟨⟨List.nodup_nil, by decide +kernel⟩, ⟨List.nodup_nil, by decide +kernel⟩, trivial⟩,
    ⟨List.nodup_nil, by decide +kernel⟩, by decide +kernel, rfl, by decide +kernel⟩

end Session

end Bitar
