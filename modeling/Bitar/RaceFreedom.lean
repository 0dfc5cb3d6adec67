import Bitar.Footprints
import Bitar.Recycling

/-!
# Calls on different queue pairs at the same time

All queue pairs of a device share its memzones and the memory; their calls run on
different lcores, and their steps come in any order.  The users of the device
have to see to it that a call does not touch what another one writes, and that
nothing is recycled that a call in progress touches: `Courteous`.  Then the
library sees to the rest.

The device may read the source of an operation and write to its destination at
any time before the operation is handed back.  Nobody else touches these blocks
in the meantime, so it does not matter when.

**Results.**
* `Separate.act`: what an event does to every queue pair.
* `Separate.lane`: a call is disturbed by the others only outside its footprint.
* `race_free`: no call in progress touches what another one writes.
-/

namespace Bitar

open BlockStore

namespace Machine

/-! ## What the others do -/

/-- The rest of the program has worked on the shared memory, next to the call. -/
structure Disturbed (st st' : Machine) : Prop where
  shared : st' = st.withShared st'.zones st'.memory st'.numMaybeNotOk
  wellFormed : st'.zones.WellFormed st.cfg.compressedSegSize
  occupied : ∀ z ∈ st.zonesInUse, z ∈ st'.zones.device.occupiedMemzones
  size_eq : ∀ z ∈ st.zonesInUse, st'.zones.pool.size z = st.cfg.compressedSegSize
  settled : ∀ b ∈ st.footprint.blocks, st'.zones.Settled b
  agree : Agree st.footprint.blocks st.memory st'.memory

/-- A step of a call in which nothing fails. -/
structure Advances (debug : Bool) (st : Machine) (env : Env) (st' : Machine) : Prop where
  ordered : st.Ordered
  noFault : st.NoFault env
  step_eq : st' = step debug st env
  continues : Continues st env st'

section Shared

variable {st : Machine} {zones : Zones} {memory : Memory} {numMaybeNotOk : Nat}

@[simp] theorem withShared_footprint (st : Machine) :
    (st.withShared zones memory numMaybeNotOk).footprint = st.footprint := rfl

@[simp] theorem withShared_writeBlocks (st : Machine) :
    (st.withShared zones memory numMaybeNotOk).writeBlocks = st.writeBlocks := rfl

@[simp] theorem withShared_result (st : Machine) :
    (st.withShared zones memory numMaybeNotOk).result = st.result := rfl

theorem Targeted.withShared (h : st.Targeted) :
    (st.withShared zones memory numMaybeNotOk).Targeted :=
  ⟨h.sources, h.destinations⟩

end Shared

end Machine

namespace Zones

/-- A block under no recycled address stays settled. -/
theorem recycle_settled {zones : Zones} (h : zones.Tracked) {addrs : List Addr} {b : Block}
    (hb : zones.Settled b) (haddr : ∀ addr ∈ addrs, addr.block ≠ b) :
    (zones.recycle addrs).2.Settled b := by
  cases b with
  | host id => trivial
  | memzone z =>
      obtain ⟨zs, -, hlisted, he⟩ := recycle_eq h addrs
      rw [he]
      refine ⟨hb.1, fun hfree => ?_⟩
      rcases List.mem_append.mp hfree with hmem | hold
      · have hz : z ∈ zones.listed addrs := hlisted ▸ List.mem_toFinset.mpr hmem
        exact haddr _ (mem_listed.mp hz).2 rfl
      · exact hb.2 hold

end Zones

namespace Session

open Machine

/-- The footprint of the call in progress on a queue pair. -/
def footprint (s : Session) (queuePairId : Nat) : Footprint Block :=
  (s.machine queuePairId).elim {} Machine.footprint

/-- What the users of the device see to.  A new call does not write what it reads,
nor what a call in progress touches, nor does it read what such a call writes, and
it keeps off the free memzones.  Nothing is recycled that a call in progress
touches. -/
def Courteous (s : Session) : Event → Prop
  | .call queuePairId request => ∀ st ∈ s.machine queuePairId,
      (∀ b ∈ (st.start request).footprint.blocks, st.zones.Settled b) ∧
      (∀ b ∈ (st.start request).footprint.writes, b ∉ (st.start request).footprint.reads) ∧
      ∀ other < s.device.numQps, other ≠ queuePairId →
        (st.start request).footprint.Spares (s.footprint other) ∧
        (s.footprint other).Spares (st.start request).footprint
  | .recycle buffers => ∀ buffer ∈ buffers, ∀ queuePairId < s.device.numQps,
      buffer.data.block ∉ (s.footprint queuePairId).blocks
  | _ => True

instance (s : Session) : ∀ event, Decidable (s.Courteous event)
  | .initializeDevice _ => inferInstanceAs (Decidable True)
  | .call queuePairId request => inferInstanceAs (Decidable (∀ st ∈ s.machine queuePairId,
      (∀ b ∈ (st.start request).footprint.blocks, st.zones.Settled b) ∧
      (∀ b ∈ (st.start request).footprint.writes, b ∉ (st.start request).footprint.reads) ∧
      ∀ other < s.device.numQps, other ≠ queuePairId →
        (st.start request).footprint.Spares (s.footprint other) ∧
        (s.footprint other).Spares (st.start request).footprint))
  | .step _ _ => inferInstanceAs (Decidable True)
  | .recycle buffers => inferInstanceAs (Decidable (∀ buffer ∈ buffers,
      ∀ queuePairId < s.device.numQps,
        buffer.data.block ∉ (s.footprint queuePairId).blocks))

/-- Nothing fails, and the users of the device are courteous. -/
def Orderly (debug : Bool) (s : Session) (event : Event) : Prop :=
  s.Succeeds debug event ∧ s.Courteous event

instance (debug : Bool) (s : Session) (event : Event) : Decidable (s.Orderly debug event) :=
  inferInstanceAs (Decidable (_ ∧ _))

/-- What a call on a queue pair writes is its own. -/
structure Party (cfg : Configuration) (zones : Zones) (s : Session) (queuePairId : Nat) :
    Prop where
  reserves : (s.machineOf cfg zones queuePairId).Reserves fun _ => True
  targeted : (s.machineOf cfg zones queuePairId).Targeted
  settled_reads : ∀ b ∈ (s.machineOf cfg zones queuePairId).call.readBlocks, zones.Settled b
  settled_writes : ∀ b ∈ (s.machineOf cfg zones queuePairId).writeBlocks, zones.Settled b
  apart : ∀ b ∈ (s.machineOf cfg zones queuePairId).writeBlocks,
    b ∉ (s.machineOf cfg zones queuePairId).call.readBlocks
  unshared : ∀ b ∈ (s.machineOf cfg zones queuePairId).writeBlocks, ∀ other, other ≠ queuePairId →
    b ∉ (s.machineOf cfg zones other).footprint.blocks

/-- The invariant of all queue pairs together. -/
structure Separate (cfg : Configuration) (zones : Zones) (s : Session) : Prop where
  inService : InService cfg zones s
  party : ∀ queuePairId, (s.machineOf cfg zones queuePairId).result = none →
    Party cfg zones s queuePairId

section Separate

variable {s : Session} {cfg : Configuration} {zones : Zones} {debug : Bool} {queuePairId : Nat}

theorem InService.footprint_eq (h : InService cfg zones s) (queuePairId : Nat) :
    s.footprint queuePairId = (s.machineOf cfg zones queuePairId).footprint := by
  rw [footprint, machine_eq h.configuration_eq h.zones_eq]
  rfl

/-- Taken memzones have the size in force. -/
theorem InService.size_eq (h : InService cfg zones s) {z : Nat}
    (hz : z ∈ zones.device.occupiedMemzones) : zones.pool.size z = cfg.compressedSegSize := by
  obtain ⟨base, ever, howns⟩ := h.owned
  exact howns.reserved.size_new z ((howns.held_iff z).mp (Or.inr hz))

theorem Party.settled (h : Party cfg zones s queuePairId) :
    ∀ b ∈ (s.machineOf cfg zones queuePairId).footprint.blocks, zones.Settled b := by
  intro b hb
  rw [footprint_of_none (result_of_mem_blocks hb), Footprint.mem_blocks] at hb
  exact hb.elim (h.settled_reads b) (h.settled_writes b)

theorem Separate.settled (h : Separate cfg zones s) (queuePairId : Nat) :
    ∀ b ∈ (s.machineOf cfg zones queuePairId).footprint.blocks, zones.Settled b :=
  fun b hb => (h.party queuePairId (result_of_mem_blocks hb)).settled b hb

theorem writes_subset (st : Machine) : ∀ b ∈ st.footprint.writes, b ∈ st.writeBlocks := by
  intro b hb
  have hnone := result_of_mem_blocks (Footprint.mem_blocks.mpr (Or.inr hb))
  rwa [footprint_of_none hnone] at hb

theorem reads_subset (st : Machine) : ∀ b ∈ st.footprint.reads, b ∈ st.call.readBlocks := by
  intro b hb
  have hnone := result_of_mem_blocks (Footprint.mem_blocks.mpr (Or.inl hb))
  rwa [footprint_of_none hnone] at hb

/-- **No call touches what another one writes.** -/
theorem Separate.raceFree (h : Separate cfg zones s) :
    Footprint.RaceFree fun queuePairId => (s.machineOf cfg zones queuePairId).footprint := by
  intro p q hne b hb
  have hnone := result_of_mem_blocks (Footprint.mem_blocks.mpr (Or.inr hb))
  exact (h.party p hnone).unshared b (writes_subset _ b hb) q (Ne.symm hne)

/-- A queue pair that somebody else has left alone. -/
theorem Party.disturbed {s' : Session} {later : Zones} (h : Party cfg zones s queuePairId)
    (hlane : (s.machineOf cfg zones queuePairId).Disturbed
      (s'.machineOf cfg later queuePairId))
    (hothers : ∀ b ∈ (s.machineOf cfg zones queuePairId).writeBlocks, ∀ other,
      other ≠ queuePairId → b ∉ (s'.machineOf cfg later other).footprint.blocks)
    (hnone : (s.machineOf cfg zones queuePairId).result = none) :
    Party cfg later s' queuePairId := by
  have hshared := hlane.shared
  have hblocks : ∀ b ∈ (s.machineOf cfg zones queuePairId).footprint.blocks, later.Settled b :=
    hlane.settled
  rw [footprint_of_none hnone] at hblocks
  refine ⟨?_, ?_, fun b hb => ?_, fun b hb => ?_, ?_, ?_⟩
  · rw [hshared]
    exact h.reserves.withShared fun z hz _ => hlane.occupied z hz
  · rw [hshared]
    exact h.targeted.withShared
  · rw [hshared] at hb
    exact hblocks b (Footprint.mem_blocks.mpr (Or.inl hb))
  · rw [hshared] at hb
    exact hblocks b (Footprint.mem_blocks.mpr (Or.inr hb))
  · rw [hshared]
    exact h.apart
  · rw [hshared]
    exact hothers

/-- What an event does to the queue pairs other than that of `actor`. -/
structure Moved (cfg : Configuration) (zones later : Zones) (s s' : Session)
    (actor : Option Nat) : Prop where
  separate : Separate cfg later s'
  shared : ∀ queuePairId, some queuePairId ≠ actor →
    s'.machineOf cfg later queuePairId =
      (s.machineOf cfg zones queuePairId).withShared later s'.memory s'.numMaybeNotOk
  others : ∀ queuePairId, some queuePairId ≠ actor →
    (s.machineOf cfg zones queuePairId).result = none →
    (s.machineOf cfg zones queuePairId).Disturbed (s'.machineOf cfg later queuePairId)

theorem InService.footprint_absent (h : InService cfg zones s)
    (hle : s.device.numQps ≤ queuePairId) :
    (s.machineOf cfg zones queuePairId).footprint = {} := by
  obtain ⟨status, hpc⟩ := h.absent queuePairId hle
  exact footprint_of_returned hpc

/-- The memzones in use are taken and have the size in force. -/
theorem Party.inUse (h : Party cfg zones s queuePairId) (hs : InService cfg zones s) :
    ∀ z ∈ (s.machineOf cfg zones queuePairId).zonesInUse,
      z ∈ zones.device.occupiedMemzones ∧ zones.pool.size z = cfg.compressedSegSize := by
  intro z hz
  have hocc := h.reserves.occupied z hz trivial
  exact ⟨hocc, hs.size_eq hocc⟩

/-- `Recycle` of what no call in progress touches. -/
theorem Separate.recycle (h : Separate cfg zones s) {buffers : List Buffer}
    (hc : s.Courteous (.recycle buffers)) :
    Moved cfg zones (zones.recycle (buffers.map Buffer.data)).2 s
      (s.act debug (.recycle buffers)) none := by
  obtain ⟨hservice, hlane⟩ := @InService.recycle s cfg zones debug h.inService buffers
  have haddr : ∀ queuePairId, ∀ b ∈ (s.machineOf cfg zones queuePairId).footprint.blocks,
      ∀ addr ∈ buffers.map Buffer.data, addr.block ≠ b := by
    rintro queuePairId b hb addr haddr rfl
    obtain ⟨buffer, hbuffer, rfl⟩ := List.mem_map.mp haddr
    rcases Nat.lt_or_ge queuePairId s.device.numQps with hlt | hle
    · have hnot := hc buffer hbuffer queuePairId hlt
      rw [h.inService.footprint_eq] at hnot
      exact hnot hb
    · rw [h.inService.footprint_absent hle] at hb
      cases hb
  have hothers : ∀ queuePairId, (s.machineOf cfg zones queuePairId).result = none →
      (s.machineOf cfg zones queuePairId).Disturbed
        ((s.act debug (.recycle buffers)).machineOf cfg
          (zones.recycle (buffers.map Buffer.data)).2 queuePairId) := by
    intro queuePairId hnone
    have hparty := h.party queuePairId hnone
    rw [hlane]
    refine ⟨rfl, hservice.wellFormed, fun z hz => ?_, fun z hz => ?_, fun b hb => ?_, .refl _ _⟩
    · refine Zones.recycle_occupied h.inService.tracked
        (hparty.reserves.occupied z hz trivial) fun hmem => ?_
      refine haddr queuePairId (.memzone z) ?_ _ hmem rfl
      rw [footprint_of_none hnone]
      exact Footprint.mem_blocks.mpr (Or.inr (hparty.reserves.mem_writeBlocks hz))
    · obtain ⟨zs, -, -, he⟩ := Zones.recycle_eq h.inService.tracked (buffers.map Buffer.data)
      rw [withShared, he]
      exact (hparty.inUse h.inService z hz).2
    · exact Zones.recycle_settled h.inService.tracked (h.settled queuePairId b hb)
        (haddr queuePairId b hb)
  have hshared : ∀ queuePairId,
      (s.act debug (.recycle buffers)).machineOf cfg
          (zones.recycle (buffers.map Buffer.data)).2 queuePairId =
        (s.machineOf cfg zones queuePairId).withShared
          (zones.recycle (buffers.map Buffer.data)).2 (s.act debug (.recycle buffers)).memory
          (s.act debug (.recycle buffers)).numMaybeNotOk := by
    intro queuePairId
    rw [hlane]
    dsimp only [Session.act]
    rw [h.inService.zones_eq]
  refine ⟨⟨hservice, fun queuePairId hnone => ?_⟩, fun queuePairId _ => hshared queuePairId,
    fun queuePairId _ => hothers queuePairId⟩
  have hnone' : (s.machineOf cfg zones queuePairId).result = none := by
    rwa [hlane] at hnone
  refine (h.party queuePairId hnone').disturbed (hothers queuePairId hnone') ?_ hnone'
  intro b hb other hne
  rw [hlane]
  exact (h.party queuePairId hnone').unshared b hb other hne

/-- Work on one queue pair that keeps off what the others write. -/
theorem Separate.acted (h : Separate cfg zones s) {st' : Machine}
    (hservice : InService cfg st'.zones (s.store queuePairId st'))
    (hself : (s.store queuePairId st').machineOf cfg st'.zones queuePairId = st')
    (hocc : ∀ z ∈ zones.device.occupiedMemzones, z ∈ st'.zones.device.occupiedMemzones)
    (hsettled : ∀ b, zones.Settled b → st'.zones.Settled b)
    (hagree : ∀ other, other ≠ queuePairId →
      Agree (s.machineOf cfg zones other).footprint.blocks s.memory st'.memory)
    (hoff : ∀ b ∈ st'.footprint.blocks, ∀ other, other ≠ queuePairId →
      b ∉ (s.machineOf cfg zones other).footprint.writes)
    (hparty : st'.result = none → Party cfg st'.zones (s.store queuePairId st') queuePairId) :
    Moved cfg zones st'.zones s (s.store queuePairId st') (some queuePairId) := by
  have hother : ∀ other, other ≠ queuePairId →
      (s.store queuePairId st').machineOf cfg st'.zones other =
        (s.machineOf cfg zones other).withShared st'.zones st'.memory st'.numMaybeNotOk :=
    fun other hne => machineOf_store_of_ne rfl hne
  have hothers : ∀ other, some other ≠ some queuePairId →
      (s.machineOf cfg zones other).result = none →
      (s.machineOf cfg zones other).Disturbed
        ((s.store queuePairId st').machineOf cfg st'.zones other) := by
    intro other hne hnone
    have hne' : other ≠ queuePairId := fun he => hne (congrArg some he)
    have huse := (h.party other hnone).inUse h.inService
    rw [hother other hne']
    exact ⟨rfl, hservice.wellFormed, fun z hz => hocc z (huse z hz).1,
      fun z hz => hservice.size_eq (hocc z (huse z hz).1),
      fun b hb => hsettled b (h.settled other b hb), hagree other hne'⟩
  refine ⟨⟨hservice, fun other hnone => ?_⟩,
    fun other hne => hother other fun he => hne (congrArg some he), hothers⟩
  by_cases hne : other = queuePairId
  · subst hne
    rw [hself] at hnone
    exact hparty hnone
  · rw [hother other hne, withShared_result] at hnone
    refine (h.party other hnone).disturbed (hothers other (by simpa using hne) hnone) ?_ hnone
    intro b hb third hthird
    by_cases hsame : third = queuePairId
    · subst hsame
      rw [hself]
      intro hmem
      refine hoff b hmem other hne ?_
      rwa [footprint_of_none hnone]
    · rw [hother third hsame]
      exact (h.party other hnone).unshared b hb third hthird

/-- The beginning of a call. -/
theorem Separate.call (h : Separate cfg zones s) {request : Request}
    (hok : s.Succeeds debug (.call queuePairId request))
    (hc : s.Courteous (.call queuePairId request)) :
    Moved cfg zones zones s (s.act debug (.call queuePairId request)) (some queuePairId) ∧
      (s.act debug (.call queuePairId request)).machineOf cfg zones queuePairId =
        (s.machineOf cfg zones queuePairId).start request := by
  have hmachine := machine_eq h.inService.configuration_eq h.inService.zones_eq queuePairId
  obtain ⟨hsettled, happart, hspares⟩ := hc _ hmachine
  obtain ⟨status, hstatus⟩ := Option.ne_none_iff_exists'.mp (hok _ hmachine)
  obtain ⟨opPool, mbufPool, hin⟩ := h.inService.inOrder queuePairId
  have hidle := hin.ordered.idle (result_eq_some.mp hstatus)
  have hact := @InService.act_call s cfg zones debug h.inService queuePairId request
    (hok _ hmachine)
  obtain ⟨-, -, -, -, -, -, hservice⟩ := h.inService.call hok
  have hzones := start_zones (s.machineOf cfg zones queuePairId) request
  have hmemory := start_memory (s.machineOf cfg zones queuePairId) request
  have hreserves := hidle.start_reserves request fun _ => True
  have htargeted := hidle.start_targeted request
  have hself := machineOf_store_self (start_setup (s.machineOf cfg zones queuePairId) request)
    (Or.inr (start_qp (s.machineOf cfg zones queuePairId) request))
  rw [hact] at hservice ⊢
  generalize (s.machineOf cfg zones queuePairId).start request = st' at *
  rw [machineOf_zones] at hzones hsettled
  rw [← hzones] at hservice
  have hspares' : ∀ other, other ≠ queuePairId →
      st'.footprint.Spares (s.machineOf cfg zones other).footprint ∧
      (s.machineOf cfg zones other).footprint.Spares st'.footprint := by
    intro other hne
    rcases Nat.lt_or_ge other s.device.numQps with hlt | hle
    · rw [← h.inService.footprint_eq]
      exact hspares other hlt hne
    · rw [h.inService.footprint_absent hle]
      exact ⟨fun b _ hb => (List.not_mem_nil hb), fun b hb => absurd hb List.not_mem_nil⟩
  have hmoved := h.acted hservice hself (by rw [hzones]; exact fun z hz => hz)
    (by rw [hzones]; exact fun b hb => hb)
    (fun other _ => by rw [show st'.memory = s.memory from hmemory]; exact .refl _ _)
    (fun b hb other hne hmem => (hspares' other hne).2 b hmem hb) fun hnone => ?_
  · rw [hzones] at hmoved hself
    exact ⟨hmoved, hself⟩
  · rw [footprint_of_none hnone] at happart hspares' hsettled
    refine ⟨?_, ?_, fun b hb => ?_, fun b hb => ?_, ?_, ?_⟩
    · rwa [hself]
    · rwa [hself]
    · rw [hself] at hb
      rw [hzones]
      exact hsettled b (Footprint.mem_blocks.mpr (Or.inl hb))
    · rw [hself] at hb
      rw [hzones]
      exact hsettled b (Footprint.mem_blocks.mpr (Or.inr hb))
    · rw [hself]
      exact happart
    · rw [hself]
      intro b hb other hne
      rw [@machineOf_store_of_ne s cfg zones queuePairId other st' st'.zones rfl hne]
      exact (hspares' other hne).1 b hb

/-- One step of a call in progress. -/
theorem Separate.step (h : Separate cfg zones s) (hb : cfg.Bounds) {env : Env}
    (hok : s.Succeeds debug (.step queuePairId env)) :
    ∃ later, Moved cfg zones later s (s.act debug (.step queuePairId env)) (some queuePairId) ∧
      Advances debug (s.machineOf cfg zones queuePairId) env
        ((s.act debug (.step queuePairId env)).machineOf cfg later queuePairId) ∧
      ((s.machineOf cfg zones queuePairId).result = none →
        Party cfg later (s.act debug (.step queuePairId env)) queuePairId) := by
  obtain ⟨opPool, mbufPool, hin⟩ := h.inService.inOrder queuePairId
  have hgoes : Goes debug (s.machineOf cfg zones queuePairId) env :=
    hok _ (machine_eq h.inService.configuration_eq h.inService.zones_eq queuePairId)
  obtain ⟨hcont, hin'⟩ := hin.step hb debug (hgoes.noFault hb hin.ordered)
  obtain ⟨hocc, -, hsetup, hpresent, hservice⟩ := h.inService.continues hb hin hcont hin'
    (step_traffic debug (s.machineOf cfg zones queuePairId) env)
    fun status hpc => step_returned hpc debug env
  have hact : s.act debug (.step queuePairId env) = s.store queuePairId
      (Machine.step debug (s.machineOf cfg zones queuePairId) env) :=
    onQueuePair_eq h.inService.configuration_eq h.inService.zones_eq fun st =>
      Machine.step debug st env
  have hreturned : ∀ status, (s.machineOf cfg zones queuePairId).result = some status →
      Machine.step debug (s.machineOf cfg zones queuePairId) env =
        s.machineOf cfg zones queuePairId := fun status hres =>
    step_returned (result_eq_some.mp hres) debug env
  have hself := machineOf_store_self hsetup hpresent
  have hadvances : Advances debug (s.machineOf cfg zones queuePairId) env
      (Machine.step debug (s.machineOf cfg zones queuePairId) env) :=
    ⟨hin.ordered, hgoes.noFault hb hin.ordered, rfl, hcont⟩
  rw [hact]
  generalize Machine.step debug (s.machineOf cfg zones queuePairId) env = st' at *
  have hwf : (s.machineOf cfg zones queuePairId).zones.WellFormed
      (s.machineOf cfg zones queuePairId).cfg.compressedSegSize := h.inService.wellFormed
  have hsettled : ∀ b, zones.Settled b → st'.zones.Settled b := fun b hb' =>
    (hcont.since hin.ordered hwf).settled hb'
  refine ⟨st'.zones, ?_⟩
  rw [hself]
  cases hres : (s.machineOf cfg zones queuePairId).result with
  | some status =>
      -- nothing happens
      obtain rfl := hreturned status hres
      refine ⟨h.acted hservice hself hocc hsettled (fun _ _ => .refl _ _) ?_ ?_, hadvances,
        by simp⟩
      · intro b hb'
        rw [footprint_of_returned (result_eq_some.mp hres)] at hb'
        cases hb'
      · intro hnone
        rw [hres] at hnone
        cases hnone
  | none =>
      have hparty := h.party queuePairId hres
      have hconfines := hcont.confines hin.ordered fun _ => hparty.targeted
      have hgrow := hcont.writeBlocks_grow hin.ordered hb hparty.reserves hwf
      have hread := hcont.readBlocks_eq hin.ordered
      have hunshared : ∀ b ∈ st'.writeBlocks, ∀ other, other ≠ queuePairId →
          b ∉ (s.machineOf cfg zones other).footprint.blocks := by
        intro b hb' other hne hmem
        rcases hgrow b hb' with hold | hnew
        · exact hparty.unshared b hold other hne hmem
        · exact hnew (h.settled other b hmem)
      have hreserves : st'.Reserves fun _ => True :=
        hparty.reserves.continues hwf hin.ordered hb hcont
      have hparty' : Party cfg st'.zones (s.store queuePairId st') queuePairId := by
        refine ⟨?_, ?_, fun b hb' => ?_, ?_, fun b hb' => ?_, fun b hb' other hne => ?_⟩
        · rwa [hself]
        · rw [hself]
          exact hparty.targeted.continues hreserves hin.ordered hb hcont
        · rw [hself, hread] at hb'
          exact hsettled b (hparty.settled_reads b hb')
        · rw [hself]
          cases hout : st'.call.outputBlock with
          | none =>
              exact hreserves.settled_writeBlocks (hin'.cfg_eq ▸ hservice.wellFormed) hout
          | some block =>
              have hsame : st'.writeBlocks = (s.machineOf cfg zones queuePairId).writeBlocks := by
                rw [writeBlocks, writeBlocks, ← hcont.outputBlock_eq hin.ordered, hout]
              rw [hsame]
              exact fun b hb' => hsettled b (hparty.settled_writes b hb')
        · rw [hself] at hb' ⊢
          rw [hread]
          rcases hgrow b hb' with hold | hnew
          · exact hparty.apart b hold
          · exact fun hmem => hnew (hparty.settled_reads b hmem)
        · rw [hself] at hb'
          rw [@machineOf_store_of_ne s cfg zones queuePairId other st' st'.zones rfl hne]
          exact hunshared b hb' other hne
      refine ⟨h.acted hservice hself hocc hsettled (fun other hne => ?_) ?_ fun _ => hparty',
        hadvances, fun _ => hparty'⟩
      · exact (h.raceFree queuePairId other (Ne.symm hne)).agree hconfines
      · intro b hb' other hne hmem
        have hnone' := result_of_mem_blocks hb'
        rw [footprint_of_none hnone', Footprint.mem_blocks] at hb'
        rcases hb' with hb' | hb'
        · rw [hread] at hb'
          have hmine : b ∈ (s.machineOf cfg zones queuePairId).footprint.blocks := by
            rw [footprint_of_none hres]
            exact Footprint.mem_blocks.mpr (Or.inl hb')
          exact h.raceFree other queuePairId hne b hmem hmine
        · exact hunshared b hb' other hne (Footprint.mem_blocks.mpr (Or.inr hmem))

/-- **Step lemma.** -/
theorem Separate.act (h : Separate cfg zones s) (hb : cfg.Bounds) {event : Event}
    (hok : s.Succeeds debug event) (hc : s.Courteous event) :
    ∃ later actor, Moved cfg zones later s (s.act debug event) actor := by
  cases event with
  | initializeDevice attempt => exact hok.elim
  | call queuePairId request => exact ⟨zones, _, (h.call hok hc).1⟩
  | step queuePairId env =>
      obtain ⟨later, hmoved, -⟩ := h.step hb hok
      exact ⟨later, _, hmoved⟩
  | recycle buffers => exact ⟨_, _, h.recycle hc⟩

theorem Separate.run (h : Separate cfg zones s) (hb : cfg.Bounds) {events : List Event}
    (hall : Runs.Along (Session.act debug) (Orderly debug) s events) :
    ∃ later, Separate cfg later (Runs.run (Session.act debug) s events) := by
  refine Runs.Along.invariant (I := fun now => ∃ zones, Separate cfg zones now) ?_ ⟨zones, h⟩ hall
  rintro now event ⟨zones, h⟩ ⟨hok, hc⟩
  obtain ⟨later, actor, hmoved⟩ := h.act hb hok hc
  exact ⟨later, hmoved.separate⟩

/-- On a device at rest no call is in progress. -/
theorem AtRest.separate (h : AtRest cfg zones s) : Separate cfg zones s := by
  refine ⟨h.inService, fun queuePairId hnone => ?_⟩
  obtain ⟨status, hpc⟩ := h.returned queuePairId
  have hres : (s.machineOf cfg zones queuePairId).result = some status :=
    result_eq_some.mpr hpc
  rw [hres] at hnone
  cases hnone

/-! ## The calls in progress -/

/-- **No races.**  In every state that a device can come to, whatever the order of
the steps, no call in progress touches what another one writes, and no block that
it touches can be handed out as a memzone; and the next step of a call changes
only the blocks that this call writes. -/
theorem race_free (hrest : AtRest cfg zones s) {events : List Event}
    (hall : Runs.Along (Session.act debug) (Orderly debug) s events) :
    let now := Runs.run (Session.act debug) s events
    Footprint.RaceFree now.footprint ∧
    (∀ zones ∈ now.zones, ∀ queuePairId, ∀ b ∈ (now.footprint queuePairId).blocks,
      zones.Settled b) ∧
    ∀ queuePairId env, now.Succeeds debug (.step queuePairId env) →
      (now.footprint queuePairId).Confines now.memory
        (now.act debug (.step queuePairId env)).memory := by
  intro now
  obtain ⟨later, hnow⟩ := hrest.separate.run hrest.accepted.bounds hall
  have hfoot : ∀ queuePairId, now.footprint queuePairId =
      (now.machineOf cfg later queuePairId).footprint := hnow.inService.footprint_eq
  refine ⟨?_, ?_, ?_⟩
  · rw [funext hfoot]
    exact hnow.raceFree
  · intro zones hzones queuePairId b hb
    obtain rfl := Option.some.inj (hnow.inService.zones_eq.symm.trans hzones)
    rw [hfoot] at hb
    exact hnow.settled queuePairId b hb
  · intro queuePairId env hok
    obtain ⟨after, -, hadvances, -⟩ := hnow.step hrest.accepted.bounds hok
    rw [hfoot]
    exact hadvances.continues.confines hadvances.ordered fun hnone =>
      (hnow.party queuePairId hnone).targeted

end Separate

/-- Both queue pairs have memzones and wait for the device. -/
def sampleTraffic : List Event :=
  [.call 0 (.compress (some ⟨⟨.host 0, 0⟩, 12⟩)),
    .step 0 { bulk := ⟨some [0, 1], some [0, 1, 2, 3]⟩ },
    .call 1 (.compress (some ⟨⟨.host 1, 0⟩, 8⟩)),
    .step 1 { bulk := ⟨some [0], some [0, 1]⟩ }]

theorem race_free_sample :
    Footprint.RaceFree (Runs.run (Session.act true) sampleService sampleTraffic).footprint :=
  (@race_free _ _ _ true sampleService_atRest sampleTraffic (by decide +kernel)).1

end Session

end Bitar
