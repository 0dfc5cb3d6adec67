import Bitar.Accounting
import Bitar.EntryGuard
import Bitar.Recovery
import Bitar.Release
import Bitar.SharedPool

/-!
# Giving the result of `Compress` back

The buffers that `Compress` returns lie in memzones that the call has taken.
Users give them back to `Recycle`, and abort when it does not count all of them.

A `Handover` is a history in which one queue pair returns a vector that is
recycled later on.  All queue pairs work on the same device memory, in any order
of their steps, and other vectors are recycled at any time, even twice.

**Results.**
* `InService.act`: what an event in which no call fails preserves.
* `recycle_exact`: what `Recycle` counts, on any list of buffers and on a vector
  returned by `Compress`.
-/

namespace Bitar

namespace Zones

theorem Owns.wellFormed {size : Nat} {base : MemzonePool} {zones : Zones} {ever : List Nat}
    (h : Owns size base zones ever) : zones.WellFormed size :=
  ⟨h.nodup, h.disjoint, fun z hz => h.mem_allocated ((h.held_iff z).mp (Or.inl hz)),
    fun z hz => h.mem_allocated ((h.held_iff z).mp (Or.inr hz)),
    fun z hz => h.reserved.size_new z ((h.held_iff z).mp (Or.inl hz))⟩

/-- A memzone stays taken when no address of it is recycled. -/
theorem recycle_occupied {zones : Zones} (h : zones.Tracked) {addrs : List Addr} {z : Nat}
    (hz : z ∈ zones.device.occupiedMemzones) (haddr : memzoneAddr z ∉ addrs) :
    z ∈ (zones.recycle addrs).2.device.occupiedMemzones := by
  obtain ⟨zs, -, hlisted, he⟩ := recycle_eq h addrs
  rw [he]
  refine Finset.mem_sdiff.mpr ⟨hz, fun hmem => ?_⟩
  rw [hlisted, mem_listed] at hmem
  exact haddr hmem.2

end Zones

namespace Machine

variable {st st' : Machine} {env : Env} {debug : Bool}

/-- The call does not end with an error in this step. -/
def Goes (debug : Bool) (st : Machine) (env : Env) : Prop :=
  ∀ status ∈ (step debug st env).result, status.code = .ok ∨ st.result = some status

instance : Decidable (Goes debug st env) :=
  inferInstanceAs (Decidable (∀ status ∈ (step debug st env).result, _ ∨ _))

theorem Goes.noFault (h : Goes debug st env) (hb : st.cfg.Bounds) (hst : st.Ordered) :
    st.NoFault env := by
  rcases step_cases hb hst debug env with ⟨hnf, -⟩ | ⟨hf, mid, code, message, hbr, he⟩
  · exact hnf
  · have hres : (step debug st env).result = some ⟨code, message⟩ := by
      rw [he, result_eq_some, fail_pc]
    rcases h _ hres with hok | hsame
    · exact absurd hok hbr.code_ne_ok
    · exact absurd (by simp [NoFault, result_eq_some.mp hsame]) hf

/-- A step in which nothing fails takes memzones and puts none back. -/
theorem Continues.since (h : Continues st env st') (hst : st.Ordered)
    (hwf : st.zones.WellFormed st.cfg.compressedSegSize) : st.zones.Since st'.zones := by
  cases h with
  | built hpc built hT =>
      obtain ⟨zs, -, ht, -⟩ := built.taken hwf
      exact ht.since
  | full hpc hpos => exact .refl _
  | exhausted hpc hrem hnone =>
      rw [zones_drainOrFinish]
      exact .refl _
  | enqueued hpc hread => exact .refl _
  | dequeued hpc hsucc =>
      have hzones := @retire_zones st env hst (st.queue.take (st.numDequeued env))
      rw [hzones]
      exact .refl _
  | drained hpc hsucc =>
      rw [zones_drainOrFinish, retire_zones hst]
      exact .refl _
  | returned hpc => exact .refl _

/-- The queue pair after somebody else has worked on the device. -/
def withShared (st : Machine) (zones : Zones) (memory : Memory) (numMaybeNotOk : Nat) : Machine :=
  { st with
    zones := zones
    memory := memory
    numMaybeNotOk := numMaybeNotOk }

section Shared

variable {zones : Zones} {memory : Memory} {numMaybeNotOk : Nat}

theorem InOrder.withShared {cfg : Configuration} {opPool mbufPool : Finset Nat}
    (h : InOrder cfg opPool mbufPool st) :
    InOrder cfg opPool mbufPool (st.withShared zones memory numMaybeNotOk) := by
  obtain ⟨hcfg, ⟨h1, h2, h3, h4, h5, h6, h7, h8⟩, ⟨hops, hmbufs⟩⟩ := h
  exact ⟨hcfg, ⟨h1, h2, h3, h4, h5, h6, h7, h8⟩, ⟨hops, hmbufs⟩⟩

theorem Reserves.withShared {P : Nat → Prop} (h : st.Reserves P)
    (hocc : ∀ z ∈ st.zonesInUse, P z → z ∈ zones.device.occupiedMemzones) :
    (st.withShared zones memory numMaybeNotOk).Reserves P :=
  ⟨h.count_le, hocc, h.buffers, h.destinations⟩

end Shared

theorem start_of_absent (h : st.numQps ≤ st.queuePairId) (request : Request) :
    ∃ status, (st.start request).pc = .returned status := by
  have hguard : st.guardStatus.code ≠ .ok := by
    unfold guardStatus entryGuard
    split_ifs <;> simp [Status.invalid]
  rcases st.start_pc request with hpc | hret
  · exfalso
    cases request with
    | compress input =>
        cases input with
        | none => simp [start, compress] at hpc
        | some input =>
            simp only [start, compress, hguard, if_false] at hpc
            split_ifs at hpc
    | decompress buffers output =>
        cases output with
        | none => simp [start, decompress] at hpc
        | some output =>
            simp only [start, decompress, hguard, if_false] at hpc
            split_ifs at hpc
  · exact hret

end Machine

namespace Session

open Machine

/-! ## A device in service -/

/-- The queue pair, for a configuration and a device memory in force. -/
def machineOf (s : Session) (cfg : Configuration) (zones : Zones) (queuePairId : Nat) :
    Machine where
  cfg := cfg
  deviceId := s.device.deviceId.toNat
  queuePairId := queuePairId
  numQps := s.device.numQps
  state := s.device.state
  memory := s.memory
  zones := zones
  qp := s.device.qpMemory.getD queuePairId {}
  queue := (s.lanes queuePairId).queue
  numMaybeNotOk := s.numMaybeNotOk
  call := (s.lanes queuePairId).call
  pc := (s.lanes queuePairId).pc

/-- No call on the device has failed since it was started, except at its entry. -/
structure InService (cfg : Configuration) (zones : Zones) (s : Session) : Prop where
  configuration_eq : s.device.configuration = some cfg
  zones_eq : s.zones = some zones
  owned : ∃ base ever, zones.Owns cfg.compressedSegSize base ever
  numQps_le : s.device.numQps ≤ s.device.qpMemory.length
  inOrder : ∀ queuePairId, ∃ opPool mbufPool,
    InOrder cfg opPool mbufPool (s.machineOf cfg zones queuePairId)
  absent : ∀ queuePairId, s.device.numQps ≤ queuePairId →
    ∃ status, (s.lanes queuePairId).pc = .returned status

@[simp] theorem machineOf_cfg (s : Session) (cfg : Configuration) (zones : Zones)
    (queuePairId : Nat) : (s.machineOf cfg zones queuePairId).cfg = cfg := rfl

@[simp] theorem machineOf_zones (s : Session) (cfg : Configuration) (zones : Zones)
    (queuePairId : Nat) : (s.machineOf cfg zones queuePairId).zones = zones := rfl

section Store

variable {s : Session} {cfg : Configuration} {zones : Zones} {queuePairId other : Nat}
  {st : Machine}

theorem machine_eq (hcfg : s.device.configuration = some cfg) (hzones : s.zones = some zones)
    (queuePairId : Nat) : s.machine queuePairId = some (s.machineOf cfg zones queuePairId) := by
  obtain ⟨deviceMemory, hmemory, rfl⟩ := Option.map_eq_some_iff.mp hzones
  unfold machine
  rw [hcfg, hmemory]
  rfl

theorem onQueuePair_eq (hcfg : s.device.configuration = some cfg) (hzones : s.zones = some zones)
    (f : Machine → Machine) :
    s.onQueuePair queuePairId f = s.store queuePairId (f (s.machineOf cfg zones queuePairId)) := by
  unfold onQueuePair
  rw [machine_eq hcfg hzones]

/-- The queue pair that has been worked on. -/
theorem machineOf_store_self (hsetup : st.setup = (s.machineOf cfg zones queuePairId).setup)
    (hqp : queuePairId < s.device.qpMemory.length ∨
      st.qp = (s.machineOf cfg zones queuePairId).qp) :
    (s.store queuePairId st).machineOf cfg st.zones queuePairId = st := by
  have hmemory : (s.device.qpMemory.set queuePairId st.qp).getD queuePairId {} = st.qp := by
    rcases hqp with hlt | hsame
    · simp [List.getD_eq_getElem?_getD, List.getElem?_set_self hlt]
    · rw [hsame, machineOf, set_getD_self]
  obtain ⟨cfg', deviceId, queuePairId', numQps, state, memory, zones', qp, queue, counter, call,
    pc⟩ := st
  simp only [setup, machineOf, Prod.mk.injEq] at hsetup
  obtain ⟨rfl, rfl, rfl, rfl, rfl⟩ := hsetup
  simp only [machineOf, store, Function.update_self, Machine.mk.injEq, true_and, and_true]
  exact ⟨rfl, hmemory⟩

/-- Every other queue pair. -/
theorem machineOf_store_of_ne {later : Zones} (hlater : st.zones = later)
    (hne : other ≠ queuePairId) :
    (s.store queuePairId st).machineOf cfg later other =
      (s.machineOf cfg zones other).withShared later st.memory st.numMaybeNotOk := by
  have hmemory : (s.device.qpMemory.set queuePairId st.qp).getD other {} =
      s.device.qpMemory.getD other {} := by
    rw [List.getD_eq_getElem?_getD, List.getD_eq_getElem?_getD, List.getElem?_set_ne hne.symm]
  subst hlater
  simp only [machineOf, store, withShared, Function.update_of_ne hne, hmemory]
  rfl

end Store

/-- No call fails in this event, except at its entry, and there is one call at a
time on a queue pair. -/
def Succeeds (debug : Bool) (s : Session) : Event → Prop
  | .initializeDevice _ => False
  | .call queuePairId _ => ∀ st ∈ s.machine queuePairId, st.result ≠ none
  | .step queuePairId env => ∀ st ∈ s.machine queuePairId, Goes debug st env
  | .recycle _ => True

instance (debug : Bool) (s : Session) : ∀ event, Decidable (s.Succeeds debug event)
  | .initializeDevice _ => inferInstanceAs (Decidable False)
  | .call queuePairId _ =>
      inferInstanceAs (Decidable (∀ st ∈ s.machine queuePairId, st.result ≠ none))
  | .step queuePairId env =>
      inferInstanceAs (Decidable (∀ st ∈ s.machine queuePairId, Goes debug st env))
  | .recycle _ => inferInstanceAs (Decidable True)

section Act

variable {s : Session} {cfg : Configuration} {zones : Zones} {debug : Bool}

/-- The result of work on one queue pair. -/
theorem InService.store (h : InService cfg zones s) (queuePairId : Nat) {st : Machine}
    (hsetup : st.setup = (s.machineOf cfg zones queuePairId).setup)
    (hqp : queuePairId < s.device.qpMemory.length ∨
      st.qp = (s.machineOf cfg zones queuePairId).qp)
    (howned : ∃ base ever, st.zones.Owns cfg.compressedSegSize base ever)
    (horder : ∃ opPool mbufPool, InOrder cfg opPool mbufPool st)
    (habsent : s.device.numQps ≤ queuePairId → ∃ status, st.pc = .returned status) :
    InService cfg st.zones (s.store queuePairId st) := by
  refine ⟨h.configuration_eq, rfl, howned, ?_, fun other => ?_, fun other hother => ?_⟩
  · exact h.numQps_le.trans (List.length_set ..).ge
  · by_cases hne : other = queuePairId
    · rw [hne, machineOf_store_self hsetup hqp]
      exact horder
    · obtain ⟨opPool, mbufPool, hin⟩ := h.inOrder other
      rw [@machineOf_store_of_ne s cfg zones queuePairId other st st.zones rfl hne]
      exact ⟨opPool, mbufPool, hin.withShared⟩
  · by_cases hne : other = queuePairId
    · rw [hne] at hother ⊢
      simpa [Session.store] using habsent hother
    · simpa [Session.store, Function.update_of_ne hne] using h.absent other hother

theorem InService.act_call (h : InService cfg zones s) {queuePairId : Nat} {request : Request}
    (hret : (s.machineOf cfg zones queuePairId).result ≠ none) :
    s.act debug (.call queuePairId request) =
      s.store queuePairId ((s.machineOf cfg zones queuePairId).start request) := by
  rw [← receive_of_returned hret]
  exact onQueuePair_eq h.configuration_eq h.zones_eq fun st => st.receive request

/-- The beginning of a call. -/
theorem InService.call (h : InService cfg zones s) {queuePairId : Nat} {request : Request}
    (hok : s.Succeeds debug (.call queuePairId request)) :
    ∃ st', s.act debug (.call queuePairId request) = s.store queuePairId st' ∧
      st'.zones = zones ∧ (∀ P, st'.Reserves P) ∧
      st'.setup = (s.machineOf cfg zones queuePairId).setup ∧
      st'.qp = (s.machineOf cfg zones queuePairId).qp ∧
      InService cfg zones (s.act debug (.call queuePairId request)) := by
  have hret := hok _ (machine_eq h.configuration_eq h.zones_eq queuePairId)
  have hact := @InService.act_call s cfg zones debug h queuePairId request hret
  have hzones := start_zones (s.machineOf cfg zones queuePairId) request
  have hsetup := start_setup (s.machineOf cfg zones queuePairId) request
  have hqp := start_qp (s.machineOf cfg zones queuePairId) request
  obtain ⟨opPool, mbufPool, hin⟩ := h.inOrder queuePairId
  obtain ⟨status, hstatus⟩ := Option.ne_none_iff_exists'.mp hret
  have hidle := hin.ordered.idle (result_eq_some.mp hstatus)
  have hstore := h.store queuePairId hsetup (Or.inr hqp) (by rw [hzones]; exact h.owned)
    ⟨_, _, hidle.start_inOrder request⟩ fun hle => start_of_absent hle request
  rw [hzones, ← hact] at hstore
  exact ⟨_, hact, hzones, hidle.start_reserves request, hsetup, hqp, hstore⟩

/-- The result of a step in which nothing fails. -/
theorem InService.continues (h : InService cfg zones s) (hb : cfg.Bounds) {queuePairId : Nat}
    {env : Env} {st' : Machine} {opPool mbufPool : Finset Nat}
    (hin : InOrder cfg opPool mbufPool (s.machineOf cfg zones queuePairId))
    (hcont : Continues (s.machineOf cfg zones queuePairId) env st')
    (hin' : InOrder cfg opPool mbufPool st')
    (htraffic : Zones.Traffic cfg.compressedSegSize zones st'.zones)
    (hreturned : ∀ status, (s.lanes queuePairId).pc = .returned status →
      st' = s.machineOf cfg zones queuePairId) :
    (∀ z ∈ zones.device.occupiedMemzones, z ∈ st'.zones.device.occupiedMemzones) ∧
      (∀ P, (s.machineOf cfg zones queuePairId).Reserves P → st'.Reserves P) ∧
      st'.setup = (s.machineOf cfg zones queuePairId).setup ∧
      (queuePairId < s.device.qpMemory.length ∨
        st'.qp = (s.machineOf cfg zones queuePairId).qp) ∧
      InService cfg st'.zones (s.store queuePairId st') := by
  obtain ⟨base, ever, howns⟩ := h.owned
  obtain ⟨new, howns'⟩ := howns.traffic htraffic
  have hwf : (s.machineOf cfg zones queuePairId).zones.WellFormed
      (s.machineOf cfg zones queuePairId).cfg.compressedSegSize := by
    rw [machineOf_cfg, machineOf_zones]
    exact howns.wellFormed
  have hsetup := hcont.setup_eq hin.ordered
  have hpresent : (queuePairId < s.device.qpMemory.length ∨
      st'.qp = (s.machineOf cfg zones queuePairId).qp) ∧
      (s.device.numQps ≤ queuePairId → ∃ status, st'.pc = .returned status) := by
    by_cases hlt : queuePairId < s.device.numQps
    · exact ⟨Or.inl (hlt.trans_le h.numQps_le), fun hle => absurd hlt (Nat.not_lt.mpr hle)⟩
    · obtain ⟨status, hpc⟩ := h.absent queuePairId (Nat.not_lt.mp hlt)
      rw [hreturned status hpc]
      exact ⟨Or.inr rfl, fun _ => ⟨status, hpc⟩⟩
  exact ⟨(hcont.since hin.ordered hwf).occupied_subset,
    fun P hres => hres.continues hwf hin.ordered hb hcont, hsetup, hpresent.1,
    h.store queuePairId hsetup hpresent.1 ⟨base, _, howns'⟩ ⟨opPool, mbufPool, hin'⟩ hpresent.2⟩

/-- One step of a call. -/
theorem InService.step (h : InService cfg zones s) (hb : cfg.Bounds) {queuePairId : Nat} {env : Env}
    (hok : s.Succeeds debug (.step queuePairId env)) :
    ∃ st', s.act debug (.step queuePairId env) = s.store queuePairId st' ∧
      (∀ z ∈ zones.device.occupiedMemzones, z ∈ st'.zones.device.occupiedMemzones) ∧
      (∀ P, (s.machineOf cfg zones queuePairId).Reserves P → st'.Reserves P) ∧
      st'.setup = (s.machineOf cfg zones queuePairId).setup ∧
      (queuePairId < s.device.qpMemory.length ∨
        st'.qp = (s.machineOf cfg zones queuePairId).qp) ∧
      InService cfg st'.zones (s.store queuePairId st') := by
  obtain ⟨opPool, mbufPool, hin⟩ := h.inOrder queuePairId
  have hgoes : Goes debug (s.machineOf cfg zones queuePairId) env :=
    hok _ (machine_eq h.configuration_eq h.zones_eq queuePairId)
  obtain ⟨hcont, hin'⟩ := hin.step hb debug (hgoes.noFault hb hin.ordered)
  exact ⟨_, onQueuePair_eq h.configuration_eq h.zones_eq fun st => Machine.step debug st env,
    h.continues hb hin hcont hin' (step_traffic debug (s.machineOf cfg zones queuePairId) env)
      fun status hpc => step_returned hpc debug env⟩

theorem InService.recycle (h : InService cfg zones s) (buffers : List Buffer) :
    let later := (zones.recycle (buffers.map Buffer.data)).2
    InService cfg later (s.act debug (.recycle buffers)) ∧
      ∀ queuePairId, (s.act debug (.recycle buffers)).machineOf cfg later queuePairId =
        (s.machineOf cfg zones queuePairId).withShared later s.memory s.numMaybeNotOk := by
  intro later
  have hact : s.act debug (.recycle buffers) = { s with
      device := { s.device with deviceMemory := some later.device }
      pool := later.pool } := by
    dsimp only [act]
    rw [h.zones_eq]
  have hlane : ∀ queuePairId, (s.act debug (.recycle buffers)).machineOf cfg later queuePairId =
      (s.machineOf cfg zones queuePairId).withShared later s.memory s.numMaybeNotOk := by
    intro queuePairId
    rw [hact]
    rfl
  refine ⟨⟨?_, ?_, ?_, ?_, ?_, ?_⟩, hlane⟩
  · rw [hact]
    exact h.configuration_eq
  · rw [hact]
    rfl
  · obtain ⟨base, ever, howns⟩ := h.owned
    obtain ⟨new, howns'⟩ := howns.traffic
      (Zones.recycle_traffic cfg.compressedSegSize zones (buffers.map Buffer.data))
    exact ⟨base, _, howns'⟩
  · rw [hact]
    exact h.numQps_le
  · intro queuePairId
    obtain ⟨opPool, mbufPool, hin⟩ := h.inOrder queuePairId
    rw [hlane]
    exact ⟨opPool, mbufPool, hin.withShared⟩
  · rw [hact]
    exact h.absent

end Act

/-! ## Handing a vector over -/

/-- `Recycle` on the device. -/
def recycled (s : Session) (buffers : List Buffer) : Nat :=
  s.zones.elim 0 fun zones => (zones.recycle (buffers.map Buffer.data)).1

/-- A call of `Compress`, with what happens on the device before it, until it
returns, and until its result is recycled. -/
structure Handover where
  before : List Event
  queuePairId : Nat
  decompressedBuffer : Option Buffer
  during : List Event
  after : List Event

/-- While the call that returns `v` is in progress, it is the only one on its
queue pair, and no memzone that it has put under a buffer of `v` is recycled. -/
def Spares (v : List Buffer) (queuePairId : Nat) (s : Session) : Event → Prop
  | .call other _ => other ≠ queuePairId
  | .recycle buffers => ∀ b ∈ buffers, b.data ∈ v.map Buffer.data →
      ∀ st ∈ s.machine queuePairId, ∀ z ∈ st.zonesInUse, b.data ≠ memzoneAddr z
  | _ => True

/-- No address of a buffer of `v` is recycled. -/
def Avoids (v : List Buffer) : Event → Prop
  | .recycle buffers => ∀ b ∈ buffers, b.data ∉ v.map Buffer.data
  | _ => True

instance (v : List Buffer) (queuePairId : Nat) (s : Session) :
    ∀ event, Decidable (s.Spares v queuePairId event)
  | .initializeDevice _ => inferInstanceAs (Decidable True)
  | .call other _ => inferInstanceAs (Decidable (other ≠ queuePairId))
  | .step _ _ => inferInstanceAs (Decidable True)
  | .recycle buffers =>
      inferInstanceAs (Decidable (∀ b ∈ buffers, b.data ∈ v.map Buffer.data →
        ∀ st ∈ s.machine queuePairId, ∀ z ∈ st.zonesInUse, b.data ≠ memzoneAddr z))

instance (v : List Buffer) : ∀ event, Decidable (Avoids v event)
  | .initializeDevice _ => inferInstanceAs (Decidable True)
  | .call _ _ => inferInstanceAs (Decidable True)
  | .step _ _ => inferInstanceAs (Decidable True)
  | .recycle buffers => inferInstanceAs (Decidable (∀ b ∈ buffers, b.data ∉ v.map Buffer.data))

namespace Handover

variable (debug : Bool) (s : Session) (h : Handover)

/-- The device when the call comes. -/
def called (debug : Bool) (s : Session) (h : Handover) : Session :=
  Runs.run (act debug) s h.before

/-- The device when the call has returned. -/
def answered (debug : Bool) (s : Session) (h : Handover) : Session :=
  Runs.run (act debug)
    ((h.called debug s).act debug (.call h.queuePairId (.compress h.decompressedBuffer))) h.during

/-- What the call has returned. -/
def returned (debug : Bool) (s : Session) (h : Handover) : List Buffer :=
  ((h.answered debug s).lanes h.queuePairId).call.emitted

/-- The device when the result is recycled. -/
def last (debug : Bool) (s : Session) (h : Handover) : Session :=
  Runs.run (act debug) (h.answered debug s) h.after

/-- No call fails, the call returns OK, and after that nobody recycles an address
of its result. -/
structure Happens (debug : Bool) (s : Session) (h : Handover) : Prop where
  before : Runs.Along (act debug) (Succeeds debug) s h.before
  call : (h.called debug s).Succeeds debug (.call h.queuePairId (.compress h.decompressedBuffer))
  during : Runs.Along (act debug)
    (fun now event => now.Succeeds debug event ∧
      now.Spares (h.returned debug s) h.queuePairId event)
    ((h.called debug s).act debug (.call h.queuePairId (.compress h.decompressedBuffer))) h.during
  success : ((h.answered debug s).lanes h.queuePairId).pc = .returned .success
  after : Runs.Along (act debug)
    (fun now event => now.Succeeds debug event ∧ Avoids (h.returned debug s) event)
    (h.answered debug s) h.after

end Handover

/-- A device that has been started, on which no call is in progress. -/
structure AtRest (cfg : Configuration) (zones : Zones) (s : Session) : Prop where
  accepted : Accepted cfg
  configuration_eq : s.device.configuration = some cfg
  zones_eq : s.zones = some zones
  owned : ∃ base ever, zones.Owns cfg.compressedSegSize base ever
  numQps_le : s.device.numQps ≤ s.device.qpMemory.length
  idle : ∀ queuePairId, (s.machineOf cfg zones queuePairId).Idle
  returned : ∀ queuePairId, ∃ status, (s.lanes queuePairId).pc = .returned status

section Handover

variable {s : Session} {cfg : Configuration} {zones : Zones} {debug : Bool} {v : List Buffer}
  {queuePairId : Nat}

theorem AtRest.inService (h : AtRest cfg zones s) : InService cfg zones s := by
  refine ⟨h.configuration_eq, h.zones_eq, h.owned, h.numQps_le, fun queuePairId => ?_,
    fun queuePairId _ => h.returned queuePairId⟩
  have hidle := h.idle queuePairId
  obtain ⟨status, hpc⟩ : ∃ status, (s.machineOf cfg zones queuePairId).pc = .returned status :=
    h.returned queuePairId
  refine ⟨(s.machineOf cfg zones queuePairId).qp.operationPool,
    (s.machineOf cfg zones queuePairId).qp.mbufPool, rfl, ⟨?_, ?_, ?_, ?_, ?_, ?_, ?_, ?_⟩, ?_, ?_⟩
  · simp [QueuePairMemory.assembled, hidle.pending, hidle.queue, hidle.numOpsAssembled,
      BlockStore.read]
  · simp [hidle.pending]
  · simp [hidle.pending]
  · simp [hidle.numOpsAssembled]
  · simp [hpc]
  · simp [hpc]
  · simp [hpc]
  · exact fun _ _ => hidle.pending
  · rw [hidle.pending]
    exact .refl _
  · rw [QueuePairMemory.pendingMbufs, hidle.pending]
    exact .refl _

theorem InService.tracked (h : InService cfg zones s) : zones.Tracked := by
  obtain ⟨base, ever, howns⟩ := h.owned
  exact howns.wellFormed.occupied_allocated

theorem InService.wellFormed (h : InService cfg zones s) :
    zones.WellFormed cfg.compressedSegSize := by
  obtain ⟨base, ever, howns⟩ := h.owned
  exact howns.wellFormed

/-- A memzone stays taken in every event that does not recycle its address. -/
theorem InService.act (h : InService cfg zones s) (hb : cfg.Bounds) {event : Event}
    (hok : s.Succeeds debug event) :
    ∃ later, InService cfg later (s.act debug event) ∧
      ∀ z ∈ zones.device.occupiedMemzones,
        (∀ buffers, event = .recycle buffers → memzoneAddr z ∉ buffers.map Buffer.data) →
        z ∈ later.device.occupiedMemzones := by
  cases event with
  | initializeDevice attempt => exact hok.elim
  | call queuePairId request =>
      obtain ⟨st', -, -, -, -, -, hservice⟩ := h.call hok
      exact ⟨zones, hservice, fun z hz _ => hz⟩
  | step queuePairId env =>
      obtain ⟨st', hact, hocc, -, -, -, hservice⟩ := h.step hb hok
      exact ⟨st'.zones, hact ▸ hservice, fun z hz _ => hocc z hz⟩
  | recycle buffers =>
      exact ⟨_, (@InService.recycle s cfg zones debug h buffers).1, fun z hz haddr =>
        Zones.recycle_occupied h.tracked hz (haddr buffers rfl)⟩

theorem InService.run (h : InService cfg zones s) (hb : cfg.Bounds) {events : List Event}
    (hall : Runs.Along (Session.act debug) (Succeeds debug) s events) :
    ∃ later, InService cfg later (Runs.run (Session.act debug) s events) := by
  refine Runs.Along.invariant (I := fun s => ∃ zones, InService cfg zones s) ?_ ⟨zones, h⟩ hall
  rintro s event ⟨zones, h⟩ hok
  obtain ⟨later, hlater, -⟩ := h.act hb hok
  exact ⟨later, hlater⟩

/-- The memzones under the buffers of `v`. -/
def Under (v : List Buffer) (z : Nat) : Prop := memzoneAddr z ∈ v.map Buffer.data

/-- The call on one queue pair holds the memzones under `v` that it has taken. -/
def Underway (cfg : Configuration) (v : List Buffer) (queuePairId : Nat) (s : Session) : Prop :=
  ∃ zones, InService cfg zones s ∧ (s.machineOf cfg zones queuePairId).Reserves (Under v)

/-- **Step lemma** for the time until the call returns. -/
theorem Underway.act (h : Underway cfg v queuePairId s) (hb : cfg.Bounds) {event : Event}
    (hok : s.Succeeds debug event) (hspares : s.Spares v queuePairId event) :
    Underway cfg v queuePairId (s.act debug event) := by
  obtain ⟨zones, hservice, hres⟩ := h
  cases event with
  | initializeDevice attempt => exact hok.elim
  | call other request =>
      obtain ⟨st', hact, hzones, -, -, -, hlater⟩ := hservice.call hok
      refine ⟨zones, hlater, ?_⟩
      rw [hact, @machineOf_store_of_ne s cfg zones other queuePairId st' zones hzones
        (Ne.symm hspares)]
      exact hres.withShared hres.occupied
  | step other env =>
      obtain ⟨st', hact, hocc, hstep, hsetup, hpresent, hlater⟩ := hservice.step hb hok
      refine ⟨st'.zones, hact ▸ hlater, ?_⟩
      rw [hact]
      by_cases hsame : queuePairId = other
      · subst hsame
        rw [machineOf_store_self hsetup hpresent]
        exact hstep _ hres
      · rw [@machineOf_store_of_ne s cfg zones other queuePairId st' st'.zones rfl hsame]
        exact hres.withShared fun z hz hP => hocc z (hres.occupied z hz hP)
  | recycle buffers =>
      obtain ⟨hlater, hlane⟩ := @InService.recycle s cfg zones debug hservice buffers
      refine ⟨_, hlater, ?_⟩
      rw [hlane]
      refine hres.withShared fun z hz hP => ?_
      refine Zones.recycle_occupied hservice.tracked (hres.occupied z hz hP) fun haddr => ?_
      obtain ⟨b, hb, hdata⟩ := List.mem_map.mp haddr
      exact hspares b hb (hdata ▸ hP) _
        (machine_eq hservice.configuration_eq hservice.zones_eq queuePairId) z hz hdata

/-- The result of the call lies in taken memzones, each in one of its own. -/
theorem Underway.result (h : Underway cfg v queuePairId s)
    (hv : (s.lanes queuePairId).call.emitted = v) :
    ∃ zones, InService cfg zones s ∧
      (v.filterMap Buffer.memzone).Nodup ∧ (∀ b ∈ v, ∃ z, b.data = memzoneAddr z) ∧
      ∀ z ∈ v.filterMap Buffer.memzone, z ∈ zones.device.occupiedMemzones := by
  obtain ⟨zones, hservice, hres⟩ := h
  have hemitted : (s.machineOf cfg zones queuePairId).call.emitted = v := hv
  have hbuffers := hres.buffers
  rw [hemitted] at hbuffers
  have hunder : ∀ z ∈ v.filterMap Buffer.memzone, Under v z := by
    intro z hz
    rw [Under, map_data_eq hbuffers]
    exact List.mem_map_of_mem hz
  have hsub : (v.filterMap Buffer.memzone).Sublist
      (s.machineOf cfg zones queuePairId).zonesInUse := by
    rw [zonesInUse, hemitted]
    exact List.sublist_append_left ..
  refine ⟨zones, hservice, List.nodup_iff_count_le_one.mpr fun z => ?_, hbuffers, fun z hz => ?_⟩
  · by_cases hz : z ∈ v.filterMap Buffer.memzone
    · exact (hsub.count_le z).trans (hres.count_le z (hunder z hz))
    · rw [List.count_eq_zero.mpr hz]
      exact Nat.zero_le 1
  · exact hres.occupied z (hsub.subset hz) (hunder z hz)

/-- `Recycle` finds every memzone of a result that is still taken. -/
theorem recycled_eq (h : InService cfg zones s) (hnd : (v.filterMap Buffer.memzone).Nodup)
    (hbuffers : ∀ b ∈ v, ∃ z, b.data = memzoneAddr z)
    (hocc : ∀ z ∈ v.filterMap Buffer.memzone, z ∈ zones.device.occupiedMemzones) :
    s.recycled v = v.length := by
  have hdata := map_data_eq hbuffers
  obtain ⟨zs, -, -, he⟩ := Zones.recycle_eq h.tracked (v.map Buffer.data)
  have hlisted : zones.listed (v.map Buffer.data) = (v.filterMap Buffer.memzone).toFinset := by
    ext z
    rw [Zones.mem_listed, hdata, List.mem_toFinset,
      List.mem_map_of_injective fun _ _ heq => Zones.memzoneAddr_inj.mp heq]
    exact ⟨And.right, fun hz => ⟨hocc z hz, hz⟩⟩
  have hlength := congrArg List.length hdata
  rw [List.length_map, List.length_map] at hlength
  rw [recycled, h.zones_eq, Option.elim_some, he, hlisted, List.toFinset_card_of_nodup hnd, hlength]

/-- **The result of `Compress`** is recycled completely. -/
theorem AtRest.recycled_returned (hrest : AtRest cfg zones s) {h : Handover}
    (hhappens : h.Happens debug s) :
    (h.last debug s).recycled (h.returned debug s) = (h.returned debug s).length := by
  have hb := hrest.accepted.bounds
  obtain ⟨zones₀, hcalled⟩ := hrest.inService.run hb hhappens.before
  change InService cfg zones₀ (h.called debug s) at hcalled
  -- the call begins with nothing in use
  have hunderway : Underway cfg (h.returned debug s) h.queuePairId
      ((h.called debug s).act debug (.call h.queuePairId (.compress h.decompressedBuffer))) := by
    obtain ⟨st', hact, hzones, hres, hsetup, hqp, hservice⟩ := hcalled.call hhappens.call
    refine ⟨zones₀, hservice, ?_⟩
    have hlane := @machineOf_store_self (h.called debug s) cfg zones₀ h.queuePairId st' hsetup
      (Or.inr hqp)
    rw [hzones] at hlane
    rw [hact, hlane]
    exact hres _
  have hanswered : Underway cfg (h.returned debug s) h.queuePairId (h.answered debug s) :=
    Runs.Along.invariant (I := Underway cfg (h.returned debug s) h.queuePairId)
      (fun now event hnow hok => hnow.act hb hok.1 hok.2) hunderway hhappens.during
  obtain ⟨zones₁, hservice, hnd, hbuffers, hocc⟩ := hanswered.result rfl
  obtain ⟨zones₂, hlast, hocc'⟩ := Runs.Along.invariant
    (I := fun now => ∃ zones, InService cfg zones now ∧
      ∀ z ∈ (h.returned debug s).filterMap Buffer.memzone, z ∈ zones.device.occupiedMemzones)
    (fun now event hnow hok => by
      obtain ⟨zones, hnow, hocc⟩ := hnow
      obtain ⟨later, hlater, hkeeps⟩ := hnow.act hb hok.1
      refine ⟨later, hlater, fun z hz => hkeeps z (hocc z hz) fun buffers hevent haddr => ?_⟩
      subst hevent
      obtain ⟨b, hbmem, hdata⟩ := List.mem_map.mp haddr
      refine hok.2 b hbmem ?_
      rw [hdata, map_data_eq hbuffers]
      exact List.mem_map_of_mem hz)
    ⟨zones₁, hservice, hocc⟩ hhappens.after
  exact recycled_eq hlast hnd hbuffers hocc'

end Handover

/-! ## The device after `Initialize` -/

theorem preallocateQueuePairs_idle {deviceId : Nat} {cfg : Configuration}
    {answers : Nat → PreallocateAnswer} :
    ∀ {ids : List Nat}, ∀ qp ∈ (CompressDevice.preallocateQueuePairs deviceId cfg answers ids).1,
      qp.pendingOperations = [] ∧ qp.numOpsAssembled = 0
  | [], qp, hqp => by simp [CompressDevice.preallocateQueuePairs] at hqp
  | qpId :: rest, qp, hqp => by
      unfold CompressDevice.preallocateQueuePairs at hqp
      dsimp only at hqp
      split_ifs at hqp
      · rcases List.mem_cons.mp hqp with rfl | hqp
        · exact ⟨rfl, rfl⟩
        · exact preallocateQueuePairs_idle qp hqp
      · rw [List.mem_singleton.mp hqp]
        exact ⟨rfl, rfl⟩

/-- `Initialize` leaves a new device at rest when it returns OK. -/
theorem initialize_atRest {deviceId : UInt8} {workerLcores : List Nat} {pool : MemzonePool}
    {memory : Memory} {attempt : Attempt} {out : Initialized}
    (h : (CompressDevice.new deviceId workerLcores).initializeDevice pool attempt = some out)
    (hok : out.status.code = .ok) (debug : Bool) :
    ∃ cfg zones, AtRest cfg zones
      ((begin deviceId workerLcores pool memory).act debug (.initializeDevice attempt)) := by
  have hact : (begin deviceId workerLcores pool memory).act debug (.initializeDevice attempt) =
      { begin deviceId workerLcores pool memory with
        device := out.device
        pool := out.pool } := by
    dsimp only [act]
    rw [show (begin deviceId workerLcores pool memory).device = .new deviceId workerLcores from rfl,
      show (begin deviceId workerLcores pool memory).pool = pool from rfl, h]
  rw [hact]
  obtain ⟨windowSize, haccepted, ⟨state, hdevice, -⟩, hpool, hadded⟩ :=
    CompressDevice.initialize_ok h hok
  generalize { attempt.configuration.withMaxSglSegs with windowSize := windowSize } = cfg at *
  have howns := Zones.preallocate_owns attempt.self deviceId.toNat pool cfg attempt.memzones
  have hlength := (CompressDevice.initialize_numQps_le h).2 hok
  refine ⟨cfg, ((CompressDevice.new deviceId workerLcores).preallocatedMemory pool cfg attempt).1,
    haccepted, ?_, ?_, ⟨pool, _, howns⟩, hlength, fun queuePairId => ?_, fun _ => ⟨_, rfl⟩⟩
  · rw [hdevice]
  · unfold zones
    rw [hdevice, hpool]
    rfl
  · have hidle : ∀ qp ∈ ((CompressDevice.new deviceId workerLcores).addedQueuePairs pool cfg
        attempt).1, qp.pendingOperations = [] ∧ qp.numOpsAssembled = 0 := by
      unfold CompressDevice.addedQueuePairs
      split_ifs
      · exact fun qp hqp => preallocateQueuePairs_idle qp hqp
      · simp
    have hqp : ∀ qp, qp = out.device.qpMemory.getD queuePairId {} →
        qp.pendingOperations = [] ∧ qp.numOpsAssembled = 0 := by
      rw [hdevice]
      rintro qp rfl
      have hnil : (CompressDevice.new deviceId workerLcores).qpMemory = [] := rfl
      rw [hnil, List.nil_append, List.getD_eq_getElem?_getD]
      rcases hget : (CompressDevice.addedQueuePairs (.new deviceId workerLcores) pool cfg
        attempt).1[queuePairId]? with _ | qp
      · exact ⟨rfl, rfl⟩
      · exact hidle qp (List.mem_of_getElem? hget)
    exact ⟨(hqp _ rfl).1, (hqp _ rfl).2, rfl⟩

/-! ## What `Recycle` counts -/

/-- **`Recycle` counts exactly.**  On every device memory that there can be without
an overlap in the tracker, it counts and moves what it should, for any list of
buffers; and it finds all buffers of a vector returned by `Compress`, whatever has
happened on the device, as long as no call has failed. -/
theorem recycle_exact (debug : Bool) :
    (∀ events : List PoolEvent,
      Runs.Along SharedPool.act (fun s event => ¬ s.Overlaps event) .empty events →
      ∀ (memory : Nat) (zones : Zones),
        (Runs.run SharedPool.act .empty events).Sees memory zones →
        ∀ buffers : List Buffer, zones.RecyclesExactly (buffers.map Buffer.data)) ∧
    (∀ (cfg : Configuration) (zones : Zones) (s : Session) (h : Handover),
      AtRest cfg zones s → h.Happens debug s →
      (h.last debug s).recycled (h.returned debug s) = (h.returned debug s).length) := by
  refine ⟨fun events halong memory zones hsees buffers => ?_,
    fun _ _ _ _ hrest hhappens => hrest.recycled_returned hhappens⟩
  obtain ⟨owner, hseparate⟩ := SharedPool.run_separate halong
  exact hseparate.recyclesExactly hsees (buffers.map Buffer.data)

/-- A started device with two queue pairs. -/
def sampleService : Session where
  device :=
    { deviceId := 0
      workerLcores := [1, 2]
      configuration := some (sampleConfig 1)
      state := .started
      deviceMemory := some (sampleMachine 1 6).zones.device
      qpMemory := [(sampleMachine 1 6).qp, (sampleMachine 1 6).qp] }
  pool := (sampleMachine 1 6).zones.pool
  memory := (sampleMachine 1 6).memory

theorem sampleService_atRest :
    AtRest (sampleConfig 1) (sampleMachine 1 6).zones sampleService := by
  refine ⟨sampleConfig_accepted.1, rfl, rfl, ⟨⟨∅, fun _ => (sampleConfig 1).compressedSegSize, 0⟩,
    List.range 6, ⟨List.nodup_range, by simp, ?_, fun _ _ => rfl, fun _ _ => rfl, ?_⟩,
    List.nodup_range, by simp [sampleMachine], by simp [sampleMachine]⟩, by decide, ?_,
    fun _ => ⟨_, rfl⟩⟩
  · decide +kernel
  · simp [sampleMachine]
  · rintro (_ | _ | queuePairId) <;> exact ⟨rfl, rfl, rfl⟩

/-- Two buffers of queue pair 0 in memzones 0 and 1; queue pair 1 works meanwhile,
and its buffer in memzone 2 is recycled. -/
def sampleHandover : Handover where
  before := []
  queuePairId := 0
  decompressedBuffer := some ⟨⟨.host 0, 0⟩, 16⟩
  during :=
    [.step 0 { bulk := ⟨some [0, 1], some [0, 1, 2, 3]⟩ },
      .call 1 (.compress (some ⟨⟨.host 1, 0⟩, 8⟩)),
      .step 1 { bulk := ⟨some [0], some [0, 1]⟩ },
      .step 0 { numAccepted := 2 },
      .step 0 { results := [⟨.success, [7]⟩, ⟨.success, [8]⟩] },
      .step 0 {}]
  after :=
    [.step 1 { numAccepted := 1 },
      .step 1 { results := [⟨.success, [9]⟩] },
      .step 1 {},
      .recycle [⟨memzoneAddr 2, 1⟩, ⟨memzoneAddr 2, 1⟩]]

theorem sampleHandover_happens : sampleHandover.Happens true sampleService :=
  ⟨by decide +kernel, by decide +kernel, by decide +kernel, by decide +kernel, by decide +kernel⟩

/-- A device memory that has taken the memzones 3 and 4. -/
def samplePoolEvents : List PoolEvent :=
  [.construct 0 1, .call (.reserve 0 3), .call (.reserve 1 4), .call (.emplace 1),
    .call (.emplace 0), .obtain 0 3 true, .obtain 0 4 true]

theorem samplePoolEvents_apart :
    Runs.Along SharedPool.act (fun s event => ¬ s.Overlaps event) .empty samplePoolEvents := by
  simp [samplePoolEvents, SharedPool.Overlaps, Tracker.Overlaps, SharedPool.act, SharedPool.empty,
    SharedPool.Releasable, SharedPool.onMemory, Tracker.step, Tracker.of, Function.update,
    memzoneAddr]
  constructor <;> intro t <;> split_ifs <;> simp

theorem recycle_exact_sample :
    (∃ zones, (Runs.run SharedPool.act .empty samplePoolEvents).Sees 0 zones ∧
      zones.RecyclesExactly [memzoneAddr 4, memzoneAddr 4, ⟨.host 0, 0⟩, memzoneAddr 5]) ∧
    (sampleHandover.last true sampleService).recycled
      (sampleHandover.returned true sampleService) = 2 := by
  obtain ⟨hall, hreturned⟩ := recycle_exact true
  refine ⟨?_, (hreturned _ _ _ _ sampleService_atRest sampleHandover_happens).trans
    (by decide +kernel)⟩
  have hsome : ((Runs.run SharedPool.act .empty samplePoolEvents).memories 0).isSome = true := by
    decide +kernel
  obtain ⟨device, hdevice⟩ := Option.isSome_iff_exists.mp hsome
  obtain ⟨owner, hseparate⟩ := SharedPool.run_separate samplePoolEvents_apart
  have hsees := hseparate.sees hdevice (fun _ => 16) 32
  exact ⟨_, hsees, hall samplePoolEvents samplePoolEvents_apart 0 _ hsees
    [⟨memzoneAddr 4, 1⟩, ⟨memzoneAddr 4, 9⟩, ⟨⟨.host 0, 0⟩, 3⟩, ⟨memzoneAddr 5, 1⟩]⟩

/-- Thread 0 releases memzone 3; its address is reserved and entered again by
thread 1, for a device memory, before the old entry is erased. -/
def sampleOverlap : List PoolEvent :=
  [.construct 0 1, .call (.reserve 0 3), .call (.emplace 0), .call (.find 0 3), .call (.free 0),
    .call (.reserve 1 3), .call (.emplace 1), .obtain 0 3 true, .call (.erase 0)]

/-- The first call fails when operation 0 is handed back, and operation 1 is left
in the device.  It is the first one that the second call dequeues. -/
def sampleLeftover : Handover where
  before :=
    [.call 0 (.compress (some ⟨⟨.host 0, 0⟩, 16⟩)),
      .step 0 { bulk := ⟨some [0, 1], some [0, 1, 2, 3]⟩ },
      .step 0 { numAccepted := 2 },
      .step 0 { results := [⟨.error, []⟩] }]
  queuePairId := 0
  decompressedBuffer := some ⟨⟨.host 0, 0⟩, 16⟩
  during :=
    [.step 0 { bulk := ⟨some [0, 2], some [0, 3, 2, 1]⟩ },
      .step 0 { numAccepted := 2 },
      .step 0 { results := [⟨.success, [7]⟩, ⟨.success, [8]⟩] },
      .step 0 {}]
  after := []

/-- After an overlap a taken memzone is not found, and after a call that has failed
a vector of two buffers counts as one, although the second call succeeds and
nobody recycles anything meanwhile. -/
theorem recycle_exact_broken :
    (∃ zones, (Runs.run SharedPool.act .empty sampleOverlap).Sees 0 zones ∧
      (zones.listed [memzoneAddr 3]).card = 1 ∧ (zones.recycle [memzoneAddr 3]).1 = 0) ∧
    AtRest (sampleConfig 1) (sampleMachine 1 6).zones sampleService ∧
    (let h := sampleLeftover
      let v := h.returned false sampleService
      (h.called false sampleService).Succeeds false
          (.call h.queuePairId (.compress h.decompressedBuffer)) ∧
        Runs.Along (Session.act false)
          (fun now event => now.Succeeds false event ∧ now.Spares v h.queuePairId event)
          ((h.called false sampleService).act false
            (.call h.queuePairId (.compress h.decompressedBuffer))) h.during ∧
        ((h.answered false sampleService).lanes h.queuePairId).pc = .returned .success ∧
        v.length = 2 ∧ (h.last false sampleService).recycled v = 1) := by
  refine ⟨⟨⟨⟨1, [], {3}, 0⟩, ∅, fun _ => 16, 16⟩, ⟨rfl, fun addr => ?_⟩, by decide, by decide⟩,
    sampleService_atRest, by decide +kernel, by decide +kernel, by decide +kernel,
    by decide +kernel, by decide +kernel⟩
  have hnone : (Runs.run SharedPool.act .empty sampleOverlap).tracker.entries addr = none := by
    simp [sampleOverlap, SharedPool.act, SharedPool.empty, SharedPool.Releasable,
      SharedPool.onMemory, Tracker.step, Tracker.of, Function.update, memzoneAddr]
  rw [Tracker.of, hnone]
  unfold MemzonePool.of
  split <;> simp

end Session

end Bitar
