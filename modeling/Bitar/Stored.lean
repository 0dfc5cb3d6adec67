import Bitar.ConcurrentRoundTrip

/-!
# Buffers that nobody writes

A program with calls in progress on several queue pairs has to know that the
buffers it is going to use keep their contents until then: its input, the vectors
that `Compress` has returned and the outputs of `Decompress`.

**Results.**
* `Stored.act`, `Result.act`: they do, in every event that keeps off them.
* `Separate.orderly_call`: when a call may be made.
* `Party.result`: the result of a call of `Compress` that has just returned.
-/

namespace Bitar

open BlockStore Pieces

namespace Machine

variable {st st' : Machine} {env : Env} {debug : Bool}

/-- A call in which nothing fails returns OK. -/
theorem Continues.status_eq (hstep : Continues st env st') (hnone : st.result = none)
    {status : Status} (hpc : st'.pc = .returned status) : status = .success := by
  have hdrain : ∀ s : Machine, s.drainOrFinish.pc = .returned status → status = .success := by
    intro s h
    rcases s.drainOrFinish_cases with ⟨-, he⟩ | ⟨-, he⟩ <;> rw [he] at h
    · cases h
    · rw [finish_pc] at h
      exact (Pc.returned.inj h).symm
  cases hstep with
  | built hpc' built hT => cases hpc
  | full hpc' hpos => cases hpc
  | exhausted hpc' hrem hnone' => exact hdrain _ hpc
  | enqueued hpc' hread => cases hpc
  | dequeued hpc' hsucc => cases hpc
  | drained hpc' hsucc => exact hdrain _ hpc
  | returned hpc' =>
      rw [result_eq_some.mpr hpc'] at hnone
      cases hnone

end Machine

namespace Session

open Machine

variable {s s' : Session} {cfg : Configuration} {zones later : Zones} {debug : Bool}
  {queuePairId : Nat} {event : Event} {v : List Buffer} {contents : List (List UInt8)}

theorem Separate.zones_unique (h : Separate cfg zones s) (h' : Separate cfg later s) :
    zones = later :=
  Option.some.inj (h.inService.zones_eq.symm.trans h'.inService.zones_eq)

/-- The call in progress on a queue pair that an event leaves alone. -/
theorem Moved.lane_eq {actor : Option Nat} (h : Moved cfg zones later s s' actor)
    (hne : some queuePairId ≠ actor) :
    (s'.lanes queuePairId).pc = (s.lanes queuePairId).pc ∧
      (s'.lanes queuePairId).call = (s.lanes queuePairId).call := by
  have hshared := h.shared queuePairId hne
  exact ⟨congrArg Machine.pc hshared, congrArg Machine.call hshared⟩

/-- The buffers have these contents, and no call in progress writes them. -/
structure Stored (cfg : Configuration) (zones : Zones) (s : Session) (v : List Buffer)
    (contents : List (List UInt8)) : Prop where
  held : Held (blocksOf v) s.memory cfg zones s
  contents_eq : v.map (fun b => b.bytes s.memory) = contents

/-- The buffers are a result of `Compress` that has not been recycled. -/
structure Result (cfg : Configuration) (zones : Zones) (s : Session) (v : List Buffer)
    (contents : List (List UInt8)) : Prop extends Stored cfg zones s v contents where
  buffers : ∀ b ∈ v, ∃ z, b.data = memzoneAddr z
  nodup : (v.filterMap Buffer.memzone).Nodup
  occupied : ∀ z ∈ v.filterMap Buffer.memzone, z ∈ zones.device.occupiedMemzones

theorem mem_blocksOf {b : Buffer} (h : b ∈ v) : b.data.block ∈ blocksOf v :=
  List.mem_map_of_mem (f := fun buffer : Buffer => buffer.data.block) h

theorem memzone_mem_blocksOf {z : Nat} (h : z ∈ v.filterMap Buffer.memzone) :
    Block.memzone z ∈ blocksOf v := by
  obtain ⟨b, hb, hz⟩ := List.mem_filterMap.mp h
  unfold Buffer.memzone at hz
  split at hz
  · next w hblock =>
      obtain rfl := Option.some.inj hz
      exact hblock ▸ mem_blocksOf hb
  · cases hz

theorem Held.stored {memory : Memory} (h : Held (blocksOf v) memory cfg zones s)
    (hcontents : v.map (fun b => b.bytes memory) = contents) : Stored cfg zones s v contents := by
  refine ⟨⟨.refl _ _, h.settled, h.spared⟩, hcontents ▸ List.map_congr_left fun b hb => ?_⟩
  exact h.agree.read (mem_blocksOf hb) _ _

/-- **The rule for stored buffers.** -/
theorem Stored.act (h : Stored cfg zones s v contents) (hs : Separate cfg zones s)
    (hb : cfg.Bounds) (horderly : s.Orderly debug event) (hkeeps : s.Keeps (blocksOf v) event)
    (hlater : Separate cfg later (s.act debug event)) :
    Stored cfg later (s.act debug event) v contents := by
  obtain ⟨later', hlater', hheld⟩ := h.held.act hs hb horderly hkeeps
  obtain rfl := hlater.zones_unique hlater'
  exact hheld.stored h.contents_eq

/-- **The rule for results of `Compress`.** -/
theorem Result.act (h : Result cfg zones s v contents) (hs : Separate cfg zones s)
    (hb : cfg.Bounds) (horderly : s.Orderly debug event) (hkeeps : s.Keeps (blocksOf v) event)
    (hlater : Separate cfg later (s.act debug event)) :
    Result cfg later (s.act debug event) v contents := by
  obtain ⟨later', hservice, hocc⟩ := hs.inService.act hb horderly.1
  obtain rfl : later = later' :=
    Option.some.inj (hlater.inService.zones_eq.symm.trans hservice.zones_eq)
  refine ⟨h.toStored.act hs hb horderly hkeeps hlater, h.buffers, h.nodup, fun z hz => ?_⟩
  refine hocc z (h.occupied z hz) fun buffers hevent haddr => ?_
  subst hevent
  obtain ⟨buffer, hbuffer, hdata⟩ := List.mem_map.mp haddr
  refine hkeeps buffer hbuffer ?_
  rw [hdata]
  exact memzone_mem_blocksOf hz

/-- `Recycle` finds all buffers of a result. -/
theorem Result.recycled (h : Result cfg zones s v contents) (hs : Separate cfg zones s) :
    s.recycled v = v.length :=
  recycled_eq hs.inService h.nodup h.buffers h.occupied

/-- What is fixed when a device is created, and its state: only `Initialize` sets
the state. -/
theorem act_device_eq (debug : Bool) (s : Session)
    (hevent : ∀ attempt, event ≠ .initializeDevice attempt) :
    (s.act debug event).device.state = s.device.state ∧
      (s.act debug event).device.workerLcores = s.device.workerLcores ∧
      (s.act debug event).device.deviceId = s.device.deviceId := by
  have hlane : ∀ (q : Nat) (f : Machine → Machine),
      (s.onQueuePair q f).device.state = s.device.state ∧
      (s.onQueuePair q f).device.workerLcores = s.device.workerLcores ∧
      (s.onQueuePair q f).device.deviceId = s.device.deviceId := by
    intro q f
    unfold onQueuePair
    split <;> exact ⟨rfl, rfl, rfl⟩
  cases event with
  | initializeDevice attempt => exact absurd rfl (hevent attempt)
  | call other request => exact hlane _ _
  | step other env => exact hlane _ _
  | recycle buffers =>
      dsimp only [Session.act]
      split <;> exact ⟨rfl, rfl, rfl⟩

theorem Orderly.device_eq (h : s.Orderly debug event) :
    (s.act debug event).device.state = s.device.state ∧
      (s.act debug event).device.workerLcores = s.device.workerLcores ∧
      (s.act debug event).device.deviceId = s.device.deviceId :=
  act_device_eq debug s fun _ he => (he ▸ h.1 : s.Succeeds debug (.initializeDevice _)).elim

/-! ## Making a call -/

/-- When a call may be made: no call in progress writes what it reads or touches
what it writes. -/
theorem Separate.orderly_call (h : Separate cfg zones s) {request : Request}
    (hret : ∃ status, (s.lanes queuePairId).pc = .returned status)
    (hreads : ∀ b ∈ ((s.machineOf cfg zones queuePairId).start request).call.readBlocks,
      zones.Settled b ∧ ∀ other, b ∉ (s.machineOf cfg zones other).footprint.writes)
    (hwrites : ∀ b ∈ ((s.machineOf cfg zones queuePairId).start request).writeBlocks,
      zones.Settled b ∧ b ∉ ((s.machineOf cfg zones queuePairId).start request).call.readBlocks ∧
        ∀ other, other ≠ queuePairId → b ∉ (s.machineOf cfg zones other).footprint.blocks) :
    s.Orderly debug (.call queuePairId request) := by
  have hmachine := machine_eq h.inService.configuration_eq h.inService.zones_eq queuePairId
  obtain ⟨status, hpc⟩ := hret
  refine ⟨fun st hst => ?_, fun st hst => ?_⟩
  · obtain rfl := Option.some.inj (hmachine.symm.trans hst)
    rw [result_eq_some.mpr (show (s.machineOf cfg zones queuePairId).pc = _ from hpc)]
    simp
  · obtain rfl := Option.some.inj (hmachine.symm.trans hst)
    refine ⟨fun b hb => ?_, fun b hb hmem => ?_, fun other _ hne => ⟨fun b hb => ?_,
      fun b hb hmem => ?_⟩⟩
    · rcases Footprint.mem_blocks.mp hb with hr | hw
      · exact (hreads b (reads_subset _ b hr)).1
      · exact (hwrites b (writes_subset _ b hw)).1
    · exact (hwrites b (writes_subset _ b hb)).2.1 (reads_subset _ b hmem)
    · rw [h.inService.footprint_eq]
      exact (hwrites b (writes_subset _ b hb)).2.2 other hne
    · rw [h.inService.footprint_eq] at hb
      rcases Footprint.mem_blocks.mp hmem with hr | hw
      · exact (hreads b (reads_subset _ b hr)).2 other hb
      · exact (hwrites b (writes_subset _ b hw)).2.2 other hne
          (Footprint.mem_blocks.mpr (Or.inr hb))

/-- The result of a call that has just returned. -/
theorem Party.result (h : Party cfg zones s queuePairId)
    {status : Status} (hpc : (s.lanes queuePairId).pc = .returned status)
    (hcontents : (s.machineOf cfg zones queuePairId).contents = contents) :
    Result cfg zones s (s.lanes queuePairId).call.emitted contents := by
  have huse : (s.lanes queuePairId).call.emitted.filterMap Buffer.memzone ⊆
      (s.machineOf cfg zones queuePairId).zonesInUse :=
    (List.sublist_append_left ..).subset
  refine ⟨(h.held hpc h.blocksOf_emitted).stored hcontents, h.reserves.buffers, ?_, fun z hz => ?_⟩
  · refine List.nodup_iff_count_le_one.mpr fun z => ?_
    exact ((List.sublist_append_left _ _).count_le z).trans (h.reserves.count_le z trivial)
  · exact h.reserves.occupied z (huse hz) trivial

end Session

end Bitar
