import Bitar.AsyncRounds

/-!
# Runs of `EvaluateAsync`

Between two rounds no call is in progress.  The vectors of a round of compression
are recycled, or decompressed in the next rounds and recycled after these.

**Results.**
* `recycleVectors_holding`: `Recycle` finds all buffers, in whichever order it goes
  through the vectors.
* `Sound.step`: the step lemma.
* `evaluateAsync_ok`: whenever nothing fails, the outputs are the input.
-/

namespace Bitar

open Rows BlockStore Pieces Session

/-- What the devices are expected to do with the tests: operations of one segment,
of the size with which the outputs are allocated. -/
structure Suited (enc : List UInt8 → List UInt8) (cfg : Nat → Configuration)
    (lcores : List (List Nat)) (n : Nat) : Prop where
  assigned : Assigned lcores n
  pos : 0 < n
  bounds : ∀ d < lcores.length, (cfg d).Bounds
  maxSglSegs_eq : ∀ d < lcores.length, (cfg d).maxSglSegs.toNat = 1
  segSize_eq : ∀ d < lcores.length, (cfg d).decompressedSegSize.toNat = kDecompressedSegSize
  selfDelimiting : SelfDelimiting enc

namespace Evaluation

/-! ## Recycling the vectors -/

section Recycle

variable {enc : List UInt8 → List UInt8} {cfg : Nat → Configuration} {lcores : List (List Nat)}
  {n : Nat} {debug : Bool} {hosts : Nat → Nat → Buffer} {data : Nat → Nat → List UInt8}
  {vectors : Nat → Nat → List Buffer} {devices : Devices}

/-- The vectors at these places have not been recycled. -/
structure AllHolding (enc : List UInt8 → List UInt8) (cfg : Nat → Configuration)
    (lcores : List (List Nat)) (n : Nat) (hosts : Nat → Nat → Buffer)
    (data : Nat → Nat → List UInt8) (vectors : Nat → Nat → List Buffer)
    (pending : List (Nat × Nat)) (devices : Devices) : Prop where
  each : ∀ d < lcores.length, ∃ zones,
    Holding enc (cfg d) (hosts d) (data d) (share lcores n d) (vectors d)
      {q | (d, q) ∈ pending} zones (devices d)
  apart : devices.Apart lcores.length

/-- `Recycle` finds all buffers, in whichever order it goes through the vectors. -/
theorem recycleVectors_holding (hb : ∀ d < lcores.length, (cfg d).Bounds) :
    ∀ {pending : List (Nat × Nat)} {devices : Devices}, pending.Nodup →
      (∀ p ∈ pending, p.1 < lcores.length) →
      AllHolding enc cfg lcores n hosts data vectors pending devices →
      ∃ after,
        recycleVectors debug (pending.map fun p => (p.1, vectors p.1 p.2)) devices = some after ∧
        AllHolding enc cfg lcores n hosts data vectors [] after := by
  intro pending
  induction pending with
  | nil => exact fun _ _ h => ⟨_, rfl, h⟩
  | cons p pending ih =>
      intro devices hnodup hlt h
      obtain ⟨d, q⟩ := p
      obtain ⟨hnot, hnodup'⟩ := List.nodup_cons.mp hnodup
      have hd : d < lcores.length := hlt (d, q) List.mem_cons_self
      obtain ⟨zones, hholding⟩ := h.each d hd
      obtain ⟨hall, later, hlater⟩ :=
        @Holding.recycle _ _ _ debug _ _ _ _ _ _ hholding (hb d hd) q List.mem_cons_self
      obtain ⟨hmemory, hpool, hcounter, hholds⟩ := @InService.recycle_keeps (devices d) (cfg d)
        zones debug hholding.attended.separate.inService (vectors d q)
      have hapart : (devices.set d ((devices d).act debug (.recycle (vectors d q)))).Apart
          lcores.length := by
        refine h.apart.set hd (fun other hother z hz => ?_) fun z hz => Or.inl (hholds z hz)
        obtain ⟨zones', hother'⟩ := h.each other hother
        exact hother'.attended.separate.inService.mem_allocated hz
      have hnext : AllHolding enc cfg lcores n hosts data vectors pending
          (devices.set d ((devices d).act debug (.recycle (vectors d q)))) := by
        refine ⟨fun other hother => ?_, hapart⟩
        by_cases hsame : other = d
        · subst hsame
          have hset : {r | (other, r) ∈ (other, q) :: pending} \ {q} =
              {r | (other, r) ∈ pending} := by
            ext r
            simp only [Set.mem_sdiff, Set.mem_ofPred_eq, List.mem_cons, Prod.mk.injEq, true_and,
              Set.mem_singleton_iff]
            refine ⟨fun hr => hr.1.resolve_left hr.2, fun hr => ⟨Or.inr hr, ?_⟩⟩
            rintro rfl
            exact hnot hr
          rw [Devices.set_self]
          exact ⟨later, hset ▸ hlater⟩
        · obtain ⟨zones', hholding'⟩ := h.each other hother
          have hset : {r | (other, r) ∈ (d, q) :: pending} = {r | (other, r) ∈ pending} := by
            ext r
            simp [hsame]
          rw [Devices.set_of_shared hsame hmemory hpool hcounter]
          exact ⟨zones', hset ▸ hholding'⟩
      obtain ⟨after, hrun, hafter⟩ :=
        ih hnodup' (fun p hp => hlt p (List.mem_cons_of_mem _ hp)) hnext
      refine ⟨after, ?_, hafter⟩
      rw [List.map_cons, recycleVectors, if_pos hall]
      exact hrun

end Recycle

/-- The queue pairs of the tests, device after device. -/
def allPlaces (lcores : List (List Nat)) (n : Nat) : List (Nat × Nat) :=
  (List.range lcores.length).flatMap fun d => (List.range (share lcores n d)).map (d, ·)

/-- The vector in a slot. -/
def vectorAt (ev : Evaluation) (d q : Nat) : List Buffer :=
  ((ev.compressedBuffers d).getD []).getD q []

/-- The vector of a test. -/
def vectorOf (ev : Evaluation) (lcores : List (List Nat)) (idx : Nat) : List Buffer :=
  (ev.compressedAt (places lcores idx)).getD []

section Vectors

variable {ev : Evaluation} {lcores : List (List Nat)} {n d q : Nat}

theorem mem_allPlaces :
    (d, q) ∈ allPlaces lcores n ↔ d < lcores.length ∧ q < share lcores n d := by
  simp [allPlaces]

theorem nodup_allPlaces (lcores : List (List Nat)) (n : Nat) : (allPlaces lcores n).Nodup := by
  refine List.nodup_flatMap.mpr ⟨fun d _ => ?_, ?_⟩
  · exact List.nodup_range.map fun q r he => (Prod.mk.inj he).2
  · refine List.nodup_range.imp fun hne p hp hp' => hne ?_
    obtain ⟨q, -, rfl⟩ := List.mem_map.mp hp
    obtain ⟨r, -, he⟩ := List.mem_map.mp hp'
    exact (Prod.mk.inj he).1.symm

theorem getD_compressedAt (ev : Evaluation) (d q : Nat) :
    (ev.compressedAt ⟨d, q⟩).getD [] = ev.vectorAt d q := by
  unfold compressedAt vectorAt
  cases ev.compressedBuffers d with
  | none => simp
  | some vectors => simp [List.getD_eq_getElem?_getD]

theorem vectorOf_eq (ha : Assigned lcores n) (hq : q < share lcores n d) :
    ev.vectorOf lcores (offset lcores d + q) = ev.vectorAt d q := by
  rw [vectorOf, ha.places_eq hq, getD_compressedAt]

/-- `Recycle` goes through the vectors of all tests. -/
theorem vectors_eq (hnum : ev.numDevices = lcores.length)
    (hslots : ∀ d, ((ev.compressedBuffers d).getD []).length = share lcores n d) :
    ev.vectors = (allPlaces lcores n).map fun p => (p.1, ev.vectorAt p.1 p.2) := by
  rw [vectors, allPlaces, List.map_flatMap, hnum]
  refine List.flatMap_congr fun d _ => ?_
  rw [List.map_map, ← hslots d]
  refine List.ext_getElem (by simp) fun i hi _ => ?_
  simp only [List.length_map] at hi
  simp [vectorAt, List.getElem?_eq_getElem hi]

end Vectors

/-! ## The end of a round -/

section EndOfRound

variable {ev : Evaluation} {w : Workload} {enc : List UInt8 → List UInt8}
  {cfg : Nat → Configuration} {lcores : List (List Nat)} {n : Nat} {debug : Bool}
  {phase : Nat → Phase} {hosts : Nat → Nat → Buffer} {data : Nat → Nat → List UInt8}

theorem Running.numDevices_eq (h : Running w lcores n phase ev) :
    ev.numDevices = lcores.length := by
  have hlength := congrArg List.length h.lcores_eq
  rwa [workerLcores, List.length_map, List.length_range] at hlength

theorem Running.idle (h : Running w lcores n phase ev) (hdone : ∀ idx < n, phase idx = .done)
    (l : Nat) : (ev.lcoreConfig l).task = none :=
  h.underway.idle_of_done hdone l

/-- All calls have begun. -/
theorem calledOn_done (hdone : ∀ idx < n, phase idx = .done) (d : Nat) :
    calledOn lcores n phase d = {q | q < share lcores n d} := by
  ext q
  refine and_iff_left_of_imp fun hq => Or.inr (hdone _ ?_)
  exact (lt_of_lt_share hq).2.2

theorem calledOn_fresh (d : Nat) : calledOn lcores n (fun _ => .fresh) d = ∅ := by
  ext q
  simp [calledOn, Phase.Begun]

/-- The result of a test, when all tests are done. -/
theorem Running.recorded_at (h : Running w lcores n phase ev) (ha : Assigned lcores n)
    (hdone : ∀ idx < n, phase idx = .done) {d q : Nat} (hq : q < share lcores n d) :
    ev.Recorded w.job (offset lcores d + q) ⟨d, q⟩ := by
  have hidx := (lt_of_lt_share hq).2.2
  have hrecorded := h.recorded _ hidx (hdone _ hidx)
  rwa [ha.places_eq hq] at hrecorded

/-- A round begins. -/
theorem running_fresh (hlcores : ev.workerLcores = lcores) (htests : ev.numParallelTests = n)
    (hid : ∀ d < lcores.length, (ev.devices d).device.deviceId.toNat = d)
    (hidle : ∀ l, (ev.lcoreConfig l).task = none)
    (hdevices : ∀ d < lcores.length, ∃ zones, w.device d zones ∅ (ev.devices d))
    (hapart : ev.devices.Apart lcores.length)
    (hslots : ∀ d, ((ev.compressedBuffers d).getD []).length = share lcores n d)
    (hrequest : ∀ idx < n, ∀ called,
      ev.request ⟨w.job, idx, places lcores idx, called⟩ = w.request idx) :
    Running w lcores n (fun _ => .fresh) ev := by
  refine ⟨hlcores, htests, hid, underway_fresh hidle, fun idx _ hdone => (by cases hdone),
    fun d hd => ?_, hapart, hslots, fun idx hidx _ => hrequest idx hidx,
    fun idx _ hdone => by cases hdone⟩
  rw [calledOn_fresh]
  exact hdevices d hd

/-- `Recycle` at the end of a round. -/
theorem Running.recycleThen_eq (h : Running w lcores n phase ev)
    (hb : ∀ d < lcores.length, (cfg d).Bounds)
    (hholding : AllHolding enc cfg lcores n hosts data ev.vectorAt (allPlaces lcores n) ev.devices)
    (next : Evaluation → MainPc) :
    ∃ after, ev.recycleThen debug next =
        { ev with devices := after, main := next { ev with devices := after } } ∧
      SameDevices ev.devices after ∧
      AllHolding enc cfg lcores n hosts data ev.vectorAt [] after := by
  obtain ⟨after, hrun, hafter⟩ : ∃ after,
      recycleVectors debug ((allPlaces lcores n).map fun p => (p.1, ev.vectorAt p.1 p.2))
        ev.devices = some after ∧ _ :=
    recycleVectors_holding hb (nodup_allPlaces lcores n) (fun p hp => (mem_allPlaces.mp hp).1)
      hholding
  rw [← vectors_eq h.numDevices_eq h.slots] at hrun
  rcases ev.recycleThen_cases debug next with ⟨hnone, -⟩ | ⟨devices, hdevices, he⟩
  · rw [hrun] at hnone
    cases hnone
  · obtain rfl := Option.some.inj (hrun.symm.trans hdevices)
    exact ⟨_, he, sameDevices_recycleVectors _ hrun, hafter⟩

end EndOfRound

/-! ## After a round of compression -/

section Compressed

variable {ev : Evaluation} {enc : List UInt8 → List UInt8} {cfg : Nat → Configuration}
  {lcores : List (List Nat)} {n d : Nat} {debug : Bool} {phase : Nat → Phase}
  {inputs : Nat → Buffer} {data : Nat → List UInt8}

theorem pending_allPlaces (hd : d < lcores.length) :
    {q | (d, q) ∈ allPlaces lcores n} = {q | q < share lcores n d} := by
  ext q
  exact mem_allPlaces.trans (and_iff_right hd)

/-- What a round of compression leaves behind. -/
theorem compressing_holding
    (h : Running (compressing enc cfg lcores n inputs data) lcores n phase ev)
    (ha : Assigned lcores n) (hdone : ∀ idx < n, phase idx = .done) :
    AllHolding enc cfg lcores n (fun d q => inputs (offset lcores d + q))
        (fun d q => data (offset lcores d + q)) ev.vectorAt (allPlaces lcores n) ev.devices ∧
      ∀ d < lcores.length, ∀ q < share lcores n d,
        (cfg d).Fits enc (data (offset lcores d + q)) := by
  refine ⟨⟨fun d hd => ?_, h.apart⟩, fun d hd q hq => ?_⟩
  · obtain ⟨zones, hround⟩ := h.devices d hd
    rw [calledOn_done hdone] at hround
    rw [pending_allPlaces hd]
    refine ⟨zones, hround.holding (fun q hq => (h.recorded_at ha hdone hq).1) fun q hq => ?_⟩
    have hslot : ev.compressedAt ⟨d, q⟩ = some ((ev.devices d).lanes q).call.emitted :=
      (h.recorded_at ha hdone hq).2
    rw [← getD_compressedAt, hslot]
    rfl
  · obtain ⟨zones, hround⟩ := h.devices d hd
    rw [calledOn_done hdone] at hround
    obtain ⟨status, hpc⟩ := (h.recorded_at ha hdone hq).1
    exact (hround.done q hq status hpc).2.2

/-- The next round of compression. -/
theorem compressing_again {w : Workload} (h : Running w lcores n phase ev)
    (hdone : ∀ idx < n, phase idx = .done)
    (hinputs : ∀ idx < n, ev.inputBufferVector idx = inputs idx) {after : Devices}
    (hsame : SameDevices ev.devices after) {vectors : Nat → Nat → List Buffer}
    (hholding : AllHolding enc cfg lcores n (fun d q => inputs (offset lcores d + q))
      (fun d q => data (offset lcores d + q)) vectors [] after) (pc : MainPc) :
    Running (compressing enc cfg lcores n inputs data) lcores n (fun _ => .fresh)
      { ev with devices := after, main := pc } := by
  refine running_fresh ?_ h.tests_eq (fun d hd => ?_) (h.idle hdone) (fun d hd => ?_)
    hholding.apart h.slots fun idx hidx called => ?_
  · exact (List.map_congr_left fun d _ => (hsame d).1).trans h.lcores_eq
  · exact (congrArg UInt8.toNat (hsame d).2).trans (h.deviceId_eq d hd)
  · obtain ⟨zones, hd'⟩ := hholding.each d hd
    exact ⟨zones, hd'.compressRound⟩
  · exact congrArg (fun b => Machine.Request.compress (some b)) (hinputs idx hidx)

/-- **The outputs are allocated**, and the rounds of decompression begin. -/
theorem allocateOutputs_running (hs : Suited enc cfg lcores n)
    (h : Running (compressing enc cfg lcores n inputs data) lcores n phase ev)
    (hdone : ∀ idx < n, phase idx = .done) {allocations : Nat → Option (Nat × Nat)}
    (hclean : ev.Clean enc debug (.main allocations)) :
    let after := ev.allocateOutputs debug allocations
    after.main = .launching .decompress 0 0 ⟨0, 0⟩ ∧
      OwnOutputs after.decompressedBufferVector n ∧
      Running (decompressing enc cfg lcores n (ev.vectorOf lcores) after.decompressedBufferVector
        data) lcores n (fun _ => .fresh) after := by
  obtain ⟨hholding, hfits⟩ := compressing_holding h hs.assigned hdone
  have hall : ∀ idx < ev.numParallelTests, (allocations idx).isSome := fun idx hidx =>
    (hclean idx hidx).1
  intro after
  have hafter : after = { ev with
      decompressedBufferVector := fun idx =>
        (ev.allocated idx (allocations idx)).getD (ev.decompressedBufferVector idx)
      main := .launching .decompress 0 0 ⟨0, 0⟩ } := if_pos hall
  -- the output of a test
  have houtput : ∀ d q, q < share lcores n d → ∃ id extra,
      allocations (offset lcores d + q) = some (id, extra) ∧
      after.decompressedBufferVector (offset lcores d + q) =
        ⟨⟨.host id, 0⟩, (ev.vectorAt d q).length * kDecompressedSegSize + extra,
          (ev.vectorAt d q).length * kDecompressedSegSize⟩ := by
    intro d q hq
    have hidx := (lt_of_lt_share hq).2.2
    obtain ⟨⟨id, extra⟩, hallocation⟩ := Option.isSome_iff_exists.mp (hall _ (h.tests_eq ▸ hidx))
    refine ⟨id, extra, hallocation, ?_⟩
    rw [hafter]
    dsimp only
    rw [allocated, hallocation, h.lcores_eq, hs.assigned.places_eq hq, getD_compressedAt]
    rfl
  have hown : OwnOutputs after.decompressedBufferVector n := by
    refine ⟨fun i hi => ?_, fun i hi j hj hne => ?_⟩
    · obtain ⟨d, q, hq, rfl, -⟩ := hs.assigned.exists_place hi
      obtain ⟨id, extra, -, ho⟩ := houtput d q hq
      exact ⟨id, by rw [ho]⟩
    · obtain ⟨d, q, hq, rfl, -⟩ := hs.assigned.exists_place hi
      obtain ⟨d', q', hq', rfl, -⟩ := hs.assigned.exists_place hj
      obtain ⟨id, extra, hid, ho⟩ := houtput d q hq
      obtain ⟨id', extra', hid', ho'⟩ := houtput d' q' hq'
      rw [ho, ho']
      intro he
      refine (hclean _ (h.tests_eq ▸ hi)).2 _ (h.tests_eq ▸ hj) hne ?_
      rw [hid, hid']
      exact congrArg some (Block.host.inj he)
  refine ⟨by rw [hafter], hown, running_fresh ?_ ?_ (fun d hd => ?_) ?_ (fun d hd => ?_) ?_ ?_
    fun idx hidx called => ?_⟩
  · rw [hafter]
    exact h.lcores_eq
  · rw [hafter]
    exact h.tests_eq
  · rw [hafter]
    exact h.deviceId_eq d hd
  · rw [hafter]
    exact h.idle hdone
  · obtain ⟨zones, hd'⟩ := hholding.each d hd
    rw [pending_allPlaces hd] at hd'
    rw [show after.devices d = ev.devices d by rw [hafter]]
    refine ⟨zones, (hd'.congr fun q hq => ?_).decompressRound (hs.bounds d hd) hs.selfDelimiting
      (fun q hq => cutsAgree_of_fits (hs.bounds d hd) hs.selfDelimiting (hs.maxSglSegs_eq d hd)
        (hfits d hd q hq)) (fun q hq => ?_) (fun p hp q hq hne => ?_) (fun q hq => ?_)
      fun q hq hnil => ?_⟩
    · exact vectorOf_eq hs.assigned hq
    · exact hown.host _ (lt_of_lt_share hq).2.2
    · exact hown.apart _ (lt_of_lt_share hp).2.2 _ (lt_of_lt_share hq).2.2 fun hidx =>
        hne (by omega)
    · obtain ⟨id, extra, -, ho⟩ := houtput d q hq
      rw [vectorOf_eq hs.assigned hq, ho, hs.segSize_eq d hd]
      exact Nat.le_add_right _ _
    · obtain ⟨id, extra, -, ho⟩ := houtput d q hq
      rw [vectorOf_eq hs.assigned hq] at hnil
      rw [ho, hnil]
      exact Nat.zero_mul _
  · rw [hafter]
    exact h.apart
  · rw [hafter]
    exact h.slots
  · rw [hafter]
    rfl

end Compressed

/-! ## After a round of decompression -/

section Decompressed

variable {ev : Evaluation} {enc : List UInt8 → List UInt8} {cfg : Nat → Configuration}
  {lcores : List (List Nat)} {n d q : Nat} {debug : Bool} {phase : Nat → Phase}
  {vectors : Nat → List Buffer} {outputs : Nat → ResizableBuffer} {data : Nat → List UInt8}

/-- The output of a test, as a buffer. -/
def outputOf (ev : Evaluation) (idx : Nat) : Buffer :=
  ⟨(ev.decompressedBufferVector idx).data, (ev.decompressedBufferVector idx).size⟩

/-- The vector that a test has been given. -/
theorem decompressing_vector
    (h : Running (decompressing enc cfg lcores n vectors outputs data) lcores n phase ev)
    (ha : Assigned lcores n) (hdone : ∀ idx < n, phase idx = .done) (hq : q < share lcores n d) :
    vectors (offset lcores d + q) = ev.vectorAt d q := by
  obtain ⟨hd, -, hidx⟩ := lt_of_lt_share hq
  obtain ⟨zones, hround⟩ := h.devices d hd
  have hcalled : q ∈ calledOn lcores n phase d := by
    rw [calledOn_done hdone]
    exact hq
  obtain ⟨⟨status, hpc⟩, index, offset', total, hcall⟩ := h.recorded_at ha hdone hq
  obtain ⟨-, size, index', offset'', total', hcall', -⟩ := hround.done q hcalled status hpc
  rw [hcall'] at hcall
  obtain ⟨hv, -⟩ := Call.decompress.inj hcall
  rw [hv, getD_compressedAt]

/-- The outputs have their sizes. -/
theorem decompressing_outputs
    (h : Running (decompressing enc cfg lcores n vectors outputs data) lcores n phase ev)
    (ha : Assigned lcores n) (hdone : ∀ idx < n, phase idx = .done) (d : Nat) :
    Outputs (fun q => vectors (offset lcores d + q))
      (fun q => ev.decompressedBufferVector (offset lcores d + q)) (share lcores n d)
      (calledOn lcores n phase d) (ev.devices d) := by
  refine ⟨fun q hq => ?_, fun q hq => (h.recorded_at ha hdone hq).1, fun q hq => ?_⟩
  · rw [calledOn_done hdone]
    exact hq
  · obtain ⟨-, index, offset', total, hcall⟩ := h.recorded_at ha hdone hq
    dsimp only at hcall ⊢
    rw [decompressing_vector h ha hdone hq, ← getD_compressedAt]
    exact ⟨index, offset', total, hcall⟩

/-- `Decompress` resizes the outputs, and that is all. -/
theorem decompressing_own
    (h : Running (decompressing enc cfg lcores n vectors outputs data) lcores n phase ev)
    (ha : Assigned lcores n) (hdone : ∀ idx < n, phase idx = .done) (hown : OwnOutputs outputs n) :
    OwnOutputs ev.decompressedBufferVector n := by
  have hdata : ∀ idx < n, (ev.decompressedBufferVector idx).data = (outputs idx).data := by
    intro idx hidx
    obtain ⟨d, q, hq, rfl, -⟩ := ha.exists_place hidx
    obtain ⟨zones, hround⟩ := h.devices d (lt_of_lt_share hq).1
    exact (hround.output (decompressing_outputs h ha hdone d) hq).1
  refine ⟨fun i hi => ?_, fun i hi j hj => ?_⟩
  · rw [hdata i hi]
    exact hown.host i hi
  · rw [hdata i hi, hdata j hj]
    exact hown.apart i hi j hj

/-- The next round of decompression. -/
theorem decompressing_again
    (h : Running (decompressing enc cfg lcores n vectors outputs data) lcores n phase ev)
    (ha : Assigned lcores n) (hdone : ∀ idx < n, phase idx = .done) (pc : MainPc) :
    Running (decompressing enc cfg lcores n vectors ev.decompressedBufferVector data) lcores n
      (fun _ => .fresh) { ev with main := pc } := by
  refine running_fresh h.lcores_eq h.tests_eq h.deviceId_eq (h.idle hdone) (fun d hd => ?_) h.apart
    h.slots fun idx hidx called => ?_
  · obtain ⟨zones, hround⟩ := h.devices d hd
    exact ⟨zones, hround.again (decompressing_outputs h ha hdone d)⟩
  · obtain ⟨d, q, hq, rfl, hplace⟩ := ha.exists_place hidx
    have hv := decompressing_vector h ha hdone hq
    rw [← getD_compressedAt, ← hplace] at hv
    show Machine.Request.decompress _ _ = .decompress _ _
    rw [hv]
    rfl

/-- What a round of decompression leaves behind. -/
theorem decompressing_holding
    (h : Running (decompressing enc cfg lcores n vectors outputs data) lcores n phase ev)
    (ha : Assigned lcores n) (hdone : ∀ idx < n, phase idx = .done) :
    AllHolding enc cfg lcores n (fun d q => ev.outputOf (offset lcores d + q))
      (fun d q => data (offset lcores d + q)) ev.vectorAt (allPlaces lcores n) ev.devices := by
  refine ⟨fun d hd => ?_, h.apart⟩
  obtain ⟨zones, hround⟩ := h.devices d hd
  rw [pending_allPlaces hd]
  refine ⟨zones, (hround.holding (decompressing_outputs h ha hdone d)).congr fun q hq => ?_⟩
  exact (decompressing_vector h ha hdone hq).symm

/-- **The outputs are the input.** -/
theorem compare_eq {input : List UInt8} (hs : Suited enc cfg lcores n)
    (htests : ev.numParallelTests = n)
    (hinput : ev.inputBuffer = input) {vectors : Nat → Nat → List Buffer}
    {pending : List (Nat × Nat)}
    (hholding : AllHolding enc cfg lcores n (fun d q => ev.outputOf (offset lcores d + q))
      (fun d q => segment input n (offset lcores d + q)) vectors pending ev.devices) :
    ev.compare = .success := by
  rw [compare, compareOutputs_iff, hinput, htests, ← @flatten_segments input n hs.pos]
  refine congrArg _ (List.map_congr_left fun idx hidx => ?_)
  obtain ⟨d, q, hq, rfl, hplace⟩ := hs.assigned.exists_place (List.mem_range.mp hidx)
  obtain ⟨zones, hd⟩ := hholding.each d (lt_of_lt_share hq).1
  have hbytes := (hd.hosts_stored q hq).contents_eq
  exact List.head_eq_of_cons_eq hbytes

end Decompressed

/-! ## The whole program -/

section Whole

variable {ev : Evaluation} {enc : List UInt8 → List UInt8} {cfg : Nat → Configuration}
  {setting : Setting} {debug : Bool} {action : Action}

/-- The program is in a round, or has found that the outputs are the input. -/
inductive Sound (enc : List UInt8 → List UInt8) (cfg : Nat → Configuration) (setting : Setting)
    (ev : Evaluation) : Prop
  | compressing {round : Nat} {phase : Nat → Phase} (hsetting : ev.setting = setting)
      (hrunning : Running (Bitar.compressing enc cfg setting.workerLcores setting.numParallelTests
          setting.inputBufferVector (segment setting.inputBuffer setting.numParallelTests))
        setting.workerLcores setting.numParallelTests phase ev)
      (hstage : Stage setting.workerLcores setting.numParallelTests .compress round phase ev.main)
      (htrack : ev.main.OnTrack) : Sound enc cfg setting ev
  | decompressing {round : Nat} {phase : Nat → Phase} {vectors : Nat → List Buffer}
      {outputs : Nat → ResizableBuffer} (hsetting : ev.setting = setting)
      (hown : OwnOutputs outputs setting.numParallelTests)
      (hrunning : Running (Bitar.decompressing enc cfg setting.workerLcores
          setting.numParallelTests vectors outputs
          (segment setting.inputBuffer setting.numParallelTests))
        setting.workerLcores setting.numParallelTests phase ev)
      (hstage : Stage setting.workerLcores setting.numParallelTests .decompress round phase
        ev.main)
      (htrack : ev.main.OnTrack) : Sound enc cfg setting ev
  | returned (hmain : ev.main = .returned .success) (hidle : ∀ l, (ev.lcoreConfig l).task = none) :
      Sound enc cfg setting ev

/-- All tests of a round of compression are done. -/
theorem Sound.endCompress {round : Nat} {phase : Nat → Phase}
    (hs : Suited enc cfg setting.workerLcores setting.numParallelTests)
    (hsetting : ev.setting = setting)
    (h : Running (Bitar.compressing enc cfg setting.workerLcores setting.numParallelTests
        setting.inputBufferVector (segment setting.inputBuffer setting.numParallelTests))
      setting.workerLcores setting.numParallelTests phase ev)
    (hdone : ∀ idx < setting.numParallelTests, phase idx = .done)
    {allocations : Nat → Option (Nat × Nat)} (hclean : ev.Clean enc debug (.main allocations)) :
    Sound enc cfg setting (ev.endRound debug .compress round true allocations) := by
  have hset := (ev.endRound_eq debug .compress round true allocations).2.2.trans hsetting
  have hend : ev.endRound debug .compress round true allocations =
      if round + 1 < kNumTests then
        ev.recycleThen debug fun _ => .launching .compress (round + 1) 0 ⟨0, 0⟩
      else ev.allocateOutputs debug allocations := rfl
  rw [hend] at hset ⊢
  split_ifs at hset ⊢
  · obtain ⟨after, he, hsame, hafter⟩ :=
      h.recycleThen_eq hs.bounds (compressing_holding h hs.assigned hdone).1
        (fun _ => .launching .compress (round + 1) 0 ⟨0, 0⟩)
    rw [he] at hset ⊢
    refine .compressing hset (compressing_again h hdone (fun idx _ => ?_) hsame hafter _)
      (stage_begin _ _ _ _) trivial
    rw [← hsetting]
    rfl
  · obtain ⟨hmain, hown, hrunning⟩ := allocateOutputs_running hs h hdone hclean
    have hstage := stage_begin setting.workerLcores setting.numParallelTests .decompress 0
    rw [← hmain] at hstage
    refine .decompressing hset hown hrunning hstage ?_
    rw [hmain]
    trivial

/-- All tests of a round of decompression are done. -/
theorem Sound.endDecompress {round : Nat} {phase : Nat → Phase} {vectors : Nat → List Buffer}
    {outputs : Nat → ResizableBuffer}
    (hs : Suited enc cfg setting.workerLcores setting.numParallelTests)
    (hsetting : ev.setting = setting) (hown : OwnOutputs outputs setting.numParallelTests)
    (h : Running (Bitar.decompressing enc cfg setting.workerLcores setting.numParallelTests vectors
        outputs (segment setting.inputBuffer setting.numParallelTests))
      setting.workerLcores setting.numParallelTests phase ev)
    (hdone : ∀ idx < setting.numParallelTests, phase idx = .done)
    (allocations : Nat → Option (Nat × Nat)) :
    Sound enc cfg setting (ev.endRound debug .decompress round true allocations) := by
  have hset := (ev.endRound_eq debug .decompress round true allocations).2.2.trans hsetting
  have hend : ev.endRound debug .decompress round true allocations =
      if round + 1 < kNumTests then
        { ev with main := .launching .decompress (round + 1) 0 ⟨0, 0⟩ }
      else ev.recycleThen debug fun after => .returned after.compare := rfl
  rw [hend] at hset ⊢
  split_ifs at hset ⊢
  · exact .decompressing hset (decompressing_own h hs.assigned hdone hown)
      (decompressing_again h hs.assigned hdone _) (stage_begin _ _ _ _) trivial
  · obtain ⟨after, he, hsame, hafter⟩ :=
      h.recycleThen_eq hs.bounds (decompressing_holding h hs.assigned hdone)
        (fun after => .returned after.compare)
    rw [he] at hset ⊢
    refine .returned ?_ (h.idle hdone)
    exact congrArg MainPc.returned
      (compare_eq hs h.tests_eq (congrArg Setting.inputBuffer hset) hafter)

/-- **Step lemma.** -/
theorem Sound.step (h : Sound enc cfg setting ev)
    (hs : Suited enc cfg setting.workerLcores setting.numParallelTests)
    (hclean : ev.Clean enc debug action) : Sound enc cfg setting (ev.step debug action) := by
  cases h with
  | compressing hsetting hrunning hstage htrack =>
      rcases hrunning.step (compressing_lawful hs.bounds _ _ debug) hs.assigned hstage htrack
        hclean with ⟨phase', hrunning', hstage', htrack'⟩ | ⟨hdone, allocations, rfl, he⟩
      · exact .compressing ((ev.step_setting debug action).trans hsetting) hrunning' hstage' htrack'
      · rw [he]
        exact Sound.endCompress hs hsetting hrunning hdone hclean
  | decompressing hsetting hown hrunning hstage htrack =>
      rcases hrunning.step (decompressing_lawful hs.bounds hs.assigned _ hown _ debug) hs.assigned
        hstage htrack hclean with ⟨phase', hrunning', hstage', htrack'⟩ |
          ⟨hdone, allocations, rfl, he⟩
      · exact .decompressing ((ev.step_setting debug action).trans hsetting) hown hrunning' hstage'
          htrack'
      · rw [he]
        exact Sound.endDecompress hs hsetting hown hrunning hdone allocations
  | returned hmain hidle =>
      rw [step_of_returned hmain hidle]
      exact .returned hmain hidle

/-- What the program comes to. -/
theorem Sound.outcome (h : Sound enc cfg setting ev) :
    (∀ fault, ev.main ≠ .terminated fault) ∧ ∀ status, ev.main = .returned status →
      status = .success := by
  cases h with
  | compressing hsetting hrunning hstage htrack =>
      generalize ev.main = pc at hstage ⊢
      cases hstage <;> exact ⟨by simp, by simp⟩
  | decompressing hsetting hown hrunning hstage htrack =>
      generalize ev.main = pc at hstage ⊢
      cases hstage <;> exact ⟨by simp, by simp⟩
  | returned hmain hidle =>
      rw [hmain]
      exact ⟨by simp, fun status he => (MainPc.returned.inj he).symm⟩

end Whole

/-! ## The beginning -/

section Begin

variable {lcores : List (List Nat)} {n k d : Nat} {input : List UInt8} {ids : Nat → Nat}
  {memory : Memory} {devices : Devices}

/-- A slot has been added for the next test. -/
theorem share_succ (ha : Assigned lcores n) (hk : k < n) (d : Nat) :
    share lcores (k + 1) d =
      if d = (places lcores k).deviceId then share lcores k d + 1 else share lcores k d := by
  obtain ⟨d', q, hq, rfl, hplace⟩ := ha.exists_place hk
  obtain ⟨hd', hrow', -⟩ := lt_of_lt_share hq
  rw [hplace]
  dsimp only
  split_ifs with hd
  · subst hd
    unfold share
    omega
  · unfold share
    by_cases hlt : d < lcores.length
    · have hrow := getD_of_lt hlt
      have hpos := (ha.countable.lt_length hrow).2
      rcases Nat.lt_or_gt_of_ne hd with hbefore | hafter
      · have hle := @offset_lt _ lcores _ d d' _ hrow (Nat.sub_lt hpos Nat.one_pos) hbefore
        omega
      · have hle := @offset_lt _ lcores _ d' d _ (getD_of_lt hd') hrow' hafter
        omega
    · rw [List.getD_eq_default _ _ (Nat.not_lt.mp hlt)]
      simp

/-- Every test has a slot for its result. -/
theorem length_emptyVectors (ha : Assigned lcores n) :
    ∀ k ≤ n, ∀ d, ((emptyVectors lcores k d).getD []).length = share lcores k d := by
  intro k
  induction k with
  | zero =>
      intro _ d
      simp [emptyVectors, share]
  | succ k ih =>
      intro hk d
      rw [share_succ ha hk d, emptyVectors]
      split_ifs with hd
      · rw [← hd, Function.update_self, Option.getD_some, List.length_append, ih (by omega) d]
        rfl
      · rw [Function.update_of_ne hd]
        exact ih (by omega) d

/-- The copies of the segments. -/
theorem read_fillSegments (hids : ∀ i < n, ∀ j < n, i ≠ j → ids i ≠ ids j) {idx : Nat} :
    ∀ {k}, idx < k → k ≤ n →
      read (fillSegments input n ids memory k) (.host (ids idx)) 0
        (segment input n idx).length = segment input n idx := by
  intro k
  induction k with
  | zero => exact fun h => absurd h (Nat.not_lt_zero idx)
  | succ k ih =>
      intro hidx hk
      rw [fillSegments]
      by_cases hsame : idx = k
      · subst hsame
        exact read_write_self _ _ _ _
      · refine Eq.trans (read_write_of_disjoint _ (Or.inl fun he => ?_)) (ih (by omega) (by omega))
        exact hids idx (by omega) k (by omega) hsame (Block.host.inj he)

/-- No two lcores are counted twice, and all of them are counted. -/
theorem totalNumQps_eq {numDevices : Nat}
    (hc : Countable ((List.range numDevices).map fun d => (devices d).device.workerLcores)) :
    totalNumQps numDevices devices =
      ((List.range numDevices).map fun d => (devices d).device.workerLcores).flatten.length := by
  have hqps : ((List.range numDevices).map fun d => (devices d).device.numQps) =
      ((List.range numDevices).map fun d => (devices d).device.workerLcores).map List.length := by
    rw [List.map_map]
    refine List.map_congr_left fun d hd => ?_
    exact toUInt16_of_lt (hc.lt _ (List.mem_map_of_mem
      (f := fun d => (devices d).device.workerLcores) hd))
  have hle : (((List.range numDevices).map fun d => (devices d).device.workerLcores).map
      List.length).sum ≤ 256 * 65536 := by
    refine (List.sum_le_card_nsmul _ 65536 fun m hm => ?_).trans ?_
    · obtain ⟨row, hrow, rfl⟩ := List.mem_map.mp hm
      exact Nat.le_of_lt (hc.lt row hrow)
    · rw [nsmul_eq_mul, List.length_map]
      exact Nat.mul_le_mul_right _ hc.length_le
  rw [totalNumQps, hqps, List.length_flatten]
  exact Nat.mod_eq_of_lt (by omega)

end Begin

/-- The devices have been started, and no call has been made on them. -/
structure Prepared (cfg : Nat → Configuration) (numDevices : Nat) (devices : Devices) :
    Prop where
  atRest : ∀ d < numDevices, ∃ zones, AtRest (cfg d) zones (devices d)
  started : ∀ d < numDevices, (devices d).device.state = .started
  /-- The ids are the positions in `devices`. -/
  deviceId_eq : ∀ d < numDevices, (devices d).device.deviceId.toNat = d
  apart : devices.Apart numDevices

section Begin

variable {enc : List UInt8 → List UInt8} {cfg : Nat → Configuration} {numDevices n d : Nat}
  {devices : Devices} {input : List UInt8} {lcoreConfig : Nat → LcoreConfig}
  {allocations : Nat → Option Nat} {zones : Zones} {s : Session} {memory : Memory}

/-- A device at rest may be given inputs. -/
theorem attended_of_atRest {cfg : Configuration} (h : AtRest cfg zones s)
    (hstarted : s.device.state = .started) (hn : n ≤ s.device.numQps) (memory : Memory) :
    Attended cfg zones n ∅ { s with memory := memory } := by
  have hrest : AtRest cfg zones { s with memory := memory } :=
    ⟨h.accepted, h.configuration_eq, h.zones_eq, h.owned, h.numQps_le,
      fun q => ⟨(h.idle q).pending, (h.idle q).numOpsAssembled, (h.idle q).queue⟩, h.returned⟩
  exact ⟨hrest.separate, hstarted, hn, fun q _ => h.returned q, fun q hq => hq.elim⟩

/-- When no call is in progress, what the host has written is stored. -/
theorem stored_host {cfg : Configuration} (h : Attended cfg zones n ∅ s) {buffer : Buffer}
    {contents : List UInt8} (hhost : ∃ id, buffer.data.block = .host id)
    (hbytes : buffer.bytes s.memory = contents) : Stored cfg zones s [buffer] [contents] := by
  refine ⟨⟨.refl _ _, fun b hb => ?_, fun other b hw _ => ?_⟩, ?_⟩
  · obtain ⟨id, hid⟩ := hhost
    obtain rfl : b = buffer.data.block := List.mem_singleton.mp hb
    rw [hid]
    trivial
  · obtain ⟨status, hpc⟩ := h.idle other (Set.notMem_empty other)
    rw [Machine.footprint_of_returned (show (s.machineOf cfg zones other).pc = _ from hpc)] at hw
    cases hw
  · exact congrArg (fun bytes => [bytes]) hbytes

/-- What `EvaluateAsync` has been called with. -/
theorem begin_setting (n numDevices : Nat) (devices : Devices) (input : List UInt8)
    (lcoreConfig : Nat → LcoreConfig) (allocations : Nat → Option Nat) :
    let setting := (begin n numDevices devices input lcoreConfig allocations).setting
    setting.workerLcores = ((List.range numDevices).map fun d => (devices d).device.workerLcores) ∧
      setting.numParallelTests = n ∧ setting.inputBuffer = input := by
  unfold begin
  dsimp only
  split_ifs
  all_goals exact ⟨rfl, rfl, rfl⟩

/-- **The first launch.** -/
theorem begin_sound
    (hs : Suited enc cfg ((List.range numDevices).map fun d => (devices d).device.workerLcores) n)
    (hp : Prepared cfg numDevices devices) (hidle : ∀ l, (lcoreConfig l).task = none)
    (hallocations : ∀ i < n, (allocations i).isSome ∧
      ∀ j < n, i ≠ j → allocations i ≠ allocations j) :
    let ev := begin n numDevices devices input lcoreConfig allocations
    Sound enc cfg ev.setting ev := by
  intro ev
  generalize hlcores : ((List.range numDevices).map fun d => (devices d).device.workerLcores) =
    lcores at hs
  have hlength : lcores.length = numDevices := by
    rw [← hlcores, List.length_map, List.length_range]
  have hids : ∀ i < n, ∀ j < n, i ≠ j → (allocations i).getD 0 ≠ (allocations j).getD 0 := by
    intro i hi j hj hne he
    obtain ⟨idi, hidi⟩ := Option.isSome_iff_exists.mp (hallocations i hi).1
    obtain ⟨idj, hidj⟩ := Option.isSome_iff_exists.mp (hallocations j hj).1
    rw [hidi, hidj] at he
    exact (hallocations i hi).2 j hj hne (by rw [hidi, hidj]; exact congrArg some he)
  -- the checks of the code are passed
  have hev : ev = {
      numParallelTests := n
      inputBuffer := input
      numDevices := numDevices
      devices := { devices with
        memory := fillSegments input n (fun idx => (allocations idx).getD 0) devices.memory n }
      lcoreConfig := lcoreConfig
      inputBufferVector := fun idx =>
        ⟨⟨.host ((allocations idx).getD 0), 0⟩, segmentSize input.length n idx⟩
      compressedBuffers := emptyVectors lcores n
      main := .launching .compress 0 0 ⟨0, 0⟩ } := by
    have htotal : ¬ totalNumQps numDevices devices < n := by
      rw [totalNumQps_eq (hlcores ▸ hs.assigned.countable), hlcores]
      exact Nat.not_lt.mpr hs.assigned.le_length
    refine (if_neg htotal).trans ((if_pos fun idx hidx => (hallocations idx hidx).1).trans ?_)
    rw [hlcores]
  have hdevice : ∀ d, ev.devices d = { devices d with
      memory := fillSegments input n (fun idx => (allocations idx).getD 0) devices.memory n } := by
    intro d
    rw [hev]
    rfl
  obtain ⟨hset, htests, hinput⟩ := begin_setting n numDevices devices input lcoreConfig allocations
  rw [hlcores] at hset
  change ev.workerLcores = lcores at hset
  change ev.numParallelTests = n at htests
  change ev.inputBuffer = input at hinput
  have hslots : ∀ d, ((ev.compressedBuffers d).getD []).length = share lcores n d := by
    rw [hev]
    exact length_emptyVectors hs.assigned n (Nat.le_refl n)
  have hmain : ev.main = .launching .compress 0 0 ⟨0, 0⟩ := by rw [hev]
  refine .compressing rfl (running_fresh rfl rfl (fun d hd => ?_) (fun l => ?_) (fun d hd => ?_)
    ?_ (fun d => ?_) fun idx hidx called => rfl) (hmain ▸ stage_begin _ _ _ 0) (hmain ▸ trivial)
  · rw [hdevice d]
    refine hp.deviceId_eq d ?_
    rw [← hlength, ← hset]
    exact hd
  · rw [show ev.lcoreConfig = lcoreConfig by rw [hev]]
    exact hidle l
  · have hd' : d < lcores.length := by
      rw [← hset]
      exact hd
    show ∃ zones, CompressRound enc (cfg d)
      (fun q => ev.inputBufferVector (offset ev.workerLcores d + q))
      (fun q => segment ev.inputBuffer ev.numParallelTests (offset ev.workerLcores d + q))
      (share ev.workerLcores ev.numParallelTests d) zones ∅ (ev.devices d)
    rw [hset, htests, hinput]
    obtain ⟨zones, hrest⟩ := hp.atRest d (hlength ▸ hd')
    have he := hdevice d
    have hrow : lcores.getD d [] = (devices d).device.workerLcores := by
      rw [← hlcores, List.getD_eq_getElem _ _ (hlcores ▸ hd')]
      simp
    have hn : share lcores n d ≤ (devices d).device.numQps := by
      rw [CompressDevice.numQps, ← hrow, toUInt16_of_lt
        (hs.assigned.countable.lt _ (List.mem_of_getElem? (getD_of_lt hd')))]
      exact Nat.min_le_left _ _
    have hattended := attended_of_atRest hrest (hp.started d (hlength ▸ hd')) hn
      (fillSegments input n (fun idx => (allocations idx).getD 0) devices.memory n)
    rw [← he] at hattended
    have hbuffer : ∀ idx, ev.inputBufferVector idx =
        ⟨⟨.host ((allocations idx).getD 0), 0⟩, segmentSize input.length n idx⟩ := by
      rw [hev]
      exact fun _ => rfl
    refine ⟨zones, hattended, fun q hq => ⟨_, by rw [hbuffer]⟩, fun q hq => ?_, by simp, by simp,
      by simp⟩
    -- the copy of the segment
    have hidx := (lt_of_lt_share hq).2.2
    have hread := @read_fillSegments n input (fun idx => (allocations idx).getD 0) devices.memory
      hids _ n hidx (Nat.le_refl n)
    rw [length_segment hs.pos hidx] at hread
    rw [hbuffer]
    refine stored_host hattended ⟨_, rfl⟩ ?_
    rw [he]
    exact hread
  · show ev.devices.Apart ev.workerLcores.length
    rw [hset, hlength, hev]
    exact hp.apart
  · show _ = share ev.workerLcores ev.numParallelTests d
    rw [hset, htests]
    exact hslots d

/-- **`EvaluateAsync`.**  The devices have been started, the lcores are in the `WAIT`
state, and there are enough queue pairs for the tests.  As long as no call of the
driver fails, the devices compress and decompress with `enc` and the allocations
succeed, in whichever order the lcores take their steps: the program does not
terminate in the middle, and when it returns, it has found that the outputs of
all tests, put one after another, are the input. -/
theorem evaluateAsync_ok
    (hs : Suited enc cfg ((List.range numDevices).map fun d => (devices d).device.workerLcores) n)
    (hp : Prepared cfg numDevices devices) (hidle : ∀ l, (lcoreConfig l).task = none)
    (hallocations : ∀ i < n, (allocations i).isSome ∧
      ∀ j < n, i ≠ j → allocations i ≠ allocations j)
    {debug : Bool} {actions : List Action}
    (hclean : Runs.Along (step debug) (Clean enc debug)
      (begin n numDevices devices input lcoreConfig allocations) actions) :
    let later := Runs.run (step debug)
      (begin n numDevices devices input lcoreConfig allocations) actions
    (∀ fault, later.main ≠ .terminated fault) ∧
      ∀ status, later.main = .returned status → status = .success := by
  intro later
  have hstart : Sound enc cfg _ (begin n numDevices devices input lcoreConfig allocations) :=
    begin_sound hs hp hidle hallocations
  obtain ⟨hlcores, htests, -⟩ := begin_setting n numDevices devices input lcoreConfig allocations
  have hsound := Runs.Along.invariant
    (fun ev action hev hok => hev.step (by rwa [hlcores, htests]) hok) hstart hclean
  exact hsound.outcome

/-! ## Two devices with one queue pair each -/

theorem sampleAsyncConfig_accepted : Accepted sampleAsyncConfig :=
  ⟨0, 0, 1, ⟨0, some ⟨true, true, true, ⟨15, 15, 0⟩⟩⟩, sampleAsyncConfig, by decide⟩

theorem sampleDevices_atRest {d : Nat} (hd : d < 2) :
    AtRest sampleAsyncConfig
      ⟨⟨d, [2 * d, 2 * d + 1], ∅, 2⟩, sampleDevices.pool⟩ (sampleDevices d) := by
  refine ⟨sampleAsyncConfig_accepted, rfl, rfl,
    ⟨⟨Finset.range 4 \ {2 * d, 2 * d + 1}, fun _ => sampleAsyncConfig.compressedSegSize,
      2 * sampleAsyncConfig.compressedSegSize⟩, [2 * d, 2 * d + 1],
      ⟨by simp, by simp, ?_, fun _ _ => rfl, fun _ _ => rfl, ?_⟩, by simp, by simp, by simp⟩,
    Nat.le_refl 1, ?_, fun _ => ⟨_, rfl⟩⟩
  · match d, hd with
    | 0, _ => decide
    | 1, _ => decide
  · simp only [sampleDevices, List.length_cons, List.length_nil]
    omega
  · rintro (_ | queuePairId) <;> exact ⟨rfl, rfl, rfl⟩

theorem sampleDevices_prepared :
    Prepared (fun _ => sampleAsyncConfig) 2 sampleDevices := by
  refine ⟨fun d hd => ⟨_, sampleDevices_atRest hd⟩, fun d _ => rfl, fun d hd => ?_, ?_⟩
  · match d, hd with
    | 0, _ => rfl
    | 1, _ => rfl
  · intro d _ d' _ hne z hz hz'
    simp only [Holds, sampleDevices, Devices.session, Option.mem_some_iff, exists_eq_left',
      DeviceMemory.Holds] at hz hz'
    simp at hz hz'
    omega

theorem sampleDevices_suited :
    Suited Machine.sampleStream (fun _ => sampleAsyncConfig) [[1], [2]] 2 := by
  refine ⟨⟨⟨by decide, by decide, by decide⟩, by decide, by decide⟩, by decide,
    fun _ _ => sampleAsyncConfig_accepted.bounds, fun _ _ => rfl, fun _ _ => rfl,
    Machine.sampleStream_selfDelimiting⟩

/-- What can be checked of `Clean`. -/
def SampleClean (ev : Evaluation) : Action → Prop
  | .main allocations => ∀ i < ev.numParallelTests, (allocations i).isSome ∧
      ∀ j < ev.numParallelTests, i ≠ j →
        (allocations i).map Prod.fst ≠ (allocations j).map Prod.fst
  | .worker lcoreId env => ∀ t ∈ (ev.lcoreConfig lcoreId).task, t.called = true →
      (ev.devices t.place.deviceId).Succeeds true (.step t.place.queuePairId env) ∧
      ∀ st ∈ (ev.devices t.place.deviceId).machine t.place.queuePairId,
        (t.job = .compress → st.Encodes Machine.sampleStream env) ∧
          (t.job = .decompress → st.SampleDecodes env)

instance (ev : Evaluation) : ∀ action, Decidable (ev.SampleClean action)
  | .main allocations => by
      unfold SampleClean
      infer_instance
  | .worker lcoreId env => by
      unfold SampleClean
      infer_instance

theorem SampleClean.clean {ev : Evaluation} {action : Action} (h : ev.SampleClean action) :
    ev.Clean Machine.sampleStream true action := by
  cases action with
  | main allocations => exact h
  | worker lcoreId env =>
      intro t ht hcalled
      obtain ⟨hok, hcodes⟩ := h t ht hcalled
      refine ⟨hok, fun st hst => ?_⟩
      obtain ⟨hcompress, hdecompress⟩ := hcodes st hst
      cases hjob : t.job with
      | compress => exact hcompress hjob
      | decompress => exact (hdecompress hjob).decodes

theorem sampleActions_clean :
    Runs.Along (step true) SampleClean sampleEvaluation sampleActions := by
  decide +kernel

theorem sampleEvaluation_returned :
    (Runs.run (step true) sampleEvaluation sampleActions).main = .returned .success := by
  decide +kernel

theorem evaluateAsync_ok_sample :
    let later := Runs.run (step true) sampleEvaluation sampleActions
    (∀ fault, later.main ≠ .terminated fault) ∧
      ∃ status, later.main = .returned status ∧ status = .success := by
  intro later
  obtain ⟨hnot, hok⟩ := evaluateAsync_ok sampleDevices_suited sampleDevices_prepared
    (fun _ => rfl) (fun i _ => ⟨rfl, fun j _ hne he => hne (Option.some.inj he)⟩)
    (sampleActions_clean.imp fun _ _ h => SampleClean.clean h)
  exact ⟨hnot, _, sampleEvaluation_returned, hok _ sampleEvaluation_returned⟩

end Begin

end Evaluation

end Bitar
