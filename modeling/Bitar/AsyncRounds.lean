import Bitar.DecompressRounds
import Bitar.LaunchAndWait

/-!
# The rounds of `EvaluateAsync`

In a round every test is one call on a queue pair.  What the round is about is a
workload: the requests of the tests, and on every device an invariant, with the
queue pairs on which the calls have begun.  The lcores need to know no more than
the rules of the workload; `CompressRound` and `DecompressRound` obey them.

**Results.**
* `Running.work`: work on one device leaves the others in the middle of their round.
* `Running.act`, `Running.answer`: the steps of a worker lcore.
* `Running.worker`, `Running.mainStep`: the step lemmas of a round.
* `compressing_lawful`, `decompressing_lawful`: the two benchmarks.
-/

namespace Bitar

open Rows BlockStore

/-- What the devices compress and decompress with. -/
def Job.Codes (enc : List UInt8 → List UInt8) (st : Machine) (env : Env) : Job → Prop
  | .compress => st.Encodes enc env
  | .decompress => st.Decodes enc env

/-- What a round is about. -/
structure Workload where
  job : Job
  /-- The invariant on a device, with its memzones and the queue pairs that have
  been called. -/
  device : Nat → Zones → Set Nat → Session → Prop
  request : Nat → Machine.Request
  /-- The blocks outside the memzones that a device relies on. -/
  hosts : Nat → Set Block

/-- The rules of a workload. -/
structure Workload.Lawful (w : Workload) (enc : List UInt8 → List UInt8)
    (cfg : Nat → Configuration) (lcores : List (List Nat)) (n : Nat) (debug : Bool) : Prop where
  bounds : ∀ d < lcores.length, (cfg d).Bounds
  separate : ∀ {d zones called s}, w.device d zones called s → s.Separate (cfg d) zones
  call : ∀ {d zones called s q}, d < lcores.length → w.device d zones called s →
    q < share lcores n d → q ∉ called →
    w.device d zones (insert q called)
      (s.act debug (.call q (w.request (offset lcores d + q))))
  step : ∀ {d zones called s q env}, d < lcores.length → w.device d zones called s → q ∈ called →
    (s.machineOf (cfg d) zones q).result = none → s.Succeeds debug (.step q env) →
    w.job.Codes enc (s.machineOf (cfg d) zones q) env →
    ∃ later, w.device d later called (s.act debug (.step q env))
  elsewhere : ∀ {d zones called s s'}, w.device d zones called s →
    s.Elsewhere (Session.Relies zones (w.hosts d)) s' →
    w.device d (zones.withPool s'.pool) called s'
  host : ∀ {d zones called s b}, w.device d zones called s → b ∈ w.hosts d → ∃ id, b = .host id
  writes : ∀ {d zones called s q b}, w.device d zones called s →
    b ∈ (s.machineOf (cfg d) zones q).footprint.writes →
    (∃ z ∈ zones.device.occupiedMemzones, b = .memzone z) ∨
      ∃ id, b = .host id ∧ ∀ other, other ≠ d → b ∉ w.hosts other
  success : ∀ {d zones called s q status}, w.device d zones called s → q ∈ called →
    (s.lanes q).pc = .returned status → status = .success
  answered : ∀ {d zones called s q status}, w.device d zones called s → q ∈ called →
    (s.lanes q).pc = .returned status → ∀ {v out},
      w.request (offset lcores d + q) = .decompress v out →
      ∃ output index offset total, (s.lanes q).call = .decompress v output index offset total

/-- The call of the test has begun. -/
def Phase.Begun (p : Phase) : Prop :=
  p = .called ∨ p = .done

/-- The queue pairs of a device on which the calls of the round have begun. -/
def calledOn (lcores : List (List Nat)) (n : Nat) (phase : Nat → Phase) (d : Nat) : Set Nat :=
  {q | q < share lcores n d ∧ (phase (offset lcores d + q)).Begun}

/-- What a device writes, no other device relies on. -/
theorem Workload.Lawful.spares {w : Workload} {enc : List UInt8 → List UInt8}
    {cfg : Nat → Configuration} {lcores : List (List Nat)} {n d other q : Nat} {debug : Bool}
    {zones zones' : Zones} {called called' : Set Nat} {s s' : Session}
    (hw : w.Lawful enc cfg lcores n debug) (hne : other ≠ d) (h : w.device d zones called s)
    (h' : w.device other zones' called' s') (hapart : ∀ z, s.Holds z → ¬ s'.Holds z) {b : Block}
    (hb : Session.Relies zones' (w.hosts other) b) :
    b ∉ (s.machineOf (cfg d) zones q).footprint.writes := by
  intro hwrites
  have hzones := (hw.separate h).inService.zones_eq
  have hzones' := (hw.separate h').inService.zones_eq
  rcases hw.writes h hwrites with ⟨z, hz, rfl⟩ | ⟨id, rfl, hspared⟩
  · rcases hb with hhost | ⟨z', hz', he⟩
    · obtain ⟨id, he⟩ := hw.host h' hhost
      cases he
    · obtain rfl := Block.memzone.inj he
      exact hapart z ((Session.holds_iff hzones).mpr (Or.inr hz))
        ((Session.holds_iff hzones').mpr (Or.inr hz'))
  · rcases hb with hhost | ⟨z', -, he⟩
    · exact hspared other hne hhost
    · cases he

section CalledOn

variable {lcores : List (List Nat)} {n idx d q : Nat} {phase : Nat → Phase} {p : Phase}

/-- The phases of the tests that matter. -/
theorem calledOn_update (h : (p.Begun ↔ (phase idx).Begun)) (d : Nat) :
    calledOn lcores n (Function.update phase idx p) d = calledOn lcores n phase d := by
  ext q
  refine and_congr_right fun _ => ?_
  by_cases hsame : offset lcores d + q = idx
  · rw [hsame, Function.update_self]
    exact h
  · rw [Function.update_of_ne hsame]

/-- One more call has begun. -/
theorem Assigned.calledOn_insert (h : Assigned lcores n) (hq : q < share lcores n d)
    (hp : p.Begun) (other : Nat) :
    calledOn lcores n (Function.update phase (offset lcores d + q) p) other =
      if other = d then insert q (calledOn lcores n phase d)
      else calledOn lcores n phase other := by
  have hsame : ∀ {r}, r < share lcores n other → offset lcores other + r = offset lcores d + q →
      other = d ∧ r = q := by
    intro r hr he
    have hplace := h.places_eq hr
    rw [he, h.places_eq hq] at hplace
    exact ⟨(Place.mk.inj hplace).1.symm, (Place.mk.inj hplace).2.symm⟩
  ext r
  by_cases he : r < share lcores n other ∧ offset lcores other + r = offset lcores d + q
  · obtain ⟨rfl, rfl⟩ := hsame he.1 he.2
    rw [if_pos rfl]
    exact iff_of_true ⟨he.1, by rw [Function.update_self]; exact hp⟩ (Set.mem_insert _ _)
  · have hkeep : r ∈ calledOn lcores n (Function.update phase (offset lcores d + q) p) other ↔
        r ∈ calledOn lcores n phase other := by
      refine and_congr_right fun hr => ?_
      rw [Function.update_of_ne fun hidx => he ⟨hr, hidx⟩]
    rw [hkeep]
    split_ifs with hother
    · subst hother
      have hne : r ≠ q := fun hr => he ⟨hr ▸ hq, by rw [hr]⟩
      simp [hne]
    · exact Iff.rfl

end CalledOn

/-- The queue pair of an event of a call. -/
def Session.Event.On (q : Nat) : Session.Event → Prop
  | .call queuePairId _ | .step queuePairId _ => queuePairId = q
  | _ => False

theorem Session.Event.On.ne_initializeDevice {q : Nat} {event : Session.Event} (h : event.On q)
    (attempt : Attempt) : event ≠ .initializeDevice attempt := by
  rintro rfl
  exact h

/-- The other queue pairs are left alone. -/
theorem Session.Event.On.lanes_eq {q q' : Nat} {event : Session.Event} (h : event.On q)
    (hne : q' ≠ q) (debug : Bool) (s : Session) : (s.act debug event).lanes q' = s.lanes q' := by
  have hlane : ∀ f : Machine → Machine, (s.onQueuePair q f).lanes q' = s.lanes q' := by
    intro f
    unfold Session.onQueuePair
    split
    · rfl
    · exact Function.update_of_ne hne _ _
  cases event with
  | call queuePairId request =>
      obtain rfl : queuePairId = q := h
      exact hlane _
  | step queuePairId env =>
      obtain rfl : queuePairId = q := h
      exact hlane _
  | initializeDevice attempt => exact h.elim
  | recycle buffers => exact h.elim

/-- No task has failed so far. -/
def MainPc.OnTrack : MainPc → Prop
  | .waiting _ _ _ _ asyncSuccess => asyncSuccess = true
  | _ => True

namespace Evaluation

/-- The result of a test that is done has been stored. -/
def Recorded (ev : Evaluation) (job : Job) (idx : Nat) (p : Place) : Prop :=
  let lane := (ev.devices p.deviceId).lanes p.queuePairId
  (∃ status, lane.pc = .returned status) ∧
    match job with
    | .compress => ev.compressedAt p = some lane.call.emitted
    | .decompress => ∃ index offset total,
        lane.call = .decompress ((ev.compressedAt p).getD []) (ev.decompressedBufferVector idx)
          index offset total

/-- The invariant of a round. -/
structure Running (w : Workload) (lcores : List (List Nat)) (n : Nat) (phase : Nat → Phase)
    (ev : Evaluation) : Prop where
  lcores_eq : ev.workerLcores = lcores
  tests_eq : ev.numParallelTests = n
  deviceId_eq : ∀ d < lcores.length, (ev.devices d).device.deviceId.toNat = d
  underway : Underway lcores n w.job phase ev.lcoreConfig
  ret_eq : ∀ idx < n, phase idx = .done → ∀ l, lcoreAt lcores (places lcores idx) = some l →
    (ev.lcoreConfig l).ret = kAsyncReturnOK
  devices : ∀ d < lcores.length, ∃ zones,
    w.device d zones (calledOn lcores n phase d) (ev.devices d)
  apart : ev.devices.Apart lcores.length
  slots : ∀ d, ((ev.compressedBuffers d).getD []).length = share lcores n d
  pending : ∀ idx < n, phase idx ≠ .done → ∀ called,
    ev.request ⟨w.job, idx, places lcores idx, called⟩ = w.request idx
  recorded : ∀ idx < n, phase idx = .done → ev.Recorded w.job idx (places lcores idx)

section Running

variable {ev : Evaluation} {w : Workload} {enc : List UInt8 → List UInt8}
  {cfg : Nat → Configuration} {lcores : List (List Nat)} {n idx d q l : Nat} {debug : Bool}
  {phase : Nat → Phase} {p : Phase} {env : Env} {t : Task}

/-- Work on one device, as the others see it. -/
theorem Running.work (h : Running w lcores n phase ev) (hw : w.Lawful enc cfg lcores n debug)
    (hd : d < lcores.length) {s' : Session} {zones later : Zones} {called : Set Nat}
    (hbefore : w.device d zones called (ev.devices d))
    (heffect : Session.Effect zones later
      {b | b ∈ ((ev.devices d).machineOf (cfg d) zones q).footprint.writes} (ev.devices d) s') :
    (ev.devices.set d s').Apart lcores.length ∧
      ∀ other < lcores.length, other ≠ d → ∃ zones,
        w.device other zones (calledOn lcores n phase other) (ev.devices.set d s' other) := by
  refine ⟨h.apart.set hd (fun other hother z hz => ?_) fun z hz => heffect.holds hz,
    fun other hother hne => ?_⟩
  · obtain ⟨zones', hdevice⟩ := h.devices other hother
    exact (hw.separate hdevice).inService.mem_allocated hz
  · obtain ⟨zones', hdevice⟩ := h.devices other hother
    refine ⟨_, hw.elsewhere hdevice (Devices.set_elsewhere heffect hne fun b hb => ?_)⟩
    exact hw.spares hne hbefore hdevice (h.apart d hd other hother (Ne.symm hne)) hb

/-- An event on the queue pair of a test that is not done. -/
theorem Running.act (h : Running w lcores n phase ev) (hw : w.Lawful enc cfg lcores n debug)
    (ha : Assigned lcores n) (hq : q < share lcores n d)
    (hdone : phase (offset lcores d + q) ≠ .done) (hp : p ≠ .done) {event : Session.Event}
    (hon : event.On q) {config : Nat → LcoreConfig}
    (hunderway : Underway lcores n w.job (Function.update phase (offset lcores d + q) p) config)
    (hret : ∀ l, (config l).ret = (ev.lcoreConfig l).ret)
    (hothers : ∀ other, other ≠ d →
      calledOn lcores n (Function.update phase (offset lcores d + q) p) other =
        calledOn lcores n phase other)
    {zones later : Zones} {called : Set Nat} (hbefore : w.device d zones called (ev.devices d))
    (heffect : Session.Effect zones later
      {b | b ∈ ((ev.devices d).machineOf (cfg d) zones q).footprint.writes} (ev.devices d)
        ((ev.devices d).act debug event))
    (hafter : w.device d later
      (calledOn lcores n (Function.update phase (offset lcores d + q) p) d)
        ((ev.devices d).act debug event)) :
    Running w lcores n (Function.update phase (offset lcores d + q) p)
      { ev.setDevice d ((ev.devices d).act debug event) with lcoreConfig := config } := by
  obtain ⟨hapart, hrest⟩ := h.work hw (lt_of_lt_share hq).1 hbefore heffect
  have hdevices : ∀ other < lcores.length, ∃ zones,
      w.device other zones
        (calledOn lcores n (Function.update phase (offset lcores d + q) p) other)
        (ev.devices.set d ((ev.devices d).act debug event) other) := by
    intro other hother
    by_cases hsame : other = d
    · subst hsame
      rw [Devices.set_self]
      exact ⟨later, hafter⟩
    · rw [hothers other hsame]
      exact hrest other hother hsame
  have hsame : SameDevices ev.devices
      (ev.devices.set d ((ev.devices d).act debug event)) :=
    SameDevices.update hon.ne_initializeDevice (sameDevices_refl _)
  have hphase : ∀ {j}, Function.update phase (offset lcores d + q) p j = .done →
      j ≠ offset lcores d + q ∧ phase j = .done := by
    intro j hj
    by_cases he : j = offset lcores d + q
    · rw [he, Function.update_self] at hj
      exact absurd hj hp
    · rw [Function.update_of_ne he] at hj
      exact ⟨he, hj⟩
  have hphase' : ∀ {j}, Function.update phase (offset lcores d + q) p j ≠ .done →
      phase j ≠ .done := by
    intro j hj
    by_cases he : j = offset lcores d + q
    · rwa [he]
    · rwa [Function.update_of_ne he] at hj
  refine ⟨?_, h.tests_eq, fun other hother => ?_, hunderway, fun j hj hjd l hl => ?_, hdevices,
    hapart, h.slots, fun j hj hjd called => ?_, fun j hj hjd => ?_⟩
  · exact (List.map_congr_left fun other _ => (hsame other).1).trans h.lcores_eq
  · exact (congrArg UInt8.toNat (hsame other).2).trans (h.deviceId_eq other hother)
  · exact (hret l).trans (h.ret_eq j hj (hphase hjd).2 l hl)
  · refine Eq.trans ?_ (h.pending j hj (hphase' hjd) called)
    rfl
  · -- the queue pair of another test
    obtain ⟨hne, hjd'⟩ := hphase hjd
    obtain ⟨d', q', hq', rfl, hplace⟩ := ha.exists_place hj
    have hrecorded := h.recorded _ hj hjd'
    rw [hplace] at hrecorded ⊢
    have hlane : (ev.devices.set d ((ev.devices d).act debug event) d').lanes q' =
        (ev.devices d').lanes q' := by
      by_cases hd : d' = d
      · subst hd
        rw [Devices.set_self]
        exact hon.lanes_eq (fun he => hne (by rw [he])) debug _
      · rw [Devices.set_of_ne hd]
    unfold Recorded at hrecorded ⊢
    dsimp only [setDevice] at hrecorded ⊢
    rw [hlane]
    exact hrecorded

/-- The callback of a test has stored the result, and the test is done. -/
theorem Running.finish (h : Running w lcores n phase ev) (ha : Assigned lcores n) (hidx : idx < n)
    (hl : lcoreAt lcores (places lcores idx) = some l) (hphase : phase idx = .called)
    {ev' : Evaluation} (hconfig : ev'.lcoreConfig = ev.lcoreConfig)
    (hdevices : ev'.devices = ev.devices) (hsetting : ev'.setting = ev.setting)
    (hslots : ∀ d, ((ev'.compressedBuffers d).getD []).length =
      ((ev.compressedBuffers d).getD []).length)
    (hpending : ∀ j < n, j ≠ idx → ∀ called,
      ev'.request ⟨w.job, j, places lcores j, called⟩ =
        ev.request ⟨w.job, j, places lcores j, called⟩)
    (hothers : ∀ j < n, j ≠ idx → ev.Recorded w.job j (places lcores j) →
      ev'.Recorded w.job j (places lcores j))
    (hrecorded : ev'.Recorded w.job idx (places lcores idx)) :
    Running w lcores n (Function.update phase idx .done)
      (ev'.setLcore l ⟨none, kAsyncReturnOK⟩) := by
  refine ⟨(congrArg Setting.workerLcores hsetting).trans h.lcores_eq,
    (congrArg Setting.numParallelTests hsetting).trans h.tests_eq, fun d hd => ?_, ?_,
    fun j hj hjd l' hl' => ?_, fun d hd => ?_, ?_, fun d => (hslots d).trans (h.slots d),
    fun j hj hjd called => ?_, fun j hj hjd => ?_⟩
  · show (ev'.devices d).device.deviceId.toNat = d
    rw [hdevices]
    exact h.deviceId_eq d hd
  · show Underway _ _ _ _ (Function.update ev'.lcoreConfig _ _)
    rw [hconfig]
    exact h.underway.set ha hidx hl rfl
  · show (Function.update ev'.lcoreConfig l _ l').ret = _
    by_cases hsame : j = idx
    · subst hsame
      obtain rfl := Option.some.inj (hl.symm.trans hl')
      rw [Function.update_self]
    · have hne : l' ≠ l := fun he => hsame (ha.lcore_inj hj hidx hl' (he ▸ hl))
      rw [Function.update_of_ne hsame] at hjd
      rw [Function.update_of_ne hne, hconfig]
      exact h.ret_eq j hj hjd l' hl'
  · obtain ⟨zones, hdevice⟩ := h.devices d hd
    refine ⟨zones, ?_⟩
    show w.device d zones _ (ev'.devices d)
    rwa [hdevices, calledOn_update (by simp [Phase.Begun, hphase])]
  · show ev'.devices.Apart _
    rw [hdevices]
    exact h.apart
  · have hne : j ≠ idx := by
      rintro rfl
      exact hjd (Function.update_self _ _ _)
    rw [Function.update_of_ne hne] at hjd
    exact (hpending j hj hne called).trans (h.pending j hj hjd called)
  · by_cases hsame : j = idx
    · subst hsame
      exact hrecorded
    · rw [Function.update_of_ne hsame] at hjd
      exact hothers j hj hsame (h.recorded j hj hjd)

/-- A slot for a result. -/
theorem Running.compressedAt_eq (h : Running w lcores n phase ev) (hq : q < share lcores n d) :
    ∃ vectors, ev.compressedBuffers d = some vectors ∧ vectors.length = share lcores n d := by
  have hlength := h.slots d
  cases hvectors : ev.compressedBuffers d with
  | none =>
      rw [hvectors] at hlength
      rw [← hlength] at hq
      exact absurd hq (Nat.not_lt_zero q)
  | some vectors =>
      rw [hvectors] at hlength
      exact ⟨vectors, rfl, hlength⟩

/-- **The callback.** -/
theorem Running.answer (h : Running w lcores n phase ev) (hw : w.Lawful enc cfg lcores n debug)
    (ha : Assigned lcores n) (hq : q < share lcores n d)
    (hl : lcoreAt lcores ⟨d, q⟩ = some l) (hphase : phase (offset lcores d + q) = .called)
    {status : Status} (hpc : ((ev.devices d).lanes q).pc = .returned status) :
    let after := ev.callback l ⟨w.job, offset lcores d + q, ⟨d, q⟩, true⟩ status
    after.main = ev.main ∧
      Running w lcores n (Function.update phase (offset lcores d + q) .done) after := by
  obtain ⟨hd, -, hidx⟩ := lt_of_lt_share hq
  have hplace := ha.places_eq hq
  obtain ⟨zones, hdevice⟩ := h.devices d hd
  have hcalled : q ∈ calledOn lcores n phase d := ⟨hq, Or.inl hphase⟩
  obtain rfl := hw.success hdevice hcalled hpc
  obtain ⟨vectors, hvectors, hlength⟩ := h.compressedAt_eq hq
  have hother : ∀ j < n, j ≠ offset lcores d + q → ∀ p, places lcores j = p → p ≠ ⟨d, q⟩ := by
    rintro j hj hne p rfl he
    obtain ⟨d', q', hq', rfl, hplace'⟩ := ha.exists_place hj
    rw [hplace'] at he
    obtain ⟨rfl, rfl⟩ := Place.mk.inj he
    exact hne rfl
  rw [← hplace] at hl
  intro after
  cases hjob : w.job with
  | compress =>
      -- the result goes to the slot of the test
      have hstore : ev.storeResult ⟨.compress, offset lcores d + q, ⟨d, q⟩, true⟩ =
          some { ev with
            compressedBuffers := Function.update ev.compressedBuffers d
              (some (vectors.set q ((ev.devices d).lanes q).call.emitted)) } := by
        dsimp only [storeResult]
        rw [h.deviceId_eq d hd, hvectors]
        exact if_pos (hlength ▸ hq)
      have hafter : after = _ := (if_neg (by simp [Status.success])).trans (by rw [hjob, hstore])
      rw [hafter]
      refine ⟨rfl, h.finish ha hidx hl hphase rfl rfl rfl (fun other => ?_)
        (fun j hj hne called => ?_) (fun j hj hne hrecorded => ?_) ?_⟩
      · by_cases he : other = d
        · subst he
          simp [hvectors]
        · simp only [Function.update_of_ne he]
      · rw [hjob]
        rfl
      · have hp := hother j hj hne _ rfl
        rw [hjob] at hrecorded ⊢
        refine ⟨hrecorded.1, Eq.trans ?_ hrecorded.2⟩
        unfold compressedAt
        by_cases he : (places lcores j).deviceId = d
        · have hqne : q ≠ (places lcores j).queuePairId := by
            rintro rfl
            exact hp (by rw [← he])
          simp [he, hvectors, List.getElem?_set_ne hqne]
        · simp only [Function.update_of_ne he]
      · rw [hjob, hplace]
        refine ⟨⟨_, hpc⟩, ?_⟩
        unfold compressedAt
        simp [List.getElem?_set_self (hlength ▸ hq)]
  | decompress =>
      have hrequest := h.pending _ hidx (by rw [hphase]; simp) true
      rw [hjob] at hrequest
      obtain ⟨output, index, offset', total, hcall⟩ := hw.answered hdevice hcalled hpc hrequest.symm
      have hstore : ev.storeResult ⟨.decompress, offset lcores d + q, ⟨d, q⟩, true⟩ =
          some { ev with
            decompressedBufferVector := Function.update ev.decompressedBufferVector
              (offset lcores d + q) output } := by
        dsimp only [storeResult]
        rw [hcall]
        rfl
      have hafter : after = _ := (if_neg (by simp [Status.success])).trans (by rw [hjob, hstore])
      rw [hafter]
      refine ⟨rfl, h.finish ha hidx hl hphase rfl rfl rfl (fun other => rfl)
        (fun j hj hne called => ?_) (fun j hj hne hrecorded => ?_) ?_⟩
      · rw [hjob]
        simp [request, compressedAt, Function.update_of_ne hne]
      · rw [hjob] at hrecorded ⊢
        refine ⟨hrecorded.1, ?_⟩
        dsimp only
        rw [Function.update_of_ne hne]
        exact hrecorded.2
      · rw [hjob, hplace]
        refine ⟨⟨_, hpc⟩, index, offset', total, ?_⟩
        dsimp only
        rw [Function.update_self, hcall, hplace]
        rfl

/-! ## The steps -/

/-- A device does what it is asked to do, with `enc`; the allocations succeed, and
give out blocks of their own. -/
def Clean (enc : List UInt8 → List UInt8) (debug : Bool) (ev : Evaluation) : Action → Prop
  | .main allocations => ∀ i < ev.numParallelTests, (allocations i).isSome ∧
      ∀ j < ev.numParallelTests, i ≠ j →
        (allocations i).map Prod.fst ≠ (allocations j).map Prod.fst
  | .worker lcoreId env => ∀ t ∈ (ev.lcoreConfig lcoreId).task, t.called = true →
      (ev.devices t.place.deviceId).Succeeds debug (.step t.place.queuePairId env) ∧
      ∀ st ∈ (ev.devices t.place.deviceId).machine t.place.queuePairId, t.job.Codes enc st env

/-- **A worker lcore takes a step.** -/
theorem Running.worker (h : Running w lcores n phase ev) (hw : w.Lawful enc cfg lcores n debug)
    (ha : Assigned lcores n) (hclean : ev.Clean enc debug (.worker l env)) :
    ev.worker debug l env = ev ∨
      ∃ idx p, phase idx ≠ .fresh ∧ phase idx ≠ .done ∧ p ≠ .fresh ∧
        (ev.worker debug l env).main = ev.main ∧
        Running w lcores n (Function.update phase idx p) (ev.worker debug l env) := by
  rcases ev.worker_cases debug l env with ⟨-, he⟩ | ⟨t, ht, hcases⟩
  · exact Or.inl he
  · refine Or.inr ?_
    obtain ⟨idx, hidx, hl, htask, hphase⟩ := h.underway.exists_test ht
    obtain ⟨d, q, hq, rfl, hplace⟩ := ha.exists_place hidx
    obtain ⟨hd, -, -⟩ := lt_of_lt_share hq
    obtain ⟨zones, hdevice⟩ := h.devices d hd
    have hzones := (hw.separate hdevice).inService.zones_eq
    rw [hplace] at htask
    rcases hcases with ⟨hcalled, he⟩ | ⟨hcalled, status, hpc, he⟩ | ⟨hcalled, hpc, he⟩
    · -- the call begins
      rw [hcalled] at htask hphase
      have hphase' : phase (offset lcores d + q) = .launched := hphase
      have hnot : q ∉ calledOn lcores n phase d := by
        rintro ⟨-, hbegun⟩
        rw [Phase.Begun, hphase'] at hbegun
        simp at hbegun
      have hrequest := h.pending _ hidx (by rw [hphase']; simp) false
      rw [hplace] at hrequest
      rw [htask, hrequest] at he
      refine ⟨offset lcores d + q, .called, by simp [hphase'], by simp [hphase'], by simp,
        by rw [he]; rfl, ?_⟩
      rw [he]
      have hon : (Session.Event.call q (w.request (offset lcores d + q))).On q := rfl
      have hafter := hw.call hd hdevice hq hnot
      refine h.act hw ha hq (by simp [hphase']) (by simp) hon ?_ (fun l' => ?_)
        (fun other hne => ?_) hdevice
        (Session.call_effect _ hzones (hw.separate hafter).inService.zones_eq) ?_
      · refine h.underway.set ha hidx hl ?_
        rw [Phase.task, hplace]
      · show (Function.update ev.lcoreConfig l _ l').ret = _
        by_cases hsame : l' = l
        · rw [hsame, Function.update_self]
        · rw [Function.update_of_ne hsame]
      · rw [ha.calledOn_insert hq (Or.inl rfl), if_neg hne]
      · rw [ha.calledOn_insert hq (Or.inl rfl), if_pos rfl]
        exact hafter
    · -- the callback
      rw [hcalled] at htask hphase
      rw [htask] at hpc he
      refine ⟨offset lcores d + q, .done, by simp [hphase], by simp [hphase], by simp, ?_⟩
      rw [he]
      exact h.answer hw ha hq (hplace ▸ hl) hphase hpc
    · -- the call goes on
      have hok := hclean t ht hcalled
      rw [hcalled] at htask hphase
      have hphase' : phase (offset lcores d + q) = .called := hphase
      rw [htask] at hpc he hok
      have hservice := (hw.separate hdevice).inService
      have hmachine := Session.machine_eq hservice.configuration_eq hservice.zones_eq q
      have hnone : ((ev.devices d).machineOf (cfg d) zones q).result = none := by
        cases hres : ((ev.devices d).machineOf (cfg d) zones q).result with
        | none => rfl
        | some status => exact absurd (Machine.result_eq_some.mp hres) (hpc status)
      obtain ⟨later, hlater⟩ := hw.step hd hdevice ⟨hq, Or.inl hphase'⟩ hnone hok.1
        (hok.2 _ hmachine)
      refine ⟨offset lcores d + q, .called, by simp [hphase'], by simp [hphase'], by simp,
        by rw [he]; rfl, ?_⟩
      have hsame : Function.update phase (offset lcores d + q) .called = phase := by
        rw [← hphase']
        exact Function.update_eq_self _ _
      have hon : (Session.Event.step q env).On q := rfl
      obtain ⟨later', hmoved, hadvances, -⟩ := (hw.separate hdevice).step (hw.bounds d hd) hok.1
      obtain rfl := (hw.separate hlater).zones_unique hmoved.separate
      rw [he]
      refine h.act hw ha hq (by simp [hphase']) (by simp) hon (by rw [hsame]; exact h.underway)
        (fun _ => rfl) (fun _ _ => by rw [hsame]) hdevice
        ((hw.separate hdevice).step_effect hmoved.separate hadvances) ?_
      rw [hsame]
      exact hlater

/-- A fresh test is launched. -/
theorem Running.setLcore (h : Running w lcores n phase ev) (ha : Assigned lcores n) (hidx : idx < n)
    (hl : lcoreAt lcores (places lcores idx) = some l) (hfresh : phase idx = .fresh) :
    Running w lcores n (Function.update phase idx .launched)
      (ev.setLcore l { ev.lcoreConfig l with
        task := some ⟨w.job, idx, places lcores idx, false⟩ }) := by
  have hphase : ∀ {j}, Function.update phase idx .launched j = .done → phase j = .done := by
    intro j hj
    by_cases he : j = idx
    · rw [he, Function.update_self] at hj
      cases hj
    · rwa [Function.update_of_ne he] at hj
  refine ⟨h.lcores_eq, h.tests_eq, h.deviceId_eq, h.underway.set ha hidx hl rfl,
    fun j hj hjd l' hl' => ?_, fun d hd => ?_, h.apart, h.slots, fun j hj hjd called => ?_,
    fun j hj hjd => h.recorded j hj (hphase hjd)⟩
  · refine Eq.trans ?_ (h.ret_eq j hj (hphase hjd) l' hl')
    show (Function.update ev.lcoreConfig l _ l').ret = _
    by_cases he : l' = l
    · rw [he, Function.update_self]
    · rw [Function.update_of_ne he]
  · rw [calledOn_update (by simp [Phase.Begun, hfresh])]
    exact h.devices d hd
  · refine h.pending j hj (fun he => hjd ?_) called
    have hne : j ≠ idx := by
      rintro rfl
      rw [hfresh] at he
      cases he
    rwa [Function.update_of_ne hne]

theorem Running.withMain (h : Running w lcores n phase ev) (pc : MainPc) :
    Running w lcores n phase { ev with main := pc } :=
  ⟨h.lcores_eq, h.tests_eq, h.deviceId_eq, h.underway, h.ret_eq, h.devices, h.apart, h.slots,
    h.pending, h.recorded⟩

/-- **The main lcore takes a step**, or all tests are done. -/
theorem Running.mainStep (h : Running w lcores n phase ev) (ha : Assigned lcores n) {round : Nat}
    (hs : Stage lcores n w.job round phase ev.main) (htrack : ev.main.OnTrack)
    (allocations : Nat → Option (Nat × Nat)) :
    (∃ phase', Running w lcores n phase' (ev.mainStep debug allocations) ∧
        Stage lcores n w.job round phase' (ev.mainStep debug allocations).main ∧
        (ev.mainStep debug allocations).main.OnTrack) ∨
      (∀ idx < n, phase idx = .done) ∧
        ev.mainStep debug allocations = ev.endRound debug w.job round true allocations := by
  obtain rfl := h.lcores_eq
  obtain rfl := h.tests_eq
  generalize hpc : ev.main = pc at hs
  unfold Evaluation.mainStep
  rw [hpc] at htrack ⊢
  cases hs with
  | launching k hle hfresh =>
      refine Or.inl ?_
      dsimp only
      unfold Evaluation.launch
      by_cases hk : k < ev.numParallelTests
      · obtain ⟨l, hl, hnone⟩ := exists_lcore_launch h.underway ha rfl hfresh hk
        obtain ⟨d, q, hq, -, hplace⟩ := ha.exists_place hk
        obtain ⟨vectors, hvectors, hlength⟩ := h.compressedAt_eq hq
        have hslot : ev.compressedAt (places ev.workerLcores k) ≠ none := by
          rw [hplace, compressedAt, hvectors, Option.bind_some,
            List.getElem?_eq_getElem (hlength ▸ hq)]
          simp
        rw [if_pos hk, hl]
        dsimp only
        rw [if_neg fun he => hslot he.2, if_neg (not_not_intro hnone)]
        refine ⟨Function.update phase k .launched,
          (h.setLcore ha hk hl ((hfresh k hk).mpr (Nat.le_refl k))).withMain _,
          .launching (k + 1) hk fun idx hidx => ?_, trivial⟩
        by_cases hsame : idx = k
        · subst hsame
          simp
        · rw [Function.update_of_ne hsame, hfresh idx hidx]
          omega
      · rw [if_neg hk]
        refine ⟨phase, h.withMain _, .waiting 0 true (Nat.zero_le _) (fun idx hidx => ?_)
          (fun idx hidx => absurd hidx (Nat.not_lt_zero idx)), rfl⟩
        rw [Ne, hfresh idx hidx]
        omega
  | waiting k asyncSuccess hle hlaunched hdone =>
      obtain rfl : asyncSuccess = true := htrack
      dsimp only
      unfold await
      by_cases hk : k < ev.numParallelTests
      · refine Or.inl ⟨phase, ?_⟩
        obtain ⟨l, hl⟩ := ha.exists_lcore hk
        rw [if_pos hk, hl]
        dsimp only
        split_ifs with hbusy
        · exact ⟨h, hpc ▸ .waiting k true hle hlaunched hdone, hpc ▸ rfl⟩
        · rw [not_not, h.underway.task_eq k hk l hl, Phase.task_eq_none] at hbusy
          have hover := hbusy.resolve_left (hlaunched k hk)
          refine ⟨h.withMain _, .waiting (k + 1) _ hk hlaunched fun idx hidx => ?_, ?_⟩
          · rcases Nat.lt_succ_iff_lt_or_eq.mp hidx with hlt | rfl
            · exact hdone idx hlt
            · exact hover
          · show (true && _) = true
            rw [h.ret_eq k hk hover l hl]
            rfl
      · rw [if_neg hk]
        exact Or.inr ⟨fun idx hidx => hdone idx (by omega), rfl⟩

theorem step_eq (debug : Bool) (hmain : ∀ fault, ev.main ≠ .terminated fault) (action : Action) :
    ev.step debug action =
      match action with
      | .main allocations => ev.mainStep debug allocations
      | .worker lcoreId env => ev.worker debug lcoreId env := by
  unfold Evaluation.step
  split
  · next fault hfault => exact absurd hfault (hmain fault)
  · rfl

/-- **A step of a round**, or all tests are done. -/
theorem Running.step (h : Running w lcores n phase ev) (hw : w.Lawful enc cfg lcores n debug)
    (ha : Assigned lcores n) {round : Nat} (hs : Stage lcores n w.job round phase ev.main)
    (htrack : ev.main.OnTrack) {action : Action} (hclean : ev.Clean enc debug action) :
    (∃ phase', Running w lcores n phase' (ev.step debug action) ∧
        Stage lcores n w.job round phase' (ev.step debug action).main ∧
        (ev.step debug action).main.OnTrack) ∨
      (∀ idx < n, phase idx = .done) ∧ ∃ allocations, action = .main allocations ∧
        ev.step debug action = ev.endRound debug w.job round true allocations := by
  rw [step_eq debug fun fault hfault => by rw [hfault] at hs; cases hs]
  cases action with
  | main allocations =>
      dsimp only
      rcases h.mainStep ha hs htrack allocations with hround | ⟨hdone, he⟩
      · exact Or.inl hround
      · exact Or.inr ⟨hdone, allocations, rfl, he⟩
  | worker l env =>
      refine Or.inl ?_
      dsimp only
      rcases h.worker hw ha hclean with he | ⟨idx, p, hfresh, hdone, hp, hmain, hrunning⟩
      · rw [he]
        exact ⟨phase, h, hs, htrack⟩
      · refine ⟨_, hrunning, ?_, ?_⟩
        · rw [hmain]
          exact hs.update hfresh hdone hp
        · rw [hmain]
          exact htrack

end Running

end Evaluation

/-! ## The two benchmarks -/

section Workloads

variable {enc : List UInt8 → List UInt8} {cfg : Nat → Configuration} {lcores : List (List Nat)}
  {n : Nat}

/-- The rounds of `BenchmarkCompressAsync`; `data` are the contents of the inputs. -/
def compressing (enc : List UInt8 → List UInt8) (cfg : Nat → Configuration)
    (lcores : List (List Nat)) (n : Nat) (inputs : Nat → Buffer) (data : Nat → List UInt8) :
    Workload where
  job := .compress
  device d := Session.CompressRound enc (cfg d) (fun q => inputs (offset lcores d + q))
    (fun q => data (offset lcores d + q)) (share lcores n d)
  request idx := .compress (some (inputs idx))
  hosts d := Session.hostBlocks (fun q => inputs (offset lcores d + q)) (share lcores n d)

/-- The rounds of `BenchmarkDecompressAsync`; `data` are what the streams in
`vectors` are made of. -/
def decompressing (enc : List UInt8 → List UInt8) (cfg : Nat → Configuration)
    (lcores : List (List Nat)) (n : Nat) (vectors : Nat → List Buffer)
    (outputs : Nat → ResizableBuffer) (data : Nat → List UInt8) : Workload where
  job := .decompress
  device d := Session.DecompressRound enc (cfg d) (fun q => vectors (offset lcores d + q))
    (fun q => outputs (offset lcores d + q)) (fun q => data (offset lcores d + q))
    (share lcores n d)
  request idx := .decompress (vectors idx) (some (outputs idx))
  hosts d := Session.outputBlocks (fun q => outputs (offset lcores d + q)) (share lcores n d)

/-- Every test has an output of its own, outside the memzones. -/
structure OwnOutputs (outputs : Nat → ResizableBuffer) (n : Nat) : Prop where
  host : ∀ i < n, ∃ id, (outputs i).data.block = .host id
  apart : ∀ i < n, ∀ j < n, i ≠ j → (outputs i).data.block ≠ (outputs j).data.block

theorem compressing_lawful (hb : ∀ d < lcores.length, (cfg d).Bounds) (inputs : Nat → Buffer)
    (data : Nat → List UInt8) (debug : Bool) :
    (compressing enc cfg lcores n inputs data).Lawful enc cfg lcores n debug where
  bounds := hb
  separate h := h.attended.separate
  call hd h hq hnot := h.call (hb _ hd) hq hnot
  step hd h hcalled hnone hok hcodes := h.step (hb _ hd) hcalled hnone hok hcodes
  elsewhere h helse := h.elsewhere helse
  host h hmem := by
    obtain ⟨q, hq, rfl⟩ := hmem
    exact h.inputs_host q hq
  writes h hw := Or.inl (h.writes hw)
  success h hcalled hpc := (h.done _ hcalled _ hpc).1
  answered _ _ _ _ _ he := by cases he

theorem decompressing_lawful (hb : ∀ d < lcores.length, (cfg d).Bounds) (ha : Assigned lcores n)
    (vectors : Nat → List Buffer) {outputs : Nat → ResizableBuffer} (hown : OwnOutputs outputs n)
    (data : Nat → List UInt8) (debug : Bool) :
    (decompressing enc cfg lcores n vectors outputs data).Lawful enc cfg lcores n debug where
  bounds := hb
  separate h := h.attended.separate
  call hd h hq hnot := h.call (hb _ hd) hq hnot
  step hd h hcalled hnone hok hcodes := h.step (hb _ hd) hcalled hnone hok hcodes
  elsewhere h helse := h.elsewhere helse
  host h hmem := by
    obtain ⟨q, hq, rfl⟩ := hmem
    exact h.outputs_host q hq
  writes h hw := by
    obtain ⟨q, hq, rfl⟩ := h.writes hw
    obtain ⟨id, hid⟩ := h.outputs_host q hq
    refine Or.inr ⟨id, hid, ?_⟩
    rintro other hne ⟨q', hq', he⟩
    -- two tests on different devices
    refine hown.apart _ (lt_of_lt_share hq).2.2 _ (lt_of_lt_share hq').2.2 (fun hsame => hne ?_) he
    have hplace := ha.places_eq hq
    rw [hsame, ha.places_eq hq'] at hplace
    exact (Place.mk.inj hplace).1
  success h hcalled hpc := (h.done _ hcalled _ hpc).1
  answered h hcalled hpc v out he := by
    obtain ⟨-, size, index, offset, total, hcall, -⟩ := h.done _ hcalled _ hpc
    obtain ⟨rfl, -⟩ := Machine.Request.decompress.inj he
    exact ⟨_, _, _, _, hcall⟩

end Workloads

end Bitar
