import Bitar.LaunchAndWait

/-!
# The pool behind the devices

The devices of a program reserve their memzones from one pool and look them up in
one tracker.  `Take` and `Put` are atomic in the models of a device; in the shared
pool they are several steps of a thread.  Whatever the devices do, the shared pool
can do in such steps.  Nothing is released before the devices are destroyed, so no
entry is lost on the way.

**Results.**
* `Backs.memStep`: one `Take` or `Put`.
* `BackedBy.act`: an event on one device.
* `run_backedBy`: a whole run of `EvaluateAsync`.
-/

namespace Bitar

namespace Tracker

variable {T A Z : Type} {addr : Z → A} {s : Tracker T A Z}

theorem Tracked.entry_of_fresh (h : s.Tracked addr) {z : Z}
    (hfresh : ∀ y ∈ s.live, addr y ≠ addr z) : s.entries (addr z) = none := by
  cases hentry : s.entries (addr z) with
  | none => rfl
  | some y =>
      obtain ⟨hy, he⟩ := (h _ y).mp hentry
      exact absurd he (hfresh y hy)

variable [DecidableEq T] [DecidableEq A] [DecidableEq Z]

/-- `AllocateAligned` without anything in between. -/
theorem Tracked.allocateAligned (h : s.Tracked addr) (hq : s.Quiescent) (hsound : s.Sound addr)
    {z : Z} (hfresh : ∀ y ∈ s.live, addr y ≠ addr z) (t : T) :
    let after := (s.step addr (.reserve t z)).step addr (.emplace t)
    after.Tracked addr ∧ after.Quiescent ∧ after.Sound addr ∧ after.live = insert z s.live ∧
      ¬ (s.step addr (.reserve t z)).Overlaps addr (.emplace t) := by
  have hreserve : s.step addr (.reserve t z) =
      { s with live := insert z s.live, pc := Function.update s.pc t (.reserved z) } :=
    if_pos ⟨hq t, hfresh⟩
  have hpc : Function.update (Function.update s.pc t (.reserved z)) t .idle = s.pc := by
    rw [Function.update_idem, ← hq t, Function.update_eq_self]
  intro after
  have hafter : after =
      { s with
        live := insert z s.live
        entries := Function.update s.entries (addr z) (some z)
        returned := insert z s.returned } := by
    dsimp only [after]
    rw [hreserve]
    simp only [step, Function.update_self, h.entry_of_fresh hfresh, if_true, hpc]
  have hsound' : after.Sound addr := (hsound.moves (step_moves _ _ _)).moves (step_moves _ _ _)
  refine ⟨fun a y => ?_, ?_, hsound', by rw [hafter], ?_⟩
  · rw [hafter, Finset.mem_insert]
    dsimp only
    by_cases ha : a = addr z
    · subst ha
      rw [Function.update_self]
      refine ⟨fun he => ⟨Or.inl (Option.some.inj he).symm, by rw [Option.some.inj he]⟩, ?_⟩
      rintro ⟨rfl | hy, he⟩
      · rfl
      · exact absurd he (hfresh y hy)
    · rw [Function.update_of_ne ha, h a y]
      refine and_congr_left fun he => (or_iff_right ?_).symm
      rintro rfl
      exact ha he.symm
  · rw [hafter]
    exact hq
  · -- nobody is past `rte_memzone_free`
    rintro ⟨y, t', -, hfreed⟩
    rw [hreserve] at hfreed
    rcases update_pc_eq.mp hfreed with ⟨-, he⟩ | ⟨-, he⟩
    · cases he
    · rw [hq t'] at he
      cases he

end Tracker

namespace SharedPool

/-- The pool can come from `s` to `s'` without any overlap. -/
def Reaches (s s' : SharedPool) : Prop :=
  ∃ events, Runs.Along act (fun s event => ¬ s.Overlaps event) s events ∧
    Runs.run act s events = s'

/-- No call is in progress on the tracker, and what it knows is what the device
memories know of the pool. -/
structure Backs (s : SharedPool) (memories : Nat → Option DeviceMemory) (allocated : Finset Nat) :
    Prop where
  sound : s.tracker.Sound memzoneAddr
  quiescent : s.tracker.Quiescent
  tracked : s.tracker.Tracked memzoneAddr
  live_eq : s.tracker.live = allocated
  memories_eq : s.memories = memories

section Backs

variable {s s' s'' : SharedPool} {memories : Nat → Option DeviceMemory} {allocated : Finset Nat}
  {zones later : Zones} {d size : Nat}

theorem Reaches.refl (s : SharedPool) : s.Reaches s :=
  ⟨[], trivial, rfl⟩

theorem Reaches.trans (h : s.Reaches s') (h' : s'.Reaches s'') : s.Reaches s'' := by
  obtain ⟨events, halong, rfl⟩ := h
  obtain ⟨events', halong', rfl⟩ := h'
  exact ⟨events ++ events', Runs.along_append.mpr ⟨halong, halong'⟩, Runs.run_append _ _ _⟩

theorem Backs.sees (h : s.Backs memories zones.pool.allocated)
    (hd : memories d = some zones.device) : s.Sees d zones := by
  refine ⟨(congrFun h.memories_eq d).trans hd, fun addr => Option.ext fun z => ?_⟩
  rw [of_eq_some, ← h.live_eq]
  exact (h.tracked addr z).symm

/-- What a device memory does leaves the tracker and the other ones alone. -/
theorem act_obtain (s : SharedPool) (d z : Nat) (taken : Bool) :
    (s.act (.obtain d z taken)).tracker = s.tracker ∧
      ∀ m, m ≠ d → (s.act (.obtain d z taken)).memories m = s.memories m := by
  dsimp only [SharedPool.act]
  split
  · split_ifs
    · exact ⟨rfl, fun m hm => Function.update_of_ne hm _ _⟩
    · exact ⟨rfl, fun _ _ => rfl⟩
  · exact ⟨rfl, fun _ _ => rfl⟩

theorem act_put (s : SharedPool) (thread d : Nat) :
    (s.act (.put thread d)).tracker = s.tracker ∧
      ∀ m, m ≠ d → (s.act (.put thread d)).memories m = s.memories m := by
  dsimp only [SharedPool.act]
  split
  · exact ⟨rfl, fun _ _ => rfl⟩
  · exact ⟨rfl, fun m hm => Function.update_of_ne hm _ _⟩

/-- The device memory `d` has changed. -/
theorem Sees.memories_eq (h : s'.Sees d later) (hothers : ∀ m, m ≠ d → s'.memories m = memories m) :
    s'.memories = Function.update memories d (some later.device) := by
  funext m
  by_cases hm : m = d
  · subst hm
    rw [Function.update_self]
    exact h.device_eq
  · rw [Function.update_of_ne hm]
    exact hothers m hm

/-- Work on one device memory that leaves the tracker alone. -/
theorem Backs.onMemory (h : s.Backs memories allocated) (htracker : s'.tracker = s.tracker)
    (hmemories : s'.memories = Function.update memories d (some later.device)) :
    s'.Backs (Function.update memories d (some later.device)) allocated := by
  obtain ⟨hsound, hquiescent, htracked, hlive, -⟩ := h
  rw [← htracker] at hsound hquiescent htracked hlive
  exact ⟨hsound, hquiescent, htracked, hlive, hmemories⟩

/-- Both steps of `Put`. -/
theorem Backs.put (h : s.Backs memories zones.pool.allocated)
    (hd : memories d = some zones.device) (addr : Addr) :
    ∃ s', s.Reaches s' ∧
      s'.Backs (Function.update memories d (some (zones.put addr).2.device))
        (zones.put addr).2.pool.allocated := by
  have hsees := (h.sees hd).put 0 addr
  have hpool : (zones.put addr).2.pool = zones.pool := by
    rcases Zones.put_cases zones addr with ⟨z, -, -, -, he⟩ | ⟨-, he⟩ <;> rw [he]
  obtain ⟨htracker, hothers⟩ := act_put (s.act (.lookUp 0 addr)) 0 d
  refine ⟨_, ⟨[.lookUp 0 addr, .put 0 d], ⟨id, id, trivial⟩, rfl⟩, ?_⟩
  rw [hpool]
  exact h.onMemory htracker
    (hsees.memories_eq fun m hm => (hothers m hm).trans (congrFun h.memories_eq m))

/-- `Take`, from the stack. -/
theorem Backs.pop (h : s.Backs memories zones.pool.allocated)
    (hd : memories d = some zones.device) (hne : zones.device.memzonePool ≠ []) (size : Nat)
    (answer : Option Nat) :
    ∃ s', s.Reaches s' ∧
      s'.Backs (Function.update memories d (some (zones.take size answer).2.device))
        (zones.take size answer).2.pool.allocated := by
  have hsees := (h.sees hd).pop hne size answer
  obtain ⟨z, rest, hp⟩ := List.exists_cons_of_ne_nil hne
  have hpool : (zones.take size answer).2.pool = zones.pool := by
    unfold Zones.take
    rw [hp]
  refine ⟨_, ⟨[.take d], ⟨id, trivial⟩, rfl⟩, ?_⟩
  rw [hpool]
  refine h.onMemory rfl (hsees.memories_eq fun m hm => ?_)
  exact (Function.update_of_ne hm _ _).trans (congrFun h.memories_eq m)

/-- All steps of a `Take` that reserves a memzone. -/
theorem Backs.reserve (h : s.Backs memories zones.pool.allocated)
    (hd : memories d = some zones.device) (hempty : zones.device.memzonePool = []) {z : Nat}
    (hz : z ∉ zones.pool.allocated) (size : Nat) :
    ∃ s', s.Reaches s' ∧
      s'.Backs (Function.update memories d (some (zones.take size (some z)).2.device))
        (zones.take size (some z)).2.pool.allocated := by
  have hlive : z ∉ s.tracker.live := by rwa [h.live_eq]
  have hfresh : ∀ y ∈ s.tracker.live, memzoneAddr y ≠ memzoneAddr z :=
    fun y hy he => hlive (Zones.memzoneAddr_inj.mp he ▸ hy)
  have hsees := (h.sees hd).reserve h.sound (h.quiescent 0) hlive hempty hz size
  obtain ⟨htracked, hquiescent, hsound, hlive', hover⟩ :=
    h.tracked.allocateAligned h.quiescent h.sound hfresh 0
  obtain ⟨htracker, hothers⟩ := act_obtain
    ((s.act (.call (.reserve 0 z))).act (.call (.emplace 0))) d z true
  change _ = (s.tracker.step memzoneAddr (.reserve 0 z)).step memzoneAddr (.emplace 0) at htracker
  rw [← htracker] at htracked hquiescent hsound hlive'
  refine ⟨_, ⟨[.call (.reserve 0 z), .call (.emplace 0), .obtain d z true],
    ⟨id, hover, id, trivial⟩, rfl⟩, hsound, hquiescent, htracked, ?_,
    hsees.memories_eq fun m hm => (hothers m hm).trans (congrFun h.memories_eq m)⟩
  have hallocated : (zones.take size (some z)).2.pool.allocated =
      insert z zones.pool.allocated := by
    simp [Zones.take, hempty, MemzonePool.allocateOne, hz]
  rw [hallocated, ← h.live_eq]
  exact hlive'

/-- **One call of `Take` or `Put`.** -/
theorem Backs.memStep (h : s.Backs memories zones.pool.allocated)
    (hd : memories d = some zones.device) (size : Nat) (op : Zones.MemOp) :
    ∃ s', s.Reaches s' ∧
      s'.Backs (Function.update memories d (some (Zones.memStep size zones op).device))
        (Zones.memStep size zones op).pool.allocated := by
  cases op with
  | put addr => exact h.put hd addr
  | take answer =>
      rcases Zones.take_cases zones size answer with
        ⟨z, rest, hp, -⟩ | ⟨z, hp, hz, he⟩ | ⟨hp, he⟩
      · exact h.pop hd (by rw [hp]; simp) size answer
      · have hreserve := h.reserve hd hp hz size
        have hsame : zones.take size (some z) = zones.take size answer := by
          rw [he]
          simp [Zones.take, hp, MemzonePool.allocateOne, hz]
        rw [hsame] at hreserve
        exact hreserve
      · -- nothing can be reserved
        refine ⟨s, .refl s, ?_⟩
        rw [Zones.memStep, he, ← hd, Function.update_eq_self]
        exact h

/-- Any number of calls. -/
theorem Backs.traffic (h : s.Backs memories zones.pool.allocated)
    (hd : memories d = some zones.device) (ht : Zones.Traffic size zones later) :
    ∃ s', s.Reaches s' ∧
      s'.Backs (Function.update memories d (some later.device)) later.pool.allocated := by
  obtain ⟨ops, rfl⟩ := ht
  induction ops generalizing s memories zones with
  | nil =>
      refine ⟨s, .refl s, ?_⟩
      rw [Runs.run_nil, ← hd, Function.update_eq_self]
      exact h
  | cons op ops ih =>
      obtain ⟨s', hreach, hs'⟩ := h.memStep hd size op
      obtain ⟨s'', hreach', hs''⟩ := ih hs' (Function.update_self ..)
      rw [Function.update_idem] at hs''
      exact ⟨s'', hreach.trans hreach', hs''⟩

end Backs

end SharedPool

/-! ## The devices -/

namespace Devices

/-- The device memories. -/
def memories (devices : Devices) (d : Nat) : Option DeviceMemory :=
  (devices d).device.deviceMemory

/-- The shared pool is behind these devices. -/
def BackedBy (devices : Devices) (s : SharedPool) : Prop :=
  s.Backs devices.memories devices.pool.allocated

variable {devices : Devices} {s : SharedPool} {d : Nat}

theorem memories_set (devices : Devices) (d : Nat) (after : Session) :
    (devices.set d after).memories =
      Function.update devices.memories d after.device.deviceMemory := by
  funext other
  by_cases hsame : other = d
  · subst hsame
    rw [memories, set_self, Function.update_self]
  · rw [memories, set_of_ne hsame, Function.update_of_ne hsame]
    rfl

/-- There is such a pool: every reserved memzone has its entry. -/
theorem exists_backedBy (devices : Devices) : ∃ s, devices.BackedBy s := by
  let tracker : Tracker Nat Addr Nat :=
    { live := devices.pool.allocated
      entries := devices.pool.of
      returned := devices.pool.allocated }
  have htracked : tracker.Tracked memzoneAddr := fun addr z => SharedPool.of_eq_some
  refine ⟨⟨tracker, devices.memories, ∅, fun _ => none⟩, ⟨?_, fun _ => rfl, htracked, rfl, rfl⟩⟩
  exact
    { distinct := fun y _ z _ he => Zones.memzoneAddr_inj.mp he
      reserved_live := fun t z hpc => by cases hpc
      reserved_inj := fun t t' z hpc => by cases hpc
      reserved_entry := fun t z hpc => by cases hpc
      entries_addr := fun addr z hentry => ((htracked addr z).mp hentry).2
      entries_live := fun addr z hentry => Or.inl ((htracked addr z).mp hentry).1
      returned_live := fun z hz => hz
      returned_pc := fun z _ t hpc => by cases hpc
      holder := fun t addr hpc => by rcases hpc with hpc | hpc <;> cases hpc
      found_entry := fun t addr hpc => by cases hpc }

/-- **An event on one device.** -/
theorem BackedBy.act (h : devices.BackedBy s) (d : Nat) (debug : Bool) {event : Session.Event}
    (hevent : ∀ attempt, event ≠ .initializeDevice attempt) :
    ∃ s', s.Reaches s' ∧ (devices.set d ((devices d).act debug event)).BackedBy s' := by
  have hmemories := devices.memories_set d ((devices d).act debug event)
  unfold BackedBy
  rw [hmemories]
  obtain ⟨hcfg, ⟨hzones, hpool⟩ | ⟨zones, later, hzones, hlater, ht⟩⟩ :=
    Session.act_zones debug (devices d) hevent
  · -- the memzones stay as they are
    have hmemory : ((devices d).act debug event).device.deviceMemory = devices.memories d := by
      rw [← Session.map_zones, hzones, Session.map_zones]
      rfl
    refine ⟨s, .refl s, ?_⟩
    rw [hmemory, Function.update_eq_self]
    show s.Backs _ ((devices d).act debug event).pool.allocated
    rw [hpool]
    exact h
  · obtain ⟨size, hsize⟩ : ∃ size, ∀ cfg, (devices d).device.configuration = some cfg →
        cfg.compressedSegSize = size := by
      cases (devices d).device.configuration with
      | none => exact ⟨0, fun cfg he => by cases he⟩
      | some cfg => exact ⟨cfg.compressedSegSize, fun cfg' he => by rw [Option.some.inj he]⟩
    have hd : devices.memories d = some zones.device := by
      rw [memories, ← Session.map_zones, hzones]
      rfl
    have hbacks : s.Backs devices.memories zones.pool.allocated := by
      rw [← Session.pool_eq hzones]
      exact h
    obtain ⟨s', hreach, hs'⟩ := hbacks.traffic hd (ht size hsize)
    refine ⟨s', hreach, ?_⟩
    show s'.Backs _ ((devices d).act debug event).pool.allocated
    rw [← Session.map_zones, Session.pool_eq hlater, hlater]
    exact hs'

/-- `Recycle` on the vectors of all devices. -/
theorem BackedBy.recycleVectors {debug : Bool} :
    ∀ (vs : List (Nat × List Buffer)) {devices after : Devices} {s : SharedPool},
      Evaluation.recycleVectors debug vs devices = some after → devices.BackedBy s →
        ∃ s', s.Reaches s' ∧ after.BackedBy s' := by
  intro vs
  induction vs with
  | nil =>
      intro devices after s he h
      obtain rfl := Option.some.inj he
      exact ⟨s, .refl s, h⟩
  | cons v vs ih =>
      intro devices after s he h
      rw [Evaluation.recycleVectors] at he
      split_ifs at he with hall
      have hevent : ∀ attempt, Session.Event.recycle v.2 ≠ .initializeDevice attempt := by simp
      obtain ⟨s', hreach, hs'⟩ := h.act v.1 debug hevent
      obtain ⟨s'', hreach', hs''⟩ := ih he hs'
      exact ⟨s'', hreach.trans hreach', hs''⟩

end Devices

/-! ## The program -/

namespace Evaluation

variable {ev : Evaluation} {s : SharedPool} {debug : Bool}

/-- The main lcore works on the devices only when it recycles. -/
theorem mainStep_devices (ev : Evaluation) (debug : Bool)
    (allocations : Nat → Option (Nat × Nat)) :
    (ev.mainStep debug allocations).devices = ev.devices ∨
      recycleVectors debug ev.vectors ev.devices =
        some (ev.mainStep debug allocations).devices := by
  have hrecycle : ∀ next : Evaluation → MainPc, (ev.recycleThen debug next).devices = ev.devices ∨
      recycleVectors debug ev.vectors ev.devices = some (ev.recycleThen debug next).devices := by
    intro next
    rcases ev.recycleThen_cases debug next with ⟨-, he⟩ | ⟨devices, hdevices, he⟩ <;> rw [he]
    · exact Or.inl rfl
    · exact Or.inr hdevices
  unfold mainStep
  split
  · unfold launch
    split
    · split
      · exact Or.inl rfl
      · split_ifs <;> exact Or.inl rfl
    · exact Or.inl rfl
  · next job round idx place asyncSuccess _ =>
      unfold await
      split
      · split
        · exact Or.inl rfl
        · split_ifs <;> exact Or.inl rfl
      · unfold endRound
        cases job with
        | compress =>
            dsimp only
            split_ifs
            · exact hrecycle _
            · exact hrecycle _
            · unfold allocateOutputs
              split_ifs
              · exact Or.inl rfl
              · exact hrecycle _
        | decompress =>
            dsimp only
            split_ifs
            · exact hrecycle _
            · exact Or.inl rfl
            · exact hrecycle _
  · exact Or.inl rfl
  · exact Or.inl rfl

/-- **Step lemma.** -/
theorem step_backedBy (h : ev.devices.BackedBy s) (debug : Bool) (action : Action) :
    ∃ s', s.Reaches s' ∧ (ev.step debug action).devices.BackedBy s' := by
  have hstays : ∀ {ev' : Evaluation}, ev'.devices = ev.devices →
      ∃ s', s.Reaches s' ∧ ev'.devices.BackedBy s' := fun he => ⟨s, .refl s, by rwa [he]⟩
  unfold step
  split
  · exact hstays rfl
  · cases action with
    | main allocations =>
        rcases ev.mainStep_devices debug allocations with he | he
        · exact hstays he
        · exact Devices.BackedBy.recycleVectors _ he h
    | worker l env =>
        dsimp only
        rcases ev.worker_cases debug l env with
          ⟨-, he⟩ | ⟨t, -, ⟨-, he⟩ | ⟨-, status, -, he⟩ | ⟨-, -, he⟩⟩
        · exact hstays (by rw [he])
        · rw [he]
          exact h.act t.place.deviceId debug fun attempt hevent => by cases hevent
        · refine hstays ?_
          rw [he]
          rcases ev.callback_cases l t status with ⟨-, hc⟩ | ⟨-, -, hc⟩ | ⟨-, ev', hstore, hc⟩
          · rw [hc]
            rfl
          · rw [hc]
          · rw [hc]
            exact (storeResult_eq hstore).2.2.1
        · rw [he]
          exact h.act t.place.deviceId debug fun attempt hevent => by cases hevent

/-- **A run over the shared pool.**  Whatever the main lcore and the worker lcores
do, the memzones of the devices are those of the shared pool after atomic steps
without an overlap. -/
theorem run_backedBy (h : ev.devices.BackedBy s) (debug : Bool) (actions : List Action) :
    ∃ s', s.Reaches s' ∧ (Runs.run (step debug) ev actions).devices.BackedBy s' := by
  induction actions generalizing ev s with
  | nil => exact ⟨s, .refl s, h⟩
  | cons action actions ih =>
      obtain ⟨s', hreach, hs'⟩ := step_backedBy h debug action
      obtain ⟨s'', hreach', hs''⟩ := ih hs'
      exact ⟨s'', hreach.trans hreach', hs''⟩

end Evaluation

end Bitar
