import Bitar.RaceFreedom

/-!
# One call among many

An `Episode` is a call on one queue pair with everything that happens on the
device until it returns: steps of the call, steps and calls on other queue pairs,
and `Recycle`, in any order.

A property of the queue pair that the steps of the call preserve, and that what
the others do outside the footprint does not touch, holds at the end; and the
blocks that nobody writes keep their contents.

**Results.**
* `Separate.lane`: the rule for properties of one queue pair.
* `Held.run`: the rule for the contents of blocks.
-/

namespace Bitar

open BlockStore

namespace Session

open Machine

/-- The answer of the environment to a step of the call on this queue pair. -/
def Event.answer (queuePairId : Nat) : Event → Option Env
  | .step other env => if other = queuePairId then some env else none
  | _ => none

/-- An event while a call on this queue pair is in progress.  Nothing fails, the
users of the device are courteous, and for the call the device does what `D`
says. -/
def During (D : Machine → Env → Prop) (debug : Bool) (queuePairId : Nat) (s : Session)
    (event : Event) : Prop :=
  s.Orderly debug event ∧
    ∀ st ∈ s.machine queuePairId, st.result = none ∧ ∀ env ∈ event.answer queuePairId, D st env

instance (D : Machine → Env → Prop) [∀ st env, Decidable (D st env)] (debug : Bool)
    (queuePairId : Nat) (s : Session) (event : Event) :
    Decidable (s.During D debug queuePairId event) := by
  unfold During
  infer_instance

/-- A call with what happens on the device before it and until it returns. -/
structure Episode where
  before : List Event
  queuePairId : Nat
  request : Request
  during : List Event

namespace Episode

variable (debug : Bool) (s : Session) (e : Episode)

/-- The device when the call comes. -/
def called : Session :=
  Runs.run (act debug) s e.before

/-- The device when the call has begun. -/
def begun : Session :=
  (e.called debug s).act debug (.call e.queuePairId e.request)

/-- The device when the call has returned. -/
def answered : Session :=
  Runs.run (act debug) (e.begun debug s) e.during

/-- What the call has been doing and what it has returned. -/
def call : Call :=
  ((e.answered debug s).lanes e.queuePairId).call

/-- The status that the call has returned. -/
def returned : Prop :=
  ((e.answered debug s).lanes e.queuePairId).pc = .returned .success

/-- The call returns OK, and nothing fails until then. -/
structure Happens (D : Machine → Env → Prop) (debug : Bool) (s : Session) (e : Episode) :
    Prop where
  before : Runs.Along (act debug) (Orderly debug) s e.before
  call : (e.called debug s).Orderly debug (.call e.queuePairId e.request)
  during : Runs.Along (act debug) (During D debug e.queuePairId) (e.begun debug s) e.during
  success : ((e.answered debug s).lanes e.queuePairId).pc = .returned .success

end Episode

section Lane

variable {s : Session} {cfg : Configuration} {zones : Zones} {debug : Bool} {queuePairId : Nat}
  {D : Machine → Env → Prop} {J : Machine → Prop}

/-- **Step lemma for one queue pair.** -/
theorem Separate.lane_act (h : Separate cfg zones s) (hb : cfg.Bounds)
    (own : ∀ st st' env, st.cfg = cfg → st.Targeted → st.Advances debug env st' →
      D st env → J st → J st')
    (stable : ∀ st st', st.result = none → J st → st.Disturbed st' → J st')
    (hj : J (s.machineOf cfg zones queuePairId)) {event : Event}
    (hduring : s.During D debug queuePairId event) :
    ∃ later, Separate cfg later (s.act debug event) ∧
      Party cfg later (s.act debug event) queuePairId ∧
      J ((s.act debug event).machineOf cfg later queuePairId) := by
  obtain ⟨⟨hok, hc⟩, hlane⟩ := hduring
  have hmachine := machine_eq h.inService.configuration_eq h.inService.zones_eq queuePairId
  obtain ⟨hnone, hD⟩ := hlane _ hmachine
  -- what the others do
  have hothers : ∀ {later : Zones} {actor : Option Nat}, some queuePairId ≠ actor →
      Moved cfg zones later s (s.act debug event) actor →
      Separate cfg later (s.act debug event) ∧
        Party cfg later (s.act debug event) queuePairId ∧
        J ((s.act debug event).machineOf cfg later queuePairId) := by
    intro later actor hne hmoved
    have hdisturbed := hmoved.others queuePairId hne hnone
    refine ⟨hmoved.separate, hmoved.separate.party queuePairId ?_, stable _ _ hnone hj hdisturbed⟩
    rw [hdisturbed.shared]
    exact hnone
  cases event with
  | initializeDevice attempt => exact hok.elim
  | call other request =>
      have hne : queuePairId ≠ other := by
        rintro rfl
        exact hok _ hmachine hnone
      exact ⟨zones, hothers (fun he => hne (Option.some.inj he)) (h.call hok hc).1⟩
  | step other env =>
      obtain ⟨later, hmoved, hadvances, hparty⟩ := h.step hb hok
      by_cases hsame : queuePairId = other
      · subst hsame
        refine ⟨later, hmoved.separate, hparty hnone,
          own _ _ env rfl (h.party queuePairId hnone).targeted hadvances (hD env ?_) hj⟩
        simp [Event.answer]
      · exact ⟨later, hothers (fun he => hsame (Option.some.inj he)) hmoved⟩
  | recycle buffers => exact ⟨_, hothers (by simp) (h.recycle hc)⟩

/-- **The rule for one queue pair.** -/
theorem Separate.lane (h : Separate cfg zones s) (hb : cfg.Bounds)
    (own : ∀ st st' env, st.cfg = cfg → st.Targeted → st.Advances debug env st' →
      D st env → J st → J st')
    (stable : ∀ st st', st.result = none → J st → st.Disturbed st' → J st')
    (hparty : Party cfg zones s queuePairId) (hj : J (s.machineOf cfg zones queuePairId))
    {events : List Event}
    (hall : Runs.Along (Session.act debug) (During D debug queuePairId) s events) :
    ∃ later, Separate cfg later (Runs.run (Session.act debug) s events) ∧
      Party cfg later (Runs.run (Session.act debug) s events) queuePairId ∧
      J ((Runs.run (Session.act debug) s events).machineOf cfg later queuePairId) := by
  refine Runs.Along.invariant (I := fun now => ∃ zones, Separate cfg zones now ∧
    Party cfg zones now queuePairId ∧ J (now.machineOf cfg zones queuePairId)) ?_
    ⟨zones, h, hparty, hj⟩ hall
  rintro now event ⟨zones, h, -, hj⟩ hduring
  exact h.lane_act hb own stable hj hduring

end Lane

/-! ## What nobody writes -/

/-- These blocks are not written by a new call, and they are not recycled. -/
def Keeps (blocks : List Block) (s : Session) : Event → Prop
  | .call queuePairId request => ∀ st ∈ s.machine queuePairId,
      ∀ b ∈ (st.start request).footprint.writes, b ∉ blocks
  | .recycle buffers => ∀ buffer ∈ buffers, buffer.data.block ∉ blocks
  | _ => True

instance (blocks : List Block) (s : Session) : ∀ event, Decidable (s.Keeps blocks event)
  | .initializeDevice _ => inferInstanceAs (Decidable True)
  | .call queuePairId request => inferInstanceAs (Decidable (∀ st ∈ s.machine queuePairId,
      ∀ b ∈ (st.start request).footprint.writes, b ∉ blocks))
  | .step _ _ => inferInstanceAs (Decidable True)
  | .recycle buffers =>
      inferInstanceAs (Decidable (∀ buffer ∈ buffers, buffer.data.block ∉ blocks))

/-- These blocks have the contents that they had in `memory`, and no call in
progress writes them. -/
structure Held (blocks : List Block) (memory : Memory) (cfg : Configuration) (zones : Zones)
    (s : Session) : Prop where
  agree : Agree blocks memory s.memory
  settled : ∀ b ∈ blocks, zones.Settled b
  spared : ∀ queuePairId, ∀ b ∈ (s.machineOf cfg zones queuePairId).footprint.writes, b ∉ blocks

section Held

variable {s : Session} {cfg : Configuration} {zones : Zones} {debug : Bool}
  {blocks : List Block} {memory : Memory}

/-- **Step lemma for blocks.** -/
theorem Held.act (hheld : Held blocks memory cfg zones s) (h : Separate cfg zones s)
    (hb : cfg.Bounds) {event : Event} (horderly : s.Orderly debug event)
    (hkeeps : s.Keeps blocks event) :
    ∃ later, Separate cfg later (s.act debug event) ∧
      Held blocks memory cfg later (s.act debug event) := by
  obtain ⟨hok, hc⟩ := horderly
  cases event with
  | initializeDevice attempt => exact hok.elim
  | call queuePairId request =>
      obtain ⟨hmoved, hlane⟩ := h.call hok hc
      have hmachine := machine_eq h.inService.configuration_eq h.inService.zones_eq queuePairId
      have hmemory : (s.act debug (.call queuePairId request)).memory = s.memory := by
        have hsame := congrArg Machine.memory hlane
        rwa [start_memory] at hsame
      refine ⟨zones, hmoved.separate, ?_, hheld.settled, fun other => ?_⟩
      · rw [hmemory]
        exact hheld.agree
      · by_cases hne : other = queuePairId
        · subst hne
          rw [hlane]
          exact hkeeps _ hmachine
        · rw [hmoved.shared other (by simpa using hne)]
          exact hheld.spared other
  | step queuePairId env =>
      obtain ⟨later, hmoved, ⟨hst, -, -, hcont⟩, -⟩ := h.step hb hok
      have hwf : (s.machineOf cfg zones queuePairId).zones.WellFormed
          (s.machineOf cfg zones queuePairId).cfg.compressedSegSize := h.inService.wellFormed
      have hconfines : (s.machineOf cfg zones queuePairId).footprint.Confines s.memory
          (s.act debug (.step queuePairId env)).memory :=
        hcont.confines hst fun hnone => (h.party queuePairId hnone).targeted
      refine ⟨later, hmoved.separate, fun b hblock => ?_, fun b hblock => ?_, fun other => ?_⟩
      · rw [hconfines b fun hw => hheld.spared queuePairId b hw hblock]
        exact hheld.agree b hblock
      · exact (hcont.since hst hwf).settled (hheld.settled b hblock)
      · by_cases hne : other = queuePairId
        · subst hne
          intro b hw hblock
          have hnone := hcont.result_none
            (result_of_mem_blocks (Footprint.mem_blocks.mpr (Or.inr hw)))
          rcases hcont.writeBlocks_grow hst hb (h.party other hnone).reserves hwf b
            (writes_subset _ b hw) with hold | hnew
          · refine hheld.spared other b ?_ hblock
            rwa [footprint_of_none hnone]
          · exact hnew (hheld.settled b hblock)
        · rw [hmoved.shared other (by simpa using hne)]
          exact hheld.spared other
  | recycle buffers =>
      have hmoved := @Separate.recycle s cfg zones debug h buffers hc
      refine ⟨_, hmoved.separate, ?_, fun b hblock => ?_, fun other => ?_⟩
      · dsimp only [Session.act]
        rw [h.inService.zones_eq]
        exact hheld.agree
      · refine Zones.recycle_settled h.inService.tracked (hheld.settled b hblock) ?_
        rintro addr haddr rfl
        obtain ⟨buffer, hbuffer, rfl⟩ := List.mem_map.mp haddr
        exact hkeeps buffer hbuffer hblock
      · rw [hmoved.shared other (by simp)]
        exact hheld.spared other

/-- **The rule for blocks.** -/
theorem Held.run (hheld : Held blocks memory cfg zones s) (h : Separate cfg zones s)
    (hb : cfg.Bounds) {events : List Event}
    (hall : Runs.Along (Session.act debug)
      (fun now event => now.Orderly debug event ∧ now.Keeps blocks event) s events) :
    ∃ later, Separate cfg later (Runs.run (Session.act debug) s events) ∧
      Held blocks memory cfg later (Runs.run (Session.act debug) s events) := by
  refine Runs.Along.invariant (I := fun now => ∃ zones, Separate cfg zones now ∧
    Held blocks memory cfg zones now) ?_ ⟨zones, h, hheld⟩ hall
  rintro now event ⟨zones, h, hheld⟩ ⟨horderly, hkeeps⟩
  exact hheld.act h hb horderly hkeeps

end Held

end Session

end Bitar
