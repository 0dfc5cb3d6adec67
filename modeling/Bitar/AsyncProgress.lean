import Bitar.EvaluateAsync
import Bitar.Lib.LeadsTo
import Mathlib.Data.Prod.Lex

/-!
# `EvaluateAsync` returns

The main lcore waits for the worker lcores, and these wait for the devices.  When
every lcore takes its turn sooner or later, and a device serves a call sooner or
later as long as an operation of it is pending, every task comes to its end, and
so does every round.

The effort of a call never grows, and it becomes smaller in the steps that help.
Other lcores do not change it.  The rank of the main lcore becomes smaller in every
step that it takes, except when it waits for a task.

**Results.**
* `Continues.effort`: the step lemma of a call.
* `Forever.idle_again`: every lcore comes back to the `WAIT` state.
* `evaluateAsync_returns`: the program returns OK.
-/

namespace Bitar

open Rows Runs Session

namespace Machine

variable {st st' : Machine} {env : Env}

/-- What is left to do in a call. -/
def effort (st : Machine) : Nat :=
  if st.result = none then st.load + 1 else 0

theorem effort_of_none (h : st.result = none) : st.effort = st.load + 1 :=
  if_pos h

@[simp] theorem effort_withShared (zones : Zones) (memory : Memory) (numMaybeNotOk : Nat) :
    (st.withShared zones memory numMaybeNotOk).effort = st.effort := rfl

/-- **Step lemma.** -/
theorem Continues.effort (h : st.Ordered) (hb : st.cfg.Bounds) (hnone : st.result = none)
    (hstep : Continues st env st') :
    st'.effort ≤ st.effort ∧
      (st.Serves env ∨ st.qp.pendingOperations = [] → st'.effort < st.effort) := by
  have hload := hstep.load h hb
  rw [effort_of_none hnone]
  by_cases hnone' : st'.result = none
  · rw [effort_of_none hnone']
    refine ⟨Nat.succ_le_succ hload.1, fun hhelps => Nat.succ_lt_succ ?_⟩
    rcases hhelps with hserves | hnil
    · exact hload.2 hserves
    · refine (hstep.of_pending_nil h hb hnil).resolve_left ?_
      rintro ⟨status, hpc⟩
      rw [result_eq_some.mpr hpc] at hnone'
      cases hnone'
  · have hzero : st'.effort = 0 := if_neg hnone'
    omega

end Machine

namespace Session

variable {s : Session} {q q' : Nat} {st : Machine} {event : Event}

/-- A queue pair sees no more of the others than what they share. -/
theorem Event.On.machine_eq (h : event.On q) (hne : q' ≠ q) (debug : Bool)
    (hst : s.machine q' = some st) :
    ∃ zones memory numMaybeNotOk,
      (s.act debug event).machine q' = some (st.withShared zones memory numMaybeNotOk) := by
  obtain ⟨cfg, zones, hcfg, hzones, rfl⟩ := exists_machineOf hst
  have hlane : ∀ f : Machine → Machine, ∃ zones' memory numMaybeNotOk,
      (s.onQueuePair q f).machine q' =
        some ((s.machineOf cfg zones q').withShared zones' memory numMaybeNotOk) := by
    intro f
    rw [onQueuePair_eq hcfg hzones f]
    generalize f (s.machineOf cfg zones q) = after
    refine ⟨after.zones, after.memory, after.numMaybeNotOk, ?_⟩
    have hcfg' : (s.store q after).device.configuration = some cfg := hcfg
    have hzones' : (s.store q after).zones = some after.zones := rfl
    rw [← machineOf_store_of_ne rfl hne]
    exact Session.machine_eq hcfg' hzones' q'
  cases event with
  | call queuePairId request =>
      obtain rfl : queuePairId = q := h
      exact hlane _
  | step queuePairId env =>
      obtain rfl : queuePairId = q := h
      exact hlane _
  | initializeDevice attempt => exact h.elim
  | recycle buffers => exact h.elim

end Session

/-- A task is on the lcore of its queue pair. -/
theorem Underway.lcoreAt_place {lcores : List (List Nat)} {n l : Nat} {job : Job}
    {phase : Nat → Phase} {config : Nat → LcoreConfig} {t : Task}
    (h : Underway lcores n job phase config) (ht : (config l).task = some t) :
    lcoreAt lcores t.place = some l := by
  obtain ⟨idx, -, hl, htask, -⟩ := h.exists_test ht
  rw [htask]
  exact hl

namespace Evaluation

/-! ## The steps of the others -/

/-- The queue pair at a place. -/
def machineAt (ev : Evaluation) (p : Place) : Option Machine :=
  (ev.devices p.deviceId).machine p.queuePairId

/-- An lcore is in the middle of a call. -/
structure Calling (ev : Evaluation) (l : Nat) (t : Task) (st : Machine) : Prop where
  task_eq : (ev.lcoreConfig l).task = some t
  called : t.called = true
  machine_eq : ev.machineAt t.place = some st

section Frames

variable {ev : Evaluation} {lcores : List (List Nat)} {n l l' round : Nat} {job : Job}
  {phase : Nat → Phase} {debug : Bool} {env : Env} {t : Task} {st : Machine} {p : Place}

theorem worker_lcoreConfig_of_ne (hne : l ≠ l') (ev : Evaluation) (debug : Bool) (env : Env) :
    (ev.worker debug l' env).lcoreConfig l = ev.lcoreConfig l := by
  rcases ev.worker_cases debug l' env with
    ⟨-, he⟩ | ⟨t, -, ⟨-, he⟩ | ⟨-, status, -, he⟩ | ⟨-, -, he⟩⟩
  · rw [he]
  · rw [he]
    exact Function.update_of_ne hne _ _
  · rcases ev.callback_cases l' t status with ⟨-, hc⟩ | ⟨-, -, hc⟩ | ⟨-, ev', hstore, hc⟩ <;>
      rw [he, hc]
    · exact Function.update_of_ne hne _ _
    · rw [← (storeResult_eq hstore).1]
      exact Function.update_of_ne hne _ _
  · rw [he]
    rfl

/-- Only the main lcore launches tasks. -/
theorem worker_idle (hnone : (ev.lcoreConfig l).task = none) :
    ((ev.worker debug l' env).lcoreConfig l).task = none := by
  by_cases hsame : l = l'
  · subst hsame
    rcases ev.worker_cases debug l env with ⟨-, he⟩ | ⟨t, ht, -⟩
    · rwa [he]
    · rw [hnone] at ht
      cases ht
  · rwa [worker_lcoreConfig_of_ne hsame]

/-- An event on another queue pair. -/
theorem machineAt_setDevice (hst : ev.machineAt p = some st) {p' : Place} (hne : p ≠ p')
    {event : Event} (hon : event.On p'.queuePairId) :
    ∃ zones memory numMaybeNotOk,
      (ev.setDevice p'.deviceId ((ev.devices p'.deviceId).act debug event)).machineAt p =
        some (st.withShared zones memory numMaybeNotOk) := by
  unfold machineAt setDevice at *
  dsimp only
  by_cases hd : p.deviceId = p'.deviceId
  · rw [← hd, Devices.set_self]
    refine hon.machine_eq (fun hq => hne ?_) debug hst
    rw [Place.mk.injEq]
    exact ⟨hd, hq⟩
  · exact Devices.machine_set_of_ne hd hst

/-- Another lcore takes a step. -/
theorem Calling.worker (hc : ev.Calling l t st) (h : Underway lcores n job phase ev.lcoreConfig)
    (hne : l ≠ l') (debug : Bool) (env : Env) :
    ∃ zones memory numMaybeNotOk,
      (ev.worker debug l' env).Calling l t (st.withShared zones memory numMaybeNotOk) := by
  have htask := (congrArg LcoreConfig.task (worker_lcoreConfig_of_ne hne ev debug env)).trans
    hc.task_eq
  have hsame : ∀ {ev' : Evaluation}, ev'.devices = ev.devices → ∃ zones memory numMaybeNotOk,
      ev'.machineAt t.place = some (st.withShared zones memory numMaybeNotOk) := by
    intro ev' he
    refine ⟨st.zones, st.memory, st.numMaybeNotOk, ?_⟩
    rw [machineAt, he]
    exact hc.machine_eq
  suffices ∃ zones memory numMaybeNotOk, (ev.worker debug l' env).machineAt t.place =
      some (st.withShared zones memory numMaybeNotOk) by
    obtain ⟨zones, memory, numMaybeNotOk, hmachine⟩ := this
    exact ⟨zones, memory, numMaybeNotOk, htask, hc.called, hmachine⟩
  rcases ev.worker_cases debug l' env with ⟨-, he⟩ | ⟨t', ht', hcases⟩
  · exact hsame (by rw [he])
  · have hplace : t.place ≠ t'.place := by
      intro heq
      have hl := h.lcoreAt_place hc.task_eq
      rw [heq, h.lcoreAt_place ht'] at hl
      exact hne (Option.some.inj hl).symm
    rcases hcases with ⟨-, he⟩ | ⟨-, status, -, he⟩ | ⟨-, -, he⟩
    · rw [he]
      exact machineAt_setDevice hc.machine_eq hplace rfl
    · refine hsame ?_
      rcases ev.callback_cases l' t' status with ⟨-, hcb⟩ | ⟨-, -, hcb⟩ | ⟨-, ev', hstore, hcb⟩ <;>
        rw [he, hcb]
      · rfl
      · exact (storeResult_eq hstore).2.2.1
    · rw [he]
      exact machineAt_setDevice hc.machine_eq hplace rfl

/-- The main lcore takes a step, and the round is not over. -/
theorem mainStep_frame (h : Underway lcores n job phase ev.lcoreConfig)
    (hn : ev.numParallelTests = n) (hs : Stage lcores n job round phase ev.main)
    (ht : (ev.lcoreConfig l).task = some t) (debug : Bool)
    (allocations : Nat → Option (Nat × Nat)) :
    (ev.mainStep debug allocations).lcoreConfig l = ev.lcoreConfig l ∧
      (ev.mainStep debug allocations).devices = ev.devices := by
  subst hn
  generalize hpc : ev.main = pc at hs
  unfold mainStep
  rw [hpc]
  cases hs with
  | launching k hle hfresh =>
      dsimp only
      unfold Evaluation.launch
      split
      · split
        · exact ⟨rfl, rfl⟩
        · next lcoreId hl =>
            split_ifs with hmissing hbusy
            · exact ⟨rfl, rfl⟩
            · exact ⟨rfl, rfl⟩
            · refine ⟨Function.update_of_ne ?_ _ _, rfl⟩
              rintro rfl
              exact hbusy (by rw [ht]; simp)
      · exact ⟨rfl, rfl⟩
  | waiting k asyncSuccess hle hlaunched hdone =>
      dsimp only
      unfold await
      split
      · split
        · exact ⟨rfl, rfl⟩
        · split_ifs <;> exact ⟨rfl, rfl⟩
      · next hk =>
          have hidle := h.idle_of_done (fun idx hidx => hdone idx (by omega)) l
          rw [ht] at hidle
          cases hidle

end Frames

/-! ## The own steps of an lcore -/

section Own

variable {ev : Evaluation} {w : Workload} {enc : List UInt8 → List UInt8}
  {cfg : Nat → Configuration} {lcores : List (List Nat)} {n l : Nat} {debug : Bool}
  {phase : Nat → Phase} {env : Env} {t : Task} {st : Machine}

/-- The function on an lcore makes its call. -/
theorem worker_uncalled (ht : (ev.lcoreConfig l).task = some t) (hcalled : t.called = false) :
    ((ev.worker debug l env).lcoreConfig l).task = some { t with called := true } := by
  rcases ev.worker_cases debug l env with
    ⟨hnone, -⟩ | ⟨t', ht', ⟨-, he⟩ | ⟨hcalled', -⟩ | ⟨hcalled', -⟩⟩
  · rw [ht] at hnone
    cases hnone
  · obtain rfl := Option.some.inj (ht.symm.trans ht')
    rw [he]
    show (Function.update ev.lcoreConfig l _ l).task = _
    rw [Function.update_self]
  all_goals
    obtain rfl := Option.some.inj (ht.symm.trans ht')
    rw [hcalled] at hcalled'
    cases hcalled'

/-- A call goes on, or the task is over. -/
theorem Running.step_own (h : Running w lcores n phase ev) (hw : w.Lawful enc cfg lcores n debug)
    (ha : Assigned lcores n) (hc : ev.Calling l t st)
    (hclean : ev.Clean enc debug (.worker l env)) :
    ((ev.worker debug l env).lcoreConfig l).task = none ∨
      ∃ st', (ev.worker debug l env).Calling l t st' ∧ Machine.Continues st env st' ∧
        st.Ordered ∧ st.cfg.Bounds ∧ st.result = none := by
  rcases ev.worker_cases debug l env with ⟨hnone, -⟩ | ⟨t', ht', hcases⟩
  · rw [hc.task_eq] at hnone
    cases hnone
  · obtain rfl := Option.some.inj (hc.task_eq.symm.trans ht')
    obtain ⟨idx, hidx, hl, htask, hphase⟩ := h.underway.exists_test hc.task_eq
    rw [hc.called] at htask hphase
    have hphase' : phase idx = .called := hphase
    obtain ⟨d, q, hq, rfl, hplace⟩ := ha.exists_place hidx
    rcases hcases with ⟨hcalled, -⟩ | ⟨-, status, hpc, he⟩ | ⟨-, hpc, he⟩
    · rw [hc.called] at hcalled
      cases hcalled
    · -- the callback
      rw [htask, hplace] at hpc he
      rw [he]
      have hafter := (h.answer hw ha hq (hplace ▸ hl) hphase' hpc).2.underway.task_eq _ hidx l hl
      rw [Function.update_self] at hafter
      exact Or.inl hafter
    · -- the call goes on
      obtain ⟨hd, -, -⟩ := lt_of_lt_share hq
      obtain ⟨zones, hdevice⟩ := h.devices d hd
      have hseparate := hw.separate hdevice
      have hok := (hclean t hc.task_eq hc.called).1
      have hmachine := hc.machine_eq
      rw [htask] at hpc he hok hmachine ⊢
      rw [hplace] at hpc he hok hmachine ⊢
      obtain rfl := Option.some.inj ((Session.machine_eq hseparate.inService.configuration_eq
        hseparate.inService.zones_eq q).symm.trans hmachine)
      obtain ⟨later, hmoved, hadvances, -⟩ := hseparate.step (hw.bounds d hd) hok
      have hservice := hmoved.separate.inService
      refine Or.inr ⟨_, ⟨?_, rfl, ?_⟩, hadvances.continues, hadvances.ordered, hw.bounds d hd, ?_⟩
      · rw [he]
        rw [htask, hplace] at ht'
        exact ht'
      · rw [he]
        show (ev.devices.set d _ d).machine q = _
        rw [Devices.set_self]
        exact Session.machine_eq hservice.configuration_eq hservice.zones_eq q
      · cases hres : ((ev.devices d).machineOf (cfg d) zones q).result with
        | none => rfl
        | some status => exact absurd (Machine.result_eq_some.mp hres) (hpc status)

end Own

/-! ## The rank of the main lcore -/

/-- The rounds that are still to come. -/
def level : MainPc → Nat
  | .launching .compress round _ _ | .waiting .compress round _ _ _ =>
      kNumTests - round + kNumTests + 2
  | .launching .decompress round _ _ | .waiting .decompress round _ _ _ => kNumTests - round + 1
  | .returned _ | .terminated _ => 0

/-- The turns of the main lcore in the rest of a round. -/
def turns (n : Nat) : MainPc → Nat
  | .launching _ _ idx _ => n - idx + n + 1
  | .waiting _ _ idx _ _ => n - idx
  | .returned _ | .terminated _ => 0

/-- What is left to do on the main lcore. -/
def rank (n : Nat) (pc : MainPc) : Nat ×ₗ Nat :=
  toLex (level pc, turns n pc)

/-- The lcore that the main lcore waits for. -/
def awaited (ev : Evaluation) : Option Nat :=
  match ev.main with
  | .waiting _ _ idx place _ =>
      if idx < ev.numParallelTests then lcoreAt ev.workerLcores place else none
  | _ => none

/-- Nothing keeps the main lcore from going on. -/
def Ready (ev : Evaluation) : Prop :=
  ∀ l ∈ ev.awaited, (ev.lcoreConfig l).task = none

section Rank

variable {ev : Evaluation} {debug : Bool} {n : Nat} {pc pc' : MainPc}

theorem rank_lt_of_level (h : level pc' < level pc) : rank n pc' < rank n pc :=
  Prod.Lex.toLex_lt_toLex.mpr (Or.inl h)

theorem rank_lt_of_turns (h : level pc' = level pc) (ht : turns n pc' < turns n pc) :
    rank n pc' < rank n pc :=
  Prod.Lex.toLex_lt_toLex.mpr (Or.inr ⟨h, ht⟩)

theorem level_recycleThen {m : Nat} (hm : 0 < m) {next : Evaluation → MainPc}
    (hnext : ∀ ev', level (next ev') < m) : level (ev.recycleThen debug next).main < m := by
  rcases ev.recycleThen_cases debug next with ⟨-, he⟩ | ⟨devices, -, he⟩
  · rw [he]
    exact hm
  · rw [he]
    exact hnext _

/-- The end of a round. -/
theorem level_endRound (ev : Evaluation) (debug : Bool) (job : Job) (round idx : Nat)
    (place : Place) (asyncSuccess : Bool) (allocations : Nat → Option (Nat × Nat)) :
    level (ev.endRound debug job round asyncSuccess allocations).main <
      level (.waiting job round idx place asyncSuccess) := by
  unfold endRound
  cases job with
  | compress =>
      have hpos : 0 < kNumTests - round + kNumTests + 2 := Nat.succ_pos _
      dsimp only [level]
      split_ifs with hfailed hlt
      · exact level_recycleThen hpos fun _ => hpos
      · refine level_recycleThen hpos fun _ => ?_
        dsimp only [level]
        omega
      · unfold allocateOutputs
        split_ifs
        · dsimp only [level]
          omega
        · exact level_recycleThen hpos fun _ => hpos
  | decompress =>
      have hpos : 0 < kNumTests - round + 1 := Nat.succ_pos _
      dsimp only [level]
      split_ifs with hfailed hlt
      · exact level_recycleThen hpos fun _ => hpos
      · dsimp only [level]
        omega
      · exact level_recycleThen hpos fun _ => hpos

/-- **The turn of the main lcore.** -/
theorem rank_mainStep (hover : 0 < level ev.main) (hready : ev.Ready)
    (allocations : Nat → Option (Nat × Nat)) :
    rank ev.numParallelTests (ev.mainStep debug allocations).main <
      rank ev.numParallelTests ev.main := by
  unfold mainStep
  cases hpc : ev.main with
  | launching job round idx place =>
      rw [hpc] at hover
      have hwait : ∀ asyncSuccess, rank ev.numParallelTests
          (.waiting job round 0 ⟨0, 0⟩ asyncSuccess) <
            rank ev.numParallelTests (.launching job round idx place) := by
        intro asyncSuccess
        refine rank_lt_of_turns (by cases job <;> rfl) ?_
        dsimp only [turns]
        omega
      dsimp only
      unfold Evaluation.launch
      by_cases hidx : idx < ev.numParallelTests
      · rw [if_pos hidx]
        cases lcoreAt ev.workerLcores place with
        | none => exact rank_lt_of_level hover
        | some l =>
            dsimp only
            split_ifs
            · exact rank_lt_of_level hover
            · exact hwait true
            · refine rank_lt_of_turns (by cases job <;> rfl) ?_
              dsimp only [turns]
              omega
      · rw [if_neg hidx]
        exact hwait true
  | waiting job round idx place asyncSuccess =>
      rw [hpc] at hover
      dsimp only
      unfold await
      by_cases hidx : idx < ev.numParallelTests
      · rw [if_pos hidx]
        cases hl : lcoreAt ev.workerLcores place with
        | none => exact rank_lt_of_level hover
        | some l =>
            have hidle := hready l (by simp [awaited, hpc, hidx, hl])
            dsimp only
            rw [if_neg (not_not_intro hidle)]
            refine rank_lt_of_turns (by cases job <;> rfl) ?_
            dsimp only [turns]
            omega
      · rw [if_neg hidx]
        exact rank_lt_of_level (ev.level_endRound debug job round idx place asyncSuccess _)
  | returned status =>
      rw [hpc] at hover
      exact absurd hover (Nat.lt_irrefl 0)
  | terminated fault =>
      rw [hpc] at hover
      exact absurd hover (Nat.lt_irrefl 0)

/-- A turn of the main lcore that waits changes nothing. -/
theorem mainStep_of_not_ready (hready : ¬ ev.Ready) (allocations : Nat → Option (Nat × Nat)) :
    ev.mainStep debug allocations = ev := by
  unfold Ready at hready
  push Not at hready
  obtain ⟨l, hl, hbusy⟩ := hready
  unfold awaited at hl
  unfold mainStep
  cases hpc : ev.main with
  | waiting job round idx place asyncSuccess =>
      rw [hpc] at hl
      dsimp only at hl ⊢
      split_ifs at hl with hidx
      · unfold await
        rw [if_pos hidx, hl]
        exact if_pos hbusy
      · cases hl
  | _ => simp [hpc] at hl

end Rank

/-! ## A step of the program -/

section Steps

variable {ev : Evaluation} {enc : List UInt8 → List UInt8} {cfg : Nat → Configuration}
  {setting : Setting} {debug : Bool} {action : Action} {l : Nat} {t : Task} {st : Machine}
  {env : Env}

/-- The program is in a round, or it has returned. -/
theorem Sound.round (h : Sound enc cfg setting ev)
    (hs : Suited enc cfg setting.workerLcores setting.numParallelTests) (debug : Bool) :
    (ev.main = .returned .success ∧ ∀ l, (ev.lcoreConfig l).task = none) ∨
      ∃ (w : Workload) (round : Nat) (phase : Nat → Phase),
        w.Lawful enc cfg setting.workerLcores setting.numParallelTests debug ∧
        Running w setting.workerLcores setting.numParallelTests phase ev ∧
        Stage setting.workerLcores setting.numParallelTests w.job round phase ev.main := by
  cases h with
  | compressing hsetting hrunning hstage htrack =>
      exact Or.inr ⟨_, _, _, compressing_lawful hs.bounds _ _ debug, hrunning, hstage⟩
  | decompressing hsetting hown hrunning hstage htrack =>
      exact Or.inr ⟨_, _, _, decompressing_lawful hs.bounds hs.assigned _ hown _ debug, hrunning,
        hstage⟩
  | returned hmain hidle => exact Or.inl ⟨hmain, hidle⟩

theorem Sound.not_terminated (h : Sound enc cfg setting ev) (fault : Fault) :
    ev.main ≠ .terminated fault := by
  intro hmain
  cases h with
  | compressing hsetting hrunning hstage htrack =>
      rw [hmain] at hstage
      cases hstage
  | decompressing hsetting hown hrunning hstage htrack =>
      rw [hmain] at hstage
      cases hstage
  | returned hreturned hidle =>
      rw [hmain] at hreturned
      cases hreturned

/-- The others leave an lcore its task. -/
theorem Sound.step_lcoreConfig (h : Sound enc cfg setting ev)
    (hs : Suited enc cfg setting.workerLcores setting.numParallelTests)
    (ht : (ev.lcoreConfig l).task = some t) (hother : ∀ env, action ≠ .worker l env) :
    (ev.step debug action).lcoreConfig l = ev.lcoreConfig l := by
  rcases h.round hs debug with ⟨-, hidle⟩ | ⟨w, round, phase, -, hrunning, hstage⟩
  · rw [hidle l] at ht
    cases ht
  · rw [step_eq debug h.not_terminated]
    cases action with
    | main allocations =>
        exact (mainStep_frame hrunning.underway hrunning.tests_eq hstage ht debug allocations).1
    | worker l' env =>
        exact worker_lcoreConfig_of_ne (fun he => hother env (by rw [he])) ev debug env

/-- The others leave a call alone. -/
theorem Sound.step_other (h : Sound enc cfg setting ev)
    (hs : Suited enc cfg setting.workerLcores setting.numParallelTests)
    (hc : ev.Calling l t st) (hother : ∀ env, action ≠ .worker l env) :
    ∃ zones memory numMaybeNotOk,
      (ev.step debug action).Calling l t (st.withShared zones memory numMaybeNotOk) := by
  rcases h.round hs debug with ⟨-, hidle⟩ | ⟨w, round, phase, -, hrunning, hstage⟩
  · have htask := hc.task_eq
    rw [hidle l] at htask
    cases htask
  · rw [step_eq debug h.not_terminated]
    cases action with
    | main allocations =>
        obtain ⟨hconfig, hdevices⟩ := mainStep_frame hrunning.underway hrunning.tests_eq hstage
          hc.task_eq debug allocations
        refine ⟨st.zones, st.memory, st.numMaybeNotOk, ?_, hc.called, ?_⟩
        · exact (congrArg LcoreConfig.task hconfig).trans hc.task_eq
        · dsimp only
          rw [machineAt, hdevices]
          exact hc.machine_eq
    | worker l' env =>
        exact hc.worker hrunning.underway (fun he => hother env (by rw [he])) debug env

/-- The lcore goes on with its call. -/
theorem Sound.step_own (h : Sound enc cfg setting ev)
    (hs : Suited enc cfg setting.workerLcores setting.numParallelTests)
    (hc : ev.Calling l t st) (hclean : ev.Clean enc debug (.worker l env)) :
    ((ev.step debug (.worker l env)).lcoreConfig l).task = none ∨
      ∃ st', (ev.step debug (.worker l env)).Calling l t st' ∧ st.result = none ∧
        st'.effort ≤ st.effort ∧
        (st.Serves env ∨ st.qp.pendingOperations = [] → st'.effort < st.effort) := by
  rcases h.round hs debug with ⟨-, hidle⟩ | ⟨w, round, phase, hlawful, hrunning, -⟩
  · have htask := hc.task_eq
    rw [hidle l] at htask
    cases htask
  · rw [step_eq debug h.not_terminated]
    rcases hrunning.step_own hlawful hs.assigned hc hclean with
      hnone | ⟨st', hc', hcontinues, hordered, hb, hnone⟩
    · exact Or.inl hnone
    · exact Or.inr ⟨st', hc', hnone, hcontinues.effort hordered hb hnone⟩

/-- A task is on the lcore of a test. -/
theorem Sound.mem_lcores (h : Sound enc cfg setting ev)
    (hs : Suited enc cfg setting.workerLcores setting.numParallelTests)
    (ht : (ev.lcoreConfig l).task = some t) : l ∈ setting.workerLcores.flatten := by
  rcases h.round hs true with ⟨-, hidle⟩ | ⟨w, round, phase, -, hrunning, -⟩
  · rw [hidle l] at ht
    cases ht
  · obtain ⟨idx, hidx, hl, -⟩ := hrunning.underway.exists_test ht
    rw [hs.assigned.lcoreAt_eq hidx] at hl
    exact List.mem_of_getElem? hl

theorem Sound.exists_machineAt (h : Sound enc cfg setting ev)
    (hs : Suited enc cfg setting.workerLcores setting.numParallelTests)
    (ht : (ev.lcoreConfig l).task = some t) : ∃ st, ev.machineAt t.place = some st := by
  rcases h.round hs true with ⟨-, hidle⟩ | ⟨w, round, phase, hlawful, hrunning, -⟩
  · rw [hidle l] at ht
    cases ht
  · obtain ⟨idx, hidx, hl, htask, -⟩ := hrunning.underway.exists_test ht
    obtain ⟨d, q, hq, rfl, hplace⟩ := hs.assigned.exists_place hidx
    obtain ⟨zones, hdevice⟩ := hrunning.devices d (lt_of_lt_share hq).1
    have hservice := (hlawful.separate hdevice).inService
    rw [htask, hplace]
    exact ⟨_, Session.machine_eq hservice.configuration_eq hservice.zones_eq q⟩

/-- A worker lcore does not move the main lcore. -/
theorem Sound.step_main (h : Sound enc cfg setting ev)
    (hs : Suited enc cfg setting.workerLcores setting.numParallelTests)
    (hclean : ev.Clean enc debug (.worker l env)) :
    (ev.step debug (.worker l env)).main = ev.main := by
  rw [step_eq debug h.not_terminated]
  rcases h.round hs debug with ⟨-, hidle⟩ | ⟨w, round, phase, hlawful, hrunning, -⟩
  · rcases ev.worker_cases debug l env with ⟨-, he⟩ | ⟨t, ht, -⟩
    · exact congrArg Evaluation.main he
    · rw [hidle l] at ht
      cases ht
  · rcases hrunning.worker hlawful hs.assigned hclean with he | ⟨_, _, -, -, -, hmain, -⟩
    · exact congrArg Evaluation.main he
    · exact hmain

end Steps

/-! ## Infinite runs -/

/-- Nothing fails in an infinite run. -/
structure Forever (enc : List UInt8 → List UInt8) (cfg : Nat → Configuration) (setting : Setting)
    (debug : Bool) (E : Nat → Evaluation) (actions : Nat → Action) : Prop where
  suited : Suited enc cfg setting.workerLcores setting.numParallelTests
  next : ∀ k, E (k + 1) = (E k).step debug (actions k)
  setting_eq : ∀ k, (E k).setting = setting
  sound : ∀ k, Sound enc cfg setting (E k)
  clean : ∀ k, (E k).Clean enc debug (actions k)

/-- Every lcore takes its turns, and the devices serve: as long as an operation of
a call is pending, the device sooner or later accepts or gives back an operation. -/
structure Fair (lcores : List (List Nat)) (E : Nat → Evaluation) (actions : Nat → Action) :
    Prop where
  main : ∀ k, ∃ j, k ≤ j ∧ ∃ allocations, actions j = .main allocations
  worker : ∀ l ∈ lcores.flatten, ∀ k, ∃ j, k ≤ j ∧ ∃ env, actions j = .worker l env
  serves : ∀ l ∈ lcores.flatten, ∀ k t st, (E k).Calling l t st → st.qp.pendingOperations ≠ [] →
    ∃ j, k ≤ j ∧ ∃ env, actions j = .worker l env ∧
      ∀ st, (E j).Calling l t st → st.Serves env

section Forever

variable {enc : List UInt8 → List UInt8} {cfg : Nat → Configuration} {setting : Setting}
  {debug : Bool} {E : Nat → Evaluation} {actions : Nat → Action} {k l m : Nat} {t : Task}
  {st : Machine}

/-- The task on an lcore is over, or its call has come closer to its end. -/
def Closer (l m : Nat) (t : Task) (ev : Evaluation) : Prop :=
  (ev.lcoreConfig l).task = none ∨ ∃ st, ev.Calling l t st ∧ st.effort < m

theorem Forever.step_own (h : Forever enc cfg setting debug E actions)
    (hc : (E k).Calling l t st) {env : Env} (hact : actions k = .worker l env) :
    ((E (k + 1)).lcoreConfig l).task = none ∨
      ∃ st', (E (k + 1)).Calling l t st' ∧ st.result = none ∧ st'.effort ≤ st.effort ∧
        (st.Serves env ∨ st.qp.pendingOperations = [] → st'.effort < st.effort) := by
  have hclean := h.clean k
  rw [hact] at hclean
  rw [h.next k, hact]
  exact (h.sound k).step_own h.suited hc hclean

/-- What an lcore does not do itself does not change what its call is like. -/
theorem Forever.unless_calling (h : Forever enc cfg setting debug E actions) {P : Machine → Prop}
    (hshared : ∀ st zones memory numMaybeNotOk, P st → P (st.withShared zones memory numMaybeNotOk))
    (hown : ∀ k st env, (E k).Calling l t st → P st → actions k = .worker l env →
      (∃ st', (E (k + 1)).Calling l t st' ∧ P st') ∨ Closer l m t (E (k + 1))) :
    Unless E (fun ev => ∃ st, ev.Calling l t st ∧ P st) (Closer l m t) := by
  rintro k ⟨st, hc, hst⟩
  by_cases hact : ∃ env, actions k = .worker l env
  · obtain ⟨env, hact⟩ := hact
    exact hown k st env hc hst hact
  · obtain ⟨zones, memory, numMaybeNotOk, hc'⟩ :=
      (h.sound k).step_other h.suited hc fun env he => hact ⟨env, he⟩
    rw [← h.next k] at hc'
    exact Or.inl ⟨_, hc', hshared _ _ _ _ hst⟩

/-- A call stays as it is until its lcore takes a step. -/
theorem Forever.meanwhile (h : Forever enc cfg setting debug E actions)
    (hc : (E k).Calling l t st) {j : Nat} (hkj : k ≤ j)
    (hothers : ∀ i, k ≤ i → i < j → ∀ env, actions i ≠ .worker l env) :
    ∃ zones memory numMaybeNotOk,
      (E j).Calling l t (st.withShared zones memory numMaybeNotOk) := by
  induction hkj with
  | refl => exact ⟨st.zones, st.memory, st.numMaybeNotOk, hc⟩
  | @step i hki ih =>
      obtain ⟨zones, memory, numMaybeNotOk, hci⟩ :=
        ih fun i' hki' hlt => hothers i' hki' (Nat.lt_succ_of_lt hlt)
      obtain ⟨zones', memory', numMaybeNotOk', hc'⟩ :=
        (h.sound i).step_other h.suited hci (hothers i hki (Nat.lt_succ_self i))
      rw [← h.next i] at hc'
      exact ⟨zones', memory', numMaybeNotOk', hc'⟩

/-- **A call comes closer to its end.** -/
theorem Forever.closer (h : Forever enc cfg setting debug E actions)
    (hfair : Fair setting.workerLcores E actions) (hc : (E k).Calling l t st) :
    ∃ j, k ≤ j ∧ Closer l st.effort t (E j) := by
  have hl : l ∈ setting.workerLcores.flatten := (h.sound k).mem_lcores h.suited hc.task_eq
  by_cases halone : st.result = none → st.qp.pendingOperations = []
  · -- the lcore needs no device
    have hhelps : ∀ k st' env, (E k).Calling l t st' →
        (st'.effort = st.effort ∧ (st'.result = none → st'.qp.pendingOperations = [])) →
        actions k = .worker l env → Closer l st.effort t (E (k + 1)) := by
      rintro k st' env hc' ⟨he, hnil⟩ hact
      rcases h.step_own hc' hact with hnone | ⟨st'', hc'', hres, -, hlt⟩
      · exact Or.inl hnone
      · exact Or.inr ⟨st'', hc'', he ▸ hlt (Or.inr (hnil hres))⟩
    obtain ⟨j, hkj, env, hact⟩ := hfair.worker l hl k
    refine (h.unless_calling (fun st zones memory numMaybeNotOk hst => hst)
      fun k st' env hc' hst hact => Or.inr (hhelps k st' env hc' hst hact)).reaches
        ⟨st, hc, rfl, halone⟩ hkj ?_
    rintro ⟨st', hc', hst⟩
    exact hhelps j st' env hc' hst hact
  · -- the device serves
    push Not at halone
    obtain ⟨j, hkj, env, hact, hserves⟩ := hfair.serves l hl k t st hc halone.2
    have hunless : Unless E (fun ev => ∃ st', ev.Calling l t st' ∧ st'.effort = st.effort)
        (Closer l st.effort t) := by
      refine h.unless_calling (fun st zones memory numMaybeNotOk hst => hst) ?_
      intro k st' env hc' he hact
      rcases h.step_own hc' hact with hnone | ⟨st'', hc'', -, hle, -⟩
      · exact Or.inr (Or.inl hnone)
      · rcases Nat.lt_or_eq_of_le (he ▸ hle) with hlt | heq
        · exact Or.inr (Or.inr ⟨st'', hc'', hlt⟩)
        · exact Or.inl ⟨st'', hc'', heq⟩
    refine hunless.reaches ⟨st, hc, rfl⟩ hkj ?_
    rintro ⟨st', hc', he⟩
    rcases h.step_own hc' hact with hnone | ⟨st'', hc'', -, -, hlt⟩
    · exact Or.inl hnone
    · exact Or.inr ⟨st'', hc'', he ▸ hlt (Or.inl (hserves st' hc'))⟩

/-- A call comes to its end. -/
theorem Forever.calling_leadsTo (h : Forever enc cfg setting debug E actions)
    (hfair : Fair setting.workerLcores E actions) (l m : Nat) :
    LeadsTo E (fun ev => ∃ t st, ev.Calling l t st ∧ st.effort = m)
      fun ev => (ev.lcoreConfig l).task = none := by
  refine leadsTo_of_measure (P := fun m (ev : Evaluation) =>
    ∃ t st, ev.Calling l t st ∧ st.effort = m) ?_ m
  rintro m k ⟨t, st, hc, rfl⟩
  obtain ⟨j, hkj, hnone | ⟨st', hc', hlt⟩⟩ := h.closer hfair hc
  · exact ⟨j, hkj, Or.inr hnone⟩
  · exact ⟨j, hkj, Or.inl ⟨_, hlt, t, st', hc', rfl⟩⟩

/-- A task is called. -/
theorem Forever.launched_leadsTo (h : Forever enc cfg setting debug E actions)
    (hfair : Fair setting.workerLcores E actions) (hcalled : t.called = false) :
    LeadsTo E (fun ev => (ev.lcoreConfig l).task = some t)
      fun ev => (ev.lcoreConfig l).task = some { t with called := true } := by
  intro k hk
  have hown : ∀ k env, ((E k).lcoreConfig l).task = some t → actions k = .worker l env →
      ((E (k + 1)).lcoreConfig l).task = some { t with called := true } := by
    intro k env ht hact
    rw [h.next k, hact, step_eq debug (h.sound k).not_terminated]
    exact worker_uncalled ht hcalled
  have hunless : Unless E (fun ev => (ev.lcoreConfig l).task = some t)
      fun ev => (ev.lcoreConfig l).task = some { t with called := true } := by
    intro k ht
    by_cases hact : ∃ env, actions k = .worker l env
    · obtain ⟨env, hact⟩ := hact
      exact Or.inr (hown k env ht hact)
    · have hsame : (E (k + 1)).lcoreConfig l = (E k).lcoreConfig l := by
        rw [h.next k]
        exact (h.sound k).step_lcoreConfig h.suited ht fun env he => hact ⟨env, he⟩
      exact Or.inl ((congrArg LcoreConfig.task hsame).trans ht)
  obtain ⟨j, hkj, env, hact⟩ := hfair.worker l ((h.sound k).mem_lcores h.suited hk) k
  exact hunless.reaches hk hkj fun ht => hown j env ht hact

/-- **Every lcore comes back to the `WAIT` state.** -/
theorem Forever.idle_again (h : Forever enc cfg setting debug E actions)
    (hfair : Fair setting.workerLcores E actions) (l : Nat) :
    LeadsTo E (fun _ => True) fun ev => (ev.lcoreConfig l).task = none := by
  have hcalled : ∀ t, t.called = true → LeadsTo E (fun ev => (ev.lcoreConfig l).task = some t)
      fun ev => (ev.lcoreConfig l).task = none := by
    intro t hcalled k hk
    obtain ⟨st, hst⟩ := (h.sound k).exists_machineAt h.suited hk
    exact h.calling_leadsTo hfair l st.effort k ⟨t, st, ⟨hk, hcalled, hst⟩, rfl⟩
  intro k _
  cases htask : ((E k).lcoreConfig l).task with
  | none => exact ⟨k, Nat.le_refl k, htask⟩
  | some t =>
      cases hc : t.called with
      | true => exact hcalled t hc k htask
      | false => exact (h.launched_leadsTo hfair hc).trans (hcalled _ rfl) k htask

/-! ## The main lcore goes on -/

theorem awaited_eq {ev ev' : Evaluation} (hsetting : ev'.setting = ev.setting)
    (hmain : ev'.main = ev.main) : ev'.awaited = ev.awaited := by
  have htests : ev'.numParallelTests = ev.numParallelTests :=
    congrArg Setting.numParallelTests hsetting
  have hlcores : ev'.workerLcores = ev.workerLcores := congrArg Setting.workerLcores hsetting
  rw [awaited, awaited, hmain, htests, hlcores]

/-- What the main lcore waits for does not come back. -/
theorem Ready.worker {ev : Evaluation} (h : ev.Ready)
    (hmain : (ev.worker debug l env).main = ev.main) :
    (ev.worker debug l env).Ready := by
  intro l' hl'
  rw [awaited_eq (ev.worker_setting debug l env) hmain] at hl'
  exact worker_idle (h l' hl')

/-- The main lcore has come closer to the end. -/
def Further (setting : Setting) (pc : MainPc) (ev : Evaluation) : Prop :=
  rank setting.numParallelTests ev.main < rank setting.numParallelTests pc

variable {pc : MainPc}

/-- The turn of the main lcore. -/
theorem Forever.step_ready (h : Forever enc cfg setting debug E actions) (hlevel : 0 < level pc)
    (hmain : (E k).main = pc) (hready : (E k).Ready) {allocations : Nat → Option (Nat × Nat)}
    (hact : actions k = .main allocations) : Further setting pc (E (k + 1)) := by
  have htests : (E k).numParallelTests = setting.numParallelTests :=
    congrArg Setting.numParallelTests (h.setting_eq k)
  rw [Further, h.next k, hact, step_eq debug (h.sound k).not_terminated, ← htests, ← hmain]
  exact rank_mainStep (hmain ▸ hlevel) hready allocations

/-- A turn of a worker lcore. -/
theorem Forever.step_worker (h : Forever enc cfg setting debug E actions) {env : Env}
    (hact : actions k = .worker l env) :
    (E (k + 1)).main = (E k).main ∧ ((E k).Ready → (E (k + 1)).Ready) := by
  have hclean := h.clean k
  rw [hact] at hclean
  have hmain := (h.sound k).step_main h.suited hclean
  rw [h.next k, hact]
  refine ⟨hmain, fun hready => ?_⟩
  rw [step_eq debug (h.sound k).not_terminated] at hmain ⊢
  exact hready.worker hmain

/-- The main lcore stays where it is, or it goes on. -/
theorem Forever.unless_main (h : Forever enc cfg setting debug E actions)
    (hlevel : 0 < level pc) : Unless E (fun ev => ev.main = pc) (Further setting pc) := by
  intro k hmain
  cases hact : actions k with
  | main allocations =>
      by_cases hready : (E k).Ready
      · exact Or.inr (h.step_ready hlevel hmain hready hact)
      · refine Or.inl ?_
        rw [h.next k, hact, step_eq debug (h.sound k).not_terminated]
        exact (congrArg Evaluation.main (mainStep_of_not_ready hready allocations)).trans hmain
  | worker l env => exact Or.inl ((h.step_worker hact).1.trans hmain)

theorem Forever.unless_ready (h : Forever enc cfg setting debug E actions)
    (hlevel : 0 < level pc) :
    Unless E (fun ev => ev.main = pc ∧ ev.Ready) (Further setting pc) := by
  rintro k ⟨hmain, hready⟩
  cases hact : actions k with
  | main allocations => exact Or.inr (h.step_ready hlevel hmain hready hact)
  | worker l env =>
      obtain ⟨hsame, hnext⟩ := h.step_worker hact
      exact Or.inl ⟨hsame.trans hmain, hnext hready⟩

/-- **The main lcore goes on.** -/
theorem Forever.main_leadsTo (h : Forever enc cfg setting debug E actions)
    (hfair : Fair setting.workerLcores E actions) (hlevel : 0 < level pc) :
    LeadsTo E (fun ev => ev.main = pc) (Further setting pc) := by
  have hready : LeadsTo E (fun ev => ev.main = pc ∧ ev.Ready) (Further setting pc) := by
    intro k hk
    obtain ⟨j, hkj, allocations, hact⟩ := hfair.main k
    exact (h.unless_ready hlevel).reaches hk hkj fun hj => h.step_ready hlevel hj.1 hj.2 hact
  intro k hmain
  cases hawaited : (E k).awaited with
  | none => exact hready k ⟨hmain, fun l hl => by rw [hawaited] at hl; cases hl⟩
  | some l =>
      have hidle : LeadsTo E (fun ev => ev.main = pc) fun ev => (ev.lcoreConfig l).task = none :=
        fun k _ => h.idle_again hfair l k trivial
      obtain ⟨j, hkj, ⟨hj, hnone⟩ | hfurther⟩ := (h.unless_main hlevel).meanwhile hidle k hmain
      · have hsetting := (h.setting_eq j).trans (h.setting_eq k).symm
        obtain ⟨i, hji, hi⟩ := hready j ⟨hj, fun l' hl' => by
          rw [awaited_eq hsetting (hj.trans hmain.symm), hawaited] at hl'
          obtain rfl := Option.some.inj hl'
          exact hnone⟩
        exact ⟨i, hkj.trans hji, hi⟩
      · exact ⟨j, hkj, hfurther⟩

/-- **The program returns.** -/
theorem Forever.returns (h : Forever enc cfg setting debug E actions)
    (hfair : Fair setting.workerLcores E actions) :
    ∃ k, (E k).main = .returned .success := by
  have hleads : LeadsTo E (fun ev => rank setting.numParallelTests ev.main =
      rank setting.numParallelTests (E 0).main) fun ev => ev.main = .returned .success := by
    refine leadsTo_of_measure (P := fun m (ev : Evaluation) =>
      rank setting.numParallelTests ev.main = m) ?_ _
    rintro m k rfl
    rcases (h.sound k).round h.suited debug with ⟨hmain, -⟩ | ⟨w, round, phase, -, -, hstage⟩
    · exact ⟨k, Nat.le_refl k, Or.inr hmain⟩
    · have hlevel : 0 < level (E k).main := by
        generalize (E k).main = pc at hstage
        cases hstage <;> cases w.job <;> exact Nat.succ_pos _
      obtain ⟨j, hkj, hfurther⟩ := h.main_leadsTo hfair hlevel k rfl
      exact ⟨j, hkj, Or.inl ⟨_, hfurther, rfl⟩⟩
  obtain ⟨k, -, hk⟩ := hleads 0 rfl
  exact ⟨k, hk⟩

end Forever

section Returns

variable {enc : List UInt8 → List UInt8} {cfg : Nat → Configuration} {numDevices n : Nat}
  {devices : Devices} {input : List UInt8} {lcoreConfig : Nat → LcoreConfig}
  {allocations : Nat → Option Nat}

/-- A run in which nothing fails. -/
theorem begin_forever
    (hs : Suited enc cfg ((List.range numDevices).map fun d => (devices d).device.workerLcores) n)
    (hp : Prepared cfg numDevices devices) (hidle : ∀ l, (lcoreConfig l).task = none)
    (hallocations : ∀ i < n, (allocations i).isSome ∧
      ∀ j < n, i ≠ j → allocations i ≠ allocations j)
    {debug : Bool} {actions : Nat → Action} {E : Nat → Evaluation}
    (hE : E = stateAt (step debug) (begin n numDevices devices input lcoreConfig allocations)
      actions)
    (hclean : ∀ k, (E k).Clean enc debug (actions k)) :
    Forever enc cfg (begin n numDevices devices input lcoreConfig allocations).setting debug E
      actions := by
  obtain ⟨hlcores, htests, -⟩ := begin_setting n numDevices devices input lcoreConfig allocations
  have hsuited : Suited enc cfg
      (begin n numDevices devices input lcoreConfig allocations).setting.workerLcores
      (begin n numDevices devices input lcoreConfig allocations).setting.numParallelTests := by
    rwa [hlcores, htests]
  subst hE
  refine ⟨hsuited, fun k => rfl, fun k => ?_, fun k => ?_, hclean⟩
  · induction k with
    | zero => rfl
    | succ k ih => exact (step_setting _ debug _).trans ih
  · exact stateAt_invariant (fun ev action hev hok => hev.step hsuited hok)
      (begin_sound hs hp hidle hallocations) hclean k

/-- **`EvaluateAsync` returns.**  As long as no call of the driver fails, the devices
compress and decompress with `enc` and the allocations succeed: when the main lcore
and all worker lcores take their turns again and again, and the devices serve the
calls, the program returns OK. -/
theorem evaluateAsync_returns
    (hs : Suited enc cfg ((List.range numDevices).map fun d => (devices d).device.workerLcores) n)
    (hp : Prepared cfg numDevices devices) (hidle : ∀ l, (lcoreConfig l).task = none)
    (hallocations : ∀ i < n, (allocations i).isSome ∧
      ∀ j < n, i ≠ j → allocations i ≠ allocations j)
    {debug : Bool} {actions : Nat → Action} {E : Nat → Evaluation}
    (hE : E = stateAt (step debug) (begin n numDevices devices input lcoreConfig allocations)
      actions)
    (hclean : ∀ k, (E k).Clean enc debug (actions k))
    (hfair : Fair ((List.range numDevices).map fun d => (devices d).device.workerLcores) E
      actions) :
    ∃ k, (E k).main = .returned .success := by
  obtain ⟨hlcores, -⟩ := begin_setting n numDevices devices input lcoreConfig allocations
  rw [← hlcores] at hfair
  exact (begin_forever hs hp hidle hallocations hE hclean).returns hfair

/-! ## Two devices with one queue pair each -/

/-- The device that an lcore turns to has an operation of its call, or needs none. -/
def SampleServed (ev : Evaluation) (action : Action) : Prop :=
  ev.SampleClean action ∧
    match action with
    | .main _ => True
    | .worker l env => ∀ t ∈ (ev.lcoreConfig l).task, t.called = true →
        ∀ st ∈ ev.machineAt t.place, st.qp.pendingOperations ≠ [] → st.Serves env

instance (ev : Evaluation) (action : Action) : Decidable (ev.SampleServed action) := by
  unfold SampleServed
  cases action <;> infer_instance

theorem sampleEvaluation_served :
    Along (step true) SampleServed sampleEvaluation sampleActions := by
  decide +kernel

theorem sampleEvaluation_stateAt :
    stateAt (step true) sampleEvaluation sampleSchedule 160 =
      run (step true) sampleEvaluation sampleActions :=
  stateAt_eq_run 160

theorem sampleEvaluation_sound :
    Sound Machine.sampleStream (fun _ => sampleAsyncConfig) sampleEvaluation.setting
      (run (step true) sampleEvaluation sampleActions) := by
  refine Along.invariant (fun ev action hev hok => hev.step sampleDevices_suited ?_)
    (begin_sound sampleDevices_suited sampleDevices_prepared (fun _ => rfl)
      fun i _ => ⟨rfl, fun j _ hne he => hne (Option.some.inj he)⟩) sampleEvaluation_served
  exact SampleClean.clean hok.1

theorem sampleEvaluation_idle (l : Nat) :
    ((run (step true) sampleEvaluation sampleActions).lcoreConfig l).task = none := by
  rcases sampleEvaluation_sound.round sampleDevices_suited true with
    ⟨-, hidle⟩ | ⟨w, round, phase, -, -, hstage⟩
  · exact hidle l
  · rw [sampleEvaluation_returned] at hstage
    cases hstage

/-- After the return nothing happens any more. -/
theorem sampleEvaluation_later {k : Nat} (hk : 160 ≤ k) :
    stateAt (step true) sampleEvaluation sampleSchedule k =
      run (step true) sampleEvaluation sampleActions := by
  rw [stateAt_of_fixed (fun _ => ?_) hk, sampleEvaluation_stateAt]
  rw [sampleEvaluation_stateAt]
  exact step_of_returned sampleEvaluation_returned sampleEvaluation_idle

theorem sampleEvaluation_always (k : Nat) :
    (stateAt (step true) sampleEvaluation sampleSchedule k).SampleServed (sampleSchedule k) := by
  by_cases hk : k < 160
  · exact sampleEvaluation_served.stateAt hk
  · rw [sampleEvaluation_later (Nat.not_lt.mp hk)]
    have hidle := sampleEvaluation_idle
    generalize run (step true) sampleEvaluation sampleActions = ev at hidle
    have hnone : ∀ {l t}, t ∉ (ev.lcoreConfig l).task := by
      intro l t ht
      rw [hidle l] at ht
      cases ht
    unfold sampleSchedule
    dsimp only
    split
    · exact ⟨fun i _ => ⟨rfl, fun j _ hne he => hne (Option.some.inj he)⟩, trivial⟩
    all_goals exact ⟨fun t ht => absurd ht hnone, fun t ht => absurd ht hnone⟩

theorem sampleSchedule_main {k : Nat} (hk : k % 3 = 0) :
    sampleSchedule k = .main fun idx => some (idx, 0) := by
  simp [sampleSchedule, hk]

theorem sampleSchedule_worker {l k : Nat} (hl : l = 1 ∨ l = 2) :
    (∃ env, sampleSchedule k = .worker l env) ↔ k % 3 = l := by
  obtain hk | hk | hk : k % 3 = 0 ∨ k % 3 = 1 ∨ k % 3 = 2 := by omega
  all_goals rcases hl with rfl | rfl <;> simp [sampleSchedule, hk]

theorem sampleEvaluation_forever :
    Forever Machine.sampleStream (fun _ => sampleAsyncConfig) sampleEvaluation.setting true
      (stateAt (step true) sampleEvaluation sampleSchedule) sampleSchedule :=
  begin_forever sampleDevices_suited sampleDevices_prepared (fun _ => rfl)
    (fun _ _ => ⟨rfl, fun _ _ hne he => hne (Option.some.inj he)⟩) rfl
    fun k => SampleClean.clean (sampleEvaluation_always k).1

theorem sampleEvaluation_fair :
    Fair [[1], [2]] (stateAt (step true) sampleEvaluation sampleSchedule) sampleSchedule := by
  have hturn : ∀ l, l = 1 ∨ l = 2 → ∀ k, ∃ j, k ≤ j ∧ j % 3 = l ∧
      ∀ i, k ≤ i → i < j → i % 3 ≠ l := by
    intro l hl k
    exact ⟨k + (l + 3 - k % 3) % 3, by omega, by omega, by omega⟩
  have hlcores : ∀ l ∈ [[1], [2]].flatten, l = 1 ∨ l = 2 := by simp
  refine ⟨fun k => ⟨3 * k, by omega, _, sampleSchedule_main (by omega)⟩, fun l hl k => ?_,
    fun l hl k t st hc hpending => ?_⟩
  · obtain ⟨j, hkj, hj, -⟩ := hturn l (hlcores l hl) k
    exact ⟨j, hkj, (sampleSchedule_worker (hlcores l hl)).mpr hj⟩
  · obtain ⟨j, hkj, hj, hothers⟩ := hturn l (hlcores l hl) k
    obtain ⟨env, hact⟩ := (sampleSchedule_worker (hlcores l hl)).mpr hj
    -- until the lcore has its turn, its call is what it was
    obtain ⟨zones, memory, numMaybeNotOk, hcj⟩ := sampleEvaluation_forever.meanwhile hc hkj
      fun i hki hij env hacti =>
        hothers i hki hij ((sampleSchedule_worker (hlcores l hl)).mp ⟨env, hacti⟩)
    refine ⟨j, hkj, env, hact, fun st' hc' => ?_⟩
    have hserved := (sampleEvaluation_always j).2
    rw [hact] at hserved
    obtain rfl := Option.some.inj (hcj.machine_eq.symm.trans hc'.machine_eq)
    exact hserved t hcj.task_eq hcj.called _ hcj.machine_eq hpending

theorem evaluateAsync_returns_sample :
    ∃ k, (stateAt (step true) sampleEvaluation sampleSchedule k).main = .returned .success :=
  evaluateAsync_returns sampleDevices_suited sampleDevices_prepared (fun _ => rfl)
    (fun _ _ => ⟨rfl, fun _ _ hne he => hne (Option.some.inj he)⟩) rfl
    (fun k => SampleClean.clean (sampleEvaluation_always k).1) sampleEvaluation_fair

end Returns

end Evaluation

end Bitar
