import Bitar.AsyncEvaluation
import Bitar.Lib.Runs

/-!
# Launching tasks and waiting for them

In every round the main lcore launches one task for each test, on the lcore of the
queue pair of the test, and then waits for these lcores.  The parameters of the
tasks live until the end of the round, so all tasks have to be over by then,
whatever has become of them.

A test is fresh until its task is launched; it has been called when `Compress` or
`Decompress` has begun; it is done when the lcore is in the `WAIT` state again.

**Results.**
* `Underway.set`, `Stage.update`: a test goes on to another phase.
* `Attentive.step`: the step lemma.
* `waits_for_all_tasks`: no task outlives its round.
-/

namespace Bitar

open Rows

/-! ## The lcores of the tests -/

/-- Every test has an lcore of its own. -/
structure Assigned (lcores : List (List Nat)) (n : Nat) : Prop where
  countable : Countable lcores
  nodup : lcores.flatten.Nodup
  le_length : n ≤ lcores.flatten.length

/-- The number of tests on a device. -/
def share (lcores : List (List Nat)) (n d : Nat) : Nat :=
  min (lcores.getD d []).length (n - offset lcores d)

section Tests

variable {lcores : List (List Nat)} {n idx d q l : Nat}

theorem getD_of_lt (hd : d < lcores.length) : lcores[d]? = some (lcores.getD d []) := by
  rw [List.getD_eq_getElem _ _ hd, List.getElem?_eq_getElem hd]

theorem lt_of_lt_share (hq : q < share lcores n d) :
    d < lcores.length ∧ q < (lcores.getD d []).length ∧ offset lcores d + q < n := by
  have hlt := Nat.lt_min.mp hq
  refine ⟨?_, hlt.1, by omega⟩
  by_contra hnot
  have hnil : lcores.getD d [] = [] := List.getD_eq_default _ _ (Nat.not_lt.mp hnot)
  rw [hnil] at hlt
  exact absurd hlt.1 (Nat.not_lt_zero q)

/-- The test on a queue pair. -/
theorem Assigned.places_eq (h : Assigned lcores n) (hq : q < share lcores n d) :
    places lcores (offset lcores d + q) = ⟨d, q⟩ := by
  obtain ⟨hd, hrow, -⟩ := lt_of_lt_share hq
  exact places_offset h.countable (getD_of_lt hd) hrow

/-- The queue pair of a test. -/
theorem Assigned.exists_place (h : Assigned lcores n) (hidx : idx < n) :
    ∃ d q, q < share lcores n d ∧ idx = offset lcores d + q ∧ places lcores idx = ⟨d, q⟩ := by
  obtain ⟨row, hrow, hq, hindex, -⟩ :=
    exists_places h.countable (Nat.lt_of_lt_of_le hidx h.le_length)
  have hd := (List.getElem?_eq_some_iff.mp hrow).1
  have hsame : lcores.getD (places lcores idx).deviceId [] = row :=
    Option.some.inj ((getD_of_lt hd).symm.trans hrow)
  refine ⟨_, _, Nat.lt_min.mpr ⟨hsame ▸ hq, by omega⟩, hindex, rfl⟩

theorem Assigned.lcoreAt_eq (h : Assigned lcores n) (hidx : idx < n) :
    lcoreAt lcores (places lcores idx) = lcores.flatten[idx]? := by
  obtain ⟨-, -, -, -, hlcore⟩ :=
    exists_places h.countable (Nat.lt_of_lt_of_le hidx h.le_length)
  exact hlcore

theorem Assigned.exists_lcore (h : Assigned lcores n) (hidx : idx < n) :
    ∃ l, lcoreAt lcores (places lcores idx) = some l := by
  rw [h.lcoreAt_eq hidx]
  exact ⟨_, List.getElem?_eq_getElem (Nat.lt_of_lt_of_le hidx h.le_length)⟩

theorem Assigned.lcore_inj (h : Assigned lcores n) {i j : Nat} (hi : i < n) (hj : j < n)
    (hli : lcoreAt lcores (places lcores i) = some l)
    (hlj : lcoreAt lcores (places lcores j) = some l) : i = j := by
  rw [h.lcoreAt_eq hi] at hli
  rw [h.lcoreAt_eq hj] at hlj
  exact (List.getElem?_inj (Nat.lt_of_lt_of_le hi h.le_length) h.nodup).mp (hli.trans hlj.symm)

end Tests

/-! ## The tasks of a round -/

/-- What has become of a test. -/
inductive Phase
  | fresh
  | launched
  | called
  | done
deriving DecidableEq, Repr

/-- The task of the lcore of a test. -/
def Phase.task (job : Job) (lcores : List (List Nat)) (idx : Nat) : Phase → Option Task
  | .fresh | .done => none
  | .launched => some ⟨job, idx, places lcores idx, false⟩
  | .called => some ⟨job, idx, places lcores idx, true⟩

/-- The worker lcores do their tests, and nothing else. -/
structure Underway (lcores : List (List Nat)) (n : Nat) (job : Job) (phase : Nat → Phase)
    (config : Nat → LcoreConfig) : Prop where
  task_eq : ∀ idx < n, ∀ l, lcoreAt lcores (places lcores idx) = some l →
    (config l).task = (phase idx).task job lcores idx
  idle : ∀ l, (∀ idx < n, lcoreAt lcores (places lcores idx) ≠ some l) → (config l).task = none

/-- How far the main lcore is. -/
inductive Stage (lcores : List (List Nat)) (n : Nat) (job : Job) (round : Nat)
    (phase : Nat → Phase) : MainPc → Prop
  | launching (k : Nat) (hle : k ≤ n) (hfresh : ∀ idx < n, phase idx = .fresh ↔ k ≤ idx) :
      Stage lcores n job round phase (.launching job round k (places lcores k))
  | waiting (k : Nat) (asyncSuccess : Bool) (hle : k ≤ n)
      (hlaunched : ∀ idx < n, phase idx ≠ .fresh) (hdone : ∀ idx < k, phase idx = .done) :
      Stage lcores n job round phase (.waiting job round k (places lcores k) asyncSuccess)

section Round

variable {lcores : List (List Nat)} {n idx l round : Nat} {job : Job} {phase : Nat → Phase}
  {config : Nat → LcoreConfig} {t : Task} {p : Phase} {pc : MainPc}

theorem Phase.task_eq_some :
    p.task job lcores idx = some t ↔
      t = ⟨job, idx, places lcores idx, t.called⟩ ∧
        p = if t.called = true then .called else .launched := by
  obtain ⟨tjob, test, place, called⟩ := t
  cases p <;> cases called <;> simp [Phase.task, eq_comm]

theorem Phase.task_eq_none : p.task job lcores idx = none ↔ p = .fresh ∨ p = .done := by
  cases p <;> simp [Phase.task]

/-- The test that a task belongs to. -/
theorem Underway.exists_test (h : Underway lcores n job phase config)
    (ht : (config l).task = some t) :
    ∃ idx < n, lcoreAt lcores (places lcores idx) = some l ∧
      t = ⟨job, idx, places lcores idx, t.called⟩ ∧
      phase idx = if t.called = true then .called else .launched := by
  by_contra hnot
  have hidle := h.idle l fun idx hidx hl => ?_
  · rw [ht] at hidle
    cases hidle
  · have htask := h.task_eq idx hidx l hl
    rw [ht] at htask
    exact hnot ⟨idx, hidx, hl, Phase.task_eq_some.mp htask.symm⟩

/-- A test goes on to another phase. -/
theorem Underway.set (h : Underway lcores n job phase config) (ha : Assigned lcores n)
    (hidx : idx < n) (hl : lcoreAt lcores (places lcores idx) = some l) {c : LcoreConfig}
    (hc : c.task = p.task job lcores idx) :
    Underway lcores n job (Function.update phase idx p) (Function.update config l c) := by
  refine ⟨fun j hj l' hl' => ?_, fun l' hnone => ?_⟩
  · by_cases hsame : j = idx
    · subst hsame
      obtain rfl := Option.some.inj (hl.symm.trans hl')
      rw [Function.update_self, Function.update_self, hc]
    · have hne : l' ≠ l := fun he => hsame (ha.lcore_inj hj hidx hl' (he ▸ hl))
      rw [Function.update_of_ne hne, Function.update_of_ne hsame]
      exact h.task_eq j hj l' hl'
  · have hne : l' ≠ l := fun he => hnone idx hidx (he ▸ hl)
    rw [Function.update_of_ne hne]
    exact h.idle l' hnone

/-- When no lcore has a task, a round may begin. -/
theorem underway_fresh (hidle : ∀ l, (config l).task = none) :
    Underway lcores n job (fun _ => .fresh) config :=
  ⟨fun _ _ l _ => hidle l, fun l _ => hidle l⟩

theorem Underway.idle_of_done (h : Underway lcores n job phase config)
    (hdone : ∀ idx < n, phase idx = .done) (l : Nat) : (config l).task = none := by
  by_cases hexists : ∃ idx < n, lcoreAt lcores (places lcores idx) = some l
  · obtain ⟨idx, hidx, hl⟩ := hexists
    rw [h.task_eq idx hidx l hl, hdone idx hidx]
    rfl
  · exact h.idle l fun idx hidx hl => hexists ⟨idx, hidx, hl⟩

/-- What the worker lcores do does not hold up the main lcore. -/
theorem Stage.update (h : Stage lcores n job round phase pc) (hfresh : phase idx ≠ .fresh)
    (hdone : phase idx ≠ .done) (hp : p ≠ .fresh) :
    Stage lcores n job round (Function.update phase idx p) pc := by
  have hiff : ∀ j, Function.update phase idx p j = .fresh ↔ phase j = .fresh := by
    intro j
    by_cases hj : j = idx
    · subst hj
      simp [hfresh, hp]
    · rw [Function.update_of_ne hj]
  cases h with
  | launching k hle hk => exact .launching k hle fun j hj => (hiff j).trans (hk j hj)
  | waiting k asyncSuccess hle hlaunched hk =>
      refine .waiting k asyncSuccess hle (fun j hj => (hiff j).not.mpr (hlaunched j hj))
        fun j hj => ?_
      have hne : j ≠ idx := fun he => hdone (he ▸ hk j hj)
      rw [Function.update_of_ne hne]
      exact hk j hj

theorem stage_begin (lcores : List (List Nat)) (n : Nat) (job : Job) (round : Nat) :
    Stage lcores n job round (fun _ => .fresh) (.launching job round 0 ⟨0, 0⟩) :=
  .launching 0 (Nat.zero_le n) fun idx _ => by simp

end Round

/-- A round begins, or nothing happens any more. -/
def MainPc.BetweenRounds : MainPc → Prop
  | .launching _ _ idx place => idx = 0 ∧ place = ⟨0, 0⟩
  | .waiting .. => False
  | .returned _ | .terminated _ => True

namespace Evaluation

/-! ## What no step changes -/

/-- The tests, and where they run. -/
structure Setting where
  numParallelTests : Nat
  inputBuffer : List UInt8
  inputBufferVector : Nat → Buffer
  workerLcores : List (List Nat)
  deviceIds : List UInt8

def setting (ev : Evaluation) : Setting where
  numParallelTests := ev.numParallelTests
  inputBuffer := ev.inputBuffer
  inputBufferVector := ev.inputBufferVector
  workerLcores := ev.workerLcores
  deviceIds := (List.range ev.numDevices).map fun d => (ev.devices d).device.deviceId

section Setting

variable {ev ev' : Evaluation} {debug : Bool} {l : Nat} {env : Env} {t : Task}

/-- The members of the devices that are fixed. -/
def SameDevices (devices devices' : Devices) : Prop :=
  ∀ d, (devices' d).device.workerLcores = (devices d).device.workerLcores ∧
    (devices' d).device.deviceId = (devices d).device.deviceId

theorem SameDevices.update {devices devices' : Devices} {d : Nat} {event : Session.Event}
    (hevent : ∀ attempt, event ≠ .initializeDevice attempt)
    (h : SameDevices (devices.set d ((devices d).act debug event)) devices') :
    SameDevices devices devices' := by
  intro other
  obtain ⟨hlcores, hid⟩ := h other
  by_cases hsame : other = d
  · subst hsame
    obtain ⟨-, hlcores', hid'⟩ := Session.act_device_eq debug (devices other) hevent
    rw [Devices.set_self] at hlcores hid
    exact ⟨hlcores.trans hlcores', hid.trans hid'⟩
  · rw [Devices.set_of_ne hsame] at hlcores hid
    exact ⟨hlcores, hid⟩

theorem SameDevices.setting_eq (h : SameDevices ev.devices ev'.devices)
    (htests : ev'.numParallelTests = ev.numParallelTests)
    (hinput : ev'.inputBuffer = ev.inputBuffer)
    (hvector : ev'.inputBufferVector = ev.inputBufferVector)
    (hnum : ev'.numDevices = ev.numDevices) : ev'.setting = ev.setting := by
  have hlcores : ev'.workerLcores = ev.workerLcores := by
    rw [workerLcores, workerLcores, hnum]
    exact List.map_congr_left fun d _ => (h d).1
  rw [setting, setting, htests, hinput, hvector, hlcores, hnum]
  exact congrArg _ (List.map_congr_left fun d _ => (h d).2)

theorem sameDevices_refl (devices : Devices) : SameDevices devices devices :=
  fun _ => ⟨rfl, rfl⟩

theorem sameDevices_recycleVectors :
    ∀ (vs : List (Nat × List Buffer)) {devices devices' : Devices},
      recycleVectors debug vs devices = some devices' → SameDevices devices devices' := by
  intro vs
  induction vs with
  | nil =>
      intro devices devices' h
      obtain rfl := Option.some.inj h
      exact sameDevices_refl _
  | cons v vs ih =>
      intro devices devices' h
      rw [recycleVectors] at h
      split_ifs at h with hall
      exact (ih h).update fun attempt he => by cases he

/-! ## What a step can do -/

/-- What the callback of `Compress` or `Decompress` keeps. -/
theorem storeResult_eq {ev' : Evaluation} (h : ev.storeResult t = some ev') :
    ev'.lcoreConfig = ev.lcoreConfig ∧ ev'.main = ev.main ∧ ev'.devices = ev.devices ∧
      ev'.setting = ev.setting := by
  unfold storeResult at h
  dsimp only at h
  split at h
  · split at h
    · cases h
    · split_ifs at h
      obtain rfl := Option.some.inj h
      exact ⟨rfl, rfl, rfl, rfl⟩
  · obtain rfl := Option.some.inj h
    exact ⟨rfl, rfl, rfl, rfl⟩

/-- What the function on an lcore can do. -/
theorem worker_cases (ev : Evaluation) (debug : Bool) (l : Nat) (env : Env) :
    ((ev.lcoreConfig l).task = none ∧ ev.worker debug l env = ev) ∨
      ∃ t, (ev.lcoreConfig l).task = some t ∧
        ((t.called = false ∧ ev.worker debug l env =
            (ev.setDevice t.place.deviceId ((ev.devices t.place.deviceId).act debug
              (.call t.place.queuePairId (ev.request t)))).setLcore l
                { ev.lcoreConfig l with task := some { t with called := true } }) ∨
          (t.called = true ∧ ∃ status,
            ((ev.devices t.place.deviceId).lanes t.place.queuePairId).pc = .returned status ∧
              ev.worker debug l env = ev.callback l t status) ∨
          (t.called = true ∧
            (∀ status,
              ((ev.devices t.place.deviceId).lanes t.place.queuePairId).pc ≠ .returned status) ∧
            ev.worker debug l env = ev.setDevice t.place.deviceId
              ((ev.devices t.place.deviceId).act debug (.step t.place.queuePairId env)))) := by
  unfold worker
  cases htask : (ev.lcoreConfig l).task with
  | none => exact Or.inl ⟨rfl, rfl⟩
  | some t =>
      refine Or.inr ⟨t, rfl, ?_⟩
      dsimp only
      by_cases hcalled : t.called = false
      · exact Or.inl ⟨hcalled, if_pos hcalled⟩
      · have hcalled' : t.called = true := by simpa using hcalled
        rw [if_neg hcalled]
        refine Or.inr ?_
        cases hpc : ((ev.devices t.place.deviceId).lanes t.place.queuePairId).pc with
        | returned status => exact Or.inl ⟨hcalled', status, rfl, rfl⟩
        | _ => exact Or.inr ⟨hcalled', by simp, rfl⟩

/-- What becomes of a task whose call has returned. -/
theorem callback_cases (ev : Evaluation) (l : Nat) (t : Task) (status : Status) :
    (status.code ≠ .ok ∧ ev.callback l t status = ev.setLcore l ⟨none, exitFailure⟩) ∨
      (status.code = .ok ∧ ev.storeResult t = none ∧
        ev.callback l t status = { ev with main := .terminated .readPastEnd }) ∨
      (status.code = .ok ∧ ∃ ev', ev.storeResult t = some ev' ∧
        ev.callback l t status = ev'.setLcore l ⟨none, kAsyncReturnOK⟩) := by
  unfold callback
  by_cases hcode : status.code = .ok
  · rw [if_neg (not_not_intro hcode)]
    cases hstore : ev.storeResult t with
    | none => exact Or.inr (Or.inl ⟨hcode, rfl, rfl⟩)
    | some ev' => exact Or.inr (Or.inr ⟨hcode, ev', rfl, rfl⟩)
  · exact Or.inl ⟨hcode, if_pos hcode⟩

theorem recycleThen_cases (ev : Evaluation) (debug : Bool) (next : Evaluation → MainPc) :
    (recycleVectors debug ev.vectors ev.devices = none ∧
        ev.recycleThen debug next = { ev with main := .terminated .checkFailed }) ∨
      ∃ devices, recycleVectors debug ev.vectors ev.devices = some devices ∧
        ev.recycleThen debug next =
          { ev with devices := devices, main := next { ev with devices := devices } } := by
  unfold recycleThen
  cases h : recycleVectors debug ev.vectors ev.devices with
  | none => exact Or.inl ⟨rfl, rfl⟩
  | some devices => exact Or.inr ⟨devices, rfl, rfl⟩

/-- `Recycle` touches nothing but the devices, and may end the program. -/
theorem recycleThen_eq (ev : Evaluation) (debug : Bool) {next : Evaluation → MainPc}
    (hnext : ∀ ev, (next ev).BetweenRounds) :
    (ev.recycleThen debug next).lcoreConfig = ev.lcoreConfig ∧
      (ev.recycleThen debug next).main.BetweenRounds ∧
      (ev.recycleThen debug next).setting = ev.setting := by
  rcases ev.recycleThen_cases debug next with ⟨-, he⟩ | ⟨devices, hdevices, he⟩ <;> rw [he]
  · exact ⟨rfl, trivial, rfl⟩
  · exact ⟨rfl, hnext _, (sameDevices_recycleVectors _ hdevices).setting_eq rfl rfl rfl rfl⟩

/-- What the main lcore does at the end of a round. -/
theorem endRound_eq (ev : Evaluation) (debug : Bool) (job : Job) (round : Nat)
    (asyncSuccess : Bool) (allocations : Nat → Option (Nat × Nat)) :
    (ev.endRound debug job round asyncSuccess allocations).lcoreConfig = ev.lcoreConfig ∧
      (ev.endRound debug job round asyncSuccess allocations).main.BetweenRounds ∧
      (ev.endRound debug job round asyncSuccess allocations).setting = ev.setting := by
  unfold endRound
  cases job with
  | compress =>
      dsimp only
      split_ifs
      · exact ev.recycleThen_eq debug fun _ => trivial
      · exact ev.recycleThen_eq debug fun _ => ⟨rfl, rfl⟩
      · unfold allocateOutputs
        split_ifs
        · exact ⟨rfl, ⟨rfl, rfl⟩, rfl⟩
        · exact ev.recycleThen_eq debug fun _ => trivial
  | decompress =>
      dsimp only
      split_ifs
      · exact ev.recycleThen_eq debug fun _ => trivial
      · exact ⟨rfl, ⟨rfl, rfl⟩, rfl⟩
      · exact ev.recycleThen_eq debug fun _ => trivial

theorem worker_setting (ev : Evaluation) (debug : Bool) (l : Nat) (env : Env) :
    (ev.worker debug l env).setting = ev.setting := by
  have hdevice : ∀ d event, (∀ attempt, event ≠ .initializeDevice attempt) →
      (ev.setDevice d ((ev.devices d).act debug event)).setting = ev.setting :=
    fun d event hevent =>
      (SameDevices.update hevent (sameDevices_refl _)).setting_eq rfl rfl rfl rfl
  rcases ev.worker_cases debug l env with ⟨-, he⟩ |
    ⟨t, -, ⟨-, he⟩ | ⟨-, status, -, he⟩ | ⟨-, -, he⟩⟩
  · rw [he]
  · rw [he]
    exact hdevice _ _ fun attempt hevent => by cases hevent
  · rcases ev.callback_cases l t status with ⟨-, hc⟩ | ⟨-, -, hc⟩ | ⟨-, ev', hstore, hc⟩ <;>
      rw [he, hc]
    · rfl
    · rfl
    · exact (storeResult_eq hstore).2.2.2
  · rw [he]
    exact hdevice _ _ fun attempt hevent => by cases hevent

theorem mainStep_setting (ev : Evaluation) (debug : Bool)
    (allocations : Nat → Option (Nat × Nat)) :
    (ev.mainStep debug allocations).setting = ev.setting := by
  unfold mainStep
  split
  · unfold launch
    split
    · split
      · rfl
      · split_ifs <;> rfl
    · rfl
  · unfold await
    split
    · split
      · rfl
      · split_ifs <;> rfl
    · exact (ev.endRound_eq debug _ _ _ _).2.2
  · rfl
  · rfl

/-- The frame of a step. -/
theorem step_setting (ev : Evaluation) (debug : Bool) (action : Action) :
    (ev.step debug action).setting = ev.setting := by
  unfold step
  split
  · rfl
  · cases action with
    | main allocations => exact ev.mainStep_setting debug allocations
    | worker l env => exact ev.worker_setting debug l env

end Setting

/-! ## All tasks are over -/

/-- The main lcore is in the middle of a round, with its tasks, or the program is
over. -/
inductive Attentive (lcores : List (List Nat)) (n : Nat) (ev : Evaluation) : Prop
  | round {job : Job} {round : Nat} {phase : Nat → Phase}
      (hunderway : Underway lcores n job phase ev.lcoreConfig)
      (hstage : Stage lcores n job round phase ev.main) : Attentive lcores n ev
  | returned {status : Status} (hmain : ev.main = .returned status)
      (hidle : ∀ l, (ev.lcoreConfig l).task = none) : Attentive lcores n ev
  | terminated {fault : Fault} (hmain : ev.main = .terminated fault) : Attentive lcores n ev

section Attentive

variable {ev : Evaluation} {lcores : List (List Nat)} {n : Nat} {debug : Bool} {job : Job}
  {round l k : Nat} {phase : Nat → Phase} {env : Env}

/-- Between two rounds no lcore has a task. -/
theorem attentive_betweenRounds (hidle : ∀ l, (ev.lcoreConfig l).task = none)
    (hmain : ev.main.BetweenRounds) : Attentive lcores n ev := by
  cases hpc : ev.main with
  | launching job round idx place =>
      rw [hpc] at hmain
      obtain ⟨rfl, rfl⟩ := hmain
      exact .round (underway_fresh hidle) (hpc ▸ stage_begin lcores n job round)
  | waiting job round idx place asyncSuccess =>
      rw [hpc] at hmain
      exact hmain.elim
  | returned status => exact .returned hpc hidle
  | terminated fault => exact .terminated hpc

theorem attentive_round {pc : MainPc} (h : Underway lcores n job phase ev.lcoreConfig)
    (hmain : ev.main = pc) (hs : Stage lcores n job round phase pc) : Attentive lcores n ev :=
  .round h (hmain ▸ hs)

/-- A worker lcore takes a step. -/
theorem attentive_worker (h : Underway lcores n job phase ev.lcoreConfig)
    (ha : Assigned lcores n) (hs : Stage lcores n job round phase ev.main) :
    Attentive lcores n (ev.worker debug l env) := by
  rcases ev.worker_cases debug l env with ⟨-, he⟩ | ⟨t, ht, hcases⟩
  · rw [he]
    exact .round h hs
  · obtain ⟨idx, hidx, hl, htask, hphase⟩ := h.exists_test ht
    have hfresh : phase idx ≠ .fresh := by
      rw [hphase]
      split_ifs <;> simp
    have hdone : phase idx ≠ .done := by
      rw [hphase]
      split_ifs <;> simp
    rcases hcases with ⟨hcalled, he⟩ | ⟨hcalled, status, -, he⟩ | ⟨-, -, he⟩
    · rw [he]
      refine .round (h.set (p := .called) ha hidx hl ?_)
        (hs.update (p := .called) hfresh hdone (by simp))
      show some { t with called := true } = _
      rw [htask]
      rfl
    · rcases ev.callback_cases l t status with ⟨-, hc⟩ | ⟨-, -, hc⟩ | ⟨-, ev', hstore, hc⟩ <;>
        rw [he, hc]
      · exact .round (h.set (p := .done) ha hidx hl rfl)
          (hs.update (p := .done) hfresh hdone (by simp))
      · exact .terminated rfl
      · obtain ⟨hconfig, hmain, -⟩ := storeResult_eq hstore
        have hunderway : Underway lcores n job (Function.update phase idx .done)
            (Function.update ev'.lcoreConfig l ⟨none, kAsyncReturnOK⟩) := by
          rw [hconfig]
          exact h.set ha hidx hl rfl
        have hstage : Stage lcores n job round (Function.update phase idx .done) ev'.main := by
          rw [hmain]
          exact hs.update hfresh hdone (by simp)
        exact .round hunderway hstage
    · rw [he]
      exact .round h hs

/-- A fresh test is launched: its lcore is in the `WAIT` state. -/
theorem exists_lcore_launch (h : Underway lcores n job phase ev.lcoreConfig)
    (ha : Assigned lcores n) (hlcores : ev.workerLcores = lcores)
    (hfresh : ∀ idx < n, phase idx = .fresh ↔ k ≤ idx) (hk : k < n) :
    ∃ l, lcoreAt ev.workerLcores (places lcores k) = some l ∧ (ev.lcoreConfig l).task = none := by
  obtain ⟨l, hl⟩ := ha.exists_lcore hk
  refine ⟨l, hlcores ▸ hl, ?_⟩
  rw [h.task_eq k hk l hl, (hfresh k hk).mpr (Nat.le_refl k)]
  rfl

/-- The main lcore takes a step of a round. -/
theorem attentive_mainStep (h : Underway lcores n job phase ev.lcoreConfig)
    (ha : Assigned lcores n) (hlcores : ev.workerLcores = lcores)
    (hn : ev.numParallelTests = n) (hs : Stage lcores n job round phase ev.main)
    (allocations : Nat → Option (Nat × Nat)) :
    Attentive lcores n (ev.mainStep debug allocations) := by
  subst hlcores hn
  generalize hpc : ev.main = pc at hs
  unfold mainStep
  rw [hpc]
  cases hs with
  | launching k hle hfresh =>
      dsimp only
      unfold Evaluation.launch
      by_cases hk : k < ev.numParallelTests
      · obtain ⟨l, hl, hnone⟩ := exists_lcore_launch h ha rfl hfresh hk
        rw [if_pos hk, hl]
        dsimp only
        split_ifs with hmissing hbusy
        · exact .terminated rfl
        · exact absurd hnone hbusy
        · have hnext : Stage ev.workerLcores ev.numParallelTests job round
              (Function.update phase k .launched)
              (.launching job round (k + 1) (places ev.workerLcores (k + 1))) := by
            refine .launching (k + 1) hk fun idx hidx => ?_
            by_cases hsame : idx = k
            · subst hsame
              simp
            · rw [Function.update_of_ne hsame, hfresh idx hidx]
              omega
          exact .round (h.set ha hk hl rfl) hnext
      · rw [if_neg hk]
        refine .round h (.waiting 0 true (Nat.zero_le _) (fun idx hidx => ?_)
          fun idx hidx => absurd hidx (Nat.not_lt_zero idx))
        rw [Ne, hfresh idx hidx]
        omega
  | waiting k asyncSuccess hle hlaunched hdone =>
      dsimp only
      unfold await
      by_cases hk : k < ev.numParallelTests
      · obtain ⟨l, hl⟩ := ha.exists_lcore hk
        rw [if_pos hk, hl]
        dsimp only
        split_ifs with hbusy
        · exact attentive_round h hpc (.waiting k asyncSuccess hle hlaunched hdone)
        · -- the task is over
          rw [not_not, h.task_eq k hk l hl, Phase.task_eq_none] at hbusy
          have hover := hbusy.resolve_left (hlaunched k hk)
          refine .round h (.waiting (k + 1) _ hk hlaunched fun idx hidx => ?_)
          rcases Nat.lt_succ_iff_lt_or_eq.mp hidx with hlt | rfl
          · exact hdone idx hlt
          · exact hover
      · rw [if_neg hk]
        obtain ⟨hconfig, hbetween, -⟩ := ev.endRound_eq debug job round asyncSuccess allocations
        refine attentive_betweenRounds (fun l => ?_) hbetween
        rw [hconfig]
        exact h.idle_of_done (fun idx hidx => hdone idx (by omega)) l

/-- When the program has returned, nothing happens any more. -/
theorem step_of_returned {status : Status} (hmain : ev.main = .returned status)
    (hidle : ∀ l, (ev.lcoreConfig l).task = none) {action : Action} :
    ev.step debug action = ev := by
  unfold Evaluation.step
  rw [hmain]
  cases action with
  | main allocations =>
      dsimp only
      rw [Evaluation.mainStep, hmain]
  | worker l env =>
      rcases ev.worker_cases debug l env with ⟨-, he⟩ | ⟨t, ht, -⟩
      · exact he
      · rw [hidle l] at ht
        cases ht

/-- **Step lemma**: whatever happens, the main lcore keeps track of its tasks. -/
theorem Attentive.step (h : Attentive lcores n ev) (ha : Assigned lcores n)
    (hlcores : ev.workerLcores = lcores) (hn : ev.numParallelTests = n) (action : Action) :
    Attentive lcores n (ev.step debug action) := by
  cases h with
  | round hunderway hstage =>
      unfold Evaluation.step
      split
      · next fault hfault => exact .terminated hfault
      · cases action with
        | main allocations => exact attentive_mainStep hunderway ha hlcores hn hstage allocations
        | worker l env => exact attentive_worker hunderway ha hstage
  | returned hmain hidle =>
      rw [step_of_returned hmain hidle]
      exact .returned hmain hidle
  | terminated hmain =>
      unfold Evaluation.step
      rw [hmain]
      exact .terminated hmain

/-- **Run lemma.** -/
theorem Attentive.run {actions : List Action} (ha : Assigned lcores n) :
    ∀ {ev : Evaluation}, Attentive lcores n ev → ev.workerLcores = lcores →
      ev.numParallelTests = n →
      Attentive lcores n (Runs.run (Evaluation.step debug) ev actions) := by
  induction actions with
  | nil => exact fun h _ _ => h
  | cons action actions ih =>
      intro ev h hlcores hn
      have hsetting := ev.step_setting debug action
      exact ih (h.step ha hlcores hn action)
        ((congrArg Setting.workerLcores hsetting).trans hlcores)
        ((congrArg Setting.numParallelTests hsetting).trans hn)

/-- **No task outlives its round.**  Whatever the devices answer and in whichever
order the lcores take their steps: a task is launched on an lcore in the `WAIT`
state; as long as an lcore has a task, the main lcore is in the round that has
launched it, and its parameters exist; when `EvaluateAsync` has returned, all
lcores are in the `WAIT` state. -/
theorem waits_for_all_tasks {ev : Evaluation} {job : Job} {round : Nat}
    (ha : Assigned ev.workerLcores ev.numParallelTests)
    (hidle : ∀ l, (ev.lcoreConfig l).task = none)
    (hmain : ev.main = .launching job round 0 ⟨0, 0⟩) (debug : Bool) (actions : List Action) :
    let later := Runs.run (step debug) ev actions
    (∀ job round idx place, later.main = .launching job round idx place →
        idx < ev.numParallelTests →
        ∃ l, lcoreAt ev.workerLcores place = some l ∧ (later.lcoreConfig l).task = none) ∧
      (∀ l t, (later.lcoreConfig l).task = some t →
        (∃ fault, later.main = .terminated fault) ∨
          t.test < ev.numParallelTests ∧ t.place = places ev.workerLcores t.test ∧
            lcoreAt ev.workerLcores t.place = some l ∧
            ((∃ round idx place, later.main = .launching t.job round idx place ∧ t.test < idx) ∨
              ∃ round idx place asyncSuccess,
                later.main = .waiting t.job round idx place asyncSuccess ∧ idx ≤ t.test)) ∧
      ∀ status, later.main = .returned status → ∀ l, (later.lcoreConfig l).task = none := by
  intro later
  have h : Attentive ev.workerLcores ev.numParallelTests later :=
    Attentive.run ha (attentive_betweenRounds hidle (hmain ▸ ⟨rfl, rfl⟩)) rfl rfl
  cases h with
  | @round job round phase hunderway hstage =>
      generalize later.main = pc at hstage ⊢
      refine ⟨fun job' round' idx place he hidx => ?_, fun l t ht => Or.inr ?_,
        fun status he => ?_⟩
      · subst he
        cases hstage with
        | launching _ hle hfresh =>
            obtain ⟨l, hl⟩ := ha.exists_lcore hidx
            refine ⟨l, hl, ?_⟩
            rw [hunderway.task_eq idx hidx l hl, (hfresh idx hidx).mpr (Nat.le_refl idx)]
            rfl
      · obtain ⟨idx, hidx, hl, htask, hphase⟩ := hunderway.exists_test ht
        rw [htask]
        refine ⟨hidx, rfl, hl, ?_⟩
        have hfresh : phase idx ≠ .fresh := by
          rw [hphase]
          split_ifs <;> simp
        have hdone : phase idx ≠ .done := by
          rw [hphase]
          split_ifs <;> simp
        cases hstage with
        | launching k hle hk =>
            refine Or.inl ⟨round, k, _, rfl, Nat.lt_of_not_le fun hle => hfresh ?_⟩
            exact (hk idx hidx).mpr hle
        | waiting k asyncSuccess hle hlaunched hk =>
            refine Or.inr ⟨round, k, _, asyncSuccess, rfl, Nat.le_of_not_lt fun hlt => hdone ?_⟩
            exact hk idx hlt
      · subst he
        cases hstage
  | returned hmain' hidle' =>
      refine ⟨fun job' round' idx place he => ?_, fun l t ht => ?_, fun _ _ => hidle'⟩
      · rw [he] at hmain'
        cases hmain'
      · rw [hidle' l] at ht
        cases ht
  | terminated hmain' =>
      refine ⟨fun job' round' idx place he => ?_, fun l t ht => Or.inl ⟨_, hmain'⟩,
        fun status he => ?_⟩
      all_goals
        rw [he] at hmain'
        cases hmain'

theorem waits_for_all_tasks_sample :
    let later := Runs.run (step true) sampleEvaluation (sampleActions.take 9)
    (later.lcoreConfig 2).task = some ⟨.compress, 1, ⟨1, 0⟩, true⟩ ∧
      ((∃ fault, later.main = .terminated fault) ∨
        1 < 2 ∧ (⟨1, 0⟩ : Place) = places [[1], [2]] 1 ∧ lcoreAt [[1], [2]] ⟨1, 0⟩ = some 2 ∧
          ((∃ round idx place, later.main = .launching .compress round idx place ∧ 1 < idx) ∨
            ∃ round idx place asyncSuccess,
              later.main = .waiting .compress round idx place asyncSuccess ∧ idx ≤ 1)) := by
  have htask : ((Runs.run (step true) sampleEvaluation (sampleActions.take 9)).lcoreConfig 2).task =
      some ⟨.compress, 1, ⟨1, 0⟩, true⟩ := by decide +kernel
  have hassigned : Assigned [[1], [2]] 2 :=
    ⟨⟨by decide, by decide, by decide⟩, by decide, by decide⟩
  exact ⟨htask, (@waits_for_all_tasks sampleEvaluation .compress 0 hassigned (fun _ => rfl) rfl true
    (sampleActions.take 9)).2.1 2 _ htask⟩

end Attentive

end Evaluation

end Bitar
