import Bitar.Sessions

/-!
# The error counts of a device

An empty burst may mean that the device fails.  `GetErrorCount` looks at the
statistics of the device at every tenth empty burst.  It counts the empty bursts
in a static variable, which all queue pairs of all devices share, and it takes
any error since the device was started for one of the burst at hand.

**Results.**
* `run_counter`: what a session does to the counter.
* `undisturbed_iff`: a queue pair sees what it would see alone exactly if there
  is no other one.
* `no_spurious_failure`: no failure without an error, as long as the statistics
  are read only in calls that have begun with counts of zero.
-/

namespace Bitar

/-- A call of `GetErrorCount` for a queue pair, whose device reports `stats`. -/
structure ErrorCheck (Q : Type) where
  queuePair : Q
  numBurstedOps : Nat
  stats : Stats
deriving DecidableEq

namespace ErrorCheck

variable {Q : Type}

/-- The static counter after the call. -/
def next (numMaybeNotOk : Nat) (check : ErrorCheck Q) : Nat :=
  (getErrorCount numMaybeNotOk check.numBurstedOps check.stats).2

def result (numMaybeNotOk : Nat) (check : ErrorCheck Q) : Nat :=
  (getErrorCount numMaybeNotOk check.numBurstedOps check.stats).1

/-- The result, if the call is one for the queue pair `q`. -/
def seenBy [DecidableEq Q] (q : Q) (numMaybeNotOk : Nat) (check : ErrorCheck Q) : List Nat :=
  if check.queuePair = q then [check.result numMaybeNotOk] else []

/-- The calls for the queue pair `q`: its burst sizes, and what its device reports. -/
def own [DecidableEq Q] (q : Q) (checks : List (ErrorCheck Q)) : List (ErrorCheck Q) :=
  checks.filter fun check => check.queuePair = q

/-- The results for the queue pair `q`, from the start of the program. -/
def seen [DecidableEq Q] (q : Q) (checks : List (ErrorCheck Q)) : List Nat :=
  Runs.collect next (seenBy q) 0 checks

/-- The call looks at the statistics: this is a tenth empty burst. -/
def Reads (numMaybeNotOk : Nat) (check : ErrorCheck Q) : Prop :=
  check.numBurstedOps = 0 ∧ (numMaybeNotOk + 1) % 4294967296 % kNumIgnoredMaybeNotOKBurst = 0

instance (numMaybeNotOk : Nat) (check : ErrorCheck Q) : Decidable (check.Reads numMaybeNotOk) :=
  inferInstanceAs (Decidable (_ ∧ _))

/-- An empty burst on a device that reports an error. -/
def Failing (check : ErrorCheck Q) : Prop :=
  check.numBurstedOps = 0 ∧ (0 < check.stats.enqueueErrCount ∨ 0 < check.stats.dequeueErrCount)

end ErrorCheck

/-! ## The calls in a session -/

namespace Machine

variable {st : Machine} {env : Env}

/-- The burst size and the statistics in the next step. -/
def errorCheck (st : Machine) (env : Env) : Option (Nat × Stats) :=
  match st.pc with
  | .enqueue numOpsAssembled => some (min env.numAccepted (toUInt16 numOpsAssembled), env.stats)
  | .dequeue => some (st.numDequeued env, env.stats)
  | .drain => some (st.numDequeued env, env.stats)
  | _ => none

theorem fail_counter (st : Machine) (code : StatusCode) (message : String) :
    (st.fail code message).numMaybeNotOk = st.numMaybeNotOk := by
  unfold fail
  cases st.call <;> rfl

theorem drainOrFinish_counter (st : Machine) :
    st.drainOrFinish.numMaybeNotOk = st.numMaybeNotOk := by
  unfold drainOrFinish finish
  split_ifs
  · rfl
  · cases st.call <;> rfl

theorem assembleFrom_counter (st : Machine) (env : Env) :
    (st.assembleFrom env).1.numMaybeNotOk = st.numMaybeNotOk := by
  unfold assembleFrom
  cases st.call <;> rfl

theorem processBurst_counter (debug : Bool) :
    ∀ (os : List Nat) (st : Machine),
      (processBurst debug os st).1.numMaybeNotOk = st.numMaybeNotOk
  | [], _ => rfl
  | o :: os, st => by
      unfold processBurst
      split_ifs
      · rfl
      · dsimp only
        split
        · exact processBurst_counter debug os _
        · rfl

/-- The counter after a burst, and the burst's code when the count is positive. -/
theorem enqueueBurst_counter (st : Machine) (env : Env) (n : Nat) :
    (st.enqueueBurst env n).1.numMaybeNotOk =
        (getErrorCount st.numMaybeNotOk (min env.numAccepted n) env.stats).2 ∧
      (0 < (getErrorCount st.numMaybeNotOk (min env.numAccepted n) env.stats).1 →
        (st.enqueueBurst env n).2 = .ioError) := by
  unfold enqueueBurst
  dsimp only
  split_ifs with herr
  · exact ⟨rfl, fun _ => rfl⟩
  · exact ⟨rfl, fun h => absurd h herr⟩

theorem dequeueBurst_counter (debug : Bool) (st : Machine) (env : Env) :
    (dequeueBurst debug st env).1.numMaybeNotOk =
        (getErrorCount st.numMaybeNotOk (st.numDequeued env) env.stats).2 ∧
      (0 < (getErrorCount st.numMaybeNotOk (st.numDequeued env) env.stats).1 →
        (dequeueBurst debug st env).2 = .ioError) := by
  unfold dequeueBurst
  dsimp only
  split_ifs with herr
  · exact ⟨rfl, fun _ => rfl⟩
  · exact ⟨processBurst_counter debug _ _, fun h => absurd h herr⟩

/-- How a step goes on after a burst. -/
theorem after_burst {r : Machine × StatusCode} {count counter : Nat}
    (hr : r.1.numMaybeNotOk = counter ∧ (0 < count → r.2 = .ioError)) {next : Machine → Machine}
    (hnext : ∀ s, (next s).numMaybeNotOk = s.numMaybeNotOk) (message : Machine → String) :
    let s := match r with
      | (s, .ok) => next s
      | (s, code) => s.fail code (message s)
    s.numMaybeNotOk = counter ∧
      (0 < count → ∃ text, s.pc = .returned ⟨.ioError, text⟩) := by
  obtain ⟨s, code⟩ := r
  obtain ⟨hcounter, hcode⟩ := hr
  dsimp only at hcounter hcode
  by_cases hok : code = .ok
  · subst hok
    exact ⟨(hnext s).trans hcounter, fun h => absurd (hcode h) (by simp)⟩
  · split
    · next heq => exact absurd (Prod.mk.inj heq).2 hok
    · next heq =>
        obtain ⟨rfl, rfl⟩ := Prod.mk.inj heq
        refine ⟨(fail_counter s code _).trans hcounter, fun h => ⟨message s, ?_⟩⟩
        rw [fail_pc, hcode h]

/-- **Step lemma.**  A step calls `GetErrorCount` once or not at all, and fails if
the count is positive. -/
theorem step_counter (debug : Bool) (st : Machine) (env : Env) :
    (st.errorCheck env = none ∧ (step debug st env).numMaybeNotOk = st.numMaybeNotOk) ∨
    ∃ n, st.errorCheck env = some (n, env.stats) ∧
      (step debug st env).numMaybeNotOk = (getErrorCount st.numMaybeNotOk n env.stats).2 ∧
      (0 < (getErrorCount st.numMaybeNotOk n env.stats).1 →
        ∃ text, (step debug st env).pc = .returned ⟨.ioError, text⟩) := by
  have hdequeue := dequeueBurst_counter debug st env
  have hpc : ∀ (pc : Pc) (s : Machine), { s with pc := pc }.numMaybeNotOk = s.numMaybeNotOk :=
    fun _ _ => rfl
  unfold errorCheck step
  cases st.pc with
  | assemble =>
      refine Or.inl ⟨rfl, ?_⟩
      have hassemble := assembleFrom_counter st env
      dsimp only [assembleStep]
      rw [← hassemble]
      generalize st.assembleFrom env = r
      obtain ⟨s, result⟩ := r
      cases result with
      | ok n =>
          dsimp only
          split_ifs
          · rfl
          · exact drainOrFinish_counter s
      | error code => exact fail_counter s code _
  | enqueue n =>
      exact Or.inr ⟨_, rfl, after_burst (enqueueBurst_counter st env (toUInt16 n)) (hpc .dequeue) _⟩
  | dequeue => exact Or.inr ⟨_, rfl, after_burst hdequeue (hpc .assemble) _⟩
  | drain => exact Or.inr ⟨_, rfl, after_burst hdequeue drainOrFinish_counter _⟩
  | returned status => exact Or.inl ⟨rfl, rfl⟩

end Machine

namespace Session

variable {s : Session}

/-- The call of `GetErrorCount` in an event, if there is one. -/
def checks (s : Session) : Event → List (ErrorCheck Nat)
  | .step queuePairId env =>
      ((s.machine queuePairId).bind fun st => (st.errorCheck env).map fun check =>
        ⟨queuePairId, check.1, check.2⟩).toList
  | _ => []

theorem machine_counter {queuePairId : Nat} {st : Machine} (h : s.machine queuePairId = some st) :
    st.numMaybeNotOk = s.numMaybeNotOk := by
  unfold machine at h
  split at h
  · obtain rfl := Option.some.inj h
    rfl
  · simp at h

/-- What an event does to the static counter. -/
theorem act_counter (debug : Bool) (s : Session) (event : Event) :
    (s.act debug event).numMaybeNotOk =
      Runs.run ErrorCheck.next s.numMaybeNotOk (s.checks event) := by
  cases event with
  | initializeDevice attempt =>
      dsimp only [act]
      cases s.device.initializeDevice s.pool attempt <;> rfl
  | call queuePairId request =>
      dsimp only [act, onQueuePair]
      cases hmachine : s.machine queuePairId with
      | none => rfl
      | some st =>
          have hcounter : st.numMaybeNotOk = s.numMaybeNotOk := machine_counter hmachine
          dsimp only [store, checks]
          rw [Machine.receive_counter]
          exact hcounter
  | step queuePairId env =>
      dsimp only [act, onQueuePair, checks]
      cases hmachine : s.machine queuePairId with
      | none => rfl
      | some st =>
          have hcounter : st.numMaybeNotOk = s.numMaybeNotOk := machine_counter hmachine
          dsimp only [store, Option.bind_some]
          rcases Machine.step_counter debug st env with ⟨hnone, h⟩ | ⟨n, hsome, h, -⟩
          · rw [hnone, h]
            exact hcounter
          · rw [hsome, h, hcounter]
            rfl
  | recycle buffers =>
      dsimp only [act]
      cases s.zones <;> rfl

/-- **Run lemma.**  The calls of `GetErrorCount` make up the counter of a session. -/
theorem run_counter (debug : Bool) (s : Session) (events : List Event) :
    (Runs.run (act debug) s events).numMaybeNotOk =
      Runs.run ErrorCheck.next s.numMaybeNotOk (Runs.collect (act debug) checks s events) := by
  induction events generalizing s with
  | nil => rfl
  | cons event events ih =>
      rw [Runs.run_cons, ih, act_counter, Runs.collect, Runs.run_append]

end Session

/-! ## Several queue pairs -/

namespace ErrorCheck

variable {Q : Type} [DecidableEq Q]

/-- What other queue pairs do makes no difference, and of ten empty bursts in a
row on a failing device one reports the error. -/
structure Undisturbed (Q : Type) [DecidableEq Q] : Prop where
  same : ∀ (q : Q) (checks checks' : List (ErrorCheck Q)),
    own q checks = own q checks' → seen q checks = seen q checks'
  reported : ∀ (q : Q) (checks before streak after : List (ErrorCheck Q)),
    own q checks = before ++ streak ++ after → streak.length = kNumIgnoredMaybeNotOKBurst →
    (∀ check ∈ streak, check.Failing) →
    ∃ count ∈ ((seen q checks).drop before.length).take streak.length, 0 < count

omit [DecidableEq Q] in
theorem failing_next {counter : Nat} {check : ErrorCheck Q} (h : check.Failing) :
    check.next counter = (counter + 1) % 4294967296 ∧
      (((counter + 1) % 4294967296) % kNumIgnoredMaybeNotOKBurst = 0 →
        0 < check.result counter) := by
  obtain ⟨hzero, hstats⟩ := h
  unfold next result getErrorCount
  rw [hzero]
  simp only [Nat.lt_irrefl, if_false]
  split_ifs with hmod henq hdeq
  · exact ⟨rfl, fun h => absurd h hmod⟩
  · exact ⟨rfl, fun _ => henq⟩
  · exact ⟨rfl, fun _ => hdeq⟩
  · rcases hstats with h | h
    · exact absurd h henq
    · exact absurd h hdeq

/-- All results, whoever they are for. -/
def results (counter : Nat) (checks : List (ErrorCheck Q)) : List Nat :=
  Runs.collect next (fun counter check => [check.result counter]) counter checks

omit [DecidableEq Q] in
/-- As long as nothing is reported, the counter goes up and is not looked at. -/
theorem silent_streak {streak : List (ErrorCheck Q)} (hall : ∀ check ∈ streak, check.Failing)
    {counter : Nat} (hsilent : ∀ count ∈ results counter streak, count = 0) :
    ∀ k < streak.length,
      ((counter + k + 1) % 4294967296) % kNumIgnoredMaybeNotOKBurst ≠ 0 := by
  induction streak generalizing counter with
  | nil => intro k hk; simp at hk
  | cons check streak ih =>
      obtain ⟨hnext, hpos⟩ := @failing_next Q counter check (hall check (by simp))
      intro k hk
      cases k with
      | zero =>
          intro hmod
          have := hsilent (check.result counter) (by simp [results, Runs.collect])
          have := hpos hmod
          omega
      | succ k =>
          have hrest : ∀ count ∈ results (check.next counter) streak, count = 0 := fun count hc =>
            hsilent count (by simp [results, Runs.collect]; exact Or.inr hc)
          have h := ih (fun c hc => hall c (by simp [hc])) hrest k (by simpa using hk)
          have he : (check.next counter + k + 1) % 4294967296 =
              (counter + (k + 1) + 1) % 4294967296 := by
            omega
          rwa [he] at h

/-- Among ten values in a row of a counter of 32 bits, one is looked at. -/
theorem looked_at (counter : Nat) :
    ∃ k < kNumIgnoredMaybeNotOKBurst,
      ((counter + k + 1) % 4294967296) % kNumIgnoredMaybeNotOKBurst = 0 := by
  unfold kNumIgnoredMaybeNotOKBurst
  have hadd : ∀ k, counter % 4294967296 + k + 1 < 4294967296 →
      (counter + k + 1) % 4294967296 = counter % 4294967296 + k + 1 := by
    intro k hk
    omega
  by_cases hwrap : counter % 4294967296 + (9 - counter % 4294967296 % 10) + 1 < 4294967296
  · refine ⟨9 - counter % 4294967296 % 10, by omega, ?_⟩
    rw [hadd _ hwrap]
    omega
  · refine ⟨4294967295 - counter % 4294967296, by omega, ?_⟩
    have hzero : (counter + (4294967295 - counter % 4294967296) + 1) % 4294967296 = 0 := by
      omega
    rw [hzero]

omit [DecidableEq Q] in
theorem streak_reported {streak : List (ErrorCheck Q)}
    (hlen : streak.length = kNumIgnoredMaybeNotOKBurst)
    (hall : ∀ check ∈ streak, check.Failing) (counter : Nat) :
    ∃ count ∈ results counter streak, 0 < count := by
  by_contra hnot
  push Not at hnot
  obtain ⟨k, hk, hlook⟩ := looked_at counter
  exact silent_streak hall (fun count hc => Nat.le_zero.mp (hnot count hc)) k (hlen ▸ hk) hlook

/-- The only queue pair there is. -/
theorem undisturbed_alone [Subsingleton Q] : Undisturbed Q := by
  have hown : ∀ (q : Q) (checks : List (ErrorCheck Q)), own q checks = checks := fun q checks =>
    List.filter_eq_self.mpr fun check _ => decide_eq_true (Subsingleton.elim _ _)
  have hseen : ∀ (q : Q) (checks : List (ErrorCheck Q)), seen q checks = results 0 checks := by
    intro q checks
    have hone : seenBy q = fun counter check => [check.result counter] := by
      funext counter check
      exact if_pos (Subsingleton.elim _ _)
    rw [seen, hone]
    rfl
  refine ⟨fun q checks checks' h => ?_, fun q checks before streak after h hlen hall => ?_⟩
  · rw [hown, hown] at h
    rw [h]
  · rw [hown] at h
    subst h
    obtain ⟨count, hmem, hpos⟩ := streak_reported hlen hall (Runs.run next 0 before)
    refine ⟨count, ?_, hpos⟩
    have hbefore : (results 0 before).length = before.length :=
      Runs.length_collect_singleton _ _ _
    have hstreak : (results (Runs.run next 0 before) streak).length = streak.length :=
      Runs.length_collect_singleton _ _ _
    have hsplit : results 0 (before ++ streak ++ after) = results 0 before ++
        (results (Runs.run next 0 before) streak ++
          results (Runs.run next 0 (before ++ streak)) after) := by
      unfold results
      rw [Runs.collect_append, Runs.collect_append, List.append_assoc]
    rw [hseen, hsplit, ← hbefore, List.drop_left, ← hstreak, List.take_left]
    exact hmem

/-- A burst of another queue pair in between hides the error. -/
theorem undisturbed_subsingleton (h : Undisturbed Q) : Subsingleton Q := by
  refine ⟨fun q q' => ?_⟩
  by_contra hne
  have hne' : q' ≠ q := fun e => hne e.symm
  let failing : ErrorCheck Q := ⟨q, 0, ⟨1, 0⟩⟩
  let busy : ErrorCheck Q := ⟨q', 1, ⟨0, 0⟩⟩
  have hsame := h.same q (List.replicate 9 failing ++ [failing])
    (List.replicate 9 failing ++ [busy, failing]) (by simp [own, failing, busy, hne'])
  simp [seen, Runs.collect, List.replicate, seenBy, result, next, getErrorCount,
    kNumIgnoredMaybeNotOKBurst, failing, busy, hne'] at hsame

/-- **Other queues.**  The condition is that there is one queue pair at most, on
all devices together. -/
theorem undisturbed_iff (Q : Type) [DecidableEq Q] : Undisturbed Q ↔ Subsingleton Q :=
  ⟨undisturbed_subsingleton, fun h => @undisturbed_alone Q _ h⟩

/-- Queue pair 0 of device 0 makes ten empty bursts while the device reports an
error, and a queue pair of another device makes a burst after each of them. -/
def sampleChecks : List (ErrorCheck (Nat × Nat)) :=
  (List.replicate 10 [⟨(0, 0), 0, ⟨1, 0⟩⟩, ⟨(1, 0), 1, ⟨0, 0⟩⟩]).flatten

theorem undisturbed_hidden :
    own (0, 0) sampleChecks = List.replicate 10 ⟨(0, 0), 0, ⟨1, 0⟩⟩ ∧
      seen (0, 0) sampleChecks = List.replicate 10 0 ∧
      seen (0, 0) (own (0, 0) sampleChecks) = List.replicate 9 0 ++ [1] ∧
      ¬ Undisturbed (Nat × Nat) := by
  refine ⟨by decide +kernel, by decide +kernel, by decide +kernel, fun h => ?_⟩
  have hone := undisturbed_subsingleton h
  exact absurd (hone.elim (0, 0) (0, 1)) (by decide)

end ErrorCheck

/-! ## One device after an error -/

namespace Session

/-- A session, and the counts of the device when the last call on each queue pair
began. -/
structure Watched where
  session : Session
  began : Nat → Stats := fun _ => {}

/-- An event, and the counts of the device at that time. -/
abbrev Moment := Event × Stats

/-- A call that comes while another one is in progress, and is turned away. -/
def Refuses (s : Session) (queuePairId : Nat) (request : Machine.Request) : Prop :=
  ∃ st ∈ s.machine queuePairId, st.Refuses request

instance (s : Session) (queuePairId : Nat) (request : Machine.Request) :
    Decidable (s.Refuses queuePairId request) :=
  inferInstanceAs (Decidable (∃ st ∈ s.machine queuePairId, _))

def watch (debug : Bool) (w : Watched) (moment : Moment) : Watched where
  session := w.session.act debug moment.1
  began :=
    match moment.1 with
    | .call queuePairId request =>
        if w.session.Refuses queuePairId request then w.began
        else Function.update w.began queuePairId moment.2
    | _ => w.began

/-- The event reports an error, and none has happened since the call began. -/
def Spurious (w : Watched) (moment : Moment) : Prop :=
  ∃ check ∈ w.session.checks moment.1, 0 < check.result w.session.numMaybeNotOk ∧
    check.stats.enqueueErrCount ≤ (w.began check.queuePair).enqueueErrCount ∧
    check.stats.dequeueErrCount ≤ (w.began check.queuePair).dequeueErrCount

instance (w : Watched) (moment : Moment) : Decidable (Spurious w moment) :=
  inferInstanceAs (Decidable (∃ check ∈ w.session.checks moment.1, _ ∧ _ ∧ _))

/-- The statistics are read only in a call that has begun while the device had not
counted any error. -/
def ReadsClean (w : Watched) (moment : Moment) : Prop :=
  ∀ check ∈ w.session.checks moment.1, check.Reads w.session.numMaybeNotOk →
    w.began check.queuePair = {}

instance (w : Watched) (moment : Moment) : Decidable (ReadsClean w moment) :=
  inferInstanceAs (Decidable (∀ check ∈ w.session.checks moment.1, _ → _))

/-- A call begins while the device has not counted any error. -/
def BeginsClean (_ : Watched) (moment : Moment) : Prop :=
  match moment.1 with
  | .call _ _ => moment.2 = {}
  | _ => True

/-- Calls in progress have begun with counts of zero. -/
def Clean (w : Watched) : Prop :=
  ∀ queuePairId, (∀ status, (w.session.lanes queuePairId).pc ≠ .returned status) →
    w.began queuePairId = {}

section Clean

variable {s : Session}

theorem result_pos {Q : Type} {check : ErrorCheck Q} {counter : Nat} :
    0 < check.result counter ↔
      check.Reads counter ∧
        (0 < check.stats.enqueueErrCount ∨ 0 < check.stats.dequeueErrCount) := by
  unfold ErrorCheck.result ErrorCheck.Reads getErrorCount
  dsimp only
  split_ifs with hburst htenth henq hdeq <;> simp <;> omega

/-- Errors that are read in a call that has begun without any are new. -/
theorem ReadsClean.not_spurious {w : Watched} {moment : Moment} (h : ReadsClean w moment) :
    ¬ Spurious w moment := by
  rintro ⟨check, hmem, hpos, henq, hdeq⟩
  obtain ⟨hreads, hcounted⟩ := result_pos.mp hpos
  rw [h check hmem hreads] at henq hdeq
  exact hcounted.elim (Nat.not_lt.mpr henq) (Nat.not_lt.mpr hdeq)

theorem machine_pc {queuePairId : Nat} {st : Machine} (h : s.machine queuePairId = some st) :
    st.pc = (s.lanes queuePairId).pc := by
  unfold machine at h
  split at h
  · obtain rfl := Option.some.inj h
    rfl
  · simp at h

/-- `GetErrorCount` is called for calls in progress only. -/
theorem mem_checks {event : Event} {check : ErrorCheck Nat} (h : check ∈ s.checks event)
    (status : Status) : (s.lanes check.queuePair).pc ≠ .returned status := by
  cases event with
  | step queuePairId env =>
      dsimp only [checks] at h
      rw [Option.mem_toList, Option.bind_eq_some_iff] at h
      obtain ⟨st, hmachine, h⟩ := h
      obtain ⟨pair, hcheck, rfl⟩ := Option.map_eq_some_iff.mp h
      intro hreturned
      rw [← machine_pc hmachine] at hreturned
      simp [Machine.errorCheck, hreturned] at hcheck
  | initializeDevice attempt => simp [checks] at h
  | call queuePairId request => simp [checks] at h
  | recycle buffers => simp [checks] at h

/-- A lane that is not touched, or whose call has returned, stays as it is. -/
theorem act_lanes (debug : Bool) (s : Session) {event : Event} {queuePairId : Nat}
    (hevent : ∀ request, event ≠ .call queuePairId request) {status : Status}
    (h : (s.lanes queuePairId).pc = .returned status) :
    ((s.act debug event).lanes queuePairId).pc = .returned status := by
  cases event with
  | initializeDevice attempt =>
      dsimp only [act]
      cases s.device.initializeDevice s.pool attempt <;> exact h
  | call queuePairId' request =>
      have hne : queuePairId ≠ queuePairId' := fun e => hevent request (by rw [e])
      dsimp only [act, onQueuePair]
      cases s.machine queuePairId' with
      | none => exact h
      | some st =>
          dsimp only [store]
          rw [Function.update_of_ne hne]
          exact h
  | step queuePairId' env =>
      dsimp only [act, onQueuePair]
      cases hmachine : s.machine queuePairId' with
      | none => exact h
      | some st =>
          dsimp only [store]
          by_cases hq : queuePairId = queuePairId'
          · subst hq
            have hpc : st.pc = .returned status := (machine_pc hmachine).trans h
            rw [Function.update_self, Machine.step_returned hpc]
            exact hpc
          · rw [Function.update_of_ne hq]
            exact h
  | recycle buffers =>
      dsimp only [act]
      cases s.zones <;> exact h

theorem Clean.watch {w : Watched} (h : Clean w) (debug : Bool) {moment : Moment}
    (hbegins : BeginsClean w moment) : Clean (watch debug w moment) := by
  obtain ⟨event, stats⟩ := moment
  intro queuePairId hbusy
  by_cases hcall : ∃ request, event = .call queuePairId request
  · obtain ⟨request, rfl⟩ := hcall
    dsimp only [Session.watch]
    split_ifs with hrefuses
    · -- the call in progress is the one that was in progress before
      obtain ⟨st, hst, hnone, -⟩ := hrefuses
      refine h queuePairId fun status hreturned => ?_
      rw [Machine.result_eq_some.mpr ((machine_pc hst).trans hreturned)] at hnone
      cases hnone
    · rw [Function.update_self]
      exact hbegins
  · have hbefore := h queuePairId fun status hreturned =>
      hbusy status (act_lanes debug w.session (fun request e => hcall ⟨request, e⟩) hreturned)
    dsimp only [Session.watch]
    split
    · next queuePairId' request =>
        have hne : queuePairId ≠ queuePairId' := fun e => hcall ⟨request, by rw [e]⟩
        split_ifs
        · exact hbefore
        · rw [Function.update_of_ne hne]
          exact hbefore
    · exact hbefore

/-- It is enough that calls begin while the device has not counted any error. -/
theorem readsClean_of_beginsClean {debug : Bool} {w : Watched} (h : Clean w)
    {moments : List Moment} (hbegins : Runs.Along (watch debug) BeginsClean w moments) :
    Runs.Along (watch debug) ReadsClean w moments := by
  induction moments generalizing w with
  | nil => trivial
  | cons moment moments ih =>
      exact ⟨fun check hmem _ => h check.queuePair (mem_checks hmem),
        ih (h.watch debug hbegins.1) hbegins.2⟩

/-- On a device on which no call is in progress. -/
theorem clean_of_idle {session : Session} {began : Nat → Stats}
    (hidle : ∀ queuePairId, ∃ status, (session.lanes queuePairId).pc = .returned status) :
    Clean ⟨session, began⟩ := by
  intro queuePairId hbusy
  obtain ⟨status, hstatus⟩ := hidle queuePairId
  exact absurd hstatus (hbusy status)

end Clean

/-- **No spurious failure.**  Anything happens on a device, but the statistics are
read only in calls that have begun while the device had not counted any error.
Then every burst that fails because of the counts does so after an error in its
call. -/
theorem no_spurious_failure (debug : Bool) (w : Watched) (moments : List Moment)
    (hreads : Runs.Along (watch debug) ReadsClean w moments) :
    Runs.Along (watch debug) (fun w moment => ¬ Spurious w moment) w moments :=
  hreads.imp fun _ _ h => h.not_spurious

/-- A step on queue pair 0 in which the device does nothing, the counts being
those of an error long ago. -/
def sampleIdleStep : Moment :=
  (.step 0 { stats := ⟨1, 0⟩ }, ⟨1, 0⟩)

/-- `Compress` on eight bytes: one operation is assembled, and for a while the
device accepts nothing. -/
def sampleMoments (count : Stats) : List Moment :=
  (.call 0 (.compress (some ⟨⟨.host 1, 0⟩, 8⟩)), count) ::
    (.step 0 { bulk := ⟨some [0], some [0, 1]⟩, stats := ⟨1, 0⟩ }, ⟨1, 0⟩) ::
      List.replicate 13 sampleIdleStep

/-- Ten empty bursts in a call that has begun without errors, and nine in a call that
has begun with one. -/
theorem no_spurious_failure_sample :
    Runs.Along (watch false) (fun w moment => ¬ Spurious w moment) ⟨sampleSession, fun _ => {}⟩
        (sampleMoments {} ++ [sampleIdleStep]) ∧
      Runs.Along (watch false) (fun w moment => ¬ Spurious w moment) ⟨sampleSession, fun _ => {}⟩
        (sampleMoments ⟨1, 0⟩) :=
  ⟨no_spurious_failure false _ _ (readsClean_of_beginsClean (clean_of_idle fun _ => ⟨.success, rfl⟩)
      (by simp [sampleMoments, sampleIdleStep, Runs.Along, BeginsClean, List.replicate])),
    no_spurious_failure false _ _ (by decide +kernel)⟩

/-- The error happened before the call, and the tenth empty burst fails. -/
theorem no_spurious_failure_old_error :
    (∀ moment ∈ sampleMoments ⟨1, 0⟩ ++ [sampleIdleStep], moment.2 = ⟨1, 0⟩) ∧
      Spurious (Runs.run (watch false) ⟨sampleSession, fun _ => {}⟩ (sampleMoments ⟨1, 0⟩))
        sampleIdleStep ∧
      ((Runs.run (watch false) ⟨sampleSession, fun _ => {}⟩
        (sampleMoments ⟨1, 0⟩ ++ [sampleIdleStep])).session.lanes 0).pc = .returned
          ⟨.ioError, "Failed to dequeue compression operations from compress device 0 via queue pair 0"⟩ :=
  ⟨by decide +kernel, by decide +kernel, by decide +kernel⟩

end Session

end Bitar
