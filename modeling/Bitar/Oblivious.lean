import Bitar.Steps

/-!
# The library does not look at the data

The contents of memory matter to the device only.  Two queue pairs that differ
in nothing but the contents of memory take the same steps when the environment
answers the same.

**Results.**
* `step_withMemory`: the step lemma.
* `run_withMemory`, `completed_withMemory`: whole runs, and what the device does
  in them.
-/

namespace Bitar

open BlockStore

namespace Machine

/-- The same queue pair with other contents of memory. -/
def withMemory (st : Machine) (memory : Memory) : Machine :=
  { st with memory := memory }

/-- The jobs that the device does in a dequeue. -/
def jobs (st : Machine) (env : Env) : List (List (Span Block) × List UInt8) :=
  (st.finished env).map fun p => ((st.qp.ops p.1).destination, p.2.written (st.qp.ops p.1))

/-- The jobs that are found to be done in a step. -/
def completed (st : Machine) (env : Env) : List (List (Span Block) × List UInt8) :=
  match st.pc with
  | .dequeue | .drain => st.jobs env
  | _ => []

section

variable (st : Machine) (memory : Memory) (env : Env) (debug : Bool)

@[simp] theorem withMemory_pc : (st.withMemory memory).pc = st.pc := rfl

@[simp] theorem withMemory_call : (st.withMemory memory).call = st.call := rfl

@[simp] theorem withMemory_completed : (st.withMemory memory).completed env = st.completed env :=
  rfl

theorem assembleFrom_withMemory :
    (st.withMemory memory).assembleFrom env =
      ((st.assembleFrom env).1.withMemory memory, (st.assembleFrom env).2) := by
  unfold assembleFrom withMemory
  cases st.call <;> rfl

theorem drainOrFinish_withMemory :
    (st.withMemory memory).drainOrFinish = st.drainOrFinish.withMemory memory := by
  unfold drainOrFinish finish withMemory
  cases st.call <;> dsimp only <;> split <;> rfl

theorem fail_withMemory (code : StatusCode) (message : String) :
    (st.withMemory memory).fail code message = (st.fail code message).withMemory memory := by
  obtain ⟨_, _, _, _, _, _, _, _, _, _, call, _⟩ := st
  cases call <;> rfl

theorem enqueueBurst_withMemory (n : Nat) :
    (st.withMemory memory).enqueueBurst env n =
      ((st.enqueueBurst env n).1.withMemory memory, (st.enqueueBurst env n).2) := by
  unfold enqueueBurst
  dsimp only [withMemory]
  by_cases herr : 0 < (getErrorCount st.numMaybeNotOk (min env.numAccepted n) env.stats).1
  · rw [if_pos herr, if_pos herr]
  · rw [if_neg herr, if_neg herr]

theorem foldl_complete_withMemory :
    ∀ (ps : List (Nat × OpResult)) (st : Machine) (memory : Memory),
      ∃ memory', ps.foldl (fun st p => st.complete p.1 p.2) (st.withMemory memory) =
        (ps.foldl (fun st p => st.complete p.1 p.2) st).withMemory memory'
  | [], _, memory => ⟨memory, rfl⟩
  | p :: ps, st, memory =>
      foldl_complete_withMemory ps (st.complete p.1 p.2)
        (scatter memory (st.qp.ops p.1).destination (p.2.written (st.qp.ops p.1)))

theorem handBack_withMemory :
    ∃ memory', (st.withMemory memory).handBack env = (st.handBack env).withMemory memory' := by
  obtain ⟨memory', h⟩ := foldl_complete_withMemory
    ((st.queue.take (st.numDequeued env)).zip env.results) st memory
  refine ⟨memory', ?_⟩
  unfold handBack
  simp only [show (st.withMemory memory).queue = st.queue from rfl,
    show (st.withMemory memory).numDequeued env = st.numDequeued env from rfl, h]
  rfl

theorem processBurst_withMemory :
    ∀ (bs : List Nat) (st : Machine),
      processBurst debug bs (st.withMemory memory) =
        ((processBurst debug bs st).1.withMemory memory, (processBurst debug bs st).2)
  | [], _ => rfl
  | op :: bs, st => by
      unfold processBurst
      simp only [show (st.withMemory memory).qp = st.qp from rfl]
      by_cases hs : (st.qp.ops op).status = .success
      · rw [if_neg (not_not.mpr hs), if_neg (not_not.mpr hs)]
        cases hrec : st.qp.recycleResources debug op with
        | mk qp code =>
            cases code
            · exact processBurst_withMemory bs
                { st with
                  call := st.call.dequeueCallback (st.qp.ops op)
                  qp := qp }
            all_goals rfl
      · rw [if_pos hs, if_pos hs]

theorem dequeueBurst_withMemory :
    ∃ memory', dequeueBurst debug (st.withMemory memory) env =
      ((dequeueBurst debug st env).1.withMemory memory', (dequeueBurst debug st env).2) := by
  obtain ⟨memory', h⟩ := st.handBack_withMemory memory env
  refine ⟨memory', ?_⟩
  unfold dequeueBurst
  simp only [h, show (st.withMemory memory).numDequeued env = st.numDequeued env from rfl,
    show (st.withMemory memory).numMaybeNotOk = st.numMaybeNotOk from rfl]
  split_ifs
  · rfl
  · exact processBurst_withMemory memory' debug _
      { st.handBack env with
        numMaybeNotOk :=
          (getErrorCount st.numMaybeNotOk (st.numDequeued env) env.stats).2 }

theorem assembleStep_withMemory :
    (st.withMemory memory).assembleStep env = (st.assembleStep env).withMemory memory := by
  unfold assembleStep
  rw [assembleFrom_withMemory]
  cases st.assembleFrom env with
  | mk st' result =>
      cases result with
      | error code => exact fail_withMemory ..
      | ok n =>
          dsimp only
          split_ifs
          · rfl
          · exact drainOrFinish_withMemory ..

theorem enqueueStep_withMemory (n : Nat) :
    (st.withMemory memory).enqueueStep env n = (st.enqueueStep env n).withMemory memory := by
  unfold enqueueStep
  rw [enqueueBurst_withMemory]
  cases st.enqueueBurst env (toUInt16 n) with
  | mk st' code =>
      cases code
      · rfl
      all_goals exact fail_withMemory ..

theorem dequeueStep_withMemory :
    ∃ memory', dequeueStep debug (st.withMemory memory) env =
      (dequeueStep debug st env).withMemory memory' := by
  obtain ⟨memory', h⟩ := st.dequeueBurst_withMemory memory env debug
  refine ⟨memory', ?_⟩
  unfold dequeueStep
  rw [h]
  cases dequeueBurst debug st env with
  | mk st' code =>
      cases code
      · rfl
      all_goals exact fail_withMemory ..

theorem drainStep_withMemory :
    ∃ memory', drainStep debug (st.withMemory memory) env =
      (drainStep debug st env).withMemory memory' := by
  obtain ⟨memory', h⟩ := st.dequeueBurst_withMemory memory env debug
  refine ⟨memory', ?_⟩
  unfold drainStep
  rw [h]
  cases dequeueBurst debug st env with
  | mk st' code =>
      cases code
      · exact drainOrFinish_withMemory ..
      all_goals exact fail_withMemory ..

/-- **Step lemma.** -/
theorem step_withMemory :
    ∃ memory', step debug (st.withMemory memory) env = (step debug st env).withMemory memory' := by
  unfold step
  rw [withMemory_pc]
  cases st.pc with
  | assemble => exact ⟨memory, assembleStep_withMemory ..⟩
  | enqueue n => exact ⟨memory, enqueueStep_withMemory ..⟩
  | dequeue => exact st.dequeueStep_withMemory memory env debug
  | drain => exact st.drainStep_withMemory memory env debug
  | returned status => exact ⟨memory, rfl⟩

end

/-- Equal but for the contents of memory. -/
def SameButMemory (st st' : Machine) : Prop :=
  ∃ memory, st' = st.withMemory memory

theorem SameButMemory.step (debug : Bool) (st st' : Machine) (env : Env)
    (h : st.SameButMemory st') :
    (Machine.step debug st env).SameButMemory (Machine.step debug st' env) := by
  obtain ⟨memory, rfl⟩ := h
  exact st.step_withMemory memory env debug

/-- **Whole runs.** -/
theorem run_withMemory (debug : Bool) (st : Machine) (memory : Memory) (envs : List Env) :
    ∃ memory', Runs.run (step debug) (st.withMemory memory) envs =
      (Runs.run (step debug) st envs).withMemory memory' :=
  Runs.run_related (SameButMemory.step debug) ⟨memory, rfl⟩ envs

theorem collect_completed_withMemory (debug : Bool) (st : Machine) (memory : Memory)
    (envs : List Env) :
    Runs.collect (step debug) completed (st.withMemory memory) envs =
      Runs.collect (step debug) completed st envs := by
  refine (Runs.collect_related (R := SameButMemory) (SameButMemory.step debug) ?_
    ⟨memory, rfl⟩ envs).symm
  rintro s t env ⟨memory', rfl⟩
  rfl

end Machine

end Bitar
