import Bitar.BlueFieldDevices
import Bitar.SyncEvaluation

/-!
# `Evaluate`

The program gets its devices, runs `EvaluateSync` on the first of them and then
`EvaluateAsync` on all of them.

**Results.**
* `Prepared.set`: what one of the devices has done leaves the devices prepared.
* `Sound.step`: the step lemma.
* `evaluate_ok`: whenever nothing fails, the program finds that both outputs are the
  input.
-/

namespace Bitar

open Session

/-- `Evaluate` in the middle of its work. -/
inductive Program
  | sync (numParallelTests numDevices : Nat) (devices : Devices) (ev : SyncEvaluation)
  | async (ev : Evaluation)
  | returned (status : Status)
  | terminated (fault : Fault)

/-- What happens in a step; `segments` are the blocks for the segments of
`EvaluateAsync`. -/
structure ProgramAnswer where
  sync : SyncAnswer := {}
  segments : Nat → Option Nat := fun _ => none
  async : Evaluation.Action := .main fun _ => none

namespace Program

/-- `Evaluate` up to the call of `EvaluateSync`. -/
def begin (l : Lcores) (found : List UInt8) (bus : PCIBus) (fuel : Nat) (inputBuffer : Buffer)
    (attempts : Nat → Attempt) (pool : MemzonePool) (memory : Memory) : Option Program :=
  (getBlueFieldCompressDevices l found bus fuel inputBuffer.size attempts pool memory).map fun
    | .error (.status status) => .returned status
    | .error (.fault fault) => .terminated fault
    | .ok (numDevices, devices) =>
        if l.numParallelTests < numDevices then
          .returned (.invalid
            s!"Require the # of lcores >= # of devices ({numDevices}) + 1 for the test\n")
        else .sync l.numParallelTests numDevices devices (.begin (devices 0) inputBuffer)

/-- The next step.  No function has been launched before `EvaluateAsync`. -/
def step (debug : Bool) (program : Program) (answer : ProgramAnswer) : Program :=
  match program with
  | .sync numParallelTests numDevices devices ev =>
      match ev.pc with
      | .returned status =>
          if status.code ≠ .ok then .returned status
          else
            .async (.begin numParallelTests numDevices (devices.set 0 ev.device)
              (ev.inputBuffer.bytes ev.device.memory) (fun _ => {}) answer.segments)
      | .terminated fault => .terminated fault
      | _ => .sync numParallelTests numDevices devices (ev.step debug answer.sync)
  | .async ev =>
      match ev.main with
      | .returned status => .returned status
      | .terminated fault => .terminated fault
      | _ => .async (ev.step debug answer.async)
  | .returned status => .returned status
  | .terminated fault => .terminated fault

/-- The devices do what they are asked to do, with `enc`; the allocations succeed, and
give out blocks of their own. -/
def Clean (enc : List UInt8 → List UInt8) (debug : Bool) (program : Program)
    (answer : ProgramAnswer) : Prop :=
  match program with
  | .sync numParallelTests _ _ ev =>
      ev.Clean enc debug answer.sync ∧
        ((∃ status, ev.pc = .returned status) → ∀ i < numParallelTests,
          (answer.segments i).isSome ∧
            ∀ j < numParallelTests, i ≠ j → answer.segments i ≠ answer.segments j)
  | .async ev => ev.Clean enc debug answer.async
  | _ => True

end Program

/-- What one of the devices has done leaves the devices prepared. -/
theorem Evaluation.Prepared.set {cfg : Nat → Configuration} {numDevices d : Nat}
    {devices : Devices} {s : Session} (h : Evaluation.Prepared cfg numDevices devices)
    (hd : d < numDevices) (hrest : ∃ zones, AtRest (cfg d) zones s)
    (hproceeds : (devices d).Proceeds s) :
    Evaluation.Prepared cfg numDevices (devices.set d s) := by
  have helse : ∀ d' ≠ d, Elsewhere (fun _ => False) (devices d') (devices.set d s d') := by
    intro d' hne
    rw [Devices.set_of_ne hne]
    exact ⟨rfl, rfl, hproceeds.grows, fun _ hb => hb.elim⟩
  refine ⟨fun d' hd' => ?_, fun d' hd' => ?_, fun d' hd' => ?_,
    h.apart.set hd (fun d' hd' z hz => ?_) hproceeds.holds⟩
  · by_cases hsame : d' = d
    · rw [hsame, Devices.set_self]
      exact hrest
    · obtain ⟨zones, hrest'⟩ := h.atRest d' hd'
      exact ⟨_, hrest'.elsewhere (helse d' hsame)⟩
  · by_cases hsame : d' = d
    · rw [hsame, Devices.set_self]
      exact hproceeds.state_eq.trans (h.started d hd)
    · rw [(helse d' hsame).device_eq]
      exact h.started d' hd'
  · by_cases hsame : d' = d
    · rw [hsame, Devices.set_self, hproceeds.deviceId_eq]
      exact h.deviceId_eq d hd
    · rw [(helse d' hsame).device_eq]
      exact h.deviceId_eq d' hd'
  · obtain ⟨zones, hrest'⟩ := h.atRest d' hd'
    exact hrest'.inService.mem_allocated hz

namespace Program

/-- The invariant. -/
inductive Sound (enc : List UInt8 → List UInt8) (cfg : Nat → Configuration) : Program → Prop
  | sync {n numDevices : Nat} {devices : Devices} {ev : SyncEvaluation} {input : Buffer}
      {data : List UInt8} (hpos : 0 < numDevices)
      (hprepared : Evaluation.Prepared cfg numDevices devices)
      (hsuited : Suited enc cfg
        ((List.range numDevices).map fun d => (devices d).device.workerLcores) n)
      (haccepted : Accepted (cfg 0)) (hfirst : SyncEvaluation.Suited enc (cfg 0) input)
      (hsound : ev.Sound enc (cfg 0) (devices 0) input data) :
      Sound enc cfg (.sync n numDevices devices ev)
  | async {ev : Evaluation} {setting : Evaluation.Setting}
      (hsuited : Suited enc cfg setting.workerLcores setting.numParallelTests)
      (hsound : ev.Sound enc cfg setting) : Sound enc cfg (.async ev)
  | returned : Sound enc cfg (.returned .success)

section Run

variable {enc : List UInt8 → List UInt8} {cfg : Nat → Configuration} {debug : Bool}
  {answer : ProgramAnswer} {program : Program}

/-- `EvaluateSync` has returned. -/
theorem Sound.beginAsync {n numDevices : Nat} {devices : Devices} {ev : SyncEvaluation}
    {input : Buffer} {data : List UInt8} (hpos : 0 < numDevices)
    (hprepared : Evaluation.Prepared cfg numDevices devices)
    (hsuited : Suited enc cfg
      ((List.range numDevices).map fun d => (devices d).device.workerLcores) n)
    (haccepted : Accepted (cfg 0)) (hsound : ev.Sound enc (cfg 0) (devices 0) input data)
    {status : Status} (hpc : ev.pc = .returned status) {segments : Nat → Option Nat}
    (hsegments : ∀ i < n, (segments i).isSome ∧ ∀ j < n, i ≠ j → segments i ≠ segments j)
    (contents : List UInt8) :
    Sound enc cfg (.async (.begin n numDevices (devices.set 0 ev.device) contents (fun _ => {})
      segments)) := by
  obtain ⟨-, hrest, hproceeds, -⟩ := (hsound.outcome haccepted).2 status hpc
  have hprepared' := hprepared.set hpos hrest hproceeds
  have hlcores : ((List.range numDevices).map fun d =>
      (devices.set 0 ev.device d).device.workerLcores) =
        (List.range numDevices).map fun d => (devices d).device.workerLcores := by
    refine List.map_congr_left fun d _ => ?_
    by_cases hsame : d = 0
    · rw [hsame, Devices.set_self]
      exact hproceeds.workerLcores_eq
    · rw [Devices.set_of_ne hsame]
  rw [← hlcores] at hsuited
  obtain ⟨hset, htests, -⟩ := Evaluation.begin_setting n numDevices (devices.set 0 ev.device)
    contents (fun _ => {}) segments
  refine .async ?_ (Evaluation.begin_sound hsuited hprepared' (fun _ => rfl) hsegments)
  rw [hset, htests]
  exact hsuited

/-- **Step lemma.** -/
theorem Sound.step (h : Sound enc cfg program) (hclean : Clean enc debug program answer) :
    Sound enc cfg (program.step debug answer) := by
  cases h with
  | sync hpos hprepared hsuited haccepted hfirst hsound =>
      obtain ⟨hcleanSync, hsegments⟩ := hclean
      have houtcome := hsound.outcome haccepted
      unfold Program.step
      dsimp only
      split
      · next status hpc =>
          obtain rfl := (houtcome.2 status hpc).1
          rw [if_neg (by decide)]
          exact beginAsync hpos hprepared hsuited haccepted hsound hpc (hsegments ⟨_, hpc⟩) _
      · next fault hpc => exact absurd hpc (houtcome.1 fault)
      · exact .sync hpos hprepared hsuited haccepted hfirst (hsound.step hfirst hcleanSync)
  | async hsuited hsound =>
      obtain ⟨hfault, hstatus⟩ := hsound.outcome
      unfold Program.step
      dsimp only
      split
      · next status hmain =>
          obtain rfl := hstatus status hmain
          exact .returned
      · next fault hmain => exact absurd hmain (hfault fault)
      · exact .async hsuited (hsound.step hsuited hclean)
  | returned => exact .returned

/-- What the program comes to. -/
theorem Sound.outcome (h : Sound enc cfg program) :
    (∀ fault, program ≠ .terminated fault) ∧
      ∀ status, program = .returned status → status = .success := by
  cases h <;> simp

/-- **`Evaluate`.**  The main lcore is enabled, and the ids of the compress devices are
0, 1, 2 and so on.  Once the program has got its devices, as long as no call of the
driver fails, the devices compress and decompress with `enc` and the allocations
succeed, in whichever order the lcores take their steps: the program does not
terminate in the middle, and when it returns, it has found twice that what has been
decompressed is the input. -/
theorem evaluate_ok {l : Lcores} {found : List UInt8} {bus : PCIBus} {fuel numDevices : Nat}
    {input : Buffer} {attempts : Nat → Attempt} {pool : MemzonePool} {memory : Memory}
    {devices : Devices} (hmain : l.mainLcore < l.maxLcore ∧ l.isEnabled l.mainLcore = true)
    (hcount : l.count ≤ 65536) (hids : found.map UInt8.toNat = List.range found.length)
    (hself : SelfDelimiting enc) (hhost : ∃ id, input.data.block = .host id)
    (hdevices : getBlueFieldCompressDevices l found bus fuel input.size attempts pool memory =
      some (.ok (numDevices, devices))) :
    ∃ start, begin l found bus fuel input attempts pool memory = some start ∧
      ∀ answers : List ProgramAnswer,
        Runs.Along (Program.step debug) (Clean enc debug) start answers →
        let later := Runs.run (Program.step debug) start answers
        (∀ fault, later ≠ .terminated fault) ∧
          ∀ status, later = .returned status → status = .success := by
  obtain ⟨hpos, hle⟩ := getBlueFieldCompressDevices_length hmain hcount hdevices
  obtain ⟨hprepared, hsuited⟩ :=
    getBlueFieldCompressDevices_prepared hmain hcount hids hdevices
  have hsuited := hsuited enc hself
  obtain ⟨zones, hrest⟩ := hprepared.atRest 0 hpos
  have hlength : 0 < ((List.range numDevices).map fun d =>
      (devices d).device.workerLcores).length := by
    simpa using hpos
  have hfirst : SyncEvaluation.Suited enc (devices.configurations 0) input :=
    ⟨hsuited.bounds 0 hlength, hsuited.maxSglSegs_eq 0 hlength, hsuited.segSize_eq 0 hlength, hself,
      hhost⟩
  -- the first device has a queue pair
  have hqps : 0 < (devices 0).device.numQps := by
    have hmem : (devices 0).device.workerLcores ∈
        (List.range numDevices).map fun d => (devices d).device.workerLcores :=
      List.mem_map_of_mem (f := fun d => (devices d).device.workerLcores) (List.mem_range.mpr hpos)
    have hcountable := hsuited.assigned.countable
    rw [CompressDevice.numQps, toUInt16_of_lt (hcountable.lt _ hmem)]
    exact List.length_pos_iff.mpr (hcountable.ne_nil _ hmem)
  have hstart : Sound enc devices.configurations (.sync l.numParallelTests numDevices devices
      (.begin (devices 0) input)) :=
    .sync hpos hprepared hsuited hrest.accepted hfirst
      (SyncEvaluation.begin_sound hfirst hrest (hprepared.started 0 hpos) hqps)
  refine ⟨.sync l.numParallelTests numDevices devices (.begin (devices 0) input), ?_,
    fun answers hclean => ?_⟩
  · unfold begin
    rw [hdevices]
    exact congrArg some (if_neg (Nat.not_lt.mpr hle))
  · exact (Runs.Along.invariant (fun _ _ hsound hok => hsound.step hok) hstart hclean).outcome

end Run

end Program

end Bitar
