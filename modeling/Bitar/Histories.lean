import Bitar.Recovery
import Bitar.Release
import Mathlib.Data.Finset.Card

/-!
# Histories of calls on a queue pair

A history is any sequence of calls and of their steps.  It records which
operations and memzones the last call has taken.  Between two calls the queue
pair is idle, or it is stuck: a failed `Decompress` has left operations pending,
and all calls are refused.

A failing `Compress` releases all its operations, also those that the device
still holds and those that wait to be enqueued.  `Harmless` steps do not fail,
or fail in `Decompress`, or fail when there are no such operations.

**Results.**
* `Phase.act`: the invariant of a history.
* `ownership`: nothing that the device uses is in a pool.
* `enqueued_fresh`: every operation offered to the device is one of the call.
-/

namespace Bitar

open BlockStore

namespace Machine

/-- The operations handed to `rte_compressdev_enqueue_burst` in the next step. -/
def offered (st : Machine) : List Nat :=
  match st.pc with
  | .enqueue n => read st.qp.operations () 0 (toUInt16 n)
  | _ => []

end Machine

/-- One event on the queue pair. -/
inductive Action
  | call (request : Machine.Request)
  | step (env : Env)

/-- A queue pair, and what its last call has taken so far. -/
structure History where
  now : Machine
  allocated : Finset Nat := ∅
  taken : Finset Nat := ∅

namespace History

/-- The history begins with a call. -/
def begin (st : Machine) (request : Machine.Request) : History :=
  { now := st.start request }

/-- There is one call at a time. -/
def act (debug : Bool) (h : History) : Action → History
  | .call request =>
      match h.now.result with
      | some _ => begin h.now request
      | none => h
  | .step env =>
      { now := Machine.step debug h.now env
        allocated := h.allocated ∪
          (h.now.qp.operationPool \ (Machine.step debug h.now env).qp.operationPool)
        taken := h.taken ∪
          ((Machine.step debug h.now env).zones.device.occupiedMemzones \
            h.now.zones.device.occupiedMemzones) }

/-- A failing step of `Compress` leaves nothing in the device and nothing
assembled. -/
def Harmless (h : History) : Action → Prop
  | .call _ => True
  | .step env => h.now.NoFault env ∨ h.now.call.xform = .decompress ∨ h.now.LeavesNothing env

instance (h : History) : ∀ action, Decidable (h.Harmless action)
  | .call _ => inferInstanceAs (Decidable True)
  | .step _ => inferInstanceAs (Decidable (_ ∨ _ ∨ _))

/-- What an operation in the device uses is outside the pools, the operations
of a call in progress are its own, and so are the buffers it returns. -/
structure Owned (h : History) : Prop where
  ops : ∀ o ∈ h.now.queue, o ∉ h.now.qp.operationPool
  mbufs : ∀ o ∈ h.now.queue, ∀ m ∈ (h.now.qp.ops o).mbufs, m ∉ h.now.qp.mbufPool
  memzones : ∀ o ∈ h.now.queue, ∀ z ∈ (h.now.qp.ops o).memzones,
    z ∉ h.now.zones.device.memzonePool
  assembled : h.now.result = none → ∀ o ∈ h.now.queue, o ∈ h.allocated
  returned : h.now.result = some .success → ∀ b ∈ h.now.call.emitted,
    ∃ z ∈ h.taken, b.data = memzoneAddr z

open Machine

/-- A call in which nothing has failed; it began with the given pools. -/
structure Running (cfg : Configuration) (opPool mbufPool : Finset Nat) (zones : Zones)
    (h : History) : Prop where
  inOrder : InOrder cfg opPool mbufPool h.now
  callZones : CallZones zones h.now
  allocated : ∀ o ∈ opPool, o ∈ h.now.qp.operationPool ∨ o ∈ h.allocated
  taken : ∀ z ∈ h.now.zones.device.occupiedMemzones,
    z ∈ zones.device.occupiedMemzones ∨ z ∈ h.taken

/-- The last call has failed, and the queue pair is idle. -/
structure Settled (cfg : Configuration) (h : History) : Prop where
  cfg_eq : h.now.cfg = cfg
  returned : ∃ status, h.now.pc = .returned status ∧ status ≠ .success
  idle : h.now.Idle
  wellFormed : h.now.zones.WellFormed cfg.compressedSegSize

/-- A failed `Decompress` has left operations pending. -/
structure Stuck (h : History) : Prop where
  returned : ∃ status, h.now.pc = .returned status
  pending : h.now.qp.pendingOperations ≠ []
  ops : ∀ o ∈ h.now.queue, o ∉ h.now.qp.operationPool
  mbufs : ∀ o ∈ h.now.queue, ∀ m ∈ (h.now.qp.ops o).mbufs, m ∉ h.now.qp.mbufPool
  memzones : ∀ o ∈ h.now.queue, (h.now.qp.ops o).memzones = []
  emitted : h.now.call.emitted = []

inductive Phase (cfg : Configuration) (h : History) : Prop
  | running {opPool mbufPool : Finset Nat} {zones : Zones}
      (running : Running cfg opPool mbufPool zones h)
  | settled (settled : Settled cfg h)
  | stuck (stuck : Stuck h)

variable {cfg : Configuration} {h : History} {debug : Bool}

/-! ## What the phases guarantee -/

theorem Running.owned {opPool mbufPool : Finset Nat} {zones : Zones}
    (hr : Running cfg opPool mbufPool zones h) : h.Owned := by
  have hord := hr.inOrder.ordered
  have hsub : ∀ o ∈ h.now.queue, o ∈ h.now.qp.pendingOperations := by
    rw [hord.pending]
    exact fun o ho => List.mem_append_left _ ho
  refine ⟨fun o ho => hord.notFree o (hsub o ho), ?_, ?_, ?_, ?_⟩
  · intro o ho m hm
    refine (hr.inOrder.bookkeeping.mbufs.mem_iff.mp ?_).2
    exact List.mem_flatMap.mpr ⟨o, hsub o ho, hm⟩
  · intro o ho z hz hfree
    have huse : z ∈ h.now.zonesInUse :=
      List.mem_append_right _ (List.mem_flatMap.mpr ⟨_, List.mem_map_of_mem (hsub o ho), hz⟩)
    exact hr.callZones.inUse.wellFormed.disjoint z hfree (hr.callZones.inUse.occupied z huse)
  · intro _ o ho
    have hout := hr.inOrder.bookkeeping.ops.mem_iff.mp (hsub o ho)
    exact (hr.allocated o hout.1).resolve_left hout.2
  · intro _ b hb
    obtain ⟨z, hz⟩ := hr.callZones.inUse.buffers b hb
    have huse : z ∈ h.now.zonesInUse :=
      List.mem_append_left _ (List.mem_filterMap.mpr ⟨b, hb, by
        simp [Buffer.memzone, hz, memzoneAddr]⟩)
    exact ⟨z, (hr.taken z (hr.callZones.inUse.occupied z huse)).resolve_left
      (hr.callZones.taken z huse), hz⟩

theorem Phase.owned (hp : Phase cfg h) : h.Owned := by
  cases hp with
  | running hr => exact hr.owned
  | settled hs =>
      obtain ⟨status, hpc, hne⟩ := hs.returned
      have hq := hs.idle.queue
      refine ⟨by simp [hq], by simp [hq], by simp [hq], by simp [hq], fun hres => ?_⟩
      rw [result_eq_some, hpc] at hres
      exact absurd (Pc.returned.inj hres) hne
  | stuck hs =>
      obtain ⟨status, hpc⟩ := hs.returned
      refine ⟨hs.ops, hs.mbufs, ?_, fun hres => ?_, fun _ => by simp [hs.emitted]⟩
      · intro o ho z hz
        rw [hs.memzones o ho] at hz
        cases hz
      · rw [result_eq_some.mpr hpc] at hres
        cases hres

/-! ## Calls -/

/-- A call on an idle queue pair. -/
theorem Phase.begin {st : Machine} (hidle : st.Idle) (hcfg : st.cfg = cfg)
    (hwf : st.zones.WellFormed cfg.compressedSegSize) (request : Request) :
    Phase cfg (begin st request) := by
  subst hcfg
  refine .running ⟨hidle.start_inOrder request, hidle.start_callZones hwf request, ?_, ?_⟩
  · intro o ho
    exact Or.inl (by rwa [show (History.begin st request).now.qp = _ from start_qp st request])
  · intro z hz
    rw [show (History.begin st request).now.zones = _ from start_zones st request] at hz
    exact Or.inl hz

theorem Phase.call (hp : Phase cfg h) (request : Request) :
    Phase cfg (h.act debug (.call request)) := by
  unfold act
  cases hres : h.now.result with
  | none => exact hp
  | some status =>
      have hpc := result_eq_some.mp hres
      cases hp with
      | running hr =>
          have hwf := hr.callZones.inUse.wellFormed
          rw [hr.inOrder.cfg_eq] at hwf
          exact .begin (hr.inOrder.ordered.idle hpc) hr.inOrder.cfg_eq hwf request
      | settled hs => exact .begin hs.idle hs.cfg_eq hs.wellFormed request
      | stuck hs =>
          have hqp := start_qp h.now request
          have hqueue := start_queue h.now request
          have hzones := start_zones h.now request
          refine .stuck ⟨start_refused hs.pending request, ?_, ?_, ?_, ?_, start_emitted _ _⟩
          all_goals dsimp only [History.begin]
          · rw [hqp]
            exact hs.pending
          · rw [hqp, hqueue]
            exact hs.ops
          · rw [hqp, hqueue]
            exact hs.mbufs
          · rw [hqp, hqueue]
            exact hs.memzones

/-! ## Steps -/

theorem Running.step {opPool mbufPool : Finset Nat} {zones : Zones} {env : Env}
    (hr : Running cfg opPool mbufPool zones h) (hb : cfg.Bounds) (hnf : h.now.NoFault env) :
    Running cfg opPool mbufPool zones (h.act debug (.step env)) := by
  obtain ⟨hc, hs⟩ := hr.inOrder.step hb debug hnf
  refine ⟨hs, hr.callZones.continues hr.inOrder.ordered (hr.inOrder.cfg_eq ▸ hb) hc, ?_, ?_⟩
  · intro o ho
    rw [act, Finset.mem_union, Finset.mem_sdiff]
    rcases hr.allocated o ho with hfree | hall <;> tauto
  · intro z hz
    rw [act] at hz ⊢
    rw [Finset.mem_union, Finset.mem_sdiff]
    by_cases hocc : z ∈ h.now.zones.device.occupiedMemzones
    · exact (hr.taken z hocc).imp_right Or.inl
    · exact Or.inr (Or.inr ⟨hz, hocc⟩)

section Fail

variable {opPool mbufPool : Finset Nat} {zones : Zones} {env : Env} {mid : Machine}
  {code : StatusCode}

/-- `Compress` fails with nothing left in the device and nothing assembled. -/
theorem Running.settled_compress (hr : Running cfg opPool mbufPool zones h) (hb : cfg.Bounds)
    (hx : h.now.call.xform = .compress) (hleave : h.now.LeavesNothing env)
    (hbr : Breaks h.now env mid code) (message : String) {h' : History}
    (hnow : h'.now = mid.fail code message) : Settled cfg h' := by
  have hord := hr.inOrder.ordered
  have hz := hr.callZones.breaks hord (hr.inOrder.cfg_eq ▸ hb) hbr
  obtain ⟨hnone, hqueue⟩ := hbr.leaves hord hleave
  obtain ⟨input, offset, out, hcall⟩ := Call.eq_compress ((hbr.xform_eq hord).trans hx)
  have hcfg : mid.cfg = cfg :=
    (congrArg Prod.fst (hbr.setup_eq hord)).trans hr.inOrder.cfg_eq
  have hwf := hz.inUse.fail_wellFormed hcall code message
  rw [hcfg] at hwf
  refine ⟨?_, ⟨⟨code, message⟩, ?_, ?_⟩, ?_, ?_⟩
  · rw [hnow]
    exact (congrArg Prod.fst (fail_setup mid code message)).trans hcfg
  · rw [hnow, fail_pc]
  · intro he
    exact hbr.code_ne_ok (congrArg Status.code he)
  · rw [hnow, hz.inUse.fail hcall]
    exact ⟨rfl, hnone, hqueue⟩
  · rw [hnow]
    exact hwf

/-- `Decompress` fails while nothing is pending. -/
theorem Running.settled_decompress (hr : Running cfg opPool mbufPool zones h)
    (hx : h.now.call.xform = .decompress) (hnil : h.now.qp.pendingOperations = [])
    (hbr : Breaks h.now env mid code) (message : String) {h' : History}
    (hnow : h'.now = mid.fail code message) : Settled cfg h' := by
  have hord := hr.inOrder.ordered
  have hidle := hord.idle_of_nil hnil
  obtain ⟨hnone, hqueue⟩ := hbr.leaves hord ⟨hidle.numOpsAssembled, by simp [hidle.queue]⟩
  obtain ⟨hzones, hpend⟩ := hbr.decompress hord hx
  have hwf := hr.callZones.inUse.wellFormed
  rw [hr.inOrder.cfg_eq] at hwf
  rw [fail_decompress ((hbr.xform_eq hord).trans hx)] at hnow
  refine ⟨?_, ⟨⟨code, message⟩, ?_, ?_⟩, ?_, ?_⟩
  · rw [hnow]
    exact (congrArg Prod.fst (hbr.setup_eq hord)).trans hr.inOrder.cfg_eq
  · rw [hnow]
  · intro he
    exact hbr.code_ne_ok (congrArg Status.code he)
  · rw [hnow]
    exact ⟨hpend.mpr hnil, hnone, hqueue⟩
  · rw [hnow]
    show mid.zones.WellFormed _
    rwa [hzones]

/-- `Decompress` fails while operations are pending. -/
theorem Running.stuck (hr : Running cfg opPool mbufPool zones h) (hb : cfg.Bounds)
    (hx : h.now.call.xform = .decompress) (hne : h.now.qp.pendingOperations ≠ [])
    (hbr : Breaks h.now env mid code) (message : String) {h' : History}
    (hnow : h'.now = mid.fail code message) : Stuck h' := by
  have hord := hr.inOrder.ordered
  have hx' := (hbr.xform_eq hord).trans hx
  have hz := hr.callZones.breaks hord (hr.inOrder.cfg_eq ▸ hb) hbr
  have hout := hbr.queue_out hord hx hr.inOrder.bookkeeping
  obtain ⟨buffers, output, index, offset, size, hcall⟩ := Call.eq_decompress hx'
  rw [fail_decompress hx'] at hnow
  refine ⟨⟨⟨code, message⟩, by rw [hnow]⟩, ?_, ?_, ?_, ?_, ?_⟩
  all_goals rw [hnow]
  · exact mt (hbr.decompress hord hx).2.mp hne
  · exact fun o ho => (hout o ho).1
  · exact fun o ho => (hout o ho).2
  · intro o ho
    have hdest := hz.inUse.destinations _ (List.mem_map_of_mem (hbr.queue_subset hord o ho))
    rw [CompOp.memzones, List.filterMap_eq_nil_iff]
    intro seg hseg
    have hinfo := hdest seg hseg
    rw [hcall] at hinfo
    simp [Segment.memzone, show seg.shinfo = .decompressed from hinfo]
  · show mid.call.emitted = []
    rw [hcall]
    rfl

end Fail

/-- **The invariant of a history.** -/
theorem Phase.act (hp : Phase cfg h) (hb : cfg.Bounds) {action : Action}
    (hharm : h.Harmless action) : Phase cfg (h.act debug action) := by
  cases action with
  | call request => exact hp.call request
  | step env =>
      cases hp with
      | running hr =>
          have hb' : h.now.cfg.Bounds := hr.inOrder.cfg_eq ▸ hb
          rcases step_cases hb' hr.inOrder.ordered debug env with
            ⟨hnf, -⟩ | ⟨hf, mid, code, message, hbr, hfail⟩
          · exact .running (hr.step hb hnf)
          · have hkind := hharm.resolve_left hf
            cases hx : h.now.call.xform with
            | compress =>
                have hleave := hkind.resolve_left (by simp [hx])
                exact .settled (hr.settled_compress hb hx hleave hbr message hfail)
            | decompress =>
                by_cases hnil : h.now.qp.pendingOperations = []
                · exact .settled (hr.settled_decompress hx hnil hbr message hfail)
                · exact .stuck (hr.stuck hb hx hnil hbr message hfail)
      | settled hs =>
          obtain ⟨status, hpc, hne⟩ := hs.returned
          refine .settled ⟨?_, ?_, ?_, ?_⟩
          all_goals rw [History.act, step_returned hpc]
          exacts [hs.cfg_eq, hs.returned, hs.idle, hs.wellFormed]
      | stuck hs =>
          obtain ⟨status, hpc⟩ := hs.returned
          refine .stuck ⟨?_, ?_, ?_, ?_, ?_, ?_⟩
          all_goals rw [History.act, step_returned hpc]
          exacts [hs.returned, hs.pending, hs.ops, hs.mbufs, hs.memzones, hs.emitted]

theorem Phase.run {st : Machine} (hcfg : Accepted st.cfg) (hidle : st.Idle)
    (hwf : st.zones.WellFormed st.cfg.compressedSegSize) (request : Request) {debug : Bool}
    {actions : List Action}
    (hharm : Runs.Along (History.act debug) Harmless (History.begin st request) actions) :
    Phase st.cfg (Runs.run (History.act debug) (History.begin st request) actions) :=
  Runs.Along.invariant (I := Phase st.cfg) (fun _ _ hp hh => hp.act hcfg.bounds hh)
    (Phase.begin hidle rfl hwf request) hharm

/-! ## Ownership -/

/-- **Ownership.**  In every history whose failing `Compress` steps leave
nothing behind, what the device holds is not in a pool, and a call dequeues its
own operations only. -/
theorem ownership {st : Machine} (hcfg : Accepted st.cfg) (hidle : st.Idle)
    (hwf : st.zones.WellFormed st.cfg.compressedSegSize) (request : Request) (debug : Bool)
    (actions : List Action)
    (hharm : Runs.Along (History.act debug) Harmless (History.begin st request) actions) :
    Owned (Runs.run (History.act debug) (History.begin st request) actions) :=
  (Phase.run hcfg hidle hwf request hharm).owned

/-- A `Compress` that fails on its only operation, and the next one. -/
def sampleHistory : List Action :=
  [.step { bulk := ⟨some [0], some [0, 1]⟩ }, .step { numAccepted := 1 },
    .step { results := [⟨.error, []⟩] }, .call (.compress (some ⟨⟨.host 0, 0⟩, 16⟩)),
    .step { bulk := ⟨some [0, 1], some [0, 1, 2, 3]⟩ }, .step { numAccepted := 2 }]

theorem ownership_sample :
    Owned (Runs.run (act true) (begin (sampleMachine 1 3)
      (.compress (some ⟨⟨.host 0, 0⟩, 8⟩))) sampleHistory) :=
  ownership sampleConfig_accepted.1 (sampleMachine_idle 1 3) (sampleMachine_wellFormed 1 3)
    (.compress (some ⟨⟨.host 0, 0⟩, 8⟩)) true sampleHistory (by decide +kernel)

/-- The first of two operations fails, and `Release` frees both, although the
device still holds the second one. -/
theorem ownership_released :
    let h := Runs.run (act true) (begin (sampleMachine 1 3)
        (.compress (some ⟨⟨.host 0, 0⟩, 16⟩)))
      [.step { bulk := ⟨some [0, 1], some [0, 1, 2, 3]⟩ }, .step { numAccepted := 2 },
        .step { results := [⟨.error, []⟩] }]
    h.now.queue = [1] ∧ ¬ Owned h := by
  refine ⟨by decide +kernel, fun ho => ?_⟩
  have hfree := ho.ops 1 (by decide +kernel)
  revert hfree
  decide +kernel

/-! ## What is enqueued -/

theorem Running.offered {opPool mbufPool : Finset Nat} {zones : Zones}
    (hr : Running cfg opPool mbufPool zones h) :
    ∀ o ∈ h.now.offered, o ∈ h.allocated ∧ o ∉ h.now.qp.operationPool := by
  have hord := hr.inOrder.ordered
  unfold Machine.offered
  split
  · next n hpc =>
      obtain ⟨rfl, -⟩ := hord.enqueue n hpc
      rw [toUInt16_of_lt (hord.assembled_le.trans_lt h.now.cfg.burstSize.toNat_lt)]
      intro o ho
      have hpend : o ∈ h.now.qp.pendingOperations := by
        rw [hord.pending]
        exact List.mem_append_right _ ho
      have hout := hr.inOrder.bookkeeping.ops.mem_iff.mp hpend
      exact ⟨(hr.allocated o hout.1).resolve_left hout.2, hout.2⟩
  · simp

theorem offered_returned {st : Machine} {status : Status} (hpc : st.pc = .returned status) :
    st.offered = [] := by
  simp [Machine.offered, hpc]

/-- On an idle queue pair `AssembleFrom` counts what it allocates. -/
theorem assembleFrom_idle {st : Machine} (hb : st.cfg.Bounds) (hidle : st.Idle) {env : Env}
    {k : Nat} (hk : (st.assembleFrom env).2 = .ok k) :
    k = (st.qp.operationPool \ (st.assembleFrom env).1.qp.operationPool).card := by
  have hout := assembleFrom_spec hb env
  rw [hk] at hout
  generalize (st.assembleFrom env).1 = st' at hout ⊢
  cases hout with
  | nothing hstop => simp [hidle.numOpsAssembled]
  | @complete st' n os ms ops S T built hT hms hzones =>
      have hpool : st'.qp.operationPool = st.qp.operationPool \ os.toFinset := by
        rw [built.state_eq]
      have hsub : os.toFinset ⊆ st.qp.operationPool := fun o ho =>
        built.ops_handable.free o (List.mem_toFinset.mp ho)
      rw [hpool, Finset.sdiff_sdiff_eq_self hsub,
        List.toFinset_card_of_nodup built.ops_handable.nodup, built.ops_handable.length_eq,
        hidle.numOpsAssembled, Nat.zero_add]

/-- After a call has returned, the next one is refused or finds the queue pair
idle. -/
theorem Phase.idle (hp : Phase cfg h) (hret : h.now.result ≠ none) {request : Request}
    (hpc : (h.now.start request).pc = .assemble) : h.now.cfg = cfg ∧ h.now.Idle := by
  cases hp with
  | running hr =>
      obtain ⟨status, hres⟩ := Option.ne_none_iff_exists'.mp hret
      exact ⟨hr.inOrder.cfg_eq, hr.inOrder.ordered.idle (result_eq_some.mp hres)⟩
  | settled hs => exact ⟨hs.cfg_eq, hs.idle⟩
  | stuck hs =>
      obtain ⟨status, hr⟩ := start_refused hs.pending request
      rw [hpc] at hr
      cases hr

/-- **What is enqueued.**  In every history whose failing `Compress` steps leave
nothing behind, an operation offered to the device was allocated by the call in
progress and is not free, and the first `AssembleFrom` of the next call returns
the number of operations that it allocates. -/
theorem enqueued_fresh {st : Machine} (hcfg : Accepted st.cfg) (hidle : st.Idle)
    (hwf : st.zones.WellFormed st.cfg.compressedSegSize) (request : Request) (debug : Bool)
    (actions : List Action)
    (hharm : Runs.Along (History.act debug) Harmless (History.begin st request) actions) :
    let h := Runs.run (History.act debug) (History.begin st request) actions
    (∀ o ∈ h.now.offered, o ∈ h.allocated ∧ o ∉ h.now.qp.operationPool) ∧
      (h.now.result ≠ none → ∀ request env k, (h.now.start request).pc = .assemble →
        ((h.now.start request).assembleFrom env).2 = .ok k →
        k = (h.now.qp.operationPool \
          ((h.now.start request).assembleFrom env).1.qp.operationPool).card) := by
  have hp := Phase.run hcfg hidle hwf request hharm
  dsimp only
  generalize Runs.run (History.act debug) (History.begin st request) actions = h at hp
  refine ⟨?_, fun hret request env k hpc hk => ?_⟩
  · cases hp with
    | running hr => exact hr.offered
    | settled hs =>
        obtain ⟨status, hpc, -⟩ := hs.returned
        simp [offered_returned hpc]
    | stuck hs =>
        obtain ⟨status, hpc⟩ := hs.returned
        simp [offered_returned hpc]
  · obtain ⟨hc, hi⟩ := hp.idle hret hpc
    have hb : (h.now.start request).cfg.Bounds := by
      rw [start_cfg, hc]
      exact hcfg.bounds
    have hi' : (h.now.start request).Idle :=
      ⟨by simp [hi.pending], by simp [hi.numOpsAssembled], by simp [hi.queue]⟩
    have := assembleFrom_idle hb hi' hk
    rwa [start_qp] at this

theorem enqueued_fresh_sample :
    let h := Runs.run (act true) (begin (sampleMachine 1 3)
      (.compress (some ⟨⟨.host 0, 0⟩, 8⟩))) (sampleHistory.take 5)
    h.now.offered = [0, 1] ∧ ∀ o ∈ h.now.offered, o ∈ h.allocated ∧ o ∉ h.now.qp.operationPool :=
  ⟨by decide +kernel, (enqueued_fresh sampleConfig_accepted.1 (sampleMachine_idle 1 3)
    (sampleMachine_wellFormed 1 3) (.compress (some ⟨⟨.host 0, 0⟩, 8⟩)) true
    (sampleHistory.take 5) (by decide +kernel)).1⟩

/-- The device takes the first of two operations, which fails; the second stays
assembled, and the next call offers it to the device although it is free. -/
theorem enqueued_fresh_leftover :
    let h := Runs.run (act false) (begin (sampleMachine 1 3)
        (.compress (some ⟨⟨.host 0, 0⟩, 16⟩)))
      [.step { bulk := ⟨some [0, 1], some [0, 1, 2, 3]⟩ }, .step { numAccepted := 1 },
        .step { results := [⟨.error, []⟩] }, .call (.compress (some ⟨⟨.host 0, 0⟩, 8⟩)),
        .step { bulk := ⟨some [2], some [0, 1]⟩ }]
    h.now.offered = [1, 2] ∧ h.allocated = {2} ∧ 1 ∈ h.now.qp.operationPool := by
  decide +kernel

end History

end Bitar
