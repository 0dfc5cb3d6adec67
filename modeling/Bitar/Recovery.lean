import Bitar.Conservation

/-!
# What a failed `Decompress` leaves behind

The error exits of `Decompress` leave the pending operations as they are.  The
queue pair can be used again if none is left, and is refused as busy otherwise.
The memzones under the compressed buffers are safe in any case.

**Results.**
* `Continues.setup_eq`, `Breaks.setup_eq`: what no step changes.
* `usable_iff`: when later calls are refused as busy.
* `usable_after_failure`: exactly when a failed call leaves the queue pair
  usable.
-/

namespace Bitar

open BlockStore Pieces

@[simp] theorem Call.xform_dequeueCallback (call : Call) (op : CompOp) :
    (call.dequeueCallback op).xform = call.xform := by
  cases call <;> rfl

theorem foldl_dequeueCallback_xform (f : Nat → CompOp) :
    ∀ (bs : List Nat) (call : Call),
      (bs.foldl (fun call o => call.dequeueCallback (f o)) call).xform = call.xform
  | [], _ => rfl
  | o :: bs, call => by
      rw [List.foldl_cons, foldl_dequeueCallback_xform f bs, Call.xform_dequeueCallback]

theorem Call.eq_compress {call : Call} (h : call.xform = .compress) :
    ∃ input offset out, call = .compress input offset out := by
  cases call with
  | compress input offset out => exact ⟨input, offset, out, rfl⟩
  | decompress buffers output index offset size => cases h

theorem Call.eq_decompress {call : Call} (h : call.xform = .decompress) :
    ∃ buffers output index offset size, call = .decompress buffers output index offset size := by
  cases call with
  | compress input offset out => cases h
  | decompress buffers output index offset size => exact ⟨_, _, _, _, _, rfl⟩

@[simp] theorem Call.xform_advance (call : Call) (cfg : Configuration) (n : Nat) :
    (call.advance cfg n).xform = call.xform := by
  cases call <;> rfl

namespace Machine

variable {st st' mid : Machine} {env : Env} {code : StatusCode}

/-! ## What no step changes -/

/-- The configuration, the device and the queue pair. -/
def setup (st : Machine) : Configuration × Nat × Nat × Nat × DeviceState :=
  (st.cfg, st.deviceId, st.queuePairId, st.numQps, st.state)

theorem drainOrFinish_setup (st : Machine) : st.drainOrFinish.setup = st.setup := by
  rcases st.drainOrFinish_cases with ⟨-, h⟩ | ⟨-, h⟩ <;> rw [h]
  · rfl
  · unfold finish
    split <;> rfl

theorem start_setup (st : Machine) (request : Request) :
    (st.start request).setup = st.setup := by
  cases request with
  | compress input => cases input <;> rfl
  | decompress buffers output => cases output <;> rfl

theorem fail_setup (st : Machine) (code : StatusCode) (message : String) :
    (st.fail code message).setup = st.setup := by
  unfold fail
  split <;> rfl

theorem retire_setup (hst : st.Ordered) (bs : List Nat) :
    ((st.afterHandBack env).retire bs).setup = st.setup := by
  rw [retire_afterHandBack (hst.queue_prefix env).1]
  rfl

theorem Continues.setup_eq (hst : st.Ordered) (h : Continues st env st') :
    st'.setup = st.setup := by
  cases h with
  | built hpc built hT => exact (congrArg setup built.state_eq).trans rfl
  | full hpc hpos => rfl
  | exhausted hpc hrem hnone => exact drainOrFinish_setup st
  | enqueued hpc hread => rfl
  | dequeued hpc hsucc => exact retire_setup hst (st.queue.take (st.numDequeued env))
  | drained hpc hsucc => exact (drainOrFinish_setup _).trans (retire_setup hst _)
  | returned hpc => rfl

theorem Breaks.setup_eq (hst : st.Ordered) (h : Breaks st env mid code) :
    mid.setup = st.setup := by
  cases h with
  | noOps hpc hrem hops => rfl
  | noMbufs hpc hne hos hms => rfl
  | short hpc built hT hne hos hzones => exact (congrArg setup built.state_eq).trans rfl
  | enqueue hpc counter => rfl
  | stats hpc hnone => exact (congrArg setup (retire_nil _)).symm.trans (retire_setup hst [])
  | failed hpc hfail => exact retire_setup hst _

theorem Ready.of_setup (h : st.Ready) (he : st'.setup = st.setup) : st'.Ready := by
  have hstate := congrArg (fun s => s.2.2.2.2) he
  have hnum := congrArg (fun s => s.2.2.2.1) he
  have hid := congrArg (fun s => s.2.2.1) he
  refine ⟨Eq.trans hstate h.started, ?_⟩
  exact lt_of_lt_of_eq (lt_of_eq_of_lt hid h.queuePairId_lt) (Eq.symm hnum)

/-- The kind of the call stays. -/
theorem Continues.xform_eq (hst : st.Ordered) (h : Continues st env st') :
    st'.call.xform = st.call.xform := by
  have hretire : ((st.afterHandBack env).retire
      (st.queue.take (st.numDequeued env))).call.xform = st.call.xform := by
    rw [retire_call hst, foldl_dequeueCallback_xform]
  have hfinish : ∀ s : Machine, s.drainOrFinish.call.xform = s.call.xform := by
    intro s
    rcases s.drainOrFinish_cases with ⟨-, he⟩ | ⟨-, he⟩ <;> rw [he]
    unfold finish
    split
    · rfl
    · next heq => rw [heq]; rfl
  cases h with
  | built hpc built hT =>
      have hadvance := built.call_eq
      exact (congrArg Call.xform hadvance).trans (Call.xform_advance ..)
  | full hpc hpos => rfl
  | exhausted hpc hrem hnone => exact hfinish st
  | enqueued hpc hread => rfl
  | dequeued hpc hsucc => exact hretire
  | drained hpc hsucc => exact (hfinish _).trans hretire
  | returned hpc => rfl

/-! ## Whether the queue pair is busy -/

/-- No call on the queue pair is refused as busy. -/
def Usable (st : Machine) : Prop :=
  ∀ request status, (st.start request).pc = .returned status → status.code ≠ .cancelled

theorem guardStatus_cancelled (h : st.Ready) :
    st.guardStatus.code = .cancelled ↔ st.qp.pendingOperations ≠ [] := by
  have hlt := h.queuePairId_lt
  unfold guardStatus entryGuard QueuePairMemory.hasPendingOperations
  rw [h.started, if_neg (by decide), if_neg (Nat.not_le.mpr hlt)]
  cases st.qp.pendingOperations <;> simp [Status.success]

/-- With operations pending, every call returns at once. -/
theorem start_refused (hne : st.qp.pendingOperations ≠ []) (request : Request) :
    ∃ status, (st.start request).pc = .returned status := by
  have hguard : st.guardStatus.code ≠ .ok := by
    unfold guardStatus entryGuard QueuePairMemory.hasPendingOperations
    split_ifs with h1 h2 h3
    · simp [Status.invalid]
    · simp [Status.invalid]
    · simp
    · simp [hne] at h3
  rcases st.start_pc request with hpc | hpc
  · cases request with
    | compress input =>
        cases input with
        | none => cases hpc
        | some input =>
            simp only [start, compress, if_neg hguard] at hpc
            split_ifs at hpc
    | decompress buffers output =>
        cases output with
        | none => cases hpc
        | some output =>
            simp only [start, decompress, if_neg hguard] at hpc
            split_ifs at hpc
  · exact hpc

theorem usable_iff (h : st.Ready) : st.Usable ↔ st.qp.pendingOperations = [] := by
  constructor
  · intro hu
    by_contra hne
    have hguard := (guardStatus_cancelled h).mpr hne
    have hpc : (st.start (.compress (some ⟨⟨.host 0, 0⟩, 1⟩))).pc = .returned st.guardStatus := by
      simp [start, compress, hguard]
    exact hu _ _ hpc hguard
  · intro hnil request status hpc hcode
    have hguard : st.guardStatus.code ≠ .cancelled := fun hc =>
      (guardStatus_cancelled h).mp hc hnil
    cases request with
    | compress input =>
        cases input with
        | none =>
            cases hpc
            cases hcode
        | some input =>
            simp only [start, compress] at hpc
            split_ifs at hpc
            · cases hpc
              cases hcode
            · cases hpc
              exact hguard hcode
    | decompress buffers output =>
        cases output with
        | none =>
            simp only [start, decompress] at hpc
            split_ifs at hpc <;> cases hpc <;> cases hcode
        | some output =>
            simp only [start, decompress] at hpc
            split_ifs at hpc
            · cases hpc
              cases hcode
            · cases hpc
              cases hcode
            · cases hpc
              exact hguard hcode

/-! ## Failing -/

/-- No operation stays in the device or waits to be enqueued after this step. -/
def LeavesNothing (st : Machine) (env : Env) : Prop :=
  st.qp.numOpsAssembled = 0 ∧ st.queue.length ≤ st.numRetired env

instance (st : Machine) (env : Env) : Decidable (st.LeavesNothing env) :=
  inferInstanceAs (Decidable (_ ∧ _))

theorem fail_decompress (hx : st.call.xform = .decompress) (code : StatusCode)
    (message : String) : st.fail code message = { st with pc := .returned ⟨code, message⟩ } := by
  unfold fail
  split
  · next heq =>
      rw [heq] at hx
      cases hx
  · rfl

/-- `Decompress` takes no memzones. -/
theorem Built.zones_decompress {n : Nat} {os ms : List Nat} {ops : Nat → CompOp}
    {S T : List Segment} (h : Built st st' n os ms ops S T)
    (hx : st.call.xform = .decompress) : st'.zones = st.zones := by
  have hdest := h.destinations
  cases hcall : st.call with
  | compress input offset out =>
      rw [hcall] at hx
      cases hx
  | decompress buffers output index offset size =>
      rw [hcall] at hdest
      exact hdest.1

theorem Continues.zones_decompress (hst : st.Ordered) (hx : st.call.xform = .decompress)
    (h : Continues st env st') : st'.zones = st.zones := by
  cases h with
  | built hpc built hT =>
      have := built.zones_decompress hx
      exact this
  | full hpc hpos => rfl
  | exhausted hpc hrem hnone => exact zones_drainOrFinish st
  | enqueued hpc hread => rfl
  | dequeued hpc hsucc => exact retire_zones hst (st.queue.take (st.numDequeued env))
  | drained hpc hsucc => exact (zones_drainOrFinish _).trans (retire_zones hst _)
  | returned hpc => rfl

theorem Breaks.xform_eq (hst : st.Ordered) (h : Breaks st env mid code) :
    mid.call.xform = st.call.xform := by
  have hretire : ∀ bs : List Nat,
      ((st.afterHandBack env).retire bs).call.xform = st.call.xform := by
    intro bs
    rw [retire_call hst, foldl_dequeueCallback_xform]
  cases h with
  | noOps hpc hrem hops => rfl
  | noMbufs hpc hne hos hms => rfl
  | short hpc built hT hne hos hzones =>
      have hadvance := built.call_eq
      exact (congrArg Call.xform hadvance).trans (Call.xform_advance ..)
  | enqueue hpc counter => rfl
  | stats hpc hnone =>
      have := hretire []
      rwa [retire_nil] at this
  | failed hpc hfail => exact hretire _

/-- `Decompress` never runs out of destinations. -/
theorem supplied_decompress (hx : st.call.xform = .decompress) : st.Supplied env := by
  unfold Supplied
  cases hcall : st.call with
  | compress input offset out =>
      rw [hcall] at hx
      cases hx
  | decompress buffers output index offset size => trivial

/-- Once operations are pending, the failing step leaves some of them. -/
theorem Breaks.decompress (hst : st.Ordered) (hx : st.call.xform = .decompress)
    (h : Breaks st env mid code) :
    mid.zones = st.zones ∧ (mid.qp.pendingOperations = [] ↔ st.qp.pendingOperations = []) := by
  cases h with
  | noOps hpc hrem hops => exact ⟨rfl, Iff.rfl⟩
  | noMbufs hpc hne hos hms => exact ⟨rfl, Iff.rfl⟩
  | short hpc built hT hne hos hzones => exact absurd (supplied_decompress hx) hzones
  | enqueue hpc counter => exact ⟨rfl, Iff.rfl⟩
  | stats hpc hnone =>
      have hzones : ((st.afterHandBack env).retire []).zones = st.zones := retire_zones hst []
      have hpend : ((st.afterHandBack env).retire []).qp.pendingOperations =
          st.qp.pendingOperations := by
        rw [retire_afterHandBack (hst.queue_prefix env).1]
        rfl
      rw [retire_nil] at hzones hpend
      exact ⟨hzones, by rw [hpend]⟩
  | failed hpc hfail =>
      refine ⟨retire_zones hst _, iff_of_false ?_ ?_⟩
      · have hbs : (st.afterHandBack env).succeeded (st.queue.take (st.numDequeued env)) <+:
            st.queue.take (st.numDequeued env) := List.takeWhile_prefix _
        have hlt : ((st.afterHandBack env).succeeded (st.queue.take (st.numDequeued env))).length <
            (st.queue.take (st.numDequeued env)).length := by
          refine lt_of_le_of_ne hbs.length_le fun he => hfail (hbs.eq_of_length he)
        have hle : (st.queue.take (st.numDequeued env)).length ≤
            st.qp.pendingOperations.length := by
          rw [hst.pending, List.length_append]
          exact (List.take_sublist ..).length_le.trans (Nat.le_add_right ..)
        rw [retire_afterHandBack (hst.queue_prefix env).1]
        intro hnil
        have := List.drop_eq_nil_iff.mp hnil
        omega
      · rcases hpc with hpc | hpc
        · exact hst.dequeue hpc
        · exact (hst.drain hpc).2

/-- The device hands operations back from the front of the pending ones. -/
theorem queue_subset_retire (hst : st.Ordered) {bs : List Nat}
    (hbs : bs <+: st.queue.take (st.numDequeued env)) :
    ∀ o ∈ ((st.afterHandBack env).retire bs).queue,
      o ∈ ((st.afterHandBack env).retire bs).qp.pendingOperations := by
  have hlen : bs.length ≤ st.numDequeued env := by
    have := hbs.length_le
    rw [List.length_take] at this
    omega
  have hle : bs.length ≤ st.queue.length := by
    have := hbs.length_le
    rw [List.length_take] at this
    omega
  rw [retire_afterHandBack (hst.queue_prefix env).1]
  intro o ho
  dsimp only at ho ⊢
  rw [hst.pending, List.drop_append_of_le_length hle]
  exact List.mem_append_left _ ((List.drop_sublist_drop_left _ hlen).subset ho)

theorem Breaks.queue_subset (hst : st.Ordered) (h : Breaks st env mid code) :
    ∀ o ∈ mid.queue, o ∈ mid.qp.pendingOperations := by
  have hsub : ∀ o ∈ st.queue, o ∈ st.qp.pendingOperations := by
    rw [hst.pending]
    exact fun o ho => List.mem_append_left _ ho
  cases h with
  | noOps hpc hrem hops => exact hsub
  | noMbufs hpc hne hos hms => exact hsub
  | short hpc built hT hne hos hzones =>
      rw [built.state_eq]
      exact fun o ho => List.mem_append_left _ (hsub o ho)
  | enqueue hpc counter => exact hsub
  | stats hpc hnone =>
      have := @queue_subset_retire st env hst [] List.nil_prefix
      rwa [retire_nil] at this
  | failed hpc hfail => exact queue_subset_retire hst (List.takeWhile_prefix _)

/-- After a failed step of `Decompress`, what the device uses is not free. -/
theorem Breaks.queue_out {opPool mbufPool : Finset Nat} (hst : st.Ordered)
    (hx : st.call.xform = .decompress) (hbook : Bookkeeping opPool mbufPool st)
    (h : Breaks st env mid code) :
    ∀ o ∈ mid.queue, o ∉ mid.qp.operationPool ∧
      ∀ m ∈ (mid.qp.ops o).mbufs, m ∉ mid.qp.mbufPool := by
  have hsub := h.queue_subset hst
  have key : Bookkeeping opPool mbufPool mid → ∀ o ∈ mid.queue, o ∉ mid.qp.operationPool ∧
      ∀ m ∈ (mid.qp.ops o).mbufs, m ∉ mid.qp.mbufPool := by
    intro hmid o ho
    refine ⟨(hmid.ops.mem_iff.mp (hsub o ho)).2, fun m hm => ?_⟩
    exact (hmid.mbufs.mem_iff.mp (List.mem_flatMap.mpr ⟨o, hsub o ho, hm⟩)).2
  cases h with
  | noOps hpc hrem hops => exact key hbook
  | @noMbufs os hpc hne hos hms =>
      intro o ho
      have hpend := hbook.ops.mem_iff.mp (hsub o ho)
      have hop : (st.qp.handOutOps os).ops o = st.qp.ops o :=
        if_neg fun hn => hpend.2 ((takeFrom_eq_some hos).free o hn)
      refine ⟨fun hfree => hpend.2 (Finset.sdiff_subset hfree), ?_⟩
      dsimp only
      rw [hop]
      exact fun m hm =>
        (hbook.mbufs.mem_iff.mp (List.mem_flatMap.mpr ⟨o, hsub o ho, hm⟩)).2
  | short hpc built hT hne hos hzones => exact absurd (supplied_decompress hx) hzones
  | enqueue hpc counter => exact key ⟨hbook.ops, hbook.mbufs⟩
  | stats hpc hnone =>
      have hmid := @Bookkeeping.retire st env opPool mbufPool hbook hst [] List.nil_prefix
      rw [retire_nil] at hmid
      exact key hmid
  | failed hpc hfail => exact key (hbook.retire hst (List.takeWhile_prefix _))

/-- What a step that fails leaves in the device and assembled. -/
theorem Breaks.leaves (hst : st.Ordered) (hleave : st.LeavesNothing env)
    (h : Breaks st env mid code) : mid.qp.numOpsAssembled = 0 ∧ mid.queue = [] := by
  obtain ⟨hnone, hqueue⟩ := hleave
  unfold numRetired at hqueue
  cases h with
  | noOps hpc hrem hops =>
      rw [hpc] at hqueue
      exact ⟨hnone, List.eq_nil_of_length_eq_zero (Nat.le_zero.mp hqueue)⟩
  | noMbufs hpc hne hos hms =>
      rw [hpc] at hqueue
      exact ⟨hnone, List.eq_nil_of_length_eq_zero (Nat.le_zero.mp hqueue)⟩
  | short hpc built hT hne hos hzones =>
      rw [hpc] at hqueue
      rw [built.state_eq]
      refine ⟨?_, List.eq_nil_of_length_eq_zero (Nat.le_zero.mp hqueue)⟩
      dsimp only
      rw [if_neg (Nat.ne_of_lt hT), hnone]
  | enqueue hpc counter =>
      have := (hst.enqueue _ hpc).2
      omega
  | stats hpc hnodeq =>
      have hretire := @retire_afterHandBack st env (hst.queue_prefix env).1 []
      rw [retire_nil] at hretire
      rw [hretire]
      refine ⟨hnone, List.drop_eq_nil_of_le ?_⟩
      rcases hpc with hpc | hpc <;> rwa [hpc] at hqueue
  | failed hpc hfail =>
      rw [retire_afterHandBack (hst.queue_prefix env).1]
      refine ⟨hnone, List.drop_eq_nil_of_le ?_⟩
      rcases hpc with hpc | hpc <;> rwa [hpc] at hqueue

/-! ## Whole calls -/

/-- A step of `Decompress` that fails, fails while no operation is pending. -/
def FailsEarly (st : Machine) (env : Env) : Prop :=
  st.NoFault env ∨ st.qp.pendingOperations = []

instance (st : Machine) (env : Env) : Decidable (st.FailsEarly env) :=
  inferInstanceAs (Decidable (_ ∨ _))

/-- The memzones under the buffers that are taken in `st` are taken in `st'`. -/
def KeepsZones (buffers : List Buffer) (st st' : Machine) : Prop :=
  ∀ buffer ∈ buffers, ∀ z, buffer.data.block = .memzone z →
    z ∈ st.zones.device.occupiedMemzones → z ∈ st'.zones.device.occupiedMemzones

/-- What a failed `Decompress` leaves pending. -/
theorem decompress_pending {opPool mbufPool : Finset Nat} {cfg : Configuration}
    (hb : cfg.Bounds) (debug : Bool) {status : Status} (herr : status.code ≠ .ok) :
    ∀ (envs : List Env) (s : Machine), InOrder cfg opPool mbufPool s →
      s.call.xform = .decompress → s.Exhausted →
      (Runs.run (step debug) s envs).result = some status →
      (Runs.run (step debug) s envs).setup = s.setup ∧
        (Runs.run (step debug) s envs).zones = s.zones ∧
        ((Runs.run (step debug) s envs).qp.pendingOperations = [] ↔
          Runs.Along (step debug) FailsEarly s envs) := by
  intro envs
  induction envs with
  | nil =>
      intro s hs hx hex hres
      have hpc := result_eq_some.mp hres
      have hok := (hex (Or.inr ⟨status, hpc⟩)).2 status hpc
      exact absurd (congrArg Status.code hok) herr
  | cons env envs ih =>
      intro s hs hx hex hres
      have hb' : s.cfg.Bounds := hs.cfg_eq ▸ hb
      rw [Runs.run_cons] at hres ⊢
      rw [Runs.along_cons]
      rcases step_cases hb' hs.ordered debug env with
        ⟨hnf, hc⟩ | ⟨hf, mid, code, message, hbr, hfail⟩
      · obtain ⟨h1, h2, h3⟩ := ih _ (hs.step hb debug hnf).2
          ((hc.xform_eq hs.ordered).trans hx) (hex.continues hs.ordered hc) hres
        exact ⟨h1.trans (hc.setup_eq hs.ordered), h2.trans (hc.zones_decompress hs.ordered hx),
          h3.trans (and_iff_right (Or.inl hnf)).symm⟩
      · obtain ⟨hzones, hpend⟩ := hbr.decompress hs.ordered hx
        have hx' := (hbr.xform_eq hs.ordered).trans hx
        have hpc := fail_pc mid code message
        have hset := (fail_setup mid code message).trans (hbr.setup_eq hs.ordered)
        rw [hfail, run_returned hpc]
        rw [fail_decompress hx'] at hset ⊢
        have hend : Runs.Along (step debug) FailsEarly
            { mid with pc := .returned ⟨code, message⟩ } envs :=
          along_returned (fun s env hs => Or.inl (by simp [NoFault, hs])) rfl envs
        refine ⟨hset, hzones, hpend.trans ?_⟩
        rw [and_iff_left hend]
        exact ⟨Or.inr, fun h => h.resolve_left hf⟩

/-- **After a failed `Decompress`** the queue pair is usable, with the memzones
of the compressed buffers taken, exactly when the failing step found no
operation pending. -/
theorem usable_after_failure (hcfg : Accepted st.cfg) (hready : st.Ready) (hidle : st.Idle)
    (buffers : List Buffer) (output : Option ResizableBuffer) (debug : Bool) (envs : List Env)
    {status : Status} (herr : status.code ≠ .ok)
    (h : (Runs.run (step debug) (st.decompress buffers output) envs).result = some status) :
    let t := Runs.run (step debug) (st.decompress buffers output) envs
    t.Usable ∧ KeepsZones buffers st t ↔
      Runs.Along (step debug) FailsEarly (st.decompress buffers output) envs := by
  have hx : (st.decompress buffers output).call.xform = .decompress := by cases output <;> rfl
  have hsetup : (st.decompress buffers output).setup = st.setup :=
    start_setup st (.decompress buffers output)
  have hzones : (st.decompress buffers output).zones = st.zones :=
    start_zones st (.decompress buffers output)
  have hqp : (st.decompress buffers output).qp = st.qp := start_qp st (.decompress buffers output)
  rcases st.start_pc (.decompress buffers output) with hpc | ⟨code, hpc⟩
  · have hstart : (st.decompress buffers output).pc = .assemble := hpc
    obtain ⟨h1, h2, h3⟩ := decompress_pending hcfg.bounds debug herr envs
      (st.decompress buffers output) (hidle.start_inOrder (.decompress buffers output)) hx
      (by simp [Exhausted, hstart]) h
    dsimp only
    rw [usable_iff (hready.of_setup (h1.trans hsetup)), ← h3]
    refine and_iff_left fun buffer _ z _ hz => ?_
    rw [h2, hzones]
    exact hz
  · -- the call was refused
    have hstart : (st.decompress buffers output).pc = .returned code := hpc
    dsimp only
    rw [run_returned hstart]
    refine iff_of_true ⟨?_, fun buffer _ z _ hz => by rwa [hzones]⟩
      (along_returned (fun s env hs => Or.inl (by simp [NoFault, hs])) hstart envs)
    rw [usable_iff (hready.of_setup hsetup), hqp]
    exact hidle.pending

/-- Without a free operation, `Decompress` fails at once. -/
theorem usable_after_failure_sample :
    Usable (Runs.run (step true) ((sampleMachine 1 0).decompress [⟨⟨.host 1, 0⟩, 3⟩]
      (some ⟨⟨.host 2, 0⟩, 8, 0⟩)) [{}]) :=
  ((usable_after_failure sampleConfig_accepted.1 ⟨rfl, by decide⟩ (sampleMachine_idle 1 0)
    [⟨⟨.host 1, 0⟩, 3⟩] (some ⟨⟨.host 2, 0⟩, 8, 0⟩) true [{}]
    (show Status.code ⟨.outOfMemory, "Failed to assemble decompression operations for queue pair 0 of compress device 0"⟩ ≠ .ok
      by decide) (by decide +kernel)).mpr (by decide +kernel)).1

/-- An operation with an error status disables the queue pair. -/
theorem usable_after_failure_busy :
    let t := Runs.run (step true) ((sampleMachine 1 0).decompress [⟨⟨.host 1, 0⟩, 3⟩]
      (some ⟨⟨.host 2, 0⟩, 8, 0⟩))
      [{ bulk := ⟨some [0], some [0, 1]⟩ }, { numAccepted := 1 }, { results := [⟨.error, []⟩] }]
    t.result.map Status.code = some .ioError ∧
      (t.compress (some ⟨⟨.host 0, 0⟩, 8⟩)).result =
        some ⟨.cancelled, s!"Queue pair 0 of compress device {showChar 0} is busy"⟩ := by
  decide +kernel

end Machine

end Bitar
