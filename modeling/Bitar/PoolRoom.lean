import Bitar.PoolSizes
import Bitar.Recovery
import Mathlib.Algebra.Order.BigOperators.Group.List

/-!
# Room in the pools

The main loop of a call assembles a burst after every attempt to dequeue, whether
the device has handed anything back or not.  So the device may hold
`kMaxInflightOps` operations while a whole burst waits to be enqueued.  The mbuf
pool is made for at most `kMaxInflightMbufs` mbufs in the device, sixteen for each
of these operations, and an operation may have `2 * max_sgl_segs` of them.

**Results.**
* `Chains.continues`: the number of mbufs of an operation.
* `Idle.run_roomy`: large pools serve every call.
* `Filling.full`: a device that gives nothing back fills up.
* `poolsSuffice_iff`: exactly when the pools are large enough.
-/

namespace Bitar

open BlockStore Pieces

/-! ## The sizes -/

/-- A full device and a burst, with source and destination segments. -/
theorem Configuration.room_iff {cfg : Configuration} (hb : cfg.Bounds) :
    (kMaxInflightOps + cfg.burstSize.toNat) * cfg.maxSglSegs.toNat * 2 ≤ cfg.numMbufsInPool id ↔
      cfg.maxSglSegs.toNat ≤ 8 := by
  have hle : cfg.maxSglSegs.toNat ≤ cfg.burstSize.toNat * cfg.maxSglSegs.toNat :=
    Nat.le_mul_of_pos_left _ hb.burstSize_pos
  rw [Nat.add_mul]
  simp only [numMbufsInPool, numInflightMbufs, mbufPoolCacheSize, numMbufsInBurst, id,
    kCacheSizeAmplifier, kMaxInflightOps, kMaxInflightMbufs, mempoolCacheMaxSize]
  omega

theorem Configuration.le_numOpsInPool {cfg : Configuration} (hb : cfg.Bounds)
    (h : cfg.maxSglSegs.toNat ≤ 8) :
    kMaxInflightOps + cfg.burstSize.toNat ≤ cfg.numOpsInPool id := by
  have hroom := (room_iff hb).mpr h
  have hsub : (kMaxInflightOps + cfg.burstSize.toNat - 1) * cfg.maxSglSegs.toNat +
      cfg.maxSglSegs.toNat = (kMaxInflightOps + cfg.burstSize.toNat) * cfg.maxSglSegs.toNat := by
    rw [← Nat.succ_mul]
    congr 1
    unfold kMaxInflightOps
    omega
  have hpos := hb.maxSglSegs_pos
  rw [le_numOpsInPool_iff hb (by unfold kMaxInflightOps; omega)]
  omega

namespace Machine

variable {st st' : Machine} {env : Env}

/-- The pools as `Preallocate` makes them. -/
structure FullPools (st : Machine) : Prop where
  operationPool : st.qp.operationPool = Finset.range (st.cfg.numOpsInPool toUInt32)
  mbufPool : st.qp.mbufPool = Finset.range (st.cfg.numMbufsInPool toUInt32)

theorem preallocate_fullPools {qp : QueuePairMemory} {answer : PreallocateAnswer}
    (h : st.qp.preallocate st.deviceId st.queuePairId st.cfg answer = (qp, .success)) :
    FullPools { st with qp := qp } := by
  have hresources := QueuePairMemory.preallocate_success h
  obtain rfl : _ = qp := congrArg Prod.fst h
  exact ⟨congrArg (fun r : Resources => Finset.range (r.operationPool.elim 0 Prod.fst)) hresources,
    congrArg (fun r : Resources => Finset.range (r.mbufPool.elim 0 Prod.fst)) hresources⟩

/-! ## Answers of the pools -/

/-- `BulkAllocate` succeeds in this step, if it is called. -/
def BulkAllocated (st : Machine) (env : Env) : Prop :=
  st.pc = .assemble → 0 < st.burst →
    (st.qp.bulkAllocate env.bulk (count st.cfg.maxSglSegs.toNat st.burst) (st.burst * 2)).2 = .ok

/-- A pool hands out any of its free objects: it refuses only when there are
too few of them. -/
def Offers (st : Machine) (env : Env) : Prop :=
  st.pc = .assemble → 0 < st.burst →
    (count st.cfg.maxSglSegs.toNat st.burst ≤ st.qp.operationPool.card →
      st.opsTaken env ≠ none) ∧
    (st.burst * 2 ≤ st.qp.mbufPool.card → st.mbufsTaken env ≠ none)

/-- The device holds no more operations than its queue pair is set up for, and
the pools hand out what they have. -/
def WithinLimits (st : Machine) (env : Env) : Prop :=
  st.queue.length ≤ kMaxInflightOps ∧ st.Offers env

theorem burst_pos_iff (hb : st.cfg.Bounds) :
    0 < st.burst ↔ st.remaining ≠ [] ∧ st.qp.numOpsAssembled < st.cfg.burstSize.toNat := by
  rw [burst, Nat.lt_min, List.length_pos_iff, Nat.mul_pos_iff_of_pos_right hb.maxSglSegs_pos,
    Nat.sub_pos_iff_lt]

theorem BulkAllocated.of_offers (hb : st.cfg.Bounds) (h : st.Offers env)
    (hops : st.pc = .assemble → 0 < st.burst →
      count st.cfg.maxSglSegs.toNat st.burst ≤ st.qp.operationPool.card)
    (hmbufs : st.pc = .assemble → 0 < st.burst → st.burst * 2 ≤ st.qp.mbufPool.card) :
    st.BulkAllocated env := by
  intro hpc hpos
  have hoffers := h hpc hpos
  rcases bulkAllocate_cases env.bulk (count st.cfg.maxSglSegs.toNat st.burst) (st.burst * 2)
    st.qp with ⟨hnone, -⟩ | ⟨os, -, -, hms, -⟩ | ⟨os, ms, -, -, -, heq⟩
  · obtain ⟨os, hos⟩ := Option.ne_none_iff_exists'.mp (hoffers.1 (hops hpc hpos))
    have hlen := (takeFrom_eq_some hos).length_eq
    have hcount := count_pos hb.maxSglSegs_pos hpos
    cases os with
    | nil =>
        rw [List.length_nil] at hlen
        omega
    | cons o os => exact absurd hos (hnone o os)
  · exact absurd hms (hoffers.2 (hmbufs hpc hpos))
  · rw [heq]

/-! ## The mbufs of an operation -/

/-- What is known of the number of mbufs of a pending operation. -/
def Chains (R : Nat → Prop) (st : Machine) : Prop :=
  ∀ o ∈ st.qp.pendingOperations, R (st.qp.ops o).mbufs.length

theorem length_pendingMbufs_le {c : Nat} (h : st.Chains (· ≤ c)) :
    st.qp.pendingMbufs.length ≤ st.qp.pendingOperations.length * c := by
  rw [QueuePairMemory.pendingMbufs, List.length_flatMap]
  have hsum := List.sum_le_card_nsmul
    (st.qp.pendingOperations.map fun o => (st.qp.ops o).mbufs.length) c (by simpa [Chains] using h)
  simpa using hsum

theorem length_pendingMbufs_eq {c : Nat} (h : st.Chains (· = c)) :
    st.qp.pendingMbufs.length = st.qp.pendingOperations.length * c := by
  rw [QueuePairMemory.pendingMbufs, List.length_flatMap]
  have hsum := List.sum_eq_card_nsmul
    (st.qp.pendingOperations.map fun o => (st.qp.ops o).mbufs.length) c (by simpa [Chains] using h)
  simpa using hsum

/-- As many source mbufs as destination mbufs. -/
theorem Built.length_mbufs {n : Nat} {os ms : List Nat} {ops : Nat → CompOp} {S T : List Segment}
    (h : Built st st' n os ms ops S T) (hT : T.length = n) {j : Nat} (hj : j < os.length) :
    (ops os[j]).mbufs.length =
      min st.cfg.maxSglSegs.toNat (n - j * st.cfg.maxSglSegs.toNat) * 2 := by
  rw [h.ops_eq j hj]
  simp only [CompOp.mbufs, opAt_mSrc, opAt_mDst, List.length_map, List.length_append, length_piece,
    h.length_sources, hT]
  omega

theorem Chains.built {R : Nat → Prop} {n : Nat} {os ms : List Nat} {ops : Nat → CompOp}
    {S T : List Segment} (h : st.Chains R) (hst : st.Ordered) (hm : 0 < st.cfg.maxSglSegs.toNat)
    (hbuilt : Built st st' n os ms ops S T) (hT : T.length = n)
    (hnew : ∀ j, j * st.cfg.maxSglSegs.toNat < n →
      R (min st.cfg.maxSglSegs.toNat (n - j * st.cfg.maxSglSegs.toNat) * 2)) :
    st'.Chains R := by
  have hpend : st'.qp.pendingOperations = st.qp.pendingOperations ++ os := by
    rw [hbuilt.state_eq]
  have hops : st'.qp.ops = ops := by rw [hbuilt.state_eq]
  intro o ho
  rw [hops]
  rw [hpend, List.mem_append] at ho
  rcases ho with ho | ho
  · rw [hbuilt.ops_other o (hbuilt.fresh hst o ho)]
    exact h o ho
  · obtain ⟨j, hj, rfl⟩ := List.getElem_of_mem ho
    rw [hbuilt.length_mbufs hT hj]
    apply hnew
    rw [← lt_count_iff hm, ← hbuilt.ops_handable.length_eq]
    exact hj

theorem Chains.retire {R : Nat → Prop} (h : st.Chains R) (hst : st.Ordered) (bs : List Nat) :
    ((st.afterHandBack env).retire bs).Chains R := by
  obtain ⟨hnd, -⟩ := hst.queue_prefix env
  rw [retire_afterHandBack hnd]
  intro o ho
  rw [show ((st.handBack env).qp.ops o).mbufs = (st.qp.ops o).mbufs from
    (handBack_spec hnd env).mbufs o]
  exact h o (List.mem_of_mem_drop ho)

theorem Chains.drainOrFinish {R : Nat → Prop} (h : st.Chains R) : st.drainOrFinish.Chains R := by
  rw [Chains, drainOrFinish_qp]
  exact h

/-- **Step lemma.** -/
theorem Chains.continues {R : Nat → Prop} (h : st.Chains R) (hst : st.Ordered)
    (hm : 0 < st.cfg.maxSglSegs.toNat)
    (hnew : ∀ j, j * st.cfg.maxSglSegs.toNat < st.burst →
      R (min st.cfg.maxSglSegs.toNat (st.burst - j * st.cfg.maxSglSegs.toNat) * 2))
    (hstep : Continues st env st') : st'.Chains R := by
  cases hstep with
  | built hpc built hT =>
      obtain rfl : _ = st.burst := built.n_eq
      have hchains := h.built hst hm built hT hnew
      exact hchains
  | full hpc hpos => exact h
  | exhausted hpc hrem hnone => exact h.drainOrFinish
  | enqueued hpc hread => exact h
  | dequeued hpc hsucc => exact h.retire hst _
  | drained hpc hsucc => exact (h.retire hst _).drainOrFinish
  | returned hpc => exact h

/-! ## At most eight segments -/

theorem start_code {request : Request} {status : Status}
    (h : (st.start request).pc = .returned status) : status.code ≠ .outOfMemory := by
  have hguard : st.guardStatus.code ≠ .outOfMemory := by
    unfold guardStatus entryGuard
    split_ifs <;> simp [Status.invalid, Status.success]
  cases request with
  | compress input =>
      cases input with
      | none =>
          cases h
          decide
      | some input =>
          simp only [start, compress] at h
          split_ifs at h <;> cases h
          · decide
          · exact hguard
  | decompress buffers output =>
      cases output with
      | none =>
          simp only [start, decompress] at h
          split_ifs at h <;> cases h <;> simp [Status.success]
      | some output =>
          simp only [start, decompress] at h
          split_ifs at h <;> cases h
          · simp [Status.success]
          · simp
          · exact hguard

/-- A call that goes on returns OK. -/
theorem Continues.code (h : Continues st env st') (hpc : ∀ status, st.pc ≠ .returned status)
    {status : Status} (hret : st'.pc = .returned status) : status = .success := by
  have hfinish : ∀ s : Machine, s.drainOrFinish.pc = .returned status → status = .success := by
    intro s hs
    rcases s.drainOrFinish_cases with ⟨-, he⟩ | ⟨-, he⟩ <;> rw [he] at hs
    · cases hs
    · rw [finish_pc] at hs
      exact (Pc.returned.inj hs).symm
  cases h with
  | built hpc' built hT => cases hret
  | full hpc' hpos => cases hret
  | exhausted hpc' hrem hnone => exact hfinish st hret
  | enqueued hpc' hread => cases hret
  | dequeued hpc' hsucc => cases hret
  | drained hpc' hsucc => exact hfinish _ hret
  | returned hpc' => exact absurd hpc' (hpc _)

/-- A step that has its mbufs and operations does not run out of memory. -/
theorem Breaks.code_ne_outOfMemory {mid : Machine} {code : StatusCode}
    (h : Breaks st env mid code) (hpos : st.pc = .assemble → 0 < st.burst)
    (ha : st.BulkAllocated env) : code ≠ .outOfMemory := by
  cases h with
  | noOps hpc hrem hops =>
      have hok := ha hpc (hpos hpc)
      rcases bulkAllocate_cases env.bulk (count st.cfg.maxSglSegs.toNat st.burst) (st.burst * 2)
        st.qp with ⟨-, heq⟩ | ⟨os, hne, hos, -⟩ | ⟨os, ms, hne, hos, -⟩
      · rw [heq] at hok
        cases hok
      all_goals
        obtain ⟨o, os, rfl⟩ := List.exists_cons_of_ne_nil hne
        exact absurd hos (hops o os)
  | noMbufs hpc hne hos hms =>
      have hok := ha hpc (hpos hpc)
      rcases bulkAllocate_cases env.bulk (count st.cfg.maxSglSegs.toNat st.burst) (st.burst * 2)
        st.qp with ⟨-, heq⟩ | ⟨os, -, -, -, heq⟩ | ⟨os, ms, -, -, hms', -⟩
      · rw [heq] at hok
        cases hok
      · rw [heq] at hok
        cases hok
      · exact absurd (hms.symm.trans hms') (by simp)
  | short hpc built hT hne hos hzones => decide
  | enqueue hpc counter => decide
  | stats hpc hnone => decide
  | failed hpc hfail => decide

/-- Where nothing is left to assemble, nothing fails. -/
theorem noFault_of_burst_eq_zero (hb : st.cfg.Bounds) (hpc : st.pc = .assemble)
    (hzero : st.burst = 0) : st.NoFault env := by
  have hstop : st.remaining = [] ∨ st.cfg.burstSize.toNat ≤ st.qp.numOpsAssembled := by
    by_contra h
    obtain ⟨hne, hle⟩ := not_or.mp h
    exact Nat.ne_of_gt ((burst_pos_iff hb).mpr ⟨hne, Nat.not_le.mp hle⟩) hzero
  unfold NoFault
  rw [hpc]
  unfold remaining Call.remaining at hstop
  unfold assembleFrom
  cases hcall : st.call with
  | compress input offset out =>
      rw [hcall] at hstop
      dsimp only
      rw [assembleFromDecompressed_eq hb, if_pos hstop]
      rfl
  | decompress buffers output index offset size =>
      rw [hcall] at hstop
      dsimp only
      rw [assembleFromCompressed_eq hb, if_pos hstop]
      rfl

section Roomy

variable {cfg : Configuration} {opPool mbufPool : Finset Nat}

/-- There is room in the pools for a device that is full and a burst. -/
structure Suffices (cfg : Configuration) (opPool mbufPool : Finset Nat) : Prop where
  ops : kMaxInflightOps + cfg.burstSize.toNat ≤ opPool.card
  mbufs : (kMaxInflightOps + cfg.burstSize.toNat) * cfg.maxSglSegs.toNat * 2 ≤ mbufPool.card

/-- As long as the call has not returned, all that is not free belongs to a
pending operation; it has not run out of memory. -/
structure Roomy (cfg : Configuration) (opPool mbufPool : Finset Nat) (st : Machine) : Prop where
  inOrder : (∀ status, st.pc ≠ .returned status) → InOrder cfg opPool mbufPool st
  chains : (∀ status, st.pc ≠ .returned status) → st.Chains (· ≤ cfg.maxSglSegs.toNat * 2)
  code : ∀ status, st.pc = .returned status → status.code ≠ .outOfMemory

theorem Roomy.of_returned {status : Status} (hpc : st.pc = .returned status)
    (hcode : status.code ≠ .outOfMemory) : Roomy cfg opPool mbufPool st := by
  refine ⟨fun h => absurd hpc (h status), fun h => absurd hpc (h status), ?_⟩
  intro status' hpc'
  rw [hpc] at hpc'
  exact Pc.returned.inj hpc' ▸ hcode

/-- The pending operations are those of the device and the assembled ones. -/
theorem InOrder.length_pending (h : InOrder cfg opPool mbufPool st) :
    st.qp.pendingOperations.length = st.queue.length + st.qp.numOpsAssembled := by
  rw [h.ordered.pending, List.length_append, QueuePairMemory.length_assembled]

/-- The next burst fits into the pools. -/
theorem InOrder.room (hb : cfg.Bounds) (hroom : Suffices cfg opPool mbufPool)
    (h : InOrder cfg opPool mbufPool st) (hchains : st.Chains (· ≤ cfg.maxSglSegs.toNat * 2))
    (hqueue : st.queue.length ≤ kMaxInflightOps) :
    count st.cfg.maxSglSegs.toNat st.burst ≤ st.qp.operationPool.card ∧
      st.burst * 2 ≤ st.qp.mbufPool.card := by
  have hops := h.bookkeeping.ops.card_add_length
  have hmbufs := h.bookkeeping.mbufs.card_add_length
  have hassembled := h.ordered.assembled_le
  have hpending := length_pendingMbufs_le hchains
  have hburst : st.burst ≤ (st.cfg.burstSize.toNat - st.qp.numOpsAssembled) *
      st.cfg.maxSglSegs.toNat := Nat.min_le_right _ _
  rw [h.length_pending] at hops hpending
  rw [h.cfg_eq] at hburst hassembled ⊢
  have hcount := (count_le_iff hb.maxSglSegs_pos).mpr hburst
  have hroomOps := hroom.ops
  have hroomMbufs := hroom.mbufs
  constructor
  · omega
  · -- the segments of the device, of the assembled operations and of the burst
    have hsegments : (st.queue.length + st.qp.numOpsAssembled) * cfg.maxSglSegs.toNat +
        (cfg.burstSize.toNat - st.qp.numOpsAssembled) * cfg.maxSglSegs.toNat ≤
          (kMaxInflightOps + cfg.burstSize.toNat) * cfg.maxSglSegs.toNat := by
      rw [← Nat.add_mul]
      exact Nat.mul_le_mul_right _ (by omega)
    rw [← Nat.mul_assoc] at hpending
    omega

/-- **Step lemma.** -/
theorem Roomy.step (hb : cfg.Bounds) (hroom : Suffices cfg opPool mbufPool) (debug : Bool)
    (h : Roomy cfg opPool mbufPool st) (hlimits : st.WithinLimits env) :
    st.BulkAllocated env ∧ Roomy cfg opPool mbufPool (Machine.step debug st env) := by
  by_cases hret : ∃ status, st.pc = .returned status
  · obtain ⟨status, hpc⟩ := hret
    rw [step_returned hpc]
    refine ⟨?_, h⟩
    intro hpc'
    rw [hpc] at hpc'
    cases hpc'
  have hrunning : ∀ status, st.pc ≠ .returned status := not_exists.mp hret
  have hin := h.inOrder hrunning
  have hb' : st.cfg.Bounds := hin.cfg_eq ▸ hb
  have hfits := hin.room hb hroom (h.chains hrunning) hlimits.1
  have hallocated := BulkAllocated.of_offers hb' hlimits.2 (fun _ _ => hfits.1) fun _ _ => hfits.2
  refine ⟨hallocated, ?_⟩
  rcases step_cases hb' hin.ordered debug env with ⟨hnf, hc⟩ | ⟨hf, mid, code, message, hbr, he⟩
  · refine ⟨fun _ => (hin.step hb debug hnf).2, fun _ => ?_, fun status hpc => ?_⟩
    · refine (h.chains hrunning).continues hin.ordered hb'.maxSglSegs_pos ?_ hc
      intro j _
      rw [hin.cfg_eq]
      exact Nat.mul_le_mul_right 2 (Nat.min_le_left _ _)
    · rw [hc.code hrunning hpc]
      decide
  · rw [he]
    refine .of_returned (fail_pc mid code message) (hbr.code_ne_outOfMemory ?_ hallocated)
    intro hpc
    by_contra hzero
    exact hf (noFault_of_burst_eq_zero hb' hpc (Nat.eq_zero_of_not_pos hzero))

theorem Idle.start_roomy (hidle : st.Idle) (request : Request) :
    Roomy st.cfg st.qp.operationPool st.qp.mbufPool (st.start request) := by
  refine ⟨fun _ => hidle.start_inOrder request, fun _ => ?_, fun status => start_code⟩
  intro o ho
  rw [start_qp, hidle.pending] at ho
  cases ho

/-- **Run lemma.** -/
theorem Idle.run_roomy (hidle : st.Idle) (hb : st.cfg.Bounds)
    (hroom : Suffices st.cfg st.qp.operationPool st.qp.mbufPool) (request : Request) {debug : Bool}
    {envs : List Env} (h : Runs.Along (Machine.step debug) WithinLimits (st.start request) envs) :
    Runs.Along (Machine.step debug) BulkAllocated (st.start request) envs ∧
      Roomy st.cfg st.qp.operationPool st.qp.mbufPool
        (Runs.run (Machine.step debug) (st.start request) envs) := by
  have hpreserved : ∀ s e, Roomy st.cfg st.qp.operationPool st.qp.mbufPool s →
      s.WithinLimits e →
        Roomy st.cfg st.qp.operationPool st.qp.mbufPool (Machine.step debug s e) :=
    fun s e hs he => (hs.step hb hroom debug he).2
  exact ⟨Runs.Along.of_invariant hpreserved (fun s e hs he => (hs.step hb hroom debug he).1)
      (hidle.start_roomy request) h,
    Runs.Along.invariant hpreserved (hidle.start_roomy request) h⟩

end Roomy

/-! ## A device that gives nothing back -/

/-- No schedule within the limits makes the call run out of memory. -/
def NeverShort (debug : Bool) (st : Machine) : Prop :=
  ∀ envs, Runs.Along (step debug) WithinLimits st envs →
    ∀ status, (Runs.run (step debug) st envs).result = some status → status.code ≠ .outOfMemory

theorem NeverShort.step {debug : Bool} (h : NeverShort debug st) (hlimits : st.WithinLimits env) :
    NeverShort debug (Machine.step debug st env) :=
  fun envs hal => h (env :: envs) ⟨hlimits, hal⟩

theorem NeverShort.code {debug : Bool} {status : Status} (h : NeverShort debug st)
    (hpc : st.pc = .returned status) : status.code ≠ .outOfMemory :=
  h [] trivial status (result_eq_some.mpr hpc)

theorem exists_takeFrom (free : Finset Nat) (n : Nat) :
    ∃ answer, n ≤ free.card → takeFrom free n answer ≠ none := by
  by_cases h : n ≤ free.card
  · obtain ⟨taken, hsub, hcard⟩ := Finset.exists_subset_card_eq h
    have hhand : taken.toList.length = n ∧ taken.toList.Nodup ∧ ∀ x ∈ taken.toList, x ∈ free :=
      ⟨by rw [Finset.length_toList, hcard], taken.nodup_toList,
        fun x hx => hsub (Finset.mem_toList.mp hx)⟩
    refine ⟨some taken.toList, fun _ => ?_⟩
    rw [takeFrom, if_pos hhand]
    simp
  · exact ⟨none, fun hle => absurd hle h⟩

theorem exists_offers (st : Machine) : ∃ env, st.Offers env := by
  obtain ⟨ops, hops⟩ := exists_takeFrom st.qp.operationPool
    (count st.cfg.maxSglSegs.toNat st.burst)
  obtain ⟨mbufs, hmbufs⟩ := exists_takeFrom st.qp.mbufPool (st.burst * 2)
  exact ⟨{ bulk := ⟨ops, mbufs⟩ }, fun _ _ => ⟨hops, hmbufs⟩⟩

/-- A device whose counters are zero reports no errors. -/
theorem getErrorCount_quiet (counter k : Nat) : (getErrorCount counter k {}).1 = 0 := by
  unfold getErrorCount
  dsimp only
  split_ifs <;> rfl

/-- No pool is asked for anything outside `AssembleFrom`. -/
theorem offers_of_ne (hpc : st.pc ≠ .assemble) (env : Env) : st.Offers env :=
  fun hpc' => absurd hpc' hpc

/-- A burst that gets all it asks for is assembled. -/
theorem step_built {debug : Bool} (hb : st.cfg.Bounds) (hpc : st.pc = .assemble)
    (hpos : 0 < st.burst) (hsupplied : st.Supplied env)
    (hcode : ∀ status, (step debug st env).pc = .returned status → status.code ≠ .outOfMemory) :
    ∃ (st' : Machine) (os ms : List Nat) (ops : Nat → CompOp) (S T : List Segment),
      Built st st' st.burst os ms ops S T ∧ T.length = st.burst ∧
      step debug st env = { st' with
        pc := .enqueue (st.qp.numOpsAssembled + count st.cfg.maxSglSegs.toNat st.burst) } := by
  have hstep : step debug st env = st.assembleStep env := by simp [step, hpc]
  have hout := assembleFrom_spec hb env
  rw [hstep] at hcode ⊢
  unfold assembleStep at hcode ⊢
  cases hr : st.assembleFrom env with
  | mk st' res =>
  rw [hr] at hout hcode
  dsimp only at hout hcode ⊢
  cases hout with
  | nothing hstop =>
      obtain ⟨hne, hlt⟩ := (burst_pos_iff hb).mp hpos
      exact absurd hstop (not_or.mpr ⟨hne, Nat.not_le.mpr hlt⟩)
  | noOps hrem hops => exact absurd rfl (hcode _ (fail_pc _ _ _))
  | noMbufs hne hos hms => exact absurd rfl (hcode _ (fail_pc _ _ _))
  | short built hT hne hos hzones => exact absurd hsupplied hzones
  | @complete st' n os ms ops S T built hT hms hzones =>
      obtain rfl : n = st.burst := built.n_eq
      have hcount := count_pos hb.maxSglSegs_pos hpos
      refine ⟨st', os, ms, ops, S, T, built, hT, ?_⟩
      dsimp only
      rw [if_pos (by omega)]

section Filling

variable {cfg : Configuration} {opPool mbufPool : Finset Nat} {debug : Bool}

/-- A call of `Decompress` with work for a full device and a burst, of which
every operation has as many segments as it can have. -/
structure Filling (cfg : Configuration) (opPool mbufPool : Finset Nat) (st : Machine) :
    Prop where
  inOrder : InOrder cfg opPool mbufPool st
  chains : st.Chains (· = cfg.maxSglSegs.toNat * 2)
  decompress : st.call.xform = .decompress
  work : st.remaining.length + st.qp.pendingOperations.length * cfg.maxSglSegs.toNat =
    (kMaxInflightOps + cfg.burstSize.toNat) * cfg.maxSglSegs.toNat

/-- Enough is left for the next burst. -/
theorem Filling.burst_eq (h : Filling cfg opPool mbufPool st)
    (hqueue : st.queue.length ≤ kMaxInflightOps) :
    st.burst = (cfg.burstSize.toNat - st.qp.numOpsAssembled) * cfg.maxSglSegs.toNat := by
  have hassembled := h.inOrder.ordered.assembled_le
  have hwork := h.work
  rw [h.inOrder.length_pending] at hwork
  rw [h.inOrder.cfg_eq] at hassembled
  have hsegments : (cfg.burstSize.toNat - st.qp.numOpsAssembled) * cfg.maxSglSegs.toNat +
      (st.queue.length + st.qp.numOpsAssembled) * cfg.maxSglSegs.toNat ≤
        (kMaxInflightOps + cfg.burstSize.toNat) * cfg.maxSglSegs.toNat := by
    rw [← Nat.add_mul]
    exact Nat.mul_le_mul_right _ (by omega)
  rw [burst, h.inOrder.cfg_eq]
  omega

/-- The enqueue half of `operations_` is filled up. -/
theorem Filling.assemble (hb : cfg.Bounds) (h : Filling cfg opPool mbufPool st)
    (hnever : NeverShort debug st) (hpc : st.pc = .assemble)
    (hqueue : st.queue.length ≤ kMaxInflightOps)
    (hassembled : st.qp.numOpsAssembled < cfg.burstSize.toNat) :
    ∃ st', Filling cfg opPool mbufPool st' ∧ NeverShort debug st' ∧
      st'.pc = .enqueue cfg.burstSize.toNat ∧ st'.queue = st.queue := by
  have hb' : st.cfg.Bounds := h.inOrder.cfg_eq ▸ hb
  have hst := h.inOrder.ordered
  have hburst := h.burst_eq hqueue
  have hpos : 0 < st.burst := by
    rw [hburst]
    exact Nat.mul_pos (by omega) hb.maxSglSegs_pos
  have hcount : count st.cfg.maxSglSegs.toNat st.burst =
      cfg.burstSize.toNat - st.qp.numOpsAssembled := by
    rw [hburst, h.inOrder.cfg_eq, count_mul hb.maxSglSegs_pos]
  obtain ⟨env, hoffers⟩ := exists_offers st
  have hnext := hnever.step (show st.WithinLimits env from ⟨hqueue, hoffers⟩)
  obtain ⟨st', os, ms, ops, S, T, built, hT, he⟩ := step_built hb' hpc hpos
    (supplied_decompress h.decompress) fun status hret => hnext.code hret
  have hc : Continues st env _ := .built hpc built hT
  rw [he] at hnext
  rw [show st.qp.numOpsAssembled + count st.cfg.maxSglSegs.toNat st.burst =
    cfg.burstSize.toNat by omega] at hc hnext
  refine ⟨_, ⟨⟨?_, ?_, ?_⟩, ?_, ?_, ?_⟩, hnext, rfl, ?_⟩
  · exact (hc.cfg_eq hst).trans h.inOrder.cfg_eq
  · exact hst.continues hb' hc
  · exact h.inOrder.bookkeeping.continues hst hb' hc
  · refine h.chains.continues hst hb'.maxSglSegs_pos ?_ hc
    intro j hj
    rw [hburst, h.inOrder.cfg_eq] at hj ⊢
    have hle := Nat.mul_le_mul_right cfg.maxSglSegs.toNat (Nat.lt_of_mul_lt_mul_right hj)
    rw [Nat.succ_mul] at hle
    rw [Nat.min_eq_left (by omega)]
  · exact (hc.xform_eq hst).trans h.decompress
  · have hpend : st'.qp.pendingOperations = st.qp.pendingOperations ++ os := by
      rw [built.state_eq]
    have hwork := h.work
    have hle : st.burst ≤ st.remaining.length := Nat.min_le_left _ _
    show st'.remaining.length + st'.qp.pendingOperations.length * _ = _
    rw [built.remaining_eq, hpend, List.length_append, built.ops_handable.length_eq, hcount,
      List.length_drop, Nat.add_mul]
    omega
  · show st'.queue = _
    rw [built.state_eq]

/-- The device accepts one operation. -/
theorem Filling.enqueue (hb : cfg.Bounds) (h : Filling cfg opPool mbufPool st)
    (hnever : NeverShort debug st) (hpc : st.pc = .enqueue cfg.burstSize.toNat)
    (hqueue : st.queue.length ≤ kMaxInflightOps) :
    ∃ st', Filling cfg opPool mbufPool st' ∧ NeverShort debug st' ∧ st'.pc = .dequeue ∧
      st'.queue.length = st.queue.length + 1 ∧
      st'.qp.numOpsAssembled < cfg.burstSize.toNat := by
  obtain ⟨hnum, hpos⟩ := h.inOrder.ordered.enqueue _ hpc
  have hlt : cfg.burstSize.toNat < 65536 := cfg.burstSize.toNat_lt
  have hlimits : st.WithinLimits { numAccepted := 1 } :=
    ⟨hqueue, offers_of_ne (by simp [hpc]) _⟩
  have hnf : st.NoFault { numAccepted := 1 } := by
    unfold NoFault
    rw [hpc]
    dsimp only
    rw [toUInt16_of_lt hlt, getErrorCount, if_pos (by omega)]
  obtain ⟨hc, hin⟩ := h.inOrder.step hb debug hnf
  have hx := hc.xform_eq h.inOrder.ordered
  have hnext := hnever.step hlimits
  generalize Machine.step debug st { numAccepted := 1 } = st' at hc hin hnext hx
  cases hc with
  | enqueued hpc' hread =>
      refine ⟨_, ⟨hin, h.chains, hx.trans h.decompress, h.work⟩, hnext, rfl, ?_, ?_⟩
      · have hlen : st.qp.assembled.length = st.qp.numOpsAssembled := st.qp.length_assembled
        show (st.queue ++ st.qp.assembled.take 1).length = _
        rw [List.length_append, List.length_take]
        omega
      · show st.qp.numOpsAssembled - min 1 st.qp.numOpsAssembled < _
        omega
  | built hpc' => simp [hpc] at hpc'
  | full hpc' => simp [hpc] at hpc'
  | exhausted hpc' => simp [hpc] at hpc'
  | dequeued hpc' => simp [hpc] at hpc'
  | drained hpc' => simp [hpc] at hpc'
  | returned hpc' => simp [hpc] at hpc'

/-- The device hands nothing back. -/
theorem Filling.dequeue (hb : cfg.Bounds) (h : Filling cfg opPool mbufPool st)
    (hnever : NeverShort debug st) (hpc : st.pc = .dequeue)
    (hqueue : st.queue.length ≤ kMaxInflightOps) :
    ∃ st', Filling cfg opPool mbufPool st' ∧ NeverShort debug st' ∧ st'.pc = .assemble ∧
      st'.queue = st.queue ∧ st'.qp.numOpsAssembled = st.qp.numOpsAssembled := by
  have hnone : st.numDequeued {} = 0 := by simp [numDequeued]
  have hlimits : st.WithinLimits {} := ⟨hqueue, offers_of_ne (by simp [hpc]) _⟩
  have hnf : st.NoFault {} := by
    unfold NoFault
    rw [hpc]
    dsimp only
    rw [hnone]
    refine ⟨?_, by simp [finished]⟩
    exact getErrorCount_quiet _ _
  obtain ⟨hc, hin⟩ := h.inOrder.step hb debug hnf
  have hx := hc.xform_eq h.inOrder.ordered
  have hnext := hnever.step hlimits
  generalize Machine.step debug st {} = st' at hc hin hnext hx
  cases hc with
  | dequeued hpc' hsucc =>
      have hst := h.inOrder.ordered
      have hretire := @retire_afterHandBack st {} (hst.queue_prefix {}).1
        (st.queue.take (st.numDequeued {}))
      have hrem := remaining_retire hst {} (st.queue.take (st.numDequeued {}))
      have hchains := @Chains.retire st {} _ h.chains hst (st.queue.take (st.numDequeued {}))
      rw [hnone, List.take_zero] at hretire hrem hchains hin hnext hx
      refine ⟨_, ⟨hin, hchains, hx.trans h.decompress, ?_⟩, hnext, rfl, ?_, ?_⟩
      · show ((st.afterHandBack {}).retire []).remaining.length +
          ((st.afterHandBack {}).retire []).qp.pendingOperations.length * _ = _
        rw [hrem, hretire]
        exact h.work
      · show ((st.afterHandBack {}).retire []).queue = _
        rw [hretire]
        exact List.drop_zero
      · show ((st.afterHandBack {}).retire []).qp.numOpsAssembled = _
        rw [hretire]
  | built hpc' => simp [hpc] at hpc'
  | full hpc' => simp [hpc] at hpc'
  | exhausted hpc' => simp [hpc] at hpc'
  | enqueued hpc' => simp [hpc] at hpc'
  | drained hpc' => simp [hpc] at hpc'
  | returned hpc' => simp [hpc] at hpc'

/-- **Run lemma.**  Round after round, the device holds one operation more. -/
theorem Filling.full (hb : cfg.Bounds) (h : Filling cfg opPool mbufPool st)
    (hnever : NeverShort debug st) (hpc : st.pc = .assemble) (hqueue : st.queue = [])
    (hassembled : st.qp.numOpsAssembled < cfg.burstSize.toNat) :
    ∀ k, k ≤ kMaxInflightOps → ∃ st', Filling cfg opPool mbufPool st' ∧ NeverShort debug st' ∧
      st'.pc = .enqueue cfg.burstSize.toNat ∧ st'.queue.length = k
  | 0, _ => by
      obtain ⟨st', h', hnever', hpc', hqueue'⟩ :=
        h.assemble hb hnever hpc (by simp [hqueue]) hassembled
      exact ⟨st', h', hnever', hpc', by rw [hqueue', hqueue, List.length_nil]⟩
  | k + 1, hk => by
      obtain ⟨s₁, h₁, hnever₁, hpc₁, hqueue₁⟩ :=
        Filling.full hb h hnever hpc hqueue hassembled k (by omega)
      obtain ⟨s₂, h₂, hnever₂, hpc₂, hqueue₂, hassembled₂⟩ :=
        h₁.enqueue hb hnever₁ hpc₁ (by omega)
      obtain ⟨s₃, h₃, hnever₃, hpc₃, hqueue₃, hassembled₃⟩ :=
        h₂.dequeue hb hnever₂ hpc₂ (by omega)
      obtain ⟨s₄, h₄, hnever₄, hpc₄, hqueue₄⟩ :=
        h₃.assemble hb hnever₃ hpc₃ (by rw [hqueue₃]; omega) (by omega)
      exact ⟨s₄, h₄, hnever₄, hpc₄, by rw [hqueue₄, hqueue₃]; omega⟩

/-- A full device and a full burst need all these mbufs. -/
theorem Filling.le_card (hb : cfg.Bounds) (h : Filling cfg opPool mbufPool st)
    (hnever : NeverShort debug st) (hpc : st.pc = .assemble) (hqueue : st.queue = [])
    (hassembled : st.qp.numOpsAssembled < cfg.burstSize.toNat) :
    (kMaxInflightOps + cfg.burstSize.toNat) * cfg.maxSglSegs.toNat * 2 ≤ mbufPool.card := by
  obtain ⟨st', h', -, hpc', hqueue'⟩ :=
    h.full hb hnever hpc hqueue hassembled kMaxInflightOps (Nat.le_refl _)
  obtain ⟨hnum, -⟩ := h'.inOrder.ordered.enqueue _ hpc'
  have hmbufs := h'.inOrder.bookkeeping.mbufs.card_add_length
  rw [length_pendingMbufs_eq h'.chains, h'.inOrder.length_pending, hqueue', ← hnum,
    ← Nat.mul_assoc] at hmbufs
  omega

/-- A call with enough work fills the device. -/
theorem Idle.start_filling (hready : st.Ready) (hidle : st.Idle) (hb : st.cfg.Bounds)
    {buffers : List Buffer} {output : ResizableBuffer}
    (hlen : buffers.length = (kMaxInflightOps + st.cfg.burstSize.toNat) * st.cfg.maxSglSegs.toNat)
    (hcapacity : buffers.length * st.cfg.decompressedSegSize.toNat ≤ output.capacity) :
    Filling st.cfg st.qp.operationPool st.qp.mbufPool
        (st.start (.decompress buffers (some output))) ∧
      (st.start (.decompress buffers (some output))).pc = .assemble := by
  have hwork : 0 < buffers.length := by
    rw [hlen]
    exact Nat.mul_pos (by unfold kMaxInflightOps; omega) hb.maxSglSegs_pos
  refine ⟨⟨hidle.start_inOrder _, ?_, rfl, ?_⟩,
    decompress_pc hready hidle (List.length_pos_iff.mp hwork) hcapacity⟩
  · intro o ho
    rw [start_qp, hidle.pending] at ho
    cases ho
  · rw [start_qp, hidle.pending, List.length_nil, Nat.zero_mul, Nat.add_zero, ← hlen]
    exact length_bufferSpans buffers 0

/-- Without enough mbufs the call runs out of memory. -/
theorem Idle.runs_out (hready : st.Ready) (hidle : st.Idle) (hb : st.cfg.Bounds)
    {buffers : List Buffer} {output : ResizableBuffer}
    (hlen : buffers.length = (kMaxInflightOps + st.cfg.burstSize.toNat) * st.cfg.maxSglSegs.toNat)
    (hcapacity : buffers.length * st.cfg.decompressedSegSize.toNat ≤ output.capacity)
    (hshort : st.qp.mbufPool.card <
      (kMaxInflightOps + st.cfg.burstSize.toNat) * st.cfg.maxSglSegs.toNat * 2) (debug : Bool) :
    ∃ envs status, Runs.Along (step debug) WithinLimits
        (st.start (.decompress buffers (some output))) envs ∧
      (Runs.run (step debug) (st.start (.decompress buffers (some output))) envs).result =
        some status ∧ status.code = .outOfMemory := by
  by_contra hnot
  obtain ⟨hfilling, hpc⟩ := hidle.start_filling hready hb hlen hcapacity
  have hnever : NeverShort debug (st.start (.decompress buffers (some output))) :=
    fun envs hal status hres hcode => hnot ⟨envs, status, hal, hres, hcode⟩
  have hle := hfilling.le_card hb hnever hpc (by rw [start_queue, hidle.queue]) (by
    rw [start_qp, hidle.numOpsAssembled]
    exact hb.burstSize_pos)
  omega

end Filling

end Machine

/-! ## Exactly when the pools are large enough -/

/-- In no call on an idle queue pair with full pools does `BulkAllocate` fail, as
long as the device holds no more operations than its queue pair is set up for;
no such call runs out of memory. -/
def Configuration.PoolsSuffice (cfg : Configuration) : Prop :=
  ∀ (st : Machine) (request : Machine.Request) (debug : Bool) (envs : List Env),
    st.cfg = cfg → st.Idle → st.FullPools →
    Runs.Along (Machine.step debug) Machine.WithinLimits (st.start request) envs →
      Runs.Along (Machine.step debug) Machine.BulkAllocated (st.start request) envs ∧
      ∀ status, (Runs.run (Machine.step debug) (st.start request) envs).result = some status →
        status.code ≠ .outOfMemory

/-- An idle queue pair of a started device, with full pools. -/
def fullMachine (cfg : Configuration) : Machine :=
  { sampleMachine 1 0 with
    cfg := cfg
    qp :=
      { operationPool := Finset.range (cfg.numOpsInPool toUInt32)
        mbufPool := Finset.range (cfg.numMbufsInPool toUInt32) } }

theorem fullMachine_start (cfg : Configuration) :
    (fullMachine cfg).Ready ∧ (fullMachine cfg).Idle ∧ (fullMachine cfg).FullPools :=
  ⟨⟨rfl, Nat.zero_lt_one⟩, ⟨rfl, rfl, rfl⟩, ⟨rfl, rfl⟩⟩

namespace Configuration

variable {cfg : Configuration}

theorem poolsSuffice_of_le (hb : cfg.Bounds) (hfit : cfg.PoolProductsFit)
    (h : cfg.maxSglSegs.toNat ≤ 8) : cfg.PoolsSuffice := by
  rintro st request debug envs rfl hidle hfull hlimits
  have hroom : Machine.Suffices st.cfg st.qp.operationPool st.qp.mbufPool := by
    refine ⟨?_, ?_⟩
    · rw [hfull.operationPool, Finset.card_range, hfit.numOpsInPool_eq]
      exact le_numOpsInPool hb h
    · rw [hfull.mbufPool, Finset.card_range, hfit.numMbufsInPool_eq]
      exact (room_iff hb).mpr h
  obtain ⟨hallocated, hroomy⟩ := hidle.run_roomy hb hroom request hlimits
  exact ⟨hallocated, fun status hres => hroomy.code status (Machine.result_eq_some.mp hres)⟩

/-- The same call on a queue pair for more than eight segments. -/
theorem runs_out_of_lt (hb : cfg.Bounds) (hfit : cfg.PoolProductsFit)
    (h : 8 < cfg.maxSglSegs.toNat) (debug : Bool) {buffers : List Buffer}
    {output : ResizableBuffer}
    (hlen : buffers.length = (kMaxInflightOps + cfg.burstSize.toNat) * cfg.maxSglSegs.toNat)
    (hcapacity : buffers.length * cfg.decompressedSegSize.toNat ≤ output.capacity) :
    ∃ envs status, Runs.Along (Machine.step debug) Machine.WithinLimits
        ((fullMachine cfg).start (.decompress buffers (some output))) envs ∧
      (Runs.run (Machine.step debug)
        ((fullMachine cfg).start (.decompress buffers (some output))) envs).result =
          some status ∧ status.code = .outOfMemory := by
  obtain ⟨hready, hidle, hfull⟩ := fullMachine_start cfg
  refine hidle.runs_out hready hb hlen hcapacity ?_ debug
  rw [hfull.mbufPool, Finset.card_range]
  have hshort := mt (room_iff hb).mp (Nat.not_le.mpr h)
  rw [← hfit.numMbufsInPool_eq] at hshort
  exact Nat.not_le.mp hshort

/-- Buffers for a full device and a burst. -/
def fillingBuffers (cfg : Configuration) : List Buffer :=
  List.replicate ((kMaxInflightOps + cfg.burstSize.toNat) * cfg.maxSglSegs.toNat) ⟨⟨.host 0, 0⟩, 8⟩

def fillingOutput (cfg : Configuration) : ResizableBuffer :=
  ⟨⟨.host 1, 0⟩, cfg.fillingBuffers.length * cfg.decompressedSegSize.toNat, 0⟩

theorem not_poolsSuffice_of_lt (hb : cfg.Bounds) (hfit : cfg.PoolProductsFit)
    (h : 8 < cfg.maxSglSegs.toNat) : ¬ cfg.PoolsSuffice := by
  intro hsuffice
  have hcapacity : cfg.fillingBuffers.length * cfg.decompressedSegSize.toNat ≤
      cfg.fillingOutput.capacity := Nat.le_refl _
  obtain ⟨envs, status, hlimits, hres, hcode⟩ :=
    runs_out_of_lt hb hfit h false (List.length_replicate ..) hcapacity
  obtain ⟨-, hidle, hfull⟩ := fullMachine_start cfg
  exact (hsuffice _ _ false envs rfl hidle hfull hlimits).2 status hres hcode

/-- **Room in the pools.**  The pools are large enough for every schedule, if and
only if an operation has at most eight source segments. -/
theorem poolsSuffice_iff (hcfg : Accepted cfg) (hfit : cfg.PoolProductsFit) :
    cfg.PoolsSuffice ↔ cfg.maxSglSegs.toNat ≤ 8 := by
  refine ⟨fun hsuffice => ?_, poolsSuffice_of_le hcfg.bounds hfit⟩
  by_contra h
  exact not_poolsSuffice_of_lt hcfg.bounds hfit (Nat.not_le.mp h) hsuffice

theorem poolsSuffice_sample : (sampleConfig 2).PoolsSuffice :=
  (poolsSuffice_iff sampleConfig_accepted.2 (.of_lt (by decide))).mpr (by decide)

/-- Bursts of two operations with nine source segments each: before the device
holds 512 operations, the mbufs are gone. -/
theorem nineSegments_run_out :
    Accepted (sampleConfig 9) ∧ (sampleConfig 9).PoolProductsFit ∧
      MempoolAccepts ((sampleConfig 9).numMbufsInPool toUInt32)
        ((sampleConfig 9).mbufPoolCacheSize toUInt32) ∧
      MempoolAccepts ((sampleConfig 9).numOpsInPool toUInt32)
        (sampleConfig 9).operationPoolCacheSize ∧
      ((fullMachine (sampleConfig 9)).Ready ∧ (fullMachine (sampleConfig 9)).Idle ∧
        (fullMachine (sampleConfig 9)).FullPools) ∧
      (∃ envs status, Runs.Along (Machine.step false) Machine.WithinLimits
          ((fullMachine (sampleConfig 9)).start (.decompress
            (List.replicate 4626 ⟨⟨.host 0, 0⟩, 8⟩) (some ⟨⟨.host 1, 0⟩, 37008, 0⟩))) envs ∧
        (Runs.run (Machine.step false) ((fullMachine (sampleConfig 9)).start (.decompress
            (List.replicate 4626 ⟨⟨.host 0, 0⟩, 8⟩) (some ⟨⟨.host 1, 0⟩, 37008, 0⟩))) envs).result =
          some status ∧ status.code = .outOfMemory) ∧
      ¬ (sampleConfig 9).PoolsSuffice := by
  have haccepted : Accepted (sampleConfig 9) :=
    ⟨0, 0, 1, ⟨0, some ⟨true, true, true, ⟨15, 15, 0⟩⟩⟩, sampleConfig 9, by decide⟩
  have hfit : (sampleConfig 9).PoolProductsFit := .of_lt (by decide)
  have hlen : (List.replicate 4626 (⟨⟨.host 0, 0⟩, 8⟩ : Buffer)).length =
      (kMaxInflightOps + (sampleConfig 9).burstSize.toNat) *
        (sampleConfig 9).maxSglSegs.toNat := by
    rw [List.length_replicate]
    rfl
  have hcapacity : (List.replicate 4626 (⟨⟨.host 0, 0⟩, 8⟩ : Buffer)).length *
      (sampleConfig 9).decompressedSegSize.toNat ≤ 37008 := by
    rw [List.length_replicate]
    decide
  exact ⟨haccepted, hfit, by decide, by decide, fullMachine_start _,
    runs_out_of_lt haccepted.bounds hfit (by decide) false hlen hcapacity,
    not_poolsSuffice_of_lt haccepted.bounds hfit (by decide)⟩

end Configuration

end Bitar
