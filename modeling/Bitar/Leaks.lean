import Bitar.Release
import Mathlib.Data.List.Perm.Subperm

/-!
# What a failed `Compress` leaves behind

`Release` finds what hangs from the pending operations, and `Recycle` the
memzones under the buffers emitted so far.  Two things escape them: what
`AssembleFrom` has allocated but not attached to an operation when it fails,
and the memzones of a finished operation that its output did not reach.

**Results.**
* `lossless_retire`: when a dequeue loses no memzone.
* `no_leak_on_failure`: exactly when a failed call restores the pools.
-/

namespace Bitar

open BlockStore Pieces

theorem takeWhile_congr {α : Type} {p q : α → Bool} {l : List α} (h : ∀ x ∈ l, p x = q x) :
    l.takeWhile p = l.takeWhile q := by
  induction l with
  | nil => rfl
  | cons x l ih =>
      rw [List.takeWhile_cons, List.takeWhile_cons, h x (by simp),
        ih fun y hy => h y (List.mem_cons_of_mem _ hy)]

/-- Cutting the parts of a list off changes it, unless they are short enough. -/
theorem flatMap_take_eq_iff {α β : Type} (f : α → List β) (n : α → Nat) (l : List α) :
    l.flatMap (fun a => (f a).take (n a)) = l.flatMap f ↔ ∀ a ∈ l, (f a).length ≤ n a := by
  induction l with
  | nil => simp
  | cons a l ih =>
      rw [List.flatMap_cons, List.flatMap_cons, List.forall_mem_cons, ← ih]
      constructor
      · intro h
        have hrest := (List.Sublist.flatMap_right l
          fun b _ => List.take_sublist (n b) (f b)).length_le
        have hlen := congrArg List.length h
        simp only [List.length_append, List.length_take] at hlen
        have hle : (f a).length ≤ n a := by omega
        rw [List.take_of_length_le hle] at h
        exact ⟨hle, List.append_cancel_left h⟩
      · rintro ⟨hle, h⟩
        rw [List.take_of_length_le hle, h]

namespace Machine

variable {st st' : Machine} {env : Env}

/-! ## When nothing is lost -/

/-- What the burst allocates, it attaches: with the operations come the mbufs
and a memzone for every destination segment. -/
def AllOrNothing (st : Machine) (env : Env) : Prop :=
  st.pc = .assemble →
    match st.opsTaken env with
    | some (_ :: _) => st.mbufsTaken env ≠ none ∧ st.Supplied env
    | _ => True

/-- The operations of a step that are finished before the first failed one. -/
def retired (st : Machine) (env : Env) : List (Nat × OpResult) :=
  (st.finished env).takeWhile fun p => p.2.status = .success

/-- The output of every such operation reaches its last destination segment. -/
def FillsAll (st : Machine) (env : Env) : Prop :=
  (st.pc = .dequeue ∨ st.pc = .drain) → ∀ p ∈ st.retired env,
    (st.qp.ops p.1).mDst.segs.length ≤ count st.cfg.segLen p.2.output.length

instance (st : Machine) (env : Env) : Decidable (st.Supplied env) := by
  unfold Supplied
  infer_instance

instance (st : Machine) (env : Env) : Decidable (st.AllOrNothing env) := by
  unfold AllOrNothing
  split <;> infer_instance

instance (st : Machine) (env : Env) : Decidable (st.FillsAll env) := by
  unfold FillsAll
  infer_instance

/-- Every memzone taken since `start` is in use. -/
def Lossless (start : Zones) (st : Machine) : Prop :=
  ∀ z ∈ st.zones.device.occupiedMemzones,
    z ∈ start.device.occupiedMemzones ∨ z ∈ st.zonesInUse

/-- The pools of `start` are restored in `st`: its free operations and mbufs are
free, and of the memzones those that were free or have been reserved since. -/
structure Restored (start st : Machine) : Prop where
  ops : start.qp.operationPool ⊆ st.qp.operationPool
  mbufs : start.qp.mbufPool ⊆ st.qp.mbufPool
  memzones : ∀ z, z ∈ start.zones.device.memzonePool ∨
      (z ∈ st.zones.pool.allocated ∧ z ∉ start.zones.pool.allocated) →
    z ∈ st.zones.device.memzonePool

/-! ## One step -/

theorem succeeded_eq (hnd : st.queue.Nodup) (env : Env) :
    (st.afterHandBack env).succeeded (st.queue.take (st.numDequeued env)) =
      (st.retired env).map Prod.fst := by
  have hhb := handBack_spec hnd env
  unfold succeeded retired
  rw [← map_fst_finished, List.takeWhile_map]
  congr 1
  apply takeWhile_congr
  intro p hp
  have hop : (st.afterHandBack env).qp.ops p.1 = p.2.finish (st.qp.ops p.1) :=
    hhb.ops_finished p hp
  simp only [Function.comp_apply, hop]
  rfl

/-- A finished operation and its segments. -/
theorem ZonesInUse.filled_iff (h : st.ZonesInUse) (hst : st.Ordered) (hb : st.cfg.Bounds)
    {input : Buffer} {offset : Nat} {out : List Buffer}
    (hcall : st.call = .compress input offset out) {p : Nat × OpResult}
    (hp : p ∈ st.finished env) :
    ((st.handBack env).qp.ops p.1).memzones.length ≤
        count st.cfg.segLen ((st.handBack env).qp.ops p.1).produced ↔
      (st.qp.ops p.1).mDst.segs.length ≤ count st.cfg.segLen p.2.output.length := by
  have hhb := handBack_spec (hst.queue_prefix env).1 env
  have hdest := h.destinations _ (finished_mem hst hp)
  rw [hcall] at hdest
  have hL := segLen_pos hb
  have hmemzones : (st.qp.ops p.1).memzones.length = (st.qp.ops p.1).mDst.segs.length := by
    rw [CompOp.memzones, List.filterMap_length_eq_length]
    intro seg hseg
    obtain ⟨z, hz⟩ := hdest seg hseg
    rw [hz.memzone]
    rfl
  have hroom : room (st.qp.ops p.1).destination =
      (st.qp.ops p.1).mDst.segs.length * st.cfg.segLen := by
    rw [room_eq_of_uniform (L := st.cfg.segLen), CompOp.destination, List.length_map]
    intro sp hsp
    obtain ⟨seg, hseg, rfl⟩ := List.mem_map.mp hsp
    obtain ⟨z, hz⟩ := hdest seg hseg
    exact hz.dataLen
  rw [hhb.ops_finished p hp]
  show (st.qp.ops p.1).memzones.length ≤ count st.cfg.segLen (p.2.written _).length ↔ _
  rw [hmemzones, OpResult.written, List.length_take, hroom, Nat.min_comm, count_min_mul hL]
  exact ⟨fun hle => hle.trans (Nat.min_le_left _ _), fun hle => Nat.le_min.mpr ⟨hle, Nat.le_refl _⟩⟩

variable {start : Zones}

/-- With the same memzones taken, fewer memzones in use is a loss. -/
theorem CallZones.lossless_iff (h : CallZones start st) (hzones : st'.zones = st.zones)
    (hsub : st'.zonesInUse.Sublist st.zonesInUse) :
    Lossless start st' ↔ Lossless start st ∧ st'.zonesInUse = st.zonesInUse := by
  unfold Lossless
  rw [hzones]
  constructor
  · intro hl
    refine ⟨fun z hz => (hl z hz).imp_right fun hu => hsub.subset hu, ?_⟩
    refine hsub.eq_of_length_le (h.inUse.nodup.subperm fun z hz => ?_).length_le
    exact (hl z (h.inUse.occupied z hz)).resolve_left (h.taken z hz)
  · rintro ⟨hl, huse⟩
    rwa [huse]

/-- What a dequeue loses. -/
theorem CallZones.lossless_retire (h : CallZones start st) (hst : st.Ordered)
    (hb : st.cfg.Bounds) {bs : List Nat} (hbs : bs <+: st.queue.take (st.numDequeued env)) :
    Lossless start ((st.afterHandBack env).retire bs) ↔
      Lossless start st ∧ ∀ o ∈ bs, ((st.handBack env).qp.ops o).memzones.length ≤
        count st.cfg.segLen ((st.handBack env).qp.ops o).produced := by
  have hretire : (st.afterHandBack env).retire bs = _ :=
    retire_afterHandBack (hst.queue_prefix env).1 bs
  rw [h.lossless_iff ((congrArg Machine.zones hretire).trans rfl)
    (h.inUse.reserves.retire_sublist hst hb hbs), h.inUse.reserves.retire_zonesInUse hst hb hbs,
    zonesInUse_split hst hbs, List.append_right_inj, List.append_left_inj]
  exact and_congr_right fun _ => flatMap_take_eq_iff _ _ bs

/-- A dequeue of a compress call loses nothing exactly when `FillsAll` holds. -/
theorem CallZones.lossless_retired (h : CallZones start st) (hst : st.Ordered)
    (hb : st.cfg.Bounds) {input : Buffer} {offset : Nat} {out : List Buffer}
    (hcall : st.call = .compress input offset out) (hpc : st.pc = .dequeue ∨ st.pc = .drain) :
    Lossless start ((st.afterHandBack env).retire
        ((st.afterHandBack env).succeeded (st.queue.take (st.numDequeued env)))) ↔
      Lossless start st ∧ st.FillsAll env := by
  have hbs : (st.afterHandBack env).succeeded (st.queue.take (st.numDequeued env)) <+:
      st.queue.take (st.numDequeued env) := List.takeWhile_prefix _
  rw [h.lossless_retire hst hb hbs, succeeded_eq (hst.queue_prefix env).1]
  refine and_congr_right fun _ => ?_
  have hfilled : ∀ p ∈ st.retired env, _ := fun p hp =>
    h.inUse.filled_iff hst hb hcall ((List.takeWhile_sublist _).subset hp)
  simp only [List.mem_map, forall_exists_index, and_imp, forall_apply_eq_imp_iff₂]
  exact ⟨fun hall _ p hp => (hfilled p hp).mp (hall p hp),
    fun hall p hp => (hfilled p hp).mpr (hall hpc p hp)⟩

theorem lossless_drainOrFinish : Lossless start st.drainOrFinish ↔ Lossless start st := by
  unfold Lossless
  rw [zones_drainOrFinish, zonesInUse_drainOrFinish]

/-- The steps in which nothing fails. -/
theorem CallZones.lossless_continues (h : CallZones start st) (hst : st.Ordered)
    (hb : st.cfg.Bounds) {input : Buffer} {offset : Nat} {out : List Buffer}
    (hcall : st.call = .compress input offset out) (hstep : Continues st env st') :
    Lossless start st' ↔ Lossless start st ∧ st.FillsAll env := by
  have hnot : ¬ (st.pc = .dequeue ∨ st.pc = .drain) → st.FillsAll env := fun hn hpc =>
    absurd hpc hn
  cases hstep with
  | @built st₁ n os ms ops S T hpc built hT =>
      obtain ⟨zs, hzs, ht, -⟩ := built.taken h.inUse.wellFormed
      have huse : st₁.zonesInUse = st.zonesInUse ++ zs := by rw [built.zonesInUse hst hb, hzs]
      rw [and_iff_left (hnot (by simp [hpc]))]
      show (∀ z ∈ st₁.zones.device.occupiedMemzones, _ ∨ z ∈ st₁.zonesInUse) ↔ _
      rw [huse, ht.occupied]
      simp only [Finset.mem_union, List.mem_toFinset, List.mem_append]
      constructor
      · intro hl z hz
        rcases hl z (Or.inl hz) with hs | hu | hu
        · exact Or.inl hs
        · exact Or.inr hu
        · exact absurd hz (ht.fresh z hu)
      · rintro hl z (hz | hz)
        · exact (hl z hz).imp_right Or.inl
        · exact Or.inr (Or.inr hz)
  | full hpc hpos => exact (and_iff_left (hnot (by simp [hpc]))).symm
  | exhausted hpc hrem hnone =>
      rw [lossless_drainOrFinish]
      exact (and_iff_left (hnot (by simp [hpc]))).symm
  | enqueued hpc hread => exact (and_iff_left (hnot (by simp [hpc]))).symm
  | dequeued hpc hsucc =>
      have := @CallZones.lossless_retired _ env _ h hst hb _ _ _ hcall (Or.inl hpc)
      rw [(succeeded_eq_iff (hst.queue_prefix env).1).mpr hsucc] at this
      exact this
  | drained hpc hsucc =>
      have := @CallZones.lossless_retired _ env _ h hst hb _ _ _ hcall (Or.inr hpc)
      rw [(succeeded_eq_iff (hst.queue_prefix env).1).mpr hsucc] at this
      rw [lossless_drainOrFinish]
      exact this
  | returned hpc => exact (and_iff_left (hnot (by simp [hpc]))).symm

/-! ## The failing step -/

/-- A burst that is assembled had all it needs. -/
theorem allOrNothing_of_noFault (hb : st.cfg.Bounds) (hnf : st.NoFault env) :
    st.AllOrNothing env := by
  intro hpc
  have hout := assembleFrom_spec hb env
  unfold NoFault at hnf
  rw [hpc] at hnf
  dsimp only at hnf
  generalize hr : (st.assembleFrom env).2 = r at hnf hout
  generalize (st.assembleFrom env).1 = s at hout
  cases hout with
  | nothing hstop =>
      have hburst : st.burst = 0 := by
        unfold burst
        rcases hstop with hrem | hfull
        · rw [hrem, List.length_nil, Nat.zero_min]
        · rw [Nat.sub_eq_zero_of_le hfull, Nat.zero_mul, Nat.min_zero]
      split
      · next o os hops =>
          have := (takeFrom_eq_some hops).length_eq
          rw [hburst, count_zero hb.maxSglSegs_pos] at this
          simp at this
      · trivial
  | noOps hrem hops => simp [Except.isOk, Except.toBool] at hnf
  | noMbufs hne hos hms => simp [Except.isOk, Except.toBool] at hnf
  | short built hT hne hos hzones => simp [Except.isOk, Except.toBool] at hnf
  | complete built hT hms hzones =>
      split
      · exact ⟨hms, hzones⟩
      · trivial

section Fail

variable {first mid : Machine} {input : Buffer} {offset : Nat} {out : List Buffer}

/-- When every object outside a pool hangs from a pending operation, the error
exit restores the pools, except for memzones lost before. -/
theorem CallZones.restored_fail (h : CallZones first.zones mid)
    (hbook : Bookkeeping first.qp.operationPool first.qp.mbufPool mid)
    (hcall : mid.call = .compress input offset out) (code : StatusCode) (message : String) :
    Restored first (mid.fail code message) ↔ Lossless first.zones mid := by
  rw [h.inUse.fail hcall]
  constructor
  · intro hr z hz
    by_cases hs : z ∈ first.zones.device.occupiedMemzones
    · exact Or.inl hs
    · have hfree := hr.memzones z ((h.since.split z).mp (Or.inr ⟨hz, hs⟩))
      rw [List.mem_append, List.mem_reverse, mid.released_perm.mem_iff] at hfree
      exact Or.inr (hfree.resolve_right fun hp => h.inUse.wellFormed.disjoint z hp hz)
  · intro hl
    refine ⟨hbook.ops.subset_union, hbook.mbufs.subset_union, fun z hz => ?_⟩
    rw [List.mem_append, List.mem_reverse, mid.released_perm.mem_iff]
    rcases (h.since.split z).mpr hz with hp | ⟨ho, hs⟩
    · exact Or.inr hp
    · exact Or.inl ((hl z ho).resolve_left hs)

/-- Without mbufs, the operations are not attached to anything. -/
theorem CallZones.not_restored_noMbufs (h : CallZones first.zones st) (hst : st.Ordered)
    (hb : st.cfg.Bounds) (hbook : Bookkeeping first.qp.operationPool first.qp.mbufPool st)
    (hcall : st.call = .compress input offset out) {os : List Nat} (hpc : st.pc = .assemble)
    (hne : os ≠ []) (hos : st.opsTaken env = some os) (hms : st.mbufsTaken env = none)
    (code : StatusCode) (message : String) :
    ¬ Restored first (fail { st with qp := st.qp.handOutOps os } code message) := by
  intro hr
  have hmid := h.breaks hst hb (.noMbufs hpc hne hos hms)
  rw [hmid.inUse.fail hcall] at hr
  obtain ⟨o, ho⟩ := List.exists_mem_of_ne_nil os hne
  have hfree := (takeFrom_eq_some hos).free o ho
  have hback := hr.ops (hbook.ops.subset hfree)
  simp only [QueuePairMemory.handOutOps, Finset.mem_union, Finset.mem_sdiff,
    List.mem_toFinset] at hback
  rcases hback with ⟨-, hn⟩ | hpend
  · exact hn ho
  · exact hst.notFree o hpend hfree

/-- With too few destinations, some mbufs are not chained. -/
theorem CallZones.not_restored_short (h : CallZones first.zones st) (hst : st.Ordered)
    (hb : st.cfg.Bounds) (hbook : Bookkeeping first.qp.operationPool first.qp.mbufPool st)
    (hcall : st.call = .compress input offset out) {n : Nat} {os ms : List Nat}
    {ops : Nat → CompOp} {S T : List Segment} (hbuilt : Built st st' n os ms ops S T)
    (hT : T.length < n) (code : StatusCode) (message : String) :
    ¬ Restored first (st'.fail code message) := by
  intro hr
  have hcall' : ∃ offset, st'.call = .compress input offset out := by
    rw [hbuilt.call_eq, hcall]
    exact ⟨_, rfl⟩
  obtain ⟨offset', hcall'⟩ := hcall'
  rw [(h.built hst hb hbuilt).inUse.fail hcall'] at hr
  -- the first mbuf that no destination was found for
  have hlen := hbuilt.mbufs_handable.length_eq
  have hlt : n + T.length < ms.length := by omega
  have hmem := List.getElem_mem hlt
  have hfree := hbuilt.mbufs_handable.free _ hmem
  have hback := hr.mbufs (hbook.mbufs.subset hfree)
  have hpool : st'.qp.mbufPool = st.qp.mbufPool \ ms.toFinset := by rw [hbuilt.state_eq]
  dsimp only at hback
  rw [hbuilt.pendingMbufs hst, hpool, Finset.mem_union, Finset.mem_sdiff, List.mem_toFinset,
    List.mem_toFinset, List.mem_append] at hback
  rcases hback with ⟨-, hn⟩ | hpend | hnew
  · exact hn hmem
  · exact (hbook.mbufs.mem_iff.mp hpend).2 hfree
  · rw [(hbuilt.mbufs_perm hb.maxSglSegs_pos).mem_iff] at hnew
    obtain ⟨i, hi, he⟩ := List.getElem_of_mem hnew
    rw [List.getElem_take] at he
    have := (List.Nodup.getElem_inj_iff hbuilt.mbufs_handable.nodup).mp he
    rw [List.length_take] at hi
    omega

/-- **The failing step.** -/
theorem CallZones.restored_breaks (h : CallZones first.zones st) (hst : st.Ordered)
    (hb : st.cfg.Bounds) (hbook : Bookkeeping first.qp.operationPool first.qp.mbufPool st)
    (hcall : st.call = .compress input offset out) {code : StatusCode}
    (hstep : Breaks st env mid code) (message : String) :
    Restored first (mid.fail code message) ↔
      Lossless first.zones st ∧ st.AllOrNothing env ∧ st.FillsAll env := by
  have hmid := h.breaks hst hb hstep
  cases hstep with
  | noOps hpc hrem hops =>
      rw [h.restored_fail hbook hcall]
      refine (and_iff_left ⟨fun _ => ?_, fun hn => by simp [hpc] at hn⟩).symm
      split
      · next o os hos => exact absurd hos (hops o os)
      · trivial
  | @noMbufs os hpc hne hos hms =>
      refine iff_of_false (h.not_restored_noMbufs hst hb hbook hcall hpc hne hos hms _ message) ?_
      rintro ⟨-, hall, -⟩
      have := hall hpc
      obtain ⟨o, os, rfl⟩ := List.exists_cons_of_ne_nil hne
      rw [hos] at this
      exact this.1 hms
  | @short st₁ n os ms ops S T hpc built hT hne hos hzones =>
      refine iff_of_false (h.not_restored_short hst hb hbook hcall built hT _ message) ?_
      rintro ⟨-, hall, -⟩
      have := hall hpc
      obtain ⟨o, os, rfl⟩ := List.exists_cons_of_ne_nil hne
      rw [hos] at this
      exact hzones this.2
  | enqueue hpc counter =>
      rw [hmid.restored_fail ⟨hbook.ops, hbook.mbufs⟩ hcall]
      exact (and_iff_left ⟨fun hn => by simp [hpc] at hn, fun hn => by simp [hpc] at hn⟩).symm
  | stats hpc hnone =>
      have hbs : [] <+: st.queue.take (st.numDequeued env) := List.nil_prefix
      have hbook' := hbook.retire hst hbs
      have hl := h.lossless_retire hst hb hbs
      have hcall' := retire_call hst env []
      rw [retire_nil, List.foldl_nil, hcall] at hcall'
      rw [retire_nil] at hbook' hl
      rw [hmid.restored_fail hbook' hcall', hl]
      refine and_congr_right fun _ => iff_of_true (by simp) ⟨fun hn => ?_, fun _ => ?_⟩
      · rcases hpc with hpc | hpc <;> simp [hpc] at hn
      · simp [retired, finished, hnone]
  | failed hpc hfail =>
      have hbs : (st.afterHandBack env).succeeded (st.queue.take (st.numDequeued env)) <+:
          st.queue.take (st.numDequeued env) := List.takeWhile_prefix _
      have hcall' := retire_call hst env
        ((st.afterHandBack env).succeeded (st.queue.take (st.numDequeued env)))
      rw [hcall, foldl_dequeueCallback_emitted] at hcall'
      rw [hmid.restored_fail (hbook.retire hst hbs) hcall', h.lossless_retired hst hb hcall hpc]
      refine and_congr_right fun _ => (and_iff_right fun hn => ?_).symm
      rcases hpc with hpc | hpc <;> simp [hpc] at hn

end Fail

/-! ## Whole calls -/

/-- **No leak on failure.**  A `Compress` that returns an error restores the
pools exactly when no burst gets operations without mbufs or destinations, and
every operation finished before the failure fills its destination chain up to
the last segment. -/
theorem no_leak_on_failure (hcfg : Accepted st.cfg) (hidle : st.Idle)
    (hwf : st.zones.WellFormed st.cfg.compressedSegSize) (input : Option Buffer) (debug : Bool)
    (envs : List Env) {status : Status} (herr : status.code ≠ .ok)
    (h : (Runs.run (step debug) (st.compress input) envs).result = some status) :
    Restored st (Runs.run (step debug) (st.compress input) envs) ↔
      Runs.Along (step debug) (fun s env => s.AllOrNothing env ∧ s.FillsAll env)
        (st.compress input) envs := by
  have hb := hcfg.bounds
  have hend : ∀ (s : Machine) (env : Env), s.pc = .returned status →
      s.AllOrNothing env ∧ s.FillsAll env := by
    intro s env hs
    exact ⟨fun hn => by simp [hs] at hn, fun hn => by simp [hs] at hn⟩
  suffices key : ∀ (envs : List Env) (s : Machine) (input : Buffer),
      InOrder st.cfg st.qp.operationPool st.qp.mbufPool s → CallZones st.zones s →
      (∃ offset out, s.call = .compress input offset out) → s.Exhausted →
      (Runs.run (step debug) s envs).result = some status →
      (Restored st (Runs.run (step debug) s envs) ↔ Lossless st.zones s ∧
        Runs.Along (step debug) (fun s env => s.AllOrNothing env ∧ s.FillsAll env) s envs) by
    have hzones : (st.compress input).zones = st.zones := start_zones st (.compress input)
    have hqp : (st.compress input).qp = st.qp := start_qp st (.compress input)
    have hcall : ∃ given offset out, (st.compress input).call = .compress given offset out := by
      cases input <;> exact ⟨_, _, _, rfl⟩
    obtain ⟨given, hcall⟩ := hcall
    rcases st.start_pc (.compress input) with hpc | ⟨code, hpc⟩
    · have hstart : (st.compress input).pc = .assemble := hpc
      rw [key envs (st.compress input) given (hidle.start_inOrder (.compress input))
        (hidle.start_callZones hwf (.compress input)) hcall (by simp [Exhausted, hstart]) h]
      exact and_iff_right fun z hz => Or.inl (hzones ▸ hz)
    · -- the call was refused
      have hstart : (st.compress input).pc = .returned code := hpc
      rw [run_returned hstart] at h ⊢
      rw [result_eq_some, hstart, Pc.returned.injEq] at h
      subst h
      refine iff_of_true ⟨hqp ▸ Finset.Subset.refl _, hqp ▸ Finset.Subset.refl _, ?_⟩
        (along_returned hend hstart envs)
      rw [hzones]
      rintro z (hz | ⟨hz, hn⟩)
      · exact hz
      · exact absurd hz hn
  intro envs
  induction envs with
  | nil =>
      intro s given hs hz hcall hex hres
      have hpc := result_eq_some.mp hres
      have hok := (hex (Or.inr ⟨status, hpc⟩)).2 status hpc
      exact absurd (congrArg Status.code hok) herr
  | cons env envs ih =>
      intro s given hs hz hcall hex hres
      have hb' : s.cfg.Bounds := hs.cfg_eq ▸ hb
      rw [Runs.run_cons] at hres ⊢
      rw [Runs.along_cons]
      rcases step_cases hb' hs.ordered debug env with
        ⟨hnf, hc⟩ | ⟨-, mid, code, message, hbr, hfail⟩
      · have hcall' := compress_continues hcall hs.ordered hc
        obtain ⟨offset, out, hcall⟩ := hcall
        rw [ih _ given (hs.step hb debug hnf).2 (hz.continues hs.ordered hb' hc) hcall'
          (hex.continues hs.ordered hc) hres, hz.lossless_continues hs.ordered hb' hcall hc,
          and_iff_right (allOrNothing_of_noFault hb' hnf), and_assoc]
      · obtain ⟨offset, out, hcall⟩ := hcall
        have hpc := fail_pc mid code message
        rw [hfail, run_returned hpc] at hres ⊢
        rw [result_eq_some, hpc, Pc.returned.injEq] at hres
        subst hres
        rw [and_iff_left (along_returned hend hpc envs)]
        exact hz.restored_breaks hs.ordered hb' hs.bookkeeping hcall hbr message

/-- The device fails the second of two operations after the first has filled
its destination. -/
def sampleFailure : List Env :=
  [{ bulk := ⟨some [0, 1], some [0, 1, 2, 3]⟩ },
    { numAccepted := 2 },
    { results := [⟨.success, List.replicate 64 7⟩, ⟨.error, []⟩] }]

theorem no_leak_on_failure_sample :
    Restored (sampleMachine 1 3) (Runs.run (step true)
      ((sampleMachine 1 3).compress (some ⟨⟨.host 0, 0⟩, 16⟩)) sampleFailure) :=
  (no_leak_on_failure sampleConfig_accepted.1 (sampleMachine_idle 1 3)
    (sampleMachine_wellFormed 1 3) (some ⟨⟨.host 0, 0⟩, 16⟩) true sampleFailure
    (show Status.code ⟨.ioError, "Failed to dequeue compression operations from compress device 0 via queue pair 0"⟩ ≠ .ok
      by decide) (by decide +kernel)).mpr (by decide +kernel)

/-- Without a free memzone the destination mbuf is never chained, and stays
outside its pool. -/
theorem no_leak_on_failure_short :
    let t := Runs.run (step true) ((sampleMachine 1 0).compress (some ⟨⟨.host 0, 0⟩, 8⟩))
      [{ bulk := ⟨some [0], some [0, 1]⟩ }]
    t.result.map Status.code = some .ioError ∧ ¬ Restored (sampleMachine 1 0) t := by
  refine ⟨by decide +kernel, fun hr => ?_⟩
  have hback := hr.mbufs (show 1 ∈ (sampleMachine 1 0).qp.mbufPool by decide)
  revert hback
  decide +kernel

end Machine

end Bitar
