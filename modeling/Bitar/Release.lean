import Bitar.ZonesInUse

/-!
# The error exit of `Compress`

`ReleaseAll` recycles the buffers emitted so far and gives up all pending
operations.  What it can find are the operations and mbufs that hang from
`pending_operations_` and the memzones in use.

**Results.**
* `QueuePairMemory.release_eq`: what `Release` does.
* `ZonesInUse.fail`: the state after a failed `Compress`.
* `CallZones.continues`, `CallZones.breaks`: the memzones of a call, up to and
  including the step that fails.
-/

namespace Bitar

open BlockStore Pieces

/-- The addresses that `Release` puts back for an operation. -/
def CompOp.recyclable (op : CompOp) : List Addr :=
  (op.mDst.segs.filter fun seg => seg.shinfo = .compressed).map Segment.bufAddr

theorem CompOp.recyclable_eq {L : Nat} {op : CompOp}
    (h : ∀ seg ∈ op.mDst.segs, ∃ z, seg.IsMemzone L z) :
    op.recyclable = op.memzones.map memzoneAddr := by
  unfold CompOp.recyclable CompOp.memzones
  revert h
  generalize op.mDst.segs = segs
  intro h
  induction segs with
  | nil => rfl
  | cons seg segs ih =>
      obtain ⟨z, hz⟩ := h seg (by simp)
      rw [List.filter_cons_of_pos (by simp [hz.shinfo]), List.map_cons,
        List.filterMap_cons_some hz.memzone, List.map_cons, hz.bufAddr,
        ih fun t ht => h t (List.mem_cons_of_mem _ ht)]

theorem map_data_eq {buffers : List Buffer} (h : ∀ b ∈ buffers, ∃ z, b.data = memzoneAddr z) :
    buffers.map Buffer.data = (buffers.filterMap Buffer.memzone).map memzoneAddr := by
  induction buffers with
  | nil => rfl
  | cons b buffers ih =>
      obtain ⟨z, hz⟩ := h b (by simp)
      have hb : b.memzone = some z := by simp [Buffer.memzone, hz, memzoneAddr]
      rw [List.filterMap_cons_some hb, List.map_cons, List.map_cons, hz,
        ih fun t ht => h t (List.mem_cons_of_mem _ ht)]

namespace QueuePairMemory

theorem foldl_releaseOp :
    ∀ (os : List Nat) (qp : QueuePairMemory) (zones : Zones),
      os.foldl (fun st op => st.1.releaseOp st.2 op) (qp, zones) =
        ({ qp with
            pendingOperations := qp.pendingOperations.drop os.length
            mbufPool := qp.mbufPool ∪ (os.flatMap fun o => (qp.ops o).mbufs).toFinset
            operationPool := qp.operationPool ∪ os.toFinset },
          zones.putAll (os.flatMap fun o => (qp.ops o).recyclable))
  | [], qp, zones => by simp [Zones.putAll]
  | op :: os, qp, zones => by
      rw [List.foldl_cons, foldl_releaseOp os]
      simp only [releaseOp, List.length_cons, List.drop_tail, List.flatMap_cons,
        List.toFinset_append, List.toFinset_cons, Finset.union_assoc, Finset.insert_union,
        Finset.union_insert, Zones.putAll, List.foldl_append, Prod.mk.injEq, true_and]
      rfl

/-- **`Release`.** -/
theorem release_eq (qp : QueuePairMemory) (zones : Zones) :
    qp.release zones =
      ({ qp with
          pendingOperations := []
          mbufPool := qp.mbufPool ∪ qp.pendingMbufs.toFinset
          operationPool := qp.operationPool ∪ qp.pendingOperations.toFinset },
        zones.putAll (qp.pendingOperations.flatMap fun o => (qp.ops o).recyclable)) := by
  rw [release, foldl_releaseOp, List.drop_length]
  rfl

end QueuePairMemory

namespace Machine

variable {st st' : Machine} {env : Env}

/-- The memzones in use, in the order in which `ReleaseAll` puts them back. -/
def released (st : Machine) : List Nat :=
  (st.call.emitted.filterMap Buffer.memzone).reverse ++ st.pendingOps.flatMap CompOp.memzones

theorem released_perm (st : Machine) : st.released.Perm st.zonesInUse :=
  (List.reverse_perm _).append_right _

/-- **The error exit of `Compress`.** -/
theorem ZonesInUse.fail (h : st.ZonesInUse) {input : Buffer} {offset : Nat} {out : List Buffer}
    (hcall : st.call = .compress input offset out) (code : StatusCode) (message : String) :
    st.fail code message = { st with
      qp := { st.qp with
        pendingOperations := []
        mbufPool := st.qp.mbufPool ∪ st.qp.pendingMbufs.toFinset
        operationPool := st.qp.operationPool ∪ st.qp.pendingOperations.toFinset }
      zones := { st.zones with device := { st.zones.device with
        memzonePool := st.released.reverse ++ st.zones.device.memzonePool
        occupiedMemzones := st.zones.device.occupiedMemzones \ st.zonesInUse.toFinset } }
      pc := .returned ⟨code, message⟩ } := by
  have hbuffers : (out.reverse.map Buffer.data) =
      ((st.call.emitted.filterMap Buffer.memzone).reverse).map memzoneAddr := by
    have hdata := map_data_eq h.buffers
    rw [hcall] at hdata ⊢
    rw [List.map_reverse, List.map_reverse]
    exact congrArg List.reverse hdata
  have hops : (st.qp.pendingOperations.flatMap fun o => (st.qp.ops o).recyclable) =
      (st.pendingOps.flatMap CompOp.memzones).map memzoneAddr := by
    rw [List.map_flatMap, pendingOps, List.flatMap_map]
    apply List.flatMap_congr
    intro o ho
    have hdest := h.destinations (st.qp.ops o) (List.mem_map_of_mem ho)
    rw [hcall] at hdest
    exact CompOp.recyclable_eq hdest
  have hzones : (st.zones.putAll (out.reverse.map Buffer.data)).putAll
      (st.qp.pendingOperations.flatMap fun o => (st.qp.ops o).recyclable) =
        st.zones.putAll (st.released.map memzoneAddr) := by
    rw [hbuffers, hops, released, List.map_append, Zones.putAll, Zones.putAll, Zones.putAll,
      List.foldl_append]
  have hput := Zones.putAll_memzones st.released st.zones
    (st.released_perm.nodup_iff.mpr h.nodup) (by
      intro z hz
      have hocc := h.occupied z (st.released_perm.mem_iff.mp hz)
      exact ⟨h.wellFormed.occupied_allocated z hocc, hocc⟩)
  rw [List.toFinset_eq_of_perm _ _ st.released_perm] at hput
  have hfail : st.fail code message =
      { st.releaseAll out with pc := .returned ⟨code, message⟩ } := by
    unfold Machine.fail
    rw [hcall]
  rw [hfail, releaseAll, QueuePairMemory.release_eq, hzones, hput]

/-- The error exit keeps free and taken memzones apart. -/
theorem ZonesInUse.fail_wellFormed (h : st.ZonesInUse) {input : Buffer} {offset : Nat}
    {out : List Buffer} (hcall : st.call = .compress input offset out) (code : StatusCode)
    (message : String) :
    (st.fail code message).zones.WellFormed st.cfg.compressedSegSize := by
  have hperm : st.released.reverse.Perm st.zonesInUse :=
    (List.reverse_perm _).trans st.released_perm
  rw [h.fail hcall, ← List.toFinset_eq_of_perm _ _ hperm]
  refine h.wellFormed.putBack (hperm.nodup_iff.mpr h.nodup) fun z hz => ?_
  have hz' := hperm.mem_iff.mp hz
  exact ⟨h.occupied z hz', h.size_eq z hz'⟩

/-! ## The memzones of a call -/

/-- All memzones in use were taken by the call, which began with `start`. -/
structure CallZones (start : Zones) (st : Machine) : Prop where
  inUse : st.ZonesInUse
  since : start.Since st.zones
  taken : ∀ z ∈ st.zonesInUse, z ∉ start.device.occupiedMemzones

variable {start : Zones}

theorem Idle.start_callZones (h : st.Idle) (hwf : st.zones.WellFormed st.cfg.compressedSegSize)
    (request : Request) : CallZones st.zones (st.start request) :=
  ⟨h.start_inUse hwf request, by simpa using Zones.Since.refl st.zones,
    by simp [h.start_zonesInUse request]⟩

/-- Only `Take` and `Put` change the memzones. -/
theorem CallZones.of_sublist (h : CallZones start st) (huse : st'.ZonesInUse)
    (hzones : st'.zones = st.zones) (hsub : st'.zonesInUse.Sublist st.zonesInUse) :
    CallZones start st' :=
  ⟨huse, hzones ▸ h.since, fun z hz => h.taken z (hsub.subset hz)⟩

theorem CallZones.built {n : Nat} {os ms : List Nat} {ops : Nat → CompOp} {S T : List Segment}
    (h : CallZones start st) (hst : st.Ordered) (hb : st.cfg.Bounds)
    (hbuilt : Built st st' n os ms ops S T) : CallZones start st' := by
  obtain ⟨zs, hzs, ht, -⟩ := hbuilt.taken h.inUse.wellFormed
  refine ⟨h.inUse.built hst hb hbuilt, h.since.trans ht.since, ?_⟩
  intro z hz
  rw [hbuilt.zonesInUse hst hb, hzs, List.mem_append] at hz
  rcases hz with hz | hz
  · exact h.taken z hz
  · exact fun ho => ht.fresh z hz (h.since.occupied_subset z ho)

theorem CallZones.retire (h : CallZones start st) (hst : st.Ordered) (hb : st.cfg.Bounds)
    {bs : List Nat} (hbs : bs <+: st.queue.take (st.numDequeued env)) :
    CallZones start ((st.afterHandBack env).retire bs) := by
  exact h.of_sublist (h.inUse.retire hst hb hbs) (retire_zones hst bs)
    (h.inUse.reserves.retire_sublist hst hb hbs)

theorem CallZones.continues (h : CallZones start st) (hst : st.Ordered) (hb : st.cfg.Bounds)
    (hstep : Continues st env st') : CallZones start st' := by
  have hinUse := h.inUse.continues hst hb hstep
  cases hstep with
  | built hpc built hT =>
      obtain ⟨-, hsince, htaken⟩ := h.built hst hb built
      exact ⟨hinUse, hsince, htaken⟩
  | full hpc hpos => exact ⟨hinUse, h.since, h.taken⟩
  | exhausted hpc hrem hnone =>
      exact h.of_sublist hinUse (zones_drainOrFinish st) (by rw [zonesInUse_drainOrFinish])
  | enqueued hpc hread => exact ⟨hinUse, h.since, h.taken⟩
  | dequeued hpc hsucc =>
      obtain ⟨-, hsince, htaken⟩ := h.retire hst hb List.prefix_rfl
      exact ⟨hinUse, hsince, htaken⟩
  | drained hpc hsucc =>
      exact (h.retire hst hb List.prefix_rfl).of_sublist hinUse (zones_drainOrFinish _)
        (by rw [zonesInUse_drainOrFinish])
  | returned hpc => exact h

/-- When the mbuf pool is exhausted, the operations have left their pool, but
nothing else has happened. -/
theorem pendingOps_handOutOps (hst : st.Ordered) {os : List Nat}
    (hos : ∀ o ∈ os, o ∈ st.qp.operationPool) :
    pendingOps { st with qp := st.qp.handOutOps os } = st.pendingOps := by
  apply List.map_congr_left
  intro o ho
  exact if_neg fun h => hst.notFree o ho (hos o h)

/-- The memzones are accounted for in the step that fails, too. -/
theorem CallZones.breaks {mid : Machine} {code : StatusCode} (h : CallZones start st)
    (hst : st.Ordered) (hb : st.cfg.Bounds) (hstep : Breaks st env mid code) :
    CallZones start mid := by
  cases hstep with
  | noOps hpc hrem hops => exact h
  | noMbufs hpc hne hos hms =>
      have hpend := pendingOps_handOutOps hst (takeFrom_eq_some hos).free
      have huse : zonesInUse { st with qp := st.qp.handOutOps _ } = st.zonesInUse :=
        congrArg (fun ops => _ ++ List.flatMap CompOp.memzones ops) hpend
      obtain ⟨h1, h2, h3, h4, h5, h6⟩ := h.inUse
      exact ⟨⟨h1, huse ▸ h2, huse ▸ h3, huse ▸ h4, h5, hpend ▸ h6⟩, h.since, huse ▸ h.taken⟩
  | short hpc built hT hne hos hzones => exact h.built hst hb built
  | enqueue hpc counter =>
      obtain ⟨h1, h2, h3, h4, h5, h6⟩ := h.inUse
      exact ⟨⟨h1, h2, h3, h4, h5, h6⟩, h.since, h.taken⟩
  | stats hpc hnone =>
      have hretire : CallZones start ((st.afterHandBack env).retire []) :=
        h.retire hst hb List.nil_prefix
      rwa [retire_nil] at hretire
  | failed hpc hfail => exact h.retire hst hb (List.takeWhile_prefix _)

end Machine

end Bitar
