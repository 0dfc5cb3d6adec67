import Bitar.Conservation
import Mathlib.Data.List.Flatten

/-!
# The memzones of a compress call

The memzones that a call has taken are under the buffers it has emitted or
under the destination chains of pending operations.  `ZonesInUse` says that
these are distinct, taken, and of the size in force; each step in which nothing
fails keeps it.

A destination segment that the output of an operation does not reach is not
emitted.  Its memzone stays taken, although nothing refers to it any more.

**Results.**
* `Reserves.continues`, `ZonesInUse.continues`: the step lemmas.
-/

namespace Bitar

open BlockStore Pieces

/-- The memzone that a buffer begins in. -/
def Buffer.memzone (buffer : Buffer) : Option Nat :=
  match buffer.data.block with
  | .memzone z => some z
  | .host _ => none

/-- The buffers that the call has emitted so far. -/
def Call.emitted : Call → List Buffer
  | .compress _ _ compressedBuffers => compressedBuffers
  | .decompress .. => []

/-- What the call puts into destination chains: memzones of length `L`, or
slices of the output. -/
def Call.DestinationOk (L : Nat) (seg : Segment) : Call → Prop
  | .compress .. => ∃ z, seg.IsMemzone L z
  | .decompress .. => seg.shinfo = .decompressed

/-- The memzones of the destination that the output of the operation reaches. -/
def CompOp.filledMemzones (L : Nat) (op : CompOp) : List Nat :=
  op.memzones.take (count L op.produced)

section Emit

variable {L : Nat}

theorem filterMap_memzone {segs : List Segment} {zs : List Nat}
    (h : List.Forall₂ (Segment.IsMemzone L) segs zs) : segs.filterMap Segment.memzone = zs := by
  induction h with
  | nil => rfl
  | cons hseg _ ih => rw [List.filterMap_cons_some hseg.memzone, ih]

theorem isMemzone_of_mem {segs : List Segment} {zs : List Nat}
    (h : List.Forall₂ (Segment.IsMemzone L) segs zs) :
    ∀ seg ∈ segs, ∃ z, seg.IsMemzone L z := by
  induction h with
  | nil => simp
  | cons hseg _ ih => simpa using ⟨⟨_, hseg⟩, ih⟩

/-- The buffers of a destination chain lie in the first memzones of it. -/
theorem emitBuffers_memzones (hL : 0 < L) :
    ∀ (segs : List Segment) (n : Nat), (∀ seg ∈ segs, ∃ z, seg.IsMemzone L z) →
      (emitBuffers segs n).filterMap Buffer.memzone =
        (segs.filterMap Segment.memzone).take (count L n) ∧
      ∀ b ∈ emitBuffers segs n, ∃ z, b.data = memzoneAddr z
  | [], n, _ => by simp [emitBuffers]
  | seg :: segs, n, h => by
      obtain ⟨z, hz⟩ := h seg (by simp)
      obtain ⟨ih1, ih2⟩ := emitBuffers_memzones hL segs (n - L)
        (fun t ht => h t (List.mem_cons_of_mem _ ht))
      unfold emitBuffers
      split_ifs with hn
      · rw [hn, count_zero hL]
        simp
      · have hb : Buffer.memzone ⟨seg.bufAddr, min seg.dataLen n⟩ = some z := by
          simp [Buffer.memzone, hz.bufAddr, memzoneAddr]
        have hsub : n - min seg.dataLen n = n - L := by
          rw [hz.dataLen]
          omega
        dsimp only
        refine ⟨?_, ?_⟩
        · rw [List.filterMap_cons_some hb, List.filterMap_cons_some hz.memzone, hsub, ih1,
            count_sub hL (Nat.pos_of_ne_zero hn), List.take_succ_cons]
        · intro b hb
          rw [hsub] at hb
          rcases List.mem_cons.mp hb with rfl | hb
          · exact ⟨z, hz.bufAddr⟩
          · exact ih2 b hb

/-- What a burst adds to the emitted buffers. -/
theorem foldl_dequeueCallback_memzones (hL : 0 < L) (f : Nat → CompOp) (bs : List Nat)
    (call : Call) (hok : ∀ o ∈ bs, ∀ seg ∈ (f o).mDst.segs, call.DestinationOk L seg) :
    ∃ new, (bs.foldl (fun (call : Call) o => call.dequeueCallback (f o)) call).emitted =
        call.emitted ++ new ∧
      new.filterMap Buffer.memzone = bs.flatMap (fun o => (f o).filledMemzones L) ∧
      (∀ b ∈ new, ∃ z, b.data = memzoneAddr z) ∧
      ∀ seg, (bs.foldl (fun (call : Call) o => call.dequeueCallback (f o))
        call).DestinationOk L seg ↔ call.DestinationOk L seg := by
  cases call with
  | compress input offset out =>
      rw [foldl_dequeueCallback_emitted]
      refine ⟨_, rfl, ?_, ?_, fun _ => Iff.rfl⟩
      · rw [List.filterMap_flatMap]
        apply List.flatMap_congr
        intro o ho
        exact (emitBuffers_memzones hL _ _ (hok o ho)).1
      · intro b hb
        obtain ⟨o, ho, hb⟩ := List.mem_flatMap.mp hb
        exact (emitBuffers_memzones hL _ _ (hok o ho)).2 b hb
  | decompress buffers output index offset size =>
      rw [foldl_dequeueCallback_size]
      refine ⟨[], by simp [Call.emitted], ?_, by simp, fun _ => Iff.rfl⟩
      symm
      rw [List.filterMap_nil, List.flatMap_eq_nil_iff]
      intro o ho
      have hnil : (f o).memzones = [] := by
        rw [CompOp.memzones, List.filterMap_eq_nil_iff]
        intro seg hseg
        simp [Segment.memzone, show seg.shinfo = .decompressed from hok o ho seg hseg]
      rw [CompOp.filledMemzones, hnil, List.take_nil]

end Emit

namespace Machine

variable {st st' : Machine} {env : Env}

/-- The memzones under emitted buffers and under pending operations. -/
def zonesInUse (st : Machine) : List Nat :=
  st.call.emitted.filterMap Buffer.memzone ++ st.pendingOps.flatMap CompOp.memzones

structure ZonesInUse (st : Machine) : Prop where
  wellFormed : st.zones.WellFormed st.cfg.compressedSegSize
  nodup : st.zonesInUse.Nodup
  occupied : ∀ z ∈ st.zonesInUse, z ∈ st.zones.device.occupiedMemzones
  size_eq : ∀ z ∈ st.zonesInUse, st.zones.pool.size z = st.cfg.compressedSegSize
  buffers : ∀ b ∈ st.call.emitted, ∃ z, b.data = memzoneAddr z
  destinations : ∀ op ∈ st.pendingOps, ∀ seg ∈ op.mDst.segs,
    st.call.DestinationOk st.cfg.segLen seg

/-- What remains of it for the memzones of `P` when others may be put back by
somebody else. -/
structure Reserves (P : Nat → Prop) (st : Machine) : Prop where
  count_le : ∀ z, P z → st.zonesInUse.count z ≤ 1
  occupied : ∀ z ∈ st.zonesInUse, P z → z ∈ st.zones.device.occupiedMemzones
  buffers : ∀ b ∈ st.call.emitted, ∃ z, b.data = memzoneAddr z
  destinations : ∀ op ∈ st.pendingOps, ∀ seg ∈ op.mDst.segs,
    st.call.DestinationOk st.cfg.segLen seg

theorem ZonesInUse.reserves (h : st.ZonesInUse) : st.Reserves fun _ => True :=
  ⟨fun z _ => List.nodup_iff_count_le_one.mp h.nodup z, fun z hz _ => h.occupied z hz, h.buffers,
    h.destinations⟩

theorem Reserves.inUse (h : st.Reserves fun _ => True)
    (hwf : st.zones.WellFormed st.cfg.compressedSegSize)
    (hsize : ∀ z ∈ st.zonesInUse, st.zones.pool.size z = st.cfg.compressedSegSize) :
    st.ZonesInUse :=
  ⟨hwf, List.nodup_iff_count_le_one.mpr fun z => h.count_le z trivial,
    fun z hz => h.occupied z hz trivial, hsize, h.buffers, h.destinations⟩

@[simp] theorem start_emitted (st : Machine) (request : Request) :
    (st.start request).call.emitted = [] := by
  cases request with
  | compress input => cases input <;> rfl
  | decompress buffers output => cases output <;> rfl

/-- A call begins without memzones. -/
theorem Idle.start_zonesInUse (h : st.Idle) (request : Request) :
    (st.start request).zonesInUse = [] := by
  have hops : (st.start request).pendingOps = [] := by simp [pendingOps, h.pending]
  rw [zonesInUse, hops, start_emitted]
  rfl

theorem Idle.start_reserves (h : st.Idle) (request : Request) (P : Nat → Prop) :
    (st.start request).Reserves P := by
  have huse := h.start_zonesInUse request
  have hops : (st.start request).pendingOps = [] := by simp [pendingOps, h.pending]
  exact ⟨by simp [huse], by simp [huse], by simp, by simp [hops]⟩

theorem Idle.start_inUse (h : st.Idle) (hwf : st.zones.WellFormed st.cfg.compressedSegSize)
    (request : Request) : (st.start request).ZonesInUse :=
  (h.start_reserves request _).inUse (by simpa using hwf)
    (by simp [h.start_zonesInUse request])

section Built

variable {n : Nat} {os ms : List Nat} {ops : Nat → CompOp} {S T : List Segment}

theorem Built.memzones (h : Built st st' n os ms ops S T) (hm : 0 < st.cfg.maxSglSegs.toNat) :
    (os.map ops).flatMap CompOp.memzones = T.filterMap Segment.memzone := by
  rw [List.flatMap_map]
  simp only [CompOp.memzones]
  rw [← List.filterMap_flatMap, h.flatMap_mDst hm]

/-- What the kind of the call says about the destination segments of a burst
and their memzones. -/
theorem Built.taken (h : Built st st' n os ms ops S T)
    (hwf : st.zones.WellFormed st.cfg.compressedSegSize) :
    ∃ zs, T.filterMap Segment.memzone = zs ∧
      Zones.Taken st.cfg.compressedSegSize st.zones st'.zones zs ∧
      ∀ seg ∈ T, st.call.DestinationOk st.cfg.segLen seg := by
  have hdest := h.destinations
  cases hcall : st.call with
  | compress input offset out =>
      rw [hcall] at hdest
      obtain ⟨zs, hsegs, ht⟩ := hdest hwf
      exact ⟨zs, filterMap_memzone hsegs, ht, isMemzone_of_mem hsegs⟩
  | decompress buffers output index offset size =>
      rw [hcall] at hdest
      obtain ⟨hz, -, -, hinfo⟩ := hdest
      refine ⟨[], ?_, hz ▸ hwf.taken_nil, hinfo⟩
      rw [List.filterMap_eq_nil_iff]
      intro seg hseg
      simp [Segment.memzone, hinfo seg hseg]

theorem Built.emitted (h : Built st st' n os ms ops S T) : st'.call.emitted = st.call.emitted := by
  rw [h.state_eq]
  cases st.call <;> rfl

end Built

theorem Built.zonesInUse {n : Nat} {os ms : List Nat} {ops : Nat → CompOp} {S T : List Segment}
    (h : Built st st' n os ms ops S T) (hst : st.Ordered) (hb : st.cfg.Bounds) :
    st'.zonesInUse = st.zonesInUse ++ T.filterMap Segment.memzone := by
  rw [Machine.zonesInUse, h.pendingOps_append hst, List.flatMap_append,
    h.memzones hb.maxSglSegs_pos, h.emitted, ← List.append_assoc]
  rfl

theorem Reserves.built {P : Nat → Prop} {n : Nat} {os ms : List Nat} {ops : Nat → CompOp}
    {S T : List Segment} (h : st.Reserves P) (hwf : st.zones.WellFormed st.cfg.compressedSegSize)
    (hst : st.Ordered) (hb : st.cfg.Bounds) (hbuilt : Built st st' n os ms ops S T) :
    st'.Reserves P := by
  have hcfg : st'.cfg = st.cfg := by rw [hbuilt.state_eq]
  have hpend := hbuilt.pendingOps_append hst
  have huse := hbuilt.zonesInUse hst hb
  have hsegs : ∀ op ∈ os.map ops, ∀ seg ∈ op.mDst.segs, seg ∈ T := by
    intro op hop seg hseg
    obtain ⟨o, ho, rfl⟩ := List.mem_map.mp hop
    rw [← hbuilt.flatMap_mDst hb.maxSglSegs_pos]
    exact List.mem_flatMap.mpr ⟨o, ho, hseg⟩
  obtain ⟨zs, hzs, ht, hok⟩ := hbuilt.taken hwf
  rw [hzs] at huse
  refine ⟨?_, ?_, ?_, ?_⟩
  · intro z hz
    rw [huse, List.count_append]
    by_cases hnew : z ∈ zs
    · -- what is taken was not in use
      have hold : z ∉ st.zonesInUse := fun hold => ht.fresh z hnew (h.occupied z hold hz)
      rw [List.count_eq_zero.mpr hold, Nat.zero_add]
      exact List.nodup_iff_count_le_one.mp ht.nodup z
    · rw [List.count_eq_zero.mpr hnew]
      exact h.count_le z hz
  · intro z hz hP
    rw [huse, List.mem_append] at hz
    rw [ht.occupied, Finset.mem_union, List.mem_toFinset]
    exact hz.imp_left fun hz => h.occupied z hz hP
  · rw [hbuilt.emitted]
    exact h.buffers
  · intro op hop seg hseg
    rw [hpend, List.mem_append] at hop
    have hkind : st'.call.DestinationOk st.cfg.segLen seg ↔
        st.call.DestinationOk st.cfg.segLen seg := by
      rw [hbuilt.state_eq]
      cases st.call <;> rfl
    rw [hcfg, hkind]
    rcases hop with hop | hop
    · exact h.destinations op hop seg hseg
    · exact hok seg (hsegs op hop seg hseg)

theorem ZonesInUse.built {n : Nat} {os ms : List Nat} {ops : Nat → CompOp} {S T : List Segment}
    (h : st.ZonesInUse) (hst : st.Ordered) (hb : st.cfg.Bounds)
    (hbuilt : Built st st' n os ms ops S T) : st'.ZonesInUse := by
  obtain ⟨zs, hzs, ht, -⟩ := hbuilt.taken h.wellFormed
  have hcfg := hbuilt.cfg_eq
  refine (h.reserves.built h.wellFormed hst hb hbuilt).inUse (hcfg ▸ ht.wellFormed) ?_
  intro z hz
  rw [hbuilt.zonesInUse hst hb, hzs, List.mem_append] at hz
  rw [hcfg]
  rcases hz with hz | hz
  · rw [ht.since.size_eq z (h.wellFormed.occupied_allocated z (h.occupied z hz)), h.size_eq z hz]
  · exact ht.size_eq z hz

section Retire

variable {bs : List Nat}

/-- The memzones in use, with those of the front of a burst apart. -/
theorem zonesInUse_split (hst : st.Ordered) (hbs : bs <+: st.queue.take (st.numDequeued env)) :
    st.zonesInUse = st.call.emitted.filterMap Buffer.memzone ++
      (bs.flatMap (fun o => ((st.handBack env).qp.ops o).memzones) ++
        (st.pendingOps.drop bs.length).flatMap CompOp.memzones) := by
  have hhb := handBack_spec (hst.queue_prefix env).1 env
  have hfront : bs.flatMap (fun o => ((st.handBack env).qp.ops o).memzones) =
      (st.pendingOps.take bs.length).flatMap CompOp.memzones := by
    rw [← pendingOps_front hst hbs, List.flatMap_map]
    apply List.flatMap_congr
    intro o _
    rw [CompOp.memzones, (hhb.chains o).2, CompOp.memzones]
  rw [hfront, ← List.flatMap_append, List.take_append_drop]
  rfl

variable {P : Nat → Prop}

/-- The callbacks of the front of a burst. -/
theorem Reserves.retire_emitted (h : st.Reserves P) (hst : st.Ordered) (hb : st.cfg.Bounds)
    (hbs : bs <+: st.queue.take (st.numDequeued env)) :
    ∃ new, ((st.afterHandBack env).retire bs).call.emitted = st.call.emitted ++ new ∧
      new.filterMap Buffer.memzone =
        bs.flatMap (fun o => ((st.handBack env).qp.ops o).filledMemzones st.cfg.segLen) ∧
      (∀ b ∈ new, ∃ z, b.data = memzoneAddr z) ∧
      ∀ seg, ((st.afterHandBack env).retire bs).call.DestinationOk st.cfg.segLen seg ↔
        st.call.DestinationOk st.cfg.segLen seg := by
  have hhb := handBack_spec (hst.queue_prefix env).1 env
  have hok : ∀ o ∈ bs, ∀ seg ∈ ((st.handBack env).qp.ops o).mDst.segs,
      st.call.DestinationOk st.cfg.segLen seg := by
    intro o ho seg hseg
    rw [(hhb.chains o).2] at hseg
    refine h.destinations (st.qp.ops o) ?_ seg hseg
    have := List.mem_map_of_mem (f := st.qp.ops) ho
    rw [pendingOps_front hst hbs] at this
    exact List.mem_of_mem_take this
  have hnew := foldl_dequeueCallback_memzones (segLen_pos hb) (st.handBack env).qp.ops bs
    st.call hok
  rwa [← retire_call hst] at hnew

/-- A dequeue keeps of the memzones of its operations those that a buffer
covers. -/
theorem Reserves.retire_zonesInUse (h : st.Reserves P) (hst : st.Ordered) (hb : st.cfg.Bounds)
    (hbs : bs <+: st.queue.take (st.numDequeued env)) :
    ((st.afterHandBack env).retire bs).zonesInUse =
      st.call.emitted.filterMap Buffer.memzone ++
        (bs.flatMap (fun o => ((st.handBack env).qp.ops o).filledMemzones st.cfg.segLen) ++
          (st.pendingOps.drop bs.length).flatMap CompOp.memzones) := by
  obtain ⟨new, hnew, hzones, -, -⟩ := h.retire_emitted hst hb hbs
  have hhb := handBack_spec (hst.queue_prefix env).1 env
  have hrest : ((st.afterHandBack env).retire bs).pendingOps.flatMap CompOp.memzones =
      (st.pendingOps.drop bs.length).flatMap CompOp.memzones := by
    rw [retire_afterHandBack (hst.queue_prefix env).1, pendingOps, pendingOps, ← List.map_drop,
      List.flatMap_map, List.flatMap_map]
    apply List.flatMap_congr
    intro o _
    dsimp only
    rw [CompOp.memzones, (hhb.chains o).2, CompOp.memzones]
  rw [zonesInUse, hnew, List.filterMap_append, hzones, hrest, List.append_assoc]

/-- A dequeue only loses memzones that no buffer covers. -/
theorem Reserves.retire_sublist (h : st.Reserves P) (hst : st.Ordered) (hb : st.cfg.Bounds)
    (hbs : bs <+: st.queue.take (st.numDequeued env)) :
    ((st.afterHandBack env).retire bs).zonesInUse.Sublist st.zonesInUse := by
  rw [h.retire_zonesInUse hst hb hbs, zonesInUse_split hst hbs]
  refine (List.Sublist.refl _).append (List.Sublist.append ?_ (List.Sublist.refl _))
  exact List.Sublist.flatMap_right bs fun o _ => List.take_sublist ..

theorem Reserves.retire (h : st.Reserves P) (hst : st.Ordered) (hb : st.cfg.Bounds)
    (hbs : bs <+: st.queue.take (st.numDequeued env)) :
    ((st.afterHandBack env).retire bs).Reserves P := by
  obtain ⟨new, hnew, -, hdata, hkind⟩ := h.retire_emitted hst hb hbs
  have huse := h.retire_sublist hst hb hbs
  have hhb := handBack_spec (hst.queue_prefix env).1 env
  have hretire : (st.afterHandBack env).retire bs = _ :=
    retire_afterHandBack (hst.queue_prefix env).1 bs
  have hcfg : ((st.afterHandBack env).retire bs).cfg = st.cfg :=
    (congrArg Machine.cfg hretire).trans rfl
  refine ⟨fun z hz => (huse.count_le z).trans (h.count_le z hz), ?_, ?_, ?_⟩
  · rw [retire_zones hst]
    exact fun z hz => h.occupied z (huse.subset hz)
  · rw [hnew]
    intro b hb
    rcases List.mem_append.mp hb with hb | hb
    · exact h.buffers b hb
    · exact hdata b hb
  · rw [hcfg]
    intro op hop seg hseg
    rw [hretire, pendingOps] at hop
    obtain ⟨o, ho, rfl⟩ := List.mem_map.mp hop
    dsimp only at hseg
    rw [(hhb.chains o).2] at hseg
    exact (hkind seg).mpr (h.destinations (st.qp.ops o)
      (List.mem_map_of_mem (List.mem_of_mem_drop ho)) seg hseg)

theorem ZonesInUse.retire (h : st.ZonesInUse) (hst : st.Ordered) (hb : st.cfg.Bounds)
    (hbs : bs <+: st.queue.take (st.numDequeued env)) :
    ((st.afterHandBack env).retire bs).ZonesInUse := by
  have huse := h.reserves.retire_sublist hst hb hbs
  have hcfg : ((st.afterHandBack env).retire bs).cfg = st.cfg :=
    (congrArg Machine.cfg (retire_afterHandBack (hst.queue_prefix env).1 bs)).trans rfl
  refine (h.reserves.retire hst hb hbs).inUse ?_ ?_
  · rw [retire_zones hst, hcfg]
    exact h.wellFormed
  · rw [retire_zones hst, hcfg]
    exact fun z hz => h.size_eq z (huse.subset hz)

end Retire

@[simp] theorem emitted_drainOrFinish (st : Machine) :
    st.drainOrFinish.call.emitted = st.call.emitted := by
  rcases st.drainOrFinish_cases with ⟨-, h⟩ | ⟨-, h⟩ <;> rw [h]
  unfold finish
  split
  · rfl
  · next heq => rw [heq]; rfl

@[simp] theorem zonesInUse_drainOrFinish (st : Machine) :
    st.drainOrFinish.zonesInUse = st.zonesInUse := by
  unfold zonesInUse
  rw [pendingOps_drainOrFinish, emitted_drainOrFinish]

/-- `Reserves` looks at the kind of the call and at its emitted buffers only. -/
theorem Reserves.congr {P : Nat → Prop} (h : st.Reserves P) (pc : Pc) {call : Call}
    (hemitted : call.emitted = st.call.emitted)
    (hkind : ∀ L seg, call.DestinationOk L seg ↔ st.call.DestinationOk L seg) :
    { st with
      call := call
      pc := pc }.Reserves P := by
  have huse : zonesInUse { st with
      call := call
      pc := pc } = st.zonesInUse := by
    unfold zonesInUse
    rw [hemitted]
    rfl
  refine ⟨huse ▸ h.count_le, huse ▸ h.occupied, ?_, ?_⟩
  · rw [hemitted]
    exact h.buffers
  · exact fun op hop seg hseg => (hkind _ seg).mpr (h.destinations op hop seg hseg)

theorem Reserves.drainOrFinish {P : Nat → Prop} (h : st.Reserves P) :
    st.drainOrFinish.Reserves P := by
  rcases st.drainOrFinish_cases with ⟨-, he⟩ | ⟨-, he⟩ <;> rw [he]
  · exact h.congr .drain rfl fun _ _ => Iff.rfl
  · unfold finish
    split
    · exact h.congr _ rfl fun _ _ => Iff.rfl
    · next heq => exact h.congr _ (by rw [heq]; rfl) fun _ _ => by rw [heq]; rfl

theorem ZonesInUse.drainOrFinish (h : st.ZonesInUse) : st.drainOrFinish.ZonesInUse := by
  refine h.reserves.drainOrFinish.inUse ?_ ?_
  · rw [zones_drainOrFinish, drainOrFinish_cfg]
    exact h.wellFormed
  · rw [zones_drainOrFinish, drainOrFinish_cfg, zonesInUse_drainOrFinish]
    exact h.size_eq

/-- **Step lemma.** -/
theorem Reserves.continues {P : Nat → Prop} (h : st.Reserves P)
    (hwf : st.zones.WellFormed st.cfg.compressedSegSize) (hst : st.Ordered) (hb : st.cfg.Bounds)
    (hstep : Continues st env st') : st'.Reserves P := by
  cases hstep with
  | built hpc built hT =>
      obtain ⟨h1, h2, h3, h4⟩ := h.built hwf hst hb built
      exact ⟨h1, h2, h3, h4⟩
  | full hpc hpos => exact ⟨h.1, h.2, h.3, h.4⟩
  | exhausted hpc hrem hnone => exact h.drainOrFinish
  | enqueued hpc hread => exact ⟨h.1, h.2, h.3, h.4⟩
  | dequeued hpc hsucc =>
      obtain ⟨h1, h2, h3, h4⟩ := h.retire hst hb List.prefix_rfl
      exact ⟨h1, h2, h3, h4⟩
  | drained hpc hsucc => exact (h.retire hst hb List.prefix_rfl).drainOrFinish
  | returned hpc => exact h

/-- **Step lemma.** -/
theorem ZonesInUse.continues (h : st.ZonesInUse) (hst : st.Ordered) (hb : st.cfg.Bounds)
    (hstep : Continues st env st') : st'.ZonesInUse := by
  cases hstep with
  | built hpc built hT =>
      obtain ⟨h1, h2, h3, h4, h5, h6⟩ := h.built hst hb built
      exact ⟨h1, h2, h3, h4, h5, h6⟩
  | full hpc hpos => exact ⟨h.1, h.2, h.3, h.4, h.5, h.6⟩
  | exhausted hpc hrem hnone => exact h.drainOrFinish
  | enqueued hpc hread => exact ⟨h.1, h.2, h.3, h.4, h.5, h.6⟩
  | dequeued hpc hsucc =>
      obtain ⟨h1, h2, h3, h4, h5, h6⟩ := h.retire hst hb List.prefix_rfl
      exact ⟨h1, h2, h3, h4, h5, h6⟩
  | drained hpc hsucc => exact (h.retire hst hb List.prefix_rfl).drainOrFinish
  | returned hpc => exact h

/-- The buffer lies in memory that is not handed out as a memzone meanwhile. -/
def Apart (st : Machine) (buffer : Buffer) : Prop :=
  ∀ z, buffer.data.block = .memzone z →
    z ∈ st.zones.pool.allocated ∧ z ∉ st.zones.device.memzonePool ∧ z ∉ st.zonesInUse

theorem Apart.built {n : Nat} {os ms : List Nat} {ops : Nat → CompOp} {S T : List Segment}
    {buffer : Buffer} (h : st.Apart buffer) (huse : st.ZonesInUse) (hst : st.Ordered)
    (hb : st.cfg.Bounds) (hbuilt : Built st st' n os ms ops S T) : st'.Apart buffer := by
  intro z hz
  obtain ⟨halloc, hfree, hnot⟩ := h z hz
  obtain ⟨zs, hzs, ht, -⟩ := hbuilt.taken huse.wellFormed
  have hsplit := ht.since.split z
  rw [hbuilt.zonesInUse hst hb, hzs]
  refine ⟨ht.since.allocated_subset z halloc, fun hc => ?_, fun hc => ?_⟩
  · rcases hsplit.mp (Or.inl hc) with hp | ⟨-, ha⟩
    · exact hfree hp
    · exact ha halloc
  · rcases List.mem_append.mp hc with hc | hc
    · exact hnot hc
    · have hocc : z ∈ st'.zones.device.occupiedMemzones := by
        rw [ht.occupied]
        exact Finset.mem_union_right _ (List.mem_toFinset.mpr hc)
      rcases hsplit.mp (Or.inr ⟨hocc, ht.fresh z hc⟩) with hp | ⟨-, ha⟩
      · exact hfree hp
      · exact ha halloc

theorem Apart.continues {buffer : Buffer} (h : st.Apart buffer) (huse : st.ZonesInUse)
    (hst : st.Ordered) (hb : st.cfg.Bounds) (hstep : Continues st env st') :
    st'.Apart buffer := by
  have hretire : ((st.afterHandBack env).retire
      (st.queue.take (st.numDequeued env))).Apart buffer := by
    intro z hz
    obtain ⟨halloc, hfree, hnot⟩ := h z hz
    refine ⟨?_, ?_, fun hc =>
      hnot ((huse.reserves.retire_sublist hst hb List.prefix_rfl).subset hc)⟩
    all_goals rwa [retire_afterHandBack (hst.queue_prefix env).1]
  have hfinish : ∀ s : Machine, s.Apart buffer → s.drainOrFinish.Apart buffer := by
    intro s hs z hz
    rw [zonesInUse_drainOrFinish, zones_drainOrFinish]
    exact hs z hz
  cases hstep with
  | built hpc built hT =>
      have := h.built huse hst hb built
      exact this
  | full hpc hpos => exact h
  | exhausted hpc hrem hnone => exact hfinish _ h
  | enqueued hpc hread => exact h
  | dequeued hpc hsucc => exact hretire
  | drained hpc hsucc => exact hfinish _ hretire
  | returned hpc => exact h

end Machine

end Bitar
