import Bitar.Lib.Footprint
import Bitar.Oblivious
import Bitar.ZonesInUse

/-!
# What a call in progress touches

A call of `Compress` reads its input and writes the memzones that it has taken;
a call of `Decompress` reads the buffers and writes the output.  The device
reads and writes nothing else for it.

**Results.**
* `Continues.confines`: a step writes inside the footprint.
* `Continues.writeBlocks_grow`: the footprint grows by free memzones only.
* `Targeted.continues`: what is to do stays inside the footprint.
-/

namespace Bitar

open BlockStore Pieces

/-- The block is not handed out as a new memzone. -/
def Zones.Settled (zones : Zones) : Block → Prop
  | .memzone z => z ∈ zones.pool.allocated ∧ z ∉ zones.device.memzonePool
  | .host _ => True

instance (zones : Zones) : ∀ b, Decidable (zones.Settled b)
  | .memzone z =>
      inferInstanceAs (Decidable (z ∈ zones.pool.allocated ∧ z ∉ zones.device.memzonePool))
  | .host _ => inferInstanceAs (Decidable True)

namespace Zones

theorem settled_of_occupied {size : Nat} {zones : Zones} (h : zones.WellFormed size) {z : Nat}
    (hz : z ∈ zones.device.occupiedMemzones) : zones.Settled (.memzone z) :=
  ⟨h.occupied_allocated z hz, fun hfree => h.disjoint z hfree hz⟩

theorem Since.settled {zones later : Zones} (h : zones.Since later) {b : Block}
    (hb : zones.Settled b) : later.Settled b := by
  cases b with
  | host id => trivial
  | memzone z =>
      refine ⟨h.allocated_subset z hb.1, fun hfree => ?_⟩
      rcases (h.split z).mp (Or.inl hfree) with hold | ⟨-, hnew⟩
      · exact hb.2 hold
      · exact hnew hb.1

end Zones

/-- The blocks that a call reads. -/
def Call.readBlocks : Call → List Block
  | .compress input _ _ => [input.data.block]
  | .decompress buffers _ _ _ _ => buffers.map fun buffer => buffer.data.block

/-- The block of the output, if the caller provides one. -/
def Call.outputBlock : Call → Option Block
  | .compress .. => none
  | .decompress _ output _ _ _ => some output.data.block

namespace Machine

variable {st st' : Machine} {env : Env}

/-- The blocks that the device writes for the call. -/
def writeBlocks (st : Machine) : List Block :=
  match st.call.outputBlock with
  | none => st.zonesInUse.map .memzone
  | some block => [block]

/-- The footprint of the call in progress. -/
def footprint (st : Machine) : Footprint Block :=
  match st.result with
  | some _ => {}
  | none => ⟨st.call.readBlocks, st.writeBlocks⟩

theorem footprint_of_returned {status : Status} (h : st.pc = .returned status) :
    st.footprint = {} := by
  rw [footprint, result_eq_some.mpr h]

theorem footprint_of_none (h : st.result = none) :
    st.footprint = ⟨st.call.readBlocks, st.writeBlocks⟩ := by
  rw [footprint, h]

/-- A block of the footprint belongs to a call in progress. -/
theorem result_of_mem_blocks {b : Block} (h : b ∈ st.footprint.blocks) : st.result = none := by
  unfold footprint at h
  cases hres : st.result with
  | none => rfl
  | some status =>
      rw [hres] at h
      cases h

section Kept

/-- What the cursors and the result of a call do not change, no step changes. -/
theorem Continues.call_kept {α : Type*} {f : Call → α}
    (hadvance : ∀ (call : Call) (cfg : Configuration) (n : Nat), f (call.advance cfg n) = f call)
    (hcallback : ∀ (call : Call) (op : CompOp), f (call.dequeueCallback op) = f call)
    (hfinish : ∀ st : Machine, f st.finish.call = f st.call)
    (hst : st.Ordered) (hstep : Continues st env st') : f st'.call = f st.call := by
  have hdrain : ∀ s : Machine, f s.drainOrFinish.call = f s.call := by
    intro s
    rcases s.drainOrFinish_cases with ⟨-, he⟩ | ⟨-, he⟩ <;> rw [he]
    exact hfinish s
  have hretire : ∀ bs : List Nat, f ((st.afterHandBack env).retire bs).call = f st.call := by
    intro bs
    rw [retire_call hst]
    generalize st.call = call
    induction bs generalizing call with
    | nil => rfl
    | cons o bs ih => rw [List.foldl_cons, ih, hcallback]
  cases hstep with
  | built hpc built hT => exact (congrArg f built.call_eq).trans (hadvance _ _ _)
  | full hpc hpos => rfl
  | exhausted hpc hrem hnone => exact hdrain st
  | enqueued hpc hread => rfl
  | dequeued hpc hsucc => exact hretire _
  | drained hpc hsucc => exact (hdrain _).trans (hretire _)
  | returned hpc => rfl

theorem Continues.readBlocks_eq (hst : st.Ordered) (hstep : Continues st env st') :
    st'.call.readBlocks = st.call.readBlocks := by
  refine hstep.call_kept (fun call cfg n => ?_) (fun call op => ?_) (fun s => ?_) hst
  · cases call <;> rfl
  · cases call <;> rfl
  · unfold finish
    split
    · rfl
    · next heq => rw [heq]; rfl

theorem Continues.outputBlock_eq (hst : st.Ordered) (hstep : Continues st env st') :
    st'.call.outputBlock = st.call.outputBlock := by
  refine hstep.call_kept (fun call cfg n => ?_) (fun call op => ?_) (fun s => ?_) hst
  · cases call <;> rfl
  · cases call <;> rfl
  · unfold finish
    split
    · rfl
    · next heq => rw [heq]; rfl

end Kept

/-! ## The operations of a call -/

/-- What is to do is inside the footprint. -/
structure Targeted (st : Machine) : Prop where
  sources : ∀ spans ∈ st.todo, ∀ sp ∈ spans, sp.block ∈ st.call.readBlocks
  destinations : ∀ op ∈ st.pendingOps, ∀ sp ∈ op.destination, sp.block ∈ st.writeBlocks

theorem remaining_block (st : Machine) : ∀ sp ∈ st.remaining, sp.block ∈ st.call.readBlocks := by
  unfold remaining
  cases st.call with
  | compress input offset out =>
      intro sp hsp
      obtain ⟨i, -, rfl⟩ := List.mem_map.mp hsp
      exact List.mem_singleton.mpr rfl
  | decompress buffers output index offset size =>
      intro sp hsp
      obtain ⟨buffer, hbuffer, rfl⟩ := List.mem_map.mp hsp
      exact List.mem_map_of_mem (List.mem_of_mem_drop hbuffer)

theorem Idle.start_targeted (h : st.Idle) (request : Request) : (st.start request).Targeted := by
  have hops : (st.start request).pendingOps = [] := by simp [pendingOps, h.pending]
  refine ⟨?_, by simp [hops]⟩
  intro spans hspans sp hsp
  rw [todo, hops, List.map_nil, List.nil_append] at hspans
  exact remaining_block _ sp (subset_of_mem_pieces hspans hsp)

/-- The memzones of a call of `Compress` are where its operations write. -/
theorem Reserves.destination_block (h : st.Reserves fun _ => True)
    (hcompress : st.call.outputBlock = none) :
    ∀ op ∈ st.pendingOps, ∀ sp ∈ op.destination, sp.block ∈ st.writeBlocks := by
  intro op hop sp hsp
  obtain ⟨seg, hseg, rfl⟩ := List.mem_map.mp hsp
  have hok := h.destinations op hop seg hseg
  rw [writeBlocks, hcompress]
  cases hcall : st.call with
  | decompress buffers output index offset size =>
      rw [hcall] at hcompress
      cases hcompress
  | compress input offset out =>
      rw [hcall] at hok
      obtain ⟨z, hz⟩ := hok
      have hmem : z ∈ st.zonesInUse := List.mem_append_right _
        (List.mem_flatMap.mpr ⟨op, hop, List.mem_filterMap.mpr ⟨seg, hseg, hz.memzone⟩⟩)
      have hblock : seg.span.block = .memzone z := by
        rw [Segment.span, hz.bufAddr]
        rfl
      rw [hblock]
      exact List.mem_map_of_mem hmem

/-- The operations of a new burst of `Decompress` write to the output. -/
theorem Built.destination_block {n : Nat} {os ms : List Nat} {ops : Nat → CompOp}
    {S T : List Segment} (h : Built st st' n os ms ops S T) (hb : st.cfg.Bounds) {block : Block}
    (hdecompress : st.call.outputBlock = some block) :
    ∀ op ∈ os.map ops, ∀ sp ∈ op.destination, sp.block = block := by
  intro op hop sp hsp
  obtain ⟨o, ho, rfl⟩ := List.mem_map.mp hop
  obtain ⟨seg, hseg, rfl⟩ := List.mem_map.mp hsp
  have hT : seg ∈ T := by
    rw [← h.flatMap_mDst hb.maxSglSegs_pos]
    exact List.mem_flatMap.mpr ⟨o, ho, hseg⟩
  have hdest := h.destinations
  cases hcall : st.call with
  | compress input offset out =>
      rw [hcall] at hdecompress
      cases hdecompress
  | decompress buffers output index offset size =>
      rw [hcall] at hdest hdecompress
      obtain ⟨-, -, hspans, -⟩ := hdest
      have hmem := List.mem_map_of_mem (f := Segment.span) hT
      rw [hspans] at hmem
      obtain ⟨i, -, he⟩ := List.mem_map.mp hmem
      rw [← he]
      exact Option.some.inj hdecompress

/-- **Step lemma.** -/
theorem Targeted.continues (h : st.Targeted) (hres' : st'.Reserves fun _ => True)
    (hst : st.Ordered) (hb : st.cfg.Bounds) (hstep : Continues st env st') : st'.Targeted := by
  have hread := hstep.readBlocks_eq hst
  have hout := hstep.outputBlock_eq hst
  refine ⟨?_, ?_⟩
  · rw [todo_continues hst hb hstep, hread]
    exact fun spans hspans => h.sources spans (List.mem_of_mem_drop hspans)
  · cases hblock : st.call.outputBlock with
    | none => exact hres'.destination_block (hout.trans hblock)
    | some block =>
        have hwrite : st'.writeBlocks = st.writeBlocks := by
          rw [writeBlocks, writeBlocks, hout, hblock]
        rw [hwrite]
        have hold := h.destinations
        have hdrop : ∀ op ∈ ((st.afterHandBack env).retire
            (st.queue.take (st.numDequeued env))).pendingOps,
            ∀ sp ∈ op.destination, sp.block ∈ st.writeBlocks := by
          rw [pendingOps_retire hst env]
          exact fun op hop => hold op (List.mem_of_mem_drop hop)
        cases hstep with
        | @built st₁ n os ms ops S T hpc built hT =>
            show ∀ op ∈ st₁.pendingOps, _
            rw [built.pendingOps_append hst]
            intro op hop sp hsp
            rcases List.mem_append.mp hop with hop | hop
            · exact hold op hop sp hsp
            · rw [built.destination_block hb hblock op hop sp hsp, writeBlocks, hblock]
              exact List.mem_singleton.mpr rfl
        | full hpc hpos => exact hold
        | exhausted hpc hrem hnone => rwa [pendingOps_drainOrFinish]
        | enqueued hpc hread => exact hold
        | dequeued hpc hsucc => exact hdrop
        | drained hpc hsucc => rwa [pendingOps_drainOrFinish]
        | returned hpc => exact hold

/-! ## What a step writes -/

/-- The memory after a step. -/
theorem Continues.memory_eq (hst : st.Ordered) (hstep : Continues st env st') :
    st'.memory = scatterAll st.memory (st.completed env) := by
  have hretire : ((st.afterHandBack env).retire
      (st.queue.take (st.numDequeued env))).memory = scatterAll st.memory (st.jobs env) := by
    rw [retire_afterHandBack (hst.queue_prefix env).1]
    rfl
  cases hstep with
  | built hpc built hT =>
      rw [completed, hpc]
      exact built.memory_eq
  | full hpc hpos =>
      rw [completed, hpc]
      rfl
  | exhausted hpc hrem hnone =>
      rw [completed, hpc, memory_drainOrFinish]
      rfl
  | enqueued hpc hread =>
      rw [completed, hpc]
      rfl
  | dequeued hpc hsucc =>
      rw [completed, hpc]
      exact hretire
  | drained hpc hsucc =>
      rw [completed, hpc, memory_drainOrFinish]
      exact hretire
  | returned hpc =>
      rw [completed, hpc]
      rfl

theorem completed_mem (hst : st.Ordered) {job : List (Span Block) × List UInt8}
    (hjob : job ∈ st.completed env) : ∃ op ∈ st.pendingOps, job.1 = op.destination := by
  have hjobs : job ∈ st.jobs env := by
    unfold completed at hjob
    split at hjob
    · exact hjob
    · exact hjob
    · cases hjob
  obtain ⟨p, hp, rfl⟩ := List.mem_map.mp hjobs
  exact ⟨_, finished_mem hst hp, rfl⟩

/-- **A step writes inside the footprint.** -/
theorem Continues.confines (hstep : Continues st env st') (hst : st.Ordered)
    (htargeted : st.result = none → st.Targeted) :
    st.footprint.Confines st.memory st'.memory := by
  rw [hstep.memory_eq hst]
  cases hres : st.result with
  | some status =>
      rw [completed, result_eq_some.mp hres]
      exact fun b _ => rfl
  | none =>
      apply confines_scatterAll
      intro job hjob sp hsp
      obtain ⟨op, hop, hdest⟩ := completed_mem hst hjob
      rw [footprint_of_none hres]
      exact (htargeted hres).destinations op hop sp (hdest ▸ hsp)

/-- The memzones in use after a step. -/
theorem Continues.zonesInUse_grow (hstep : Continues st env st') (hst : st.Ordered)
    (hb : st.cfg.Bounds) (hres : st.Reserves fun _ => True)
    (hwf : st.zones.WellFormed st.cfg.compressedSegSize) :
    ∀ z ∈ st'.zonesInUse, z ∈ st.zonesInUse ∨
      z ∈ st.zones.device.memzonePool ∨ z ∉ st.zones.pool.allocated := by
  have hretire : ∀ z ∈ ((st.afterHandBack env).retire
      (st.queue.take (st.numDequeued env))).zonesInUse, z ∈ st.zonesInUse :=
    fun z hz => (hres.retire_sublist hst hb List.prefix_rfl).subset hz
  cases hstep with
  | @built st₁ n os ms ops S T hpc built hT =>
      intro z hz
      have huse := built.zonesInUse hst hb
      change z ∈ st₁.zonesInUse at hz
      rw [huse, List.mem_append] at hz
      obtain ⟨zs, hzs, ht, -⟩ := built.taken hwf
      rw [hzs] at hz
      refine hz.imp_right fun hnew => ?_
      have hocc : z ∈ st₁.zones.device.occupiedMemzones := by
        rw [ht.occupied]
        exact Finset.mem_union_right _ (List.mem_toFinset.mpr hnew)
      exact ((ht.since.split z).mp (Or.inr ⟨hocc, ht.fresh z hnew⟩)).imp_right And.right
  | full hpc hpos => exact fun z hz => Or.inl hz
  | exhausted hpc hrem hnone =>
      rw [zonesInUse_drainOrFinish]
      exact fun z hz => Or.inl hz
  | enqueued hpc hread => exact fun z hz => Or.inl hz
  | dequeued hpc hsucc => exact fun z hz => Or.inl (hretire z hz)
  | drained hpc hsucc =>
      rw [zonesInUse_drainOrFinish]
      exact fun z hz => Or.inl (hretire z hz)
  | returned hpc => exact fun z hz => Or.inl hz

theorem Continues.result_none (hstep : Continues st env st') (h : st'.result = none) :
    st.result = none := by
  by_contra hne
  obtain ⟨status, hpc⟩ := Option.ne_none_iff_exists'.mp hne
  have hpc' := result_eq_some.mp hpc
  cases hstep with
  | returned hpc => exact hne h
  | _ => simp_all

/-- **The footprint grows by free memzones only.** -/
theorem Continues.writeBlocks_grow (hstep : Continues st env st') (hst : st.Ordered)
    (hb : st.cfg.Bounds) (hres : st.Reserves fun _ => True)
    (hwf : st.zones.WellFormed st.cfg.compressedSegSize) :
    ∀ b ∈ st'.writeBlocks, b ∈ st.writeBlocks ∨ ¬ st.zones.Settled b := by
  intro b hb'
  rw [writeBlocks, hstep.outputBlock_eq hst] at hb'
  rw [writeBlocks]
  cases hout : st.call.outputBlock with
  | some block =>
      rw [hout] at hb'
      exact Or.inl hb'
  | none =>
      rw [hout] at hb'
      obtain ⟨z, hz, rfl⟩ := List.mem_map.mp hb'
      rcases hstep.zonesInUse_grow hst hb hres hwf z hz with hold | hfree | hnew
      · exact Or.inl (List.mem_map_of_mem hold)
      · exact Or.inr fun hsettled => hsettled.2 hfree
      · exact Or.inr fun hsettled => hnew hsettled.1

/-- A call writes where nobody else can be given a memzone. -/
theorem Reserves.settled_writeBlocks (h : st.Reserves fun _ => True)
    (hwf : st.zones.WellFormed st.cfg.compressedSegSize) (hout : st.call.outputBlock = none) :
    ∀ b ∈ st.writeBlocks, st.zones.Settled b := by
  rw [writeBlocks, hout]
  intro b hb
  obtain ⟨z, hz, rfl⟩ := List.mem_map.mp hb
  exact Zones.settled_of_occupied hwf (h.occupied z hz trivial)

/-- The memzones in use are written. -/
theorem Reserves.mem_writeBlocks (h : st.Reserves fun _ => True) {z : Nat}
    (hz : z ∈ st.zonesInUse) : .memzone z ∈ st.writeBlocks := by
  rw [writeBlocks]
  cases hcall : st.call with
  | compress input offset out => exact List.mem_map_of_mem hz
  | decompress buffers output index offset size =>
      -- such a call has no memzones
      exfalso
      rw [zonesInUse, hcall] at hz
      obtain ⟨op, hop, hmem⟩ := List.mem_flatMap.mp hz
      obtain ⟨seg, hseg, hzone⟩ := List.mem_filterMap.mp hmem
      have hok := h.destinations op hop seg hseg
      rw [hcall] at hok
      simp [Segment.memzone, show seg.shinfo = .decompressed from hok] at hzone

end Machine

end Bitar
