import Bitar.CompressOutput
import Bitar.DecompressOutput
import Bitar.Progress
import Mathlib.Algebra.BigOperators.Ring.List
import Mathlib.Algebra.Order.BigOperators.Group.List

/-!
# Round trips

`Compress` emits as many buffers for an operation as its stream needs;
`Decompress` gives every operation `max_sgl_segs` of these buffers and, for each
of them, room for one source segment.  The two cuts agree if and only if the
stream of every block of the input occupies as many segments as the block.

**Results.**
* `compressed_fits`: what a call of `Compress` that returns OK has emitted.
* `Decoding.continues`: the step lemma for `Decompress` when the cuts agree.
* `round_trip`: the round trip succeeds if and only if the cuts agree.
-/

namespace Bitar

open BlockStore Pieces

/-- No stream is followed by something that makes it another stream. -/
def SelfDelimiting (enc : List UInt8 → List UInt8) : Prop :=
  ∀ x y r r', enc x ++ r = enc y ++ r' → x = y

theorem SelfDelimiting.ne_nil {enc : List UInt8 → List UInt8} (h : SelfDelimiting enc)
    (x : List UInt8) : enc x ≠ [] := by
  intro hx
  have := h x (0 :: x) (enc (0 :: x)) [] (by rw [hx, List.nil_append, List.append_nil])
  exact absurd (congrArg List.length this) (by simp)

/-- The blocks of an input, one for each operation. -/
def Configuration.blocks (cfg : Configuration) (input : List UInt8) : List (List UInt8) :=
  pieces (cfg.maxSglSegs.toNat * cfg.decompressedSegSize.toNat) input

/-- The stream of every block occupies as many destination segments as the block
occupies source segments. -/
def CutsAgree (cfg : Configuration) (enc : List UInt8 → List UInt8) (input : List UInt8) : Prop :=
  ∀ block ∈ cfg.blocks input,
    count cfg.segLen (enc block).length = count cfg.decompressedSegSize.toNat block.length

/-- The place of every decompress operation has room for its block. -/
def HasRoom (cfg : Configuration) (buffers : List Buffer) (blocks : List (List UInt8)) : Prop :=
  ∀ (i place : Nat) (block : List UInt8),
    (operationRooms cfg buffers)[i]? = some place → blocks[i]? = some block → block.length ≤ place

section Cuts

variable {cfg : Configuration} {enc : List UInt8 → List UInt8} {input : List UInt8}

theorem Configuration.Bounds.blockSize_pos (hb : cfg.Bounds) :
    0 < cfg.maxSglSegs.toNat * cfg.decompressedSegSize.toNat :=
  Nat.mul_pos hb.maxSglSegs_pos hb.segSize_pos

/-- The segments of all blocks are the segments of the input. -/
theorem sum_count_blocks (hb : cfg.Bounds) (input : List UInt8) :
    ((cfg.blocks input).map fun block =>
      count cfg.decompressedSegSize.toNat block.length).sum =
        count cfg.decompressedSegSize.toNat input.length := by
  rw [Configuration.blocks, ← map_length_pieces hb.maxSglSegs_pos hb.segSize_pos,
    ← List.length_flatten, flatten_pieces hb.maxSglSegs_pos, length_pieces]

/-- When the cuts agree, `Decompress` finds the streams of the blocks again. -/
theorem CutsAgree.regroup (h : CutsAgree cfg enc input) (hb : cfg.Bounds) :
    pieces cfg.maxSglSegs.toNat
        ((cfg.blocks input).flatMap fun block => pieces cfg.segLen (enc block)) =
      (cfg.blocks input).map fun block => pieces cfg.segLen (enc block) := by
  rw [List.flatMap_def]
  apply pieces_flatten hb.maxSglSegs_pos
  · intro group hgroup
    obtain ⟨block, hblock, rfl⟩ := List.mem_map.mp hgroup
    obtain ⟨hpos, hle⟩ := length_of_mem_pieces hb.blockSize_pos hblock
    have hcount := count_pos hb.segSize_pos hpos
    have hgroup := (count_le_iff hb.segSize_pos).mpr hle
    rw [← List.length_pos_iff, length_pieces, h block hblock]
    exact ⟨hcount, hgroup⟩
  · intro group hgroup
    rw [← List.map_dropLast] at hgroup
    obtain ⟨block, hblock, rfl⟩ := List.mem_map.mp hgroup
    rw [length_pieces, h block (List.dropLast_subset _ hblock),
      length_of_mem_dropLast_pieces hb.blockSize_pos _ block hblock, count_mul hb.segSize_pos]

theorem streams_ne_nil (hself : SelfDelimiting enc) (hb : cfg.Bounds) (hinput : input ≠ []) :
    (cfg.blocks input).flatMap (fun block => pieces cfg.segLen (enc block)) ≠ [] := by
  intro hnil
  rw [List.flatMap_eq_nil_iff] at hnil
  have hblocks : cfg.blocks input ≠ [] := fun h =>
    hinput ((pieces_eq_nil_iff hb.blockSize_pos).mp h)
  obtain ⟨block, rest, hblock⟩ := List.exists_cons_of_ne_nil hblocks
  have := hnil block (by simp [hblock])
  exact hself.ne_nil block ((pieces_eq_nil_iff (segLen_pos hb)).mp this)

/-- When they do not agree, there are too few buffers. -/
theorem cutsAgree_of_le (hb : cfg.Bounds)
    (hfits : ∀ block ∈ cfg.blocks input, (enc block).length ≤
      count cfg.decompressedSegSize.toNat block.length * cfg.segLen)
    (hlen : input.length ≤ ((cfg.blocks input).flatMap fun block =>
      pieces cfg.segLen (enc block)).length * cfg.decompressedSegSize.toNat) :
    CutsAgree cfg enc input := by
  have hle : ∀ block ∈ cfg.blocks input, count cfg.segLen (enc block).length ≤
      count cfg.decompressedSegSize.toNat block.length := fun block hblock =>
    (count_le_iff (segLen_pos hb)).mpr (hfits block hblock)
  rw [← count_le_iff hb.segSize_pos, ← sum_count_blocks hb, List.length_flatMap] at hlen
  simp only [length_pieces] at hlen
  intro block hblock
  by_contra hne
  have := List.sum_lt_sum _ _ hle ⟨block, hblock, lt_of_le_of_ne (hle block hblock) hne⟩
  omega

/-- The room of the operations fits the blocks. -/
theorem filled_blocks (hb : cfg.Bounds) (input : List UInt8) :
    Filled (((cfg.blocks input).map fun block =>
      count cfg.decompressedSegSize.toNat block.length *
        cfg.decompressedSegSize.toNat).zip (cfg.blocks input)) := by
  have hzip : ((cfg.blocks input).map fun block =>
      count cfg.decompressedSegSize.toNat block.length * cfg.decompressedSegSize.toNat).zip
        (cfg.blocks input) =
      (cfg.blocks input).map fun block =>
        (count cfg.decompressedSegSize.toNat block.length * cfg.decompressedSegSize.toNat,
          block) := by
    conv_lhs => rw [← List.map_id (cfg.blocks input), List.map_map]
    exact List.zip_map' ..
  rw [hzip]
  apply filled_of_dropLast
  intro place hplace
  rw [← List.map_dropLast] at hplace
  obtain ⟨block, hblock, rfl⟩ := List.mem_map.mp hplace
  have hlen := length_of_mem_dropLast_pieces hb.blockSize_pos _ block hblock
  dsimp only
  rw [hlen, count_mul hb.segSize_pos]

end Cuts

namespace Machine

variable {st st' : Machine} {env : Env} {enc : List UInt8 → List UInt8}

/-! ## The compressing side -/

section Compress

variable {input : Buffer} {memory : Memory} {total : List (List UInt8)}

/-- The stream of an operation handed back fits its destination. -/
theorem Compressing.fits (h : Compressing enc input memory total st) (hst : st.Ordered)
    (henc : st.Encodes enc env) (hpc : st.pc = .dequeue ∨ st.pc = .drain) :
    ∀ spans ∈ st.todo.take (st.numDequeued env),
      (enc (gather memory spans)).length ≤ spans.length * st.cfg.segLen := by
  obtain ⟨offset, out, hcall⟩ := h.compress
  intro spans hspans
  rw [todo_take hst] at hspans
  obtain ⟨p, hp, rfl⟩ := List.mem_map.mp hspans
  have hop := finished_mem hst hp
  have htodo : (st.qp.ops p.1).sourceSpans ∈ st.todo :=
    List.mem_append_left _ (List.mem_map_of_mem hop)
  obtain ⟨hout, hroom⟩ := henc hpc p hp
  have hwhole := h.whole _ hop
  rw [hout, hwhole.source_eq, h.gather_eq htodo] at hroom
  have huniform : room (st.qp.ops p.1).destination =
      (st.qp.ops p.1).destination.length * st.cfg.segLen := by
    apply room_eq_of_uniform
    intro sp hsp
    obtain ⟨seg, hseg, rfl⟩ := List.mem_map.mp hsp
    have hok := h.zones.destinations _ hop seg hseg
    rw [hcall] at hok
    obtain ⟨z, hz⟩ := hok
    exact hz.dataLen
  rw [huniform] at hroom
  obtain ⟨S, T, hST, hlen⟩ := hwhole
  have hsame : (st.qp.ops p.1).sourceSpans.length = (st.qp.ops p.1).destination.length := by
    rw [hST]
    simpa [CompOp.sourceSpans, CompOp.destination, builtOp, opWith] using hlen
  rwa [hsame]

theorem Compressing.fits_continues (h : Compressing enc input memory total st)
    (hst : st.Ordered) (hb : st.cfg.Bounds) (henc : st.Encodes enc env)
    (hstep : Continues st env st') {spans : List (Span Block)}
    (hspans : spans ∈ st.todo ∨
      (enc (gather memory spans)).length ≤ spans.length * st.cfg.segLen) :
    spans ∈ st'.todo ∨ (enc (gather memory spans)).length ≤ spans.length * st'.cfg.segLen := by
  rw [todo_continues hst hb hstep, hstep.cfg_eq hst]
  rcases hspans with hspans | hfits
  · rw [← List.take_append_drop (st.numRetired env) st.todo, List.mem_append] at hspans
    rcases hspans with hspans | hspans
    · right
      unfold numRetired at hspans
      split at hspans
      · next hpc => exact h.fits hst henc (Or.inl hpc) spans hspans
      · next hpc => exact h.fits hst henc (Or.inr hpc) spans hspans
      · simp at hspans
    · exact Or.inl hspans
  · exact Or.inr hfits

/-- A block of the input, as the spans of an operation. -/
theorem exists_spans_of_block {m s : Nat} (hm : 0 < m) (hs : 0 < s) (memory : Memory)
    (input : Buffer) {block : List UInt8}
    (hblock : block ∈ pieces (m * s) (input.bytes memory)) :
    ∃ spans ∈ pieces m (inputSpans s input 0), gather memory spans = block ∧
      spans.length = count s block.length := by
  have hbytes := map_gather_inputSpans hm hs memory input
  have hcount : (pieces m (inputSpans s input 0)).map List.length =
      (pieces (m * s) (input.bytes memory)).map fun block => count s block.length := by
    rw [← map_length_pieces hm hs, ← map_read_inputSpans, pieces_map, List.map_map]
    simp
  obtain ⟨j, hj, rfl⟩ := List.getElem_of_mem hblock
  have hj' : j < (pieces m (inputSpans s input 0)).length := by
    rw [← List.length_map (f := gather memory), hbytes]
    exact hj
  refine ⟨_, List.getElem_mem hj', ?_, ?_⟩
  · rw [← List.getElem_map (gather memory) (h := by simpa using hj')]
    simp only [hbytes]
  · rw [← List.getElem_map List.length (h := by simpa using hj')]
    simp only [hcount, List.getElem_map]

/-- What a call of `Compress` that returns OK has emitted. -/
theorem compressed_fits (hb : st.cfg.Bounds) (hready : st.Ready) (hidle : st.Idle)
    (hzones : st.zones.WellFormed st.cfg.compressedSegSize) (hinput : 0 < input.size)
    (hapart : ∀ z, input.data.block = .memzone z →
      z ∈ st.zones.pool.allocated ∧ z ∉ st.zones.device.memzonePool)
    {debug : Bool} {envs : List Env}
    (henc : Runs.Along (step debug) (Encodes enc) (st.compress (some input)) envs)
    (hok : (Runs.run (step debug) (st.compress (some input)) envs).result = some .success) :
    (Runs.run (step debug) (st.compress (some input)) envs).contents =
        (st.cfg.blocks (input.bytes st.memory)).flatMap (fun block =>
          pieces st.cfg.segLen (enc block)) ∧
      ∀ block ∈ st.cfg.blocks (input.bytes st.memory), (enc block).length ≤
        count st.cfg.decompressedSegSize.toNat block.length * st.cfg.segLen := by
  have hnf := hidle.noFault_of_success hb (.compress (some input)) debug hok
  have hstart := compressing_start enc hb hready hidle hzones hinput hapart
  have htodo : (st.compress (some input)).todo = pieces st.cfg.maxSglSegs.toNat
      (inputSpans st.cfg.decompressedSegSize.toNat input 0) := by
    unfold todo
    simp [pendingOps, compress, hidle.pending, remaining, Call.remaining]
  have hrun := Runs.Along.invariant
    (I := fun s => (InOrder st.cfg st.qp.operationPool st.qp.mbufPool s ∧
      Compressing enc input st.memory _ s) ∧
      ∀ spans ∈ (st.compress (some input)).todo, spans ∈ s.todo ∨
        (enc (gather st.memory spans)).length ≤ spans.length * s.cfg.segLen)
    ?_ ⟨⟨hidle.start_inOrder (.compress (some input)), hstart⟩, fun spans h => Or.inl h⟩
    (hnf.and henc)
  · obtain ⟨⟨hs, hc⟩, hfits⟩ := hrun
    have hbs := hs.cfg_eq ▸ hb
    obtain ⟨-, hnil, hcontents⟩ := hc.returned hs.ordered hbs (result_eq_some.mp hok)
    refine ⟨hcontents, ?_⟩
    intro block hblock
    obtain ⟨spans, hspans, rfl, hlen⟩ :=
      exists_spans_of_block hb.maxSglSegs_pos hb.segSize_pos st.memory input hblock
    have := hfits spans (htodo ▸ hspans)
    rw [hnil, hs.cfg_eq] at this
    rw [← hlen]
    exact this.resolve_left List.not_mem_nil
  · rintro s env ⟨⟨hs, hc⟩, hfits⟩ ⟨hnf, henc⟩
    have hbs := hs.cfg_eq ▸ hb
    obtain ⟨hcont, hs'⟩ := hs.step hb debug hnf
    exact ⟨⟨hs', hc.continues hs.ordered hbs henc hcont⟩,
      fun spans h => hc.fits_continues hs.ordered hbs henc hcont (hfits spans h)⟩

end Compress

/-! ## The decompressing side -/

/-- The allocations succeed and no error count is reported in this step. -/
def NoOutage (st : Machine) (env : Env) : Prop :=
  match st.pc with
  | .assemble => (st.assembleFrom env).2.isOk = true
  | .enqueue n =>
      (getErrorCount st.numMaybeNotOk (min env.numAccepted (toUInt16 n)) env.stats).1 = 0
  | .dequeue | .drain =>
      (getErrorCount st.numMaybeNotOk (st.numDequeued env) env.stats).1 = 0
  | .returned _ => True

/-- An operation whose source begins with the stream of `x` gives `x`, as long as
its destination has room for it. -/
def Decodes (enc : List UInt8 → List UInt8) (st : Machine) (env : Env) : Prop :=
  (st.pc = .dequeue ∨ st.pc = .drain) → ∀ p ∈ st.finished env, ∀ x rest,
    (st.qp.ops p.1).source st.memory = enc x ++ rest →
    x.length ≤ room (st.qp.ops p.1).destination → p.2.status = .success ∧ p.2.output = x

instance (st : Machine) (env : Env) : Decidable (st.NoOutage env) :=
  show Decidable (match st.pc with
    | .assemble => (st.assembleFrom env).2.isOk = true
    | .enqueue n =>
        (getErrorCount st.numMaybeNotOk (min env.numAccepted (toUInt16 n)) env.stats).1 = 0
    | .dequeue | .drain =>
        (getErrorCount st.numMaybeNotOk (st.numDequeued env) env.stats).1 = 0
    | .returned _ => True) from
  match st.pc with
  | .assemble => inferInstanceAs (Decidable ((st.assembleFrom env).2.isOk = true))
  | .enqueue n => inferInstanceAs (Decidable
      ((getErrorCount st.numMaybeNotOk (min env.numAccepted (toUInt16 n)) env.stats).1 = 0))
  | .dequeue => inferInstanceAs (Decidable
      ((getErrorCount st.numMaybeNotOk (st.numDequeued env) env.stats).1 = 0))
  | .drain => inferInstanceAs (Decidable
      ((getErrorCount st.numMaybeNotOk (st.numDequeued env) env.stats).1 = 0))
  | .returned _ => instDecidableTrue

theorem noFault_of_noOutage (h : st.NoOutage env)
    (hsucc : (st.pc = .dequeue ∨ st.pc = .drain) →
      ∀ p ∈ st.finished env, p.2.status = .success) : st.NoFault env := by
  cases hpc : st.pc with
  | assemble =>
      simp only [NoOutage, NoFault, hpc] at h ⊢
      exact h
  | enqueue n =>
      simp only [NoOutage, NoFault, hpc] at h ⊢
      exact h
  | dequeue =>
      simp only [NoOutage, NoFault, hpc] at h ⊢
      exact ⟨h, hsucc (Or.inl hpc)⟩
  | drain =>
      simp only [NoOutage, NoFault, hpc] at h ⊢
      exact ⟨h, hsucc (Or.inr hpc)⟩
  | returned status => simp only [NoFault, hpc]

theorem length_finished (st : Machine) (env : Env) :
    (st.finished env).length = st.numDequeued env := by
  have := congrArg List.length (st.map_fst_finished env)
  rw [List.length_map, List.length_take] at this
  rw [this]
  unfold numDequeued
  omega

theorem length_completed (st : Machine) (env : Env) :
    (st.completed env).length = st.numRetired env := by
  cases hpc : st.pc <;> simp [completed, numRetired, hpc, jobs, length_finished]

theorem getElem?_finished (h : st.Ordered) {i : Nat} {p : Nat × OpResult}
    (hp : (st.finished env)[i]? = some p) : st.pendingOps[i]? = some (st.qp.ops p.1) := by
  have hops := congrArg (fun l => l[i]?) (finished_ops h env)
  simp only [List.getElem?_map, hp, Option.map_some, List.getElem?_take] at hops
  split at hops
  · exact hops.symm
  · simp at hops

section Decompress

variable {blocks : List (List UInt8)} {buffers : List Buffer} {output : ResizableBuffer}
  {memory : Memory} {log : List (List (Span Block) × List UInt8)} {index : Nat}

/-- The invariant of a `Decompress` call on the streams of `blocks`: what is done
has given the first blocks, and what is to do are the streams of the others. -/
structure Decoding (enc : List UInt8 → List UInt8) (blocks : List (List UInt8))
    (output : ResizableBuffer) (memory : Memory)
    (log : List (List (Span Block) × List UInt8)) (st : Machine) : Prop where
  outputs_eq : log.map Prod.snd = blocks.take log.length
  todo_eq : st.todo.map (gather memory) = (blocks.drop log.length).map enc
  apart : ∀ spans ∈ st.todo, ∀ sp ∈ spans, sp.block ≠ output.data.block
  whole : ∀ op ∈ st.pendingOps, op.Whole .decompress

/-- The library has written to the output only. -/
theorem Decompressing.gather_eq (h : Decompressing buffers output memory log index st)
    {spans : List (Span Block)} (hspans : ∀ sp ∈ spans, sp.block ≠ output.data.block) :
    gather st.memory spans = gather memory spans := by
  unfold gather
  apply List.flatMap_congr
  intro sp hsp
  apply read_congr
  intro i _ _
  rw [h.memory_eq]
  apply scatterAll_apply_of_avoids
  intro job hjob t ht
  have hmem : job.1 ∈ pieces st.cfg.maxSglSegs.toNat (outputSpans
      st.cfg.decompressedSegSize.toNat output.data 0 buffers.length) := by
    rw [← h.layout, List.append_assoc]
    exact List.mem_append_left _ (List.mem_map_of_mem hjob)
  obtain ⟨i, -, rfl⟩ := List.mem_map.mp (subset_of_mem_pieces hmem ht)
  exact Or.inl (hspans sp hsp)

/-- The `i`-th pending operation is about the `i`-th of the remaining blocks. -/
theorem Decoding.op (h : Decoding enc blocks output memory log st)
    (hd : Decompressing buffers output memory log index st)
    (hrooms : HasRoom st.cfg buffers blocks)
    {i : Nat} {op : CompOp} (hop : st.pendingOps[i]? = some op) :
    ∃ block, blocks[log.length + i]? = some block ∧ op.source st.memory = enc block ∧
      block.length ≤ room op.destination := by
  have hmem := List.mem_of_getElem? hop
  have hlt : i < st.pendingOps.length := (List.getElem?_eq_some_iff.mp hop).1
  have htodo : st.todo[i]? = some op.sourceSpans := by
    rw [todo, List.getElem?_append_left (by simpa using hlt), List.getElem?_map, hop]
    rfl
  have hstream := congrArg (fun l => l[i]?) h.todo_eq
  simp only [List.getElem?_map, htodo, Option.map_some, List.getElem?_drop] at hstream
  obtain ⟨block, hblock, henc⟩ := Option.map_eq_some_iff.mp hstream.symm
  refine ⟨block, hblock, ?_, ?_⟩
  · rw [(h.whole op hmem).source_eq,
      hd.gather_eq (h.apart _ (List.mem_of_getElem? htodo)), henc]
  · refine hrooms (log.length + i) _ block ?_ hblock
    have hlen : log.length = (log.map Prod.fst).length := by simp
    rw [← map_room_outputSpans st.cfg buffers output.data, ← hd.layout, List.getElem?_map,
      List.append_assoc, hlen, List.getElem?_append_right (Nat.le_add_right _ _),
      Nat.add_sub_cancel_left, List.getElem?_append_left (by simpa using hlt), List.getElem?_map,
      hop]
    rfl

/-- A burst gives the next blocks. -/
theorem Decoding.finished (h : Decoding enc blocks output memory log st)
    (hd : Decompressing buffers output memory log index st) (hst : st.Ordered)
    (hrooms : HasRoom st.cfg buffers blocks)
    (hdec : st.Decodes enc env) (hpc : st.pc = .dequeue ∨ st.pc = .drain) {i : Nat}
    {p : Nat × OpResult} (hp : (st.finished env)[i]? = some p) :
    p.2.status = .success ∧ blocks[log.length + i]? = some (p.2.written (st.qp.ops p.1)) := by
  obtain ⟨block, hblock, hsource, hroom⟩ := h.op hd hrooms (getElem?_finished hst hp)
  obtain ⟨hstatus, hout⟩ := hdec hpc p (List.mem_of_getElem? hp) block []
    (by rw [hsource, List.append_nil]) hroom
  refine ⟨hstatus, ?_⟩
  rw [OpResult.written, hout, List.take_of_length_le hroom, hblock]

theorem Decoding.completed (h : Decoding enc blocks output memory log st)
    (hd : Decompressing buffers output memory log index st) (hst : st.Ordered)
    (hrooms : HasRoom st.cfg buffers blocks)
    (hdec : st.Decodes enc env) :
    (st.completed env).map Prod.snd = (blocks.drop log.length).take (st.completed env).length := by
  have key : (st.pc = .dequeue ∨ st.pc = .drain) → (st.jobs env).map Prod.snd =
      (blocks.drop log.length).take (st.jobs env).length := by
    intro hpc
    apply List.ext_getElem?
    intro i
    simp only [jobs, List.map_map, List.getElem?_map, List.getElem?_take, List.length_map,
      List.getElem?_drop]
    cases hp : (st.finished env)[i]? with
    | none =>
        rw [if_neg (Nat.not_lt.mpr (List.getElem?_eq_none_iff.mp hp))]
        rfl
    | some p =>
        rw [if_pos (List.getElem?_eq_some_iff.mp hp).1,
          (h.finished hd hst hrooms hdec hpc hp).2]
        rfl
  unfold Machine.completed
  split
  · next hpc => exact key (Or.inl hpc)
  · next hpc => exact key (Or.inr hpc)
  · simp

/-- **Step lemma.** -/
theorem Decoding.continues (h : Decoding enc blocks output memory log st)
    (hd : Decompressing buffers output memory log index st) (hst : st.Ordered)
    (hb : st.cfg.Bounds)
    (hrooms : HasRoom st.cfg buffers blocks)
    (hdec : st.Decodes enc env) (hstep : Continues st env st') :
    Decoding enc blocks output memory (log ++ st.completed env) st' := by
  obtain ⟨size, hcall, -⟩ := hd.call_eq
  have hxform : st.call.xform = .decompress := by rw [hcall]; rfl
  have htodo := todo_continues hst hb hstep
  refine ⟨?_, ?_, ?_, whole_continues hxform hst h.whole hstep⟩
  · rw [List.map_append, List.length_append, List.take_add, h.outputs_eq,
      h.completed hd hst hrooms hdec]
  · rw [htodo, List.map_drop, h.todo_eq, ← List.map_drop, List.drop_drop, List.length_append,
      length_completed]
  · rw [htodo]
    exact fun spans hspans => h.apart spans (List.mem_of_mem_drop hspans)

theorem Decoding.noFault (h : Decoding enc blocks output memory log st)
    (hd : Decompressing buffers output memory log index st) (hst : st.Ordered)
    (hrooms : HasRoom st.cfg buffers blocks) (hout : st.NoOutage env)
    (hdec : st.Decodes enc env) : st.NoFault env := by
  refine noFault_of_noOutage hout ?_
  intro hpc p hp
  obtain ⟨i, hi⟩ := List.getElem?_of_mem hp
  exact (h.finished hd hst hrooms hdec hpc hi).1

end Decompress

/-! ## Whole calls -/

section Start

variable {cfg : Configuration} {buffers : List Buffer} {output : ResizableBuffer}
  {memory : Memory} {input : List UInt8}

/-- When the cuts agree, the buffers of a `Compress` call are grouped as it
grouped the input. -/
theorem map_bytes_pieces (hb : cfg.Bounds) (hagree : CutsAgree cfg enc input)
    (hbytes : buffers.map (fun b => b.bytes memory) =
      (cfg.blocks input).flatMap fun block => pieces cfg.segLen (enc block)) :
    (pieces cfg.maxSglSegs.toNat buffers).map (List.map fun b => b.bytes memory) =
      (cfg.blocks input).map fun block => pieces cfg.segLen (enc block) := by
  rw [← pieces_map, hbytes, hagree.regroup hb]

theorem operationRooms_eq (hb : cfg.Bounds) (hagree : CutsAgree cfg enc input)
    (hbytes : buffers.map (fun b => b.bytes memory) =
      (cfg.blocks input).flatMap fun block => pieces cfg.segLen (enc block)) :
    operationRooms cfg buffers = (cfg.blocks input).map fun block =>
      count cfg.decompressedSegSize.toNat block.length * cfg.decompressedSegSize.toNat := by
  have hgroups := congrArg (List.map fun group : List (List UInt8) =>
    group.length * cfg.decompressedSegSize.toNat) (map_bytes_pieces hb hagree hbytes)
  simp only [List.map_map, Function.comp_def, List.length_map, length_pieces] at hgroups
  rw [operationRooms, hgroups]
  apply List.map_congr_left
  intro block hblock
  rw [hagree block hblock]

theorem hasRoom_of_cutsAgree (hb : cfg.Bounds) (hagree : CutsAgree cfg enc input)
    (hbytes : buffers.map (fun b => b.bytes memory) =
      (cfg.blocks input).flatMap fun block => pieces cfg.segLen (enc block)) :
    HasRoom cfg buffers (cfg.blocks input) := by
  intro i place block hplace hblock
  rw [operationRooms_eq hb hagree hbytes, List.getElem?_map, hblock] at hplace
  rw [← Option.some.inj hplace]
  exact le_count_mul hb.segSize_pos block.length

/-- A call of `Decompress` begins with the streams of all blocks to do. -/
theorem decoding_start (hb : st.cfg.Bounds) (hidle : st.Idle)
    (hagree : CutsAgree st.cfg enc input)
    (hbytes : buffers.map (fun b => b.bytes st.memory) =
      (st.cfg.blocks input).flatMap fun block => pieces st.cfg.segLen (enc block))
    (hplace : ∀ b ∈ buffers, b.data.block ≠ output.data.block) :
    Decoding enc (st.cfg.blocks input) output st.memory []
      (st.decompress buffers (some output)) := by
  have hops : (st.decompress buffers (some output)).pendingOps = [] := by
    simp [pendingOps, decompress, hidle.pending]
  have hsize : ∀ b ∈ buffers, toUInt16 b.size = b.size := by
    intro b hb'
    have hmem := List.mem_map_of_mem (f := fun b : Buffer => b.bytes st.memory) hb'
    rw [hbytes] at hmem
    obtain ⟨block, -, hpiece⟩ := List.mem_flatMap.mp hmem
    have hlen := (length_of_mem_pieces (segLen_pos hb) hpiece).2
    have hlt : st.cfg.segLen < 65536 := segLen_lt
    apply toUInt16_of_lt
    rw [Buffer.bytes, length_read] at hlen
    omega
  have htodo : (st.decompress buffers (some output)).todo =
      pieces st.cfg.maxSglSegs.toNat (bufferSpans buffers 0) := by
    unfold todo
    rw [hops]
    rfl
  refine ⟨rfl, ?_, ?_, by simp [hops]⟩
  · have hspans : (bufferSpans buffers 0).map (Span.read st.memory) =
        buffers.map fun b => b.bytes st.memory := by
      rw [bufferSpans, List.drop_zero, List.map_map]
      apply List.map_congr_left
      intro b hb'
      rw [Function.comp_apply, Span.read, hsize b hb']
      rfl
    have hgather : (pieces st.cfg.maxSglSegs.toNat (bufferSpans buffers 0)).map
        (gather st.memory) = (pieces st.cfg.maxSglSegs.toNat
          ((bufferSpans buffers 0).map (Span.read st.memory))).map List.flatten := by
      rw [pieces_map, List.map_map]
      rfl
    rw [htodo, hgather, hspans, pieces_map, map_bytes_pieces hb hagree hbytes, List.map_map,
      List.length_nil, List.drop_zero]
    apply List.map_congr_left
    intro block _
    exact flatten_pieces (segLen_pos hb) (enc block)
  · rw [htodo]
    intro spans hspans sp hsp
    obtain ⟨b, hb', rfl⟩ := List.mem_map.mp (subset_of_mem_pieces hspans hsp)
    exact hplace b (List.mem_of_mem_drop hb')

end Start

theorem sum_operationRooms (hb : st.cfg.Bounds) (buffers : List Buffer) :
    (operationRooms st.cfg buffers).sum =
      buffers.length * st.cfg.decompressedSegSize.toNat := by
  rw [operationRooms, List.sum_map_mul_right, ← List.length_flatten,
    flatten_pieces hb.maxSglSegs_pos]

section Calls

variable {buffers : List Buffer} {output : ResizableBuffer} {debug : Bool}

/-- A call of `Decompress` never gives more than one segment for every buffer. -/
theorem length_decompressed_le (hb : st.cfg.Bounds) (hidle : st.Idle) (hne : buffers ≠ [])
    {envs : List Env}
    (h : (Runs.run (step debug) (st.decompress buffers (some output)) envs).result =
      some .success) :
    let s := Runs.run (step debug) (st.decompress buffers (some output)) envs
    (s.call.decompressed s.memory).length ≤
      buffers.length * st.cfg.decompressedSegSize.toNat := by
  obtain ⟨-, hfits, hrooms, hread⟩ := work_of_success hb hidle hne h
  dsimp only
  rw [hread, length_read, total, ← sum_operationRooms hb, ← hrooms, List.flatMap_map,
    List.length_flatMap]
  exact List.sum_le_sum hfits

/-- The invariant of a `Decompress` call when the cuts agree. -/
theorem run_decoding {input : List UInt8} (hb : st.cfg.Bounds) (hidle : st.Idle)
    (hpc : (st.decompress buffers (some output)).pc = .assemble)
    (hagree : CutsAgree st.cfg enc input)
    (hbytes : buffers.map (fun b => b.bytes st.memory) =
      (st.cfg.blocks input).flatMap fun block => pieces st.cfg.segLen (enc block))
    (hplace : ∀ b ∈ buffers, b.data.block ≠ output.data.block) {envs : List Env}
    (h : Runs.Along (step debug) (fun s env => s.NoOutage env ∧ s.Decodes enc env)
      (st.decompress buffers (some output)) envs) :
    let s := Runs.run (step debug) (st.decompress buffers (some output)) envs
    let log := (st.decompress buffers (some output)).work debug envs
    InOrder st.cfg st.qp.operationPool st.qp.mbufPool s ∧
      (∃ index, Decompressing buffers output st.memory log index s) ∧
      Decoding enc (st.cfg.blocks input) output st.memory log s := by
  have hrooms := hasRoom_of_cutsAgree hb hagree hbytes
  refine Runs.Along.invariant_collect
    (I := fun log s => InOrder st.cfg st.qp.operationPool st.qp.mbufPool s ∧
      (∃ index, Decompressing buffers output st.memory log index s) ∧
      Decoding enc (st.cfg.blocks input) output st.memory log s) ?_ []
    ⟨hidle.start_inOrder (.decompress buffers (some output)),
      ⟨0, decompressing_start hidle hpc⟩, decoding_start hb hidle hagree hbytes hplace⟩ h
  rintro log s env ⟨hs, ⟨index, hd⟩, hdecoding⟩ ⟨hout, hdec⟩
  have hbs := hs.cfg_eq ▸ hb
  have hrooms' : HasRoom s.cfg buffers (st.cfg.blocks input) := hs.cfg_eq ▸ hrooms
  obtain ⟨hc, hs'⟩ := hs.step hb debug
    (hdecoding.noFault hd hs.ordered hrooms' hout hdec)
  exact ⟨hs', hd.continues hs.ordered hbs hc,
    hdecoding.continues hd hs.ordered hbs hrooms' hdec hc⟩

/-- When the cuts agree and the call has returned, the output is the input. -/
theorem Decoding.decompressed {input : List UInt8} {memory : Memory}
    {log : List (List (Span Block) × List UInt8)} {index : Nat}
    (h : Decoding enc (st.cfg.blocks input) output memory log st)
    (hd : Decompressing buffers output memory log index st) (hst : st.Ordered)
    (hb : st.cfg.Bounds) {bytes : Memory} (hagree : CutsAgree st.cfg enc input)
    (hbytes : buffers.map (fun b => b.bytes bytes) =
      (st.cfg.blocks input).flatMap fun block => pieces st.cfg.segLen (enc block))
    {status : Status} (hpc : st.pc = .returned status) :
    status = .success ∧ st.call.decompressed st.memory = input := by
  obtain ⟨hc, hrooms, hread⟩ := hd.slots hst hb hpc
  rw [operationRooms_eq hb hagree hbytes] at hrooms
  have hlen : log.length = (st.cfg.blocks input).length := by
    simpa using congrArg List.length hrooms
  have houtputs : log.map Prod.snd = st.cfg.blocks input := by
    rw [h.outputs_eq, hlen, List.take_length]
  have hslots : log.map slot = ((st.cfg.blocks input).map fun block =>
      count st.cfg.decompressedSegSize.toNat block.length *
        st.cfg.decompressedSegSize.toNat).zip (st.cfg.blocks input) := by
    rw [← hrooms, ← houtputs, List.zip_map']
    rfl
  refine ⟨(hd.exhausted (Or.inr ⟨status, hpc⟩)).2 status hpc, ?_⟩
  rw [hread, read_scatterAll_slots log memory output.data.offset hc hd.fits
    (hslots ▸ filled_blocks hb input)]
  show (log.map slot).flatMap Prod.snd = input
  rw [List.flatMap_map, ← flatten_pieces hb.blockSize_pos input]
  exact congrArg List.flatten houtputs

/-- When the cuts agree, `Decompress` returns the input, sooner or later. -/
theorem decompress_recovers {input : List UInt8} (hb : st.cfg.Bounds) (hready : st.Ready)
    (hidle : st.Idle) (hne : buffers ≠ [])
    (hcapacity : buffers.length * st.cfg.decompressedSegSize.toNat ≤ output.capacity)
    (hagree : CutsAgree st.cfg enc input)
    (hbytes : buffers.map (fun b => b.bytes st.memory) =
      (st.cfg.blocks input).flatMap fun block => pieces st.cfg.segLen (enc block))
    (hplace : ∀ b ∈ buffers, b.data.block ≠ output.data.block) {envs : Nat → Env}
    (hdev : ∀ k,
      (Runs.stateAt (step debug) (st.decompress buffers (some output)) envs k).NoOutage (envs k) ∧
      (Runs.stateAt (step debug) (st.decompress buffers (some output)) envs k).Decodes enc (envs k))
    (hlive : Live debug (st.decompress buffers (some output)) envs) :
    ∃ k, let t := Runs.stateAt (step debug) (st.decompress buffers (some output)) envs k
      t.result = some .success ∧ t.call.decompressed t.memory = input := by
  have hpc := decompress_pc hready hidle hne hcapacity
  have hrooms := hasRoom_of_cutsAgree hb hagree hbytes
  have hrun : ∀ k, _ := fun k =>
    run_decoding hb hidle hpc hagree hbytes hplace (Runs.along_range hdev k)
  simp only [← Runs.stateAt_eq_run] at hrun
  have hnf : ∀ k, (Runs.stateAt (step debug) (st.decompress buffers (some output)) envs
      k).NoFault (envs k) := by
    intro k
    obtain ⟨hs, ⟨index, hd⟩, hdecoding⟩ := hrun k
    exact hdecoding.noFault hd hs.ordered (hs.cfg_eq ▸ hrooms) (hdev k).1 (hdev k).2
  obtain ⟨k, status, hret⟩ :=
    hidle.returns hb (.decompress buffers (some output)) debug envs hnf hlive
  obtain ⟨hs, ⟨index, hd⟩, hdecoding⟩ := hrun k
  rw [← hs.cfg_eq] at hdecoding hagree hbytes
  obtain ⟨rfl, hdecompressed⟩ :=
    hdecoding.decompressed hd hs.ordered (hs.cfg_eq ▸ hb) hagree hbytes hret
  exact ⟨k, result_eq_some.mpr hret, hdecompressed⟩

/-- **The round trip.**  `Compress` has returned OK with the buffers `v`, and the
device stays alive and without failures while they are decompressed.  The call
of `Decompress` returns OK with the input if and only if the stream of every
block of the input occupies as many segments as the block. -/
theorem round_trip (hself : SelfDelimiting enc) (hcfg : Accepted st.cfg) (hready : st.Ready)
    (hidle : st.Idle) (hzones : st.zones.WellFormed st.cfg.compressedSegSize) {input : Buffer}
    (hinput : 0 < input.size) (hapart : ∀ z, input.data.block = .memzone z →
      z ∈ st.zones.pool.allocated ∧ z ∉ st.zones.device.memzonePool)
    {envs : List Env} {s : Machine}
    (hs : s = Runs.run (step debug) (st.compress (some input)) envs)
    (henc : Runs.Along (step debug) (Encodes enc) (st.compress (some input)) envs)
    (hok : s.result = some .success)
    {st' : Machine} (hcfg' : st'.cfg = st.cfg) (hready' : st'.Ready) (hidle' : st'.Idle)
    {v : List Buffer} (hv : v = s.call.emitted)
    (hkept : ∀ b ∈ v, b.bytes st'.memory = b.bytes s.memory)
    (hplace : ∀ b ∈ v, b.data.block ≠ output.data.block)
    (hcapacity : max (v.length * st.cfg.decompressedSegSize.toNat) input.size ≤ output.capacity)
    {envs' : Nat → Env}
    (hdev : ∀ k,
      (Runs.stateAt (step debug) (st'.decompress v (some output)) envs' k).NoOutage (envs' k) ∧
      (Runs.stateAt (step debug) (st'.decompress v (some output)) envs' k).Decodes enc (envs' k))
    (hlive : Live debug (st'.decompress v (some output)) envs') :
    (∃ k, let t := Runs.stateAt (step debug) (st'.decompress v (some output)) envs' k
      t.result = some .success ∧ t.call.decompressed t.memory = input.bytes st.memory) ↔
    CutsAgree st.cfg enc (input.bytes st.memory) := by
  have hb := hcfg.bounds
  rw [hs] at hok
  obtain ⟨hcontents, hfits⟩ := compressed_fits hb hready hidle hzones hinput hapart henc hok
  rw [← hs] at hcontents
  have hbytes : v.map (fun b => b.bytes st'.memory) =
      (st.cfg.blocks (input.bytes st.memory)).flatMap fun block =>
        pieces st.cfg.segLen (enc block) := by
    rw [← hcontents, contents, ← hv]
    exact List.map_congr_left hkept
  have hinputBytes : input.bytes st.memory ≠ [] := by
    rw [← List.length_pos_iff]
    simpa [Buffer.bytes] using hinput
  have hne : v ≠ [] := by
    rintro rfl
    exact streams_ne_nil hself hb hinputBytes hbytes.symm
  have hb' : st'.cfg.Bounds := hcfg' ▸ hb
  constructor
  · rintro ⟨k, hres, hbytes'⟩
    refine cutsAgree_of_le hb hfits ?_
    rw [Runs.stateAt_eq_run] at hres hbytes'
    have hle := length_decompressed_le hb' hidle' hne hres
    dsimp only at hle
    rwa [hbytes', hcfg', ← List.length_map (f := fun b : Buffer => b.bytes st'.memory), hbytes]
      at hle
  · intro hagree
    rw [← hcfg'] at hagree hbytes hcapacity
    exact decompress_recovers hb' hready' hidle' hne ((Nat.le_max_left _ _).trans hcapacity)
      hagree hbytes hplace hdev hlive

end Calls

/-! ## Samples -/

/-- A stream with a marker before every byte and another one at its end. -/
def sampleStream : List UInt8 → List UInt8
  | [] => [0]
  | b :: bs => 1 :: b :: sampleStream bs

def sampleUnstream : List UInt8 → Option (List UInt8)
  | 0 :: _ => some []
  | 1 :: b :: rest => (sampleUnstream rest).map (b :: ·)
  | _ => none

theorem sampleUnstream_append (x rest : List UInt8) :
    sampleUnstream (sampleStream x ++ rest) = some x := by
  induction x with
  | nil => rfl
  | cons b bs ih => simp [sampleStream, sampleUnstream, ih]

theorem sampleStream_selfDelimiting : SelfDelimiting sampleStream := by
  intro x y r r' h
  have hx := sampleUnstream_append x r
  rw [h, sampleUnstream_append] at hx
  exact (Option.some.inj hx).symm

/-- `Decodes` for the sample, by decoding. -/
def SampleDecodes (st : Machine) (env : Env) : Prop :=
  (st.pc = .dequeue ∨ st.pc = .drain) → ∀ p ∈ st.finished env,
    ∀ x ∈ sampleUnstream ((st.qp.ops p.1).source st.memory),
      x.length ≤ room (st.qp.ops p.1).destination → p.2.status = .success ∧ p.2.output = x

theorem SampleDecodes.decodes (h : st.SampleDecodes env) : st.Decodes sampleStream env := by
  intro hpc p hp x rest hsource
  refine h hpc p hp x ?_
  rw [hsource, sampleUnstream_append]
  rfl

instance (st : Machine) (env : Env) : Decidable (st.SampleDecodes env) := by
  unfold SampleDecodes
  infer_instance

/-- A burst of `n` operations that the device takes and gives back at once. -/
def sampleBurst (n numMbufs : Nat) (outputs : List (List UInt8)) : List Env :=
  [{ bulk := ⟨some (List.range n), some (List.range numMbufs)⟩ },
    { numAccepted := n },
    { results := outputs.map fun output => ⟨.success, output⟩ },
    {}]

/-- The bytes from `a` on in the memory of a sample machine. -/
def sampleBytes (a n : Nat) : List UInt8 :=
  (List.range n).map fun i => UInt8.ofNat (a + i)

def sampleInput (size : Nat) : Buffer := ⟨⟨.host 0, 0⟩, size⟩

def sampleOutput (capacity : Nat) : ResizableBuffer := ⟨⟨.host 2, 0⟩, capacity, 0⟩

/-- Two blocks of eight and four bytes, with one segment for each operation. -/
def sampleShort : Machine :=
  Runs.run (step false) ((sampleMachine 1 3).compress (some (sampleInput 12)))
    (sampleBurst 2 4 [sampleStream (sampleBytes 0 8), sampleStream (sampleBytes 8 4)])

/-- They are decompressed in one burst. -/
def sampleShortAnswers (k : Nat) : Env :=
  (sampleBurst 2 4 [sampleBytes 0 8, sampleBytes 8 4]).getD k {}

def sampleShortRun (k : Nat) : Machine :=
  Runs.stateAt (step false)
    (sampleShort.decompress sampleShort.call.emitted (some (sampleOutput 16))) sampleShortAnswers k

theorem sampleShortRun_returned (j : Nat) :
    (sampleShortRun (4 + j)).pc = .returned .success ∧
      (sampleShortRun (4 + j)).qp.pendingOperations = [] := by
  have h : (sampleShortRun 4).pc = .returned .success ∧
      (sampleShortRun 4).qp.pendingOperations = [] := by decide +kernel
  rw [show sampleShortRun (4 + j) = sampleShortRun 4 from stateAt_returned h.1 j]
  exact h

theorem sampleShortRun_decodes (k : Nat) :
    (sampleShortRun k).NoOutage (sampleShortAnswers k) ∧
      (sampleShortRun k).Decodes sampleStream (sampleShortAnswers k) := by
  rcases Nat.lt_or_ge k 4 with hk | hk
  · have h : ∀ k < 4, (sampleShortRun k).NoOutage (sampleShortAnswers k) ∧
        (sampleShortRun k).SampleDecodes (sampleShortAnswers k) := by decide +kernel
    exact ⟨(h k hk).1, (h k hk).2.decodes⟩
  · obtain ⟨j, rfl⟩ := Nat.exists_eq_add_of_le hk
    have hpc := (sampleShortRun_returned j).1
    exact ⟨by simp [NoOutage, hpc], by simp [Decodes, hpc]⟩

theorem sampleShort_live : Live false
    (sampleShort.decompress sampleShort.call.emitted (some (sampleOutput 16)))
    sampleShortAnswers := by
  intro k hpending
  rcases Nat.lt_or_ge k 4 with hk | hk
  · have h : ∀ k < 4, (sampleShortRun k).qp.pendingOperations ≠ [] → k ≤ 2 := by decide +kernel
    exact ⟨2, h k hk hpending, by decide +kernel⟩
  · obtain ⟨j, rfl⟩ := Nat.exists_eq_add_of_le hk
    exact absurd (sampleShortRun_returned j).2 hpending

theorem round_trip_sample : ∃ k, (sampleShortRun k).result = some .success ∧
    (sampleShortRun k).call.decompressed (sampleShortRun k).memory =
      (sampleInput 12).bytes (sampleMachine 1 3).memory :=
  (round_trip sampleStream_selfDelimiting sampleConfig_accepted.1 ⟨rfl, by decide⟩
    (sampleMachine_idle 1 3) (sampleMachine_wellFormed 1 3) (by decide) (by simp [sampleInput])
    rfl (by decide +kernel) (by decide +kernel) (by decide +kernel)
    ⟨by decide +kernel, by decide +kernel⟩
    ⟨by decide +kernel, by decide +kernel, by decide +kernel⟩ rfl (fun _ _ => rfl)
    (by decide +kernel) (by decide +kernel) sampleShortRun_decodes sampleShort_live).mpr
      (by unfold CutsAgree; decide +kernel)

/-- Two blocks of two segments each, whose streams need one segment. -/
def sampleDense : Machine :=
  Runs.run (step false) ((sampleMachine 2 4).compress (some (sampleInput 32)))
    (sampleBurst 2 8 [sampleStream (sampleBytes 0 16), sampleStream (sampleBytes 16 16)])

/-- `Decompress` gives both streams to one operation, which stops at the end of
the first one. -/
theorem round_trip_half :
    let st := sampleMachine 2 4
    let start := sampleDense.decompress sampleDense.call.emitted (some (sampleOutput 32))
    let envs := sampleBurst 1 4 [sampleBytes 0 16]
    let t := Runs.run (step false) start envs
    SelfDelimiting sampleStream ∧ Accepted st.cfg ∧ st.Idle ∧
      Runs.Along (step false) (Encodes sampleStream) (st.compress (some (sampleInput 32)))
        (sampleBurst 2 8 [sampleStream (sampleBytes 0 16), sampleStream (sampleBytes 16 16)]) ∧
      sampleDense.result = some .success ∧ sampleDense.Idle ∧
      max (sampleDense.call.emitted.length * st.cfg.decompressedSegSize.toNat)
        (sampleInput 32).size ≤ (sampleOutput 32).capacity ∧
      Runs.Along (step false) (fun s env => s.NoOutage env ∧ s.Decodes sampleStream env)
        start envs ∧
      t.result = some .success ∧
      t.call.decompressed t.memory = sampleBytes 0 16 ∧
      (sampleInput 32).bytes st.memory = sampleBytes 0 32 := by
  refine ⟨sampleStream_selfDelimiting, sampleConfig_accepted.2, sampleMachine_idle 2 4,
    by decide +kernel, by decide +kernel,
    ⟨by decide +kernel, by decide +kernel, by decide +kernel⟩, by decide +kernel,
    Runs.Along.imp (P := fun s env => s.NoOutage env ∧ s.SampleDecodes env) (by decide +kernel)
      fun s env h => ⟨h.1, h.2.decodes⟩,
    by decide +kernel, by decide +kernel, by decide +kernel⟩

end Machine

end Bitar
