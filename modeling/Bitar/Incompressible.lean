import Bitar.SegSizes
import Bitar.Conservation
import Mathlib.Algebra.Order.BigOperators.Group.List

/-!
# Room for incompressible data

DEFLATE stores `n` incompressible bytes in blocks of at most 65535 bytes, each
with five bytes of its own.  `compressed_seg_size` is the next power of two
above `decompressed_seg_size`, or eleven tenths of it from 32768 on.

**Results.**
* `spacious_iff`: which segment sizes leave room for one stored block.
* `room_for_incompressible`: which segment sizes leave enough room.
-/

namespace Bitar

open BlockStore Pieces

/-! ## Sizes with room -/

/-- `decompressed_seg_size` is not within four below a power of two. -/
def Configuration.Spacious (cfg : Configuration) : Prop :=
  ∀ j ∈ List.range' 6 10,
    cfg.decompressedSegSize.toNat + 4 < 2 ^ j ∨ 2 ^ j ≤ cfg.decompressedSegSize.toNat

instance (cfg : Configuration) : Decidable cfg.Spacious := by
  unfold Configuration.Spacious
  infer_instance

/-- A destination segment has room for the five bytes of a stored block. -/
theorem spacious_iff {cfg : Configuration} (hb : cfg.Bounds) :
    cfg.Spacious ↔ cfg.decompressedSegSize.toNat + 5 ≤ cfg.segLen := by
  have hpos : cfg.decompressedSegSize.toNat ≠ 0 := Nat.ne_of_gt hb.segSize_pos
  have hlow := Nat.pow_log_le_self 2 hpos
  have hhigh := Nat.lt_pow_succ_log_self (b := 2) (by omega) cfg.decompressedSegSize.toNat
  rw [segLen_eq hb, compressedSegSize_eq hb, Configuration.Spacious]
  generalize cfg.decompressedSegSize.toNat = d at hpos hlow hhigh ⊢
  generalize Nat.log 2 d = k at hlow hhigh ⊢
  by_cases hbig : 32768 ≤ d
  · rw [if_pos hbig]
    refine iff_of_true (fun j hj => Or.inr ?_) ?_
    · have hj' : j ≤ 15 := by
        rw [List.mem_range'_1] at hj
        omega
      have := Nat.pow_le_pow_right (n := 2) (by omega) hj'
      omega
    · unfold memzoneLen
      omega
  · rw [if_neg hbig]
    have hk : k < 15 := by
      by_contra hk
      have := Nat.pow_le_pow_right (n := 2) (by omega) (Nat.not_lt.mp hk)
      omega
    unfold memzoneLen
    rcases Nat.lt_or_ge k 5 with hsmall | hlarge
    · -- the memzone is a whole cache line
      have hle := Nat.pow_le_pow_right (n := 2) (by omega) (show k + 1 ≤ 5 by omega)
      refine iff_of_true (fun j hj => Or.inl ?_) (by omega)
      have hj' : 6 ≤ j := by
        rw [List.mem_range'_1] at hj
        omega
      have := Nat.pow_le_pow_right (n := 2) (by omega) hj'
      omega
    · obtain ⟨i, rfl⟩ : ∃ i, k = i + 5 := ⟨k - 5, by omega⟩
      have hline : 2 ^ (i + 5 + 1) = 2 ^ i * 64 := by
        rw [show i + 5 + 1 = i + 6 by omega, Nat.pow_add]
      rw [hline] at hhigh ⊢
      have hipos := Nat.two_pow_pos i
      constructor
      · intro h
        have := h (i + 6) (by
          rw [List.mem_range'_1]
          omega)
        rw [Nat.pow_add] at this
        omega
      · intro h j hj
        rcases Nat.lt_or_ge j (i + 6) with hlt | hge
        · have := Nat.pow_le_pow_right (n := 2) (by omega) (show j ≤ i + 5 by omega)
          omega
        · have := Nat.pow_le_pow_right (n := 2) (by omega) hge
          rw [Nat.pow_add] at this
          omega

/-! ## The room of an operation -/

/-- The destination has room for the source as stored blocks. -/
def CompOp.HasRoom (op : CompOp) : Prop :=
  op.srcLength + 5 * count 65535 op.srcLength ≤ room op.destination

instance (op : CompOp) : Decidable op.HasRoom := by
  unfold CompOp.HasRoom
  infer_instance

/-- As many source segments of at most `d` bytes as destination segments of `L`
bytes. -/
theorem hasRoom_builtOp {d L : Nat} (hd : d ≤ 65535) (hL : d + 5 ≤ L) (xform : Xform)
    {src dst : List Segment} (hlen : dst.length = src.length)
    (hsrc : ∀ seg ∈ src, seg.dataLen ≤ d) (hdst : ∀ seg ∈ dst, seg.dataLen = L) :
    (builtOp xform src dst).HasRoom := by
  have hroom : room (builtOp xform src dst).destination = src.length * L := by
    rw [room_eq_of_uniform (L := L), ← hlen]
    · simp [CompOp.destination, builtOp, opWith]
    · intro sp hsp
      obtain ⟨seg, hseg, rfl⟩ := List.mem_map.mp hsp
      exact hdst seg hseg
  have hlength : (builtOp xform src dst).srcLength ≤ src.length * d := by
    have := List.sum_le_card_nsmul (src.map Segment.dataLen) d (by
      intro x hx
      obtain ⟨seg, hseg, rfl⟩ := List.mem_map.mp hx
      exact hsrc seg hseg)
    simpa [builtOp, opWith, chainOf, CompOp.update] using this
  have hblocks : count 65535 (builtOp xform src dst).srcLength ≤ src.length := by
    refine (count_le_iff (by omega)).mpr (hlength.trans ?_)
    exact Nat.mul_le_mul_left _ hd
  have hmul := Nat.mul_le_mul_left src.length hL
  rw [Nat.mul_add] at hmul
  rw [CompOp.HasRoom, hroom]
  omega

namespace Machine

variable {st st' : Machine} {env : Env}

theorem length_of_mem_inputSpans {s : Nat} {input : Buffer} {offset : Nat} {sp : Span Block}
    (h : sp ∈ inputSpans s input offset) : sp.length ≤ s := by
  obtain ⟨i, -, rfl⟩ := List.mem_map.mp h
  exact Nat.min_le_left _ _

/-- The operations of a complete burst of a compress call. -/
theorem Built.hasRoom {n : Nat} {os ms : List Nat} {ops : Nat → CompOp} {S T : List Segment}
    (h : Built st st' n os ms ops S T) (hT : T.length = n) (hspacious :
      st.cfg.decompressedSegSize.toNat + 5 ≤ st.cfg.segLen)
    (hwf : st.zones.WellFormed st.cfg.compressedSegSize) {input : Buffer} {offset : Nat}
    {out : List Buffer} (hcall : st.call = .compress input offset out) :
    ∀ o ∈ os, (ops o).HasRoom := by
  have hdest := h.destinations
  rw [hcall] at hdest
  obtain ⟨zs, hsegs, -⟩ := hdest hwf
  have hsource : ∀ seg ∈ S, seg.dataLen ≤ st.cfg.decompressedSegSize.toNat := by
    intro seg hseg
    have hmem := List.mem_map_of_mem (f := Segment.span) hseg
    rw [h.sources, remaining, hcall] at hmem
    exact length_of_mem_inputSpans (List.mem_of_mem_take hmem)
  have htarget : ∀ seg ∈ T, seg.dataLen = st.cfg.segLen := by
    intro seg hseg
    obtain ⟨i, hi, rfl⟩ := List.getElem_of_mem hseg
    exact (List.forall₂_iff_get.mp hsegs).2 i hi (hsegs.length_eq ▸ hi) |>.dataLen
  have hlt := st.cfg.decompressedSegSize.toNat_lt
  intro o ho
  have hop := List.mem_map_of_mem (f := ops) ho
  rw [h.map_ops hT] at hop
  obtain ⟨j, hj, he⟩ := List.getElem_of_mem hop
  rw [← he, List.getElem_zipWith, getElem_pieces, getElem_pieces]
  refine hasRoom_builtOp (by omega) hspacious _ ?_ ?_ ?_
  · rw [length_piece, length_piece, h.length_sources, hT]
  · exact fun seg hseg => hsource seg (List.mem_of_mem_drop (List.mem_of_mem_take hseg))
  · exact fun seg hseg => htarget seg (List.mem_of_mem_drop (List.mem_of_mem_take hseg))

/-- The operation that entry `j` of `operations_` points to. -/
def operation (st : Machine) (j : Nat) : CompOp :=
  st.qp.ops (st.qp.operations () j)

/-- A call whose input is one whole segment. -/
def loneSegment (cfg : Configuration) : Machine where
  cfg := cfg
  deviceId := 0
  queuePairId := 0
  numQps := 1
  state := .started
  memory := fun _ i => UInt8.ofNat i
  zones :=
    { device := ⟨0, [0], ∅, 1⟩
      pool := ⟨{0}, fun _ => cfg.compressedSegSize, cfg.compressedSegSize⟩ }
  qp := { operationPool := {0}, mbufPool := {0, 1} }
  call := .compress ⟨⟨.host 0, 0⟩, cfg.decompressedSegSize.toNat⟩ 0 []
  pc := .assemble

/-- The pools hand out all they have. -/
def loneAnswer : Env where
  bulk := ⟨some [0], some [0, 1]⟩

theorem loneSegment_wellFormed (cfg : Configuration) :
    (loneSegment cfg).zones.WellFormed cfg.compressedSegSize :=
  ⟨by simp [loneSegment], by simp [loneSegment], by simp [loneSegment], by simp [loneSegment],
    fun _ _ => rfl⟩

/-- The entries of `operations_` that a burst fills. -/
theorem Built.operation_eq {st st' : Machine} {n : Nat} {os ms : List Nat} {ops : Nat → CompOp}
    {S T : List Segment} (built : Built st st' n os ms ops S T) {j : Nat} (hj : j < os.length) :
    st'.operation (st.qp.numOpsAssembled + j) = ops os[j] := by
  rw [operation, built.state_eq]
  exact congrArg ops (write_apply_self st.qp.operations () st.qp.numOpsAssembled os hj)

theorem loneSegment_remaining {cfg : Configuration} (hb : cfg.Bounds) :
    (loneSegment cfg).remaining = [⟨.host 0, 0, cfg.decompressedSegSize.toNat⟩] := by
  show inputSpans cfg.decompressedSegSize.toNat _ 0 = _
  rw [inputSpans_of_lt hb.segSize_pos hb.segSize_pos]
  simp [(inputSpans_eq_nil hb.segSize_pos).mpr]

theorem loneSegment_burst {cfg : Configuration} (hb : cfg.Bounds) :
    (loneSegment cfg).burst = 1 := by
  have hroom : 0 < cfg.burstSize.toNat * cfg.maxSglSegs.toNat :=
    Nat.mul_pos hb.burstSize_pos hb.maxSglSegs_pos
  rw [burst, loneSegment_remaining hb]
  exact Nat.min_eq_left hroom

/-- A single segment needs a single operation. -/
theorem count_one_seg {cfg : Configuration} (hb : cfg.Bounds) :
    count cfg.maxSglSegs.toNat 1 = 1 := by
  rw [count_sub hb.maxSglSegs_pos (by omega), Nat.sub_eq_zero_of_le hb.maxSglSegs_pos,
    count_zero hb.maxSglSegs_pos]

/-- The answers suffice for the segment. -/
theorem loneSegment_built {cfg : Configuration} (hb : cfg.Bounds) :
    ∃ st' os ms ops S T, (loneSegment cfg).assembleFrom loneAnswer = (st', .ok 1) ∧
      Built (loneSegment cfg) st' 1 os ms ops S T ∧ T.length = 1 := by
  have hrem := loneSegment_remaining hb
  have hburst := loneSegment_burst hb
  have hops : (loneSegment cfg).opsTaken loneAnswer = some [0] := by
    rw [opsTaken, hburst]
    show takeFrom {0} (count cfg.maxSglSegs.toNat 1) (some [0]) = _
    rw [count_one_seg hb]
    rfl
  have hmbufs : (loneSegment cfg).mbufsTaken loneAnswer = some [0, 1] := by
    rw [mbufsTaken, hburst]
    rfl
  have hsupplied : (loneSegment cfg).Supplied loneAnswer := by
    rw [Supplied, hburst]
    rfl
  have hout : AssembleOutcome (loneSegment cfg) loneAnswer _ _ := assembleFrom_spec hb loneAnswer
  generalize (loneSegment cfg).assembleFrom loneAnswer = r at hout ⊢
  obtain ⟨st', result⟩ := r
  dsimp only at hout
  cases hout with
  | nothing h =>
      rcases h with h | h
      · simp [hrem] at h
      · exact absurd h (Nat.not_le.mpr hb.burstSize_pos)
  | noOps h hnone => exact absurd hops (hnone 0 [])
  | noMbufs hne hos hms => simp [hmbufs] at hms
  | short built hT hne hos hzones => exact absurd hsupplied hzones
  | @complete _ n os ms ops S T built hT hms hzones =>
      obtain rfl : n = 1 := built.n_eq.trans hburst
      have hcount : count (loneSegment cfg).cfg.maxSglSegs.toNat 1 = 1 := count_one_seg hb
      rw [hcount]
      exact ⟨st', os, ms, ops, S, T, rfl, built, hT⟩

/-- The segment and its memzone make one operation. -/
theorem loneSegment_assembled {cfg : Configuration} (hb : cfg.Bounds) :
    ∃ st', (loneSegment cfg).assembleFrom loneAnswer = (st', .ok 1) ∧
      (st'.operation 0).srcLength = cfg.decompressedSegSize.toNat ∧
      room (st'.operation 0).destination = cfg.segLen := by
  obtain ⟨st', os, ms, ops, S, T, he, built, hT⟩ := loneSegment_built hb
  refine ⟨st', he, ?_⟩
  have hcount : count (loneSegment cfg).cfg.maxSglSegs.toNat 1 = 1 := count_one_seg hb
  have hlen : os.length = 1 := built.ops_handable.length_eq.trans hcount
  obtain ⟨seg, rfl⟩ := List.length_eq_one_iff.mp built.length_sources
  obtain ⟨target, rfl⟩ := List.length_eq_one_iff.mp hT
  have hdata : seg.dataLen = cfg.decompressedSegSize.toNat := by
    have hspan := built.sources
    rw [loneSegment_remaining hb] at hspan
    exact congrArg Span.length (List.cons.inj hspan).1
  have htarget : target.dataLen = cfg.segLen := by
    obtain ⟨zs, hsegs, -⟩ := built.destinations (loneSegment_wellFormed cfg)
    cases hsegs with
    | cons hz _ => exact hz.dataLen
  have hwhole : ∀ x : Segment, piece cfg.maxSglSegs.toNat 0 [x] = [x] := by
    intro x
    rw [piece_zero]
    exact List.take_of_length_le hb.maxSglSegs_pos
  have hop : st'.operation 0 = builtOp .compress [seg] [target] := by
    have hpos : 0 < os.length := by omega
    have hentry : st'.operation 0 = ops os[0] := built.operation_eq hpos
    rw [hentry, built.ops_eq 0 hpos, opAt, if_pos (by
      rw [closedOps, if_pos hT, hcount]
      omega)]
    show builtOp .compress (piece cfg.maxSglSegs.toNat 0 [seg])
      (piece cfg.maxSglSegs.toNat 0 [target]) = _
    rw [hwhole, hwhole]
  rw [hop]
  exact ⟨by simp [builtOp, opWith, chainOf, CompOp.update, hdata],
    by simp [CompOp.destination, builtOp, opWith, room_cons, Segment.span, htarget]⟩

/-- **Room for incompressible data.**  Every compress operation that
`AssembleFrom` builds has room for its source as stored blocks, exactly when
`decompressed_seg_size` is not within four below a power of two from 64 to
32768. -/
theorem room_for_incompressible {cfg : Configuration} (hcfg : Accepted cfg) :
    (∀ (st : Machine) (env : Env) (numOpsAssembled : Nat), st.cfg = cfg →
      st.zones.WellFormed cfg.compressedSegSize →
      (∃ input offset out, st.call = .compress input offset out) →
      (st.assembleFrom env).2 = .ok numOpsAssembled →
      ∀ j, st.qp.numOpsAssembled ≤ j → j < numOpsAssembled →
        ((st.assembleFrom env).1.operation j).HasRoom) ↔ cfg.Spacious := by
  have hb := hcfg.bounds
  rw [spacious_iff hb]
  constructor
  · intro h
    obtain ⟨st', hr, hsrc, hroom⟩ := loneSegment_assembled hb
    have hop := h (loneSegment cfg) loneAnswer 1 rfl (loneSegment_wellFormed cfg) ⟨_, _, _, rfl⟩
      (by rw [hr]) 0 (Nat.le_refl _) (by omega)
    rw [hr] at hop
    dsimp only at hop
    have hpos := hb.segSize_pos
    have hlt := cfg.decompressedSegSize.toNat_lt
    have hone : count 65535 cfg.decompressedSegSize.toNat = 1 := by
      have h1 := count_pos (n := 65535) (by omega) hpos
      have h2 := (count_le_iff (n := 65535) (k := 1) (by omega)).mpr
        (show cfg.decompressedSegSize.toNat ≤ 1 * 65535 by omega)
      omega
    rw [CompOp.HasRoom, hsrc, hroom, hone] at hop
    exact hop
  · rintro hspacious st env r rfl hwf ⟨input, offset, out, hcall⟩ hr j hj hlt
    have hout := assembleFrom_spec hb env
    generalize st.assembleFrom env = result at hr hout ⊢
    obtain ⟨st', result⟩ := result
    dsimp only at hr hout ⊢
    subst hr
    cases hout with
    | nothing h => omega
    | @complete _ n os ms ops S T built hT hms hzones =>
        have hlen := built.ops_handable.length_eq
        have hi : j - st.qp.numOpsAssembled < os.length := by omega
        have hentry := built.operation_eq hi
        rw [Nat.add_sub_cancel' hj] at hentry
        rw [hentry]
        exact built.hasRoom hT hspacious hwf hcall _ (List.getElem_mem _)

theorem room_for_incompressible_sample :
    (((loneSegment (sampleConfig 1)).assembleFrom loneAnswer).1.operation 0).HasRoom :=
  (room_for_incompressible sampleConfig_accepted.1).mpr (by decide) (loneSegment (sampleConfig 1))
    loneAnswer 1 rfl (loneSegment_wellFormed _) ⟨_, _, _, rfl⟩ rfl 0 (by decide) (by decide)

/-- Segments of one byte less than a cache line. -/
def tightConfig : Configuration where
  decompressedSegSize := 63
  windowSize := 15

/-- Stored, the 63 bytes of the segment take 68 bytes, but their memzone has 64. -/
theorem room_for_incompressible_tight :
    Accepted tightConfig ∧ ((loneSegment tightConfig).assembleFrom loneAnswer).2.isOk = true ∧
      let op := ((loneSegment tightConfig).assembleFrom loneAnswer).1.operation 0
      op.srcLength = 63 ∧ room op.destination = 64 ∧ ¬ op.HasRoom :=
  ⟨⟨0, 0, 1, ⟨0, some ⟨true, true, true, ⟨15, 15, 0⟩⟩⟩, tightConfig, by decide⟩,
    by decide +kernel⟩

end Machine

end Bitar
