import Bitar.Assemble
import Bitar.Device

/-!
# The bursts of a call

What a call still has to do is a list of memory spans: slices of the input
(`Compress`) or the buffers not yet fed to the device (`Decompress`).  One
`AssembleFrom` takes a prefix of it, as long as the burst allows, and cuts it
into operations of at most `maxSglSegs` spans.

**Results.**
* `Zones.WellFormed.taken`: the memzones behind the destinations of a burst.
* `assembleFrom_spec`: what `AssembleFrom` does to the state of a call.
-/

namespace Bitar

open BlockStore Pieces

/-! ## What a call still has to do -/

/-- The slices of the input from `offset` on. -/
def inputSpans (s : Nat) (input : Buffer) (offset : Nat) : List (Span Block) :=
  (List.range (count s (input.size - offset))).map fun i =>
    ⟨input.data.block, input.data.offset + offset + i * s, min s (input.size - offset - i * s)⟩

/-- The buffers from `index` on. -/
def bufferSpans (buffers : List Buffer) (index : Nat) : List (Span Block) :=
  (buffers.drop index).map fun buffer =>
    ⟨buffer.data.block, buffer.data.offset, toUInt16 buffer.size⟩

/-- The slices of the output of `Decompress`. -/
def outputSpans (s : Nat) (output : Addr) (offset n : Nat) : List (Span Block) :=
  (List.range n).map fun i => ⟨output.block, output.offset + offset + i * s, s⟩

/-- What is not assembled yet. -/
def Call.remaining (cfg : Configuration) : Call → List (Span Block)
  | .compress input offset _ => inputSpans cfg.decompressedSegSize.toNat input offset
  | .decompress buffers _ index _ _ => bufferSpans buffers index

/-- The cursors after a burst of `n` segments. -/
def Call.advance (cfg : Configuration) (n : Nat) : Call → Call
  | .compress input offset out =>
      .compress input (min (offset + n * cfg.decompressedSegSize.toNat) input.size) out
  | .decompress buffers output index offset size =>
      .decompress buffers output (index + n) (offset + n * cfg.decompressedSegSize.toNat) size

section Spans

variable {s : Nat}

@[simp] theorem length_inputSpans (input : Buffer) (offset : Nat) :
    (inputSpans s input offset).length = count s (input.size - offset) := by
  simp [inputSpans]

@[simp] theorem length_bufferSpans (buffers : List Buffer) (index : Nat) :
    (bufferSpans buffers index).length = buffers.length - index := by
  simp [bufferSpans]

@[simp] theorem length_outputSpans (output : Addr) (offset n : Nat) :
    (outputSpans s output offset n).length = n := by
  simp [outputSpans]

theorem inputSpans_of_lt (hs : 0 < s) {input : Buffer} {offset : Nat}
    (h : offset < input.size) :
    inputSpans s input offset =
      ⟨input.data.block, input.data.offset + offset, min s (input.size - offset)⟩ ::
        inputSpans s input (offset + min s (input.size - offset)) := by
  have hsub : input.size - (offset + min s (input.size - offset)) = input.size - offset - s := by
    omega
  unfold inputSpans
  rw [count_sub hs (show 0 < input.size - offset by omega), List.range_succ_eq_map, List.map_cons,
    List.map_map, hsub]
  simp only [Nat.zero_mul, Nat.add_zero, Nat.sub_zero]
  congr 1
  apply List.map_congr_left
  intro i hi
  have hlt := (lt_count_iff hs).mp (List.mem_range.mp hi)
  have hmin : min s (input.size - offset) = s := by omega
  simp only [Function.comp_apply, hmin, Nat.succ_mul]
  congr 1 <;> omega

theorem inputSpans_eq_nil (hs : 0 < s) {input : Buffer} {offset : Nat} :
    inputSpans s input offset = [] ↔ input.size - offset = 0 := by
  rw [← List.length_eq_zero_iff, length_inputSpans]
  constructor
  · intro h
    have := le_count_mul hs (input.size - offset)
    rw [h, Nat.zero_mul] at this
    omega
  · intro h
    rw [h, count_zero hs]

theorem bufferSpans_of_lt {buffers : List Buffer} {index : Nat} (h : index < buffers.length) :
    bufferSpans buffers index =
      ⟨buffers[index].data.block, buffers[index].data.offset, toUInt16 buffers[index].size⟩ ::
        bufferSpans buffers (index + 1) := by
  rw [bufferSpans, List.drop_eq_getElem_cons h]
  rfl

theorem outputSpans_succ (output : Addr) (offset n : Nat) :
    outputSpans s output offset (n + 1) =
      ⟨output.block, output.offset + offset, s⟩ :: outputSpans s output (offset + s) n := by
  unfold outputSpans
  rw [List.range_succ_eq_map, List.map_cons, List.map_map]
  simp only [Nat.zero_mul, Nat.add_zero]
  congr 1
  apply List.map_congr_left
  intro i _
  simp only [Function.comp_apply, Nat.succ_mul]
  congr 1
  omega

theorem outputSpans_append (output : Addr) (offset n k : Nat) :
    outputSpans s output offset (n + k) =
      outputSpans s output offset n ++ outputSpans s output (offset + n * s) k := by
  induction n generalizing offset with
  | zero => simp [outputSpans]
  | succ n ih =>
      rw [Nat.succ_add, outputSpans_succ, ih, outputSpans_succ, List.cons_append, Nat.succ_mul,
        show offset + s + n * s = offset + (n * s + s) by omega]

theorem contiguous_outputSpans (output : Addr) (offset n : Nat) :
    Contiguous output.block (output.offset + offset) (outputSpans s output offset n) := by
  induction n generalizing offset with
  | zero => trivial
  | succ n ih =>
      rw [outputSpans_succ]
      exact ⟨rfl, rfl, by simpa [Nat.add_assoc] using ih (offset + s)⟩

end Spans

section Stream

variable {κ δ : Type}

/-- The source loop reads a stream of spans. -/
theorem segmentsFrom_of_stream {next : κ → (Addr × Nat) × κ} {stream : κ → List (Span Block)}
    (hnext : ∀ c, stream c ≠ [] →
      stream c = ⟨(next c).1.1.block, (next c).1.1.offset, (next c).1.2⟩ :: stream (next c).2)
    (shinfo : SharedInfo) :
    ∀ (mbufs : List Nat) (c : κ), mbufs.length ≤ (stream c).length →
      (segmentsFrom next shinfo mbufs c).map Segment.span = (stream c).take mbufs.length ∧
        stream (cursorAfter next mbufs.length c) = (stream c).drop mbufs.length
  | [], c, _ => by simp [segmentsFrom, cursorAfter]
  | mbuf :: rest, c, h => by
      have hne : stream c ≠ [] := by
        intro e
        simp [e] at h
      have hc := hnext c hne
      rw [hc, List.length_cons, List.length_cons] at h
      obtain ⟨h1, h2⟩ := segmentsFrom_of_stream hnext shinfo rest (next c).2 (by omega)
      rw [hc, segmentsFrom, List.map_cons, List.length_cons, List.take_succ_cons,
        List.drop_succ_cons, cursorAfter, h1, h2]
      exact ⟨rfl, rfl⟩

end Stream

/-! ## Destinations -/

/-- A segment that covers a memzone of length `L`. -/
structure Segment.IsMemzone (L : Nat) (seg : Segment) (z : Nat) : Prop where
  bufAddr : seg.bufAddr = memzoneAddr z
  dataLen : seg.dataLen = L
  shinfo : seg.shinfo = .compressed

theorem Segment.IsMemzone.memzone {L z : Nat} {seg : Segment} (h : seg.IsMemzone L z) :
    seg.memzone = some z := by
  simp [Segment.memzone, h.shinfo, h.bufAddr, memzoneAddr]

/-- Whether the next `n` calls of `Take` succeed. -/
def ZoneCursor.supplies (size : Nat) : Nat → ZoneCursor → Bool
  | 0, _ => true
  | n + 1, cursor =>
      match cursor.next size with
      | (none, _) => false
      | (some _, cursor) => supplies size n cursor

theorem supplies_iff {size : Nat} (shinfo : SharedInfo) :
    ∀ (mbufs : List Nat) (cursor : ZoneCursor),
      cursor.supplies size mbufs.length = true ↔
        (segmentsTaken (ZoneCursor.next size) shinfo mbufs cursor).1.length = mbufs.length
  | [], _ => by simp [ZoneCursor.supplies, segmentsTaken]
  | mbuf :: rest, cursor => by
      cases hnext : ZoneCursor.next size cursor with
      | mk seg cursor' =>
          cases seg with
          | none => simp [ZoneCursor.supplies, segmentsTaken, hnext]
          | some seg => simp [ZoneCursor.supplies, segmentsTaken, hnext, supplies_iff shinfo rest]

/-- The memzones `zs` were taken to get from `zones` to `zones'`. -/
structure Zones.Taken (size : Nat) (zones zones' : Zones) (zs : List Nat) : Prop where
  wellFormed : zones'.WellFormed size
  since : zones.Since zones'
  nodup : zs.Nodup
  fresh : ∀ z ∈ zs, z ∉ zones.device.occupiedMemzones
  occupied : zones'.device.occupiedMemzones = zones.device.occupiedMemzones ∪ zs.toFinset
  size_eq : ∀ z ∈ zs, zones'.pool.size z = size

theorem Zones.WellFormed.taken_nil {size : Nat} {zones : Zones} (h : zones.WellFormed size) :
    Zones.Taken size zones zones [] :=
  ⟨h, .refl _, List.nodup_nil, by simp, by simp, by simp⟩

/-- The destination loop of `Compress` takes one memzone for every segment. -/
theorem Zones.WellFormed.taken {size : Nat} :
    ∀ (mbufs : List Nat) (cursor : ZoneCursor), cursor.zones.WellFormed size →
      ∃ zs, List.Forall₂ (Segment.IsMemzone (toUInt16 (memzoneLen size)))
          (segmentsTaken (ZoneCursor.next size) .compressed mbufs cursor).1 zs ∧
        Zones.Taken size cursor.zones
          (segmentsTaken (ZoneCursor.next size) .compressed mbufs cursor).2.zones zs
  | [], cursor, hwf => ⟨[], .nil, hwf.taken_nil⟩
  | mbuf :: rest, cursor, hwf => by
      cases htake : cursor.zones.take size cursor.answers.head?.join with
      | mk got zones₁ =>
      cases got with
      | none =>
          have hnext : ZoneCursor.next size cursor = (none, ⟨zones₁, cursor.answers.tail⟩) := by
            simp [ZoneCursor.next, htake]
          obtain rfl := Zones.take_none htake
          simp only [segmentsTaken, hnext]
          exact ⟨[], .nil, hwf.taken_nil⟩
      | some z =>
          have hnext : ZoneCursor.next size cursor =
              (some (memzoneAddr z, zones₁.pool.len z), ⟨zones₁, cursor.answers.tail⟩) := by
            simp [ZoneCursor.next, htake]
          obtain ⟨hwf₁, hz, hocc, hsize, hsince⟩ := hwf.take htake
          obtain ⟨zs, hsegs, h⟩ := hwf₁.taken rest ⟨zones₁, cursor.answers.tail⟩
          have hz₁ : z ∈ zones₁.device.occupiedMemzones := by
            rw [hocc]
            exact Finset.mem_insert_self _ _
          simp only [segmentsTaken, hnext]
          refine ⟨z :: zs, ?_, h.wellFormed, hsince.trans h.since, ?_, ?_, ?_, ?_⟩
          · refine .cons ⟨rfl, ?_, rfl⟩ hsegs
            simp [MemzonePool.len, hsize]
          · exact List.nodup_cons.mpr ⟨fun hm => h.fresh z hm hz₁, h.nodup⟩
          · intro x hx
            rcases List.mem_cons.mp hx with rfl | hx
            · exact hz
            · exact fun ho => h.fresh x hx (by rw [hocc]; exact Finset.mem_insert_of_mem ho)
          · rw [h.occupied, hocc]
            ext x
            simp only [Finset.mem_union, Finset.mem_insert, List.mem_toFinset, List.mem_cons]
            tauto
          · intro x hx
            rcases List.mem_cons.mp hx with rfl | hx
            · rw [h.since.size_eq x (hwf₁.occupied_allocated x hz₁), hsize]
            · exact h.size_eq x hx

/-- The destination loop of `Decompress` gets as many segments as it asks for. -/
theorem segmentsTaken_decompress (cfg : Configuration) (buffers : List Buffer) (output : Addr)
    (shinfo : SharedInfo) :
    ∀ (mbufs : List Nat) (offset : Nat),
      (segmentsTaken (decompressBurst cfg buffers output).nextDestination shinfo mbufs
          offset).1.length = mbufs.length ∧
      (segmentsTaken (decompressBurst cfg buffers output).nextDestination shinfo mbufs
          offset).1.map Segment.span =
        outputSpans cfg.decompressedSegSize.toNat output offset mbufs.length ∧
      (segmentsTaken (decompressBurst cfg buffers output).nextDestination shinfo mbufs
          offset).2 = offset + mbufs.length * cfg.decompressedSegSize.toNat ∧
      ∀ seg ∈ (segmentsTaken (decompressBurst cfg buffers output).nextDestination shinfo mbufs
          offset).1, seg.shinfo = shinfo
  | [], offset => by simp [segmentsTaken, outputSpans]
  | mbuf :: rest, offset => by
      obtain ⟨h1, h2, h3, h4⟩ := segmentsTaken_decompress cfg buffers output shinfo rest
        (offset + cfg.decompressedSegSize.toNat)
      simp only [decompressBurst] at h1 h2 h3 h4
      simp only [segmentsTaken, decompressBurst, List.length_cons, List.map_cons,
        outputSpans_succ, h1, h2, h3, List.mem_cons, forall_eq_or_imp, true_and]
      refine ⟨rfl, by rw [Nat.succ_mul]; omega, h4⟩

/-! ## One `AssembleFrom` -/

section Bursts

variable {cfg : Configuration}

theorem toUInt16_count (hb : cfg.Bounds) {n k : Nat}
    (hn : n ≤ (cfg.burstSize.toNat - k) * cfg.maxSglSegs.toNat) :
    toUInt16 (count cfg.maxSglSegs.toNat n) = count cfg.maxSglSegs.toNat n := by
  have h1 := (count_le_iff hb.maxSglSegs_pos).mpr hn
  have h2 := cfg.burstSize.toNat_lt
  exact toUInt16_of_lt (by omega)

theorem assembleFromDecompressed_eq (hb : cfg.Bounds) (answer : BulkAnswer) (input : Buffer)
    (qp : QueuePairMemory) (offset : Nat) (zones : ZoneCursor) :
    assembleFromDecompressed cfg answer input qp offset zones =
      if inputSpans cfg.decompressedSegSize.toNat input offset = [] ∨
          cfg.burstSize.toNat ≤ qp.numOpsAssembled then
        ⟨qp, offset, zones, .ok qp.numOpsAssembled⟩
      else
        let n := min (inputSpans cfg.decompressedSegSize.toNat input offset).length
          ((cfg.burstSize.toNat - qp.numOpsAssembled) * cfg.maxSglSegs.toNat)
        assembleBurst cfg.maxSglSegs.toNat n (count cfg.maxSglSegs.toNat n)
          (compressBurst cfg input) answer qp offset zones := by
  have hn : (min (input.size - offset) ((cfg.burstSize.toNat - qp.numOpsAssembled) *
      cfg.maxSglSegs.toNat * cfg.decompressedSegSize.toNat) + cfg.decompressedSegSize.toNat - 1) /
        cfg.decompressedSegSize.toNat =
      min (inputSpans cfg.decompressedSegSize.toNat input offset).length
        ((cfg.burstSize.toNat - qp.numOpsAssembled) * cfg.maxSglSegs.toNat) := by
    rw [length_inputSpans]
    exact count_min_mul hb.segSize_pos _ _
  unfold assembleFromDecompressed
  simp only [inputSpans_eq_nil hb.segSize_pos, hn]
  split_ifs with h
  · rfl
  · have hcount := toUInt16_count hb (Nat.min_le_right
      (inputSpans cfg.decompressedSegSize.toNat input offset).length
      ((cfg.burstSize.toNat - qp.numOpsAssembled) * cfg.maxSglSegs.toNat))
    unfold count at hcount
    rw [hcount]
    rfl

theorem assembleFromCompressed_eq (hb : cfg.Bounds) (answer : BulkAnswer) (buffers : List Buffer)
    (output : Addr) (qp : QueuePairMemory) (index offset : Nat) :
    assembleFromCompressed cfg answer buffers output qp index offset =
      if bufferSpans buffers index = [] ∨ cfg.burstSize.toNat ≤ qp.numOpsAssembled then
        ⟨qp, index, offset, .ok qp.numOpsAssembled⟩
      else
        let n := min (bufferSpans buffers index).length
          ((cfg.burstSize.toNat - qp.numOpsAssembled) * cfg.maxSglSegs.toNat)
        assembleBurst cfg.maxSglSegs.toNat n (count cfg.maxSglSegs.toNat n)
          (decompressBurst cfg buffers output) answer qp index offset := by
  unfold assembleFromCompressed
  simp only [← List.length_eq_zero_iff, length_bufferSpans]
  split_ifs with h
  · rfl
  · have hcount := toUInt16_count hb (Nat.min_le_right (buffers.length - index)
      ((cfg.burstSize.toNat - qp.numOpsAssembled) * cfg.maxSglSegs.toNat))
    unfold count at hcount
    rw [Nat.min_comm, hcount]
    rfl

end Bursts

def Call.xform : Call → Xform
  | .compress .. => .compress
  | .decompress .. => .decompress

/-- There are destinations for `n` segments. -/
def Call.Supplied (cfg : Configuration) (n : Nat) (cursor : ZoneCursor) : Call → Prop
  | .compress .. => cursor.supplies cfg.compressedSegSize n = true
  | .decompress .. => True

instance (cfg : Configuration) (n : Nat) (cursor : ZoneCursor) (call : Call) :
    Decidable (call.Supplied cfg n cursor) := by
  unfold Call.Supplied
  split <;> infer_instance

/-- The destination segments of a burst of `n` segments. -/
def Call.Destinations (cfg : Configuration) (zones zones' : Zones) (n : Nat)
    (T : List Segment) : Call → Prop
  | .compress .. => zones.WellFormed cfg.compressedSegSize →
      ∃ zs, List.Forall₂ (Segment.IsMemzone cfg.segLen) T zs ∧
        Zones.Taken cfg.compressedSegSize zones zones' zs
  | .decompress _ output _ offset _ => zones' = zones ∧ T.length = n ∧
      T.map Segment.span = outputSpans cfg.decompressedSegSize.toNat output.data offset n ∧
      ∀ seg ∈ T, seg.shinfo = .decompressed

namespace Machine

/-- What is not assembled yet. -/
def remaining (st : Machine) : List (Span Block) :=
  st.call.remaining st.cfg

/-- A burst of `n` segments was allocated: operations `os` and mbufs `ms`, with
the source segments `S` and the destination segments `T`. -/
structure Built (st st' : Machine) (n : Nat) (os ms : List Nat) (ops : Nat → CompOp)
    (S T : List Segment) : Prop where
  n_pos : 0 < n
  n_eq : n = min st.remaining.length
    ((st.cfg.burstSize.toNat - st.qp.numOpsAssembled) * st.cfg.maxSglSegs.toNat)
  ops_handable : Handable st.qp.operationPool (count st.cfg.maxSglSegs.toNat n) os
  mbufs_handable : Handable st.qp.mbufPool (n * 2) ms
  state_eq : st' =
    { st with
      zones := st'.zones
      qp := { st.qp with
        numOpsAssembled := st.qp.numOpsAssembled +
          (if T.length = n then count st.cfg.maxSglSegs.toNat n else 0)
        pendingOperations := st.qp.pendingOperations ++ os
        mbufPool := st.qp.mbufPool \ ms.toFinset
        operationPool := st.qp.operationPool \ os.toFinset
        operations := write st.qp.operations () st.qp.numOpsAssembled os
        mbufs := ms
        ops := ops }
      call := st.call.advance st.cfg n }
  ops_eq : ∀ (j : Nat) (h : j < os.length),
    ops os[j] = opAt st.cfg.maxSglSegs.toNat n st.call.xform S T j
  ops_other : ∀ o, o ∉ os → ops o = st.qp.ops o
  sources : S.map Segment.span = st.remaining.take n
  source_mbufs : S.map Segment.mbuf = ms.take n
  destination_mbufs : T.map Segment.mbuf = (ms.drop n).take T.length
  length_destinations : T.length ≤ n
  destinations : st.call.Destinations st.cfg st.zones st'.zones n T
  remaining_eq : st'.remaining = st.remaining.drop n

/-- The number of segments of the next burst. -/
def burst (st : Machine) : Nat :=
  min st.remaining.length
    ((st.cfg.burstSize.toNat - st.qp.numOpsAssembled) * st.cfg.maxSglSegs.toNat)

/-- What the operation pool answers to the next burst. -/
def opsTaken (st : Machine) (env : Env) : Option (List Nat) :=
  takeFrom st.qp.operationPool (count st.cfg.maxSglSegs.toNat st.burst) env.bulk.ops

/-- What the mbuf pool answers to the next burst. -/
def mbufsTaken (st : Machine) (env : Env) : Option (List Nat) :=
  takeFrom st.qp.mbufPool (st.burst * 2) env.bulk.mbufs

/-- There are destinations for all segments of the next burst. -/
def Supplied (st : Machine) (env : Env) : Prop :=
  st.call.Supplied st.cfg st.burst ⟨st.zones, env.memzones⟩

/-- Everything that `AssembleFrom` can do. -/
inductive AssembleOutcome (st : Machine) (env : Env) : Machine → Except StatusCode Nat → Prop
  | nothing (h : st.remaining = [] ∨ st.cfg.burstSize.toNat ≤ st.qp.numOpsAssembled) :
      AssembleOutcome st env st (.ok st.qp.numOpsAssembled)
  | noOps (h : st.remaining ≠ []) (hops : ∀ o os, st.opsTaken env ≠ some (o :: os)) :
      AssembleOutcome st env st (.error .outOfMemory)
  | noMbufs {os : List Nat} (hne : os ≠ []) (hos : st.opsTaken env = some os)
      (hms : st.mbufsTaken env = none) :
      AssembleOutcome st env { st with qp := st.qp.handOutOps os } (.error .outOfMemory)
  | short {st' : Machine} {n : Nat} {os ms : List Nat} {ops : Nat → CompOp} {S T : List Segment}
      (built : Built st st' n os ms ops S T) (hT : T.length < n) (hne : os ≠ [])
      (hos : st.opsTaken env = some os) (hzones : ¬ st.Supplied env) :
      AssembleOutcome st env st' (.error .ioError)
  | complete {st' : Machine} {n : Nat} {os ms : List Nat} {ops : Nat → CompOp}
      {S T : List Segment} (built : Built st st' n os ms ops S T) (hT : T.length = n)
      (hms : st.mbufsTaken env ≠ none) (hzones : st.Supplied env) :
      AssembleOutcome st env st' (.ok (st.qp.numOpsAssembled + count st.cfg.maxSglSegs.toNat n))

section Spec

variable {st : Machine}

theorem inputSpans_stream (hb : st.cfg.Bounds) (input : Buffer) (offset : Nat)
    (hne : inputSpans st.cfg.decompressedSegSize.toNat input offset ≠ []) :
    inputSpans st.cfg.decompressedSegSize.toNat input offset =
      ⟨((compressBurst st.cfg input).nextSource offset).1.1.block,
        ((compressBurst st.cfg input).nextSource offset).1.1.offset,
        ((compressBurst st.cfg input).nextSource offset).1.2⟩ ::
      inputSpans st.cfg.decompressedSegSize.toNat input
        ((compressBurst st.cfg input).nextSource offset).2 := by
  have hlt : offset < input.size := by
    by_contra h
    exact hne ((inputSpans_eq_nil hb.segSize_pos).mpr (by omega))
  have hs := st.cfg.decompressedSegSize.toNat_lt
  rw [inputSpans_of_lt hb.segSize_pos hlt]
  simp only [compressBurst, Addr.add]
  rw [toUInt16_of_lt (by omega)]

theorem bufferSpans_stream (buffers : List Buffer) (output : Addr) (index : Nat)
    (hne : bufferSpans buffers index ≠ []) :
    bufferSpans buffers index =
      ⟨((decompressBurst st.cfg buffers output).nextSource index).1.1.block,
        ((decompressBurst st.cfg buffers output).nextSource index).1.1.offset,
        ((decompressBurst st.cfg buffers output).nextSource index).1.2⟩ ::
      bufferSpans buffers ((decompressBurst st.cfg buffers output).nextSource index).2 := by
  have hlt : index < buffers.length := by
    by_contra h
    exact hne (List.eq_nil_of_length_eq_zero (by rw [length_bufferSpans]; omega))
  rw [bufferSpans_of_lt hlt]
  simp [decompressBurst, hlt]

/-- The cursor of the input after `n` slices. -/
theorem cursorAfter_compress (cfg : Configuration) (input : Buffer) :
    ∀ (n offset : Nat), offset ≤ input.size →
      cursorAfter (compressBurst cfg input).nextSource n offset =
        min (offset + n * cfg.decompressedSegSize.toNat) input.size
  | 0, offset, h => by simp [cursorAfter, h]
  | n + 1, offset, h => by
      rw [cursorAfter, cursorAfter_compress cfg input n _ (by simp only [compressBurst]; omega)]
      simp only [compressBurst, Nat.succ_mul]
      omega

theorem cursorAfter_decompress (cfg : Configuration) (buffers : List Buffer) (output : Addr) :
    ∀ n index : Nat, cursorAfter (decompressBurst cfg buffers output).nextSource n index =
      index + n
  | 0, index => rfl
  | n + 1, index => by
      rw [cursorAfter, cursorAfter_decompress cfg buffers output n]
      simp only [decompressBurst]
      omega

/-- A burst that got its operations and mbufs, as a step of the call. -/
theorem outcome_of_burst {κ δ : Type} {env : Env} {burst : BurstSource κ δ} {source : κ}
    {destination : δ} {n : Nat} {os ms : List Nat} {ops : Nat → CompOp} {r : BurstResult κ δ}
    {call' : Call} (stream : κ → List (Span Block)) (zones' : Zones) (hn : 0 < n)
    (hnEq : st.burst = n)
    (hr : BurstBuilt st.cfg.maxSglSegs.toNat n burst env.bulk st.qp source destination os ms ops r)
    (hxform : burst.xform = st.call.xform)
    (hstream : ∀ c, stream c ≠ [] →
      stream c = ⟨(burst.nextSource c).1.1.block, (burst.nextSource c).1.1.offset,
        (burst.nextSource c).1.2⟩ :: stream (burst.nextSource c).2)
    (hsource : stream source = st.remaining)
    (hcall : call' = st.call.advance st.cfg n)
    (hrem : call'.remaining st.cfg = stream (cursorAfter burst.nextSource n source))
    (hdest : st.call.Destinations st.cfg st.zones zones' n
      (burst.taken n ms destination).1)
    (hsupplied : st.Supplied env ↔ (burst.taken n ms destination).1.length = n) :
    AssembleOutcome st env { st with
      qp := r.qp
      zones := zones'
      call := call' } r.result := by
  have hhos := takeFrom_eq_some hr.ops_taken
  have hhms := takeFrom_eq_some hr.mbufs_taken
  have hms := hhms.length_eq
  have htake : (ms.take n).length = n := by
    rw [List.length_take]
    omega
  have hdrop : (ms.drop n).length = n := by
    rw [List.length_drop]
    omega
  have hnle : (ms.take n).length ≤ (stream source).length := by
    rw [htake, hsource, ← hnEq]
    exact Nat.min_le_left _ _
  obtain ⟨hS, hrest⟩ := segmentsFrom_of_stream hstream burst.sourceInfo (ms.take n) source hnle
  rw [htake, hsource] at hS hrest
  have hT : (burst.taken n ms destination).1.length ≤ n :=
    (length_segmentsTaken_le _ _ _ _).trans hdrop.le
  have built : Built st { st with
      qp := r.qp
      zones := zones'
      call := call' } n os ms ops (burst.sources n ms source)
      (burst.taken n ms destination).1 := by
    refine ⟨hn, hnEq.symm, hhos, hhms, ?_, ?_, hr.ops_other, hS,
      map_mbuf_segmentsFrom _ _ _ _, map_mbuf_segmentsTaken _ _ _ _, hT, hdest, ?_⟩
    · rw [hr.result, hcall]
    · rw [← hxform]
      exact hr.ops_eq
    · exact hrem.trans hrest
  have hres : r.result = if (burst.taken n ms destination).1.length = n then
      .ok (st.qp.numOpsAssembled + count st.cfg.maxSglSegs.toNat n) else .error .ioError :=
    congrArg BurstResult.result hr.result
  by_cases hall : (burst.taken n ms destination).1.length = n
  · rw [hres, if_pos hall]
    exact .complete built hall (by rw [mbufsTaken, hnEq, hr.mbufs_taken]; simp)
      (hsupplied.mpr hall)
  · rw [hres, if_neg hall]
    exact .short built (by omega) hr.ops_ne_nil (by rw [opsTaken, hnEq, hr.ops_taken])
      fun h => hall (hsupplied.mp h)

/-- A burst as a step of the call.  `zonesOf` and `callOf` say what the cursors of
the burst stand for. -/
theorem outcome_of_assembleBurst {κ δ : Type} {env : Env} {burst : BurstSource κ δ} {source : κ}
    {destination : δ} (hb : st.cfg.Bounds) (stream : κ → List (Span Block))
    (zonesOf : δ → Zones) (callOf : κ → δ → Call) (hpos : 0 < st.burst)
    (hxform : burst.xform = st.call.xform)
    (hstream : ∀ c, stream c ≠ [] →
      stream c = ⟨(burst.nextSource c).1.1.block, (burst.nextSource c).1.1.offset,
        (burst.nextSource c).1.2⟩ :: stream (burst.nextSource c).2)
    (hsource : stream source = st.remaining) (hzones : zonesOf destination = st.zones)
    (hcall : callOf source destination = st.call)
    (hrem : ∀ c d, (callOf c d).remaining st.cfg = stream c)
    (htaken : ∀ ms : List Nat, (ms.drop st.burst).length = st.burst →
      callOf (cursorAfter burst.nextSource st.burst source)
          (burst.taken st.burst ms destination).2 =
          st.call.advance st.cfg st.burst ∧
        st.call.Destinations st.cfg st.zones (zonesOf (burst.taken st.burst ms destination).2)
          st.burst (burst.taken st.burst ms destination).1 ∧
        (st.Supplied env ↔ (burst.taken st.burst ms destination).1.length = st.burst))
    (r : BurstResult κ δ)
    (hr : r = assembleBurst st.cfg.maxSglSegs.toNat st.burst
      (count st.cfg.maxSglSegs.toNat st.burst) burst env.bulk st.qp source destination) :
    AssembleOutcome st env { st with
      qp := r.qp
      zones := zonesOf r.destination
      call := callOf r.source r.destination } r.result := by
  have hne : st.remaining ≠ [] := List.length_pos_iff.mp (hpos.trans_le (Nat.min_le_left _ _))
  rcases assembleBurst_spec hb.maxSglSegs_pos (maxSglSegs_le st.cfg) hpos burst env.bulk st.qp
    source destination with ⟨hnone, he⟩ | ⟨os, hos, hh, hms, he⟩ | ⟨os, ms, ops, built⟩
  · rw [hr, he]
    dsimp only
    rw [hzones, hcall]
    exact .noOps hne hnone
  · rw [hr, he]
    dsimp only
    rw [hzones, hcall]
    exact .noMbufs hos hh hms
  · rw [← hr] at built
    have hdrop : (ms.drop st.burst).length = st.burst := by
      rw [List.length_drop, (takeFrom_eq_some built.mbufs_taken).length_eq]
      omega
    obtain ⟨hadvance, hdest, hsupplied⟩ := htaken ms hdrop
    have hr' := built.result
    refine outcome_of_burst stream _ hpos rfl built hxform hstream hsource ?_ ?_ ?_ hsupplied
    · rw [hr']
      exact hadvance
    · rw [hrem, hr']
    · rw [hr']
      exact hdest

theorem assembleFrom_spec (hb : st.cfg.Bounds) (env : Env) :
    AssembleOutcome st env (st.assembleFrom env).1 (st.assembleFrom env).2 := by
  -- a burst that is asked for is not empty
  have hpos : ¬ (st.remaining = [] ∨ st.cfg.burstSize.toNat ≤ st.qp.numOpsAssembled) →
      0 < st.burst := by
    intro hstop
    obtain ⟨hne, hroom⟩ := not_or.mp hstop
    exact Nat.lt_min.mpr ⟨List.length_pos_iff.mpr hne,
      Nat.mul_pos (by omega) hb.maxSglSegs_pos⟩
  cases hcall : st.call with
  | compress input offset out =>
      have hrem : st.remaining = inputSpans st.cfg.decompressedSegSize.toNat input offset := by
        rw [remaining, hcall, Call.remaining]
      unfold assembleFrom
      simp only [hcall]
      rw [assembleFromDecompressed_eq hb, ← hrem]
      split_ifs with hstop
      · have e : { st with call := .compress input offset out } = st := by rw [← hcall]
        simp only [e]
        exact .nothing hstop
      · refine outcome_of_assembleBurst hb (inputSpans st.cfg.decompressedSegSize.toNat input)
          ZoneCursor.zones (fun offset _ => .compress input offset out) (hpos hstop)
          (by rw [hcall]; rfl) (inputSpans_stream hb input) hrem.symm rfl hcall.symm
          (fun _ _ => rfl) ?_ _ rfl
        intro ms hdrop
        refine ⟨?_, ?_, ?_⟩
        · have hoff : offset ≤ input.size := by
            have := mt (inputSpans_eq_nil hb.segSize_pos).mpr (hrem ▸ (not_or.mp hstop).1)
            omega
          rw [hcall, cursorAfter_compress st.cfg input st.burst offset hoff]
          rfl
        · rw [hcall]
          exact fun hwf => hwf.taken (ms.drop st.burst) ⟨st.zones, env.memzones⟩
        · rw [Supplied, hcall, Call.Supplied]
          conv_lhs => rw [← hdrop]
          rw [supplies_iff .compressed, hdrop]
          rfl
  | decompress buffers output index offset size =>
      have hrem : st.remaining = bufferSpans buffers index := by
        rw [remaining, hcall, Call.remaining]
      unfold assembleFrom
      simp only [hcall]
      rw [assembleFromCompressed_eq hb, ← hrem]
      split_ifs with hstop
      · have e : { st with call := .decompress buffers output index offset size } = st := by
          rw [← hcall]
        simp only [e]
        exact .nothing hstop
      · refine outcome_of_assembleBurst hb (bufferSpans buffers) (fun _ => st.zones)
          (fun index offset => .decompress buffers output index offset size) (hpos hstop)
          (by rw [hcall]; rfl) (bufferSpans_stream buffers output.data) hrem.symm rfl hcall.symm
          (fun _ _ => rfl) ?_ _ rfl
        intro ms hdrop
        obtain ⟨h1, h2, h3, h4⟩ := segmentsTaken_decompress st.cfg buffers output.data
          .decompressed (ms.drop st.burst) offset
        rw [hdrop] at h1 h2 h3
        refine ⟨?_, ?_, ?_⟩
        · rw [hcall, cursorAfter_decompress, show (BurstSource.taken _ st.burst ms offset).2 = _
            from h3]
          rfl
        · rw [hcall]
          exact ⟨rfl, h1, h2, h4⟩
        · rw [Supplied, hcall]
          exact iff_of_true trivial h1

end Spec

end Machine

end Bitar
