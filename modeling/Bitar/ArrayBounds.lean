import Bitar.Bookkeeping
import Bitar.Conservation
import Bitar.Preallocate

/-!
# Array and buffer bounds

The functions here follow those of `QueuePairMemory` and list the entries of the
arrays `operations_` and `mbufs_` that they use, in order.  The entries below
`burst_size` hold operations on their way to the device; those from `burst_size`
on are where `DequeueBurst` lets the device put finished operations.

**Results.**
* `sourceAccesses_bounds`, `destinationAccesses_bounds`: the two loops.
* `array_bounds`: every access of every step of a call, and the destination
  segments of a whole `Decompress`.
-/

namespace Bitar

open BlockStore Pieces

/-- A use of an array entry. -/
inductive Access
  /-- An entry of `operations_`, as the place of an operation to be enqueued. -/
  | operation (i : Nat)
  /-- The entry of `operations_` read when an operation has just been closed. -/
  | lookAhead (i : Nat)
  /-- An entry of `operations_`, as the place of an operation handed back. -/
  | dequeued (i : Nat)
  | mbuf (i : Nat)
deriving DecidableEq, Repr

/-- The entry exists, and is used for what it is meant for. -/
def Access.InBounds (cfg : Configuration) : Access → Prop
  | .operation i => i < cfg.burstSize.toNat ∧ i < cfg.numOperations id
  | .lookAhead i => i < cfg.numOperations id
  | .dequeued i => cfg.burstSize.toNat ≤ i ∧ i < cfg.numOperations id
  | .mbuf i => i < cfg.numMbufsInBurst id

section Accesses

variable {κ δ : Type}

/-- The entries that `appendSources` uses. -/
def sourceAccesses (maxSglSegs n : Nat) (next : κ → (Addr × Nat) × κ) (shinfo : SharedInfo) :
    List Nat → Nat → Assembly κ → List Access
  | [], _, _ => []
  | mbuf :: rest, mbufId, st =>
      let currentOp := st.qp.operations () st.index
      let seg := next st.cursor
      let appended := appendData (st.qp.ops currentOp).mSrc mbuf seg.1.1 seg.1.2 shinfo
      let qp := st.qp.setSrc currentOp appended.1
      .mbuf mbufId ::
        if appended.2 = .ok then
          if (mbufId + 1) % maxSglSegs = 0 ∧ mbufId + 1 < n then
            .operation (st.index + 1) ::
              sourceAccesses maxSglSegs n next shinfo rest (mbufId + 1)
                ⟨qp.pushPending (qp.operations () (st.index + 1)), st.index + 1, seg.2⟩
          else
            sourceAccesses maxSglSegs n next shinfo rest (mbufId + 1) ⟨qp, st.index, seg.2⟩
        else []

/-- The entries that `appendDestinations` uses. -/
def destinationAccesses (maxSglSegs n : Nat) (next : δ → Option (Addr × Nat) × δ)
    (shinfo : SharedInfo) (xform : Xform) : List Nat → Nat → Assembly δ → List Access
  | [], _, _ => []
  | mbuf :: rest, mbufId, st =>
      let currentOp := st.qp.operations () st.index
      match next st.cursor with
      | (none, _) => []
      | (some seg, cursor) =>
          let appended := appendData (st.qp.ops currentOp).mDst mbuf seg.1 seg.2 shinfo
          let qp := st.qp.setDst currentOp appended.1
          .mbuf (mbufId + n) ::
            if appended.2 = .ok then
              if (mbufId + 1) % maxSglSegs = 0 ∨ mbufId + 1 = n then
                .lookAhead (st.index + 1) ::
                  destinationAccesses maxSglSegs n next shinfo xform rest (mbufId + 1)
                    ⟨qp.updateOperation currentOp xform, st.index + 1, cursor⟩
              else
                destinationAccesses maxSglSegs n next shinfo xform rest (mbufId + 1)
                  ⟨qp, st.index, cursor⟩
            else []

/-- The entries that `assembleBurst` uses. -/
def burstAccesses (maxSglSegs n numOps : Nat) (burst : BurstSource κ δ) (answer : BulkAnswer)
    (qp : QueuePairMemory) (source : κ) (destination : δ) : List Access :=
  -- `BulkAllocate`
  ((List.range' qp.numOpsAssembled numOps).map .operation ++ (List.range (n * 2)).map .mbuf) ++
  match qp.bulkAllocate answer numOps (n * 2) with
  | (qp, .ok) =>
      let first := qp.pushPending (qp.operations () qp.numOpsAssembled)
      .operation qp.numOpsAssembled ::
        sourceAccesses maxSglSegs n burst.nextSource burst.sourceInfo (qp.mbufs.take n) 0
          ⟨first, qp.numOpsAssembled, source⟩ ++
        match appendSources maxSglSegs n burst.nextSource burst.sourceInfo (qp.mbufs.take n) 0
            ⟨first, qp.numOpsAssembled, source⟩ with
        | (st, .ok) =>
            .operation qp.numOpsAssembled ::
              destinationAccesses maxSglSegs n burst.nextDestination burst.destinationInfo
                burst.xform (qp.mbufs.drop n) 0 ⟨st.qp, qp.numOpsAssembled, destination⟩
        | (_, _) => []
  | (_, _) => []

/-- The entries that `AccumulateUnused` moves from and to. -/
def accumulateAccesses (qp : QueuePairMemory) (numUnusedOps : Nat) : List Access :=
  if qp.numOpsAssembled < numUnusedOps then []
  else if 0 < numUnusedOps ∧ numUnusedOps ≠ qp.numOpsAssembled then
    (List.range numUnusedOps).map .operation ++
      (List.range' (qp.numOpsAssembled - numUnusedOps) numUnusedOps).map .operation
  else []

end Accesses

namespace Machine

/-- The entries that `AssembleFrom` uses. -/
def assembleAccesses (st : Machine) (env : Env) : List Access :=
  let numOpsAssembled := st.qp.numOpsAssembled
  let burstSize := st.cfg.burstSize.toNat
  let maxSglSegs := st.cfg.maxSglSegs.toNat
  match st.call with
  | .compress input offset _ =>
      let remainingBytes := input.size - offset
      if remainingBytes = 0 ∨ burstSize ≤ numOpsAssembled then []
      else
        let nextBurstBytesCapacity :=
          (burstSize - numOpsAssembled) * maxSglSegs * st.cfg.decompressedSegSize.toNat
        let nextBurstBytes := min remainingBytes nextBurstBytesCapacity
        let nextBurstNumSrcMbufs :=
          (nextBurstBytes + st.cfg.decompressedSegSize.toNat - 1) /
            st.cfg.decompressedSegSize.toNat
        let nextBurstNumOps := toUInt16 ((nextBurstNumSrcMbufs + maxSglSegs - 1) / maxSglSegs)
        burstAccesses maxSglSegs nextBurstNumSrcMbufs nextBurstNumOps
          (compressBurst st.cfg input) env.bulk st.qp offset
          (⟨st.zones, env.memzones⟩ : ZoneCursor)
  | .decompress buffers output index offset _ =>
      let remainingMbufs := buffers.length - index
      if remainingMbufs = 0 ∨ burstSize ≤ numOpsAssembled then []
      else
        let nextBurstMbufsCapacity := (burstSize - numOpsAssembled) * maxSglSegs
        let nextBurstNumSrcMbufs := min nextBurstMbufsCapacity remainingMbufs
        let nextBurstNumOps := toUInt16 ((nextBurstNumSrcMbufs + maxSglSegs - 1) / maxSglSegs)
        burstAccesses maxSglSegs nextBurstNumSrcMbufs nextBurstNumOps
          (decompressBurst st.cfg buffers output.data) env.bulk st.qp index offset

/-- The entries that one step uses. -/
def accesses (st : Machine) (env : Env) : List Access :=
  match st.pc with
  | .assemble => st.assembleAccesses env
  | .enqueue numOpsAssembled =>
      let numOpsAssembled := toUInt16 numOpsAssembled
      let numEnqueued := min env.numAccepted numOpsAssembled
      -- the device reads `enqueue_ops`
      (List.range numOpsAssembled).map .operation ++
        accumulateAccesses st.qp (toUInt16 (numOpsAssembled - numEnqueued))
  | .dequeue | .drain =>
      -- the device may fill `burst_size` entries of `dequeue_ops`
      (List.range st.cfg.burstSize.toNat).map (fun i => .dequeued (st.cfg.burstSize.toNat + i)) ++
        (List.range (st.numDequeued env)).map fun idx =>
          .dequeued (st.cfg.burstSize.toNat + idx)
  | .returned _ => []

end Machine

/-! ## The loops -/

section Loops

variable {κ δ : Type} {m n a : Nat}

theorem sourceAccesses_bounds (hm : 0 < m) (next : κ → (Addr × Nat) × κ) (shinfo : SharedInfo) :
    ∀ (mbufs : List Nat) (mbufId : Nat) (st : Assembly κ), mbufId + mbufs.length ≤ n →
      st.index = a + mbufId / m →
      ∀ x ∈ sourceAccesses m n next shinfo mbufs mbufId st,
        (∃ i, x = .mbuf i ∧ i < n) ∨ ∃ i, x = .operation i ∧ i < a + count m n
  | [], _, _, _, _ => by simp [sourceAccesses]
  | mbuf :: rest, mbufId, st, hlen, hindex => by
      rw [List.length_cons] at hlen
      intro x hx
      unfold sourceAccesses at hx
      dsimp only at hx
      rcases List.mem_cons.mp hx with rfl | hx
      · exact Or.inl ⟨mbufId, rfl, by omega⟩
      · split_ifs at hx with hok hclose
        · have hdiv : (mbufId + 1) / m = mbufId / m + 1 := by
            rw [Nat.succ_div_of_mod_eq_zero hclose.1]
          rcases List.mem_cons.mp hx with rfl | hx
          · have := div_lt_count hm hclose.2
            exact Or.inr ⟨_, rfl, by omega⟩
          · exact sourceAccesses_bounds hm next shinfo rest (mbufId + 1) _ (by omega)
              (by dsimp only; omega) x hx
        · by_cases hrest : rest = []
          · rw [hrest] at hx
            simp [sourceAccesses] at hx
          · have hpos := List.length_pos_iff.mpr hrest
            have hlt : mbufId + 1 < n := by omega
            have hdiv : (mbufId + 1) / m = mbufId / m := by
              rw [Nat.succ_div_of_mod_ne_zero fun hd => hclose ⟨hd, hlt⟩]
            exact sourceAccesses_bounds hm next shinfo rest (mbufId + 1) _ (by omega)
              (by dsimp only; omega) x hx
        · simp at hx

theorem destinationAccesses_bounds (hm : 0 < m) (next : δ → Option (Addr × Nat) × δ)
    (shinfo : SharedInfo) (xform : Xform) :
    ∀ (mbufs : List Nat) (mbufId : Nat) (st : Assembly δ), mbufId + mbufs.length ≤ n →
      (mbufs ≠ [] → st.index = a + mbufId / m) →
      ∀ x ∈ destinationAccesses m n next shinfo xform mbufs mbufId st,
        (∃ i, x = .mbuf i ∧ i < n * 2) ∨ ∃ i, x = .lookAhead i ∧ i ≤ a + count m n
  | [], _, _, _, _ => by simp [destinationAccesses]
  | mbuf :: rest, mbufId, st, hlen, hindex => by
      rw [List.length_cons] at hlen
      have hindex' := hindex (List.cons_ne_nil _ _)
      have hcount := div_lt_count (n := n) hm (show mbufId < n by omega)
      intro x hx
      unfold destinationAccesses at hx
      dsimp only at hx
      split at hx
      · simp at hx
      · rcases List.mem_cons.mp hx with rfl | hx
        · exact Or.inl ⟨mbufId + n, rfl, by omega⟩
        · split_ifs at hx with hok hclose
          · rcases List.mem_cons.mp hx with rfl | hx
            · exact Or.inr ⟨_, rfl, by omega⟩
            · refine destinationAccesses_bounds hm next shinfo xform rest (mbufId + 1) _ (by omega)
                (fun hne => ?_) x hx
              -- the last operation may be closed early, but then no mbuf is left
              have hlt := List.length_pos_iff.mpr hne
              have hmod : (mbufId + 1) % m = 0 := hclose.resolve_right (by omega)
              dsimp only
              rw [Nat.succ_div_of_mod_eq_zero hmod]
              omega
          · refine destinationAccesses_bounds hm next shinfo xform rest (mbufId + 1) _ (by omega)
              (fun _ => ?_) x hx
            dsimp only
            rw [Nat.succ_div_of_mod_ne_zero fun hd => hclose (Or.inl hd), hindex']
          · simp at hx

/-- The loops stay in the entries that `BulkAllocate` fills. -/
theorem burstAccesses_bounds (hm : 0 < m) (hn : 0 < n) (burst : BurstSource κ δ)
    (answer : BulkAnswer) (qp : QueuePairMemory) (source : κ) (destination : δ) :
    ∀ x ∈ burstAccesses m n (count m n) burst answer qp source destination,
      (∃ i, x = .mbuf i ∧ i < n * 2) ∨
      (∃ i, x = .operation i ∧ i < qp.numOpsAssembled + count m n) ∨
      ∃ i, x = .lookAhead i ∧ i ≤ qp.numOpsAssembled + count m n := by
  have hpos := count_pos hm hn
  intro x hx
  unfold burstAccesses at hx
  simp only [List.mem_append, List.mem_map, List.mem_range'_1, List.mem_range] at hx
  rcases hx with (⟨i, hi, rfl⟩ | ⟨i, hi, rfl⟩) | hx
  · exact Or.inr (Or.inl ⟨i, rfl, hi.2⟩)
  · exact Or.inl ⟨i, rfl, hi⟩
  · rcases bulkAllocate_cases answer (count m n) (n * 2) qp with
      ⟨-, hb⟩ | ⟨os, -, -, -, hb⟩ | ⟨os, ms, -, -, hms, hb⟩
    · simp [hb] at hx
    · simp [hb] at hx
    · have hlen := (takeFrom_eq_some hms).length_eq
      have htake : (ms.take n).length = n := by
        rw [List.length_take]
        omega
      have hdrop : (ms.drop n).length = n := by
        rw [List.length_drop]
        omega
      have hfirst : x = .operation qp.numOpsAssembled →
          ∃ i, x = .operation i ∧ i < qp.numOpsAssembled + count m n := fun h =>
        ⟨_, h, by omega⟩
      rw [hb] at hx
      dsimp only at hx
      rcases List.mem_append.mp hx with hx | hx
      · rcases List.mem_cons.mp hx with hx | hx
        · exact Or.inr (Or.inl (hfirst hx))
        · rcases sourceAccesses_bounds (a := qp.numOpsAssembled) hm _ _ _ 0 _
            (by rw [Nat.zero_add]; exact htake.le) (by simp; rfl) x hx with ⟨i, rfl, hi⟩ | h
          · exact Or.inl ⟨i, rfl, by omega⟩
          · exact Or.inr (Or.inl h)
      · split at hx
        · rcases List.mem_cons.mp hx with hx | hx
          · exact Or.inr (Or.inl (hfirst hx))
          · rcases destinationAccesses_bounds (a := qp.numOpsAssembled) hm _ _ _ _ 0 _
              (by rw [Nat.zero_add]; exact hdrop.le) (fun _ => by simp; rfl) x hx with h | h
            · exact Or.inl h
            · exact Or.inr (Or.inr h)
        · simp at hx

end Loops

namespace Machine

variable {st : Machine} {env : Env}

/-! ## One step -/

theorem assembleAccesses_eq (hb : st.cfg.Bounds) (env : Env) :
    st.assembleAccesses env = [] ∨
    (0 < st.burst ∧ ∃ (κ δ : Type) (burst : BurstSource κ δ) (source : κ) (destination : δ),
      st.assembleAccesses env = burstAccesses st.cfg.maxSglSegs.toNat st.burst
        (count st.cfg.maxSglSegs.toNat st.burst) burst env.bulk st.qp source destination) := by
  have hcount := toUInt16_count hb (Nat.min_le_right st.remaining.length
    ((st.cfg.burstSize.toNat - st.qp.numOpsAssembled) * st.cfg.maxSglSegs.toNat))
  change toUInt16 (count _ st.burst) = count _ st.burst at hcount
  have hpos : st.remaining.length ≠ 0 → ¬ st.cfg.burstSize.toNat ≤ st.qp.numOpsAssembled →
      0 < st.burst := fun hrem hroom => Nat.lt_min.mpr
    ⟨Nat.pos_of_ne_zero hrem, Nat.mul_pos (by omega) hb.maxSglSegs_pos⟩
  unfold assembleAccesses
  cases hcall : st.call with
  | compress input offset out =>
      have hrem : st.remaining = inputSpans st.cfg.decompressedSegSize.toNat input offset := by
        rw [remaining, hcall, Call.remaining]
      dsimp only
      split_ifs with hstop
      · exact Or.inl rfl
      · right
        obtain ⟨hne, hroom⟩ := not_or.mp hstop
        have hburst : (min (input.size - offset)
            ((st.cfg.burstSize.toNat - st.qp.numOpsAssembled) * st.cfg.maxSglSegs.toNat *
              st.cfg.decompressedSegSize.toNat) + st.cfg.decompressedSegSize.toNat - 1) /
                st.cfg.decompressedSegSize.toNat = st.burst := by
          rw [burst, hrem, length_inputSpans]
          exact count_min_mul hb.segSize_pos _ _
        refine ⟨hpos ?_ hroom, Nat, ZoneCursor, compressBurst st.cfg input, offset,
          ⟨st.zones, env.memzones⟩, ?_⟩
        · rw [hrem]
          exact fun h =>
            hne ((inputSpans_eq_nil hb.segSize_pos).mp (List.eq_nil_of_length_eq_zero h))
        · rw [hburst]
          unfold count at hcount
          rw [hcount]
          rfl
  | decompress buffers output index offset size =>
      have hrem : st.remaining = bufferSpans buffers index := by
        rw [remaining, hcall, Call.remaining]
      dsimp only
      split_ifs with hstop
      · exact Or.inl rfl
      · right
        obtain ⟨hne, hroom⟩ := not_or.mp hstop
        have hburst : min ((st.cfg.burstSize.toNat - st.qp.numOpsAssembled) *
            st.cfg.maxSglSegs.toNat) (buffers.length - index) = st.burst := by
          rw [burst, hrem, length_bufferSpans, Nat.min_comm]
        refine ⟨hpos ?_ hroom, Nat, Nat,
          decompressBurst st.cfg buffers output.data, index, offset, ?_⟩
        · rw [hrem, length_bufferSpans]
          exact hne
        · rw [hburst]
          unfold count at hcount
          rw [hcount]
          rfl

theorem operation_inBounds {i : Nat} (hi : i < st.cfg.burstSize.toNat) :
    Access.InBounds st.cfg (.operation i) :=
  ⟨hi, by rw [Configuration.numOperations]; omega⟩

theorem assembleAccesses_inBounds (hst : st.Ordered) (hb : st.cfg.Bounds) (env : Env) :
    ∀ x ∈ st.assembleAccesses env, x.InBounds st.cfg := by
  intro x hx
  have hassembled := hst.assembled_le
  rcases assembleAccesses_eq hb env with hnil | ⟨hpos, κ, δ, burst, source, destination, he⟩
  · rw [hnil] at hx
    simp at hx
  · rw [he] at hx
    have hsegs : st.burst ≤ (st.cfg.burstSize.toNat - st.qp.numOpsAssembled) *
        st.cfg.maxSglSegs.toNat := Nat.min_le_right _ _
    have hcount := (count_le_iff hb.maxSglSegs_pos).mpr hsegs
    have hroom : 0 < st.cfg.burstSize.toNat - st.qp.numOpsAssembled := by
      rcases Nat.eq_zero_or_pos (st.cfg.burstSize.toNat - st.qp.numOpsAssembled) with h0 | h0
      · rw [h0, Nat.zero_mul] at hsegs
        omega
      · exact h0
    rcases burstAccesses_bounds hb.maxSglSegs_pos hpos burst env.bulk st.qp source destination x
      hx with ⟨i, rfl, hi⟩ | ⟨i, rfl, hi⟩ | ⟨i, rfl, hi⟩
    · have hmul := Nat.mul_le_mul_right st.cfg.maxSglSegs.toNat
        (Nat.sub_le st.cfg.burstSize.toNat st.qp.numOpsAssembled)
      show i < st.cfg.burstSize.toNat * st.cfg.maxSglSegs.toNat * 2
      omega
    · exact operation_inBounds (by omega)
    · have hpool := Configuration.burstSize_le_numOpsInPool hb.maxSglSegs_pos
      show i < st.cfg.burstSize.toNat + st.cfg.numOpsInPool id
      omega

theorem accumulateAccesses_inBounds (hst : st.Ordered) (numUnusedOps : Nat) :
    ∀ x ∈ accumulateAccesses st.qp numUnusedOps, x.InBounds st.cfg := by
  intro x hx
  have hassembled := hst.assembled_le
  unfold accumulateAccesses at hx
  split_ifs at hx with hunused hmove
  · simp at hx
  · rcases List.mem_append.mp hx with hx | hx
    · obtain ⟨i, hi, rfl⟩ := List.mem_map.mp hx
      exact operation_inBounds (by rw [List.mem_range] at hi; omega)
    · obtain ⟨i, hi, rfl⟩ := List.mem_map.mp hx
      exact operation_inBounds (by rw [List.mem_range'_1] at hi; omega)
  · simp at hx

theorem accesses_inBounds (hst : st.Ordered) (hb : st.cfg.Bounds) (env : Env) :
    ∀ x ∈ st.accesses env, x.InBounds st.cfg := by
  have hpool := Configuration.burstSize_le_numOpsInPool hb.maxSglSegs_pos
  have hdequeued : ∀ i, i < st.cfg.burstSize.toNat →
      Access.InBounds st.cfg (.dequeued (st.cfg.burstSize.toNat + i)) :=
    fun i hi => ⟨Nat.le_add_right _ _, by rw [Configuration.numOperations]; omega⟩
  have hdequeue : ∀ x ∈ (List.range st.cfg.burstSize.toNat).map
      (fun i => Access.dequeued (st.cfg.burstSize.toNat + i)) ++
        (List.range (st.numDequeued env)).map
          (fun idx => Access.dequeued (st.cfg.burstSize.toNat + idx)), x.InBounds st.cfg := by
    intro x hx
    rcases List.mem_append.mp hx with hx | hx
    · obtain ⟨i, hi, rfl⟩ := List.mem_map.mp hx
      exact hdequeued i (List.mem_range.mp hi)
    · obtain ⟨i, hi, rfl⟩ := List.mem_map.mp hx
      have := List.mem_range.mp hi
      unfold numDequeued at this
      exact hdequeued i (by omega)
  intro x hx
  unfold accesses at hx
  split at hx
  · exact assembleAccesses_inBounds hst hb env x hx
  · next n hpc =>
      have hn := (hst.enqueue n hpc).1
      have hassembled := hst.assembled_le
      have hlt := st.cfg.burstSize.toNat_lt
      have hn16 : toUInt16 n = n := toUInt16_of_lt (by omega)
      rw [hn16] at hx
      rcases List.mem_append.mp hx with hx | hx
      · obtain ⟨i, hi, rfl⟩ := List.mem_map.mp hx
        exact operation_inBounds (by rw [List.mem_range] at hi; omega)
      · exact accumulateAccesses_inBounds hst _ x hx
  · exact hdequeue x hx
  · exact hdequeue x hx
  · simp at hx

/-! ## Whole calls -/

/-- The state of a call: it has returned, or its queue pair is in order. -/
def InCall (start st : Machine) : Prop :=
  (∃ status, st.pc = .returned status) ∨
    InOrder start.cfg start.qp.operationPool start.qp.mbufPool st

theorem InCall.step {start : Machine} (h : InCall start st) (hb : start.cfg.Bounds) (debug : Bool)
    (env : Env) : InCall start (Machine.step debug st env) := by
  rcases h with ⟨status, hpc⟩ | h
  · rw [step_returned hpc]
    exact Or.inl ⟨status, hpc⟩
  · by_cases hnf : st.NoFault env
    · exact Or.inr (h.step hb debug hnf).2
    · rcases step_cases (h.cfg_eq ▸ hb) h.ordered debug env with
        ⟨hc, -⟩ | ⟨-, mid, code, message, -, he⟩
      · exact absurd hc hnf
      · rw [he]
        exact Or.inl ⟨_, fail_pc mid code message⟩

/-- Until it returns, a call is in order, whatever the environment answers. -/
theorem Idle.run_inCall (hidle : st.Idle) (hb : st.cfg.Bounds) (request : Request) (debug : Bool)
    (envs : List Env) : InCall st (Runs.run (step debug) (st.start request) envs) :=
  Runs.run_invariant (fun _ env h => h.step hb debug env) envs
    (Or.inr (hidle.start_inOrder request))

/-- The destination segments of the operations that the step makes pending. -/
def newDestinations (st : Machine) (env : Env) : List (Span Block) :=
  match st.pc with
  | .assemble =>
      let st' := (st.assembleFrom env).1
      (st'.qp.pendingOperations.drop st.qp.pendingOperations.length).flatMap fun op =>
        (st'.qp.ops op).destination
  | _ => []

/-- The cursors of a decompress call agree: one slice of the output for every
compressed buffer. -/
structure InStep (buffers : List Buffer) (output : ResizableBuffer) (log : List (Span Block))
    (st : Machine) : Prop where
  call_eq : ∃ index size, st.call = .decompress buffers output index
    (index * st.cfg.decompressedSegSize.toNat) size ∧ index ≤ buffers.length ∧
    log = outputSpans st.cfg.decompressedSegSize.toNat output.data 0 index

theorem InStep.assembleFrom {buffers : List Buffer} {output : ResizableBuffer}
    {log : List (Span Block)} (h : InStep buffers output log st) (hb : st.cfg.Bounds)
    (hpc : st.pc = .assemble) (env : Env) :
    InStep buffers output (log ++ st.newDestinations env) (st.assembleFrom env).1 := by
  obtain ⟨index, size, hcall, hle, hlog⟩ := h.call_eq
  have hout := assembleFrom_spec hb env
  have hnew : st.newDestinations env =
      ((st.assembleFrom env).1.qp.pendingOperations.drop
        st.qp.pendingOperations.length).flatMap fun op =>
          ((st.assembleFrom env).1.qp.ops op).destination := by
    unfold newDestinations
    rw [hpc]
  rw [hnew]
  generalize (st.assembleFrom env).1 = s at hout ⊢
  generalize (st.assembleFrom env).2 = r at hout
  have hsame : ∀ s' : Machine, s'.qp.pendingOperations = st.qp.pendingOperations →
      s'.call = st.call → s'.cfg = st.cfg → InStep buffers output (log ++
        (s'.qp.pendingOperations.drop st.qp.pendingOperations.length).flatMap fun op =>
          (s'.qp.ops op).destination) s' := by
    intro s' hpend hcall' hcfg'
    rw [hpend, List.drop_length, List.flatMap_nil, List.append_nil]
    exact ⟨index, size, by rw [hcall', hcall, hcfg'], hle, by rw [hcfg', hlog]⟩
  cases hout with
  | nothing hstop => exact hsame st rfl rfl rfl
  | noOps hrem hops => exact hsame st rfl rfl rfl
  | noMbufs hne hos hms => exact hsame _ rfl rfl rfl
  | short built hT hne hos hzones =>
      have hdest := built.destinations
      rw [hcall] at hdest
      exact absurd hdest.2.1 (Nat.ne_of_lt hT)
  | @complete _ n os ms ops S T built hT hms hzones =>
      have hdest := built.destinations
      rw [hcall] at hdest
      have hflat : (s.qp.pendingOperations.drop st.qp.pendingOperations.length).flatMap
          (fun op => (s.qp.ops op).destination) = T.map Segment.span := by
        rw [built.state_eq]
        dsimp only
        rw [List.drop_left, ← built.flatMap_mDst hb.maxSglSegs_pos, List.map_flatMap]
        rfl
      have hn : n ≤ st.remaining.length := built.n_eq ▸ Nat.min_le_left _ _
      rw [remaining, hcall, Call.remaining, length_bufferSpans] at hn
      refine ⟨index + n, size, ?_, by omega, ?_⟩
      · rw [built.call_eq, hcall, built.cfg_eq, Nat.add_mul]
        rfl
      · rw [hflat, hdest.2.2.1, hlog, built.cfg_eq, outputSpans_append, Nat.zero_add]

theorem InStep.of_call {buffers : List Buffer} {output : ResizableBuffer}
    {log : List (Span Block)} {st' : Machine} (h : InStep buffers output log st)
    (hcfg : st'.cfg = st.cfg) (hcall : st'.call = st.call) : InStep buffers output log st' := by
  obtain ⟨index, size, he, hle, hlog⟩ := h.call_eq
  exact ⟨index, size, by rw [hcall, he, hcfg], hle, by rw [hlog, hcfg]⟩

/-- The call has returned, or it goes on with the cursors in step. -/
def Covered (cfg : Configuration) (buffers : List Buffer) (output : ResizableBuffer)
    (log : List (Span Block)) (st : Machine) : Prop :=
  (∃ index ≤ buffers.length, log = outputSpans cfg.decompressedSegSize.toNat output.data 0 index) ∧
    ((∃ status, st.pc = .returned status) ∨ InStep buffers output log st)

theorem InStep.covered {buffers : List Buffer} {output : ResizableBuffer}
    {log : List (Span Block)} {st' : Machine} (h : InStep buffers output log st)
    (hst' : (∃ status, st'.pc = .returned status) ∨ InStep buffers output log st') :
    Covered st.cfg buffers output log st' := by
  obtain ⟨index, size, -, hle, hlog⟩ := h.call_eq
  exact ⟨⟨index, hle, hlog⟩, hst'⟩

/-- **Step lemma.** -/
theorem InStep.step {buffers : List Buffer} {output : ResizableBuffer} {log : List (Span Block)}
    (h : InStep buffers output log st) (hst : st.Ordered) (hb : st.cfg.Bounds) (debug : Bool)
    (env : Env) : Covered st.cfg buffers output (log ++ st.newDestinations env)
      (Machine.step debug st env) := by
  have hfinish : ∀ (s : Machine) (log' : List (Span Block)), InStep buffers output log' s →
      (∃ status, s.drainOrFinish.pc = .returned status) ∨
        InStep buffers output log' s.drainOrFinish := by
    intro s log' hs
    rcases s.drainOrFinish_cases with ⟨-, he⟩ | ⟨-, he⟩ <;> rw [he]
    · exact Or.inr (hs.of_call rfl rfl)
    · exact Or.inl ⟨_, finish_pc s⟩
  by_cases hpc : st.pc = .assemble
  · have hassemble := h.assembleFrom hb hpc env
    have hcfg : (st.assembleFrom env).1.cfg = st.cfg := by
      unfold Machine.assembleFrom
      cases st.call <;> rfl
    rw [← hcfg]
    apply hassemble.covered
    unfold Machine.step
    rw [hpc]
    unfold assembleStep
    dsimp only
    generalize st.assembleFrom env = r at hassemble
    obtain ⟨s, result⟩ := r
    cases result with
    | error code => exact Or.inl ⟨_, fail_pc _ _ _⟩
    | ok n =>
        dsimp only
        split_ifs
        · exact Or.inr (hassemble.of_call rfl rfl)
        · exact hfinish s _ hassemble
  · have hnew : st.newDestinations env = [] := by
      unfold newDestinations
      cases hp : st.pc <;> simp_all
    rw [hnew, List.append_nil]
    apply h.covered
    have hretire : InStep buffers output log ((st.afterHandBack env).retire
        (st.queue.take (st.numDequeued env))) := by
      obtain ⟨index, size, hcall, hle, hlog⟩ := h.call_eq
      have hcall' := retire_call hst env (st.queue.take (st.numDequeued env))
      rw [hcall, foldl_dequeueCallback_size] at hcall'
      have hcfg : ((st.afterHandBack env).retire (st.queue.take (st.numDequeued env))).cfg =
          st.cfg := by
        rw [retire_afterHandBack (hst.queue_prefix env).1]
      exact ⟨index, _, by rw [hcall', hcfg], hle, by rw [hlog, hcfg]⟩
    rcases step_cases hb hst debug env with ⟨-, hc⟩ | ⟨-, mid, code, message, -, he⟩
    · generalize Machine.step debug st env = s at hc
      cases hc with
      | built hp => exact absurd hp hpc
      | full hp => exact absurd hp hpc
      | exhausted hp => exact absurd hp hpc
      | enqueued hp hread => exact Or.inr (h.of_call rfl rfl)
      | dequeued hp hsucc => exact Or.inr (hretire.of_call rfl rfl)
      | drained hp hsucc => exact hfinish _ _ hretire
      | returned hp => exact Or.inl ⟨_, hp⟩
    · rw [he]
      exact Or.inl ⟨_, fail_pc mid code message⟩

/-- The destination segments of a `Decompress` are slices of the output, one
after another. -/
theorem Idle.destinations (hidle : st.Idle) (hb : st.cfg.Bounds) (buffers : List Buffer)
    (output : ResizableBuffer) (debug : Bool) (envs : List Env) :
    ∃ index ≤ buffers.length, Runs.collect (step debug) newDestinations
        (st.start (.decompress buffers (some output))) envs =
      outputSpans st.cfg.decompressedSegSize.toNat output.data 0 index := by
  have hstart : Covered st.cfg buffers output []
      (st.start (.decompress buffers (some output))) := by
    refine ⟨⟨0, Nat.zero_le _, rfl⟩, Or.inr ⟨0, 0, ?_, Nat.zero_le _, rfl⟩⟩
    rw [Nat.zero_mul]
    rfl
  have hall : Runs.Along (step debug) (fun _ _ => True)
      (st.start (.decompress buffers (some output))) envs := Runs.along_true _ envs
  have hrun := Runs.Along.invariant_collect (f := newDestinations)
    (I := fun log s => Covered st.cfg buffers output log s ∧ InCall st s) ?_ []
    ⟨hstart, Or.inr (hidle.start_inOrder _)⟩ hall
  · exact hrun.1.1
  · rintro log s env ⟨hcovered, hs⟩ -
    refine ⟨?_, hs.step hb debug env⟩
    have hreturned : ∀ status, s.pc = .returned status →
        Covered st.cfg buffers output (log ++ s.newDestinations env) (step debug s env) := by
      intro status hpc
      have hnew : s.newDestinations env = [] := by
        unfold newDestinations
        rw [hpc]
      rw [hnew, List.append_nil, step_returned hpc]
      exact ⟨hcovered.1, Or.inl ⟨status, hpc⟩⟩
    rcases hs with ⟨status, hpc⟩ | hs
    · exact hreturned status hpc
    rcases hcovered.2 with ⟨status, hpc⟩ | h
    · exact hreturned status hpc
    · have := h.step hs.ordered (hs.cfg_eq ▸ hb) debug env
      rwa [hs.cfg_eq] at this

/-- **Array and buffer bounds.**  In every state of a call on an idle queue pair,
whatever the device and the pools have answered, the next step stays inside the
arrays, with the entries of the device behind those for enqueueing; and all
destination segments of a `Decompress` lie in its output, apart from each other. -/
theorem array_bounds (hcfg : Accepted st.cfg) (hidle : st.Idle) (request : Request) (debug : Bool)
    (envs : List Env) :
    (∀ env, ∀ x ∈ (Runs.run (step debug) (st.start request) envs).accesses env,
      x.InBounds st.cfg) ∧
    ∀ buffers output, request = .decompress buffers (some output) →
      buffers.length * st.cfg.decompressedSegSize.toNat ≤ output.capacity →
      let destinations := Runs.collect (step debug) newDestinations (st.start request) envs
      destinations.Pairwise Span.Disjoint ∧
      ∀ sp ∈ destinations, sp.block = output.data.block ∧ output.data.offset ≤ sp.offset ∧
        sp.offset + sp.length ≤ output.data.offset + output.capacity := by
  have hb := hcfg.bounds
  refine ⟨fun env x hx => ?_, ?_⟩
  · rcases hidle.run_inCall hb request debug envs with ⟨status, hpc⟩ | hs
    · unfold accesses at hx
      rw [hpc] at hx
      simp at hx
    · have := accesses_inBounds hs.ordered (hs.cfg_eq ▸ hb) env x hx
      rwa [hs.cfg_eq] at this
  · rintro buffers output rfl hcapacity
    obtain ⟨index, hle, he⟩ := hidle.destinations hb buffers output debug envs
    dsimp only
    rw [he]
    constructor
    · rw [outputSpans, List.pairwise_map]
      refine List.pairwise_lt_range.imp fun {i j} hij => Or.inr (Or.inl ?_)
      have := Nat.mul_le_mul_right st.cfg.decompressedSegSize.toNat hij
      rw [Nat.succ_mul] at this
      dsimp only
      omega
    · intro sp hsp
      obtain ⟨i, hi, rfl⟩ := List.mem_map.mp hsp
      have hi' : i + 1 ≤ buffers.length := by
        have := List.mem_range.mp hi
        omega
      have := Nat.mul_le_mul_right st.cfg.decompressedSegSize.toNat hi'
      rw [Nat.succ_mul] at this
      exact ⟨rfl, by dsimp only; omega, by dsimp only; omega⟩

/-- The run of three segments in two bursts, before it waits for the device. -/
theorem array_bounds_sample :
    let accesses := (Runs.run (step true)
      ((sampleMachine 1 3).start (.compress (some ⟨⟨.host 0, 0⟩, 20⟩)))
      (sampleSchedule.take 3)).accesses { bulk := ⟨some [2], some [4, 5]⟩ }
    accesses.isEmpty = false ∧ ∀ x ∈ accesses, x.InBounds (sampleConfig 1) :=
  ⟨by decide +kernel, (array_bounds sampleConfig_accepted.1 (sampleMachine_idle 1 3)
    (.compress (some ⟨⟨.host 0, 0⟩, 20⟩)) true (sampleSchedule.take 3)).1
      { bulk := ⟨some [2], some [4, 5]⟩ }⟩

end Machine

end Bitar
