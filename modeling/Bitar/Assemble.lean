import Bitar.QueuePairMemory
import Mathlib.Data.List.Nodup

/-!
# What `AssembleFrom` builds

The two loops of `AssembleFrom` walk over the same operations with different
advance conditions.  Their invariant is stated in closed form: when the
segments `S` have been appended, operation number `j` of the burst holds the
`j`-th piece of `S`, cut into pieces of `maxSglSegs` segments.

**Results.**
* `bulkAllocate_cases`: what `BulkAllocate` can do.
* `appendSources_spec`, `appendDestinations_spec`: the two loops.
* `assembleBurst_spec`: a whole burst, with all its failures.
-/

namespace Bitar

open BlockStore Pieces

/-- The loops respect the segment limit: `maxSglSegs` has 16 bits. -/
theorem maxSglSegs_le (cfg : Configuration) : cfg.maxSglSegs.toNat ≤ maxNbSegs := by
  have := cfg.maxSglSegs.toNat_lt
  unfold maxNbSegs
  omega

/-- `os` can be handed out as `n` free objects of the pool. -/
structure Handable (free : Finset Nat) (n : Nat) (os : List Nat) : Prop where
  length_eq : os.length = n
  nodup : os.Nodup
  free : ∀ o ∈ os, o ∈ free

theorem takeFrom_eq_some {free : Finset Nat} {n : Nat} {answer : Option (List Nat)}
    {objs : List Nat} (h : takeFrom free n answer = some objs) : Handable free n objs := by
  cases answer with
  | none => simp [takeFrom] at h
  | some objs' =>
      simp only [takeFrom] at h
      split_ifs at h with hc
      cases h
      exact ⟨hc.1, hc.2.1, hc.2.2⟩

/-- Either pool can be exhausted; when it is the mbuf pool, the operations have
left their pool already. -/
theorem bulkAllocate_cases (answer : BulkAnswer) (numOps numMbufs : Nat)
    (qp : QueuePairMemory) :
    ((∀ o os, takeFrom qp.operationPool numOps answer.ops ≠ some (o :: os)) ∧
      qp.bulkAllocate answer numOps numMbufs = (qp, .outOfMemory)) ∨
    (∃ os, os ≠ [] ∧ takeFrom qp.operationPool numOps answer.ops = some os ∧
      takeFrom qp.mbufPool numMbufs answer.mbufs = none ∧
      qp.bulkAllocate answer numOps numMbufs = (qp.handOutOps os, .outOfMemory)) ∨
    (∃ os ms, os ≠ [] ∧ takeFrom qp.operationPool numOps answer.ops = some os ∧
      takeFrom qp.mbufPool numMbufs answer.mbufs = some ms ∧
      qp.bulkAllocate answer numOps numMbufs = ((qp.handOutOps os).handOutMbufs ms, .ok)) := by
  unfold QueuePairMemory.bulkAllocate
  cases h1 : takeFrom qp.operationPool numOps answer.ops with
  | none => exact Or.inl ⟨by simp, rfl⟩
  | some os =>
      cases os with
      | nil => exact Or.inl ⟨by simp, rfl⟩
      | cons o os =>
          right
          cases h2 : takeFrom qp.mbufPool numMbufs answer.mbufs with
          | none =>
              left
              exact ⟨o :: os, by simp, rfl, rfl, by simp [QueuePairMemory.handOutOps, h2]⟩
          | some ms =>
              right
              exact ⟨o :: os, ms, by simp, rfl, rfl, by simp [QueuePairMemory.handOutOps, h2]⟩

section Segments

variable {κ δ : Type}

/-- The segments that the source loop appends for the given mbufs. -/
def segmentsFrom (next : κ → (Addr × Nat) × κ) (shinfo : SharedInfo) :
    List Nat → κ → List Segment
  | [], _ => []
  | mbuf :: rest, cursor =>
      ⟨mbuf, (next cursor).1.1, (next cursor).1.2, (next cursor).1.2, shinfo⟩ ::
        segmentsFrom next shinfo rest (next cursor).2

/-- The source cursor after some segments. -/
def cursorAfter (next : κ → (Addr × Nat) × κ) : Nat → κ → κ
  | 0, cursor => cursor
  | k + 1, cursor => cursorAfter next k (next cursor).2

/-- The segments that the destination loop appends until `next` fails, and the
cursor it ends with. -/
def segmentsTaken (next : δ → Option (Addr × Nat) × δ) (shinfo : SharedInfo) :
    List Nat → δ → List Segment × δ
  | [], cursor => ([], cursor)
  | mbuf :: rest, cursor =>
      match next cursor with
      | (none, cursor') => ([], cursor')
      | (some seg, cursor') =>
          (⟨mbuf, seg.1, seg.2, seg.2, shinfo⟩ :: (segmentsTaken next shinfo rest cursor').1,
            (segmentsTaken next shinfo rest cursor').2)

theorem map_mbuf_segmentsFrom (next : κ → (Addr × Nat) × κ) (shinfo : SharedInfo) :
    ∀ (mbufs : List Nat) (cursor : κ),
      (segmentsFrom next shinfo mbufs cursor).map Segment.mbuf = mbufs
  | [], _ => rfl
  | mbuf :: rest, cursor => by
      simp [segmentsFrom, map_mbuf_segmentsFrom next shinfo rest]

@[simp] theorem length_segmentsFrom (next : κ → (Addr × Nat) × κ) (shinfo : SharedInfo)
    (mbufs : List Nat) (cursor : κ) :
    (segmentsFrom next shinfo mbufs cursor).length = mbufs.length := by
  rw [← List.length_map (f := Segment.mbuf), map_mbuf_segmentsFrom]

/-- The mbufs of the segments taken are the first ones offered. -/
theorem map_mbuf_segmentsTaken (next : δ → Option (Addr × Nat) × δ) (shinfo : SharedInfo) :
    ∀ (mbufs : List Nat) (cursor : δ),
      (segmentsTaken next shinfo mbufs cursor).1.map Segment.mbuf =
        mbufs.take (segmentsTaken next shinfo mbufs cursor).1.length
  | [], _ => rfl
  | mbuf :: rest, cursor => by
      unfold segmentsTaken
      split
      · rfl
      · simp [map_mbuf_segmentsTaken next shinfo rest]

theorem length_segmentsTaken_le (next : δ → Option (Addr × Nat) × δ) (shinfo : SharedInfo)
    (mbufs : List Nat) (cursor : δ) :
    (segmentsTaken next shinfo mbufs cursor).1.length ≤ mbufs.length := by
  have h := congrArg List.length (map_mbuf_segmentsTaken next shinfo mbufs cursor)
  simp only [List.length_map, List.length_take] at h
  omega

end Segments

section Loops

variable {κ δ : Type} {m n a : Nat} {os : List Nat}

theorem piece_length_lt (hm : 0 < m) {α : Type} (S : List α) :
    (piece m (S.length / m) S).length < m := by
  have h := Nat.div_add_mod S.length m
  have hlt := Nat.mod_lt S.length hm
  rw [Nat.mul_comm] at h
  rw [length_piece]
  omega

theorem div_lt_count (hm : 0 < m) {t : Nat} (ht : t < n) : t / m < count m n := by
  rw [lt_count_iff hm]
  exact (Nat.div_mul_le_self t m).trans_lt ht

theorem pred_div_eq (hm : 0 < m) (hn : 0 < n) : (n - 1) / m = count m n - 1 := by
  have h1 : (n - 1) / m < count m n := div_lt_count hm (by omega)
  have h2 := count_mul_lt hm hn
  have h3 : count m n - 1 ≤ (n - 1) / m := by
    rw [Nat.le_div_iff_mul_le hm]
    omega
  omega

/-- The invariant of both loops.  The operations `os` of the burst stand in
`operations_` from `a` on; number `k` is the current one, and number `j` is `op j`. -/
structure InLoop (a : Nat) (os : List Nat) (k : Nat) (op : Nat → CompOp) (st : Assembly κ) :
    Prop where
  operations : ∀ (j : Nat) (h : j < os.length), st.qp.operations () (a + j) = os[j]
  index : st.index = a + k
  ops : ∀ (j : Nat) (h : j < os.length), st.qp.ops os[j] = op j

section InLoop

variable {k : Nat} {op : Nat → CompOp} {st : Assembly κ}

theorem InLoop.current (h : InLoop a os k op st) (hk : k < os.length) :
    st.qp.operations () st.index = os[k] := by
  rw [h.index]
  exact h.operations k hk

/-- Only the current operation changes. -/
theorem InLoop.update (h : InLoop a os k op st) (hnd : os.Nodup) (hk : k < os.length) {x : CompOp}
    {op' : Nat → CompOp} (hop : ∀ j, op' j = if j = k then x else op j) (j : Nat)
    (hj : j < os.length) : Function.update st.qp.ops os[k] x os[j] = op' j := by
  rw [hop]
  by_cases hjk : j = k
  · subst hjk
    rw [if_pos rfl, Function.update_self]
  · have hne : os[j] ≠ os[k] := fun e => hjk ((List.Nodup.getElem_inj_iff hnd).mp e)
    rw [if_neg hjk, Function.update_of_ne hne, h.ops j hj]

end InLoop

/-- The number of the operation that is open when `t` segments have been
appended; after the last segment no further one is opened. -/
def openOp (m n t : Nat) : Nat :=
  min (t / m) (count m n - 1)

theorem openOp_of_lt (hm : 0 < m) {t : Nat} (ht : t < n) : openOp m n t = t / m := by
  have := div_lt_count hm ht
  unfold openOp
  omega

theorem openOp_self (hm : 0 < m) (hn : 0 < n) : openOp m n n = count m n - 1 := by
  have h : count m n - 1 ≤ n / m := by
    rw [Nat.le_div_iff_mul_le hm]
    exact Nat.le_of_lt (count_mul_lt hm hn)
  unfold openOp
  omega

theorem openOp_succ (hm : 0 < m) {t : Nat} (ht : t < n) :
    openOp m n (t + 1) = if (t + 1) % m = 0 ∧ t + 1 < n then t / m + 1 else t / m := by
  by_cases hlt : t + 1 < n
  · rw [openOp_of_lt hm hlt]
    by_cases hdvd : (t + 1) % m = 0
    · rw [if_pos ⟨hdvd, hlt⟩, Nat.succ_div_of_mod_eq_zero hdvd]
    · rw [if_neg fun hc => hdvd hc.1, Nat.succ_div_of_mod_ne_zero hdvd]
  · obtain rfl : t + 1 = n := by omega
    rw [if_neg fun hc => hlt hc.2, openOp_self hm (Nat.succ_pos t),
      ← pred_div_eq hm (Nat.succ_pos t)]
    rfl

/-- **The source loop.**  With the segments `S` appended already, the loop
appends one segment for every remaining mbuf, starts a new operation after every
`m` segments, and never fails. -/
theorem appendSources_spec (hm : 0 < m) (hmax : m ≤ maxNbSegs) (hn : 0 < n) (hnd : os.Nodup)
    (hlen : os.length = count m n) (next : κ → (Addr × Nat) × κ) (shinfo : SharedInfo) :
    ∀ (rest : List Nat) (S : List Segment) (st : Assembly κ), S.length + rest.length = n →
      InLoop a os (openOp m n S.length) (fun j => opWith (piece m j S) []) st →
      ∃ ops : Nat → CompOp,
        appendSources m n next shinfo rest S.length st =
          (⟨{ st.qp with
                pendingOperations := st.qp.pendingOperations ++ os.drop (openOp m n S.length + 1)
                ops := ops },
            a + (count m n - 1), cursorAfter next rest.length st.cursor⟩, .ok) ∧
        (∀ (j : Nat) (h : j < os.length),
          ops os[j] = opWith (piece m j (S ++ segmentsFrom next shinfo rest st.cursor)) []) ∧
        (∀ o, o ∉ os → ops o = st.qp.ops o)
  | [], S, st, hsum, h => by
      obtain rfl : S.length = n := hsum
      have hindex := h.index
      have hdrop : os.drop (count m S.length - 1 + 1) = [] :=
        List.drop_eq_nil_of_le (by omega)
      rw [openOp_self hm hn] at hindex ⊢
      refine ⟨st.qp.ops, ?_, ?_, fun _ _ => rfl⟩
      · rw [hdrop, List.append_nil, ← hindex]
        rfl
      · simpa [segmentsFrom] using h.ops
  | mbuf :: rest, S, st, hsum, h => by
      rw [List.length_cons] at hsum
      have ht : S.length < n := by omega
      rw [openOp_of_lt hm ht] at h ⊢
      have hk : S.length / m < os.length := hlen ▸ div_lt_count hm ht
      have happ := appendData_chainOf ((piece_length_lt hm S).trans_le hmax) mbuf
        (next st.cursor).1.1 (next st.cursor).1.2 shinfo
      set seg : Segment :=
        ⟨mbuf, (next st.cursor).1.1, (next st.cursor).1.2, (next st.cursor).1.2, shinfo⟩
      have hopen := openOp_succ hm ht
      have hlen' : (S ++ [seg]).length = S.length + 1 := by simp
      have hsum' : (S ++ [seg]).length + rest.length = n := by omega
      have hsegs : S ++ segmentsFrom next shinfo (mbuf :: rest) st.cursor =
          S ++ [seg] ++ segmentsFrom next shinfo rest (next st.cursor).2 := by
        rw [List.append_assoc]
        rfl
      -- the operations after this segment
      have hops : ∀ (j : Nat) (h : j < os.length), (st.qp.setSrc os[S.length / m]
          (chainOf (piece m (S.length / m) S ++ [seg]))).ops os[j] =
            opWith (piece m j (S ++ [seg])) [] := by
        refine h.update hnd hk fun j => ?_
        rw [piece_append_singleton hm, h.ops _ hk]
        split_ifs with hj
        · rw [hj]
          rfl
        · rfl
      have hother : ∀ o, o ∉ os → (st.qp.setSrc os[S.length / m]
          (chainOf (piece m (S.length / m) S ++ [seg]))).ops o = st.qp.ops o := by
        intro o ho
        exact QueuePairMemory.setSrc_ops_of_ne _
          (fun e => ho (by rw [e]; exact List.getElem_mem hk)) _
      unfold appendSources
      simp only [h.current hk, h.ops _ hk, opWith, happ, if_true]
      by_cases hnext : (S.length + 1) % m = 0 ∧ S.length + 1 < n
      · -- the next segment goes to a new operation
        rw [if_pos hnext, ← hlen'] at hopen
        rw [if_pos hnext]
        have hk' : S.length / m + 1 < os.length := by
          rw [hlen, ← Nat.succ_div_of_mod_eq_zero hnext.1]
          exact div_lt_count hm hnext.2
        have hcur : st.qp.operations () (st.index + 1) = os[S.length / m + 1] := by
          rw [h.index, Nat.add_assoc]
          exact h.operations _ hk'
        obtain ⟨ops, h1, h2, h3⟩ := appendSources_spec hm hmax hn hnd hlen next shinfo rest
          (S ++ [seg])
          ⟨(st.qp.setSrc os[S.length / m] (chainOf (piece m (S.length / m) S ++ [seg]))).pushPending
            (st.qp.operations () (st.index + 1)), st.index + 1, (next st.cursor).2⟩ hsum'
          ⟨h.operations, by rw [hopen, h.index, Nat.add_assoc], hops⟩
        rw [hopen, hlen'] at h1
        refine ⟨ops, h1.trans ?_, fun j hj => (h2 j hj).trans (by rw [hsegs]; rfl),
          fun o ho => (h3 o ho).trans (hother o ho)⟩
        rw [hcur, List.drop_eq_getElem_cons hk']
        simp only [QueuePairMemory.pushPending, QueuePairMemory.setSrc, List.append_assoc,
          List.singleton_append, List.length_cons, cursorAfter]
      · rw [if_neg hnext, ← hlen'] at hopen
        rw [if_neg hnext]
        obtain ⟨ops, h1, h2, h3⟩ := appendSources_spec hm hmax hn hnd hlen next shinfo rest
          (S ++ [seg])
          ⟨st.qp.setSrc os[S.length / m] (chainOf (piece m (S.length / m) S ++ [seg])), st.index,
            (next st.cursor).2⟩ hsum' ⟨h.operations, by rw [hopen, h.index], hops⟩
        rw [hopen, hlen'] at h1
        exact ⟨ops, h1, fun j hj => (h2 j hj).trans (by rw [hsegs]; rfl),
          fun o ho => (h3 o ho).trans (hother o ho)⟩

/-- How many operations of the burst have got their last destination segment
when `t` segments have been appended. -/
def closedOps (m n t : Nat) : Nat :=
  if t = n then count m n else t / m

theorem closedOps_succ (hm : 0 < m) {t : Nat} (ht : t < n) :
    closedOps m n (t + 1) = if (t + 1) % m = 0 ∨ t + 1 = n then t / m + 1 else t / m := by
  unfold closedOps
  by_cases hn : t + 1 = n
  · have := pred_div_eq (n := n) hm (Nat.zero_lt_of_lt ht)
    have hpos := count_pos hm (Nat.zero_lt_of_lt ht)
    rw [if_pos hn, if_pos (Or.inr hn), show t = n - 1 by omega]
    omega
  · rw [if_neg hn]
    by_cases hdvd : (t + 1) % m = 0
    · rw [if_pos (Or.inl hdvd), Nat.succ_div_of_mod_eq_zero hdvd]
    · rw [if_neg (by simp [hdvd, hn]), Nat.succ_div_of_mod_ne_zero hdvd]

theorem closedOps_of_lt {t : Nat} (ht : t < n) : closedOps m n t = t / m :=
  if_neg (Nat.ne_of_lt ht)

/-- Operation number `j` of a burst of `n` segments, with the source segments
`S` and the destination segments `D` appended so far. -/
def opAt (m n : Nat) (xform : Xform) (S D : List Segment) (j : Nat) : CompOp :=
  if j < closedOps m n D.length then builtOp xform (piece m j S) (piece m j D)
  else opWith (piece m j S) (piece m j D)

@[simp] theorem opAt_mSrc (m n : Nat) (xform : Xform) (S D : List Segment) (j : Nat) :
    (opAt m n xform S D j).mSrc.segs = piece m j S := by
  unfold opAt
  split_ifs <;> rfl

@[simp] theorem opAt_mDst (m n : Nat) (xform : Xform) (S D : List Segment) (j : Nat) :
    (opAt m n xform S D j).mDst.segs = piece m j D := by
  unfold opAt
  split_ifs <;> rfl

/-- One round of the destination loop, on the current operation. -/
theorem opAt_append_singleton (hm : 0 < m) {xform : Xform} {S D : List Segment} (seg : Segment)
    (hlt : D.length < n) (j : Nat) :
    opAt m n xform S (D ++ [seg]) j =
      if j = D.length / m then
        if (D.length + 1) % m = 0 ∨ D.length + 1 = n then
          builtOp xform (piece m j S) (piece m j D ++ [seg])
        else opWith (piece m j S) (piece m j D ++ [seg])
      else opAt m n xform S D j := by
  have hlen : (D ++ [seg]).length = D.length + 1 := by simp
  unfold opAt
  rw [piece_append_singleton hm, hlen, closedOps_succ hm hlt, closedOps_of_lt hlt]
  by_cases hj : j = D.length / m
  · subst hj
    split_ifs with h1 h2 <;> first | rfl | omega
  · split_ifs with h1 h2 h3 <;> first | rfl | omega

/-- **The destination loop.**  It appends the segments that `next` yields and
stops with an I/O error when there are too few of them. -/
theorem appendDestinations_spec (hm : 0 < m) (hmax : m ≤ maxNbSegs) (hnd : os.Nodup)
    (hlen : os.length = count m n) (next : δ → Option (Addr × Nat) × δ) (shinfo : SharedInfo)
    (xform : Xform) (S : List Segment) :
    ∀ (rest : List Nat) (D : List Segment) (st : Assembly δ), D.length + rest.length = n →
      InLoop a os (closedOps m n D.length) (opAt m n xform S D) st →
      ∃ ops : Nat → CompOp,
        appendDestinations m n next shinfo xform rest D.length st =
          (⟨{ st.qp with ops := ops },
            a + closedOps m n (D ++ (segmentsTaken next shinfo rest st.cursor).1).length,
            (segmentsTaken next shinfo rest st.cursor).2⟩,
            if (segmentsTaken next shinfo rest st.cursor).1.length = rest.length then .ok
            else .ioError) ∧
        (∀ (j : Nat) (h : j < os.length), ops os[j] =
          opAt m n xform S (D ++ (segmentsTaken next shinfo rest st.cursor).1) j) ∧
        (∀ o, o ∉ os → ops o = st.qp.ops o)
  | [], D, st, hsum, h => by
      refine ⟨st.qp.ops, ?_, ?_, fun _ _ => rfl⟩
      · simp [appendDestinations, segmentsTaken, ← h.index]
      · simpa [segmentsTaken] using h.ops
  | mbuf :: rest, D, st, hsum, h => by
      rw [List.length_cons] at hsum
      have ht : D.length < n := by omega
      rw [closedOps_of_lt ht] at h
      have hk : D.length / m < os.length := hlen ▸ div_lt_count hm ht
      unfold appendDestinations segmentsTaken
      cases hnext : next st.cursor with
      | mk taken cursor =>
      cases taken with
      | none =>
          -- `Take` fails: the operations stay as they are
          refine ⟨st.qp.ops, ?_, ?_, fun _ _ => rfl⟩
          · simp [h.index, closedOps_of_lt ht]
          · simpa using h.ops
      | some t =>
          obtain ⟨addr, len⟩ := t
          set seg : Segment := ⟨mbuf, addr, len, len, shinfo⟩
          have hop : st.qp.ops os[D.length / m] =
              opWith (piece m (D.length / m) S) (piece m (D.length / m) D) := by
            rw [h.ops _ hk, opAt, closedOps_of_lt ht, if_neg (Nat.lt_irrefl _)]
          have happ : appendData (chainOf (piece m (D.length / m) D)) mbuf addr len shinfo =
              (chainOf (piece m (D.length / m) D ++ [seg]), .ok) :=
            appendData_chainOf ((piece_length_lt hm D).trans_le hmax) mbuf addr len shinfo
          have hlen' : (D ++ [seg]).length = D.length + 1 := by simp
          -- the current operation after this segment
          obtain ⟨x, hx⟩ : ∃ x, x = opAt m n xform S (D ++ [seg]) (D.length / m) := ⟨_, rfl⟩
          have hupdate : ∀ j, opAt m n xform S (D ++ [seg]) j =
              if j = D.length / m then x else opAt m n xform S D j := by
            intro j
            split_ifs with hj
            · rw [hx, hj]
            · rw [opAt_append_singleton hm seg ht, if_neg hj]
          rw [opAt_append_singleton hm seg ht, if_pos rfl] at hx
          obtain ⟨ops, h1, h2, h3⟩ := appendDestinations_spec hm hmax hnd hlen next shinfo
            xform S rest (D ++ [seg])
            ⟨{ st.qp with ops := Function.update st.qp.ops os[D.length / m] x },
              a + closedOps m n (D ++ [seg]).length, cursor⟩
            (by omega) ⟨h.operations, rfl, h.update hnd hk hupdate⟩
          refine ⟨ops, ?_, by simpa using h2, fun o ho => (h3 o ho).trans ?_⟩
          · rw [hlen', closedOps_succ hm ht] at h1
            simp only [h.current hk, hop, opWith, happ, if_true]
            by_cases hclose : (D.length + 1) % m = 0 ∨ D.length + 1 = n
            · -- the operation has got its last segment
              rw [if_pos hclose] at h1 hx ⊢
              have hqp : (st.qp.setDst os[D.length / m]
                  (chainOf (piece m (D.length / m) D ++ [seg]))).updateOperation
                    os[D.length / m] xform =
                  { st.qp with ops := Function.update st.qp.ops os[D.length / m] x } := by
                simp [QueuePairMemory.setDst, QueuePairMemory.updateOperation, hop, hx, builtOp]
                rfl
              rw [hqp, h.index, Nat.add_assoc, h1]
              simp
            · rw [if_neg hclose] at h1 hx ⊢
              have hqp : st.qp.setDst os[D.length / m]
                  (chainOf (piece m (D.length / m) D ++ [seg])) =
                  { st.qp with ops := Function.update st.qp.ops os[D.length / m] x } := by
                simp [QueuePairMemory.setDst, hop, hx]
                rfl
              rw [hqp, h.index, h1]
              simp
          · exact Function.update_of_ne (fun e => ho (by rw [e]; exact List.getElem_mem hk)) ..

end Loops

section Burst

variable {κ δ : Type} {m n : Nat}

/-- The source segments of a burst, and what its destination cursor yields. -/
def BurstSource.sources (burst : BurstSource κ δ) (n : Nat) (ms : List Nat) (source : κ) :
    List Segment :=
  segmentsFrom burst.nextSource burst.sourceInfo (ms.take n) source

def BurstSource.taken (burst : BurstSource κ δ) (n : Nat) (ms : List Nat) (destination : δ) :
    List Segment × δ :=
  segmentsTaken burst.nextDestination burst.destinationInfo (ms.drop n) destination

/-- The burst got the operations `os` and the mbufs `ms`.  It is complete when
there was a destination segment for every source segment; otherwise it failed
and left its operations pending as they were. -/
structure BurstBuilt (m n : Nat) (burst : BurstSource κ δ) (answer : BulkAnswer)
    (qp : QueuePairMemory) (source : κ) (destination : δ) (os ms : List Nat) (ops : Nat → CompOp)
    (r : BurstResult κ δ) : Prop where
  ops_taken : takeFrom qp.operationPool (count m n) answer.ops = some os
  ops_ne_nil : os ≠ []
  mbufs_taken : takeFrom qp.mbufPool (n * 2) answer.mbufs = some ms
  result : r =
    ⟨{ qp with
        numOpsAssembled := qp.numOpsAssembled +
          (if (burst.taken n ms destination).1.length = n then count m n else 0)
        pendingOperations := qp.pendingOperations ++ os
        mbufPool := qp.mbufPool \ ms.toFinset
        operationPool := qp.operationPool \ os.toFinset
        operations := write qp.operations () qp.numOpsAssembled os
        mbufs := ms
        ops := ops },
      cursorAfter burst.nextSource n source, (burst.taken n ms destination).2,
      if (burst.taken n ms destination).1.length = n then .ok (qp.numOpsAssembled + count m n)
      else .error .ioError⟩
  ops_eq : ∀ (j : Nat) (h : j < os.length), ops os[j] =
    opAt m n burst.xform (burst.sources n ms source) (burst.taken n ms destination).1 j
  ops_other : ∀ o, o ∉ os → ops o = qp.ops o

section Loops

variable {os ms : List Nat} {qp : QueuePairMemory}

/-- The source loop on operations that have just been handed out. -/
theorem appendSources_of_fresh (hm : 0 < m) (hmax : m ≤ maxNbSegs) (hn : 0 < n) (hnd : os.Nodup)
    (hlen : os.length = count m n) (hms : ms.length = n * 2)
    (harr : ∀ (j : Nat) (h : j < os.length), qp.operations () (qp.numOpsAssembled + j) = os[j])
    (hops : ∀ (j : Nat) (h : j < os.length), qp.ops os[j] = {}) (burst : BurstSource κ δ)
    (source : κ) :
    ∃ ops : Nat → CompOp,
      appendSources m n burst.nextSource burst.sourceInfo (ms.take n) 0
          ⟨qp.pushPending (qp.operations () qp.numOpsAssembled), qp.numOpsAssembled, source⟩ =
        (⟨{ qp with
              pendingOperations := qp.pendingOperations ++ os
              ops := ops },
          qp.numOpsAssembled + (count m n - 1), cursorAfter burst.nextSource n source⟩, .ok) ∧
      (∀ (j : Nat) (h : j < os.length),
        ops os[j] = opWith (piece m j (burst.sources n ms source)) []) ∧
      (∀ o, o ∉ os → ops o = qp.ops o) := by
  have hpos : 0 < os.length := hlen ▸ count_pos hm hn
  have htake : (ms.take n).length = n := by
    rw [List.length_take]
    omega
  have hopen : openOp m n ([] : List Segment).length = 0 := by
    rw [List.length_nil, openOp_of_lt hm hn, Nat.zero_div]
  obtain ⟨ops, h1, h2, h3⟩ := appendSources_spec (a := qp.numOpsAssembled) hm hmax hn hnd hlen
    burst.nextSource burst.sourceInfo (ms.take n) []
    ⟨qp.pushPending (qp.operations () qp.numOpsAssembled), qp.numOpsAssembled, source⟩
    (by rw [List.length_nil, Nat.zero_add, htake])
    ⟨harr, by rw [hopen, Nat.add_zero], fun j h => by
      rw [show piece m j ([] : List Segment) = [] from piece_eq_nil (Nat.zero_le _)]
      exact hops j h⟩
  refine ⟨ops, h1.trans ?_, h2, h3⟩
  -- the first operation has been saved already
  have hfirst : qp.operations () qp.numOpsAssembled = os[0] := harr 0 hpos
  have hpending : qp.pendingOperations ++ [os[0]] ++ os.drop (0 + 1) =
      qp.pendingOperations ++ os := by
    rw [List.append_assoc, List.singleton_append, ← List.drop_eq_getElem_cons hpos, List.drop_zero]
  rw [hopen, htake, hfirst]
  simp only [QueuePairMemory.pushPending, hpending]

/-- The destination loop on operations that have all their source segments. -/
theorem appendDestinations_of_sources (hm : 0 < m) (hmax : m ≤ maxNbSegs) (hn : 0 < n)
    (hnd : os.Nodup) (hlen : os.length = count m n) (hms : ms.length = n * 2)
    (harr : ∀ (j : Nat) (h : j < os.length), qp.operations () (qp.numOpsAssembled + j) = os[j])
    {S : List Segment} (hops : ∀ (j : Nat) (h : j < os.length),
      qp.ops os[j] = opWith (piece m j S) []) (burst : BurstSource κ δ) (destination : δ) :
    ∃ ops : Nat → CompOp,
      appendDestinations m n burst.nextDestination burst.destinationInfo burst.xform (ms.drop n) 0
          ⟨qp, qp.numOpsAssembled, destination⟩ =
        (⟨{ qp with ops := ops },
          qp.numOpsAssembled + closedOps m n (burst.taken n ms destination).1.length,
          (burst.taken n ms destination).2⟩,
          if (burst.taken n ms destination).1.length = n then .ok else .ioError) ∧
      (∀ (j : Nat) (h : j < os.length),
        ops os[j] = opAt m n burst.xform S (burst.taken n ms destination).1 j) ∧
      (∀ o, o ∉ os → ops o = qp.ops o) := by
  have hdrop : (ms.drop n).length = n := by
    rw [List.length_drop]
    omega
  have hclosed : closedOps m n ([] : List Segment).length = 0 := by
    rw [List.length_nil, closedOps_of_lt hn, Nat.zero_div]
  obtain ⟨ops, h1, h2, h3⟩ := appendDestinations_spec (a := qp.numOpsAssembled) hm hmax hnd hlen
    burst.nextDestination burst.destinationInfo burst.xform S (ms.drop n) []
    ⟨qp, qp.numOpsAssembled, destination⟩ (by rw [List.length_nil, Nat.zero_add, hdrop])
    ⟨harr, by rw [hclosed, Nat.add_zero], fun j h => by
      rw [opAt, hclosed, if_neg (Nat.not_lt_zero j),
        show piece m j ([] : List Segment) = [] from piece_eq_nil (Nat.zero_le _)]
      exact hops j h⟩
  rw [hdrop] at h1
  exact ⟨ops, h1, h2, h3⟩

end Loops

/-- Everything that one burst can do. -/
theorem assembleBurst_spec (hm : 0 < m) (hmax : m ≤ maxNbSegs) (hn : 0 < n)
    (burst : BurstSource κ δ) (answer : BulkAnswer) (qp : QueuePairMemory) (source : κ)
    (destination : δ) :
    ((∀ o os, takeFrom qp.operationPool (count m n) answer.ops ≠ some (o :: os)) ∧
      assembleBurst m n (count m n) burst answer qp source destination =
        ⟨qp, source, destination, .error .outOfMemory⟩) ∨
    (∃ os, os ≠ [] ∧ takeFrom qp.operationPool (count m n) answer.ops = some os ∧
      takeFrom qp.mbufPool (n * 2) answer.mbufs = none ∧
      assembleBurst m n (count m n) burst answer qp source destination =
        ⟨qp.handOutOps os, source, destination, .error .outOfMemory⟩) ∨
    (∃ os ms ops, BurstBuilt m n burst answer qp source destination os ms ops
      (assembleBurst m n (count m n) burst answer qp source destination)) := by
  rcases bulkAllocate_cases answer (count m n) (n * 2) qp with
    ⟨hnone, hb⟩ | ⟨os, hne, hos, hms, hb⟩ | ⟨os, ms, hne, hos, hms, hb⟩
  · left
    exact ⟨hnone, by simp [assembleBurst, hb]⟩
  · right; left
    exact ⟨os, hne, hos, hms, by simp [assembleBurst, hb]⟩
  · right; right
    obtain ⟨hlen, hnd, -⟩ := takeFrom_eq_some hos
    have hmsLen := (takeFrom_eq_some hms).length_eq
    set qp₁ := (qp.handOutOps os).handOutMbufs ms
    have harr : ∀ (j : Nat) (h : j < os.length),
        qp₁.operations () (qp.numOpsAssembled + j) = os[j] := fun j h =>
      write_apply_self qp.operations () qp.numOpsAssembled os h
    have hfresh : ∀ (j : Nat) (h : j < os.length), qp₁.ops os[j] = {} := fun j h =>
      if_pos (List.getElem_mem h)
    obtain ⟨ops₂, hsrc, h2, h3⟩ :=
      appendSources_of_fresh hm hmax hn hnd hlen hmsLen harr hfresh burst source
    let qp₂ : QueuePairMemory :=
      { qp₁ with
        pendingOperations := qp.pendingOperations ++ os
        ops := ops₂ }
    have harr₂ : ∀ (j : Nat) (h : j < os.length),
        qp₂.operations () (qp₂.numOpsAssembled + j) = os[j] := harr
    obtain ⟨ops₃, hdst, h5, h6⟩ :=
      appendDestinations_of_sources hm hmax hn hnd hlen hmsLen harr₂ h2 burst destination
    refine ⟨os, ms, ops₃, hos, hne, hms, ?_, h5,
      fun o ho => (h6 o ho).trans ((h3 o ho).trans (if_neg ho))⟩
    have hsrc' : appendSources m n burst.nextSource burst.sourceInfo (qp₁.mbufs.take n) 0
        ⟨qp₁.pushPending (qp₁.operations () qp₁.numOpsAssembled), qp₁.numOpsAssembled, source⟩ =
        _ := hsrc
    have hdst' : appendDestinations m n burst.nextDestination burst.destinationInfo burst.xform
        (qp₁.mbufs.drop n) 0 ⟨{ qp₁ with
          pendingOperations := qp₁.pendingOperations ++ os
          ops := ops₂ }, qp₁.numOpsAssembled, destination⟩ = _ := hdst
    unfold assembleBurst
    simp only [hb, hsrc', hdst']
    by_cases hall : (burst.taken n ms destination).1.length = n
    · simp only [hall, closedOps, if_true]
      rfl
    · simp only [if_neg hall]
      rfl

end Burst

end Bitar
