import Bitar.Operation

/-!
# The memory of a queue pair

`QueuePairMemory` turns work into operations.  `AssembleFrom` takes operations
and mbufs from the pools, chains a source and a destination segment for every
mbuf pair, and leaves the new operations behind those that an earlier burst
could not enqueue (`operations[0 .. numOpsAssembled)`).  Every operation enters
`pendingOperations` when its first source segment is chained and leaves it in
`RecycleResources` (finished) or `Release` (given up).

The two overloads of `AssembleFrom` differ in where the next source and the
next destination segment come from; `assembleBurst` is what they share.

The signed products of `AssembleFrom` are computed exactly: a signed overflow
has no defined result in C++.  Narrowing casts are written out.

A pool is the set of its free objects.  The environment chooses which free
objects an allocation hands out; an answer that is not a list of that many
distinct free objects counts as a failure.
-/

namespace Bitar

open BlockStore

/-- Which members of a queue pair memory have been set up, and how large. -/
structure Resources where
  /-- `mbuf_pool_`: elements and cache size. -/
  mbufPool : Option (Nat × Nat) := none
  /-- `operation_pool_`: elements and cache size. -/
  operationPool : Option (Nat × Nat) := none
  operations : Option Nat := none
  mbufs : Option Nat := none
  sharedInfoDecompressedMbuf : Bool := false
  sharedInfoCompressedMbuf : Bool := false
  privateXformCompress : Bool := false
  privateXformDecompress : Bool := false
deriving DecidableEq, Repr

structure QueuePairMemory where
  resources : Resources := {}
  numOpsAssembled : Nat := 0
  pendingOperations : List Nat := []
  /-- The free objects of `mbuf_pool_`. -/
  mbufPool : Finset Nat := ∅
  /-- The free objects of `operation_pool_`. -/
  operationPool : Finset Nat := ∅
  /-- The array `operations_`. -/
  operations : Store Unit Nat := fun _ _ => 0
  /-- The part of the array `mbufs_` that was allocated last. -/
  mbufs : List Nat := []
  /-- The contents of the operation objects. -/
  ops : Nat → CompOp := fun _ => {}

/-- The environment's answers to the two bulk allocations. -/
structure BulkAnswer where
  ops : Option (List Nat)
  mbufs : Option (List Nat)

/-- An answer that names `n` distinct free objects. -/
def takeFrom (free : Finset Nat) (n : Nat) : Option (List Nat) → Option (List Nat)
  | none => none
  | some objs => if objs.length = n ∧ objs.Nodup ∧ ∀ o ∈ objs, o ∈ free then some objs else none

namespace QueuePairMemory

/-- `operations_[0 .. num_ops_assembled_)`. -/
def assembled (qp : QueuePairMemory) : List Nat :=
  read qp.operations () 0 qp.numOpsAssembled

/-- `has_pending_operations()`. -/
def hasPendingOperations (qp : QueuePairMemory) : Bool :=
  !qp.pendingOperations.isEmpty

/-- Operations leave their pool: they are reset, and their pointers are stored
behind the operations already assembled. -/
def handOutOps (qp : QueuePairMemory) (os : List Nat) : QueuePairMemory :=
  { qp with
    operationPool := qp.operationPool \ os.toFinset
    operations := write qp.operations () qp.numOpsAssembled os
    ops := fun o => if o ∈ os then {} else qp.ops o }

/-- Mbufs leave their pool. -/
def handOutMbufs (qp : QueuePairMemory) (ms : List Nat) : QueuePairMemory :=
  { qp with
    mbufPool := qp.mbufPool \ ms.toFinset
    mbufs := ms }

/-- `BulkAllocate`.  An allocation of no operations counts as a failure. -/
def bulkAllocate (answer : BulkAnswer) (numOps numMbufs : Nat) (qp : QueuePairMemory) :
    QueuePairMemory × StatusCode :=
  match takeFrom qp.operationPool numOps answer.ops with
  | some (o :: os) =>
      let qp := qp.handOutOps (o :: os)
      match takeFrom qp.mbufPool numMbufs answer.mbufs with
      | some ms => (qp.handOutMbufs ms, .ok)
      | none => (qp, .outOfMemory)
  | _ => (qp, .outOfMemory)

def setSrc (qp : QueuePairMemory) (op : Nat) (chain : MbufChain) : QueuePairMemory :=
  { qp with ops := Function.update qp.ops op { qp.ops op with mSrc := chain } }

def setDst (qp : QueuePairMemory) (op : Nat) (chain : MbufChain) : QueuePairMemory :=
  { qp with ops := Function.update qp.ops op { qp.ops op with mDst := chain } }

def updateOperation (qp : QueuePairMemory) (op : Nat) (xform : Xform) : QueuePairMemory :=
  { qp with ops := Function.update qp.ops op ((qp.ops op).update xform) }

def pushPending (qp : QueuePairMemory) (op : Nat) : QueuePairMemory :=
  { qp with pendingOperations := qp.pendingOperations ++ [op] }

section Ops

variable (qp : QueuePairMemory) {op op' : Nat}

@[simp] theorem setSrc_ops_self (chain : MbufChain) :
    (qp.setSrc op chain).ops op = { qp.ops op with mSrc := chain } :=
  Function.update_self ..

theorem setSrc_ops_of_ne (h : op' ≠ op) (chain : MbufChain) :
    (qp.setSrc op chain).ops op' = qp.ops op' :=
  Function.update_of_ne h ..

@[simp] theorem setDst_ops_self (chain : MbufChain) :
    (qp.setDst op chain).ops op = { qp.ops op with mDst := chain } :=
  Function.update_self ..

@[simp] theorem updateOperation_ops_self (xform : Xform) :
    (qp.updateOperation op xform).ops op = (qp.ops op).update xform :=
  Function.update_self ..

end Ops

end QueuePairMemory

/-- What the loops of `AssembleFrom` carry along.  The current operation is
`operations[index]`. -/
structure Assembly (κ : Type) where
  qp : QueuePairMemory
  /-- `num_ops_assembled_with_mbufs`. -/
  index : Nat
  cursor : κ

section Loops

variable {κ δ : Type}

/-- The loop over the source mbufs.  `mbufId` counts the mbufs done. -/
def appendSources (maxSglSegs n : Nat) (next : κ → (Addr × Nat) × κ) (shinfo : SharedInfo) :
    List Nat → Nat → Assembly κ → Assembly κ × StatusCode
  | [], _, st => (st, .ok)
  | mbuf :: rest, mbufId, st =>
      let currentOp := st.qp.operations () st.index
      let seg := next st.cursor
      let appended := appendData (st.qp.ops currentOp).mSrc mbuf seg.1.1 seg.1.2 shinfo
      let qp := st.qp.setSrc currentOp appended.1
      if appended.2 = .ok then
        if (mbufId + 1) % maxSglSegs = 0 ∧ mbufId + 1 < n then
          appendSources maxSglSegs n next shinfo rest (mbufId + 1)
            ⟨qp.pushPending (qp.operations () (st.index + 1)), st.index + 1, seg.2⟩
        else
          appendSources maxSglSegs n next shinfo rest (mbufId + 1) ⟨qp, st.index, seg.2⟩
      else
        (⟨qp, st.index, st.cursor⟩, appended.2)

/-- The loop over the destination mbufs.  `next` fails when `Take` does. -/
def appendDestinations (maxSglSegs n : Nat) (next : δ → Option (Addr × Nat) × δ)
    (shinfo : SharedInfo) (xform : Xform) :
    List Nat → Nat → Assembly δ → Assembly δ × StatusCode
  | [], _, st => (st, .ok)
  | mbuf :: rest, mbufId, st =>
      let currentOp := st.qp.operations () st.index
      match next st.cursor with
      | (none, cursor) => (⟨st.qp, st.index, cursor⟩, .ioError)
      | (some seg, cursor) =>
          let appended := appendData (st.qp.ops currentOp).mDst mbuf seg.1 seg.2 shinfo
          let qp := st.qp.setDst currentOp appended.1
          if appended.2 = .ok then
            if (mbufId + 1) % maxSglSegs = 0 ∨ mbufId + 1 = n then
              appendDestinations maxSglSegs n next shinfo xform rest (mbufId + 1)
                ⟨qp.updateOperation currentOp xform, st.index + 1, cursor⟩
            else
              appendDestinations maxSglSegs n next shinfo xform rest (mbufId + 1)
                ⟨qp, st.index, cursor⟩
          else
            (⟨qp, st.index, cursor⟩, appended.2)

/-- Where the segments of a burst come from. -/
structure BurstSource (κ δ : Type) where
  nextSource : κ → (Addr × Nat) × κ
  sourceInfo : SharedInfo
  nextDestination : δ → Option (Addr × Nat) × δ
  destinationInfo : SharedInfo
  xform : Xform

/-- The outcome of `AssembleFrom`: the cursors move also when it fails. -/
structure BurstResult (κ δ : Type) where
  qp : QueuePairMemory
  source : κ
  destination : δ
  /-- The number of operations assembled, or the negated status code. -/
  result : Except StatusCode Nat

/-- The body of `AssembleFrom` once the size of the burst is known:
`n` segments in `numOps` operations. -/
def assembleBurst (maxSglSegs n numOps : Nat) (burst : BurstSource κ δ) (answer : BulkAnswer)
    (qp : QueuePairMemory) (source : κ) (destination : δ) : BurstResult κ δ :=
  match qp.bulkAllocate answer numOps (n * 2) with
  | (qp, .ok) =>
      let first := qp.pushPending (qp.operations () qp.numOpsAssembled)
      match appendSources maxSglSegs n burst.nextSource burst.sourceInfo (qp.mbufs.take n) 0
          ⟨first, qp.numOpsAssembled, source⟩ with
      | (st, .ok) =>
          match appendDestinations maxSglSegs n burst.nextDestination burst.destinationInfo
              burst.xform (qp.mbufs.drop n) 0 ⟨st.qp, qp.numOpsAssembled, destination⟩ with
          | (st', .ok) =>
              ⟨{ st'.qp with numOpsAssembled := st'.index }, st.cursor, st'.cursor, .ok st'.index⟩
          | (st', code) => ⟨st'.qp, st.cursor, st'.cursor, .error code⟩
      | (st, code) => ⟨st.qp, st.cursor, destination, .error code⟩
  | (qp, code) => ⟨qp, source, destination, .error code⟩

end Loops

/-! ## The two overloads of `AssembleFrom` -/

/-- `arrow::Buffer`: the address and the size of its data. -/
structure Buffer where
  data : Addr
  size : Nat
deriving DecidableEq, Repr

def Addr.add (addr : Addr) (n : Nat) : Addr := ⟨addr.block, addr.offset + n⟩

/-- The contents of a buffer. -/
def Buffer.bytes (buffer : Buffer) (memory : Memory) : List UInt8 :=
  read memory buffer.data.block buffer.data.offset buffer.size

/-- The destination cursor of a compress burst: the memzones and the answers to
the reservations that `Take` may have to make. -/
structure ZoneCursor where
  zones : Zones
  answers : List (Option Nat)

/-- One destination segment out of `Take`. -/
def ZoneCursor.next (compressedSegSize : Nat) (cursor : ZoneCursor) :
    Option (Addr × Nat) × ZoneCursor :=
  match cursor.zones.take compressedSegSize cursor.answers.head?.join with
  | (none, zones) => (none, ⟨zones, cursor.answers.tail⟩)
  | (some z, zones) => (some (memzoneAddr z, zones.pool.len z), ⟨zones, cursor.answers.tail⟩)

/-- The segments of a compress burst: slices of the input, and memzones. -/
def compressBurst (cfg : Configuration) (input : Buffer) : BurstSource Nat ZoneCursor where
  nextSource offset :=
    let bufLen := min cfg.decompressedSegSize.toNat (input.size - offset)
    ((input.data.add offset, toUInt16 bufLen), offset + bufLen)
  sourceInfo := .decompressed
  nextDestination := ZoneCursor.next cfg.compressedSegSize
  destinationInfo := .compressed
  xform := .compress

/-- The segments of a decompress burst: the compressed buffers, and slices of
the output. -/
def decompressBurst (cfg : Configuration) (buffers : List Buffer) (output : Addr) :
    BurstSource Nat Nat where
  nextSource index :=
    let buffer := buffers.getD index ⟨⟨.host 0, 0⟩, 0⟩
    ((buffer.data, toUInt16 buffer.size), index + 1)
  sourceInfo := .compressed
  nextDestination offset :=
    let bufLen := cfg.decompressedSegSize.toNat
    (some (output.add offset, bufLen), offset + bufLen)
  destinationInfo := .decompressed
  xform := .decompress

/-- `AssembleFrom(decompressed_buffer, offset)`. -/
def assembleFromDecompressed (cfg : Configuration) (answer : BulkAnswer) (input : Buffer)
    (qp : QueuePairMemory) (offset : Nat) (zones : ZoneCursor) : BurstResult Nat ZoneCursor :=
  let remainingBytes := input.size - offset
  let burstSize := cfg.burstSize.toNat
  if remainingBytes = 0 ∨ burstSize ≤ qp.numOpsAssembled then
    ⟨qp, offset, zones, .ok qp.numOpsAssembled⟩
  else
    let nextBurstBytesCapacity :=
      (burstSize - qp.numOpsAssembled) * cfg.maxSglSegs.toNat * cfg.decompressedSegSize.toNat
    let nextBurstBytes := min remainingBytes nextBurstBytesCapacity
    let nextBurstNumSrcMbufs :=
      (nextBurstBytes + cfg.decompressedSegSize.toNat - 1) / cfg.decompressedSegSize.toNat
    let nextBurstNumOps :=
      toUInt16 ((nextBurstNumSrcMbufs + cfg.maxSglSegs.toNat - 1) / cfg.maxSglSegs.toNat)
    assembleBurst cfg.maxSglSegs.toNat nextBurstNumSrcMbufs nextBurstNumOps
      (compressBurst cfg input) answer qp offset zones

/-- `AssembleFrom(compressed_buffers, index, decompressed_buffer, offset)`. -/
def assembleFromCompressed (cfg : Configuration) (answer : BulkAnswer) (buffers : List Buffer)
    (output : Addr) (qp : QueuePairMemory) (index offset : Nat) : BurstResult Nat Nat :=
  let remainingMbufs := buffers.length - index
  if remainingMbufs = 0 ∨ cfg.burstSize.toNat ≤ qp.numOpsAssembled then
    ⟨qp, index, offset, .ok qp.numOpsAssembled⟩
  else
    let nextBurstMbufsCapacity :=
      (cfg.burstSize.toNat - qp.numOpsAssembled) * cfg.maxSglSegs.toNat
    let nextBurstNumSrcMbufs := min nextBurstMbufsCapacity remainingMbufs
    let nextBurstNumOps :=
      toUInt16 ((nextBurstNumSrcMbufs + cfg.maxSglSegs.toNat - 1) / cfg.maxSglSegs.toNat)
    assembleBurst cfg.maxSglSegs.toNat nextBurstNumSrcMbufs nextBurstNumOps
      (decompressBurst cfg buffers output) answer qp index offset

/-! ## The other operations -/

namespace QueuePairMemory

/-- `AccumulateUnused`: move the unused operations to the front. -/
def accumulateUnused (qp : QueuePairMemory) (numUnusedOps : Nat) :
    QueuePairMemory × StatusCode :=
  if qp.numOpsAssembled < numUnusedOps then (qp, .invalid)
  else
    let qp :=
      if 0 < numUnusedOps ∧ numUnusedOps ≠ qp.numOpsAssembled then
        { qp with
          operations := write qp.operations () 0
            (read qp.operations () (qp.numOpsAssembled - numUnusedOps) numUnusedOps) }
      else qp
    ({ qp with numOpsAssembled := numUnusedOps }, .ok)

/-- `RecycleResources`; `debug` is the build without `NDEBUG`. -/
def recycleResources (debug : Bool) (qp : QueuePairMemory) (op : Nat) :
    QueuePairMemory × StatusCode :=
  if debug = true ∧ qp.pendingOperations.head? ≠ some op then (qp, .invalid)
  else
    ({ qp with
        pendingOperations := qp.pendingOperations.tail
        mbufPool := qp.mbufPool ∪ (qp.ops op).mbufs.toFinset
        operationPool := insert op qp.operationPool }, .ok)

/-- One round of `Release`, on the front of the pending operations. -/
def releaseOp (qp : QueuePairMemory) (zones : Zones) (op : Nat) : QueuePairMemory × Zones :=
  ({ qp with
      pendingOperations := qp.pendingOperations.tail
      mbufPool := qp.mbufPool ∪ (qp.ops op).mbufs.toFinset
      operationPool := insert op qp.operationPool },
    -- Only recycle memzones for storing compressed data
    zones.putAll (((qp.ops op).mDst.segs.filter fun seg => seg.shinfo = .compressed).map
      Segment.bufAddr))

/-- `Release`. -/
def release (qp : QueuePairMemory) (zones : Zones) : QueuePairMemory × Zones :=
  qp.pendingOperations.foldl (fun st op => st.1.releaseOp st.2 op) (qp, zones)

end QueuePairMemory

end Bitar
