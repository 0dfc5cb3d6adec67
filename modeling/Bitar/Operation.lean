import Bitar.DeviceMemory

/-!
# Mbuf chains and compression operations

An mbuf is a buffer descriptor of DPDK.  The mbufs of this library carry no
data of their own: `AppendData` attaches each of them to an external buffer and
links it to the end of a chain.  A chain is modelled by the list of its
segments together with the packet length that its head records.

An operation (`rte_comp_op`) is what is handed to the device: a source chain, a
destination chain and the fields that `UpdateOperation` sets.

**Results.**
* `appendData_chainOf`: as long as the segment limit is respected, appending a
  buffer to a well-formed chain succeeds and gives a well-formed chain.
-/

namespace Bitar

open BlockStore

/-- The two `rte_mbuf_ext_shared_info` objects of a queue pair memory. -/
inductive SharedInfo
  | decompressed
  | compressed
deriving DecidableEq, Repr

/-- One mbuf of a chain. -/
structure Segment where
  mbuf : Nat
  bufAddr : Addr
  bufLen : Nat
  dataLen : Nat
  shinfo : SharedInfo
deriving DecidableEq, Repr

/-- The memory that the data of a segment occupies. -/
def Segment.span (seg : Segment) : Span Block :=
  ⟨seg.bufAddr.block, seg.bufAddr.offset, seg.dataLen⟩

/-- The memzone that a segment for compressed data is attached to. -/
def Segment.memzone (seg : Segment) : Option Nat :=
  match seg.shinfo, seg.bufAddr.block with
  | .compressed, .memzone z => some z
  | _, _ => none

/-- The mbufs linked by `next`, and the `pkt_len` of the head; a null pointer
is the chain without segments. -/
structure MbufChain where
  segs : List Segment := []
  pktLen : Nat := 0
deriving DecidableEq, Repr

/-- `RTE_MBUF_MAX_NB_SEGS`. -/
def maxNbSegs : Nat := 65535

/-- `AppendData`: chain `tail`, attach the buffer to it and append its bytes. -/
def appendData (head : MbufChain) (tail : Nat) (bufAddr : Addr) (bufLen : Nat)
    (shinfo : SharedInfo) : MbufChain × StatusCode :=
  if head.segs ≠ [] ∧ maxNbSegs < head.segs.length + 1 then
    -- Chain segment limit exceeded
    (head, .capacityError)
  else
    let attached : Segment := ⟨tail, bufAddr, bufLen, 0, shinfo⟩
    if attached.bufLen - attached.dataLen < bufLen then
      -- Not enough space in the mbuf to allocate data
      (⟨head.segs ++ [attached],
        if head.segs = [] then head.pktLen else head.pktLen + bufLen⟩, .capacityError)
    else
      (⟨head.segs ++ [{ attached with dataLen := bufLen }], head.pktLen + bufLen⟩, .ok)

/-- The transformation an operation asks for (`private_xform`). -/
inductive Xform
  | compress
  | decompress
deriving DecidableEq, Repr

/-- `rte_comp_op_status`. -/
inductive OpStatus
  | success
  | notProcessed
  | outOfSpaceTerminated
  | outOfSpaceRecoverable
  | error
deriving DecidableEq, Repr

/-- `rte_comp_op`. -/
structure CompOp where
  mSrc : MbufChain := {}
  mDst : MbufChain := {}
  srcOffset : Nat := 0
  srcLength : Nat := 0
  dstOffset : Nat := 0
  flushFinal : Bool := false
  inputChksum : Option Addr := none
  privateXform : Option Xform := none
  status : OpStatus := .notProcessed
  produced : Nat := 0
deriving DecidableEq, Repr

namespace CompOp

/-- `UpdateOperation`. -/
def update (op : CompOp) (xform : Xform) : CompOp :=
  { op with
    srcOffset := 0
    srcLength := op.mSrc.pktLen
    dstOffset := 0
    flushFinal := true
    inputChksum := op.mSrc.segs.head?.map Segment.bufAddr
    privateXform := some xform }

/-- The bytes the device takes as the input of the operation. -/
def source (op : CompOp) (memory : Memory) : List UInt8 :=
  ((gather memory (op.mSrc.segs.map Segment.span)).drop op.srcOffset).take op.srcLength

/-- The memory the device may write to. -/
def destination (op : CompOp) : List (Span Block) :=
  op.mDst.segs.map Segment.span

/-- The mbufs chained to the operation. -/
def mbufs (op : CompOp) : List Nat :=
  (op.mSrc.segs ++ op.mDst.segs).map Segment.mbuf

/-- The memzones that the destination chain is made of. -/
def memzones (op : CompOp) : List Nat :=
  op.mDst.segs.filterMap Segment.memzone

@[simp] theorem update_mSrc (op : CompOp) (xform : Xform) : (op.update xform).mSrc = op.mSrc :=
  rfl

@[simp] theorem update_mDst (op : CompOp) (xform : Xform) : (op.update xform).mDst = op.mDst :=
  rfl

end CompOp

/-- The chain that `AppendData` builds out of segments. -/
def chainOf (segs : List Segment) : MbufChain :=
  ⟨segs, (segs.map Segment.dataLen).sum⟩

@[simp] theorem chainOf_nil : chainOf [] = {} := rfl

@[simp] theorem chainOf_segs (segs : List Segment) : (chainOf segs).segs = segs := rfl

theorem appendData_chainOf {segs : List Segment} (h : segs.length < maxNbSegs) (tail : Nat)
    (bufAddr : Addr) (bufLen : Nat) (shinfo : SharedInfo) :
    appendData (chainOf segs) tail bufAddr bufLen shinfo =
      (chainOf (segs ++ [⟨tail, bufAddr, bufLen, bufLen, shinfo⟩]), .ok) := by
  have hlimit : ¬ ((chainOf segs).segs ≠ [] ∧ maxNbSegs < (chainOf segs).segs.length + 1) := by
    rw [chainOf_segs]
    omega
  unfold appendData
  rw [if_neg hlimit]
  simp [chainOf]

/-- The operation with the given source and destination segments. -/
def opWith (src dst : List Segment) : CompOp :=
  { mSrc := chainOf src, mDst := chainOf dst }

/-- The operation that `AssembleFrom` hands on. -/
def builtOp (xform : Xform) (src dst : List Segment) : CompOp :=
  (opWith src dst).update xform

@[simp] theorem opWith_nil : opWith [] [] = {} := rfl

/-- An assembled operation feeds the device all the bytes of its source
segments. -/
theorem source_builtOp (xform : Xform) (src dst : List Segment) (memory : Memory) :
    (builtOp xform src dst).source memory = gather memory (src.map Segment.span) := by
  have hlen : (gather memory (src.map Segment.span)).length = (src.map Segment.dataLen).sum := by
    induction src with
    | nil => rfl
    | cons seg src ih =>
        simp only [List.map_cons, gather, List.flatMap_cons, List.length_append,
          List.sum_cons] at ih ⊢
        rw [ih]
        simp [Span.read, Segment.span]
  unfold CompOp.source
  simp only [builtOp, opWith, CompOp.update, chainOf, List.drop_zero]
  exact List.take_of_length_le (by rw [hlen])

end Bitar
