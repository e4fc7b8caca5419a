import SporeVM.Virtio.VsockStream

/-!
# The virtio socket device

`virtio/vsock.zig`. The device answers guest packets, and it delivers to the guest the packets that
wait in its pending array: the data of the attached stream and everything else it has to say. All
descriptor chains come from the guest and have any shape.

The queues are the guest's: `Pop` is what `popAvail` gives for a turn of a loop, and whether
`pushUsed` succeeds is part of the same answer. A queue that is ready has been checked to lie in
guest memory, so a `pushUsed` that fails has published nothing. Other threads may enqueue frames
between any two steps that take the lock of the stream.

The field `delivered` is a history variable: the packets that have been copied out and published
since the stream was attached.
-/

namespace SporeVM.Virtio

open Lib (littleEndian)
open List

def hostCid : UInt64 := 2

def headerLen : ℕ := 44

def packetTypeStream : UInt16 := 1

def opRequest : UInt16 := 1

def opResponse : UInt16 := 2

def opRst : UInt16 := 3

def opShutdown : UInt16 := 4

def opRw : UInt16 := 5

def opCreditUpdate : UInt16 := 6

def opCreditRequest : UInt16 := 7

def maxPending : ℕ := 16

def maxTxPayload : ℕ := 64 * 1024

def hostStreamCredit : UInt32 := 64 * 1024

def maxNotifyChains : ℕ := 256

structure Header where
  srcCid : UInt64
  dstCid : UInt64
  srcPort : UInt32
  dstPort : UInt32
  len : UInt32
  packetType : UInt16
  op : UInt16
  flags : UInt32 := 0
  bufAlloc : UInt32 := 0
  fwdCnt : UInt32 := 0
  deriving DecidableEq

def Header.withLen (h : Header) (len : ℕ) : Header := { h with len := UInt32.ofNat len }

def writeHeader (h : Header) : Bytes :=
  littleEndian h.srcCid.toNat 8 ++ littleEndian h.dstCid.toNat 8 ++
    littleEndian h.srcPort.toNat 4 ++ littleEndian h.dstPort.toNat 4 ++
    littleEndian h.len.toNat 4 ++ littleEndian h.packetType.toNat 2 ++
    littleEndian h.op.toNat 2 ++ littleEndian h.flags.toNat 4 ++
    littleEndian h.bufAlloc.toNat 4 ++ littleEndian h.fwdCnt.toNat 4

def parseHeader (buf : Bytes) : Header where
  srcCid := UInt64.ofNat (readInt buf 0 8)
  dstCid := UInt64.ofNat (readInt buf 8 8)
  srcPort := UInt32.ofNat (readInt buf 16 4)
  dstPort := UInt32.ofNat (readInt buf 20 4)
  len := UInt32.ofNat (readInt buf 24 4)
  packetType := UInt16.ofNat (readInt buf 28 2)
  op := UInt16.ofNat (readInt buf 30 2)
  flags := UInt32.ofNat (readInt buf 32 4)
  bufAlloc := UInt32.ofNat (readInt buf 36 4)
  fwdCnt := UInt32.ofNat (readInt buf 40 4)

-- ══ Descriptor chains

structure Segment where
  data : Bytes
  writable : Bool

structure Chain where
  head : UInt16
  segments : List Segment

def Chain.readableLen (chain : Chain) : ℕ :=
  ((chain.segments.filter fun seg => !seg.writable).map fun seg => seg.data.length).sum

def copyReadable (skip outLen : ℕ) : ℕ → Bytes → List Segment → Option Bytes
  | _, _, [] => none
  | skipped, copied, seg :: rest =>
    if seg.writable then copyReadable skip outLen skipped copied rest
    else if skipped + seg.data.length ≤ skip then
      copyReadable skip outLen (skipped + seg.data.length) copied rest
    else
      let copied := copied ++ (seg.data.drop (skip - skipped)).take (outLen - copied.length)
      if copied.length = outLen then some copied
      else copyReadable skip outLen (skipped + seg.data.length) copied rest

def Chain.copyReadableRange (chain : Chain) (skip outLen : ℕ) : Option Bytes :=
  if outLen = 0 then some [] else copyReadable skip outLen 0 [] chain.segments

/-- What the device can read of a chain, in the order of the segments. -/
def readableBytes (segments : List Segment) : Bytes :=
  (segments.filter fun seg => !seg.writable).flatMap Segment.data

lemma length_readableBytes (chain : Chain) :
    (readableBytes chain.segments).length = chain.readableLen := by
  rw [readableBytes, length_flatMap, Chain.readableLen]

lemma copyReadable_iff {skip outLen : ℕ} {out : Bytes} : ∀ {segments : List Segment}
    {skipped : ℕ} {copied : Bytes}, copied.length < outLen →
    (copyReadable skip outLen skipped copied segments = some out ↔
      outLen - copied.length ≤ ((readableBytes segments).drop (skip - skipped)).length ∧
        out = copied ++
          ((readableBytes segments).drop (skip - skipped)).take (outLen - copied.length))
  | [], skipped, copied, hmore => by
    simp [copyReadable, readableBytes]
    omega
  | seg :: rest, skipped, copied, hmore => by
    unfold copyReadable
    cases hwritable : seg.writable with
    | true =>
      rw [if_pos rfl, copyReadable_iff hmore]
      simp [readableBytes, hwritable]
    | false =>
      have hbytes : readableBytes (seg :: rest) = seg.data ++ readableBytes rest := by
        simp [readableBytes, hwritable]
      rw [if_neg Bool.false_ne_true, hbytes]
      split
      · next hskip =>
        -- The whole segment lies before the range.
        have hdrop : (seg.data ++ readableBytes rest).drop (skip - skipped) =
            (readableBytes rest).drop (skip - (skipped + seg.data.length)) := by
          rw [drop_append, drop_of_length_le (by omega), nil_append, Nat.sub_sub]
        rw [hdrop, copyReadable_iff hmore]
      · next hskip =>
        rw [drop_append_of_le_length (by omega)]
        generalize hpart : seg.data.drop (skip - skipped) = part
        dsimp only
        split
        · next hfull =>
          -- The range ends inside this segment.
          have hlen : outLen - copied.length ≤ part.length := by
            rw [length_append, length_take] at hfull
            omega
          rw [take_append_of_le_length hlen, Option.some.injEq]
          grind
        · next hfull =>
          have hlen : part.length < outLen - copied.length := by
            rw [length_append, length_take] at hfull
            omega
          have hmore' : (copied ++ part).length < outLen := by
            rw [length_append]
            omega
          rw [take_of_length_le hlen.le, copyReadable_iff hmore', take_append,
            take_of_length_le hlen.le, show skip - (skipped + seg.data.length) = 0 by omega]
          grind

/-- **Reading a range of a chain.** The read succeeds exactly if the range lies within the readable
bytes or is empty, and it gives the bytes of the range. -/
theorem copyReadableRange_iff (chain : Chain) (skip outLen : ℕ) (out : Bytes) :
    chain.copyReadableRange skip outLen = some out ↔
      (skip + outLen ≤ chain.readableLen ∨ outLen = 0) ∧
        out = ((readableBytes chain.segments).drop skip).take outLen := by
  unfold Chain.copyReadableRange
  split
  · next hzero =>
    subst hzero
    simp [eq_comm]
  · next hpos =>
    rw [copyReadable_iff (by simpa using Nat.pos_of_ne_zero hpos), length_drop,
      length_readableBytes]
    simp only [length_nil, Nat.sub_zero, nil_append]
    refine and_congr_left fun _ => ?_
    omega

def chainWritableCapacity (chain : Chain) : ℕ :=
  ((chain.segments.filter fun seg => seg.writable).map fun seg => seg.data.length).sum

def parseTxHeader (chain : Chain) : Option Header :=
  match chain.copyReadableRange 0 headerLen with
  | none => none
  | some buf =>
    let header := parseHeader buf
    if header.len.toNat > maxTxPayload ∨ chain.readableLen - headerLen < header.len.toNat then none
    else some header

def headerPart (buf : Bytes) (copied room : ℕ) : Bytes :=
  if copied < headerLen then (buf.drop copied).take (min room (headerLen - copied)) else []

def payloadPart (payload : Bytes) (copied room : ℕ) : Bytes :=
  if headerLen ≤ copied ∧ copied < headerLen + payload.length ∧ 0 < room then
    (payload.drop (copied - headerLen)).take room
  else []

/-- The loop of `writePacketToChain`: what is copied into each writable segment, in their order.
`copied` bytes of the header and the payload are in earlier segments. -/
def writeSegments (buf payload : Bytes) : ℕ → List Segment → Option (List Bytes)
  | _, [] => none
  | copied, seg :: rest =>
    if seg.writable then
      let head := headerPart buf copied seg.data.length
      let tail := payloadPart payload (copied + head.length) (seg.data.length - head.length)
      if copied + head.length + tail.length = headerLen + payload.length then some [head ++ tail]
      else
        (writeSegments buf payload (copied + head.length + tail.length) rest).map
          (cons (head ++ tail))
    else writeSegments buf payload copied rest

def writePacketToChain (chain : Chain) (h : Header) (payload : Bytes) : Option (List Bytes) :=
  writeSegments (writeHeader h) payload 0 chain.segments

inductive Pop
  | error
  | empty
  | chain (chain : Chain)

-- ══ Packets for the guest

structure Packet where
  header : Header
  data : Bytes
  deriving DecidableEq

inductive VsockError
  | packetTooLarge | pendingFull
  deriving DecidableEq

structure Attached where
  guestCid : UInt64
  pending : List Packet
  stream : HostStream

def enqueuePacket (pending : List Packet) (header : Header) (payload : Bytes) :
    Except VsockError (List Packet) :=
  if payload.length > maxPayload then .error .packetTooLarge
  else if pending.length ≥ maxPending then .error .pendingFull
  else .ok (pending ++ [⟨header.withLen payload.length, payload⟩])

def streamHeader (guestCid : UInt64) (stream : HostStream) (op : UInt16) (len : ℕ) : Header where
  srcCid := hostCid
  dstCid := guestCid
  srcPort := stream.hostPort
  dstPort := stream.guestPort
  len := UInt32.ofNat len
  packetType := packetTypeStream
  op := op
  bufAlloc := hostStreamCredit
  fwdCnt := stream.receivedBytes

namespace Attached

def enqueueHostPacket (a : Attached) (op : UInt16) (payload : Bytes) : Except VsockError Attached :=
  match enqueuePacket a.pending (streamHeader a.guestCid a.stream op payload.length) payload with
  | .error e => .error e
  | .ok pending =>
    .ok
      { a with
        pending
        stream :=
          { a.stream with
            creditFwdCntSent := a.stream.receivedBytes
            sentBytes := a.stream.sentBytes + UInt32.ofNat payload.length } }

def fail (a : Attached) : Attached := { a with stream := a.stream.fail }

def ignore (a : Attached) : Except VsockError Attached → Attached
  | .ok a' => a'
  | .error _ => a

def orFail (a : Attached) : Except VsockError Attached → Attached
  | .ok a' => a'
  | .error _ => a.fail

def enqueueHostConnectRequest (a : Attached) : Except VsockError Attached :=
  match enqueuePacket a.pending (streamHeader a.guestCid a.stream opRequest 0) [] with
  | .error e => .error e
  | .ok pending => .ok { a with pending }

def maybeUpdateCredit (a : Attached) : Attached :=
  if a.stream.state ≠ .connected then a
  else if a.stream.receivedBytes - a.stream.creditFwdCntSent < hostStreamCredit / 2 then a
  else a.ignore (a.enqueueHostPacket opCreditUpdate [])

abbrev Between := ℕ → List HostStream.Enqueue

def enqueueAll (a : Attached) (es : List HostStream.Enqueue) : Attached :=
  { a with stream := a.stream.enqueueAll es }

/-- The loop that moves frames into the pending array while it has free places, the first argument.
The second result tells whether it ended without an error. -/
def flushFrames (between : Between) : ℕ → ℕ → Attached → Attached × Bool
  | 0, _, a => (a, true)
  | free + 1, i, a =>
    let a := a.enqueueAll (between i)
    match a.stream.dequeueOutboundWithin a.stream.txWindowFree.toNat with
    | none => (a, true)
    | some (frame, stream) =>
      match enqueueHostPacket { a with stream } opRw frame with
      | .error _ => ({ a with stream }, false)
      | .ok a => flushFrames between free (i + 1) a

def flushRequest (a : Attached) : Except VsockError Attached :=
  match a.enqueueHostPacket opRw a.stream.request with
  | .error e => .error e
  | .ok a => .ok { a with stream := { a.stream with requestSent := true } }

def flushHostStreamOutboundFor (between : Between) (a : Attached) : Attached × Bool :=
  if a.stream.state ≠ .connected then (a, true)
  else if a.stream.requestSent then
    flushFrames between (maxPending - a.pending.length) 0 a
  else if a.stream.request.length > a.stream.txWindowFree.toNat then (a, true)
  else if a.pending.length ≥ maxPending then (a, true)
  else
    match a.flushRequest with
    | .error _ => (a, false)
    | .ok a => flushFrames between (maxPending - a.pending.length) 0 a

def flushOrFail (between : Between) (a : Attached) : Attached :=
  match a.flushHostStreamOutboundFor between with
  | (a, true) => a
  | (a, false) => a.fail

def receiveRw (chain : Chain) (len : ℕ) (done : ℕ) (stream : HostStream) : HostStream :=
  if h : done < len then
    match chain.copyReadableRange (headerLen + done) (min maxPayload (len - done)) with
    | none => stream
    | some piece =>
      have : len - (done + min maxPayload (len - done)) < len - done := by
        have : 0 < maxPayload := by decide
        omega
      receiveRw chain len (done + min maxPayload (len - done)) (stream.appendOutput piece)
  else stream
termination_by len - done

def dispatch (between : Between) (h : Header) (chain : Chain) (a : Attached) : Attached :=
  if h.op = opResponse then
    if a.stream.state = .connecting then
      flushOrFail between { a with stream := a.stream.markConnected }
    else a
  else if h.op = opRw then { a with stream := receiveRw chain h.len.toNat 0 a.stream }
  else if h.op = opCreditRequest then a.orFail (a.enqueueHostPacket opCreditUpdate [])
  else if h.op = opRst then
    if a.stream.state = .connecting then a.orFail a.enqueueHostConnectRequest else a.fail
  else a

def handleHostStreamPacket (between : Between) (h : Header) (chain : Chain) (a : Attached) :
    Attached :=
  maybeUpdateCredit (dispatch between h chain
    { a with stream := { a.stream with peerBufAlloc := h.bufAlloc, peerFwdCnt := h.fwdCnt } })

end Attached

-- ══ The device

structure Delivered where
  header : Header
  payload : Bytes
  copied : List Bytes

structure Vsock where
  guestCid : UInt64
  pending : List Packet := []
  hostStream : Option HostStream := none
  delivered : List Delivered := []

namespace Vsock

def init (guestCid : UInt64) : Vsock := { guestCid }

def attached (v : Vsock) (stream : HostStream) : Attached :=
  { guestCid := v.guestCid, pending := v.pending, stream }

def update (v : Vsock) (a : Attached) : Vsock :=
  { v with pending := a.pending, hostStream := some a.stream }

def attachHostStream (v : Vsock) (stream : HostStream) : Vsock :=
  let a := v.attached stream
  { v.update (a.ignore a.enqueueHostConnectRequest) with delivered := [] }

def resetHostStream (v : Vsock) : Vsock :=
  match v.hostStream with
  | none => v
  | some stream =>
    if stream.state = .complete then { v with hostStream := none, pending := [] }
    else
      match enqueuePacket [] (streamHeader v.guestCid stream opRst 0) [] with
      | .error _ => { v with hostStream := none, pending := [] }
      | .ok pending => { v with hostStream := none, pending }

def refuse (v : Vsock) (h : Header) : Vsock :=
  if h.dstCid ≠ hostCid ∨ h.srcCid ≠ v.guestCid then v
  else if h.op = opRst then v
  else
    match enqueuePacket v.pending
        { srcCid := h.dstCid
          dstCid := h.srcCid
          srcPort := h.dstPort
          dstPort := h.srcPort
          len := 0
          packetType := h.packetType
          op := opRst } [] with
    | .error _ => v
    | .ok pending => { v with pending }

def matchesHostStream (v : Vsock) (stream : HostStream) (h : Header) : Bool :=
  h.srcCid = v.guestCid && h.dstCid = hostCid && h.srcPort = stream.guestPort &&
    h.dstPort = stream.hostPort

def handleGuestPacket (between : Attached.Between) (h : Header) (chain : Chain) (v : Vsock) :
    Vsock :=
  if h.packetType ≠ packetTypeStream then v
  else
    match v.hostStream with
    | none => v.refuse h
    | some stream =>
      if v.matchesHostStream stream h then
        v.update ((v.attached stream).handleHostStreamPacket between h chain)
      else v.refuse h

def handleChain (between : Attached.Between) (chain : Chain) (v : Vsock) : Vsock :=
  match parseTxHeader chain with
  | none => v
  | some h => v.handleGuestPacket between h chain

structure RxTurn where
  pop : Pop
  pushed : Bool

def consume (v : Vsock) (packet : Packet) (rest : List Packet) (take : ℕ) : Vsock :=
  if take < packet.data.length then
    { v with
      pending :=
        ⟨packet.header.withLen (packet.data.length - take), packet.data.drop take⟩ :: rest }
  else { v with pending := rest }

/-- The first pending packet meets a chain of the guest. The second result tells whether the loop
goes on. -/
def deliver (v : Vsock) (packet : Packet) (rest : List Packet) (chain : Chain) (pushed : Bool) :
    Vsock × Bool :=
  let capacity := chainWritableCapacity chain
  let take := min packet.data.length (capacity - headerLen)
  if headerLen ≤ capacity ∧
      (take = packet.data.length ∨ packet.header.op = opRw ∧ 0 < take) then
    let header := packet.header.withLen take
    match writePacketToChain chain header (packet.data.take take) with
    | none => (v, pushed)
    | some copied =>
      if pushed then
        ({ v.consume packet rest take with
            delivered := v.delivered ++ [⟨header, packet.data.take take, copied⟩] }, true)
      else (v, false)
  else (v, pushed)

def flushRx : ℕ → List RxTurn → Vsock → Vsock
  | 0, _, v => v
  | _, [], v => v
  | budget + 1, turn :: turns, v =>
    match v.pending with
    | [] => v
    | packet :: rest =>
      match turn.pop with
      | .error => v
      | .empty => v
      | .chain chain =>
        match v.deliver packet rest chain turn.pushed with
        | (v, true) => flushRx budget turns v
        | (v, false) => v

/-- An answer of the transmit queue, what other threads enqueue before it is handled, and what they
enqueue while a flush runs. -/
structure TxTurn where
  before : List HostStream.Enqueue
  pop : Pop
  between : Attached.Between
  pushed : Bool

def enqueue (v : Vsock) (es : List HostStream.Enqueue) : Vsock :=
  { v with hostStream := v.hostStream.map fun stream => stream.enqueueAll es }

/-- The chains of the transmit queue. The budget that is left is for the receive queue; there is
none if the loop has stopped at an error, which ends the notification. -/
def processChains : ℕ → List TxTurn → Vsock → Vsock × Option ℕ
  | 0, _, v => (v, some 0)
  | budget, [], v => (v, some budget)
  | budget + 1, turn :: turns, v =>
    let v := v.enqueue turn.before
    match turn.pop with
    | .error => (v, none)
    | .empty => (v, some (budget + 1))
    | .chain chain =>
      let v := v.handleChain turn.between chain
      if turn.pushed then processChains budget turns v else (v, none)

def flushOutbound (between : Attached.Between) (v : Vsock) : Vsock :=
  match v.hostStream with
  | none => v
  | some stream => v.update ((v.attached stream).flushOrFail between)

def processTx (turns : List TxTurn) (between : Attached.Between) (rx : List RxTurn) (v : Vsock) :
    Vsock :=
  match processChains maxNotifyChains turns v with
  | (v, none) => v
  | (v, some budget) => flushRx budget rx (v.flushOutbound between)

def flushHostStreamOutbound (between : Attached.Between) (v : Vsock) : Vsock :=
  match v.hostStream with
  | none => v
  | some stream => v.update ((v.attached stream).flushHostStreamOutboundFor between).1

-- ══ Runs

inductive Event
  | enqueue (es : List HostStream.Enqueue)
  | flushOutbound (between : Attached.Between)
  | notifyTx (turns : List TxTurn) (between : Attached.Between) (rx : List RxTurn)
  | notifyRx (rx : List RxTurn)

def step (v : Vsock) : Event → Vsock
  | .enqueue es => v.enqueue es
  | .flushOutbound between => v.flushHostStreamOutbound between
  | .notifyTx turns between rx => v.processTx turns between rx
  | .notifyRx rx => v.flushRx maxNotifyChains rx

def run (v : Vsock) (events : List Event) : Vsock := events.foldl step v

inductive Life
  | attach (stream : HostStream)
  | reset
  | event (event : Event)

def live (v : Vsock) : Life → Vsock
  | .attach stream => v.attachHostStream stream
  | .reset => v.resetHostStream
  | .event event => v.step event

end Vsock

end SporeVM.Virtio
