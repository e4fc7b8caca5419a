import SporeVM.Lib.LittleEndian
import SporeVM.Lib.Ring

/-!
# The host end of a stream

`virtio/vsock_stream.zig`, with the frame envelope of `spore_stream.zig`. A stream holds the request
that the host sends first, a ring of frames that wait to be sent, the credit that the guest has
granted, and the parser of the frames that the guest sends back.

Frames are enqueued by other threads under a lock, so an enqueue is one step. Clocks, metrics that
read them, and the lifecycle sink are left out. Two fields are history variables: `entered` is the
frames that have entered the ring, and `emitted` the bytes that the output sink has been given, each
with its stream, both in their order.
-/

namespace SporeVM.Virtio

open Lib (littleEndian ofLittleEndian Ring)
open List

abbrev Bytes := List UInt8

def maxPayload : ℕ := 8192

def maxOutboundFrames : ℕ := 16

def maxV1ControlPayload : ℕ := 512

-- ══ Frames

inductive FrameType
  | data | close | exit | resize | signal | err | event
  deriving DecidableEq

def FrameType.code : FrameType → ℕ
  | data => 1
  | close => 2
  | exit => 3
  | resize => 4
  | signal => 5
  | err => 6
  | event => 7

def FrameType.parse (raw : ℕ) : Option FrameType :=
  [.data, .close, .exit, .resize, .signal, .err, .event].find? fun t => t.code = raw

inductive StreamId
  | control | stdin | stdout | stderr | terminal
  deriving DecidableEq

def StreamId.code : StreamId → ℕ
  | control => 0
  | stdin => 1
  | stdout => 2
  | stderr => 3
  | terminal => 4

def StreamId.parse (raw : ℕ) : Option StreamId :=
  [.control, .stdin, .stdout, .stderr, .terminal].find? fun t => t.code = raw

structure FrameHeader where
  frameType : FrameType
  flags : ℕ := 0
  streamId : StreamId
  offset : ℕ := 0
  payloadLen : ℕ := 0
  deriving DecidableEq

inductive FrameError
  | badMagic | unsupportedVersion | unknownFrameType | unknownStreamId | payloadTooLarge
  deriving DecidableEq

def magic : Bytes := [83, 80, 73, 79]

def frameVersion : UInt8 := 1

def frameHeaderLen : ℕ := 24

def maxFramePayloadLen : ℕ := 4096

def writeFrameHeader (header : FrameHeader) : Bytes :=
  magic ++ [frameVersion, UInt8.ofNat header.frameType.code] ++ littleEndian header.flags 2 ++
    littleEndian header.streamId.code 4 ++ littleEndian header.offset 8 ++
    littleEndian header.payloadLen 4

def readInt (buf : Bytes) (off len : ℕ) : ℕ := ofLittleEndian ((buf.drop off).take len)

def readFrameHeader (buf : Bytes) : Except FrameError FrameHeader :=
  if buf.take 4 ≠ magic then .error .badMagic
  else if readInt buf 4 1 ≠ frameVersion.toNat then .error .unsupportedVersion
  else
    match FrameType.parse (readInt buf 5 1), StreamId.parse (readInt buf 8 4) with
    | none, _ => .error .unknownFrameType
    | some _, none => .error .unknownStreamId
    | some frameType, some streamId =>
      if readInt buf 20 4 > maxFramePayloadLen then .error .payloadTooLarge
      else
        .ok
          { frameType
            flags := readInt buf 6 2
            streamId
            offset := readInt buf 12 8
            payloadLen := readInt buf 20 4 }

structure Resize where
  rows : ℕ
  cols : ℕ
  deriving DecidableEq

def writeResizePayload (resize : Resize) : Bytes :=
  littleEndian resize.rows 2 ++ littleEndian resize.cols 2

def resizeFrame (resize : Resize) : Bytes :=
  writeFrameHeader { frameType := .resize, streamId := .terminal, payloadLen := 4 } ++
    writeResizePayload resize

lemma length_resizeFrame (resize : Resize) : (resizeFrame resize).length ≤ maxPayload := by
  simp [resizeFrame, writeFrameHeader, writeResizePayload, magic, maxPayload,
    Lib.length_littleEndian]

-- ══ The parser of the guest's frames

inductive HostStreamState
  | idle | connecting | connected | complete | failed
  deriving DecidableEq

lemma nil_lt_header : ([] : Bytes).length < frameHeaderLen := by decide

lemma none_pos : ∀ p ∈ (none : Option (FrameHeader × ℕ)), 0 < p.2 := by simp

/-- What the stream has read of the guest's output. A header is read until it is whole, so the
buffer is never full between two pieces, and a payload that is being read is not at its end. -/
structure OutputParser where
  state : HostStreamState := .connecting
  headerBuf : Bytes := []
  payload : Option (FrameHeader × ℕ) := none
  controlPayload : Bytes := []
  stdoutOffset : ℕ := 0
  stderrOffset : ℕ := 0
  terminalOffset : ℕ := 0
  exitCode : Option ℕ := none
  memoryPressureCount : ℕ := 0
  emitted : List (StreamId × UInt8) := []
  headerBuf_lt : headerBuf.length < frameHeaderLen := by exact nil_lt_header
  payload_pos : ∀ p ∈ payload, 0 < p.2 := by exact none_pos

namespace OutputParser

def fail (p : OutputParser) : OutputParser := { p with state := .failed }

def validateV1Header (p : OutputParser) (header : FrameHeader) : Bool :=
  header.flags = 0 &&
    match header.frameType with
    | .data =>
      match header.streamId with
      | .stdout => header.offset = p.stdoutOffset
      | .stderr => header.offset = p.stderrOffset
      | .terminal => header.offset = p.terminalOffset
      | .control | .stdin => false
    | .close =>
      header.payloadLen = 0 &&
        (header.streamId = .stdout || header.streamId = .stderr || header.streamId = .terminal)
    | .exit => header.streamId = .control && header.offset = 0 && header.payloadLen = 4
    | .event | .err => header.streamId = .control && header.payloadLen ≤ maxV1ControlPayload
    | .resize | .signal => false

def saturate (n : ℕ) : ℕ := min n (2 ^ 64 - 1)

def emit (p : OutputParser) (streamId : StreamId) (data : Bytes) : OutputParser :=
  { p with emitted := p.emitted ++ data.map fun b => (streamId, b) }

def emitOutput (p : OutputParser) (streamId : StreamId) (data : Bytes) : OutputParser :=
  match streamId with
  | .stdout => { p.emit .stdout data with stdoutOffset := saturate (p.stdoutOffset + data.length) }
  | .stderr => { p.emit .stderr data with stderrOffset := saturate (p.stderrOffset + data.length) }
  | .terminal =>
    { p.emit .terminal data with terminalOffset := saturate (p.terminalOffset + data.length) }
  | .control | .stdin => p.fail

def handleV1PayloadBytes (p : OutputParser) (header : FrameHeader) (data : Bytes) : OutputParser :=
  match header.frameType with
  | .data => p.emitOutput header.streamId data
  | .exit | .event | .err =>
    if p.controlPayload.length + data.length > maxV1ControlPayload then p.fail
    else { p with controlPayload := p.controlPayload ++ data }
  | .close | .resize | .signal => p

def memoryPressure : Bytes := "memory-pressure".toUTF8.toList

def timingWord : Bytes := "timing ".toUTF8.toList

def finishV1Frame (p : OutputParser) (header : FrameHeader) : OutputParser :=
  match header.frameType with
  | .data | .close => p
  | .exit =>
    if p.controlPayload.length ≠ 4 ∨ ofLittleEndian p.controlPayload > 255 then p.fail
    else { p with exitCode := some (ofLittleEndian p.controlPayload), state := .complete }
  | .event =>
    if p.controlPayload = memoryPressure then
      { p with memoryPressureCount := min (p.memoryPressureCount + 1) (2 ^ 32 - 1) }
    else if timingWord.isPrefixOf p.controlPayload then p
    else p.fail
  | .err | .resize | .signal => p.fail

def endFrame (p : OutputParser) : OutputParser :=
  { p with payload := none, controlPayload := [], payload_pos := none_pos }

def readPayload (p : OutputParser) (header : FrameHeader) (remaining : ℕ) (data : Bytes) :
    OutputParser :=
  let read := p.handleV1PayloadBytes header (data.take remaining)
  if h : remaining - data.length = 0 then (read.finishV1Frame header).endFrame
  else
    { read with
      payload := some (header, remaining - data.length)
      payload_pos := fun p hp => by cases hp; exact Nat.pos_of_ne_zero h }

/-- A header that is whole: it starts a frame, which ends at once if it is empty. A header that
cannot be read is not looked at again, for the stream has failed. -/
def startFrame (p : OutputParser) (buf : Bytes) : OutputParser :=
  let p := { p with headerBuf := [], headerBuf_lt := nil_lt_header }
  match readFrameHeader buf with
  | .error _ => p.fail
  | .ok header =>
    if p.validateV1Header header = false then p.fail
    else if h : header.payloadLen = 0 then
      ({ p with controlPayload := [] }.finishV1Frame header).endFrame
    else
      { p with
        payload := some (header, header.payloadLen)
        controlPayload := []
        payload_pos := fun p hp => by cases hp; exact Nat.pos_of_ne_zero h }

def readHeaderBytes (p : OutputParser) (data : Bytes) : OutputParser :=
  let buf := p.headerBuf ++ data.take (frameHeaderLen - p.headerBuf.length)
  if h : buf.length < frameHeaderLen then { p with headerBuf := buf, headerBuf_lt := h }
  else p.startFrame buf

def turn (p : OutputParser) (data : Bytes) : OutputParser × Bytes :=
  match p.payload with
  | some (header, remaining) => (p.readPayload header remaining data, data.drop remaining)
  | none => (p.readHeaderBytes data, data.drop (frameHeaderLen - p.headerBuf.length))

lemma turn_shorter (p : OutputParser) {data : Bytes} (h : data ≠ []) :
    (p.turn data).2.length < data.length := by
  have hpos := length_pos_iff.mpr h
  unfold turn
  split
  · next header remaining hpayload =>
    have := p.payload_pos _ hpayload
    rw [length_drop]
    omega
  · have := p.headerBuf_lt
    rw [length_drop]
    omega

def read (p : OutputParser) (data : Bytes) : OutputParser :=
  if h : data = [] ∨ p.state = .failed ∨ p.state = .complete then p
  else
    have := p.turn_shorter fun hnil => h (.inl hnil)
    read (p.turn data).1 (p.turn data).2
termination_by data.length

end OutputParser

-- ══ The stream

inductive StreamError
  | requestTooLarge | packetTooLarge | outboundFull
  deriving DecidableEq

structure HostStream where
  guestPort : UInt32
  hostPort : UInt32 := 49152
  request : Bytes
  output : OutputParser := {}
  receivedBytes : UInt32 := 0
  sentBytes : UInt32 := 0
  creditFwdCntSent : UInt32 := 0
  peerBufAlloc : UInt32 := 0
  peerFwdCnt : UInt32 := 0
  requestSent : Bool := false
  outbound : Ring Bytes maxOutboundFrames
  pendingResize : Option Resize := none
  entered : List Bytes := []

namespace HostStream

def state (s : HostStream) : HostStreamState := s.output.state

def emptyRing : Ring Bytes maxOutboundFrames where
  slots _ := []
  head := 0
  count := 0
  head_lt := by decide
  count_le := by decide

def init (guestPort : UInt32) (request : Bytes) : Except StreamError HostStream :=
  if request.length > maxPayload then .error .requestTooLarge
  else .ok { guestPort, request, outbound := emptyRing }

def markConnected (s : HostStream) : HostStream :=
  { s with output := { s.output with state := .connected } }

def fail (s : HostStream) : HostStream := { s with output := s.output.fail }

def appendOutput (s : HostStream) (data : Bytes) : HostStream :=
  { s with
    receivedBytes := s.receivedBytes + UInt32.ofNat data.length
    output := s.output.read data }

def enter (s : HostStream) (frame : Bytes) (h : s.outbound.count < maxOutboundFrames) :
    HostStream :=
  { s with outbound := s.outbound.push frame h, entered := s.entered ++ [frame] }

def queuePendingResizeLocked (s : HostStream) : HostStream :=
  match s.pendingResize with
  | none => s
  | some resize =>
    if h : s.outbound.count < maxOutboundFrames then
      { s.enter (resizeFrame resize) h with pendingResize := none }
    else s

def enqueueResize (s : HostStream) (resize : Resize) : HostStream :=
  if s.state = .complete ∨ s.state = .failed then s
  else queuePendingResizeLocked { s with pendingResize := some resize }

def enqueueOutbound (s : HostStream) (frame : Bytes) : Except StreamError HostStream :=
  if frame.length > maxPayload then .error .packetTooLarge
  else if h : s.outbound.count < maxOutboundFrames then .ok (s.enter frame h)
  else .error .outboundFull

inductive Enqueue
  | frame (bytes : Bytes)
  | resize (size : Resize)

def enqueue (s : HostStream) : Enqueue → HostStream
  | .frame bytes =>
    match s.enqueueOutbound bytes with
    | .ok s => s
    | .error _ => s
  | .resize size => s.enqueueResize size

def enqueueAll (s : HostStream) (es : List Enqueue) : HostStream := es.foldl enqueue s

def dequeueOutboundWithin (s : HostStream) (limit : ℕ) : Option (Bytes × HostStream) :=
  if s.outbound.count = 0 then none
  else
    let frame := s.outbound.slots s.outbound.head
    if frame.length > limit then none
    else some (frame, queuePendingResizeLocked { s with outbound := s.outbound.pop })

def txWindowFree (s : HostStream) : UInt32 :=
  let inflight := s.sentBytes - s.peerFwdCnt
  if inflight ≥ s.peerBufAlloc then 0 else s.peerBufAlloc - inflight

end HostStream

-- ══ Frames and sizes through the ring

/-- The calls under the lock of the ring. -/
inductive RingCall
  | enqueueOutbound (frame : Bytes)
  | enqueueResize (size : Resize)
  | dequeueOutboundWithin (limit : ℕ)

/-- A stream, the frames and sizes it has accepted, and the frames it has delivered. -/
structure Traffic where
  stream : HostStream
  frames : List Bytes := []
  sizes : List Resize := []
  delivered : List Bytes := []

def Traffic.step (t : Traffic) : RingCall → Traffic
  | .enqueueOutbound frame =>
    match t.stream.enqueueOutbound frame with
    | .ok stream => { t with stream, frames := t.frames ++ [frame] }
    | .error _ => t
  | .enqueueResize size =>
    if t.stream.state = .complete ∨ t.stream.state = .failed then t
    else { t with stream := t.stream.enqueueResize size, sizes := t.sizes ++ [size] }
  | .dequeueOutboundWithin limit =>
    match t.stream.dequeueOutboundWithin limit with
    | some (frame, stream) => { t with stream, delivered := t.delivered ++ [frame] }
    | none => t

def Traffic.drain (t : Traffic) (limit n : ℕ) : Traffic :=
  (replicate n (.dequeueOutboundWithin limit)).foldl Traffic.step t

def frameOf : Bytes ⊕ Resize → Bytes := Sum.elim id resizeFrame

def framesIn (l : List (Bytes ⊕ Resize)) : List Bytes := l.filterMap Sum.getLeft?

def sizesIn (l : List (Bytes ⊕ Resize)) : List Resize := l.filterMap Sum.getRight?

/-- What has left the ring and what waits in it, with the size that may wait beside it. -/
structure Linked (t : Traffic) (out waiting : List (Bytes ⊕ Resize)) : Prop where
  delivered : t.delivered = out.map frameOf
  ring : t.stream.outbound.toList = waiting.map frameOf
  frames : framesIn (out ++ waiting) = t.frames
  sizes : (sizesIn (out ++ waiting) ++ t.stream.pendingResize.toList).Sublist t.sizes
  last : (sizesIn (out ++ waiting) ++ t.stream.pendingResize.toList).getLast? = t.sizes.getLast?
  short : ∀ x ∈ waiting, (frameOf x).length ≤ maxPayload

/-- A size waits beside the ring only while the ring is full. -/
def Traffic.Settled (t : Traffic) : Prop :=
  t.stream.pendingResize ≠ none → t.stream.outbound.count = maxOutboundFrames

/-- What is still to be delivered. -/
def Traffic.load (t : Traffic) : ℕ :=
  t.stream.outbound.count + t.stream.pendingResize.toList.length

section Traffic

variable {t : Traffic} {out waiting : List (Bytes ⊕ Resize)} (h : Linked t out waiting)

include h

lemma Linked.queuePending :
    ∃ waiting, Linked { t with stream := t.stream.queuePendingResizeLocked } out waiting ∧
      Traffic.Settled { t with stream := t.stream.queuePendingResizeLocked } := by
  unfold HostStream.queuePendingResizeLocked
  cases hpending : t.stream.pendingResize with
  | none => exact ⟨waiting, h, absurd hpending⟩
  | some size =>
    dsimp only
    obtain ⟨hout, hring, hframes, hsizes, hlast, hshort⟩ := h
    rw [hpending] at hsizes hlast
    split
    · refine ⟨waiting ++ [.inr size], ⟨hout, ?_, ?_, ?_, ?_, ?_⟩, absurd rfl⟩
      · simp [HostStream.enter, Ring.toList_push, hring, frameOf]
      · simpa [framesIn, filterMap_cons] using hframes
      · simpa [sizesIn] using hsizes
      · simpa [sizesIn] using hlast
      · refine forall_mem_append.mpr ⟨hshort, forall_mem_singleton.mpr ?_⟩
        exact length_resizeFrame size
    · next hfull =>
      refine ⟨waiting, ⟨hout, hring, hframes, hpending ▸ hsizes, hpending ▸ hlast, hshort⟩,
        fun _ => ?_⟩
      exact Nat.le_antisymm t.stream.outbound.count_le (Nat.le_of_not_lt hfull)

lemma Linked.step (hsettled : t.Settled) (call : RingCall) :
    ∃ out waiting, Linked (t.step call) out waiting ∧ (t.step call).Settled := by
  cases call with
  | enqueueOutbound frame =>
    simp only [Traffic.step, HostStream.enqueueOutbound]
    split_ifs with hlong hroom
    · exact ⟨out, waiting, h, hsettled⟩
    · have hnone : t.stream.pendingResize = none := by
        by_contra hne
        exact absurd (hsettled hne) hroom.ne
      refine ⟨out, waiting ++ [.inl frame], ⟨h.delivered, ?_, ?_, ?_, ?_, ?_⟩, absurd hnone⟩
      · simp [HostStream.enter, Ring.toList_push, h.ring, frameOf]
      · simp [← h.frames, framesIn]
      · simpa [sizesIn, filterMap_cons, HostStream.enter] using h.sizes
      · simpa [sizesIn, filterMap_cons, HostStream.enter] using h.last
      · exact forall_mem_append.mpr ⟨h.short, forall_mem_singleton.mpr (Nat.le_of_not_lt hlong)⟩
    · exact ⟨out, waiting, h, hsettled⟩
  | enqueueResize size =>
    simp only [Traffic.step, HostStream.enqueueResize]
    split
    · exact ⟨out, waiting, h, hsettled⟩
    · -- The size takes the place of one that waits, and enters the ring if there is room.
      have hlinked : Linked { t with stream.pendingResize := some size, sizes := t.sizes ++ [size] }
          out waiting :=
        ⟨h.delivered, h.ring, h.frames, ((sublist_append_left _ _).trans h.sizes).append
          (.refl [size]), by simp, h.short⟩
      exact ⟨out, hlinked.queuePending⟩
  | dequeueOutboundWithin limit =>
    simp only [Traffic.step, HostStream.dequeueOutboundWithin]
    split_ifs with hempty hlong
    · exact ⟨out, waiting, h, hsettled⟩
    · exact ⟨out, waiting, h, hsettled⟩
    · have hring := h.ring
      rw [Ring.toList_pop _ hempty] at hring
      obtain ⟨first, rest, rfl, hfirst, hrest⟩ := map_eq_cons_iff.mp hring.symm
      have hlinked : Linked { t with
          stream.outbound := t.stream.outbound.pop
          delivered := t.delivered ++ [t.stream.outbound.slots t.stream.outbound.head] }
          (out ++ [first]) rest :=
        ⟨by simp [h.delivered, hfirst], hrest.symm, by simpa using h.frames,
          by simpa using h.sizes, by simpa using h.last,
          fun x hx => h.short x (mem_cons_of_mem _ hx)⟩
      exact ⟨out ++ [first], hlinked.queuePending⟩

omit h

lemma run_linked (calls : List RingCall) (h : ∃ out waiting, Linked t out waiting ∧ t.Settled) :
    ∃ out waiting, Linked (calls.foldl Traffic.step t) out waiting ∧
      (calls.foldl Traffic.step t).Settled := by
  refine foldlRecOn calls Traffic.step
    (motive := fun t => ∃ out waiting, Linked t out waiting ∧ t.Settled) h ?_
  rintro t ⟨out, waiting, h, hsettled⟩ call -
  exact h.step hsettled call

-- ══ Draining the ring

/-- A dequeue whose limit is large enough takes the frame that waits longest out of the ring. -/
theorem Linked.dequeue {first : Bytes ⊕ Resize} {rest : List (Bytes ⊕ Resize)}
    (h : Linked t out (first :: rest)) {limit : ℕ} (hlimit : (frameOf first).length ≤ limit) :
    (t.step (.dequeueOutboundWithin limit)).delivered = t.delivered ++ [frameOf first] ∧
      (t.step (.dequeueOutboundWithin limit)).load + 1 = t.load := by
  have hcount : t.stream.outbound.count ≠ 0 := by
    rw [← Ring.length_toList, h.ring]
    simp
  have hring := h.ring
  rw [Ring.toList_pop _ hcount, map_cons, List.cons.injEq] at hring
  have hbound := t.stream.outbound.count_le
  simp only [Traffic.step, HostStream.dequeueOutboundWithin, if_neg hcount, hring.1,
    if_neg hlimit.not_gt, true_and]
  -- A size that waits finds the place that the frame has left.
  unfold HostStream.queuePendingResizeLocked
  cases hpending : t.stream.pendingResize with
  | none =>
    simp only [Traffic.load, hpending, Ring.pop, Option.toList_none, length_nil]
    omega
  | some size =>
    have hroom : t.stream.outbound.pop.count < maxOutboundFrames := by
      change t.stream.outbound.count - 1 < _
      omega
    dsimp only
    rw [dif_pos hroom]
    simp only [Traffic.load, hpending, HostStream.enter, Ring.push, Ring.pop,
      Option.toList_none, Option.toList_some, length_nil, length_singleton]
    omega

lemma dequeue_accepted (limit : ℕ) :
    (t.step (.dequeueOutboundWithin limit)).frames = t.frames ∧
      (t.step (.dequeueOutboundWithin limit)).sizes = t.sizes := by
  simp only [Traffic.step]
  split <;> exact ⟨rfl, rfl⟩

/-- **Draining.** As many dequeues as there is load take out everything. -/
theorem Linked.drain {limit : ℕ} (hlimit : maxPayload ≤ limit) :
    ∀ (n : ℕ) {t : Traffic} {out waiting : List (Bytes ⊕ Resize)}, Linked t out waiting →
      t.Settled → t.load = n →
      ∃ out', Linked (t.drain limit n) out' [] ∧ (t.drain limit n).load = 0 ∧
        (t.drain limit n).frames = t.frames ∧ (t.drain limit n).sizes = t.sizes
  | 0, t, out, waiting, h, _, hload => by
    have hempty : waiting = [] := by
      have hlength := congrArg length h.ring
      rw [Ring.length_toList, length_map] at hlength
      unfold Traffic.load at hload
      exact length_eq_zero_iff.mp (by omega)
    exact ⟨out, hempty ▸ h, hload, rfl, rfl⟩
  | n + 1, t, out, waiting, h, hsettled, hload => by
    cases waiting with
    | nil =>
      have hcount : t.stream.outbound.count = 0 := by
        rw [← Ring.length_toList, h.ring]
        rfl
      have hpending : t.stream.pendingResize ≠ none := by
        intro hnone
        simp [Traffic.load, hcount, hnone] at hload
      cases hcount.symm.trans (hsettled hpending)
    | cons first rest =>
      have hnext := h.dequeue ((h.short first mem_cons_self).trans hlimit)
      obtain ⟨out', waiting', h', hsettled'⟩ := h.step hsettled (.dequeueOutboundWithin limit)
      obtain ⟨hframes, hsizes⟩ := dequeue_accepted (t := t) limit
      have hdrained := Linked.drain hlimit n h' hsettled' (by omega)
      rwa [hframes, hsizes] at hdrained

end Traffic

def Traffic.initial (guestPort hostPort : UInt32) (request : Bytes) (output : OutputParser) :
    Traffic :=
  { stream := { guestPort, hostPort, request, output, outbound := HostStream.emptyRing } }

def sampleTraffic : List RingCall :=
  [.enqueueOutbound [1], .enqueueResize ⟨80, 24⟩, .enqueueOutbound [2, 3],
    .dequeueOutboundWithin 1]

end SporeVM.Virtio
