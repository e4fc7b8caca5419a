import SporeVM.Virtio.Blk
import SporeVM.Virtio.Vsock

/-!
# Devices in front of guest memory

The synchronous paths of the entropy device, the console, the memory device, the network device and
the socket device (`virtio/rng.zig`, `virtio/console.zig`, `virtio/mem.zig`, `virtio/net.zig`,
`virtio/vsock.zig`), down to the bytes that they store. The state of the socket device is that of
`Virtio/Vsock.lean`; here its packets reach chains that stand in guest memory.

What lies behind a device is a value of its state: the host's entropy, the answers of the memory
backend, and the frames that reach the network device before each turn of its receive loop.
-/

namespace SporeVM.Virtio

open Lib (littleEndian)
open Lib.EState (capture runIf)
open Queue (Handler DeviceM popAvail pushUsed)

def Queue.Chain.view (chain : Queue.Chain) (ram : GuestRam) : Virtio.Chain where
  head := UInt16.ofNat chain.head
  segments := chain.segments.map fun seg => ⟨ram.bytesAt seg.addr seg.len, seg.writable⟩

def Queue.writableLen (segs : List Queue.Segment) : ℕ :=
  ((segs.filter Queue.Segment.writable).map Queue.Segment.len).sum

-- ══ Entropy

structure Rng where
  entropy : ℕ → UInt8
  taken : ℕ := 0

namespace Rng

def saturatingAddLen (total len : ℕ) : ℕ := total + min len (Blk.maxU32 - total)

def fillSegments : List Queue.Segment → ℕ → Rng → GuestRam → ℕ × Rng × GuestRam
  | [], written, rng, ram => (written, rng, ram)
  | seg :: rest, written, rng, ram =>
    if seg.writable = false then fillSegments rest written rng ram
    else
      fillSegments rest (saturatingAddLen written seg.len)
        { rng with taken := rng.taken + seg.len }
        (ram.store seg.addr (Lib.slice rng.entropy rng.taken seg.len))

def handleChain : Handler Rng := fun chain rng ram => fillSegments chain.segments 0 rng ram

def notify (qi : ℕ) : DeviceM Rng Bool :=
  if qi ≠ 0 then pure false else Queue.serve 0 handleChain Queue.maxNotifyChains false

end Rng

-- ══ Console

structure Console where
  output : Bytes := []

namespace Console

def txQueue : ℕ := 1

def forward (chain : Chain) (console : Console) : Console :=
  { output := console.output ++
      ((chain.segments.filter (·.writable = false)).map (·.data)).flatten }

def drainTx : ℕ → Bool → DeviceM Console Bool
  | 0, didWork => pure didWork
  | budget + 1, didWork => do
    match ← capture (popAvail txQueue) with
    | .error _ => pure didWork
    | .ok none => pure didWork
    | .ok (some chain) => do
      modify fun m => { m with device := m.device.forward (chain.view m.ram) }
      match ← capture (pushUsed txQueue chain.head 0) with
      | .error _ => pure didWork
      | .ok _ => drainTx budget true

def notify (qi : ℕ) : DeviceM Console Bool :=
  if qi ≠ txQueue then pure false else drainTx Queue.maxNotifyChains false

end Console

-- ══ Memory

/-- The grow-only memory device. `plugReplies` are the answers of the backend, if there is one. -/
structure Mem where
  blockSize : ℕ
  addr : ℕ
  regionSize : ℕ
  requestedSize : ℕ
  pluggedSize : ℕ := 0
  plugged : ℕ → Bool := fun _ => false
  plugFn : Bool := false
  plugContext : Bool := false
  plugReplies : List Bool := []

namespace Mem

def maxBlocks : ℕ := 8192

def respAck : ℕ := 0

def respNack : ℕ := 1

def respBusy : ℕ := 2

def respError : ℕ := 3

def blockRange (mem : Mem) (addr nbBlocks : ℕ) : Option (ℕ × ℕ) :=
  if nbBlocks = 0 ∨ addr < mem.addr then none
  else if (addr - mem.addr) % mem.blockSize ≠ 0 then none
  else if nbBlocks * mem.blockSize > maxU64 then none
  else if addr - mem.addr + nbBlocks * mem.blockSize > maxU64 then none
  else if addr - mem.addr + nbBlocks * mem.blockSize > mem.regionSize then none
  else if (addr - mem.addr + nbBlocks * mem.blockSize) / mem.blockSize > maxBlocks then none
  else
    some ((addr - mem.addr) / mem.blockSize,
      (addr - mem.addr + nbBlocks * mem.blockSize) / mem.blockSize)

def askBackend (mem : Mem) : Bool × Mem :=
  if mem.plugFn = false then (true, mem)
  else if mem.plugContext = false then (false, mem)
  else (mem.plugReplies.headD false, { mem with plugReplies := mem.plugReplies.tail })

def plug (mem : Mem) (addr nbBlocks : ℕ) : ℕ × Mem :=
  match mem.blockRange addr nbBlocks with
  | none => (respError, mem)
  | some (first, last) =>
    let size := nbBlocks * mem.blockSize
    if addr - mem.addr + size > mem.requestedSize ∨ mem.pluggedSize > mem.requestedSize ∨
        size > mem.requestedSize - mem.pluggedSize then (respError, mem)
    else if (List.range' first (last - first)).any mem.plugged then (respError, mem)
    else
      match mem.askBackend with
      | (false, mem) => (respBusy, mem)
      | (true, mem) =>
        (respAck,
          { mem with
            plugged := fun i => (first ≤ i && i < last) || mem.plugged i
            pluggedSize := mem.pluggedSize + size })

def rangeState (mem : Mem) (first last : ℕ) : ℕ :=
  let blocks := (List.range' first (last - first)).map mem.plugged
  if blocks.contains true && blocks.contains false then 2
  else if blocks.contains true then 0
  else 1

def answer (mem : Mem) (kind addr nbBlocks : ℕ) : ℕ × Option ℕ × Mem :=
  if kind = 0 then
    let (status, mem) := mem.plug addr nbBlocks
    (status, none, mem)
  else if kind = 3 then
    match mem.blockRange addr nbBlocks with
    | none => (respError, none, mem)
    | some (first, last) => (respAck, some (mem.rangeState first last), mem)
  else if kind = 1 ∨ kind = 2 then (respNack, none, mem)
  else (respError, none, mem)

def storeState (response : Queue.Segment) (value : Option ℕ) (ram : GuestRam) : GuestRam :=
  match value with
  | none => ram
  | some value => ram.store (response.addr + 8) (littleEndian value 2)

def handleRequest : Handler Mem := fun chain mem ram =>
  match chain.segments.find? Queue.Segment.writable with
  | none => (0, mem, ram)
  | some response =>
    if response.len < 10 then (0, mem, ram)
    else
      match (chain.view ram).copyReadableRange 0 24 with
      | none => (0, mem, ram)
      | some request =>
        let (status, value, mem) :=
          mem.answer (readInt request 0 2) (readInt request 8 8) (readInt request 16 2)
        (10, mem, (storeState response value ram).store response.addr (littleEndian status 2))

def notify (qi : ℕ) : DeviceM Mem Bool :=
  if qi ≠ 0 then pure false else Queue.serve 0 handleRequest Queue.maxNotifyChains false

end Mem

-- ══ Network

/-- The frames that wait for the guest, those that are going to come in before each turn of the
receive loop, and those that the guest has sent. -/
structure Net where
  rx : List Bytes := []
  arrivals : List (List Bytes) := []
  sent : List Bytes := []
  txPackets : ℕ := 0
  txBytes : ℕ := 0

namespace Net

def rxQueue : ℕ := 0

def txQueue : ℕ := 1

def netHeaderLen : ℕ := 12

def maxFrameLen : ℕ := 1514

def badFrame (frame : Bytes) : Bool := frame.length = 0 || frame.length > maxFrameLen

def txFrameFromChain (chain : Chain) : Option Bytes :=
  if chain.readableLen ≤ netHeaderLen then none
  else if chain.readableLen - netHeaderLen > maxFrameLen then none
  else chain.copyReadableRange netHeaderLen (chain.readableLen - netHeaderLen)

def headerZeros (copied room : ℕ) : Bytes :=
  if copied < netHeaderLen then List.replicate (min room (netHeaderLen - copied)) 0 else []

def framePart (frame : Bytes) (copied room : ℕ) : Bytes :=
  if netHeaderLen ≤ copied then (frame.drop (copied - netHeaderLen)).take room else []

/-- The loop over the segments. The inner loop of the source takes at most two steps in a segment,
one in the header and one in the frame. -/
def storeFrame (frame : Bytes) : ℕ → List Queue.Segment → GuestRam → Option ℕ × GuestRam
  | _, [], ram => (none, ram)
  | copied, seg :: rest, ram =>
    if seg.writable = false then storeFrame frame copied rest ram
    else
      let zeros := headerZeros copied seg.len
      let part := framePart frame (copied + zeros.length) (seg.len - zeros.length)
      let ram := (ram.store seg.addr zeros).store (seg.addr + zeros.length) part
      if copied + zeros.length + part.length = netHeaderLen + frame.length then
        (some (netHeaderLen + frame.length), ram)
      else storeFrame frame (copied + zeros.length + part.length) rest ram

def writeRxFrameToChain (chain : Queue.Chain) (frame : Bytes) (ram : GuestRam) :
    Option ℕ × GuestRam :=
  if badFrame frame then (none, ram)
  else if Queue.writableLen chain.segments < netHeaderLen + frame.length then (none, ram)
  else storeFrame frame 0 chain.segments ram

def peek (net : Net) : Net :=
  { net with
    rx := (net.rx ++ net.arrivals.headD []).dropWhile badFrame
    arrivals := net.arrivals.tail }

def transmit (net : Net) (frame : Bytes) : Net :=
  { net with
    sent := net.sent ++ [frame]
    txPackets := (net.txPackets + 1) % 2 ^ 64
    txBytes := (net.txBytes + frame.length) % 2 ^ 64 }

def transmitChain (chain : Chain) (net : Net) : Net :=
  match txFrameFromChain chain with
  | none => net
  | some frame => net.transmit frame

def modifyNet (f : Net → Net) : DeviceM Net Unit := modify fun m => { m with device := f m.device }

def drainTx : ℕ → Bool → DeviceM Net (Bool × ℕ)
  | 0, didWork => pure (didWork, 0)
  | budget + 1, didWork => do
    match ← capture (popAvail txQueue) with
    | .error _ => pure (didWork, budget + 1)
    | .ok none => pure (didWork, budget + 1)
    | .ok (some chain) => do
      let m ← get
      modifyNet (transmitChain (chain.view m.ram))
      match ← capture (pushUsed txQueue chain.head 0) with
      | .error _ => pure (didWork, budget)
      | .ok _ => drainTx budget true

def storeFrameM (chain : Queue.Chain) (frame : Bytes) : DeviceM Net ℕ := do
  let m ← get
  let (written, ram) := writeRxFrameToChain chain frame m.ram
  set { m with ram }
  pure (written.getD 0)

def flushRx : ℕ → Bool → DeviceM Net Bool
  | 0, didWork => pure didWork
  | budget + 1, didWork => do
    modifyNet peek
    let m ← get
    match m.device.rx with
    | [] => pure didWork
    | frame :: _ => do
      match ← capture (popAvail rxQueue) with
      | .error _ => pure didWork
      | .ok none => pure didWork
      | .ok (some chain) => do
        let written ← storeFrameM chain frame
        runIf (written > 0) chain.markWritableDirty
        match ← capture (pushUsed rxQueue chain.head written) with
        | .error _ => pure didWork
        | .ok _ => do
          runIf (written > 0) (modifyNet fun net => { net with rx := net.rx.tail })
          flushRx budget true

def notify (qi : ℕ) : DeviceM Net Bool :=
  if qi = txQueue then do
    let (didTx, budget) ← drainTx Queue.maxNotifyChains false
    let didRx ← flushRx budget false
    pure (didRx || didTx)
  else if qi = rxQueue then flushRx Queue.maxNotifyChains false
  else pure false

end Net

-- ══ Sockets

namespace VsockRam

def rxQueue : ℕ := 0

def txQueue : ℕ := 1

def storePacket (buf payload : Bytes) : ℕ → List Queue.Segment → GuestRam → Option ℕ × GuestRam
  | _, [], ram => (none, ram)
  | copied, seg :: rest, ram =>
    if seg.writable = false then storePacket buf payload copied rest ram
    else
      let head := headerPart buf copied seg.len
      let tail := payloadPart payload (copied + head.length) (seg.len - head.length)
      let ram := (ram.store seg.addr head).store (seg.addr + head.length) tail
      if copied + head.length + tail.length = headerLen + payload.length then
        (some (headerLen + payload.length), ram)
      else storePacket buf payload (copied + head.length + tail.length) rest ram

def deliverable (packet : Packet) (capacity : ℕ) : Option ℕ :=
  let take := min packet.data.length (capacity - headerLen)
  if headerLen ≤ capacity ∧
      (take = packet.data.length ∨ packet.header.op = opRw ∧ 0 < take) then some take
  else none

def fill (chain : Queue.Chain) (packet : Packet) (ram : GuestRam) : ℕ × GuestRam :=
  match deliverable packet (Queue.writableLen chain.segments) with
  | none => (0, ram)
  | some take =>
    let (written, ram) := storePacket (writeHeader (packet.header.withLen take))
      (packet.data.take take) 0 chain.segments ram
    (written.getD 0, ram)

def storePacketM (chain : Queue.Chain) (packet : Packet) : DeviceM Vsock ℕ := do
  let m ← get
  let (written, ram) := fill chain packet m.ram
  set { m with ram }
  pure written

def modifyVsock (f : Vsock → Vsock) : DeviceM Vsock Unit :=
  modify fun m => { m with device := f m.device }

def flushRx : ℕ → Bool → DeviceM Vsock Bool
  | 0, didWork => pure didWork
  | budget + 1, didWork => do
    let m ← get
    match m.device.pending with
    | [] => pure didWork
    | packet :: rest => do
      match ← capture (popAvail rxQueue) with
      | .error _ => pure didWork
      | .ok none => pure didWork
      | .ok (some chain) => do
        let m ← get
        let written ← storePacketM chain packet
        chain.markWritableDirty
        match ← capture (pushUsed rxQueue chain.head written) with
        | .error _ => pure didWork
        | .ok _ => do
          modifyVsock fun v => (v.deliver packet rest (chain.view m.ram) true).1
          flushRx budget true

/-- The loop over the transmit queue. The budget that is left is for the receive queue; there is
none after an error, which ends the notification. -/
def processChains (before : ℕ → List HostStream.Enqueue) (between : ℕ → Attached.Between) :
    ℕ → Bool → DeviceM Vsock (Bool × Option ℕ)
  | 0, didWork => pure (didWork, some 0)
  | budget + 1, didWork => do
    modifyVsock (·.enqueue (before budget))
    match ← capture (popAvail txQueue) with
    | .error _ => pure (didWork, none)
    | .ok none => pure (didWork, some (budget + 1))
    | .ok (some chain) => do
      let m ← get
      modifyVsock (·.handleChain (between budget) (chain.view m.ram))
      match ← capture (pushUsed txQueue chain.head 0) with
      | .error _ => pure (didWork, none)
      | .ok _ => processChains before between budget true

def processTx (before : ℕ → List HostStream.Enqueue) (between : ℕ → Attached.Between) :
    DeviceM Vsock Bool := do
  let (didWork, budget) ← processChains before between Queue.maxNotifyChains false
  match budget with
  | none => pure didWork
  | some budget => do
    modifyVsock (·.flushOutbound (between Queue.maxNotifyChains))
    let didRx ← flushRx budget false
    pure (didRx || didWork)

def notify (before : ℕ → List HostStream.Enqueue) (between : ℕ → Attached.Between) (qi : ℕ) :
    DeviceM Vsock Bool :=
  if qi = txQueue then processTx before between
  else if qi = rxQueue then flushRx Queue.maxNotifyChains false
  else pure false

end VsockRam

end SporeVM.Virtio
