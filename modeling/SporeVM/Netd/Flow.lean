import Mathlib.Data.List.Basic
import Mathlib.Order.MinMax
import Mathlib.Tactic.Common

/-!
# Flows of the TCP relay

The relay of a guest's connections joins a socket of the TCP stack, which faces the guest, with a
socket of the host. A *flow* is one such pair with a bounded buffer for either direction. The
gateway serves its flows in passes. Between two passes the stack takes segments from the guest.

The stack and the host's kernel are not part of the relay. Of a socket of the stack the model keeps
what the relay asks it: its state, the bytes that were received and not read, and whether the
guest has finished. The answers of the host's socket are the inputs of a pass.
-/

namespace SporeVM.Netd

abbrev Bytes := List UInt8

-- ══ Sockets of the stack

inductive TcpState
  | closed
  | listen
  | synSent
  | synReceived
  | established
  | finWait1
  | finWait2
  | closeWait
  | closing
  | lastAck
  | timeWait
  deriving DecidableEq

structure TcpSock where
  state : TcpState
  unread : Bytes := []
  finReceived : Bool := false
  bound : Bool := true
  deriving DecidableEq

inductive RecvError
  | finished
  | invalidState
  deriving DecidableEq

namespace TcpSock

def mayRecv (sock : TcpSock) : Prop :=
  sock.unread ≠ [] ∨ sock.state = .established ∨ sock.state = .finWait1 ∨ sock.state = .finWait2

instance (sock : TcpSock) : Decidable sock.mayRecv := inferInstanceAs (Decidable (_ ∨ _))

def recvSlice (sock : TcpSock) (room : ℕ) : Except RecvError (Bytes × TcpSock) :=
  if sock.mayRecv then .ok (sock.unread.take room, { sock with unread := sock.unread.drop room })
  else if sock.finReceived = true then .error .finished
  else .error .invalidState

def close (sock : TcpSock) : TcpSock :=
  match sock.state with
  | .listen | .synSent => { sock with state := .closed }
  | .synReceived | .established => { sock with state := .finWait1 }
  | .closeWait => { sock with state := .lastAck }
  | _ => sock

def abort (sock : TcpSock) : TcpSock := { sock with state := .closed }

end TcpSock

def tcpRxBufferLen : ℕ := 16 * 1024

-- ══ Flows

def flowBufferLen : ℕ := 8 * 1024

structure ByteBuffer where
  bytes : Bytes := []
  fits : bytes.length ≤ flowBufferLen := by exact Nat.zero_le _

namespace ByteBuffer

def freeLen (buffer : ByteBuffer) : ℕ := flowBufferLen - buffer.bytes.length

def commit (buffer : ByteBuffer) (bytes : Bytes) : ByteBuffer :=
  ⟨(buffer.bytes ++ bytes).take flowBufferLen, by simp⟩

def consume (buffer : ByteBuffer) (len : ℕ) : ByteBuffer :=
  ⟨buffer.bytes.drop len, by
    have := buffer.fits
    simp only [List.length_drop]
    omega⟩

end ByteBuffer

inductive FlowState
  | free
  | connecting
  | connected
  | failed
  | closed
  deriving DecidableEq

def connectTimeoutMs : ℕ := 10000

def flowIdleTimeoutMs : ℕ := 120000

structure Flow where
  hostOpen : Bool := false
  state : FlowState := .free
  sock : TcpSock := { state := .closed, bound := false }
  toHost : ByteBuffer := {}
  toGuest : ByteBuffer := {}
  guestFin : Bool := false
  hostEof : Bool := false
  hostWriteShutdown : Bool := false
  connectDeadline : ℕ := 0
  idleDeadline : ℕ := 0

inductive OpenResult
  | connected
  | connecting
  | failed
  deriving DecidableEq

namespace Flow

def closeFd (flow : Flow) : Flow := { flow with hostOpen := false }

def refreshIdle (flow : Flow) (now : ℕ) : Flow :=
  { flow with idleDeadline := now + flowIdleTimeoutMs }

def start (sock : TcpState) (now : ℕ) : Flow :=
  { state := .failed
    sock := { state := sock }
    connectDeadline := now + connectTimeoutMs
    idleDeadline := now + flowIdleTimeoutMs }

def offer (sock : TcpState) (now : ℕ) : OpenResult → Flow
  | .connected => { start sock now with hostOpen := true, state := .connected }
  | .connecting => { start sock now with hostOpen := true, state := .connecting }
  | .failed => start sock now

def startPortForward (now : ℕ) : Flow :=
  { start .synSent now with hostOpen := true, state := .connected }

end Flow

-- ══ Passes

structure PollEvents where
  input : Bool := false
  output : Bool := false
  error : Bool := false
  hangUp : Bool := false
  deriving DecidableEq

inductive HostSend
  | sent (n : ℕ)
  | wouldBlock
  | failed
  deriving DecidableEq

inductive HostRead
  | read (bytes : Bytes)
  | closed
  | wouldBlock
  | failed
  deriving DecidableEq

inductive SockSend
  | sent (n : ℕ)
  | failed
  deriving DecidableEq

/-- What happens to a flow in one pass. Where a list of answers ends, the host would block, and the
stack takes no more. -/
structure Pass where
  now : ℕ
  revents : PollEvents := {}
  connects : Bool := true
  sends : List HostSend := []
  reads : List HostRead := []
  sockSends : List SockSend := []
  deriving DecidableEq

/-- A flow with what has come in and gone out: the bytes that the stack received in order, the
bytes that the host took, and whether the flow was aborted. -/
structure Relay where
  flow : Flow
  received : Bytes := []
  written : Bytes := []
  aborted : Bool := false

namespace Relay

def abortFlow (relay : Relay) : Relay :=
  { relay with
    aborted := true
    flow :=
      { relay.flow.closeFd with
        state := .closed
        hostEof := true
        toHost := {}
        toGuest := {}
        sock := relay.flow.sock.abort } }

end Relay

def drainGuestToHost (now : ℕ) (flow : Flow) : Flow :=
  if _hfree : 0 < flow.toHost.freeLen then
    match flow.sock.recvSlice flow.toHost.freeLen with
    | .error .finished => { flow with guestFin := true }
    | .error .invalidState => flow
    | .ok (bytes, sock) =>
      if _hbytes : bytes = [] then flow
      else drainGuestToHost now
        ({ flow with sock, toHost := flow.toHost.commit bytes }.refreshIdle now)
  else flow
termination_by flow.toHost.freeLen
decreasing_by
  have hpos := List.length_pos_iff.mpr _hbytes
  have hfits := flow.toHost.fits
  simp only [Flow.refreshIdle, ByteBuffer.commit, ByteBuffer.freeLen, List.length_take,
    List.length_append] at _hfree ⊢
  omega

def flushHostWrite (now : ℕ) : List HostSend → Relay → Relay
  | [], relay => relay
  | answer :: answers, relay =>
    if relay.flow.hostOpen = true ∧ relay.flow.toHost.bytes ≠ [] then
      match answer with
      | .wouldBlock => relay
      | .failed => relay.abortFlow
      | .sent n =>
        if n = 0 then relay
        else flushHostWrite now answers
          { relay with
            written := relay.written ++ relay.flow.toHost.bytes.take n
            flow := { relay.flow with toHost := relay.flow.toHost.consume n }.refreshIdle now }
    else relay

def readAnswers (now : ℕ) : List HostRead → Relay → Relay
  | [], relay => relay
  | answer :: answers, relay =>
    if 0 < relay.flow.toGuest.freeLen then
      match answer with
      | .wouldBlock => relay
      | .failed => relay.abortFlow
      | .closed => { relay with flow := { relay.flow with hostEof := true } }
      | .read bytes => readAnswers now answers
          { relay with
            flow := { relay.flow with toGuest := relay.flow.toGuest.commit bytes }.refreshIdle now }
    else relay

def readHost (pass : Pass) (relay : Relay) : Relay :=
  let canRead := pass.revents.input || pass.revents.error || pass.revents.hangUp
  if canRead = false ∨ relay.flow.hostOpen = false ∨ relay.flow.hostEof = true then relay
  else readAnswers pass.now pass.reads relay

def drainHostToGuest (now : ℕ) : List SockSend → Relay → Relay
  | [], relay => relay
  | answer :: answers, relay =>
    if relay.flow.toGuest.bytes ≠ [] then
      match answer with
      | .failed => relay.abortFlow
      | .sent n =>
        if n = 0 then relay
        else drainHostToGuest now answers
          { relay with
            flow := { relay.flow with toGuest := relay.flow.toGuest.consume n }.refreshIdle now }
    else relay

def shutdownHost (flow : Flow) : Flow :=
  if flow.guestFin = true ∧ flow.toHost.bytes = [] ∧ flow.hostWriteShutdown = false ∧
      flow.hostOpen = true then
    { flow with hostWriteShutdown := true }
  else flow

def finishFlow (flow : Flow) : Flow :=
  if flow.hostEof = true ∧ flow.toGuest.bytes = [] then
    if flow.hostWriteShutdown = true then
      { flow.closeFd with sock := flow.sock.close, state := .closed }
    else { flow with sock := flow.sock.close }
  else flow

def serviceConnect (pass : Pass) (relay : Relay) : Relay :=
  if relay.flow.state = .connecting then
    if (pass.revents.output || pass.revents.error || pass.revents.hangUp) = true then
      if pass.connects = true then
        { relay with flow := { relay.flow with state := .connected }.refreshIdle pass.now }
      else relay.abortFlow
    else if relay.flow.connectDeadline ≤ pass.now then relay.abortFlow
    else relay
  else relay

def transfer (pass : Pass) (relay : Relay) : Relay :=
  let relay := { relay with flow := drainGuestToHost pass.now relay.flow }
  let relay := flushHostWrite pass.now pass.sends relay
  let relay := readHost pass relay
  drainHostToGuest pass.now pass.sockSends relay

def serviceConnected (pass : Pass) (relay : Relay) : Relay :=
  if relay.flow.sock.state = .synSent ∧ relay.flow.connectDeadline ≤ pass.now then relay.abortFlow
  else if relay.flow.sock.state = .closed ∧ relay.flow.toHost.bytes = [] then
    { relay with flow := { relay.flow.closeFd with state := .closed, hostEof := true } }
  else
    let relay := transfer pass relay
    { relay with flow := finishFlow (shutdownHost relay.flow) }

def serviceFlow (pass : Pass) (relay : Relay) : Relay :=
  if relay.flow.state = .free then relay
  else if relay.flow.idleDeadline ≤ pass.now then relay.abortFlow
  else if relay.flow.state = .failed then relay.abortFlow
  else
    let relay := serviceConnect pass relay
    if relay.flow.state = .connected then serviceConnected pass relay else relay

def reapFlow (flow : Flow) : Flow :=
  if flow.state = .free ∨ flow.hostOpen = true ∨ flow.sock.state ≠ .closed ∨
      flow.sock.bound = true ∨ flow.toHost.bytes ≠ [] ∨ flow.toGuest.bytes ≠ [] then flow
  else {}

-- ══ Runs

/-- What can happen to a flow. Of a segment the stack takes the bytes that are next and fit in its
buffer, and no more once the guest has finished. The state after it is up to the stack. -/
inductive Event
  | pass (pass : Pass)
  | segment (bytes : Bytes) (fin : Bool) (state : TcpState) (bound : Bool)
  | reap
  deriving DecidableEq

def TcpSock.accepted (sock : TcpSock) (bytes : Bytes) : Bytes :=
  if sock.finReceived = true then [] else bytes.take (tcpRxBufferLen - sock.unread.length)

def TcpSock.receive (sock : TcpSock) (bytes : Bytes) (fin : Bool) (state : TcpState)
    (bound : Bool) : TcpSock :=
  { state
    unread := sock.unread ++ sock.accepted bytes
    finReceived := sock.finReceived || (fin && (sock.accepted bytes).length = bytes.length)
    bound }

def step (relay : Relay) : Event → Relay
  | .pass pass => serviceFlow pass relay
  | .segment bytes fin state bound =>
    { relay with
      received := relay.received ++ relay.flow.sock.accepted bytes
      flow := { relay.flow with sock := relay.flow.sock.receive bytes fin state bound } }
  | .reap => { relay with flow := reapFlow relay.flow }

def run (relay : Relay) (events : List Event) : Relay := events.foldl step relay

inductive Started : Flow → Prop
  | offer (sock : TcpState) (now : ℕ) (result : OpenResult) : Started (Flow.offer sock now result)
  | portForward (now : ℕ) : Started (Flow.startPortForward now)

end SporeVM.Netd
