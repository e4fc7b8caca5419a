import SporeVM.Netd.Flow

/-!
# The guest's bytes reach the host

As long as the host's socket of a flow is open, the bytes that the stack received from the guest are
those that were written to the host, then those in the buffer, then those that were not read: each
once, and in order.

A flow that closes the host's socket because both sides have finished has written them all. A flow
whose socket of the stack is closed is closed when its buffer is empty, without a look at the bytes
that the stack still holds, and those are lost.
-/

namespace SporeVM.Netd

open List

structure Relay.Conserved (relay : Relay) : Prop where
  stream : relay.written ++ (relay.flow.toHost.bytes ++ relay.flow.sock.unread) = relay.received
  /-- The end of the guest's bytes is seen after the last of them. -/
  guestFin : relay.flow.guestFin = true →
    relay.flow.sock.finReceived = true ∧ relay.flow.sock.unread = []
  shutdown : relay.flow.hostWriteShutdown = true →
    relay.flow.guestFin = true ∧ relay.flow.toHost.bytes = []

def Relay.Held (relay : Relay) : Prop :=
  relay.Conserved ∧ relay.flow.hostOpen = true ∨ relay.aborted = true ∧ relay.flow.hostOpen = false

def Relay.Served (relay : Relay) : Prop :=
  relay.Conserved ∨ relay.aborted = true ∧ relay.flow.hostOpen = false

structure Relay.SameStream (relay relay' : Relay) : Prop where
  written : relay'.written = relay.written
  received : relay'.received = relay.received
  toHost : relay'.flow.toHost.bytes = relay.flow.toHost.bytes
  unread : relay'.flow.sock.unread = relay.flow.sock.unread
  finReceived : relay'.flow.sock.finReceived = relay.flow.sock.finReceived
  guestFin : relay'.flow.guestFin = relay.flow.guestFin
  hostWriteShutdown : relay'.flow.hostWriteShutdown = relay.flow.hostWriteShutdown
  hostOpen : relay'.flow.hostOpen = relay.flow.hostOpen
  aborted : relay'.aborted = relay.aborted

namespace Relay

variable {relay relay' : Relay}

lemma SameStream.conserved (h : SameStream relay relay') (hc : relay.Conserved) :
    relay'.Conserved := by
  constructor
  · rw [h.written, h.toHost, h.unread, h.received]
    exact hc.stream
  · rw [h.guestFin, h.finReceived, h.unread]
    exact hc.guestFin
  · rw [h.hostWriteShutdown, h.guestFin, h.toHost]
    exact hc.shutdown

lemma SameStream.held (h : SameStream relay relay') (hheld : relay.Held) : relay'.Held := by
  rcases hheld with ⟨hc, hopen⟩ | ⟨haborted, hclosed⟩
  · exact .inl ⟨h.conserved hc, h.hostOpen.trans hopen⟩
  · exact .inr ⟨h.aborted.trans haborted, h.hostOpen.trans hclosed⟩

lemma abortFlow_state : relay.abortFlow.flow.state ≠ .connected := fun h => by cases h

lemma abortFlow_held : relay.abortFlow.Held := .inr ⟨rfl, rfl⟩

lemma abortFlow_served : relay.abortFlow.Served := .inr ⟨rfl, rfl⟩

end Relay

-- ══ From the guest to the host

variable {flow : Flow}

section Passes

variable {now : ℕ} {relay : Relay}

lemma ByteBuffer.bytes_commit {buffer : ByteBuffer} {bytes : Bytes}
    (h : bytes.length ≤ buffer.freeLen) : (buffer.commit bytes).bytes = buffer.bytes ++ bytes := by
  have hfits := buffer.fits
  rw [ByteBuffer.freeLen] at h
  refine take_of_length_le ?_
  rw [length_append]
  omega

lemma TcpSock.recvSlice_ok {sock sock' : TcpSock} {room : ℕ} {bytes : Bytes}
    (h : sock.recvSlice room = .ok (bytes, sock')) :
    bytes.length ≤ room ∧ bytes ++ sock'.unread = sock.unread ∧
      sock'.finReceived = sock.finReceived := by
  unfold recvSlice at h
  split at h
  · cases h
    refine ⟨?_, take_append_drop _ _, rfl⟩
    rw [length_take]
    exact min_le_left _ _
  · split at h <;> cases h

lemma TcpSock.recvSlice_finished {sock : TcpSock} {room : ℕ}
    (h : sock.recvSlice room = .error .finished) : sock.finReceived = true ∧ sock.unread = [] := by
  unfold recvSlice at h
  split at h
  · cases h
  · next hmay =>
    split at h
    · next hfin =>
      refine ⟨hfin, ?_⟩
      by_contra hne
      exact hmay (.inl hne)
    · cases h

lemma drainGuestToHost_conserved (h : { relay with flow }.Conserved) :
    { relay with flow := drainGuestToHost now flow }.Conserved := by
  fun_induction drainGuestToHost now flow with
  | case1 flow _ hrecv =>
    have hfin := TcpSock.recvSlice_finished hrecv
    exact ⟨h.stream, fun _ => hfin, fun hshut => ⟨rfl, (h.shutdown hshut).2⟩⟩
  | case2 => exact h
  | case3 => exact h
  | case4 flow _ bytes sock hrecv hbytes ih =>
    obtain ⟨hlen, hsplit, hfin⟩ := TcpSock.recvSlice_ok hrecv
    -- there were bytes to read, so the end of them has not been seen
    have hguest : flow.guestFin ≠ true := by
      intro hguest
      rw [(h.guestFin hguest).2] at hsplit
      exact hbytes (append_eq_nil_iff.mp hsplit).1
    refine ih ⟨?_, fun hguest' => absurd hguest' hguest,
      fun hshut => absurd (h.shutdown hshut).1 hguest⟩
    have hstream := h.stream
    dsimp only [Flow.refreshIdle] at hstream ⊢
    rw [ByteBuffer.bytes_commit hlen, append_assoc, hsplit]
    exact hstream
  | case5 => exact h

lemma drainGuestToHost_open (now : ℕ) (flow : Flow) :
    (drainGuestToHost now flow).hostOpen = flow.hostOpen := by
  fun_induction drainGuestToHost now flow with
  | case4 flow _ bytes sock _ _ ih => exact ih
  | _ => rfl

lemma flushHostWrite_held {answers : List HostSend} (h : relay.Held) :
    (flushHostWrite now answers relay).Held := by
  fun_induction flushHostWrite now answers relay with
  | case1 => exact h
  | case2 => exact h
  | case3 => exact Relay.abortFlow_held
  | case4 => exact h
  | case5 answers relay hopen n hn ih =>
    refine ih ?_
    rcases h with ⟨h, hkept⟩ | ⟨-, hclosed⟩
    · refine .inl ⟨⟨?_, h.guestFin, fun hshut => ?_⟩, hkept⟩
      · have hsplit := take_append_drop n relay.flow.toHost.bytes
        have hstream := h.stream
        rw [← hsplit, append_assoc, ← append_assoc relay.written] at hstream
        exact hstream
      · exact absurd (h.shutdown hshut).2 hopen.2
    · rw [hclosed] at hopen
      exact absurd hopen.1 (by decide)
  | case6 => exact h

-- ══ From the host to the guest

lemma readAnswers_held {answers : List HostRead} (h : relay.Held) :
    (readAnswers now answers relay).Held := by
  fun_induction readAnswers now answers relay with
  | case1 => exact h
  | case2 => exact h
  | case3 => exact Relay.abortFlow_held
  | case4 answers relay _ =>
    have hsame : relay.SameStream { relay with flow := { relay.flow with hostEof := true } } := by
      constructor <;> rfl
    exact hsame.held h
  | case5 answers relay _ bytes ih =>
    have hsame : relay.SameStream { relay with flow := { relay.flow with
        toGuest := relay.flow.toGuest.commit bytes }.refreshIdle now } := by
      constructor <;> rfl
    exact ih (hsame.held h)
  | case6 => exact h

lemma readHost_held {pass : Pass} (h : relay.Held) : (readHost pass relay).Held := by
  unfold readHost
  dsimp only
  split
  · exact h
  · exact readAnswers_held h

lemma drainHostToGuest_held {answers : List SockSend} (h : relay.Held) :
    (drainHostToGuest now answers relay).Held := by
  fun_induction drainHostToGuest now answers relay with
  | case1 => exact h
  | case2 => exact Relay.abortFlow_held
  | case3 => exact h
  | case4 answers relay _ n _ ih =>
    have hsame : relay.SameStream { relay with flow := { relay.flow with
        toGuest := relay.flow.toGuest.consume n }.refreshIdle now } := by
      constructor <;> rfl
    exact ih (hsame.held h)
  | case5 => exact h

-- ══ The ends of a flow

lemma TcpSock.close_unread (sock : TcpSock) :
    sock.close.unread = sock.unread ∧ sock.close.finReceived = sock.finReceived := by
  unfold TcpSock.close
  split <;> exact ⟨rfl, rfl⟩

lemma shutdownHost_conserved (h : relay.Conserved) :
    { relay with flow := shutdownHost relay.flow }.Conserved := by
  unfold shutdownHost
  split
  · next hdone => exact ⟨h.stream, h.guestFin, fun _ => ⟨hdone.1, hdone.2.1⟩⟩
  · exact h

lemma shutdownHost_open (flow : Flow) : (shutdownHost flow).hostOpen = flow.hostOpen := by
  unfold shutdownHost
  split <;> rfl

structure Finishes (flow flow' : Flow) : Prop where
  toHost : flow'.toHost = flow.toHost
  unread : flow'.sock.unread = flow.sock.unread
  finReceived : flow'.sock.finReceived = flow.sock.finReceived
  guestFin : flow'.guestFin = flow.guestFin
  hostWriteShutdown : flow'.hostWriteShutdown = flow.hostWriteShutdown
  hostOpen : flow'.hostOpen = flow.hostOpen ∨
    flow.hostWriteShutdown = true ∧ flow'.hostOpen = false

lemma finishFlow_finishes (flow : Flow) : Finishes flow (finishFlow flow) := by
  obtain ⟨hunread, hfin⟩ := flow.sock.close_unread
  unfold finishFlow
  split
  · dsimp only
    split
    · next hshut => exact ⟨rfl, hunread, hfin, rfl, rfl, .inr ⟨hshut, rfl⟩⟩
    · exact ⟨rfl, hunread, hfin, rfl, rfl, .inl rfl⟩
  · exact ⟨rfl, rfl, rfl, rfl, rfl, .inl rfl⟩

lemma finish_stays_closed (h : flow.hostOpen = false) :
    (finishFlow (shutdownHost flow)).hostOpen = false := by
  rcases (finishFlow_finishes (shutdownHost flow)).hostOpen with hkept | ⟨-, hclosed⟩
  · exact hkept.trans ((shutdownHost_open flow).trans h)
  · exact hclosed

lemma finishFlow_conserved (h : relay.Conserved) :
    { relay with flow := finishFlow relay.flow }.Conserved := by
  have hfinish := finishFlow_finishes relay.flow
  constructor
  · rw [hfinish.toHost, hfinish.unread]
    exact h.stream
  · rw [hfinish.guestFin, hfinish.finReceived, hfinish.unread]
    exact h.guestFin
  · rw [hfinish.hostWriteShutdown, hfinish.guestFin, hfinish.toHost]
    exact h.shutdown

-- ══ One pass

variable {pass : Pass}

lemma transfer_held (h : relay.Conserved) (hopen : relay.flow.hostOpen = true) :
    (transfer pass relay).Held := by
  have hdrained : { relay with flow := drainGuestToHost pass.now relay.flow }.Held :=
    .inl ⟨drainGuestToHost_conserved h, (drainGuestToHost_open _ _).trans hopen⟩
  exact drainHostToGuest_held (readHost_held (flushHostWrite_held hdrained))

lemma serviceConnected_served (h : relay.Conserved) (hopen : relay.flow.hostOpen = true) :
    (serviceConnected pass relay).Served := by
  unfold serviceConnected
  split
  · exact Relay.abortFlow_served
  · split
    · exact .inl ⟨h.stream, h.guestFin, h.shutdown⟩
    · rcases @transfer_held relay pass h hopen with ⟨hc, -⟩ | ⟨haborted, hclosed⟩
      · exact .inl (finishFlow_conserved (shutdownHost_conserved hc))
      · exact .inr ⟨haborted, finish_stays_closed hclosed⟩

lemma serviceConnect_cases (pass : Pass) (relay : Relay) :
    relay.SameStream (serviceConnect pass relay) ∧
        (serviceConnect pass relay).flow.sock = relay.flow.sock ∨
      serviceConnect pass relay = relay.abortFlow := by
  have hrefl : relay.SameStream relay := by constructor <;> rfl
  unfold serviceConnect
  split
  · split
    · split
      · exact .inl ⟨by constructor <;> rfl, rfl⟩
      · exact .inr rfl
    · split
      · exact .inr rfl
      · exact .inl ⟨hrefl, rfl⟩
  · exact .inl ⟨hrefl, rfl⟩

lemma serviceFlow_cases (pass : Pass) (relay : Relay) :
    serviceFlow pass relay = relay.abortFlow ∨ relay.SameStream (serviceFlow pass relay) ∨
      ∃ ready : Relay, relay.SameStream ready ∧ ready.flow.sock = relay.flow.sock ∧
        serviceFlow pass relay = serviceConnected pass ready := by
  unfold serviceFlow
  split
  · exact .inr (.inl (by constructor <;> rfl))
  split
  · exact .inl rfl
  split
  · exact .inl rfl
  dsimp only
  rcases serviceConnect_cases pass relay with ⟨hsame, hsock⟩ | habort
  · split
    · exact .inr (.inr ⟨_, hsame, hsock, rfl⟩)
    · exact .inr (.inl hsame)
  · rw [habort, if_neg Relay.abortFlow_state]
    exact .inl rfl

lemma serviceFlow_served (h : relay.Conserved) (hopen : relay.flow.hostOpen = true) :
    (serviceFlow pass relay).Served := by
  rcases serviceFlow_cases pass relay with habort | hsame | ⟨ready, hsame, -, hready⟩
  · rw [habort]
    exact Relay.abortFlow_served
  · exact .inl (hsame.conserved h)
  · rw [hready]
    exact serviceConnected_served (hsame.conserved h) (hsame.hostOpen.trans hopen)

/-- How a pass closes the socket of the host: the socket of the stack was closed and the buffer
empty, or both sides have finished. -/
def ClosesAfter (relay relay' : Relay) : Prop :=
  relay.flow.sock.state = .closed ∧ relay.flow.toHost.bytes = [] ∧
      relay'.flow.toHost.bytes = [] ∧ relay'.flow.sock.unread = relay.flow.sock.unread ∨
    ¬ (relay.flow.sock.state = .closed ∧ relay.flow.toHost.bytes = []) ∧
      relay'.flow.toHost.bytes = [] ∧ relay'.flow.sock.unread = []

lemma serviceConnected_closes (h : relay.Conserved) (hopen : relay.flow.hostOpen = true)
    (hclosed : (serviceConnected pass relay).flow.hostOpen = false)
    (hlive : (serviceConnected pass relay).aborted = false) :
    ClosesAfter relay (serviceConnected pass relay) := by
  unfold serviceConnected at hclosed hlive ⊢
  by_cases hsyn : relay.flow.sock.state = .synSent ∧ relay.flow.connectDeadline ≤ pass.now
  · rw [if_pos hsyn] at hlive
    cases hlive
  rw [if_neg hsyn] at hclosed hlive ⊢
  by_cases hdone : relay.flow.sock.state = .closed ∧ relay.flow.toHost.bytes = []
  · rw [if_pos hdone]
    exact .inl ⟨hdone.1, hdone.2, hdone.2, rfl⟩
  rw [if_neg hdone] at hclosed hlive ⊢
  refine .inr ⟨hdone, ?_⟩
  rcases @transfer_held relay pass h hopen with ⟨hc, hkept⟩ | ⟨haborted, -⟩
  · have hshut := shutdownHost_conserved hc
    have hfinish := finishFlow_finishes (shutdownHost (transfer pass relay).flow)
    -- the socket was open, so it was closed because it had been shut down
    rcases hfinish.hostOpen with hsame | ⟨hwas, -⟩
    · rw [hclosed, shutdownHost_open, hkept] at hsame
      cases hsame
    · obtain ⟨hguest, hempty⟩ := hshut.shutdown hwas
      rw [hfinish.toHost, hfinish.unread]
      exact ⟨hempty, (hshut.guestFin hguest).2⟩
  · rw [haborted] at hlive
    cases hlive

lemma serviceFlow_closes (h : relay.Conserved) (hopen : relay.flow.hostOpen = true)
    (hclosed : (serviceFlow pass relay).flow.hostOpen = false)
    (hlive : (serviceFlow pass relay).aborted = false) :
    ClosesAfter relay (serviceFlow pass relay) := by
  rcases serviceFlow_cases pass relay with habort | hsame | ⟨ready, hsame, hsock, hready⟩
  · rw [habort] at hlive
    cases hlive
  · rw [hsame.hostOpen, hopen] at hclosed
    cases hclosed
  · rw [hready] at hclosed hlive ⊢
    have hcloses := serviceConnected_closes (hsame.conserved h) (hsame.hostOpen.trans hopen) hclosed
      hlive
    rw [ClosesAfter, hsock, hsame.toHost] at hcloses
    exact hcloses

-- ══ A closed socket of the host

variable (h : relay.flow.hostOpen = false)

include h

lemma flushHostWrite_of_closed (answers : List HostSend) :
    flushHostWrite now answers relay = relay := by
  cases answers with
  | nil => rfl
  | cons answer answers =>
    exact if_neg fun hopen => absurd (hopen.1.symm.trans h) (by decide)

lemma readHost_of_closed : readHost pass relay = relay :=
  if_pos (.inr (.inl h))

lemma drainHostToGuest_stays_closed {answers : List SockSend} :
    (drainHostToGuest now answers relay).flow.hostOpen = false := by
  fun_induction drainHostToGuest now answers relay with
  | case2 => rfl
  | case4 answers relay _ n _ ih => exact ih h
  | _ => exact h

lemma transfer_stays_closed : (transfer pass relay).flow.hostOpen = false := by
  have hdrained : (drainGuestToHost pass.now relay.flow).hostOpen = false :=
    (drainGuestToHost_open _ _).trans h
  dsimp only [transfer]
  rw [flushHostWrite_of_closed hdrained, readHost_of_closed hdrained]
  exact drainHostToGuest_stays_closed hdrained

lemma serviceFlow_stays_closed : (serviceFlow pass relay).flow.hostOpen = false := by
  rcases serviceFlow_cases pass relay with habort | hsame | ⟨ready, hsame, -, hready⟩
  · rw [habort]
    rfl
  · exact hsame.hostOpen.trans h
  · have hready' := hsame.hostOpen.trans h
    rw [hready]
    unfold serviceConnected
    split
    · rfl
    · split
      · rfl
      · exact finish_stays_closed (transfer_stays_closed hready')

end Passes

-- ══ Whole runs

def Relay.Inv (relay : Relay) : Prop := relay.flow.hostOpen = true → relay.Conserved

lemma inv_start (h : Started flow) : Relay.Inv { flow } := by
  intro _
  cases h with
  | offer sock now result => cases result <;> exact ⟨rfl, nofun, nofun⟩
  | portForward now => exact ⟨rfl, nofun, nofun⟩

variable {relay : Relay}

lemma receive_conserved (h : relay.Conserved) (bytes : Bytes) (fin : Bool)
    (state : TcpState) (bound : Bool) :
    (step relay (.segment bytes fin state bound)).Conserved := by
  refine ⟨?_, fun hguest => ?_, h.shutdown⟩
  · dsimp only [step, TcpSock.receive]
    rw [← h.stream]
    simp only [append_assoc]
  · obtain ⟨hfin, hunread⟩ := h.guestFin hguest
    dsimp only [step, TcpSock.receive]
    -- no byte is received behind the end of them
    rw [TcpSock.accepted, if_pos hfin, hunread, hfin]
    exact ⟨rfl, rfl⟩

lemma reapFlow_open (h : (reapFlow flow).hostOpen = true) : reapFlow flow = flow := by
  unfold reapFlow at h ⊢
  split
  · rfl
  · next hreap =>
    rw [if_neg hreap] at h
    cases h

lemma step_inv (h : relay.Inv) (event : Event) : (step relay event).Inv := by
  intro hopen
  cases event with
  | pass pass =>
    have hbefore : relay.flow.hostOpen = true := by
      by_contra hclosed
      have hstays := @serviceFlow_stays_closed relay pass (Bool.eq_false_of_not_eq_true hclosed)
      exact absurd (hopen.symm.trans hstays) (by decide)
    rcases @serviceFlow_served relay pass (h hbefore) hbefore with hc | ⟨-, hclosed⟩
    · exact hc
    · exact absurd (hopen.symm.trans hclosed) (by decide)
  | segment bytes fin state bound => exact receive_conserved (h hopen) bytes fin state bound
  | reap =>
    have hsame := reapFlow_open hopen
    rw [step, hsame] at hopen ⊢
    exact h hopen

lemma run_inv (h : relay.Inv) (events : List Event) : (run relay events).Inv := by
  induction events generalizing relay with
  | nil => exact h
  | cons event events ih => exact ih (step_inv h event)

/-- A pass that closes the socket of the host, of a flow that is not aborted: the host has been
given the guest's bytes, each once and in order, unless the socket of the stack was closed with
bytes that nobody had read. -/
theorem closed_flow_has_written {flow : Flow} (hstart : Started flow) (events : List Event)
    (pass : Pass) (hopen : (run { flow } events).flow.hostOpen = true)
    (hclosed : (serviceFlow pass (run { flow } events)).flow.hostOpen = false)
    (hlive : (serviceFlow pass (run { flow } events)).aborted = false) :
    (serviceFlow pass (run { flow } events)).written =
        (serviceFlow pass (run { flow } events)).received ↔
      ¬ ((run { flow } events).flow.sock.state = .closed ∧
        (run { flow } events).flow.toHost.bytes = [] ∧
        (run { flow } events).flow.sock.unread ≠ []) := by
  generalize hrelay : run { flow } events = relay at hopen hclosed hlive ⊢
  have hc : relay.Conserved := by
    rw [← hrelay] at hopen ⊢
    exact run_inv (inv_start hstart) events hopen
  have hafter : (serviceFlow pass relay).Conserved := by
    rcases @serviceFlow_served relay pass hc hopen with hafter | ⟨haborted, -⟩
    · exact hafter
    · exact absurd (hlive.symm.trans haborted) (by decide)
  rcases serviceFlow_closes hc hopen hclosed hlive with
    ⟨hstate, hempty, hempty', hunread⟩ | ⟨hnot, hempty, hunread⟩
  · rw [← hafter.stream, hempty', hunread, nil_append, self_eq_append_right]
    simp only [hstate, hempty, true_and, ne_eq, not_not]
  · rw [← hafter.stream, hempty, hunread, append_nil, append_nil]
    exact iff_of_true rfl fun h => hnot ⟨h.1, h.2.1⟩

-- A guest that sends `length` bytes and finishes, and a host that has finished already.

def sampleFlow : Flow := Flow.offer .synReceived 0 .connected

def sampleEvents (length : ℕ) : List Event :=
  [.segment [] false .established true, .segment (replicate length 120) true .closeWait true]

def lastPass (now : ℕ) : Pass :=
  { now, revents := { input := true }, sends := [.sent flowBufferLen], reads := [.closed] }

theorem closed_flow_has_written_sample :
    (serviceFlow (lastPass 1) (run { flow := sampleFlow } (sampleEvents 3))).written =
      (serviceFlow (lastPass 1) (run { flow := sampleFlow } (sampleEvents 3))).received := by
  have hstart : Started sampleFlow := .offer _ _ _
  refine (closed_flow_has_written hstart (sampleEvents 3) (lastPass 1) ?_ ?_ ?_).mpr ?_
  all_goals decide +kernel

/-- The first pass fills the buffer, writes it to the host and closes the socket of the stack. The
guest acknowledges that, and the next pass closes the socket of the host. -/
def lostEvents : List Event :=
  sampleEvents (flowBufferLen + 1) ++ [.pass (lastPass 1), .segment [] false .closed true]

/-- A byte that was received before the guest finished, and that the host never sees. -/
theorem unread_byte_is_lost :
    (run { flow := sampleFlow } lostEvents).flow.hostOpen = true ∧
      (serviceFlow (lastPass 2) (run { flow := sampleFlow } lostEvents)).flow.hostOpen = false ∧
      (serviceFlow (lastPass 2) (run { flow := sampleFlow } lostEvents)).aborted = false ∧
      (serviceFlow (lastPass 2) (run { flow := sampleFlow } lostEvents)).received.length =
        flowBufferLen + 1 ∧
      (serviceFlow (lastPass 2) (run { flow := sampleFlow } lostEvents)).written.length =
        flowBufferLen := by
  decide +kernel

end SporeVM.Netd
