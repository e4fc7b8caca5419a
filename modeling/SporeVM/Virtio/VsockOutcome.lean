import SporeVM.Virtio.VsockDelivery

/-!
# The outcome of a stream

What becomes of a stream that has ended, and of a stream that could not be attached.

A stream is complete when the guest has sent its exit code, and failed when something went wrong.
The events of the device are taken apart into what happens under its lock, one `Part` after another,
with the calls of the host among them. A stream that has failed stays failed. A stream that is
complete does not stay so: a reset of the guest after its exit code fails it, and so do a credit
request that finds the pending array full and the host's own `fail`. `ends` says exactly when.

An attach that fails for want of a place in the pending array has put the new stream in the place of
the old one before. Streams are objects of the monitor, and the device refers to one of them:
`Board` is the device with the streams it may refer to. -/

namespace SporeVM.Virtio

open Attached (Between dispatch receiveRw)

-- ══ Parts of events

/-- What happens to the device at one time: other threads enqueue, the guest's next packet is
handled, the first pending packet meets a chain of the guest, frames are moved into the pending
array by the device or by the host, or the host fails the stream. -/
inductive Part
  | enqueue (es : List HostStream.Enqueue)
  | handleChain (between : Between) (chain : Chain)
  | deliver (chain : Chain) (pushed : Bool)
  | flushOutbound (between : Between)
  | flushHostStreamOutbound (between : Between)
  | fail

namespace Vsock

def deliverFirst (v : Vsock) (chain : Chain) (pushed : Bool) : Vsock :=
  match v.pending with
  | [] => v
  | packet :: rest => (v.deliver packet rest chain pushed).1

def failStream (v : Vsock) : Vsock :=
  { v with hostStream := v.hostStream.map HostStream.fail }

def part (v : Vsock) : Part → Vsock
  | .enqueue es => v.enqueue es
  | .handleChain between chain => v.handleChain between chain
  | .deliver chain pushed => v.deliverFirst chain pushed
  | .flushOutbound between => v.flushOutbound between
  | .flushHostStreamOutbound between => v.flushHostStreamOutbound between
  | .fail => v.failStream

def play (v : Vsock) (parts : List Part) : Vsock := parts.foldl part v

/-- A run of the device's events is a run of parts, so that what all runs of parts do is what the
device does. -/
theorem exists_parts_run (v : Vsock) (events : List Event) :
    ∃ parts, v.run events = v.play parts := by
  have hpart : ∀ (w : Vsock) (p : Part), (∃ parts, w = v.play parts) →
      ∃ parts, w.part p = v.play parts := by
    rintro w p ⟨parts, rfl⟩
    exact ⟨parts ++ [p], by simp [play]⟩
  have hparts : Preserved fun w => ∃ parts, w = v.play parts :=
    { enqueue := fun w es => hpart w (.enqueue es)
      handleChain := fun w between chain => hpart w (.handleChain between chain)
      deliver := fun w packet rest chain pushed hpending h => by
        have hfirst := hpart w (.deliver chain pushed) h
        rwa [part, deliverFirst, hpending] at hfirst
      flushOutbound := fun w between => hpart w (.flushOutbound between)
      flushHostStreamOutbound := fun w between => hpart w (.flushHostStreamOutbound between) }
  exact hparts.run ⟨[], rfl⟩ events

end Vsock

open Vsock (play)

-- ══ Streams that have ended

def HostStream.Ended (s : HostStream) : Prop := s.state = .complete ∨ s.state = .failed

lemma HostStream.Ended.of_output {s s' : HostStream} (h : s.Ended) (ho : s'.output = s.output) :
    s'.Ended := by
  rw [HostStream.Ended, HostStream.state, ho]
  exact h

/-- The operations that fail a stream that has ended: a reset, and a credit request when there is no
place for the answer. -/
def Header.ends (h : Header) (pending : List Packet) : Bool :=
  h.op = opRst || (h.op = opCreditRequest && maxPending ≤ pending.length)

def Vsock.endsPacket (v : Vsock) (s : HostStream) (h : Header) : Bool :=
  h.packetType = packetTypeStream && v.matchesHostStream s h && h.ends v.pending

def Vsock.ends (v : Vsock) (s : HostStream) : Part → Bool
  | .handleChain _ chain => (parseTxHeader chain).any (v.endsPacket s)
  | .fail => true
  | _ => false

section Output

variable {s : HostStream}

lemma HostStream.Ended.not_connected (h : s.Ended) : s.state ≠ .connected := by
  rcases h with h | h <;> simp [h]

lemma HostStream.Ended.not_connecting (h : s.Ended) : s.state ≠ .connecting := by
  rcases h with h | h <;> simp [h]

lemma appendOutput_output (h : s.Ended) (data : Bytes) :
    (s.appendOutput data).output = s.output := by
  have hstop : data = [] ∨ s.output.state = .failed ∨ s.output.state = .complete := .inr h.symm
  show s.output.read data = s.output
  rw [OutputParser.read, dif_pos hstop]

lemma receiveRw_output (h : s.Ended) (chain : Chain) (len done : ℕ) :
    (receiveRw chain len done s).output = s.output := by
  fun_induction receiveRw chain len done s with
  | case1 => rfl
  | case2 done s _ piece _ _ ih =>
    have hpiece := appendOutput_output h piece
    exact (ih (h.of_output hpiece)).trans hpiece
  | case3 => rfl

lemma enqueueHostPacket_output (a : Attached) (op : UInt16) :
    (a.orFail (a.enqueueHostPacket op [])).stream.output =
      if maxPending ≤ a.pending.length then a.stream.output.fail else a.stream.output := by
  unfold Attached.enqueueHostPacket enqueuePacket
  by_cases hfull : maxPending ≤ a.pending.length
  · rw [if_pos hfull, if_pos hfull]
    rfl
  · rw [if_neg hfull, if_neg hfull]
    rfl

lemma dispatch_output {a : Attached} (h : a.stream.Ended) (between : Between)
    (header : Header) (chain : Chain) : (a.dispatch between header chain).stream.output =
      if header.ends a.pending then a.stream.output.fail else a.stream.output := by
  unfold dispatch Header.ends
  split
  · next hop =>
    have hother : ¬ opResponse = opRst ∧ ¬ opResponse = opCreditRequest := by decide
    rw [if_neg h.not_connecting]
    simp [hop, hother]
  · split
    · next hop =>
      have hother : ¬ opRw = opRst ∧ ¬ opRw = opCreditRequest := by decide
      simp only [hop, hother, decide_false, Bool.false_and, Bool.or_false, Bool.false_eq_true,
        if_false]
      exact receiveRw_output h chain _ _
    · split
      · next hop =>
        have hother : ¬ opCreditRequest = opRst := by decide
        rw [enqueueHostPacket_output]
        simp [hop, hother]
      · next hcredit =>
        split
        · next hop =>
          rw [if_neg h.not_connecting]
          simp [hop, Attached.fail, HostStream.fail]
        · next hrst => simp [hrst, hcredit]

lemma handleHostStreamPacket_output {a : Attached} (h : a.stream.Ended)
    (between : Between) (header : Header) (chain : Chain) :
    (a.handleHostStreamPacket between header chain).stream.output =
      if header.ends a.pending then a.stream.output.fail else a.stream.output := by
  have hdispatch := dispatch_output (a := { a with stream :=
    { a.stream with peerBufAlloc := header.bufAlloc, peerFwdCnt := header.fwdCnt } }) h between
    header chain
  have hended : (dispatch between header chain { a with stream :=
      { a.stream with peerBufAlloc := header.bufAlloc, peerFwdCnt := header.fwdCnt } }).stream.Ended
      := by
    rw [HostStream.Ended, HostStream.state, hdispatch]
    split
    · exact .inr rfl
    · exact h
  unfold Attached.handleHostStreamPacket Attached.maybeUpdateCredit
  rw [if_pos hended.not_connected]
  exact hdispatch

lemma refuse_hostStream (v : Vsock) (header : Header) :
    (v.refuse header).hostStream = v.hostStream := by
  rcases refuse_cases v header with heq | ⟨_, _, _, _, heq⟩ <;> rw [heq]

lemma deliverFirst_hostStream (v : Vsock) (chain : Chain) (pushed : Bool) :
    (v.deliverFirst chain pushed).hostStream = v.hostStream := by
  have hconsume : ∀ packet rest take, (v.consume packet rest take).hostStream = v.hostStream := by
    intro packet rest take
    unfold Vsock.consume
    split <;> rfl
  unfold Vsock.deliverFirst
  split
  · rfl
  · unfold Vsock.deliver
    simp only
    split
    · split
      · rfl
      · split
        · exact hconsume _ _ _
        · rfl
    · rfl

end Output

/-- **What a part does to a stream that has ended**: nothing, or it fails it. -/
theorem part_output {v : Vsock} {s : HostStream} (hs : v.hostStream = some s) (h : s.Ended)
    (p : Part) : ∃ s', (v.part p).hostStream = some s' ∧
      s'.output = if v.ends s p then s.output.fail else s.output := by
  have hflush : ∀ between, (v.attached s).flushHostStreamOutboundFor between =
      (v.attached s, true) := fun between => by
    have hstate : (v.attached s).stream.state ≠ .connected := h.not_connected
    rw [Attached.flushHostStreamOutboundFor, if_pos hstate]
  cases p with
  | enqueue es =>
    have hkept : Untouched HostStream.output := fun _ _ _ _ => rfl
    refine ⟨s.enqueueAll es, ?_, hkept.enqueueAll s es⟩
    rw [Vsock.part, Vsock.enqueue, hs]
    rfl
  | handleChain between chain =>
    rw [Vsock.part, Vsock.handleChain, Vsock.ends]
    split
    · next hparse => exact ⟨s, hs, by simp [hparse]⟩
    · next header hparse =>
      rw [hparse, Option.any_some, Vsock.handleGuestPacket, Vsock.endsPacket, hs]
      split
      · next htype => exact ⟨s, hs, by simp [htype]⟩
      · next htype =>
        simp only
        split
        · next hmatch =>
          refine ⟨_, rfl, ?_⟩
          have houtput := handleHostStreamPacket_output (a := v.attached s) h between header chain
          have hends : (decide (header.packetType = packetTypeStream) &&
              v.matchesHostStream s header && header.ends v.pending) = header.ends v.pending := by
            simp [not_not.mp htype, hmatch]
          rw [hends]
          exact houtput
        · next hmatch =>
          refine ⟨s, (refuse_hostStream v header).trans hs, ?_⟩
          simp [hmatch]
  | deliver chain pushed => exact ⟨s, (deliverFirst_hostStream v chain pushed).trans hs, rfl⟩
  | flushOutbound between =>
    refine ⟨s, ?_, rfl⟩
    rw [Vsock.part, Vsock.flushOutbound, hs]
    show some ((v.attached s).flushOrFail between).stream = some s
    rw [Attached.flushOrFail, hflush]
    rfl
  | flushHostStreamOutbound between =>
    refine ⟨s, ?_, rfl⟩
    rw [Vsock.part, Vsock.flushHostStreamOutbound, hs]
    show some ((v.attached s).flushHostStreamOutboundFor between).1.stream = some s
    rw [hflush]
    rfl
  | fail =>
    refine ⟨s.fail, ?_, rfl⟩
    rw [Vsock.part, Vsock.failStream, hs]
    rfl

def Vsock.endsStream (v : Vsock) (p : Part) : Bool := v.hostStream.any fun s => v.ends s p

lemma failed_final : ∀ (parts : List Part) {v : Vsock} {s : HostStream},
    v.hostStream = some s → s.state = .failed →
      ∃ s', (v.play parts).hostStream = some s' ∧ s'.state = .failed
  | [], _, s, hs, hfailed => ⟨s, hs, hfailed⟩
  | p :: parts, v, s, hs, hfailed => by
    obtain ⟨s', hs', houtput⟩ := part_output hs (.inr hfailed) p
    refine failed_final parts hs' ?_
    rw [HostStream.state, houtput]
    split
    · rfl
    · exact hfailed

/-- **Outcomes.** A stream that has failed stays failed. A stream that is complete is so at the end
of a run, with the same exit code, exactly when no part of the run fails it: no reset from the
guest, no credit request that finds the pending array full, and no `fail` of the host. -/
theorem complete_final_iff (parts : List Part) {v : Vsock} {s : HostStream}
    (hs : v.hostStream = some s) :
    (s.state = .failed → ∃ s', (v.play parts).hostStream = some s' ∧ s'.state = .failed) ∧
      (s.state = .complete →
        ((∃ s', (v.play parts).hostStream = some s' ∧ s'.state = .complete ∧
            s'.output.exitCode = s.output.exitCode) ↔
          ∀ before p after, parts = before ++ p :: after →
            (v.play before).endsStream p = false)) := by
  refine ⟨failed_final parts hs, fun hcomplete => ?_⟩
  induction parts generalizing v s with
  | nil =>
    refine ⟨fun _ before p after h => ?_, fun _ => ⟨s, hs, hcomplete, rfl⟩⟩
    simp at h
  | cons p parts ih =>
    obtain ⟨s', hs', houtput⟩ := part_output hs (.inl hcomplete) p
    have hfirst : v.endsStream p = v.ends s p := by rw [Vsock.endsStream, hs, Option.any_some]
    cases hends : v.ends s p with
    | true =>
      -- the stream has failed, and stays failed
      rw [hends, if_pos rfl] at houtput
      have hfailed : s'.state = .failed := by rw [HostStream.state, houtput]; rfl
      constructor
      · rintro ⟨t, ht, htcomplete, -⟩
        obtain ⟨t', ht', htfailed⟩ := failed_final parts hs' hfailed
        have hsame : some t = some t' := ht.symm.trans ht'
        cases hsame
        rw [htcomplete] at htfailed
        cases htfailed
      · intro hquiet
        have hnone := hquiet [] p parts rfl
        rw [Vsock.play, List.foldl_nil, hfirst, hends] at hnone
        cases hnone
    | false =>
      rw [hends, if_neg (by decide)] at houtput
      have hstill : s'.state = .complete := by rw [HostStream.state, houtput]; exact hcomplete
      have hrest := ih hs' hstill
      rw [houtput] at hrest
      refine hrest.trans ⟨fun h before q after heq => ?_, fun h before q after heq => ?_⟩
      · cases before with
        | nil =>
          obtain ⟨rfl, -⟩ := List.cons.inj heq
          exact hfirst.trans hends
        | cons r before =>
          obtain ⟨rfl, hparts⟩ := List.cons.inj heq
          exact h before q after hparts
      · exact h (p :: before) q after (by rw [heq]; rfl)

def guestPacket (op : UInt16) (payload : Bytes) : Chain where
  head := 0
  segments :=
    [{ data := writeHeader
        { srcCid := 3
          dstCid := hostCid
          srcPort := 10
          dstPort := 49152
          len := UInt32.ofNat payload.length
          packetType := packetTypeStream
          op := op
          bufAlloc := 4096 } ++ payload
       writable := false }]

def exitFrame : Bytes :=
  writeFrameHeader { frameType := .exit, streamId := .control, payloadLen := 4 } ++ [0, 0, 0, 0]

def exitedRun : List Part :=
  [.handleChain (fun _ => []) (guestPacket opResponse []),
    .handleChain (fun _ => []) (guestPacket opRw exitFrame)]

def connecting : Vsock :=
  (Vsock.init 3).attachHostStream
    { guestPort := 10, request := [], outbound := HostStream.emptyRing }

def Vsock.outcome (v : Vsock) : Option (HostStreamState × Option ℕ) :=
  v.hostStream.map fun s => (s.state, s.output.exitCode)

/-- The guest closes its socket after the exit code: the reset turns the outcome into a failure. -/
theorem reset_fails_complete : (connecting.play exitedRun).outcome = some (.complete, some 0) ∧
      ((connecting.play exitedRun).part
        (.handleChain (fun _ => []) (guestPacket opRst []))).outcome = some (.failed, some 0) := by
  decide +kernel

/-- A shutdown of the guest's socket leaves the outcome alone. -/
theorem complete_final_shutdown : ∃ s, (connecting.play exitedRun).hostStream = some s ∧
    s.state = .complete ∧ ∃ s', ((connecting.play exitedRun).play
      [.handleChain (fun _ => []) (guestPacket opShutdown [])]).hostStream = some s' ∧
        s'.state = .complete ∧ s'.output.exitCode = s.output.exitCode := by
  have houtcome : (connecting.play exitedRun).outcome = some (.complete, some 0) := by
    decide +kernel
  have hquiet : (connecting.play exitedRun).endsStream
      (.handleChain (fun _ => []) (guestPacket opShutdown [])) = false := by
    decide +kernel
  obtain ⟨s, hs, hcomplete⟩ := Option.map_eq_some_iff.mp houtcome
  have hstate : s.state = .complete := congrArg Prod.fst hcomplete
  refine ⟨s, hs, hstate, ((complete_final_iff _ hs).2 hstate).mpr ?_⟩
  intro before p after heq
  cases before with
  | nil =>
    obtain ⟨rfl, -⟩ := List.cons.inj heq
    exact hquiet
  | cons q before => simp at heq

-- ══ An attach that fails

structure Board (ι : Type) where
  guestCid : UInt64
  pending : List Packet := []
  hostStream : Option ι := none
  streams : ι → HostStream

namespace Board

variable {ι : Type} [DecidableEq ι]

def device (b : Board ι) : Vsock where
  guestCid := b.guestCid
  pending := b.pending
  hostStream := b.hostStream.map b.streams

def attachHostStream (b : Board ι) (i : ι) : Except VsockError Unit × Board ι :=
  let b := { b with hostStream := some i }
  match enqueuePacket b.pending (streamHeader b.guestCid (b.streams i) opRequest 0) [] with
  | .error e => (.error e, b)
  | .ok pending => (.ok (), { b with pending })

def part (b : Board ι) (p : Part) : Board ι :=
  { b with
    pending := (b.device.part p).pending
    streams := fun i =>
      if b.hostStream = some i then (b.device.part p).hostStream.getD (b.streams i)
      else b.streams i }

def play (b : Board ι) (parts : List Part) : Board ι := parts.foldl part b

lemma play_streams {i : ι} : ∀ (parts : List Part) {b : Board ι}, b.hostStream ≠ some i →
    (b.play parts).streams i = b.streams i
  | [], _, _ => rfl
  | p :: parts, b, h => by
    have hstep : (b.part p).streams i = b.streams i := if_neg h
    exact (play_streams parts (b := b.part p) h).trans hstep

/-- **An attach that fails.** It leaves the device as it was exactly when it does not fail, for the
pending array has a free place, or when the stream was attached before. And a stream that the device
does not refer to gets no packet of the guest and loses no byte. -/
theorem attach_failure_keeps_device_iff (b : Board ι) (i : ι) :
    ((∀ e, (b.attachHostStream i).1 = .error e →
        (b.attachHostStream i).2.hostStream = b.hostStream ∧
          (b.attachHostStream i).2.pending = b.pending) ↔
      b.pending.length < maxPending ∨ b.hostStream = some i) ∧
    (b.hostStream ≠ some i → ∀ parts, (b.play parts).streams i = b.streams i) := by
  refine ⟨?_, fun h parts => play_streams parts h⟩
  unfold attachHostStream enqueuePacket
  simp only [if_neg (show ¬ ([] : Bytes).length > maxPayload by decide)]
  by_cases hfull : b.pending.length ≥ maxPending
  · simp only [if_pos hfull, Except.error.injEq, forall_eq', and_true]
    constructor
    · intro h
      exact .inr h.symm
    · rintro (hfree | h)
      · omega
      · exact h.symm
  · simp only [if_neg hfull, reduceCtorEq, false_implies, implies_true, true_iff]
    exact .inl (by omega)

/-- The guest fills the pending array with packets for connections that do not exist, each of which
is answered with a reset, and takes nothing. -/
def crowded : Board Unit :=
  play { guestCid := 3, streams := fun _ =>
      { guestPort := 10, request := [], outbound := HostStream.emptyRing } }
    (List.replicate 16 (.handleChain (fun _ => []) (guestPacket opRw [])))

/-- The attach fails, but the device refers to the stream from then on, and a packet of the guest
connects it. -/
theorem failed_attach_takes_packets :
    (crowded.attachHostStream ()).1.toOption = none ∧ crowded.hostStream = none ∧
      (crowded.attachHostStream ()).2.hostStream = some () ∧
      (((crowded.attachHostStream ()).2.streams ()).state = .connecting ∧
        (((crowded.attachHostStream ()).2.part
          (.handleChain (fun _ => []) (guestPacket opResponse []))).streams ()).state =
            .connected) := by
  decide +kernel

/-- With a free place the attach succeeds, so that nothing is to be kept. -/
theorem attach_failure_keeps_device_free :
    (∀ e, (({ crowded with pending := [] } : Board Unit).attachHostStream ()).1 = .error e →
      (({ crowded with pending := [] } : Board Unit).attachHostStream ()).2.hostStream = none ∧
        (({ crowded with pending := [] } : Board Unit).attachHostStream ()).2.pending = []) ∧
    (({ crowded with pending := [] } : Board Unit).play
      [.handleChain (fun _ => []) (guestPacket opResponse [])]).streams () =
        crowded.streams () := by
  have hnone : crowded.hostStream = none := rfl
  have h := attach_failure_keeps_device_iff { crowded with pending := [] } ()
  exact ⟨h.1.mpr (.inl (by decide)), h.2 (by simp [hnone]) _⟩

end Board

end SporeVM.Virtio
