import SporeVM.Virtio.Vsock

/-!
# Delivery of stream data

The bytes of a stream pass through three queues: the ring of frames, the pending array whose first
packet may be delivered in parts, and the used ring of the guest. Together with what the guest has
been given they are at any time the request followed by the frames, in the order in which these
entered the ring. So what the guest has been given is an initial part of that, however the credit,
the buffers and the calls fall.
-/

namespace SporeVM.Virtio

open Lib (Ring)
open List
open HostStream (Enqueue enqueueOutbound enqueueResize emptyRing)
open Attached (Between enqueueHostPacket receiveRw ignore)

variable {payload : Bytes} {a' : Attached} {pending : List Packet} {header : Header}

structure Address where
  guestCid : UInt64
  hostPort : UInt32
  guestPort : UInt32
  deriving DecidableEq

def Attached.address (a : Attached) : Address := ⟨a.guestCid, a.stream.hostPort, a.stream.guestPort⟩

namespace Address

def isData (x : Address) (h : Header) : Bool :=
  h.op = opRw && h.srcCid = hostCid && h.dstCid = x.guestCid && h.srcPort = x.hostPort &&
    h.dstPort = x.guestPort

def pendingData (x : Address) (pending : List Packet) : Bytes :=
  ((pending.filter fun p => x.isData p.header).map Packet.data).flatten

def deliveredData (x : Address) (delivered : List Delivered) : Bytes :=
  ((delivered.filter fun d => x.isData d.header).map Delivered.payload).flatten

lemma pendingData_append (x : Address) (ps qs : List Packet) :
    x.pendingData (ps ++ qs) = x.pendingData ps ++ x.pendingData qs := by
  simp [pendingData]

lemma pendingData_cons (x : Address) (p : Packet) (ps : List Packet) :
    x.pendingData (p :: ps) = (if x.isData p.header then p.data else []) ++ x.pendingData ps := by
  by_cases h : x.isData p.header <;> simp [pendingData, h]

lemma deliveredData_concat (x : Address) (ds : List Delivered) (d : Delivered) :
    x.deliveredData (ds ++ [d]) =
      x.deliveredData ds ++ if x.isData d.header then d.payload else [] := by
  by_cases h : x.isData d.header <;> simp [deliveredData, h]

lemma isData_withLen (x : Address) (h : Header) (len : ℕ) :
    x.isData (h.withLen len) = x.isData h := rfl

lemma isData_of_op {x : Address} {h : Header} (hop : h.op ≠ opRw) : x.isData h = false := by
  simp [isData, hop]

end Address

/-- The bytes on their way: delivered, pending, in hand, and in the ring. Until the request is sent
everything stays in the ring. -/
structure Flow (x : Address) (request : Bytes) (a : Attached) (delivered : List Delivered)
    (hand : Bytes) : Prop where
  address : a.address = x
  request_eq : a.stream.request = request
  request_le : request.length ≤ maxPayload
  frames_le : ∀ frame ∈ a.stream.outbound.toList, frame.length ≤ maxPayload
  sent : a.stream.requestSent = true →
    x.deliveredData delivered ++ x.pendingData a.pending ++ hand ++
      a.stream.outbound.toList.flatten = request ++ a.stream.entered.flatten
  waiting : a.stream.requestSent = false →
    x.deliveredData delivered = [] ∧ x.pendingData a.pending = [] ∧ hand = [] ∧
      a.stream.outbound.toList = a.stream.entered

def HostStream.flow (s : HostStream) :
    UInt32 × UInt32 × Bytes × Bool × Ring Bytes maxOutboundFrames × List Bytes :=
  (s.guestPort, s.hostPort, s.request, s.requestSent, s.outbound, s.entered)

/-- A part of a stream that neither the ring, the size that waits nor the entered frames touch. -/
def Untouched {β : Type} (f : HostStream → β) : Prop :=
  ∀ s outbound pendingResize entered, f { s with outbound, pendingResize, entered } = f s

section Untouched

variable {β : Type} {f : HostStream → β} (hf : Untouched f)

include hf

lemma Untouched.queuePendingResize (s : HostStream) : f s.queuePendingResizeLocked = f s := by
  unfold HostStream.queuePendingResizeLocked
  split
  · rfl
  · split
    · exact hf s _ _ _
    · rfl

lemma Untouched.enqueue (s : HostStream) (e : Enqueue) : f (s.enqueue e) = f s := by
  cases e with
  | frame bytes =>
    simp only [HostStream.enqueue, enqueueOutbound]
    split_ifs
    · rfl
    · exact hf s _ _ _
    · rfl
  | resize size =>
    simp only [HostStream.enqueue, enqueueResize]
    split
    · rfl
    · exact (hf.queuePendingResize _).trans (hf s _ _ _)

lemma Untouched.enqueueAll (s : HostStream) (es : List Enqueue) :
    f (s.enqueueAll es) = f s := by
  induction es generalizing s with
  | nil => rfl
  | cons e es ih => exact (ih (s.enqueue e)).trans (hf.enqueue s e)

end Untouched

lemma untouched_requestSent : Untouched HostStream.requestSent := fun _ _ _ _ => rfl

section Flow

variable {x : Address} {request hand : Bytes} {a : Attached} {delivered : List Delivered}
  (h : Flow x request a delivered hand)

include h

lemma Flow.congr (hcid : a'.guestCid = a.guestCid) (hstream : a'.stream.flow = a.stream.flow)
    (hpending : x.pendingData a'.pending = x.pendingData a.pending) :
    Flow x request a' delivered hand := by
  simp only [HostStream.flow, Prod.mk.injEq] at hstream
  rcases hstream with ⟨hguest, hhost, hrequest, hsent, hring, hentered⟩
  refine ⟨?_, ?_, h.request_le, ?_, ?_, ?_⟩
  · rw [← h.address, Attached.address, Attached.address, hcid, hhost, hguest]
  · rw [hrequest, h.request_eq]
  · rw [hring]
    exact h.frames_le
  · rw [hsent, hring, hentered, hpending]
    exact h.sent
  · rw [hsent, hring, hentered, hpending]
    exact h.waiting

lemma Flow.quiet {s : HostStream}
    (hs : s.flow = a.stream.flow) : Flow x request { a with stream := s } delivered hand :=
  h.congr rfl hs rfl

lemma Flow.delivered_initial :
    x.deliveredData delivered <+: request ++ a.stream.entered.flatten := by
  cases hsent : a.stream.requestSent with
  | true =>
    rw [← h.sent hsent, append_assoc, append_assoc]
    exact prefix_append _ _
  | false =>
    rw [(h.waiting hsent).1]
    exact nil_prefix

-- ══ The ring

lemma Flow.enter {frame : Bytes}
    (hlen : frame.length ≤ maxPayload) (hcount : a.stream.outbound.count < maxOutboundFrames) :
    Flow x request { a with stream := a.stream.enter frame hcount } delivered hand := by
  have hlist : (a.stream.outbound.push frame hcount).toList = a.stream.outbound.toList ++ [frame] :=
    Ring.toList_push _ _ _
  refine ⟨h.address, h.request_eq, h.request_le, ?_, ?_, ?_⟩
  · intro f hf
    rcases mem_append.mp (hlist ▸ hf) with hf | hf
    · exact h.frames_le f hf
    · rw [mem_singleton.mp hf]
      exact hlen
  · intro hsent
    show _ ++ (a.stream.outbound.push frame hcount).toList.flatten =
      request ++ (a.stream.entered ++ [frame]).flatten
    rw [hlist, flatten_append, flatten_append, ← append_assoc, h.sent hsent, append_assoc]
  · intro hwait
    rcases h.waiting hwait with ⟨hdelivered, hpending, hhand, hring⟩
    refine ⟨hdelivered, hpending, hhand, ?_⟩
    show (a.stream.outbound.push frame hcount).toList = a.stream.entered ++ [frame]
    rw [hlist, hring]

lemma Flow.queuePendingResize :
    Flow x request { a with stream := a.stream.queuePendingResizeLocked } delivered hand := by
  unfold HostStream.queuePendingResizeLocked
  split
  · exact h
  · split
    · next resize _ hcount => exact (h.enter (length_resizeFrame resize) hcount).congr rfl rfl rfl
    · exact h

lemma Flow.enqueueOne (e : Enqueue) :
    Flow x request { a with stream := a.stream.enqueue e } delivered hand := by
  cases e with
  | frame bytes =>
    by_cases hlen : bytes.length > maxPayload
    · simp only [HostStream.enqueue, enqueueOutbound, if_pos hlen]
      exact h
    · by_cases hcount : a.stream.outbound.count < maxOutboundFrames
      · simp only [HostStream.enqueue, enqueueOutbound, if_neg hlen, dif_pos hcount]
        exact h.enter (Nat.le_of_not_gt hlen) hcount
      · simp only [HostStream.enqueue, enqueueOutbound, if_neg hlen, dif_neg hcount]
        exact h
  | resize size =>
    simp only [HostStream.enqueue, enqueueResize]
    split
    · exact h
    · have hset : Flow x request
          { a with stream := { a.stream with pendingResize := some size } } delivered hand :=
        h.quiet rfl
      exact hset.queuePendingResize

lemma Flow.enqueueAll (es : List Enqueue) :
    Flow x request (a.enqueueAll es) delivered hand := by
  induction es generalizing a with
  | nil => exact h
  | cons e es ih => exact ih (h.enqueueOne e)

omit h

lemma Flow.dequeue (h : Flow x request a delivered []) (hsent : a.stream.requestSent = true)
    {limit : ℕ} {frame : Bytes} {s : HostStream}
    (hdequeue : a.stream.dequeueOutboundWithin limit = some (frame, s)) :
    Flow x request { a with stream := s } delivered frame ∧ frame.length ≤ maxPayload ∧
      s.requestSent = true := by
  unfold HostStream.dequeueOutboundWithin at hdequeue
  split at hdequeue
  · cases hdequeue
  · next hcount =>
    simp only at hdequeue
    split at hdequeue
    · cases hdequeue
    · have hlist := Ring.toList_pop a.stream.outbound hcount
      have hlen : (a.stream.outbound.slots a.stream.outbound.head).length ≤ maxPayload :=
        h.frames_le _ (hlist ▸ mem_cons_self)
      have hpopped : Flow x request
          { a with stream := { a.stream with outbound := a.stream.outbound.pop } } delivered
          (a.stream.outbound.slots a.stream.outbound.head) := by
        refine ⟨h.address, h.request_eq, h.request_le, ?_, ?_, ?_⟩
        · intro f hf
          exact h.frames_le f (hlist ▸ mem_cons_of_mem _ hf)
        · intro _
          have := h.sent hsent
          rw [hlist, flatten_cons, append_nil, ← append_assoc] at this
          exact this
        · intro hwait
          rw [show a.stream.requestSent = false from hwait] at hsent
          cases hsent
      have hresult := hpopped.queuePendingResize
      cases hdequeue
      exact ⟨hresult, hlen, (untouched_requestSent.queuePendingResize _).trans hsent⟩

-- ══ The pending array

lemma enqueuePacket_ok {pending' : List Packet}
    (hok : enqueuePacket pending header payload = .ok pending') :
    pending' = pending ++ [⟨header.withLen payload.length, payload⟩] ∧
      pending.length < maxPending := by
  unfold enqueuePacket at hok
  split at hok
  · cases hok
  · split at hok
    · cases hok
    · next hfull =>
      cases hok
      exact ⟨rfl, Nat.lt_of_not_le hfull⟩

lemma pendingData_enqueue_other {pending' : List Packet}
    (hok : enqueuePacket pending header payload = .ok pending') (hop : header.op ≠ opRw) :
    x.pendingData pending' = x.pendingData pending := by
  rw [(enqueuePacket_ok hok).1, Address.pendingData_append, Address.pendingData_cons,
    Address.isData_withLen, Address.isData_of_op hop]
  exact append_nil _

lemma enqueueHostPacket_isOk {op : UInt16} {payload : Bytes}
    (hlen : payload.length ≤ maxPayload) (hfree : a.pending.length < maxPending) :
    ∃ a', a.enqueueHostPacket op payload = .ok a' := by
  unfold enqueueHostPacket enqueuePacket
  rw [if_neg (Nat.not_lt.mpr hlen), if_neg (Nat.not_le.mpr hfree)]
  exact ⟨_, rfl⟩

lemma pendingData_enqueue_data (hok : a.enqueueHostPacket opRw payload = .ok a')
    (haddress : a.address = x) : x.pendingData a'.pending = x.pendingData a.pending ++ payload ∧
      a'.pending.length = a.pending.length + 1 ∧ a'.stream.flow = a.stream.flow ∧
      a'.guestCid = a.guestCid := by
  unfold enqueueHostPacket at hok
  split at hok
  · cases hok
  · next pending hpending =>
    cases hok
    have hdata : x.isData (streamHeader a.guestCid a.stream opRw payload.length) = true := by
      rw [← haddress]
      simp [Address.isData, Attached.address, streamHeader]
    have hpending' := (enqueuePacket_ok hpending).1
    refine ⟨?_, ?_, rfl, rfl⟩
    · show x.pendingData pending = _
      rw [hpending', Address.pendingData_append, Address.pendingData_cons, Address.isData_withLen,
        hdata]
      simp [Address.pendingData]
    · show pending.length = _
      rw [hpending']
      simp

lemma Flow.enqueueData (h : Flow x request a delivered hand) (hsent : a.stream.requestSent = true)
    (hok : a.enqueueHostPacket opRw hand = .ok a') : Flow x request a' delivered [] := by
  rcases pendingData_enqueue_data hok h.address with ⟨hpending, _, hflow, hcid⟩
  have hflow' := hflow
  simp only [HostStream.flow, Prod.mk.injEq] at hflow'
  rcases hflow' with ⟨hguest, hhost, hrequest, hstill, hring, hentered⟩
  refine ⟨?_, hrequest.trans h.request_eq, h.request_le, hring ▸ h.frames_le, ?_, ?_⟩
  · rw [← h.address, Attached.address, Attached.address, hcid, hhost, hguest]
  · intro _
    rw [hpending, hring, hentered, append_nil, ← h.sent hsent, append_assoc,
      append_assoc, append_assoc, append_assoc]
  · intro hwait
    rw [hstill, hsent] at hwait
    cases hwait

lemma Flow.flushFrames (h : Flow x request a delivered []) {between : Between}
    {free i : ℕ} (hsent : a.stream.requestSent = true)
    (hfree : free ≤ maxPending - a.pending.length) :
    Flow x request (Attached.flushFrames between free i a).1 delivered [] ∧
      (Attached.flushFrames between free i a).2 = true := by
  induction free generalizing a i with
  | zero => exact ⟨h, rfl⟩
  | succ free ih =>
    have henqueued := h.enqueueAll (between i)
    have hsent' : (a.enqueueAll (between i)).stream.requestSent = true :=
      (untouched_requestSent.enqueueAll _ _).trans hsent
    rw [Attached.flushFrames]
    split
    · exact ⟨henqueued, rfl⟩
    · next frame s hdequeue =>
      rcases henqueued.dequeue hsent' hdequeue with ⟨hhand, hlen, hstill⟩
      have hroom : a.pending.length < maxPending := by omega
      rcases @enqueueHostPacket_isOk { a.enqueueAll (between i) with stream := s } opRw _ hlen hroom
        with ⟨a', hok⟩
      rcases pendingData_enqueue_data hok hhand.address with ⟨_, hlength, hflow, _⟩
      simp only [hok]
      apply ih (hhand.enqueueData hstill hok)
      · exact (congrArg (fun f => f.2.2.2.1) hflow).trans hstill
      · rw [hlength]
        show free ≤ maxPending - (a.pending.length + 1)
        omega

lemma Flow.flushRequest (h : Flow x request a delivered []) (hwait : a.stream.requestSent = false)
    (hok : a.flushRequest = .ok a') :
    Flow x request a' delivered [] ∧ a'.stream.requestSent = true ∧
      a'.pending.length = a.pending.length + 1 := by
  unfold Attached.flushRequest at hok
  split at hok
  · cases hok
  · next a₁ hrequest =>
    cases hok
    rcases pendingData_enqueue_data hrequest h.address with ⟨hpending, hlength, hflow, hcid⟩
    simp only [HostStream.flow, Prod.mk.injEq] at hflow
    rcases hflow with ⟨hguest, hhost, hrequestEq, _, hring, hentered⟩
    rcases h.waiting hwait with ⟨hdelivered, hnone, _, hlist⟩
    refine ⟨⟨?_, hrequestEq.trans h.request_eq, h.request_le, hring ▸ h.frames_le, ?_, ?_⟩, rfl,
      hlength⟩
    · rw [← h.address, Attached.address, Attached.address, hcid, hhost, hguest]
    · intro _
      show x.deliveredData delivered ++ x.pendingData a₁.pending ++ [] ++
        a₁.stream.outbound.toList.flatten = request ++ a₁.stream.entered.flatten
      rw [hdelivered, hpending, hnone, hring, hentered, hlist, h.request_eq, nil_append,
        nil_append, append_nil]
    · intro hfalse
      cases hfalse

lemma Flow.flushHostStreamOutboundFor (h : Flow x request a delivered [])
    (between : Between) :
    Flow x request (a.flushHostStreamOutboundFor between).1 delivered [] ∧
      (a.flushHostStreamOutboundFor between).2 = true := by
  unfold Attached.flushHostStreamOutboundFor
  split
  · exact ⟨h, rfl⟩
  · split
    · next hsent => exact h.flushFrames hsent le_rfl
    · next hwait =>
      split
      · exact ⟨h, rfl⟩
      · split
        · exact ⟨h, rfl⟩
        · next hfull =>
          have hlen : a.stream.request.length ≤ maxPayload := h.request_eq ▸ h.request_le
          rcases @enqueueHostPacket_isOk a opRw _ hlen (Nat.lt_of_not_le hfull) with ⟨a₁, hok⟩
          have hrequest : a.flushRequest =
              .ok { a₁ with stream := { a₁.stream with requestSent := true } } := by
            rw [Attached.flushRequest, hok]
          rcases h.flushRequest (Bool.eq_false_iff.mpr hwait) hrequest with ⟨hflow, hsent, _⟩
          simp only [hrequest]
          exact hflow.flushFrames hsent le_rfl

lemma Flow.flushOrFail (h : Flow x request a delivered []) (between : Between) :
    Flow x request (a.flushOrFail between) delivered [] := by
  rcases h.flushHostStreamOutboundFor between with ⟨hflow, hok⟩
  unfold Attached.flushOrFail
  split
  · next a' heq =>
    rw [heq] at hflow
    exact hflow
  · next a' heq =>
    rw [heq] at hok
    cases hok

end Flow

-- ══ Packets of the guest

lemma receiveRw_keeps {β : Type} {f : HostStream → β}
    (hf : ∀ s piece, f (s.appendOutput piece) = f s)
    (chain : Chain) (len done : ℕ) (s : HostStream) :
    f (receiveRw chain len done s) = f s := by
  fun_induction receiveRw chain len done s with
  | case1 => rfl
  | case2 done s _ piece _ _ ih => exact ih.trans (hf s piece)
  | case3 => rfl

/-- A property of a stream at the device that depends on the guest, a part `f` of the stream and the
data that is pending at an address. -/
structure Watches {β : Type} (x : Address) (f : HostStream → β) (P : Attached → Prop) : Prop where
  congr : ∀ {a a' : Attached}, P a → a'.guestCid = a.guestCid → f a'.stream = f a.stream →
    x.pendingData a'.pending = x.pendingData a.pending → P a'
  output : ∀ s output receivedBytes creditFwdCntSent,
    f { s with output, receivedBytes, creditFwdCntSent } = f s

section Watches

variable {β : Type} {f : HostStream → β} {P : Attached → Prop} {a : Attached} {x : Address}

lemma ignore_of {r : Except VsockError Attached} (h : P a) (hr : ∀ a', r = .ok a' → P a') :
    P (a.ignore r) := by
  cases r with
  | ok a' => exact hr a' rfl
  | error e => exact h

variable (hP : Watches x f P) (h : P a)

include hP h

lemma Watches.fail : P a.fail := hP.congr h rfl (hP.output _ _ _ _) rfl

lemma Watches.orFail {r : Except VsockError Attached} (hr : ∀ a', r = .ok a' → P a') :
    P (a.orFail r) := by
  cases r with
  | ok a' => exact hr a' rfl
  | error e => exact hP.fail h

lemma Watches.enqueueOther {op : UInt16} (hop : op ≠ opRw)
    (hok : a.enqueueHostPacket op [] = .ok a') : P a' := by
  unfold enqueueHostPacket at hok
  split at hok
  · cases hok
  · next pending hpending =>
    cases hok
    refine hP.congr h rfl ?_ (pendingData_enqueue_other hpending hop)
    rw [length_nil, show UInt32.ofNat 0 = 0 from rfl, UInt32.add_zero]
    exact hP.output _ _ _ _

lemma Watches.enqueueConnect (hok : a.enqueueHostConnectRequest = .ok a') : P a' := by
  unfold Attached.enqueueHostConnectRequest at hok
  split at hok
  · cases hok
  · next pending hpending =>
    cases hok
    have hop : (streamHeader a.guestCid a.stream opRequest 0).op ≠ opRw := by
      show opRequest ≠ opRw
      decide
    exact hP.congr h rfl rfl (pendingData_enqueue_other hpending hop)

lemma Watches.dispatch (hflush : ∀ {a} between, P a → P (a.flushOrFail between))
    (between : Between) (header : Header) (chain : Chain) :
    P (a.dispatch between header chain) := by
  unfold Attached.dispatch
  split
  · split
    · exact hflush between (hP.congr h rfl (hP.output _ _ _ _) rfl)
    · exact h
  · split
    · refine hP.congr h rfl (receiveRw_keeps (fun s piece => ?_) chain _ _ _) rfl
      exact hP.output _ _ _ _
    · split
      · exact hP.orFail h fun a' hok => hP.enqueueOther h (by decide) hok
      · split
        · split
          · exact hP.orFail h fun a' hok => hP.enqueueConnect h hok
          · exact hP.fail h
        · exact h

omit h in
/-- A packet is handled with the credit that it tells. -/
lemma Watches.handleHostStreamPacket (hflush : ∀ {a} between, P a → P (a.flushOrFail between))
    (between : Between) {header : Header} (chain : Chain)
    (h : P { a with stream :=
      { a.stream with peerBufAlloc := header.bufAlloc, peerFwdCnt := header.fwdCnt } }) :
    P (a.handleHostStreamPacket between header chain) := by
  have hdone := hP.dispatch h hflush between header chain
  unfold Attached.handleHostStreamPacket Attached.maybeUpdateCredit
  split
  · exact hdone
  · split
    · exact hdone
    · exact ignore_of hdone fun a' hok => hP.enqueueOther hdone (by decide) hok

end Watches

lemma watches_flow (x : Address) (request : Bytes) (delivered : List Delivered) (hand : Bytes) :
    Watches x HostStream.flow fun a => Flow x request a delivered hand :=
  ⟨Flow.congr, fun _ _ _ _ => rfl⟩

lemma refuse_cases (v : Vsock) (header : Header) : v.refuse header = v ∨
    ∃ answer pending, enqueuePacket v.pending answer [] = .ok pending ∧ answer.op = opRst ∧
      v.refuse header = { v with pending } := by
  unfold Vsock.refuse
  split
  · exact .inl rfl
  · split
    · exact .inl rfl
    · split
      · exact .inl rfl
      · next pending hpending => exact .inr ⟨_, pending, hpending, rfl, rfl⟩

-- ══ Packets in chains

lemma length_writeHeader (h : Header) : (writeHeader h).length = headerLen := by
  simp [writeHeader, headerLen, Lib.length_littleEndian]

lemma drop_eq_part_append {l part : Bytes} {k m : ℕ} (hpart : part = (l.drop k).take m) :
    l.drop k = part ++ l.drop (k + part.length) := by
  by_cases hm : m ≤ (l.drop k).length
  · have hlen : part.length = m := by rw [hpart, length_take, Nat.min_eq_left hm]
    rw [hlen, ← drop_drop, hpart, take_append_drop]
  · have hall : part = l.drop k := by rw [hpart, take_of_length_le (by omega)]
    rw [← drop_drop, hall, drop_length, append_nil]

lemma drop_headerPart {buf : Bytes} (hbuf : buf.length = headerLen) (copied room : ℕ) :
    (buf ++ payload).drop copied = headerPart buf copied room ++
      (buf ++ payload).drop (copied + (headerPart buf copied room).length) := by
  by_cases hlt : copied < headerLen
  · apply drop_eq_part_append
    rw [headerPart, if_pos hlt, drop_append_of_le_length (by omega), take_append_of_le_length]
    rw [length_drop, hbuf]
    exact min_le_right _ _
  · rw [headerPart, if_neg hlt]
    rfl

lemma drop_payloadPart {buf : Bytes} (hbuf : buf.length = headerLen) (copied room : ℕ) :
    (buf ++ payload).drop copied = payloadPart payload copied room ++
      (buf ++ payload).drop (copied + (payloadPart payload copied room).length) := by
  by_cases hin : headerLen ≤ copied ∧ copied < headerLen + payload.length ∧ 0 < room
  · apply drop_eq_part_append
    have hheader : buf.drop copied = [] := drop_eq_nil_of_le (hbuf ▸ hin.1)
    rw [payloadPart, if_pos hin, drop_append, hheader, hbuf, nil_append]
  · rw [payloadPart, if_neg hin]
    rfl

lemma writeSegments_flatten {buf : Bytes} (hbuf : buf.length = headerLen)
    {segments : List Segment} {copied : ℕ} {parts : List Bytes}
    (h : writeSegments buf payload copied segments = some parts) :
    parts.flatten = (buf ++ payload).drop copied := by
  induction segments generalizing copied parts with
  | nil => cases h
  | cons seg rest ih =>
    rw [writeSegments] at h
    split at h
    · dsimp only at h
      generalize hhead : headerPart buf copied seg.data.length = head at h
      generalize htail : payloadPart payload (copied + head.length)
        (seg.data.length - head.length) = tail at h
      have hsplit : (buf ++ payload).drop copied =
          head ++ tail ++ (buf ++ payload).drop (copied + head.length + tail.length) := by
        rw [drop_headerPart hbuf copied seg.data.length, hhead,
          drop_payloadPart hbuf (copied + head.length) (seg.data.length - head.length), htail,
          append_assoc]
      split at h
      · next hdone =>
        cases h
        rw [hsplit, drop_eq_nil_of_le (by rw [length_append, hbuf, hdone])]
        simp
      · rcases Option.map_eq_some_iff.mp h with ⟨more, hmore, rfl⟩
        rw [flatten_cons, ih hmore, hsplit]
    · exact ih h

lemma writePacketToChain_flatten {chain : Chain} {parts : List Bytes}
    (h : writePacketToChain chain header payload = some parts) :
    parts.flatten = writeHeader header ++ payload :=
  writeSegments_flatten (length_writeHeader header) h

-- ══ What the parts of an event preserve

structure Preserved (P : Vsock → Prop) : Prop where
  enqueue : ∀ v es, P v → P (v.enqueue es)
  handleChain : ∀ v between chain, P v → P (v.handleChain between chain)
  deliver : ∀ v packet rest chain pushed, v.pending = packet :: rest → P v →
    P (v.deliver packet rest chain pushed).1
  flushOutbound : ∀ v between, P v → P (v.flushOutbound between)
  flushHostStreamOutbound : ∀ v between, P v → P (v.flushHostStreamOutbound between)

section Preserved

variable {P : Vsock → Prop} {v : Vsock}

lemma Preserved.flushRx (hP : Preserved P) (h : P v) (budget : ℕ)
    (turns : List Vsock.RxTurn) : P (v.flushRx budget turns) := by
  induction turns generalizing v budget with
  | nil =>
    cases budget
    · exact h
    · exact h
  | cons turn turns ih =>
    cases budget with
    | zero => exact h
    | succ budget =>
      rw [Vsock.flushRx]
      split
      · exact h
      · next packet rest hpending =>
        split
        · exact h
        · exact h
        · next chain _ =>
          have hdelivered := hP.deliver v packet rest chain turn.pushed hpending h
          split
          · next v' heq =>
            rw [heq] at hdelivered
            exact ih hdelivered budget
          · next v' heq =>
            rw [heq] at hdelivered
            exact hdelivered

lemma Preserved.processChains (hP : Preserved P) (h : P v) (budget : ℕ)
    (turns : List Vsock.TxTurn) : P (v.processChains budget turns).1 := by
  induction turns generalizing v budget with
  | nil =>
    cases budget
    · exact h
    · exact h
  | cons turn turns ih =>
    cases budget with
    | zero => exact h
    | succ budget =>
      rw [Vsock.processChains]
      have henqueued := hP.enqueue v turn.before h
      split
      · exact henqueued
      · exact henqueued
      · next chain _ =>
        have hhandled := hP.handleChain _ turn.between chain henqueued
        split
        · exact ih hhandled budget
        · exact hhandled

lemma Preserved.step (hP : Preserved P) (h : P v) (event : Vsock.Event) : P (v.step event) := by
  cases event with
  | enqueue es => exact hP.enqueue v es h
  | flushOutbound between => exact hP.flushHostStreamOutbound v between h
  | notifyTx turns between rx =>
    show P (v.processTx turns between rx)
    have hprocessed := hP.processChains h maxNotifyChains turns
    unfold Vsock.processTx
    split
    · next v' heq =>
      rw [heq] at hprocessed
      exact hprocessed
    · next v' budget heq =>
      rw [heq] at hprocessed
      exact hP.flushRx (hP.flushOutbound v' between hprocessed) budget rx
  | notifyRx rx => exact hP.flushRx h maxNotifyChains rx

lemma Preserved.run (hP : Preserved P) (h : P v) (events : List Vsock.Event) :
    P (v.run events) := by
  induction events generalizing v with
  | nil => exact h
  | cons event events ih => exact ih (hP.step h event)

end Preserved

-- ══ Events

/-- The device carries the stream: its bytes flow, and every packet that has been delivered was
copied out whole. -/
structure Carries (x : Address) (request : Bytes) (v : Vsock) : Prop where
  flow : ∃ stream, v.hostStream = some stream ∧
    Flow x request (v.attached stream) v.delivered []
  copied : ∀ d ∈ v.delivered, d.copied.flatten = writeHeader d.header ++ d.payload

section Events

variable {x : Address} {request : Bytes} {v : Vsock} (h : Carries x request v)

include h

lemma Carries.update {a : Attached}
    (ha : Flow x request a v.delivered []) : Carries x request (v.update a) := by
  rcases h.flow with ⟨stream, _, hflow⟩
  have hcid : v.guestCid = a.guestCid :=
    congrArg Address.guestCid (hflow.address.trans ha.address.symm)
  exact ⟨⟨a.stream, rfl, ha.congr hcid rfl rfl⟩, h.copied⟩

lemma Carries.enqueue (es : List Enqueue) : Carries x request (v.enqueue es) := by
  rcases h.flow with ⟨stream, hstream, hflow⟩
  refine ⟨⟨stream.enqueueAll es, ?_, hflow.enqueueAll es⟩, h.copied⟩
  rw [Vsock.enqueue, hstream]
  rfl

lemma Carries.refuse (header : Header) : Carries x request (v.refuse header) := by
  rcases refuse_cases v header with heq | ⟨answer, pending, hpending, hop, heq⟩
  · rwa [heq]
  · rw [heq]
    obtain ⟨stream, hstream, hflow⟩ := h.flow
    have hother : answer.op ≠ opRw := by rw [hop]; decide
    exact ⟨⟨stream, hstream, hflow.congr rfl rfl (pendingData_enqueue_other hpending hother)⟩,
      h.copied⟩

lemma Carries.handleGuestPacket (between : Between) (header : Header) (chain : Chain) :
    Carries x request (v.handleGuestPacket between header chain) := by
  rcases h.flow with ⟨stream, hstream, hflow⟩
  unfold Vsock.handleGuestPacket
  rw [hstream]
  dsimp only
  split
  · exact h
  · split
    · exact h.update ((watches_flow ..).handleHostStreamPacket
        (fun between h => h.flushOrFail between) between chain (hflow.quiet rfl))
    · exact h.refuse header

lemma Carries.handleChain (between : Between)
    (chain : Chain) : Carries x request (v.handleChain between chain) := by
  unfold Vsock.handleChain
  split
  · exact h
  · exact h.handleGuestPacket _ _ _

omit h

lemma moved_data (delivered : List Delivered) (packet : Packet) (rest : List Packet)
    (take : ℕ) (copied : List Bytes) : x.deliveredData (delivered ++
        [⟨packet.header.withLen take, packet.data.take take, copied⟩]) ++
      x.pendingData (v.consume packet rest take).pending =
    x.deliveredData delivered ++ x.pendingData (packet :: rest) := by
  rw [Address.deliveredData_concat, Address.isData_withLen, Address.pendingData_cons, append_assoc]
  congr 1
  by_cases hpart : take < packet.data.length
  · have hpending : (v.consume packet rest take).pending =
        ⟨packet.header.withLen (packet.data.length - take), packet.data.drop take⟩ :: rest := by
      rw [Vsock.consume, if_pos hpart]
    rw [hpending, Address.pendingData_cons]
    rw [Address.isData_withLen]
    cases x.isData packet.header with
    | true =>
      show packet.data.take take ++ (packet.data.drop take ++ _) = packet.data ++ _
      rw [← append_assoc, take_append_drop]
    | false => rfl
  · have hpending : (v.consume packet rest take).pending = rest := by
      rw [Vsock.consume, if_neg hpart]
    rw [hpending, take_of_length_le (Nat.le_of_not_lt hpart)]

lemma Flow.deliver {a : Attached} {delivered delivered' : List Delivered}
    (h : Flow x request a delivered [])
    (hmoved : x.deliveredData delivered' ++ x.pendingData pending =
      x.deliveredData delivered ++ x.pendingData a.pending) :
    Flow x request { a with pending } delivered' [] := by
  refine ⟨h.address, h.request_eq, h.request_le, h.frames_le, ?_, ?_⟩
  · intro hsent
    show x.deliveredData delivered' ++ x.pendingData pending ++ _ ++ _ = _
    rw [hmoved]
    exact h.sent hsent
  · intro hwait
    rcases h.waiting hwait with ⟨hdelivered, hpending, hhand, hring⟩
    rw [hdelivered, hpending, append_nil, append_eq_nil_iff] at hmoved
    exact ⟨hmoved.1, hmoved.2, hhand, hring⟩

lemma Carries.deliver (h : Carries x request v) {packet : Packet} {rest : List Packet}
    (hpending : v.pending = packet :: rest) (chain : Chain) (pushed : Bool) :
    Carries x request (v.deliver packet rest chain pushed).1 := by
  unfold Vsock.deliver
  dsimp only
  split
  · split
    · exact h
    · next copied hcopied =>
      split
      · rcases h.flow with ⟨stream, hstream, hflow⟩
        generalize htake : min packet.data.length (chainWritableCapacity chain - headerLen) = take
          at hcopied
        have hkept : (v.consume packet rest take).hostStream = some stream ∧
            (v.consume packet rest take).guestCid = v.guestCid := by
          unfold Vsock.consume
          split <;> exact ⟨hstream, rfl⟩
        refine ⟨⟨stream, hkept.1, ?_⟩, ?_⟩
        · have hmoved := @moved_data x v v.delivered packet rest take copied
          rw [← hpending] at hmoved
          have hflow' := hflow.deliver hmoved
          exact hflow'.congr hkept.2 rfl rfl
        · intro d hd
          rcases mem_append.mp hd with hd | hd
          · exact h.copied d hd
          · rw [mem_singleton.mp hd]
            exact writePacketToChain_flatten hcopied
      · exact h
  · exact h

lemma Carries.flushOutbound (h : Carries x request v) (between : Between) :
    Carries x request (v.flushOutbound between) := by
  rcases h.flow with ⟨stream, hstream, hflow⟩
  unfold Vsock.flushOutbound
  rw [hstream]
  exact h.update (hflow.flushOrFail between)

lemma Carries.flushHostStreamOutbound (h : Carries x request v) (between : Between) :
    Carries x request (v.flushHostStreamOutbound between) := by
  rcases h.flow with ⟨stream, hstream, hflow⟩
  unfold Vsock.flushHostStreamOutbound
  rw [hstream]
  exact h.update (hflow.flushHostStreamOutboundFor between).1

/-- **Events.** Whatever happens while the stream stays attached, the device carries it. -/
theorem preserved_carries (x : Address) (request : Bytes) : Preserved (Carries x request) where
  enqueue _ es h := h.enqueue es
  handleChain _ between chain h := h.handleChain between chain
  deliver _ _ _ chain pushed hpending h := h.deliver hpending chain pushed
  flushOutbound _ between h := h.flushOutbound between
  flushHostStreamOutbound _ between h := h.flushHostStreamOutbound between

end Events

-- ══ The device between two streams

def Idle (v : Vsock) : Prop := v.hostStream = none → ∀ p ∈ v.pending, p.header.op ≠ opRw

section Idle

variable {v : Vsock}

lemma idle_of_some {stream : HostStream} (h : v.hostStream = some stream) : Idle v := by
  intro hnone
  rw [h] at hnone
  cases hnone

lemma Idle.refuse (h : Idle v) (header : Header) : Idle (v.refuse header) := by
  rcases refuse_cases v header with heq | ⟨answer, pending, hpending, hop, heq⟩
  · rwa [heq]
  · rw [heq]
    intro hnone p hp
    rw [(enqueuePacket_ok hpending).1] at hp
    rcases mem_append.mp hp with hp | hp
    · exact h hnone p hp
    · rw [mem_singleton.mp hp]
      show answer.op ≠ opRw
      rw [hop]
      decide

lemma Idle.handleChain (h : Idle v) (between : Between) (chain : Chain) :
    Idle (v.handleChain between chain) := by
  unfold Vsock.handleChain
  split
  · exact h
  · unfold Vsock.handleGuestPacket
    split
    · exact h
    · split
      · exact h.refuse _
      · split
        · exact idle_of_some rfl
        · exact h.refuse _

lemma Idle.enqueue (h : Idle v) (es : List Enqueue) : Idle (v.enqueue es) := by
  intro hnone
  exact h (Option.map_eq_none_iff.mp hnone)

lemma Idle.deliver (h : Idle v) {packet : Packet} {rest : List Packet}
    (hpending : v.pending = packet :: rest) (chain : Chain) (pushed : Bool) :
    Idle (v.deliver packet rest chain pushed).1 := by
  have hconsumed : ∀ take, Idle (v.consume packet rest take) := by
    intro take
    unfold Vsock.consume
    split
    · intro hnone p hp
      have hall := h hnone
      rw [hpending] at hall
      rcases mem_cons.mp hp with rfl | hp
      · exact hall packet mem_cons_self
      · exact hall p (mem_cons_of_mem _ hp)
    · intro hnone p hp
      exact h hnone p (hpending ▸ mem_cons_of_mem _ hp)
  unfold Vsock.deliver
  dsimp only
  split
  · split
    · exact h
    · split
      · exact hconsumed _
      · exact h
  · exact h

lemma preserved_idle : Preserved Idle where
  enqueue _ es h := h.enqueue es
  handleChain _ between chain h := h.handleChain between chain
  deliver _ _ _ chain pushed hpending h := h.deliver hpending chain pushed
  flushOutbound v between h := by
    unfold Vsock.flushOutbound
    split
    · exact h
    · exact idle_of_some rfl
  flushHostStreamOutbound v between h := by
    unfold Vsock.flushHostStreamOutbound
    split
    · exact h
    · exact idle_of_some rfl

lemma Idle.live (h : Idle v) (life : Vsock.Life) : Idle (v.live life) := by
  cases life with
  | attach stream => exact idle_of_some rfl
  | reset =>
    show Idle v.resetHostStream
    unfold Vsock.resetHostStream
    split
    · exact h
    · split
      · intro _ p hp
        cases hp
      · split
        · intro _ p hp
          cases hp
        · next pending hpending =>
          intro _ p hp
          rw [(enqueuePacket_ok hpending).1, nil_append, mem_singleton] at hp
          rw [hp]
          show opRst ≠ opRw
          decide
  | event event => exact preserved_idle.step h event

lemma idle_of_lives (guestCid : UInt64) (lives : List Vsock.Life) :
    Idle (lives.foldl Vsock.live (.init guestCid)) := by
  have hstart : Idle (.init guestCid) := by
    intro _ p hp
    cases hp
  generalize Vsock.init guestCid = v at hstart
  induction lives generalizing v with
  | nil => exact hstart
  | cons life lives ih => exact ih _ (hstart.live life)

end Idle

lemma Idle.pendingData_nil {v : Vsock} (hidle : Idle v) (hnone : v.hostStream = none)
    (x : Address) : x.pendingData v.pending = [] := by
  have hfilter : v.pending.filter (fun p => x.isData p.header) = [] := by
    apply filter_eq_nil_iff.mpr
    intro p hp
    rw [Address.isData_of_op (hidle hnone p hp)]
    exact Bool.false_ne_true
  rw [Address.pendingData, hfilter]
  rfl

lemma carries_attach {v : Vsock} (hidle : Idle v) (hnone : v.hostStream = none)
    {guestPort : UInt32} {request : Bytes} {base : HostStream}
    (hinit : HostStream.init guestPort request = .ok base) (hostPort : UInt32)
    (output : OutputParser) (early : List Enqueue) :
    Carries ⟨v.guestCid, hostPort, guestPort⟩ request
      (v.attachHostStream (HostStream.enqueueAll { base with hostPort, output } early)) := by
  unfold HostStream.init at hinit
  split at hinit
  · cases hinit
  · next hlen =>
    cases hinit
    have hstart : Flow ⟨v.guestCid, hostPort, guestPort⟩ request
        (v.attached
          { guestPort, request, outbound := emptyRing, hostPort, output }) [] [] := by
      refine ⟨rfl, rfl, Nat.le_of_not_gt hlen, ?_, ?_, ?_⟩
      · intro frame hframe
        cases hframe
      · intro hsent
        cases hsent
      · intro _
        exact ⟨rfl, hidle.pendingData_nil hnone _, rfl, rfl⟩
    have hready := hstart.enqueueAll early
    have hconnect := ignore_of hready fun a' hok => (watches_flow ..).enqueueConnect hready hok
    have hcid : v.guestCid = (ignore _ _).guestCid :=
      (congrArg Address.guestCid hconnect.address).symm
    refine ⟨⟨_, rfl, hconnect.congr hcid rfl rfl⟩, ?_⟩
    intro d hd
    cases hd

/-- **Delivery.** A stream is attached to a device that has none, after any life of the device and
with frames that may be in its ring already. Whatever follows while it stays attached, the payloads
of its data packets that the guest has been given are, in a row, an initial part of the request
followed by the frames in the order in which they entered the ring; and every packet lies in the
segments of its chain as its header followed by its payload. -/
theorem delivered_prefix_of_sent (guestCid : UInt64) (lives : List Vsock.Life)
    (hnone : (lives.foldl Vsock.live (.init guestCid)).hostStream = none)
    {guestPort : UInt32} {request : Bytes} {base : HostStream}
    (hinit : HostStream.init guestPort request = .ok base) (hostPort : UInt32)
    (output : OutputParser) (early : List Enqueue) (events : List Vsock.Event) :
    let v := ((lives.foldl Vsock.live (.init guestCid)).attachHostStream
      (HostStream.enqueueAll { base with hostPort, output } early)).run events
    ∃ stream, v.hostStream = some stream ∧ stream.request = request ∧
      Address.deliveredData ⟨v.guestCid, hostPort, guestPort⟩ v.delivered <+:
        request ++ stream.entered.flatten ∧
      ∀ d ∈ v.delivered, d.copied.flatten = writeHeader d.header ++ d.payload := by
  intro v
  have hcarries := (preserved_carries _ request).run
    (carries_attach (idle_of_lives guestCid lives) hnone hinit hostPort output early) events
  rcases hcarries.flow with ⟨stream, hstream, hflow⟩
  have hcid : v.guestCid = (lives.foldl Vsock.live (.init guestCid)).guestCid :=
    congrArg Address.guestCid hflow.address
  refine ⟨stream, hstream, hflow.request_eq, ?_, hcarries.copied⟩
  rw [hcid]
  exact hflow.delivered_initial

def acceptPacket : Chain where
  head := 0
  segments :=
    [{ data := writeHeader
        { srcCid := 3
          dstCid := hostCid
          srcPort := 10
          dstPort := 49152
          len := 0
          packetType := packetTypeStream
          op := opResponse
          bufAlloc := 4096 }
       writable := false }]

def rxBuffer (size : ℕ) : Vsock.RxTurn where
  pop := .chain ⟨0, [{ data := replicate size 0, writable := true }]⟩
  pushed := true

/-- The connect request is delivered, the guest accepts, and takes the data in two buffers, the
first of which holds only one byte of the request. -/
def acceptedRun : List Vsock.Event :=
  [.notifyRx [rxBuffer 64],
    .notifyTx [⟨[], .chain acceptPacket, fun _ => [], true⟩] (fun _ => [])
      [rxBuffer 45, rxBuffer 20, rxBuffer 64, rxBuffer 64]]

theorem delivered_prefix_of_sent_acceptedRun : ∃ base stream,
    HostStream.init 10 [7, 8] = .ok base ∧
      (((Vsock.init 3).attachHostStream
        (HostStream.enqueueAll { base with hostPort := 49152, output := {} }
          [.frame [9]])).run acceptedRun).hostStream = some stream ∧
      Address.deliveredData ⟨3, 49152, 10⟩
        (((Vsock.init 3).attachHostStream
          (HostStream.enqueueAll { base with hostPort := 49152, output := {} }
            [.frame [9]])).run acceptedRun).delivered <+: [7, 8] ++ stream.entered.flatten := by
  obtain ⟨stream, hstream, _, hle, _⟩ :=
    @delivered_prefix_of_sent 3 [] rfl 10 [7, 8] _ rfl 49152 {} [.frame [9]] acceptedRun
  exact ⟨_, stream, rfl, hstream, hle⟩

end SporeVM.Virtio
