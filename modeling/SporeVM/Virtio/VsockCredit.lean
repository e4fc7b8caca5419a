import Mathlib.Data.List.Infix
import SporeVM.Virtio.VsockOutcome

/-!
# The credit of the guest

The host counts the bytes of stream data it has sent modulo 2^32, and the guest tells in each packet
how large its buffer is and how many bytes it has consumed, also modulo 2^32. Only what fits into
the rest of the buffer is sent. The count that the guest told last may lie behind what it has
consumed.

A guest that keeps to one buffer size, and tells counts that were true and do not go back, is never
given more than its buffer holds, however many bytes have been sent: with `queued` bytes sent, of
which `acked` are known to be consumed, the counters differ by `queued - acked`, which stays below
2^32 because it stays within the buffer.
-/

namespace SporeVM.Virtio

open List

-- ══ The window

namespace Address

def queued (x : Address) (delivered : List Delivered) (pending : List Packet) : ℕ :=
  (x.deliveredData delivered).length + (x.pendingData pending).length

end Address

/-- What the counters of the stream stand for, when the guest's last packet has told that it had
consumed `acked` bytes: before its first packet the guest has granted nothing. -/
structure Window (x : Address) (bufAlloc : UInt32) (acked : ℕ) (a : Attached)
    (delivered : List Delivered) : Prop where
  address : a.address = x
  sent : a.stream.sentBytes = UInt32.ofNat (x.queued delivered a.pending)
  consumed : a.stream.peerFwdCnt = UInt32.ofNat acked
  granted : a.stream.peerBufAlloc = bufAlloc ∨ a.stream.peerBufAlloc = 0
  acked_le : acked ≤ x.queued delivered a.pending
  queued_le : x.queued delivered a.pending ≤ acked + bufAlloc.toNat

def HostStream.credit (s : HostStream) : UInt32 × UInt32 × UInt32 × UInt32 × UInt32 :=
  (s.guestPort, s.hostPort, s.sentBytes, s.peerBufAlloc, s.peerFwdCnt)

variable {a' : Attached}

section Window

variable {x : Address} {bufAlloc : UInt32} {acked : ℕ} {a : Attached} {delivered : List Delivered}

lemma Window.congr (h : Window x bufAlloc acked a delivered)
    (hcid : a'.guestCid = a.guestCid) (hstream : a'.stream.credit = a.stream.credit)
    (hpending : x.pendingData a'.pending = x.pendingData a.pending) :
    Window x bufAlloc acked a' delivered := by
  simp only [HostStream.credit, Prod.mk.injEq] at hstream
  obtain ⟨hguest, hhost, hsent, halloc, hfwd⟩ := hstream
  have hqueued : x.queued delivered a'.pending = x.queued delivered a.pending := by
    rw [Address.queued, Address.queued, hpending]
  refine ⟨?_, ?_, hfwd.trans h.consumed, halloc ▸ h.granted, ?_, ?_⟩
  · rw [← h.address, Attached.address, Attached.address, hcid, hhost, hguest]
  · rw [hsent, hqueued]
    exact h.sent
  · rw [hqueued]
    exact h.acked_le
  · rw [hqueued]
    exact h.queued_le

lemma Window.quiet (h : Window x bufAlloc acked a delivered) {s : HostStream}
    (hs : s.credit = a.stream.credit) : Window x bufAlloc acked { a with stream := s } delivered :=
  h.congr rfl hs rfl

lemma Window.inflight (h : Window x bufAlloc acked a delivered) :
    (a.stream.sentBytes - a.stream.peerFwdCnt).toNat = x.queued delivered a.pending - acked := by
  have hle := h.queued_le
  have hge := h.acked_le
  have hlt : bufAlloc.toNat < 2 ^ 32 := bufAlloc.toNat_lt
  rw [h.sent, h.consumed, UInt32.toNat_sub, UInt32.toNat_ofNat', UInt32.toNat_ofNat']
  omega

lemma le_of_le_txWindowFree {s : HostStream} {n : ℕ} (h : n ≤ s.txWindowFree.toNat) :
    n = 0 ∨ (s.sentBytes - s.peerFwdCnt).toNat + n ≤ s.peerBufAlloc.toNat := by
  unfold HostStream.txWindowFree at h
  simp only at h
  split at h
  · left
    simpa using h
  · next hlt =>
    right
    rw [ge_iff_le, UInt32.le_iff_toNat_le] at hlt
    rw [UInt32.toNat_sub_of_le _ _ (UInt32.le_iff_toNat_le.mpr (by omega))] at h
    omega

/-- **The free part of the guest's buffer**: what fits into it may be queued. -/
theorem Window.txWindowFree_le (h : Window x bufAlloc acked a delivered) {n : ℕ}
    (hn : n ≤ a.stream.txWindowFree.toNat) :
    x.queued delivered a.pending + n ≤ acked + bufAlloc.toNat := by
  have hle := h.queued_le
  rcases le_of_le_txWindowFree hn with hzero | hroom
  · omega
  · rw [h.inflight] at hroom
    rcases h.granted with hgranted | hnone
    · rw [hgranted] at hroom
      omega
    · rw [hnone, UInt32.toNat_zero] at hroom
      omega

-- ══ Enqueueing

lemma untouched_credit : Untouched HostStream.credit := fun _ _ _ _ => rfl

lemma Window.enqueueAll (h : Window x bufAlloc acked a delivered)
    (es : List HostStream.Enqueue) : Window x bufAlloc acked (a.enqueueAll es) delivered :=
  h.quiet (untouched_credit.enqueueAll a.stream es)

lemma dequeue_credit {s s' : HostStream} {limit : ℕ} {frame : Bytes}
    (h : s.dequeueOutboundWithin limit = some (frame, s')) :
    s'.credit = s.credit ∧ frame.length ≤ limit := by
  unfold HostStream.dequeueOutboundWithin at h
  split at h
  · cases h
  · simp only at h
    split at h
    · cases h
    · next hfits =>
      have hcredit := untouched_credit.queuePendingResize { s with outbound := s.outbound.pop }
      cases h
      exact ⟨hcredit, Nat.le_of_not_gt hfits⟩

variable (h : Window x bufAlloc acked a delivered)

include h

lemma Window.enqueueData {payload : Bytes} (hfits : payload.length ≤ a.stream.txWindowFree.toNat)
    (hok : a.enqueueHostPacket opRw payload = .ok a') : Window x bufAlloc acked a' delivered := by
  have hpending := (pendingData_enqueue_data hok h.address).1
  have hqueued : x.queued delivered a'.pending = x.queued delivered a.pending + payload.length := by
    rw [Address.queued, Address.queued, hpending, length_append]
    omega
  have hle := h.txWindowFree_le hfits
  have hge := h.acked_le
  have hstream : a'.stream.sentBytes = a.stream.sentBytes + UInt32.ofNat payload.length ∧
      a'.stream.peerFwdCnt = a.stream.peerFwdCnt ∧
      a'.stream.peerBufAlloc = a.stream.peerBufAlloc ∧ a'.address = a.address := by
    unfold Attached.enqueueHostPacket at hok
    split at hok
    · cases hok
    · cases hok
      exact ⟨rfl, rfl, rfl, rfl⟩
  obtain ⟨hsent, hfwd, halloc, haddress⟩ := hstream
  refine ⟨haddress.trans h.address, ?_, hfwd.trans h.consumed, halloc ▸ h.granted, ?_, ?_⟩
  · rw [hsent, h.sent, hqueued, UInt32.ofNat_add]
  · omega
  · omega

-- ══ Flushes

lemma Window.flushFrames (between : Attached.Between) (free i : ℕ) :
    Window x bufAlloc acked (Attached.flushFrames between free i a).1 delivered := by
  induction free generalizing a i with
  | zero => exact h
  | succ free ih =>
    have henqueued := h.enqueueAll (between i)
    rw [Attached.flushFrames]
    split
    · exact henqueued
    · next frame s hdequeue =>
      obtain ⟨hcredit, hlen⟩ := dequeue_credit hdequeue
      have hdequeued := henqueued.quiet hcredit
      split
      · exact hdequeued
      · next a' hok =>
        refine ih (hdequeued.enqueueData (hlen.trans_eq ?_) hok) (i + 1)
        simp only [HostStream.credit, Prod.mk.injEq] at hcredit
        simp only [HostStream.txWindowFree, hcredit]

lemma Window.flushHostStreamOutboundFor (between : Attached.Between) :
    Window x bufAlloc acked (a.flushHostStreamOutboundFor between).1 delivered := by
  unfold Attached.flushHostStreamOutboundFor
  split
  · exact h
  · split
    · exact h.flushFrames between _ 0
    · split
      · exact h
      · next hfits =>
        split
        · exact h
        · split
          · exact h
          · next a₁ hrequest =>
            refine Window.flushFrames ?_ between _ 0
            unfold Attached.flushRequest at hrequest
            split at hrequest
            · cases hrequest
            · next a₂ hok =>
              cases hrequest
              exact (h.enqueueData (Nat.le_of_not_gt hfits) hok).quiet rfl

omit h in
lemma watches_window (x : Address) (bufAlloc : UInt32) (acked : ℕ) (delivered : List Delivered) :
    Watches x HostStream.credit fun a => Window x bufAlloc acked a delivered :=
  ⟨Window.congr, fun _ _ _ _ => rfl⟩

lemma Window.flushOrFail
    (between : Attached.Between) : Window x bufAlloc acked (a.flushOrFail between) delivered := by
  have hflushed := h.flushHostStreamOutboundFor between
  unfold Attached.flushOrFail
  split
  · next a' heq =>
    rw [heq] at hflushed
    exact hflushed
  · next a' heq =>
    rw [heq] at hflushed
    exact (watches_window ..).fail hflushed

-- ══ Packets of the guest

lemma Window.handleHostStreamPacket (between : Attached.Between) {header : Header} (chain : Chain)
    {count : ℕ} (halloc : header.bufAlloc = bufAlloc) (hfwd : header.fwdCnt = UInt32.ofNat count)
    (hlater : acked ≤ count) (htrue : count ≤ x.queued delivered a.pending) :
    Window x bufAlloc count (a.handleHostStreamPacket between header chain) delivered := by
  refine (watches_window ..).handleHostStreamPacket (fun between h => h.flushOrFail between) between
    chain ?_
  exact ⟨h.address, h.sent, hfwd, .inl halloc, htrue, h.queued_le.trans (by omega)⟩

lemma Window.deliver {delivered' : List Delivered} {pending : List Packet}
    (hmoved : x.deliveredData delivered' ++ x.pendingData pending =
      x.deliveredData delivered ++ x.pendingData a.pending) :
    Window x bufAlloc acked { a with pending } delivered' := by
  have hqueued : x.queued delivered' pending = x.queued delivered a.pending := by
    rw [Address.queued, Address.queued, ← length_append, ← length_append, hmoved]
  refine ⟨h.address, ?_, h.consumed, h.granted, ?_, ?_⟩
  · show a.stream.sentBytes = UInt32.ofNat (x.queued delivered' pending)
    rw [hqueued]
    exact h.sent
  · show acked ≤ x.queued delivered' pending
    rw [hqueued]
    exact h.acked_le
  · show x.queued delivered' pending ≤ acked + bufAlloc.toNat
    rw [hqueued]
    exact h.queued_le

end Window

-- ══ The device

def Credited (x : Address) (bufAlloc : UInt32) (acked : ℕ) (v : Vsock) : Prop :=
  ∃ stream, v.hostStream = some stream ∧
    Window x bufAlloc acked (v.attached stream) v.delivered

def Vsock.told (v : Vsock) : Part → Option Header
  | .handleChain _ chain => (parseTxHeader chain).filter fun h =>
      h.packetType = packetTypeStream && v.hostStream.any fun s => v.matchesHostStream s h
  | _ => none

section Device

variable {x : Address} {bufAlloc : UInt32} {acked : ℕ} {v : Vsock} (h : Credited x bufAlloc acked v)

include h

lemma Credited.update {a : Attached} {count : ℕ}
    (ha : Window x bufAlloc count a v.delivered) : Credited x bufAlloc count (v.update a) := by
  obtain ⟨stream, _, hwindow⟩ := h
  have hcid : v.guestCid = a.guestCid :=
    congrArg Address.guestCid (hwindow.address.trans ha.address.symm)
  exact ⟨a.stream, rfl, ha.congr hcid rfl rfl⟩

lemma Credited.refuse (header : Header) : Credited x bufAlloc acked (v.refuse header) := by
  rcases refuse_cases v header with heq | ⟨answer, pending, hpending, hop, heq⟩
  · rwa [heq]
  · rw [heq]
    obtain ⟨stream, hstream, hwindow⟩ := h
    have hother : answer.op ≠ opRw := by rw [hop]; decide
    exact ⟨stream, hstream, hwindow.congr rfl rfl (pendingData_enqueue_other hpending hother)⟩

lemma Credited.deliverFirst (chain : Chain) (pushed : Bool) :
    Credited x bufAlloc acked (v.deliverFirst chain pushed) := by
  unfold Vsock.deliverFirst
  split
  · exact h
  · next packet rest hpending =>
    unfold Vsock.deliver
    dsimp only
    split
    · split
      · exact h
      · next copied _ =>
        split
        · obtain ⟨stream, hstream, hwindow⟩ := h
          generalize min packet.data.length (chainWritableCapacity chain - headerLen) = take
          have hkept : (v.consume packet rest take).hostStream = some stream ∧
              (v.consume packet rest take).guestCid = v.guestCid := by
            unfold Vsock.consume
            split <;> exact ⟨hstream, rfl⟩
          have hmoved := @moved_data x v v.delivered packet rest take copied
          rw [← hpending] at hmoved
          exact ⟨stream, hkept.1, (hwindow.deliver hmoved).congr hkept.2 rfl rfl⟩
        · exact h
    · exact h

lemma Credited.quiet {p : Part} (hp : v.told p = none) : Credited x bufAlloc acked (v.part p) := by
  obtain ⟨stream, hstream, hwindow⟩ := id h
  cases p with
  | enqueue es =>
    refine ⟨stream.enqueueAll es, ?_, hwindow.enqueueAll es⟩
    rw [Vsock.part, Vsock.enqueue, hstream]
    rfl
  | handleChain between chain =>
    rw [Vsock.told, Option.filter_eq_none_iff] at hp
    rw [Vsock.part, Vsock.handleChain]
    split
    · exact h
    · next header hparse =>
      have hother := hp header hparse
      rw [hstream, Option.any_some] at hother
      rw [Vsock.handleGuestPacket, hstream]
      split
      · exact h
      · next htype =>
        dsimp only
        split
        · next hmatch => simp [not_not.mp htype, hmatch] at hother
        · exact h.refuse header
  | deliver chain pushed => exact h.deliverFirst chain pushed
  | flushOutbound between =>
    rw [Vsock.part, Vsock.flushOutbound, hstream]
    exact h.update (hwindow.flushOrFail between)
  | flushHostStreamOutbound between =>
    rw [Vsock.part, Vsock.flushHostStreamOutbound, hstream]
    exact h.update (hwindow.flushHostStreamOutboundFor between)
  | fail =>
    refine ⟨stream.fail, ?_, (watches_window ..).fail hwindow⟩
    rw [Vsock.part, Vsock.failStream, hstream]
    rfl

lemma Credited.packet {p : Part} {header : Header}
    (hp : v.told p = some header) {count : ℕ} (halloc : header.bufAlloc = bufAlloc)
    (hfwd : header.fwdCnt = UInt32.ofNat count) (hlater : acked ≤ count)
    (htrue : count ≤ (x.deliveredData v.delivered).length) :
    Credited x bufAlloc count (v.part p) := by
  obtain ⟨stream, hstream, hwindow⟩ := id h
  cases p with
  | handleChain between chain =>
    rw [Vsock.told, Option.filter_eq_some_iff, hstream, Option.any_some, Bool.and_eq_true,
      decide_eq_true_iff] at hp
    obtain ⟨hparse, htype, hmatch⟩ := hp
    have hhandled : v.part (.handleChain between chain) =
        v.update ((v.attached stream).handleHostStreamPacket between header chain) := by
      rw [Vsock.part, Vsock.handleChain, hparse]
      dsimp only
      rw [Vsock.handleGuestPacket, if_neg (not_not.mpr htype), hstream]
      exact if_pos hmatch
    rw [hhandled]
    exact h.update (hwindow.handleHostStreamPacket between chain halloc hfwd hlater
      (htrue.trans (Nat.le_add_right _ _)))
  | enqueue _ => cases hp
  | deliver _ _ => cases hp
  | flushOutbound _ => cases hp
  | flushHostStreamOutbound _ => cases hp
  | fail => cases hp

end Device

lemma delivered_grows (v : Vsock) (p : Part) : v.delivered <+: (v.part p).delivered := by
  cases p with
  | deliver chain pushed =>
    rw [Vsock.part, Vsock.deliverFirst]
    split
    · exact prefix_rfl
    · unfold Vsock.deliver
      dsimp only
      split
      · split
        · exact prefix_rfl
        · split
          · exact prefix_append _ _
          · exact prefix_rfl
      · exact prefix_rfl
  | handleChain between chain =>
    have hrefuse : ∀ header, (v.refuse header).delivered = v.delivered := by
      intro header
      rcases refuse_cases v header with heq | ⟨_, _, _, _, heq⟩ <;> rw [heq]
    rw [Vsock.part, Vsock.handleChain]
    split
    · exact prefix_rfl
    · unfold Vsock.handleGuestPacket
      split
      · exact prefix_rfl
      · split
        · rw [hrefuse]
        · split
          · exact prefix_rfl
          · rw [hrefuse]
  | enqueue _ => exact prefix_rfl
  | flushOutbound _ =>
    rw [Vsock.part, Vsock.flushOutbound]
    split <;> exact prefix_rfl
  | flushHostStreamOutbound _ =>
    rw [Vsock.part, Vsock.flushHostStreamOutbound]
    split <;> exact prefix_rfl
  | fail => exact prefix_rfl

lemma deliveredData_grows (x : Address) {ds es : List Delivered} (h : ds <+: es) :
    (x.deliveredData ds).length ≤ (x.deliveredData es).length := by
  obtain ⟨rest, rfl⟩ := h
  simp [Address.deliveredData]

-- ══ The guest

/-- The device with its guest, which has consumed the first `consumed` bytes that it was given and
has told so of the first `acked`. -/
structure Session where
  device : Vsock
  consumed : ℕ := 0
  acked : ℕ := 0

/-- A step of the device with a guest that keeps to one buffer size. A count that the guest tells
was true when it wrote the packet, which may have been long ago, and does not go back. -/
inductive Session.Step (x : Address) (bufAlloc : UInt32) : Session → Session → Prop
  | consume (s : Session) (n : ℕ)
      (hgiven : s.consumed + n ≤ (x.deliveredData s.device.delivered).length) :
      Step x bufAlloc s { s with consumed := s.consumed + n }
  | quiet (s : Session) (p : Part) (hp : s.device.told p = none) :
      Step x bufAlloc s { s with device := s.device.part p }
  | packet (s : Session) (p : Part) (header : Header) (count : ℕ)
      (hp : s.device.told p = some header) (halloc : header.bufAlloc = bufAlloc)
      (hfwd : header.fwdCnt = UInt32.ofNat count) (hlater : s.acked ≤ count)
      (htrue : count ≤ s.consumed) :
      Step x bufAlloc s { s with device := s.device.part p, acked := count }

structure Session.Honest (x : Address) (bufAlloc : UInt32) (s : Session) : Prop where
  credited : Credited x bufAlloc s.acked s.device
  acked_le : s.acked ≤ s.consumed
  consumed_le : s.consumed ≤ (x.deliveredData s.device.delivered).length

section Session

variable {x : Address} {bufAlloc : UInt32} {s s' : Session}

lemma Session.Honest.step (h : s.Honest x bufAlloc) (hstep : Session.Step x bufAlloc s s') :
    s'.Honest x bufAlloc := by
  cases hstep with
  | consume n hgiven =>
    exact ⟨h.credited, h.acked_le.trans (Nat.le_add_right _ _), hgiven⟩
  | quiet p hp =>
    exact ⟨h.credited.quiet hp, h.acked_le,
      h.consumed_le.trans (deliveredData_grows x (delivered_grows _ p))⟩
  | packet p header count hp halloc hfwd hlater htrue =>
    exact ⟨h.credited.packet hp halloc hfwd hlater (htrue.trans h.consumed_le), htrue,
      h.consumed_le.trans (deliveredData_grows x (delivered_grows _ p))⟩

lemma Session.Honest.run (h : s.Honest x bufAlloc)
    (hrun : Relation.ReflTransGen (Session.Step x bufAlloc) s s') : s'.Honest x bufAlloc := by
  induction hrun with
  | refl => exact h
  | tail _ hstep ih => exact ih.step hstep

lemma Session.Honest.outstanding_le (h : s.Honest x bufAlloc) :
    x.queued s.device.delivered s.device.pending ≤ s.consumed + bufAlloc.toNat := by
  obtain ⟨stream, -, hwindow⟩ := h.credited
  exact hwindow.queued_le.trans (Nat.add_le_add_right h.acked_le _)

end Session

lemma credited_attach {v : Vsock} (hidle : Idle v) (hnone : v.hostStream = none)
    {guestPort : UInt32} {request : Bytes} {base : HostStream}
    (hinit : HostStream.init guestPort request = .ok base) (hostPort : UInt32)
    (output : OutputParser) (early : List HostStream.Enqueue) (bufAlloc : UInt32) :
    Credited ⟨v.guestCid, hostPort, guestPort⟩ bufAlloc 0
      (v.attachHostStream (HostStream.enqueueAll { base with hostPort, output } early)) := by
  unfold HostStream.init at hinit
  split at hinit
  · cases hinit
  · cases hinit
    have hqueued : Address.queued ⟨v.guestCid, hostPort, guestPort⟩ [] v.pending = 0 := by
      rw [Address.queued, hidle.pendingData_nil hnone]
      rfl
    have hstart : Window ⟨v.guestCid, hostPort, guestPort⟩ bufAlloc 0
        (v.attached
          { guestPort, request, outbound := HostStream.emptyRing, hostPort, output }) [] := by
      refine ⟨rfl, ?_, rfl, .inr rfl, Nat.zero_le _, ?_⟩
      · exact (congrArg UInt32.ofNat hqueued).symm
      · exact hqueued.trans_le (Nat.zero_le _)
    have hready := hstart.enqueueAll early
    have hconnect := ignore_of hready fun a' hok => (watches_window ..).enqueueConnect hready hok
    have hcid : v.guestCid = (Attached.ignore _ _).guestCid :=
      (congrArg Address.guestCid hconnect.address).symm
    exact ⟨_, rfl, hconnect.congr hcid rfl rfl⟩

/-- **Credit.** A stream is attached to a device that has none, after any life of the device. The
guest keeps to one buffer size, and each count that it tells of the bytes it has consumed was true
before, though perhaps not any more, and does not go back. Then whatever the host sends, and however
often the counters have gone around, the bytes of the stream that are queued for the guest or
delivered to it and not consumed fit its buffer. -/
theorem outstanding_le_credit (guestCid : UInt64) (lives : List Vsock.Life)
    (hnone : (lives.foldl Vsock.live (.init guestCid)).hostStream = none)
    {guestPort : UInt32} {request : Bytes} {base : HostStream}
    (hinit : HostStream.init guestPort request = .ok base) (hostPort : UInt32)
    (output : OutputParser) (early : List HostStream.Enqueue) (bufAlloc : UInt32) :
    let v := lives.foldl Vsock.live (.init guestCid)
    let x : Address := ⟨v.guestCid, hostPort, guestPort⟩
    ∀ s : Session, Relation.ReflTransGen (Session.Step x bufAlloc)
        { device := v.attachHostStream
            (HostStream.enqueueAll { base with hostPort, output } early) } s →
      s.consumed ≤ x.queued s.device.delivered s.device.pending ∧
        x.queued s.device.delivered s.device.pending - s.consumed ≤ bufAlloc.toNat := by
  intro v x s hrun
  have hcredited := credited_attach (idle_of_lives guestCid lives) hnone hinit hostPort output early
    bufAlloc
  have hend := Session.Honest.run ⟨hcredited, le_rfl, Nat.zero_le _⟩ hrun
  have hle := hend.outstanding_le
  exact ⟨hend.consumed_le.trans (Nat.le_add_right _ _), by omega⟩

def offering : Vsock :=
  (Vsock.init 3).attachHostStream (HostStream.enqueueAll
    { guestPort := 10, request := [7, 8], outbound := HostStream.emptyRing } [.frame [9]])

def roomyDelivery : Part := .deliver ⟨0, [{ data := replicate 64 0, writable := true }]⟩ true

/-- The guest accepts the connection, takes the request, and consumes a byte of it; the frame still
waits in the pending array. -/
def consumingSession : Session where
  device := offering.play [roomyDelivery, .handleChain (fun _ => []) acceptPacket, roomyDelivery]
  consumed := 1

lemma consumingSession_reached : Relation.ReflTransGen (Session.Step ⟨3, 49152, 10⟩ 4096)
    { device := offering } consumingSession := by
  have haccept : (offering.part roomyDelivery).told (.handleChain (fun _ => []) acceptPacket) =
      parseTxHeader acceptPacket := by
    decide +kernel
  have hheader : (parseTxHeader acceptPacket).map (fun h => (h.bufAlloc, h.fwdCnt)) =
      some (4096, 0) := by
    decide +kernel
  obtain ⟨header, hparse, hcredit⟩ := Option.map_eq_some_iff.mp hheader
  simp only [Prod.mk.injEq] at hcredit
  refine .tail (.tail (.tail (.tail .refl (.quiet _ roomyDelivery rfl))
    (.packet _ _ header 0 (haccept.trans hparse) hcredit.1 hcredit.2 le_rfl le_rfl))
    (.quiet _ roomyDelivery rfl)) (.consume _ 1 ?_)
  decide +kernel

theorem outstanding_le_credit_consuming :
    Address.queued ⟨3, 49152, 10⟩ consumingSession.device.delivered
        consumingSession.device.pending = 3 ∧
      Address.queued ⟨3, 49152, 10⟩ consumingSession.device.delivered
        consumingSession.device.pending - 1 ≤ 4096 := by
  refine ⟨by decide +kernel, ?_⟩
  exact (@outstanding_le_credit 3 [] rfl 10 [7, 8] _ rfl 49152 {} [.frame [9]] 4096
    consumingSession consumingSession_reached).2

end SporeVM.Virtio
