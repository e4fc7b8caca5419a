import SporeVM.Netd.Policy

/-!
# The DNS proxy

The network helper answers some DNS queries of the guest itself and forwards the rest. A forwarded
query has a slot with a socket of its own until an answer comes in on that socket or the time for
it is over. Whatever comes in first ends the slot: a response with the id of the query goes to the
guest, and anything else becomes a failure.
-/

namespace SporeVM.Netd

open Function (update update_self update_of_ne)
open List hiding not_lt

-- ══ Frames

def maxFrameLen : ℕ := 1514

def ethernetHeaderLen : ℕ := 14

def ipv4HeaderMinLen : ℕ := 20

def udpHeaderLen : ℕ := 8

def maxDnsPayloadLen : ℕ := maxFrameLen - ethernetHeaderLen - ipv4HeaderMinLen - udpHeaderLen

def dnsPort : ℕ := 53

def etherTypeIpv4 : ℕ := 0x0800

def udpProtocol : UInt8 := 17

def gatewayMac : Bytes := [0x02, 0x53, 0x50, 0x4f, 0x52, 0x01]

def guestIpv4 : Bytes := [100, 96, 0, 2]

def gatewayIpv4 : Bytes := [100, 96, 0, 1]

def be16Bytes (value : ℕ) : Bytes := [UInt8.ofNat (value / 256), UInt8.ofNat value]

def sumWords : Bytes → ℕ
  | [] => 0
  | [last] => last.toNat * 256
  | high :: low :: rest => high.toNat * 256 + low.toNat + sumWords rest

/-- The carries of a sum are added until there is none. A sum has no more carries than its value. -/
def foldCarries : ℕ → ℕ → ℕ
  | 0, sum => sum
  | fuel + 1, sum => if sum / 65536 = 0 then sum else foldCarries fuel (sum % 65536 + sum / 65536)

def ipv4Checksum (header : Bytes) : ℕ := 0xffff - foldCarries (sumWords header) (sumWords header)

structure DnsUdpRequest where
  senderMac : Bytes := []
  senderIpv4 : Bytes := []
  senderPort : ℕ := 0
  payload : Bytes := []
  questionEnd : ℕ := 0
  deriving DecidableEq

def validateDnsQuery (packet : Bytes) : Option ℕ :=
  if packet.length < dnsHeaderLen ∨ isResponse packet ∨ be16 packet 4 ≠ 1 then none
  else
    (skipDnsName packet dnsHeaderLen).bind fun nameEnd =>
      if packet.length < nameEnd + 4 then none else some (nameEnd + 4)

def parseUdp (senderMac senderIpv4 udp : Bytes) : Option DnsUdpRequest :=
  let udpLen := be16 udp 4
  if be16 udp 2 ≠ dnsPort ∨ udpLen < udpHeaderLen ∨ udp.length < udpLen then none
  else
    let payload := (udp.take udpLen).drop udpHeaderLen
    (validateDnsQuery payload).map fun questionEnd =>
      { senderMac, senderIpv4, senderPort := be16 udp 0, payload, questionEnd }

def parseDnsUdpRequest (frame : Bytes) : Option DnsUdpRequest :=
  if frame.length < ethernetHeaderLen + ipv4HeaderMinLen + udpHeaderLen + dnsHeaderLen then none
  else if frame.take 6 ≠ gatewayMac ∨ be16 frame 12 ≠ etherTypeIpv4 then none
  else
    let ip := frame.drop ethernetHeaderLen
    let versionIhl := ip.getD 0 0
    let ipHeaderLen := (versionIhl &&& 0x0f).toNat * 4
    let totalLen := be16 ip 2
    if versionIhl >>> 4 ≠ 4 ∨ ipHeaderLen < ipv4HeaderMinLen ∨
        ip.length < ipHeaderLen + udpHeaderLen then none
    else if totalLen < ipHeaderLen + udpHeaderLen ∨ ip.length < totalLen then none
    else if ipv4Checksum (ip.take ipHeaderLen) ≠ 0 then none
    else if be16 ip 6 &&& 0x3fff ≠ 0 ∨ ip.getD 9 0 ≠ udpProtocol then none
    else if (ip.drop 12).take 4 ≠ guestIpv4 ∨ (ip.drop 16).take 4 ≠ gatewayIpv4 then none
    else
      parseUdp ((frame.drop 6).take 6) ((ip.drop 12).take 4)
        ((ip.take totalLen).drop ipHeaderLen)

def ipv4Front (totalLen checksum : ℕ) : Bytes :=
  [0x45, 0] ++ be16Bytes totalLen ++ [0, 0, 0, 0, 64, udpProtocol] ++ be16Bytes checksum ++
    gatewayIpv4

def buildDnsUdpFrame (request : DnsUdpRequest) (payload : Bytes) : Option Bytes :=
  let ipTotalLen := ipv4HeaderMinLen + udpHeaderLen + payload.length
  if maxFrameLen < ethernetHeaderLen + ipTotalLen then none
  else
    let checksum := ipv4Checksum (ipv4Front ipTotalLen 0 ++ request.senderIpv4)
    some (request.senderMac ++ (gatewayMac ++ be16Bytes etherTypeIpv4 ++
      ipv4Front ipTotalLen checksum) ++ request.senderIpv4 ++ be16Bytes dnsPort ++
      be16Bytes request.senderPort ++ (be16Bytes (udpHeaderLen + payload.length) ++ [0, 0]) ++
      payload)

-- ══ Payloads

def responseHeader (query : Bytes) (rcode answers : ℕ) : Bytes :=
  query.take 2 ++ be16Bytes (be16 query 2 &&& 0x0100 ||| 0x8080 ||| rcode &&& 0x000f) ++
    be16Bytes 1 ++ be16Bytes answers ++ [0, 0, 0, 0]

def buildDnsEmptyResponse (query : Bytes) (questionEnd rcode : ℕ) : Bytes :=
  responseHeader query rcode 0 ++
    (query.take (min questionEnd maxDnsPayloadLen)).drop dnsHeaderLen

def buildDnsServfail (query : Bytes) (questionEnd : ℕ) : Bytes :=
  buildDnsEmptyResponse query questionEnd 2

def buildDnsRefused (query : Bytes) (questionEnd : ℕ) : Bytes :=
  buildDnsEmptyResponse query questionEnd 5

def buildDnsNoData (query : Bytes) (questionEnd : ℕ) : Bytes :=
  buildDnsEmptyResponse query questionEnd 0

def buildBoundServiceDnsResponse (query : Bytes) (questionEnd : ℕ) : Bytes :=
  if maxDnsPayloadLen < questionEnd + 16 then buildDnsServfail query questionEnd
  else
    responseHeader query 0 1 ++ (query.take questionEnd).drop dnsHeaderLen ++
      [0xc0, UInt8.ofNat dnsHeaderLen] ++ be16Bytes 1 ++ be16Bytes 1 ++ [0, 0, 0, 60] ++
      be16Bytes 4 ++ gatewayIpv4

def validDnsResponse (query response : Bytes) : Bool :=
  dnsHeaderLen ≤ query.length ∧ dnsHeaderLen ≤ response.length ∧
    query.take 2 = response.take 2 ∧ isResponse response

-- ══ The proxy

def maxPendingDns : ℕ := 64

def dnsForwardTimeoutMs : ℕ := 1000

structure PendingDns where
  fd : ℤ := -1
  request : DnsUdpRequest := {}
  deadline : ℕ := 0
  pollIndex : Option ℕ := none
  serial : ℕ := 0
  deriving DecidableEq

def PendingDns.close (pending : PendingDns) : PendingDns :=
  { pending with fd := -1, pollIndex := none }

def PendingDns.setIndex (pending : PendingDns) (index : Option ℕ) : PendingDns :=
  { pending with pollIndex := index }

lemma PendingDns.not_open_close (pending : PendingDns) : ¬0 ≤ pending.close.fd :=
  show ¬(0 : ℤ) ≤ -1 by decide

structure DnsPollFd where
  fd : ℤ
  revents : ℕ

/-- What the host has for a socket: nothing yet, or what it received, which is empty when receiving
failed. No more is received than a payload can have. -/
inductive Received
  | again
  | bytes (response : Bytes) (fits : response.length ≤ maxDnsPayloadLen)

/-- The proxy with its slots and the policy, and what the guest has sent and received: the frames
whose queries were forwarded, the replies to them with the number of the query, and the frames that
were answered right away with their replies. -/
structure DnsProxy where
  pending : Fin maxPendingDns → PendingDns := fun _ => {}
  policy : Runtime
  forwarded : List Bytes := []
  replies : List (ℕ × Bytes) := []
  answered : List (Bytes × Bytes) := []

namespace DnsProxy

def localPayload (policy : Runtime) (request : DnsUdpRequest) : Option Bytes :=
  let qtype := be16 request.payload (request.questionEnd - 4)
  let qclass := be16 request.payload (request.questionEnd - 2)
  if (policy.boundServiceForDnsQuery request.payload dnsHeaderLen).isSome then
    if qtype = dnsTypeA ∧ qclass = dnsClassIn then
      some (buildBoundServiceDnsResponse request.payload request.questionEnd)
    else some (buildDnsNoData request.payload request.questionEnd)
  else
    match policy.dnsForwardDecision request.payload dnsHeaderLen qtype qclass with
    | .forward => none
    | .noData => some (buildDnsNoData request.payload request.questionEnd)
    | .refuse => some (buildDnsRefused request.payload request.questionEnd)

def answer (proxy : DnsProxy) (frame : Bytes) (request : DnsUdpRequest) (payload : Bytes) :
    DnsProxy :=
  match buildDnsUdpFrame request payload with
  | none => proxy
  | some reply => { proxy with answered := proxy.answered ++ [(frame, reply)] }

/-- `startForward`. `opened` is the socket through which the query was sent, if that worked. Without
a free slot the query is dropped. -/
def startForward (proxy : DnsProxy) (frame : Bytes) (request : DnsUdpRequest) (now : ℕ)
    (opened : Option {fd : ℤ // 0 ≤ fd}) : DnsProxy :=
  match (finRange maxPendingDns).find? fun i => (proxy.pending i).fd < 0 with
  | none => proxy
  | some i =>
    match opened with
    | none => proxy.answer frame request (buildDnsServfail request.payload request.questionEnd)
    | some fd =>
      { proxy with
        pending := update proxy.pending i
          { fd, request, deadline := now + dnsForwardTimeoutMs, serial := proxy.forwarded.length }
        forwarded := proxy.forwarded ++ [frame] }

def hasQuestion (request : DnsUdpRequest) : Bool :=
  dnsHeaderLen + 4 ≤ request.questionEnd ∧ request.questionEnd ≤ request.payload.length

def receiveFrame (proxy : DnsProxy) (frame : Bytes) (now : ℕ)
    (opened : Option {fd : ℤ // 0 ≤ fd}) : DnsProxy :=
  match (parseDnsUdpRequest frame).filter hasQuestion with
  | none => proxy
  | some request =>
    match localPayload proxy.policy request with
    | some payload => proxy.answer frame request payload
    | none => proxy.startForward frame request now opened

def fillPollFds (room : ℕ) : List (Fin maxPendingDns) → ℕ →
    (Fin maxPendingDns → PendingDns) → Fin maxPendingDns → PendingDns
  | [], _, pending => pending
  | i :: rest, count, pending =>
    if (pending i).fd < 0 ∨ room ≤ count then
      fillPollFds room rest count (update pending i ((pending i).setIndex none))
    else
      fillPollFds room rest (count + 1)
        (update pending i ((pending i).setIndex (some count)))

end DnsProxy

def PendingDns.ready (fds : List DnsPollFd) (pending : PendingDns) : Bool :=
  pending.pollIndex.any fun index =>
    fds[index]?.any fun entry => entry.fd = pending.fd ∧ entry.revents ≠ 0

def PendingDns.resolve (fds : List DnsPollFd) (now : ℕ) (received : Received) (policy : Runtime)
    (pending : PendingDns) : PendingDns × Runtime × Option Bytes :=
  let request := pending.request
  let failure := buildDnsServfail request.payload request.questionEnd
  if pending.fd < 0 then (pending, policy, none)
  else if pending.ready fds then
    match received with
    | .again => (pending.setIndex none, policy, none)
    | .bytes response _ =>
      if validDnsResponse request.payload response then
        (pending.close, (policy.noteDnsResponse request.payload response).1, some response)
      else (pending.close, policy, some failure)
  else if pending.deadline ≤ now then (pending.close, policy, some failure)
  else (pending.setIndex none, policy, none)

def DnsProxy.nextReply (fds : List DnsPollFd) (now : ℕ) (received : Fin maxPendingDns → Received) :
    List (Fin maxPendingDns) → DnsProxy → DnsProxy
  | [], proxy => proxy
  | i :: rest, proxy =>
    let pending := proxy.pending i
    let (slot, policy, payload) := pending.resolve fds now (received i) proxy.policy
    let next := { proxy with pending := update proxy.pending i slot, policy }
    match payload.bind (buildDnsUdpFrame pending.request) with
    | none => nextReply fds now received rest next
    | some frame => { next with replies := next.replies ++ [(pending.serial, frame)] }

inductive DnsProxy.Step : DnsProxy → DnsProxy → Prop
  | receiveFrame (proxy : DnsProxy) (frame : Bytes) (now : ℕ)
      (opened : Option {fd : ℤ // 0 ≤ fd}) : Step proxy (proxy.receiveFrame frame now opened)
  | poll (proxy : DnsProxy) (room : ℕ) : Step proxy { proxy with
      pending := fillPollFds room (finRange maxPendingDns) 0 proxy.pending }
  | nextReply (proxy : DnsProxy) (fds : List DnsPollFd) (now : ℕ)
      (received : Fin maxPendingDns → Received) :
      Step proxy (nextReply fds now received (finRange maxPendingDns) proxy)

-- ══ Replies

structure ReplyTo (request : DnsUdpRequest) (reply : Bytes) : Prop where
  mac : reply.take 6 = request.senderMac
  ip : (reply.drop 30).take 4 = request.senderIpv4
  port : be16 reply 36 = request.senderPort
  id : (reply.drop 42).take 2 = request.payload.take 2

structure DnsUdpRequest.Shape (request : DnsUdpRequest) : Prop where
  mac : request.senderMac.length = 6
  ip : request.senderIpv4.length = 4
  port : request.senderPort < 65536
  payload : dnsHeaderLen ≤ request.payload.length

variable {request : DnsUdpRequest} {payload : Bytes}

lemma be16_lt (bytes : Bytes) (offset : ℕ) : be16 bytes offset < 65536 := by
  have h := (bytes.getD offset 0).toNat_lt
  have h' := (bytes.getD (offset + 1) 0).toNat_lt
  unfold be16
  omega

lemma parseUdp_shape {mac ip udp : Bytes} (hmac : mac.length = 6) (hip : ip.length = 4)
    (h : parseUdp mac ip udp = some request) : request.Shape := by
  simp only [parseUdp] at h
  split at h
  · cases h
  · obtain ⟨questionEnd, hquery, rfl⟩ := Option.map_eq_some_iff.mp h
    refine ⟨hmac, hip, be16_lt _ _, ?_⟩
    unfold validateDnsQuery at hquery
    split at hquery
    · cases hquery
    · next hvalid => exact not_lt.mp fun hshort => hvalid (.inl hshort)

lemma parseDnsUdpRequest_shape {frame : Bytes} (h : parseDnsUdpRequest frame = some request) :
    request.Shape := by
  simp only [parseDnsUdpRequest] at h
  split_ifs at h with hlen _ _ _ _ _ haddr
  simp only [ethernetHeaderLen, ipv4HeaderMinLen, udpHeaderLen, dnsHeaderLen] at hlen
  refine parseUdp_shape ?_ ?_ h
  · simp only [length_take, length_drop]
    omega
  · rw [not_not.mp (not_or.mp haddr).1]
    rfl

lemma be16_append {front back : Bytes} {n : ℕ} (h : front.length = n) :
    be16 (front ++ back) n = be16 back 0 := by
  subst h
  simp [be16, getD_eq_getElem?_getD, List.getElem?_append_right]

lemma be16_be16Bytes {value : ℕ} (h : value < 65536) (rest : Bytes) :
    be16 (be16Bytes value ++ rest) 0 = value := by
  simp only [be16, be16Bytes, cons_append, getD_cons_zero, getD_cons_succ,
    nil_append, UInt8.toNat_ofNat']
  omega

lemma buildDnsUdpFrame_parts {reply : Bytes} (h : buildDnsUdpFrame request payload = some reply) :
    ∃ front back : Bytes, front.length = 24 ∧ back.length = 4 ∧
      reply = request.senderMac ++ front ++ request.senderIpv4 ++ be16Bytes dnsPort ++
        be16Bytes request.senderPort ++ back ++ payload := by
  simp only [buildDnsUdpFrame] at h
  split at h
  · cases h
  · exact ⟨_, _, rfl, rfl, (Option.some.inj h).symm⟩

lemma replyTo_of_build (hshape : request.Shape) {reply : Bytes}
    (hid : payload.take 2 = request.payload.take 2)
    (h : buildDnsUdpFrame request payload = some reply) :
    ReplyTo request reply ∧ reply.drop 42 = payload := by
  obtain ⟨front, back, hfront, hback, rfl⟩ := buildDnsUdpFrame_parts h
  have hmac := hshape.mac
  have hip := hshape.ip
  have hport : (request.senderMac ++ front ++ request.senderIpv4 ++ be16Bytes dnsPort).length =
      36 := by
    simp only [length_append, hmac, hfront, hip]
    rfl
  have hpayload : (request.senderMac ++ front ++ request.senderIpv4 ++ be16Bytes dnsPort ++
      be16Bytes request.senderPort ++ back ++ payload).drop 42 = payload := by
    refine drop_left' ?_
    simp only [length_append] at hport ⊢
    rw [hport, hback]
    rfl
  refine ⟨⟨?_, ?_, ?_, by rw [hpayload, hid]⟩, hpayload⟩
  · simp only [append_assoc]
    exact take_left' hmac
  · simp only [append_assoc _ _ payload, append_assoc _ _ (_ ++ payload),
      append_assoc (request.senderMac ++ front)]
    rw [drop_left' (by rw [length_append, hmac, hfront]), append_assoc, take_left' hip]
  · simp only [append_assoc _ _ payload, append_assoc _ _ (_ ++ payload)]
    rw [be16_append hport]
    exact be16_be16Bytes hshape.port _

lemma take_responseHeader {query : Bytes} (h : dnsHeaderLen ≤ query.length) (rcode answers : ℕ)
    (rest : Bytes) : (responseHeader query rcode answers ++ rest).take 2 = query.take 2 := by
  have hlen : (query.take 2).length = 2 := by
    rw [length_take]
    simp only [dnsHeaderLen] at h
    omega
  simp only [responseHeader, append_assoc]
  exact take_left' hlen

lemma take_buildBoundService {query : Bytes} (h : dnsHeaderLen ≤ query.length)
    (questionEnd : ℕ) : (buildBoundServiceDnsResponse query questionEnd).take 2 = query.take 2 := by
  unfold buildBoundServiceDnsResponse
  split
  · exact take_responseHeader h _ _ _
  · simp only [append_assoc]
    exact take_responseHeader h _ _ _

lemma take_localPayload {policy : Runtime} (hshape : request.Shape)
    (h : DnsProxy.localPayload policy request = some payload) :
    payload.take 2 = request.payload.take 2 := by
  simp only [DnsProxy.localPayload] at h
  split at h
  · split at h <;> obtain rfl := Option.some.inj h
    · exact take_buildBoundService hshape.payload _
    · exact take_responseHeader hshape.payload _ _ _
  · split at h
    · cases h
    all_goals
      obtain rfl := Option.some.inj h
      exact take_responseHeader hshape.payload _ _ _

-- ══ Slots and the queries they hold

def Matched (request : DnsUdpRequest) (payload : Bytes) : Prop :=
  validDnsResponse request.payload payload = true ∨
    payload = buildDnsServfail request.payload request.questionEnd

def Served (guest reply : Bytes) (request : DnsUdpRequest) : Prop :=
  parseDnsUdpRequest guest = some request ∧ ReplyTo request reply

structure DnsProxy.Inv (proxy : DnsProxy) : Prop where
  held : ∀ i, 0 ≤ (proxy.pending i).fd → ∃ guest,
    proxy.forwarded[(proxy.pending i).serial]? = some guest ∧
      parseDnsUdpRequest guest = some (proxy.pending i).request
  apart : ∀ i j, 0 ≤ (proxy.pending i).fd → 0 ≤ (proxy.pending j).fd →
    (proxy.pending i).serial = (proxy.pending j).serial → i = j
  unanswered : ∀ i, 0 ≤ (proxy.pending i).fd →
    (proxy.pending i).serial ∉ proxy.replies.map Prod.fst
  once : (proxy.replies.map Prod.fst).Nodup
  replied : ∀ reply ∈ proxy.replies, ∃ guest request, proxy.forwarded[reply.1]? = some guest ∧
    Served guest reply.2 request ∧ Matched request (reply.2.drop 42)
  answered : ∀ reply ∈ proxy.answered, ∃ request, Served reply.1 reply.2 request

def SameQuery (slot slot' : PendingDns) : Prop :=
  0 ≤ slot'.fd → 0 ≤ slot.fd ∧ slot'.serial = slot.serial ∧ slot'.request = slot.request

namespace DnsProxy.Inv

variable {proxy : DnsProxy}

lemma setSlots (h : proxy.Inv) {pending : Fin maxPendingDns → PendingDns} (policy : Runtime)
    (hsame : ∀ i, SameQuery (proxy.pending i) (pending i)) :
    { proxy with pending, policy }.Inv where
  held i hfd := by
    obtain ⟨hold, hserial, hrequest⟩ := hsame i hfd
    simp only [hserial, hrequest]
    exact h.held i hold
  apart i j hfd hfd' heq := by
    obtain ⟨hold, hserial, -⟩ := hsame i hfd
    obtain ⟨hold', hserial', -⟩ := hsame j hfd'
    exact h.apart i j hold hold' (hserial.symm.trans (heq.trans hserial'))
  unanswered i hfd := by
    obtain ⟨hold, hserial, -⟩ := hsame i hfd
    simp only [hserial]
    exact h.unanswered i hold
  once := h.once
  replied := h.replied
  answered := h.answered

lemma sameQuery_update {slot : PendingDns} (i : Fin maxPendingDns)
    (hslot : SameQuery (proxy.pending i) slot) (j : Fin maxPendingDns) :
    SameQuery (proxy.pending j) (update proxy.pending i slot j) := by
  by_cases hj : j = i
  · subst hj
    rwa [update_self]
  · rw [update_of_ne hj]
    exact fun hfd => ⟨hfd, rfl, rfl⟩

lemma reply (h : proxy.Inv) {i : Fin maxPendingDns} (hfd : 0 ≤ (proxy.pending i).fd)
    {frame : Bytes} (hmatched : Matched (proxy.pending i).request payload)
    (hframe : buildDnsUdpFrame (proxy.pending i).request payload = some frame) (policy : Runtime) :
    { proxy with
      pending := update proxy.pending i (proxy.pending i).close
      policy
      replies := proxy.replies ++ [((proxy.pending i).serial, frame)] }.Inv := by
  obtain ⟨guest, hguest, hparse⟩ := h.held i hfd
  have hshape := parseDnsUdpRequest_shape hparse
  have hid : payload.take 2 = (proxy.pending i).request.payload.take 2 := by
    rcases hmatched with hvalid | rfl
    · simp only [validDnsResponse, decide_eq_true_eq] at hvalid
      exact hvalid.2.2.1.symm
    · exact take_responseHeader hshape.payload _ _ _
  obtain ⟨hreply, hdrop⟩ := replyTo_of_build hshape hid hframe
  have hclosed := (proxy.pending i).not_open_close
  have hinv := h.setSlots policy (sameQuery_update i fun hfd => absurd hfd hclosed)
  refine ⟨hinv.held, hinv.apart, ?_, ?_, ?_, h.answered⟩
  · intro j hfdj hmem
    simp only [map_append, map_cons, map_nil, mem_append, mem_singleton] at hmem
    rcases hmem with hmem | hserial
    · exact hinv.unanswered j hfdj hmem
    · -- another open slot holds another query
      by_cases hj : j = i
      · subst hj
        simp only [update_self] at hfdj
        exact hclosed hfdj
      · simp only [update_of_ne hj] at hfdj hserial
        exact hj (h.apart j i hfdj hfd hserial)
  · simp only [map_append, map_cons, map_nil]
    refine nodup_append.mpr ⟨h.once, nodup_singleton _, fun s hs t ht heq => ?_⟩
    rw [heq, mem_singleton.mp ht] at hs
    exact h.unanswered i hfd hs
  · intro r hr
    rcases mem_append.mp hr with hr | hr
    · exact h.replied r hr
    · obtain rfl := mem_singleton.mp hr
      exact ⟨guest, _, hguest, ⟨hparse, hreply⟩, by rwa [hdrop]⟩

lemma answer (h : proxy.Inv) {guest : Bytes} (hparse : parseDnsUdpRequest guest = some request)
    (hid : payload.take 2 = request.payload.take 2) : (proxy.answer guest request payload).Inv := by
  unfold DnsProxy.answer
  split
  · exact h
  · next frame hframe =>
    refine ⟨h.held, h.apart, h.unanswered, h.once, h.replied, fun r hr => ?_⟩
    rcases mem_append.mp hr with hr | hr
    · exact h.answered r hr
    · obtain rfl := mem_singleton.mp hr
      exact ⟨request, hparse, (replyTo_of_build (parseDnsUdpRequest_shape hparse) hid hframe).1⟩

lemma startForward (h : proxy.Inv) {guest : Bytes}
    (hparse : parseDnsUdpRequest guest = some request) (now : ℕ)
    (opened : Option {fd : ℤ // 0 ≤ fd}) : (proxy.startForward guest request now opened).Inv := by
  unfold DnsProxy.startForward
  split
  · exact h
  · next i _ =>
    split
    · exact h.answer hparse (take_responseHeader (parseDnsUdpRequest_shape hparse).payload _ _ _)
    · next fd =>
      -- the numbers of the queries forwarded before are below the new one
      have hbelow : ∀ {n frame}, proxy.forwarded[n]? = some frame →
          (proxy.forwarded ++ [guest])[n]? = some frame ∧ n ≠ proxy.forwarded.length := by
        intro n frame hn
        have hlt := (List.getElem?_eq_some_iff.mp hn).1
        exact ⟨by rw [List.getElem?_append_left hlt, hn], hlt.ne⟩
      refine ⟨?_, ?_, ?_, h.once, ?_, h.answered⟩
      · intro j hfd
        by_cases hj : j = i
        · subst hj
          simp only [update_self]
          exact ⟨guest, by simp, hparse⟩
        · simp only [update_of_ne hj] at hfd ⊢
          obtain ⟨old, hold, hparse'⟩ := h.held j hfd
          exact ⟨old, (hbelow hold).1, hparse'⟩
      · intro j k hfd hfd' heq
        by_cases hj : j = i <;> by_cases hk : k = i
        · rw [hj, hk]
        · subst hj
          simp only [update_self, update_of_ne hk] at hfd' heq
          obtain ⟨old, hold, -⟩ := h.held k hfd'
          exact absurd heq.symm (hbelow hold).2
        · subst hk
          simp only [update_self, update_of_ne hj] at hfd heq
          obtain ⟨old, hold, -⟩ := h.held j hfd
          exact absurd heq (hbelow hold).2
        · simp only [update_of_ne hj, update_of_ne hk] at hfd hfd' heq
          exact h.apart j k hfd hfd' heq
      · intro j hfd hmem
        by_cases hj : j = i
        · subst hj
          simp only [update_self] at hmem
          obtain ⟨r, hr, heq⟩ := mem_map.mp hmem
          obtain ⟨old, -, hold, -⟩ := h.replied r hr
          exact (hbelow hold).2 heq
        · simp only [update_of_ne hj] at hfd hmem
          exact h.unanswered j hfd hmem
      · intro r hr
        obtain ⟨old, oldRequest, hold, hserved⟩ := h.replied r hr
        exact ⟨old, oldRequest, (hbelow hold).1, hserved⟩

lemma receiveFrame (h : proxy.Inv) (frame : Bytes) (now : ℕ)
    (opened : Option {fd : ℤ // 0 ≤ fd}) : (proxy.receiveFrame frame now opened).Inv := by
  unfold DnsProxy.receiveFrame
  split
  · exact h
  · next request hrequest =>
    have hparse := (Option.filter_eq_some_iff.mp hrequest).1
    split
    · next hlocal =>
      exact h.answer hparse (take_localPayload (parseDnsUdpRequest_shape hparse) hlocal)
    · exact h.startForward hparse now opened

lemma fillPollFds (room : ℕ) (todo : List (Fin maxPendingDns)) (count : ℕ)
    (pending : Fin maxPendingDns → PendingDns) (i : Fin maxPendingDns) :
    SameQuery (pending i) (DnsProxy.fillPollFds room todo count pending i) := by
  induction todo generalizing count pending with
  | nil => exact fun hfd => ⟨hfd, rfl, rfl⟩
  | cons next rest ih =>
    have hvisit : ∀ count index, SameQuery (pending i) (DnsProxy.fillPollFds room rest count
        (update pending next ((pending next).setIndex index)) i) := by
      intro count index hfd
      obtain ⟨hfd', hserial, hrequest⟩ := ih _ _ hfd
      by_cases hi : i = next
      · subst hi
        simp only [update_self] at hfd' hserial hrequest
        exact ⟨hfd', hserial, hrequest⟩
      · simp only [update_of_ne hi] at hfd' hserial hrequest
        exact ⟨hfd', hserial, hrequest⟩
    rw [DnsProxy.fillPollFds]
    split
    · exact hvisit _ _
    · exact hvisit _ _

end DnsProxy.Inv

lemma PendingDns.resolve_cases (fds : List DnsPollFd) (now : ℕ) (received : Received)
    (policy : Runtime) (pending : PendingDns) :
    (SameQuery pending (pending.resolve fds now received policy).1 ∧
      (pending.resolve fds now received policy).2.2 = none) ∨
    (0 ≤ pending.fd ∧ (pending.resolve fds now received policy).1 = pending.close ∧
      ∃ payload, (pending.resolve fds now received policy).2.2 = some payload ∧
        Matched pending.request payload) := by
  have hsame : ∀ index, SameQuery pending (pending.setIndex index) := fun _ hfd => ⟨hfd, rfl, rfl⟩
  simp only [resolve]
  split
  · exact .inl ⟨fun hfd => ⟨hfd, rfl, rfl⟩, rfl⟩
  · next hopen =>
    have hfd := not_lt.mp hopen
    split
    · split
      · exact .inl ⟨hsame none, rfl⟩
      · split
        · next hvalid => exact .inr ⟨hfd, rfl, _, rfl, .inl hvalid⟩
        · exact .inr ⟨hfd, rfl, _, rfl, .inr rfl⟩
    · split
      · exact .inr ⟨hfd, rfl, _, rfl, .inr rfl⟩
      · exact .inl ⟨hsame none, rfl⟩

namespace DnsProxy.Inv

variable {proxy : DnsProxy}

lemma nextReply (h : proxy.Inv) (fds : List DnsPollFd) (now : ℕ)
    (received : Fin maxPendingDns → Received) (todo : List (Fin maxPendingDns)) :
    (DnsProxy.nextReply fds now received todo proxy).Inv := by
  induction todo generalizing proxy with
  | nil => exact h
  | cons i rest ih =>
    rw [DnsProxy.nextReply]
    rcases (proxy.pending i).resolve_cases fds now (received i) proxy.policy with
      ⟨hsame, hnone⟩ | ⟨hfd, hclosed, payload, hpayload, hmatched⟩
    · simp only [hnone, Option.bind_none]
      exact ih (h.setSlots _ (sameQuery_update i hsame))
    · simp only [hpayload, hclosed, Option.bind_some]
      split
      · exact ih (h.setSlots _
          (sameQuery_update i fun hneg => absurd hneg (PendingDns.not_open_close _)))
      · next frame hframe => exact h.reply hfd hmatched hframe _

lemma step {proxy' : DnsProxy} (h : proxy.Inv) (hstep : DnsProxy.Step proxy proxy') :
    proxy'.Inv := by
  cases hstep with
  | receiveFrame frame now opened => exact h.receiveFrame frame now opened
  | poll room => exact h.setSlots proxy.policy (fillPollFds room _ 0 proxy.pending)
  | nextReply fds now received => exact h.nextReply fds now received _

end DnsProxy.Inv

/-- The queries of the guest that are forwarded get at most one reply each. It goes to the sender
and the port of the query, has its id, and is a response that was received for it or the failure.
The replies to other queries go to their senders too. -/
theorem forwarded_queries_answered_once {policy : Runtime} {proxy : DnsProxy}
    (hrun : Relation.ReflTransGen DnsProxy.Step { policy } proxy) :
    (proxy.replies.map Prod.fst).Nodup ∧
    (∀ reply ∈ proxy.replies, ∃ guest request, proxy.forwarded[reply.1]? = some guest ∧
      parseDnsUdpRequest guest = some request ∧ ReplyTo request reply.2 ∧
      Matched request (reply.2.drop 42)) ∧
    ∀ reply ∈ proxy.answered, ∃ request, parseDnsUdpRequest reply.1 = some request ∧
      ReplyTo request reply.2 := by
  have h : proxy.Inv := by
    induction hrun with
    | refl =>
      have hclosed : ¬(0 : ℤ) ≤ -1 := by decide
      exact ⟨fun _ hfd => absurd hfd hclosed, fun _ _ hfd => absurd hfd hclosed,
        fun _ hfd => absurd hfd hclosed, nodup_nil, by simp, by simp⟩
    | tail _ hstep ih => exact ih.step hstep
  refine ⟨h.once, fun reply hreply => ?_, h.answered⟩
  obtain ⟨guest, request, hguest, ⟨hparse, hto⟩, hmatched⟩ := h.replied reply hreply
  exact ⟨guest, request, hguest, hparse, hto, hmatched⟩

def sampleQuery : Bytes := [0x12, 0x34, 0x01, 0, 0, 1, 0, 0, 0, 0, 0, 0, 0, 0, 1, 0, 1]

def sampleRequest : DnsUdpRequest :=
  { senderMac := [2, 0x53, 0x50, 0x4f, 0x52, 0x45], senderIpv4 := guestIpv4, senderPort := 40000
    payload := sampleQuery, questionEnd := 17 }

def sampleFrame : Bytes :=
  gatewayMac ++ sampleRequest.senderMac ++ [8, 0] ++
    [0x45, 0, 0, 45, 0, 0, 0, 0, 64, 17, 0xb1, 0xfd] ++ guestIpv4 ++ gatewayIpv4 ++
    [0x9c, 0x40, 0, 53, 0, 25, 0, 0] ++ sampleQuery

lemma parseDnsUdpRequest_sampleFrame : parseDnsUdpRequest sampleFrame = some sampleRequest := by
  have hskip : skipDnsName sampleQuery dnsHeaderLen = some 13 := by
    rw [skipDnsName, walkName]
    rfl
  have hquery : validateDnsQuery sampleQuery = some 17 := by
    rw [validateDnsQuery, hskip]
    decide +kernel
  have hudp : parseUdp sampleRequest.senderMac guestIpv4
      ([0x9c, 0x40, 0, 53, 0, 25, 0, 0] ++ sampleQuery) = some sampleRequest := by
    rw [parseUdp, if_neg (by decide +kernel)]
    exact congrArg (Option.map _) hquery
  simp only [parseDnsUdpRequest]
  iterate 7 rw [if_neg (by decide +kernel)]
  exact hudp

def sampleForwarded : DnsProxy :=
  { pending := update (fun _ => {}) ⟨0, by decide⟩
      { fd := 5, request := sampleRequest, deadline := 1000 }
    policy := { unrestricted := true }
    forwarded := [sampleFrame] }

lemma step_sampleForwarded :
    DnsProxy.Step { policy := { unrestricted := true } } sampleForwarded := by
  have hreceive : DnsProxy.receiveFrame { policy := { unrestricted := true } } sampleFrame 0
      (some ⟨5, by decide⟩) = sampleForwarded := by
    rw [DnsProxy.receiveFrame, parseDnsUdpRequest_sampleFrame]
    rfl
  rw [← hreceive]
  exact .receiveFrame _ _ _ _

/-- A query that is not answered in time gets the failure. -/
theorem forwarded_queries_answered_once_timeout :
    ∃ proxy : DnsProxy, proxy.replies.length = 1 ∧ ∀ reply ∈ proxy.replies,
      ∃ guest request, proxy.forwarded[reply.1]? = some guest ∧
        parseDnsUdpRequest guest = some request ∧ ReplyTo request reply.2 ∧
        Matched request (reply.2.drop 42) := by
  refine ⟨DnsProxy.nextReply [] 1000 (fun _ => .again) (finRange maxPendingDns)
    sampleForwarded, by decide +kernel, ?_⟩
  exact (forwarded_queries_answered_once
    ((Relation.ReflTransGen.single step_sampleForwarded).tail (.nextReply _ _ _ _))).2.1

end SporeVM.Netd
