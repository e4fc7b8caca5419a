import SporeVM.Netd.DnsNames

/-!
# The egress policy of the network helper

A policy is configured rule by rule and made into a *runtime*, which decides on connections of the
guest. Rules for hosts cannot decide on an address by themselves. The runtime learns the addresses
of such hosts from the answers to DNS queries that the guest made for them.
-/

namespace SporeVM.Netd

-- ══ Addresses

structure Ipv4 where
  a : UInt8
  b : UInt8
  c : UInt8
  d : UInt8
  deriving DecidableEq

def underscore : UInt8 := 0x5f

def slash : UInt8 := 0x2f

def parseUnsigned (bound : ℕ) (raw : Bytes) : Option ℕ :=
  if raw = [] ∨ raw.head? = some underscore ∨ raw.getLast? = some underscore then none
  else
    (raw.filter (· ≠ underscore)).foldlM (fun value c =>
      let next := value * 10 + (c.toNat - 0x30)
      if 0x30 ≤ c ∧ c ≤ 0x39 ∧ next < bound then some next else none) 0

def parseIpv4 (raw : Bytes) : Option Ipv4 :=
  match (raw.splitOn dot).map (parseUnsigned 256) with
  | [some a, some b, some c, some d] => some ⟨.ofNat a, .ofNat b, .ofNat c, .ofNat d⟩
  | _ => none

structure Cidr where
  network : Ipv4
  prefixLen : ℕ
  deriving DecidableEq

def parseCidr (raw : Bytes) : Except ParseError Cidr :=
  match raw.splitOn slash with
  | [addr, len] =>
    match parseIpv4 addr, parseUnsigned 256 len with
    | some network, some prefixLen =>
      if 32 < prefixLen then .error .invalidCidr else .ok { network, prefixLen }
    | _, _ => .error .invalidCidr
  | _ => .error .invalidCidr

def ipv4ToU32 (addr : Ipv4) : UInt32 :=
  addr.a.toUInt32 <<< 24 ||| addr.b.toUInt32 <<< 16 ||| addr.c.toUInt32 <<< 8 ||| addr.d.toUInt32

def prefixMask (prefixLen : ℕ) : UInt32 :=
  if prefixLen = 0 then 0 else 0xffffffff <<< UInt32.ofNat (32 - prefixLen)

def Cidr.contains (cidr : Cidr) (addr : Ipv4) : Bool :=
  ipv4ToU32 addr &&& prefixMask cidr.prefixLen ==
    ipv4ToU32 cidr.network &&& prefixMask cidr.prefixLen

def isHardFloorBlocked (addr : Ipv4) : Bool :=
  addr.a = 0 ∨ addr.a = 10 ∨ addr.a = 127 ∨ (addr.a = 169 ∧ addr.b = 254) ∨
    (addr.a = 172 ∧ addr.b &&& 0xf0 = 16) ∨ (addr.a = 192 ∧ addr.b = 168) ∨
    (addr.a = 100 ∧ addr.b &&& 0xc0 = 64) ∨ (addr.a = 192 ∧ addr.b = 0 ∧ addr.c = 0) ∨
    (addr.a = 198 ∧ (addr.b = 18 ∨ addr.b = 19)) ∨ 224 ≤ addr.a

-- ══ Configurations

structure ExactRule where
  host : Bytes
  ports : List ℕ := []
  deriving DecidableEq

structure BoundService where
  name : Bytes
  guestHost : Bytes
  guestPort : ℕ
  unixPath : Bytes
  deriving DecidableEq

structure PortForwardConfig where
  hostPort : ℕ
  guestPort : ℕ
  deriving DecidableEq

structure Allowlist where
  cidrs : List Bytes := []
  hosts : List Bytes := []
  exactRules : List ExactRule := []
  deriving DecidableEq

inductive Egress
  | unrestricted
  | allowlist (list : Allowlist)
  deriving DecidableEq

def Egress.rules : Egress → Allowlist
  | .unrestricted => {}
  | .allowlist list => list

structure Config where
  egress : Egress
  boundServices : List BoundService := []
  portForwards : List PortForwardConfig := []
  deriving DecidableEq

def isLowerOrDigit (c : UInt8) : Bool := (0x61 ≤ c ∧ c ≤ 0x7a) ∨ (0x30 ≤ c ∧ c ≤ 0x39)

def validateBoundServiceName (raw : Bytes) : Except ParseError Unit :=
  if raw.length = 0 ∨ 63 < raw.length ∨ raw.head? = some dash ∨ raw.getLast? = some dash ∨
      raw.any (fun c => ¬(isLowerOrDigit c ∨ c = dash)) then .error .invalidBoundServiceName
  else .ok ()

def validateServiceName (raw : Bytes) : Except ParseError Unit :=
  (validateBoundServiceName raw).mapError fun _ => .invalidBoundService

-- ══ Runtimes

/-- A policy as it decides, with the addresses that were learned for its hosts and for its exact
rules, by the position of the host and of the rule. -/
structure Runtime where
  unrestricted : Bool
  allowCidrs : List Cidr := []
  allowHosts : List Bytes := []
  exactRules : List ExactRule := []
  boundServices : List BoundService := []
  learnedHostIps : List (ℕ × Ipv4) := []
  learnedExactHostIps : List (ℕ × Ipv4) := []
  deriving DecidableEq

inductive Decision
  | allow
  | denyHardFloor
  | denyNotAllowed
  deriving DecidableEq

inductive DnsForwardDecision
  | forward
  | noData
  | refuse
  deriving DecidableEq

namespace Runtime

def init (config : Config) : Except ParseError Runtime := do
  let list := config.egress.rules
  let allowCidrs ← list.cidrs.mapM parseCidr
  list.hosts.forM validateHost
  list.exactRules.forM (validateHost ·.host)
  config.boundServices.forM fun service => do
    validateServiceName service.name
    validateHost service.guestHost
  pure
    { unrestricted := config.egress = .unrestricted
      allowCidrs
      allowHosts := list.hosts
      exactRules := list.exactRules
      boundServices := config.boundServices }

def decideIpv4Port (rt : Runtime) (addr : Ipv4) (port : ℕ) : Decision :=
  if isHardFloorBlocked addr then .denyHardFloor
  else if rt.unrestricted then .allow
  else if rt.allowCidrs.any (·.contains addr) then .allow
  else if rt.learnedHostIps.any (·.2 = addr) then .allow
  else if port ≠ 0 ∧ rt.learnedExactHostIps.any (fun learned => learned.2 = addr ∧
      ∃ rule ∈ rt.exactRules[learned.1]?, port ∈ rule.ports) then .allow
  else .denyNotAllowed

def allowedHostIndexForDnsName (rt : Runtime) (packet : Bytes) (offset : ℕ) : Option ℕ :=
  rt.allowHosts.findIdx? (dnsNameMatchesHost packet offset ·)

def exactRuleIndicesForDnsName (rt : Runtime) (packet : Bytes) (offset : ℕ) : List ℕ :=
  (List.range rt.exactRules.length).filter fun i =>
    rt.exactRules[i]?.any (dnsNameMatchesHost packet offset ·.host)

def boundServiceForDnsQuery (rt : Runtime) (packet : Bytes) (nameOffset : ℕ) :
    Option BoundService :=
  rt.boundServices.find? (dnsNameMatchesHost packet nameOffset ·.guestHost)

def maxLearnedHostIps : ℕ := 64

/-- The table of learned addresses with one more entry, when it is new and there is room, and
whether it was entered. `recordLearnedHostIp` and `recordLearnedExactHostIp` are this for the two
tables. -/
def recordLearned (learned : List (ℕ × Ipv4)) (index : ℕ) (addr : Ipv4) : List (ℕ × Ipv4) × Bool :=
  if (index, addr) ∈ learned ∨ maxLearnedHostIps ≤ learned.length then (learned, false)
  else (learned ++ [(index, addr)], true)

def recordLearnedHostIp (rt : Runtime) (hostIndex : ℕ) (addr : Ipv4) : Runtime × Bool :=
  let (learned, entered) := recordLearned rt.learnedHostIps hostIndex addr
  ({ rt with learnedHostIps := learned }, entered)

def recordLearnedExactHostIp (rt : Runtime) (ruleIndex : ℕ) (addr : Ipv4) : Runtime × Bool :=
  let (learned, entered) := recordLearned rt.learnedExactHostIps ruleIndex addr
  ({ rt with learnedExactHostIps := learned }, entered)

end Runtime

-- ══ Answers to queries

def be16 (bytes : Bytes) (offset : ℕ) : ℕ :=
  (bytes.getD offset 0).toNat * 256 + (bytes.getD (offset + 1) 0).toNat

def dnsHeaderLen : ℕ := 12

def dnsTypeA : ℕ := 1

def dnsTypeCname : ℕ := 5

def dnsClassIn : ℕ := 1

def maxCnameChain : ℕ := 8

def isResponse (packet : Bytes) : Bool := be16 packet 2 &&& 0x8000 ≠ 0

structure Answer where
  start : ℕ
  type : ℕ
  cls : ℕ
  dataStart : ℕ
  dataEnd : ℕ
  deriving DecidableEq

def readAnswer (response : Bytes) (start : ℕ) : Option Answer :=
  (skipDnsName response start).bind fun nameEnd =>
    let dataEnd := nameEnd + 10 + be16 response (nameEnd + 8)
    if response.length < nameEnd + 10 ∨ response.length < dataEnd then none
    else some
      { start, type := be16 response nameEnd, cls := be16 response (nameEnd + 2)
        dataStart := nameEnd + 10, dataEnd }

def Answer.addr (response : Bytes) (answer : Answer) : Ipv4 :=
  ⟨response.getD answer.dataStart 0, response.getD (answer.dataStart + 1) 0,
    response.getD (answer.dataStart + 2) 0, response.getD (answer.dataStart + 3) 0⟩

namespace Runtime

/-- The address of an accepted record, for the host and for each exact rule that the query
matches. -/
def learn (legacy : Option ℕ) (exact : List ℕ) (addr : Ipv4) (acc : Runtime × ℕ) : Runtime × ℕ :=
  let acc :=
    match legacy with
    | none => acc
    | some hostIndex =>
      let (rt, entered) := acc.1.recordLearnedHostIp hostIndex addr
      (rt, acc.2 + entered.toNat)
  exact.foldl (fun acc ruleIndex =>
    let (rt, entered) := acc.1.recordLearnedExactHostIp ruleIndex addr
    (rt, acc.2 + entered.toNat)) acc

/-- The loop of `noteDnsResponse` over the answers that are left, with the names that are accepted
as owners so far. -/
def noteAnswers (response : Bytes) (legacy : Option ℕ) (exact : List ℕ) :
    ℕ → ℕ → List Bytes → Runtime × ℕ → Runtime × ℕ
  | 0, _, _, acc => acc
  | left + 1, offset, accepted, acc =>
    match readAnswer response offset with
    | none => acc
    | some answer =>
      if answer.cls = dnsClassIn ∧ (answer.type = dnsTypeA ∨ answer.type = dnsTypeCname) then
        match decodeDnsName response offset with
        | none => acc
        | some owner =>
          if answer.type = dnsTypeA ∧ answer.dataEnd = answer.dataStart + 4 ∧ owner ∈ accepted then
            noteAnswers response legacy exact left answer.dataEnd accepted
              (learn legacy exact (answer.addr response) acc)
          else if answer.type = dnsTypeCname ∧ owner ∈ accepted ∧
              accepted.length < 1 + maxCnameChain then
            -- the data must be exactly one name
            if skipDnsName response answer.dataStart ≠ some answer.dataEnd then acc
            else
              match decodeDnsName response answer.dataStart with
              | none => acc
              | some target =>
                noteAnswers response legacy exact left answer.dataEnd
                  (if target ∈ accepted then accepted else accepted ++ [target]) acc
          else noteAnswers response legacy exact left answer.dataEnd accepted acc
      else noteAnswers response legacy exact left answer.dataEnd accepted acc

def isAddressQuery (query : Bytes) : Bool :=
  dnsHeaderLen ≤ query.length ∧ be16 query 4 = 1 ∧
    (skipDnsName query dnsHeaderLen).any fun nameEnd =>
      nameEnd + 4 ≤ query.length ∧ be16 query nameEnd = dnsTypeA ∧
        be16 query (nameEnd + 2) = dnsClassIn

def noteDnsResponse (rt : Runtime) (query response : Bytes) : Runtime × ℕ :=
  if rt.allowHosts = [] ∧ rt.exactRules = [] then (rt, 0)
  else if query.length < dnsHeaderLen ∨ response.length < dnsHeaderLen then (rt, 0)
  else if query.take 2 ≠ response.take 2 then (rt, 0)
  else if isResponse response = false then (rt, 0)
  else if be16 response 4 ≠ 1 then (rt, 0)
  else if isAddressQuery query = false then (rt, 0)
  else
    let legacy := rt.allowedHostIndexForDnsName query dnsHeaderLen
    let exact := rt.exactRuleIndicesForDnsName query dnsHeaderLen
    if legacy = none ∧ exact = [] then (rt, 0)
    else
      match skipDnsName response dnsHeaderLen, decodeDnsName query dnsHeaderLen with
      | some offset, some name =>
        if response.length < offset + 4 then (rt, 0)
        else noteAnswers response legacy exact (be16 response 6) (offset + 4) [name] (rt, 0)
      | _, _ => (rt, 0)

def dnsForwardDecision (rt : Runtime) (packet : Bytes) (nameOffset qtype qclass : ℕ) :
    DnsForwardDecision :=
  if rt.unrestricted then .forward
  else if rt.allowedHostIndexForDnsName packet nameOffset = none ∧
      rt.exactRuleIndicesForDnsName packet nameOffset = [] then .refuse
  else if qtype = dnsTypeA ∧ qclass = dnsClassIn then .forward
  else .noData

end Runtime

end SporeVM.Netd
