import SporeVM.Lib.EState
import SporeVM.Netd.Policy

/-!
# What a policy can allow

An address is allowed by the policy itself or because it was learned. It is learned only from a
response to a query for a host of the policy, and only from an address record that belongs to the
name of the query: the owner of the record is that name, or is reached from it through the records
before that give other names for it.
-/

namespace SporeVM.Netd

open Lib
open List hiding not_lt

-- ══ Names and records of a response

def answerStart (response : Bytes) (first : ℕ) : ℕ → Option ℕ
  | 0 => some first
  | k + 1 => (answerStart response first k).bind fun start =>
      (readAnswer response start).map (·.dataEnd)

structure RecordAt (response : Bytes) (first k type : ℕ) (owner : Bytes) (answer : Answer) :
    Prop where
  read : ∃ start, answerStart response first k = some start ∧
    readAnswer response start = some answer ∧ decodeDnsName response start = some owner
  type : answer.type = type
  cls : answer.cls = dnsClassIn

inductive ReachedBy (response : Bytes) (first : ℕ) (name : Bytes) : ℕ → Bytes → Prop
  | query (k : ℕ) : ReachedBy response first name k name
  | cname {j k : ℕ} {owner target : Bytes} {answer : Answer} (hlt : j < k)
      (howner : ReachedBy response first name j owner)
      (hrecord : RecordAt response first j dnsTypeCname owner answer)
      (htarget : decodeDnsName response answer.dataStart = some target) :
      ReachedBy response first name k target

lemma ReachedBy.mono {response : Bytes} {first : ℕ} {name other : Bytes} {k k' : ℕ}
    (h : ReachedBy response first name k other) (hle : k ≤ k') :
    ReachedBy response first name k' other := by
  cases h with
  | query => exact .query k'
  | cname hlt howner hrecord htarget => exact .cname (hlt.trans_le hle) howner hrecord htarget

def Resolves (name response : Bytes) (addr : Ipv4) : Prop :=
  ∃ offset k owner answer, skipDnsName response dnsHeaderLen = some offset ∧
    k < be16 response 6 ∧ RecordAt response (offset + 4) k dnsTypeA owner answer ∧
    ReachedBy response (offset + 4) name k owner ∧
    answer.dataEnd = answer.dataStart + 4 ∧ answer.addr response = addr

structure AnswersFor (host query response : Bytes) (addr : Ipv4) : Prop where
  address : Runtime.isAddressQuery query = true
  id : query.take 2 = response.take 2
  name : decodeDnsName query dnsHeaderLen = some (host.map toLower)
  resolves : Resolves (host.map toLower) response addr

-- ══ The loop over the records

namespace Runtime

variable {response name : Bytes} {first count : ℕ} {legacy : Option ℕ} {exact : List ℕ}
  {P : Runtime → Prop}

lemma noteAnswers_keeps
    (hlearn : ∀ k owner answer acc, k < count → RecordAt response first k dnsTypeA owner answer →
      ReachedBy response first name k owner → answer.dataEnd = answer.dataStart + 4 → P acc.1 →
      P (learn legacy exact (answer.addr response) acc).1)
    (left k offset : ℕ) (accepted : List Bytes) (acc : Runtime × ℕ) (hcount : k + left = count)
    (hstart : answerStart response first k = some offset)
    (hreached : ∀ other ∈ accepted, ReachedBy response first name k other) (hacc : P acc.1) :
    P (noteAnswers response legacy exact left offset accepted acc).1 := by
  induction left generalizing k offset accepted acc with
  | zero => exact hacc
  | succ left ih =>
    rw [noteAnswers]
    split
    · exact hacc
    · next answer hread =>
      have hnext : answerStart response first (k + 1) = some answer.dataEnd := by
        simp [answerStart, hstart, hread]
      have hlater : ∀ other ∈ accepted, ReachedBy response first name (k + 1) other :=
        fun other hother => (hreached other hother).mono (Nat.le_succ k)
      split
      · next hkind =>
        split
        · exact hacc
        · next owner howner =>
          have hrecord : ∀ type, answer.type = type → RecordAt response first k type owner answer :=
            fun type htype => ⟨⟨offset, hstart, hread, howner⟩, htype, hkind.1⟩
          split
          · next haddr =>
            refine ih (k + 1) _ _ _ (by omega) hnext hlater ?_
            exact hlearn k owner answer acc (by omega) (hrecord _ haddr.1)
              (hreached owner haddr.2.2) haddr.2.1 hacc
          · split
            · next hcname =>
              split
              · exact hacc
              · split
                · exact hacc
                · next target htarget =>
                  refine ih (k + 1) _ _ _ (by omega) hnext ?_ hacc
                  intro other hother
                  split at hother
                  · exact hlater other hother
                  · rcases mem_append.mp hother with hother | hother
                    · exact hlater other hother
                    · rw [mem_singleton.mp hother]
                      exact .cname (Nat.lt_succ_self k) (hreached owner hcname.2.1)
                        (hrecord _ hcname.1) htarget
            · exact ih (k + 1) _ _ _ (by omega) hnext hlater hacc
      · exact ih (k + 1) _ _ _ (by omega) hnext hlater hacc

-- ══ Learned addresses

structure LearnedFrom (rt₀ : Runtime) (history : List (Bytes × Bytes)) (rt : Runtime) : Prop where
  rules : rt.unrestricted = rt₀.unrestricted ∧ rt.allowCidrs = rt₀.allowCidrs ∧
    rt.allowHosts = rt₀.allowHosts ∧ rt.exactRules = rt₀.exactRules
  hosts : ∀ learned ∈ rt.learnedHostIps, ∃ host ∈ rt₀.allowHosts, ∃ note ∈ history,
    AnswersFor host note.1 note.2 learned.2
  exacts : ∀ learned ∈ rt.learnedExactHostIps, ∃ rule, rt₀.exactRules[learned.1]? = some rule ∧
    ∃ note ∈ history, AnswersFor rule.host note.1 note.2 learned.2

lemma mem_recordLearned {learned : List (ℕ × Ipv4)} {index : ℕ} {addr : Ipv4} {entry : ℕ × Ipv4}
    (h : entry ∈ (recordLearned learned index addr).1) :
    entry ∈ learned ∨ entry = (index, addr) := by
  unfold recordLearned at h
  split at h
  · exact .inl h
  · exact (mem_append.mp h).imp_right mem_singleton.mp

variable {rt₀ : Runtime} {history : List (Bytes × Bytes)} {addr : Ipv4}

lemma LearnedFrom.learn {acc : Runtime × ℕ} (h : LearnedFrom rt₀ history acc.1)
    (hlegacy : ∀ i ∈ legacy, ∃ host ∈ rt₀.allowHosts, ∃ note ∈ history,
      AnswersFor host note.1 note.2 addr)
    (hexact : ∀ i ∈ exact, ∃ rule, rt₀.exactRules[i]? = some rule ∧ ∃ note ∈ history,
      AnswersFor rule.host note.1 note.2 addr) :
    LearnedFrom rt₀ history (Runtime.learn legacy exact addr acc).1 := by
  -- first the host, then the rules one after the other
  have hhost : ∀ legacy : Option ℕ, (∀ i ∈ legacy, ∃ host ∈ rt₀.allowHosts, ∃ note ∈ history,
      AnswersFor host note.1 note.2 addr) →
      LearnedFrom rt₀ history (Runtime.learn legacy [] addr acc).1 := by
    rintro (_ | i) hi
    · exact h
    · refine ⟨h.rules, fun entry hentry => ?_, h.exacts⟩
      rcases mem_recordLearned hentry with hentry | rfl
      · exact h.hosts entry hentry
      · exact hi i rfl
  have hrules : ∀ (exact : List ℕ) (acc : Runtime × ℕ), LearnedFrom rt₀ history acc.1 →
      (∀ i ∈ exact, ∃ rule, rt₀.exactRules[i]? = some rule ∧ ∃ note ∈ history,
        AnswersFor rule.host note.1 note.2 addr) →
      LearnedFrom rt₀ history (Runtime.learn none exact addr acc).1 := by
    intro exact
    induction exact with
    | nil => exact fun acc hacc _ => hacc
    | cons i rest ih =>
      intro acc hacc hi
      refine ih _ ⟨hacc.rules, hacc.hosts, fun entry hentry => ?_⟩
        fun j hj => hi j (mem_cons_of_mem i hj)
      rcases mem_recordLearned hentry with hentry | rfl
      · exact hacc.exacts entry hentry
      · exact hi i mem_cons_self
  exact hrules exact _ (hhost legacy hlegacy) hexact

lemma decodeDnsName_of_matches {query host : Bytes} (hhost : validateHost host = .ok ())
    (h : dnsNameMatchesHost query dnsHeaderLen host = true) :
    decodeDnsName query dnsHeaderLen = some (host.map toLower) := by
  obtain ⟨jumps, labels, hjumps, hdec, htext⟩ := (dnsNameMatchesHost_iff _ _ _).mp h
  refine (decodeDnsName_iff _ _).mpr ⟨jumps, labels, hjumps, hdec, htext.symm, ?_⟩
  rw [length_map]
  unfold validateHost at hhost
  split at hhost
  · cases hhost
  · next hlen => exact not_lt.mp fun hlong => hlen (.inr hlong)

def ValidHosts (rt : Runtime) : Prop :=
  (∀ host ∈ rt.allowHosts, validateHost host = .ok ()) ∧
    ∀ rule ∈ rt.exactRules, validateHost rule.host = .ok ()

lemma LearnedFrom.note {rt : Runtime} (hvalid : rt₀.ValidHosts)
    (h : LearnedFrom rt₀ history rt) (query response : Bytes) :
    LearnedFrom rt₀ (history ++ [(query, response)]) (rt.noteDnsResponse query response).1 := by
  obtain ⟨-, -, hhosts, hrules⟩ := h.rules
  have hsame : LearnedFrom rt₀ (history ++ [(query, response)]) rt := by
    refine ⟨h.rules, fun entry hentry => ?_, fun entry hentry => ?_⟩
    · obtain ⟨host, hhost, note, hnote, hfor⟩ := h.hosts entry hentry
      exact ⟨host, hhost, note, mem_append_left _ hnote, hfor⟩
    · obtain ⟨rule, hrule, note, hnote, hfor⟩ := h.exacts entry hentry
      exact ⟨rule, hrule, note, mem_append_left _ hnote, hfor⟩
  simp only [noteDnsResponse]
  split_ifs with _ _ hid _ _ haddress hnone
  iterate 7 exact hsame
  split
  swap
  · exact hsame
  next offset name hskip hname =>
  split
  · exact hsame
  have hquery : ∀ other ∈ [name], ReachedBy response (offset + 4) name 0 other := by
    intro other hother
    rw [mem_singleton.mp hother]
    exact .query 0
  refine noteAnswers_keeps ?_ (be16 response 6) 0 (offset + 4) [name] (rt, 0) (Nat.zero_add _) rfl
    hquery hsame
  intro k owner answer acc hk hrecord hreached hlen hacc
  -- a host that the name of the query matches gets the address of the record
  have hfor : ∀ host, validateHost host = .ok () →
      dnsNameMatchesHost query dnsHeaderLen host = true →
      ∃ note ∈ history ++ [(query, response)],
        AnswersFor host note.1 note.2 (answer.addr response) := by
    intro host hhost hmatch
    have hdecode := decodeDnsName_of_matches hhost hmatch
    obtain rfl := Option.some.inj (hname.symm.trans hdecode)
    exact ⟨(query, response), mem_append_right _ mem_cons_self,
      by simpa using haddress, not_not.mp hid, hdecode,
      offset, k, owner, answer, hskip, hk, hrecord, hreached, hlen, rfl⟩
  refine hacc.learn ?_ ?_
  · intro i hi
    obtain ⟨hlt, hmatch, -⟩ := findIdx?_eq_some_iff_getElem.mp hi
    have hmem : rt.allowHosts[i] ∈ rt₀.allowHosts := hhosts ▸ getElem_mem hlt
    exact ⟨_, hmem, hfor _ (hvalid.1 _ hmem) hmatch⟩
  · intro i hi
    obtain ⟨-, hany⟩ := mem_filter.mp hi
    cases hrule : rt.exactRules[i]? with
    | none => simp [hrule] at hany
    | some rule =>
      rw [hrule] at hany
      rw [hrules] at hrule
      exact ⟨rule, hrule, hfor _ (hvalid.2 _ (mem_of_getElem? hrule)) hany⟩

lemma init_ok {config : Config} {rt : Runtime} (h : init config = .ok rt) :
    rt.ValidHosts ∧ LearnedFrom rt [] rt ∧
      (rt.unrestricted = true ↔ config.egress = .unrestricted) ∧
      rt.allowHosts = config.egress.rules.hosts ∧
      rt.exactRules = config.egress.rules.exactRules ∧
      ∀ cidr ∈ rt.allowCidrs, ∃ raw ∈ config.egress.rules.cidrs, parseCidr raw = .ok cidr := by
  obtain ⟨cidrs, hcidrs, h⟩ := Check.bind_ok.mp h
  obtain ⟨hhosts, h⟩ := Check.seq_ok.mp h
  obtain ⟨hrules, h⟩ := Check.seq_ok.mp h
  obtain ⟨-, h⟩ := Check.seq_ok.mp h
  obtain rfl := Except.ok.inj h
  refine ⟨⟨Check.forM_ok.mp hhosts, Check.forM_ok.mp hrules⟩,
    ⟨⟨rfl, rfl, rfl, rfl⟩, by simp, by simp⟩, by simp, rfl, rfl,
    fun cidr hcidr => Check.exists_of_mem_mapM hcidrs hcidr⟩

end Runtime

def noteAll (rt : Runtime) (history : List (Bytes × Bytes)) : Runtime :=
  history.foldl (fun rt note => (rt.noteDnsResponse note.1 note.2).1) rt

lemma learnedFrom_noteAll {rt : Runtime} (hvalid : rt.ValidHosts)
    (h : Runtime.LearnedFrom rt [] rt) (history : List (Bytes × Bytes)) :
    Runtime.LearnedFrom rt history (noteAll rt history) := by
  induction history using reverseRecOn with
  | nil => exact h
  | append_singleton history note ih =>
    rw [noteAll, foldl_append]
    exact ih.note hvalid note.1 note.2

/-- The reasons for which a connection is allowed: the policy is unrestricted, the address is in a
range of the policy, or a response taught it, as the address of a host of the policy or of a rule
with the port. -/
theorem allowed_by_policy_or_answer {config : Config} {rt : Runtime}
    (hinit : Runtime.init config = .ok rt) (history : List (Bytes × Bytes)) {addr : Ipv4}
    {port : ℕ} (hallow : (noteAll rt history).decideIpv4Port addr port = .allow) :
    isHardFloorBlocked addr = false ∧
    (config.egress = .unrestricted ∨
      (∃ raw ∈ config.egress.rules.cidrs, ∃ cidr, parseCidr raw = .ok cidr ∧
        cidr.contains addr = true) ∨
      ∃ note ∈ history,
        (∃ host ∈ config.egress.rules.hosts, AnswersFor host note.1 note.2 addr) ∨
        ∃ rule ∈ config.egress.rules.exactRules, port ∈ rule.ports ∧
          AnswersFor rule.host note.1 note.2 addr) := by
  obtain ⟨hvalid, hstart, hunrestricted, hhosts, hrules, hcidrs⟩ := Runtime.init_ok hinit
  have h := learnedFrom_noteAll hvalid hstart history
  obtain ⟨hfree', hcidrs', -, hrules'⟩ := h.rules
  simp only [Runtime.decideIpv4Port] at hallow
  split_ifs at hallow with hfloor hfree hcidr hlearned hexact
  all_goals refine ⟨by simpa using hfloor, ?_⟩
  · exact .inl (hunrestricted.mp (hfree' ▸ hfree))
  · obtain ⟨cidr, hmem, hcontains⟩ := any_eq_true.mp hcidr
    obtain ⟨raw, hraw, hparse⟩ := hcidrs cidr (hcidrs' ▸ hmem)
    exact .inr (.inl ⟨raw, hraw, cidr, hparse, hcontains⟩)
  · obtain ⟨entry, hmem, heq⟩ := any_eq_true.mp hlearned
    obtain ⟨host, hhost, note, hnote, hfor⟩ := h.hosts entry hmem
    rw [decide_eq_true_eq.mp heq] at hfor
    exact .inr (.inr ⟨note, hnote, .inl ⟨host, hhosts ▸ hhost, hfor⟩⟩)
  · obtain ⟨entry, hmem, heq⟩ := any_eq_true.mp hexact.2
    obtain ⟨haddr, rule, hrule, hport⟩ := decide_eq_true_eq.mp heq
    obtain ⟨rule', hrule', note, hnote, hfor⟩ := h.exacts entry hmem
    rw [hrules', Option.mem_def, hrule'] at hrule
    obtain rfl := Option.some.inj hrule
    rw [haddr] at hfor
    exact .inr (.inr ⟨note, hnote, .inr ⟨rule', hrules ▸ mem_of_getElem? hrule', hport, hfor⟩⟩)

def aliasHost : Bytes := [0x61, dot, 0x62]

def aliasQuestion : Bytes := [1, 0x61, 1, 0x62, 0, 0, 1, 0, 1]

def aliasQuery : Bytes := [0, 7, 1, 0, 0, 1, 0, 0, 0, 0, 0, 0] ++ aliasQuestion

/-- `a.b` is an alias of `c`, and `c` has the address 8.8.8.8. -/
def aliasResponse : Bytes :=
  [0, 7, 0x81, 0x80, 0, 1, 0, 2, 0, 0, 0, 0] ++ aliasQuestion ++
    [0xc0, 12, 0, 5, 0, 1, 0, 0, 0, 60, 0, 3, 1, 0x63, 0] ++
    [1, 0x63, 0, 0, 1, 0, 1, 0, 0, 0, 60, 0, 4, 8, 8, 8, 8]

lemma names_aliasQuery : decodeDnsName aliasQuery 12 = some aliasHost ∧
    skipDnsName aliasQuery 12 = some 17 ∧ dnsNameMatchesHost aliasQuery 12 aliasHost = true := by
  have hlen : (1 : UInt8) &&& 192 = 0 := rfl
  refine ⟨?_, ?_, ?_⟩
  · simp [decodeDnsName, walkName, aliasQuery, aliasQuestion, aliasHost, decodeLabel, toLower,
      maxDnsNameText, hlen]
  · simp [skipDnsName, walkName, aliasQuery, aliasQuestion, skipLabel, hlen]
  · simp [dnsNameMatchesHost, walkName, matchLabel, aliasQuery, aliasQuestion, aliasHost, hlen]
    decide

lemma names_aliasResponse :
    (decodeDnsName aliasResponse 21 = some aliasHost ∧
      decodeDnsName aliasResponse 33 = some [0x63] ∧
      decodeDnsName aliasResponse 36 = some [0x63]) ∧
    skipDnsName aliasResponse 12 = some 17 ∧ skipDnsName aliasResponse 21 = some 23 ∧
    skipDnsName aliasResponse 33 = some 36 ∧ skipDnsName aliasResponse 36 = some 39 := by
  have hlen : (1 : UInt8) &&& 192 = 0 := rfl
  constructor
  · simp [decodeDnsName, walkName, aliasResponse, aliasQuestion, aliasHost, decodeLabel, toLower,
      maxDnsNameText, DomainName.pointerTarget, maxJumps, hlen]
  · simp [skipDnsName, walkName, aliasResponse, aliasQuestion, skipLabel,
      DomainName.pointerTarget, maxJumps, hlen]

lemma readAnswer_aliasResponse :
    readAnswer aliasResponse 21 = some ⟨21, 5, 1, 33, 36⟩ ∧
      readAnswer aliasResponse 36 = some ⟨36, 1, 1, 49, 53⟩ := by
  obtain ⟨-, -, hfirst, -, hsecond⟩ := names_aliasResponse
  rw [readAnswer, readAnswer, hfirst, hsecond]
  decide +kernel

def aliasRuntime : Runtime := { unrestricted := false, allowHosts := [aliasHost] }

lemma noteDnsResponse_aliasResponse : (aliasRuntime.noteDnsResponse aliasQuery aliasResponse).1 =
    { aliasRuntime with learnedHostIps := [(0, ⟨8, 8, 8, 8⟩)] } := by
  obtain ⟨hname, hskip, hmatch⟩ := names_aliasQuery
  obtain ⟨⟨howner, htarget, hend⟩, hquestion, -, hdata, -⟩ := names_aliasResponse
  obtain ⟨hfirst, hsecond⟩ := readAnswer_aliasResponse
  have hquery : Runtime.isAddressQuery aliasQuery = true := by
    rw [Runtime.isAddressQuery, dnsHeaderLen, hskip]
    decide +kernel
  have hlegacy : aliasRuntime.allowedHostIndexForDnsName aliasQuery 12 = some 0 := by
    simp [Runtime.allowedHostIndexForDnsName, aliasRuntime, hmatch]
  simp only [Runtime.noteDnsResponse, dnsHeaderLen, hname, hquestion, hlegacy, hquery]
  iterate 7 rw [if_neg (by decide +kernel)]
  have hcount : be16 aliasResponse 6 = 2 := by decide +kernel
  simp only [hcount, Runtime.noteAnswers, hfirst, hsecond, howner, hend, hdata, htarget]
  decide +kernel

/-- The address is learned through an alias of the host that the policy has. -/
theorem allowed_by_policy_or_answer_alias :
    Runtime.init { egress := .allowlist { hosts := [aliasHost] } } = .ok aliasRuntime ∧
    (noteAll aliasRuntime [(aliasQuery, aliasResponse)]).decideIpv4Port ⟨8, 8, 8, 8⟩ 443 = .allow ∧
    AnswersFor aliasHost aliasQuery aliasResponse ⟨8, 8, 8, 8⟩ := by
  have hinit : Runtime.init { egress := .allowlist { hosts := [aliasHost] } } =
      .ok aliasRuntime := by
    rfl
  have hallow : (noteAll aliasRuntime [(aliasQuery, aliasResponse)]).decideIpv4Port
      ⟨8, 8, 8, 8⟩ 443 = .allow := by
    rw [noteAll, foldl_cons, foldl_nil, noteDnsResponse_aliasResponse]
    decide +kernel
  refine ⟨hinit, hallow, ?_⟩
  have hcause := (allowed_by_policy_or_answer hinit _ hallow).2
  simpa [Egress.rules] using hcause

end SporeVM.Netd
