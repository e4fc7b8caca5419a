import Mathlib.Data.List.ReduceOption
import SporeVM.Disk.ForkCodec

/-!
# The registry of forked disk heads

`runtime_disk_claim.zig` keeps the disk heads of a fork until its children claim them. A batch is
registered as a whole, with a random token for each head. A claim that names the token and all that
is bound to it takes the head out; heads leave also when they expire and when their batch is
cancelled. Entries are removed by putting the last one in their place.

What `validateOverlayFd` finds is a parameter. Allocations may fail, and so may the draws of random
tokens: the state lists what the coming ones give. The draws differ from each other.
-/

namespace SporeVM.ForkHeads

open Lib
open List hiding get modify not_le
open Lib.PathText (Text)
open Lib.EState (Triple Keeps Stays)
open RuntimeDiskFork (Descriptor bytesText)
open Check (rejectIf bind_ok)

abbrev Token := List UInt8

inductive ClaimError
  | badBatch | batchAlreadyRegistered | batchTooLarge | descriptorAggregateTooLarge | duplicateChild
  | badClaimRequest | unknownClaim | claimExpired | claimMismatch | outOfMemory | ioFailed
  | fork (e : StorageError)
  deriving DecidableEq

structure Head where
  descriptor : Descriptor
  overlayFd : ℤ
  deriving DecidableEq

structure ClaimRequest where
  type : Text
  schema : Text
  token : Text
  batch : Text
  child : Text
  childIndex : ℕ
  baselineKind : BaselineKind
  baselineIdentity : Bytes

structure PendingClaim where
  childName : Text
  childIndex : ℕ
  head : Option Head

structure Entry where
  token : Token
  batch : Text
  child : Text
  childIndex : ℕ
  expiresAtNs : ℕ
  head : Head
  deriving DecidableEq

structure Registry where
  entries : List Entry
  allocations : List Bool
  draws : List (Option Token)

abbrev RegistryM := EStateM ClaimError Registry

-- ══ Checks

def maxChildrenPerBatch : ℕ := 32
def maxChildNameBytes : ℕ := 128
def maxBatchNameBytes : ℕ := 128
def maxRenderedChildNameBytes : ℕ := 4096
def maxAggregateDescriptorBytes : ℕ := 64 * 1024 * 1024
def tokenBytes : ℕ := 32
def claimSchema : Text := "spore.disk-fork-claim.v1".toList
def claimType : Text := "disk-fork-claim".toList

def validBindingName (value : Text) (maxLen : ℕ) : Bool :=
  match value with
  | [] => false
  | first :: rest =>
    value.length ≤ maxLen && first.isAlphanum &&
      rest.all fun c => c.isAlphanum || c = '.' || c = '_' || c = '-'

def hexNibble (c : Char) : Option ℕ :=
  if '0' ≤ c ∧ c ≤ '9' then some (c.toNat - '0'.toNat)
  else if 'a' ≤ c ∧ c ≤ 'f' then some (c.toNat - 'a'.toNat + 10)
  else none

def parseHexBytes : Text → Option Token
  | [] => some []
  | [_] => none
  | high :: low :: rest => do
    let h ← hexNibble high
    let l ← hexNibble low
    let bytes ← parseHexBytes rest
    pure (UInt8.ofNat (h * 16 + l) :: bytes)

def parseTokenHex (hex : Text) : Except ClaimError Token :=
  if hex.length ≠ tokenBytes * 2 then .error .badClaimRequest
  else (parseHexBytes hex).elim (.error .badClaimRequest) .ok

def validateClaimRequest (request : ClaimRequest) : Except ClaimError Unit := do
  rejectIf (request.type ≠ claimType) .badClaimRequest
  rejectIf (request.schema ≠ claimSchema) .badClaimRequest
  let _ ← parseTokenHex request.token
  rejectIf (validBindingName request.batch maxBatchNameBytes = false ∨
    validBindingName request.child maxChildNameBytes = false) .badClaimRequest
  rejectIf (request.childIndex ≥ maxChildrenPerBatch) .badClaimRequest
  rejectIf (validateDiskDigest (bytesText request.baselineIdentity) ≠ .ok ())
    .badClaimRequest

structure Counted where
  nameBytes : ℕ
  descriptorBytes : ℕ
  earlier : List (Text × ℕ × Head)

def checkPending (validateOverlayFd : Head → Except StorageError Unit) (counted : Counted)
    (pending : PendingClaim) : Except ClaimError Counted :=
  match pending.head with
  | none => .error .badBatch
  | some head => do
    rejectIf (validBindingName pending.childName maxChildNameBytes = false) .badBatch
    rejectIf (pending.childIndex ≥ maxChildrenPerBatch) .badBatch
    let nameBytes := counted.nameBytes + pending.childName.length
    rejectIf (nameBytes > maxRenderedChildNameBytes) .batchTooLarge
    let len ← (head.descriptor.encodedLen).mapError .fork
    let descriptorBytes := counted.descriptorBytes + len
    rejectIf (descriptorBytes > maxAggregateDescriptorBytes) .descriptorAggregateTooLarge
    (validateOverlayFd head).mapError .fork
    rejectIf (∃ first ∈ counted.earlier.head?,
      first.2.2.descriptor.baseline ≠ head.descriptor.baseline) .badBatch
    rejectIf (∃ e ∈ counted.earlier, e.2.1 = pending.childIndex ∨ e.1 = pending.childName)
      .duplicateChild
    pure ⟨nameBytes, descriptorBytes,
      counted.earlier ++ [(pending.childName, pending.childIndex, head)]⟩

-- ══ Registration

def allocate : RegistryM Unit := do
  let w ← get
  modify fun w => { w with allocations := w.allocations.tail }
  EState.rejectIf (w.allocations.headD true = false) .outOfMemory

local instance lawfulToken : LawfulBEq Token := inferInstance

/-- A draw that no entry has, of the registry or of the batch. A draw that fails ends the search. -/
def uniqueFrom (taken : List Token) : List (Option Token) → Option Token × List (Option Token)
  | [] => (none, [])
  | none :: rest => (none, rest)
  | some token :: rest => if token ∈ taken then uniqueFrom taken rest else (some token, rest)

def uniqueToken (prepared : List Token) : RegistryM Token := fun w =>
  match uniqueFrom (w.entries.map Entry.token ++ prepared) w.draws with
  | (some token, rest) => .ok token { w with draws := rest }
  | (none, rest) => .error .ioFailed { w with draws := rest }

def prepare (prepared : List Token) (_ : Text × ℕ × Head) : RegistryM (List Token) := do
  allocate
  allocate
  let token ← uniqueToken prepared
  pure (prepared ++ [token])

def entryOf (batch : Text) (expiresAtNs : ℕ) (claim : Text × ℕ × Head) (token : Token) : Entry where
  token := token
  batch := batch
  child := claim.1
  childIndex := claim.2.1
  expiresAtNs := expiresAtNs
  head := claim.2.2

def registerBatch (validateOverlayFd : Head → Except StorageError Unit) (batch : Text)
    (pending : List PendingClaim) (nowNs expiresAtNs : ℕ) : RegistryM (List Token) := do
  EState.rejectIf (validBindingName batch maxBatchNameBytes = false ∨ pending.length = 0 ∨
    pending.length > maxChildrenPerBatch ∨ expiresAtNs ≤ nowNs) .badBatch
  let w ← get
  EState.rejectIf (∃ entry ∈ w.entries, entry.batch = batch) .batchAlreadyRegistered
  let counted ← EState.check (pending.foldlM (checkPending validateOverlayFd) ⟨0, 0, []⟩)
  allocate
  allocate
  let prepared ← counted.earlier.foldlM prepare []
  allocate
  modify fun w => { w with
    entries := w.entries ++ zipWith (entryOf batch expiresAtNs) counted.earlier prepared }
  pure prepared

-- ══ Removal

def swapRemove (entries : List Entry) (index : ℕ) : List Entry :=
  match entries.getLast? with
  | none => entries
  | some last => (entries.set index last).dropLast

def matchesRequest (entry : Entry) (request : ClaimRequest) : Prop :=
  entry.batch = request.batch ∧ entry.child = request.child ∧
    entry.childIndex = request.childIndex ∧
    entry.head.descriptor.baseline.kind = request.baselineKind ∧
    entry.head.descriptor.baseline.identity = request.baselineIdentity

instance (entry : Entry) (request : ClaimRequest) : Decidable (matchesRequest entry request) :=
  inferInstanceAs (Decidable (_ ∧ _))

def claimToken (requested : Token) (request : ClaimRequest) (nowNs : ℕ) : RegistryM Head := fun w =>
  match w.entries.findIdx? (fun entry => entry.token = requested) with
  | none => .error .unknownClaim w
  | some index =>
    match w.entries[index]? with
    | none => .error .unknownClaim w
    | some entry =>
      if entry.expiresAtNs ≤ nowNs then
        .error .claimExpired { w with entries := swapRemove w.entries index }
      else if matchesRequest entry request then
        .ok entry.head { w with entries := swapRemove w.entries index }
      else .error .claimMismatch w

def claim (request : ClaimRequest) (nowNs : ℕ) : RegistryM Head := do
  EState.check (validateClaimRequest request)
  let requested ← EState.check (parseTokenHex request.token)
  claimToken requested request nowNs

/-- A pass over the entries from `index` on that takes out those with the property, and the entries
that were taken out. The fuel is the number of entries not looked at yet. -/
def sweep (drop : Entry → Bool) : ℕ → ℕ → List Entry → List Entry × List Entry
  | 0, _, entries => (entries, [])
  | fuel + 1, index, entries =>
    match entries[index]? with
    | none => (entries, [])
    | some entry =>
      if drop entry = true then
        let swept := sweep drop fuel index (swapRemove entries index)
        (swept.1, entry :: swept.2)
      else sweep drop fuel (index + 1) entries

def sweepAll (drop : Entry → Bool) : RegistryM ℕ := fun w =>
  let swept := sweep drop w.entries.length 0 w.entries
  .ok swept.2.length { w with entries := swept.1 }

def cancelBatch (batch : Text) : RegistryM ℕ := sweepAll fun entry => entry.batch = batch

def expire (nowNs : ℕ) : RegistryM ℕ := sweepAll fun entry => entry.expiresAtNs ≤ nowNs

-- ══ Histories

inductive Call
  | registerBatch (batch : Text) (pending : List PendingClaim) (nowNs expiresAtNs : ℕ)
  | claim (request : ClaimRequest) (nowNs : ℕ)
  | cancelBatch (batch : Text)
  | expire (nowNs : ℕ)

/-- A claim that was served at a time, the head that it got, and the entry that it took out. -/
structure Handed where
  request : ClaimRequest
  nowNs : ℕ
  head : Head
  entry : Entry

/-- The registry, and what has become of all that was registered. -/
structure Ledger where
  registry : Registry
  registered : List Entry := []
  handed : List Handed := []
  /-- Each entry that has expired, with the time at which it was found so. -/
  expired : List (ℕ × Entry) := []
  /-- Each entry that was cancelled, with the batch that was. -/
  cancelled : List (Text × Entry) := []

/-- The entry with the token of the request. -/
def foundBy (request : ClaimRequest) (entries : List Entry) : List Entry :=
  match parseTokenHex request.token with
  | .error _ => []
  | .ok token => (entries.find? fun entry => entry.token = token).toList

def sweptFrom (drop : Entry → Bool) (entries : List Entry) : List Entry :=
  (sweep drop entries.length 0 entries).2

def Ledger.afterRegister (l : Ledger) : EStateM.Result ClaimError Registry (List Token) → Ledger
  | .ok _ w => { l with
      registry := w
      registered := l.registered ++ w.entries.drop l.registry.entries.length }
  | .error _ w => { l with registry := w }

def Ledger.afterClaim (l : Ledger) (request : ClaimRequest) (nowNs : ℕ) :
    EStateM.Result ClaimError Registry Head → Ledger
  | .ok head w => { l with
      registry := w
      handed := l.handed ++
        (foundBy request l.registry.entries).map fun entry => ⟨request, nowNs, head, entry⟩ }
  | .error .claimExpired w => { l with
      registry := w
      expired := l.expired ++ (foundBy request l.registry.entries).map fun entry => (nowNs, entry) }
  | .error _ w => { l with registry := w }

variable (validateOverlayFd : Head → Except StorageError Unit)

def step (l : Ledger) : Call → Ledger
  | .registerBatch batch pending nowNs expiresAtNs =>
    l.afterRegister (registerBatch validateOverlayFd batch pending nowNs expiresAtNs l.registry)
  | .claim request nowNs => l.afterClaim request nowNs (claim request nowNs l.registry)
  | .cancelBatch batch => { l with
      registry := (EState.outcome (cancelBatch batch) l.registry).2
      cancelled := l.cancelled ++
        (sweptFrom (fun entry => entry.batch = batch) l.registry.entries).map fun entry =>
          (batch, entry) }
  | .expire nowNs => { l with
      registry := (EState.outcome (expire nowNs) l.registry).2
      expired := l.expired ++
        (sweptFrom (fun entry => entry.expiresAtNs ≤ nowNs) l.registry.entries).map fun entry =>
          (nowNs, entry) }

def run (allocations : List Bool) (draws : List (Option Token)) (calls : List Call) : Ledger :=
  calls.foldl (step validateOverlayFd) { registry := ⟨[], allocations, draws⟩ }

-- ══ Removing an entry

variable {entries : List Entry} {entry : Entry}

lemma perm_swapRemove {index : ℕ}
    (h : entries[index]? = some entry) : entries.Perm (entry :: swapRemove entries index) := by
  rcases eq_nil_or_concat entries with rfl | ⟨front, last, rfl⟩
  · cases h
  · rw [concat_eq_append] at h ⊢
    rw [swapRemove, getLast?_concat]
    dsimp only
    by_cases hlt : index < front.length
    · rw [List.getElem?_append_left hlt] at h
      rw [set_append_left _ _ hlt, dropLast_concat]
      obtain ⟨-, rfl⟩ := List.getElem?_eq_some_iff.mp h
      have hsplit : front = front.take index ++ front[index] :: front.drop (index + 1) := by
        rw [getElem_cons_drop, take_append_drop]
      have hset : front.set index last = front.take index ++ last :: front.drop (index + 1) :=
        set_eq_take_append_cons_drop.trans (if_pos hlt)
      rw [hset]
      calc front ++ [last]
        _ ~ last :: front := perm_append_singleton last front
        _ ~ last :: front[index] :: (front.take index ++ front.drop (index + 1)) := by
          refine Perm.cons last ?_
          exact (Perm.of_eq hsplit).trans perm_middle
        _ ~ front[index] :: last :: (front.take index ++ front.drop (index + 1)) :=
          Perm.swap _ _ _
        _ ~ front[index] :: (front.take index ++ last :: front.drop (index + 1)) :=
          Perm.cons _ perm_middle.symm
    · have hindex : index = front.length := by
        have hbound := (List.getElem?_eq_some_iff.mp h).1
        rw [length_append, length_singleton] at hbound
        omega
      subst hindex
      rw [List.getElem?_concat_length] at h
      cases h
      rw [set_append_right _ _ le_rfl, Nat.sub_self, set_cons_zero, dropLast_concat]
      exact perm_append_singleton entry front

lemma length_swapRemove {index : ℕ}
    (h : entries[index]? = some entry) : (swapRemove entries index).length + 1 = entries.length :=
  (perm_swapRemove h).length_eq.symm

lemma swapRemove_before {index k : ℕ} (h : entries[index]? = some entry) (hk : k < index) :
    (swapRemove entries index)[k]? = entries[k]? := by
  have hbound := (List.getElem?_eq_some_iff.mp h).1
  cases hlast : entries.getLast? with
  | none =>
    rw [getLast?_eq_none_iff.mp hlast] at hbound
    cases hbound
  | some last =>
    rw [swapRemove, hlast]
    rw [List.getElem?_dropLast, length_set, if_pos (by omega), List.getElem?_set_ne (by omega)]

/-- A pass takes out exactly the entries with the property, if none in front of it has it. -/
theorem sweep_spec (drop : Entry → Bool) : ∀ (fuel index : ℕ) (entries : List Entry),
    entries.length ≤ fuel + index →
    (∀ k < index, ∀ entry, entries[k]? = some entry → drop entry = false) →
      entries.Perm ((sweep drop fuel index entries).1 ++ (sweep drop fuel index entries).2) ∧
      (∀ entry ∈ (sweep drop fuel index entries).1, drop entry = false) ∧
      ∀ entry ∈ (sweep drop fuel index entries).2, drop entry = true
  | 0, index, entries, hlen, hfront => by
    refine ⟨by simp [sweep], fun entry (hentry : entry ∈ entries) => ?_,
      fun entry hentry => by cases hentry⟩
    obtain ⟨k, hk⟩ := mem_iff_getElem?.mp hentry
    have hbound := (List.getElem?_eq_some_iff.mp hk).1
    exact hfront k (by omega) entry hk
  | fuel + 1, index, entries, hlen, hfront => by
    rw [sweep]
    cases hentry : entries[index]? with
    | none =>
      refine ⟨by simp, fun entry (hmem : entry ∈ entries) => ?_, fun entry hmem => by cases hmem⟩
      obtain ⟨k, hk⟩ := mem_iff_getElem?.mp hmem
      have hbound := (List.getElem?_eq_some_iff.mp hk).1
      exact hfront k (by have := List.getElem?_eq_none_iff.mp hentry; omega) entry hk
    | some entry =>
      dsimp only
      by_cases hdrop : drop entry = true
      · rw [if_pos hdrop]
        have hlength := length_swapRemove hentry
        obtain ⟨hperm, hkept, hgone⟩ := sweep_spec drop fuel index (swapRemove entries index)
          (by omega) fun k hk other hother =>
            hfront k hk other (by rwa [swapRemove_before hentry hk] at hother)
        refine ⟨?_, hkept, forall_mem_cons.mpr ⟨hdrop, hgone⟩⟩
        exact (perm_swapRemove hentry).trans ((hperm.cons entry).trans perm_middle.symm)
      · rw [if_neg hdrop]
        refine sweep_spec drop fuel (index + 1) entries (by omega) fun k hk other hother => ?_
        by_cases hlast : k = index
        · subst hlast
          cases hentry.symm.trans hother
          exact Bool.eq_false_iff.mpr hdrop
        · exact hfront k (by omega) other hother

-- ══ Drawing tokens

/-- Nothing is registered yet, and the tokens in use come from the draws. -/
structure Drawing (entries : List Entry) (draws : List Token) (used : List Token) (w : Registry) :
    Prop where
  entries_eq : w.entries = entries
  draws_left : (used ++ w.draws.reduceOption) <+ draws

section Drawing

variable {entries : List Entry} {draws used : List Token}

lemma Drawing.forget {w : Registry} (h : Drawing entries draws used w) :
    Drawing entries draws [] w :=
  ⟨h.entries_eq, (sublist_append_right used _).trans h.draws_left⟩

lemma uniqueFrom_sublist (taken : List Token) : ∀ draws : List (Option Token),
    ((uniqueFrom taken draws).1.toList ++ (uniqueFrom taken draws).2.reduceOption) <+
      draws.reduceOption
  | [] => Sublist.refl _
  | none :: rest => by
    rw [uniqueFrom, reduceOption_cons_of_none]
    exact Sublist.refl _
  | some token :: rest => by
    rw [uniqueFrom, reduceOption_cons_of_some]
    split
    · exact (uniqueFrom_sublist taken rest).trans (sublist_cons_self _ _)
    · exact Sublist.refl _

lemma allocate_keeps : Stays (Drawing entries draws used) allocate :=
  Keeps.get.bind fun _ _ => (Keeps.modify fun _ h => ⟨h.entries_eq, h.draws_left⟩).bind fun _ _ =>
    Keeps.rejectIf.stays

lemma uniqueToken_triple : Triple (Drawing entries draws used) (uniqueToken used)
    (fun token => Drawing entries draws (used ++ [token])) (Drawing entries draws []) := by
  intro w hw
  have hdrawn := uniqueFrom_sublist (w.entries.map Entry.token ++ used) w.draws
  unfold uniqueToken
  rcases huniq : uniqueFrom (w.entries.map Entry.token ++ used) w.draws with ⟨token, rest⟩
  rw [huniq] at hdrawn
  have hleft := (hdrawn.append_left used).trans hw.draws_left
  cases token with
  | none =>
    have hkept : Drawing entries draws used { w with draws := rest } := ⟨hw.entries_eq, hleft⟩
    exact hkept.forget
  | some token =>
    refine ⟨hw.entries_eq, ?_⟩
    rw [append_assoc]
    exact hleft

lemma prepare_triple (claim : Text × ℕ × Head) : Triple (Drawing entries draws used)
    (prepare used claim)
    (fun used' w => Drawing entries draws used' w ∧ used'.length = used.length + 1)
    (Drawing entries draws []) :=
  allocate_keeps.before (fun _ h => h.forget) fun _ _ =>
    allocate_keeps.before (fun _ h => h.forget) fun _ _ =>
      Triple.bind uniqueToken_triple fun token => .pure fun _ h => ⟨h, by simp⟩

lemma prepareAll_triple : ∀ (claims : List (Text × ℕ × Head)) (used : List Token),
    Triple (Drawing entries draws used) (claims.foldlM prepare used)
      (fun used' w => Drawing entries draws used' w ∧ used'.length = used.length + claims.length)
      (Drawing entries draws [])
  | [], used => .pure fun _ h => ⟨h, rfl⟩
  | claim :: claims, used => by
    rw [foldlM_cons]
    refine .bind (prepare_triple claim) fun used' w hw => ?_
    have hrest := prepareAll_triple claims used'
    exact (hrest.weaken (fun _ h => h) (fun used'' _ h => ⟨h.1, by
      rw [h.2, hw.2, length_cons]
      omega⟩) fun _ h => h) w hw.1

lemma map_token_zipWith {batch : Text} {expiresAtNs : ℕ} : ∀ {claims : List (Text × ℕ × Head)}
    {tokens : List Token}, tokens.length = claims.length →
      (zipWith (entryOf batch expiresAtNs) claims tokens).map Entry.token = tokens
  | [], [], _ => rfl
  | _ :: claims, token :: tokens, h => by
    rw [zipWith_cons_cons, map_cons, map_token_zipWith (Nat.succ.inj h)]
    rfl

/-- What is asked to be registered. -/
def pendingOf (claim : Text × ℕ × Head) : PendingClaim := ⟨claim.1, claim.2.1, some claim.2.2⟩

lemma checkPending_ok {validateOverlayFd : Head → Except StorageError Unit}
    {counted counted' : Counted} {pending : PendingClaim}
    (h : checkPending validateOverlayFd counted pending = .ok counted') :
    ∃ claim, pending = pendingOf claim ∧ counted'.earlier = counted.earlier ++ [claim] := by
  obtain ⟨childName, childIndex, head⟩ := pending
  cases head with
  | none => cases h
  | some head =>
    refine ⟨(childName, childIndex, head), rfl, ?_⟩
    simp only [checkPending] at h
    iterate 8 obtain ⟨_, -, h⟩ := bind_ok.mp h
    cases h
    rfl

lemma checkAll_ok {validateOverlayFd : Head → Except StorageError Unit} :
    ∀ {pending : List PendingClaim} {counted counted' : Counted},
      pending.foldlM (checkPending validateOverlayFd) counted = .ok counted' →
        ∃ claims, pending = claims.map pendingOf ∧ counted'.earlier = counted.earlier ++ claims
  | [], _, _, h => by
    cases h
    exact ⟨[], rfl, by simp⟩
  | first :: pending, counted, counted', h => by
    rw [foldlM_cons] at h
    obtain ⟨next, hfirst, hrest⟩ := bind_ok.mp h
    obtain ⟨claim, rfl, hclaim⟩ := checkPending_ok hfirst
    obtain ⟨claims, rfl, hclaims⟩ := checkAll_ok hrest
    exact ⟨claim :: claims, rfl, by rw [hclaims, hclaim, append_assoc]; rfl⟩

/-- A batch is registered as a whole, under tokens that are drawn for it, or not at all. -/
theorem registerBatch_triple (validateOverlayFd : Head → Except StorageError Unit) (batch : Text)
    (pending : List PendingClaim) (nowNs expiresAtNs : ℕ) : Triple (Drawing entries draws [])
      (registerBatch validateOverlayFd batch pending nowNs expiresAtNs)
      (fun tokens w => (∃ claims, pending = claims.map pendingOf ∧ tokens.length = claims.length ∧
        w.entries = entries ++ zipWith (entryOf batch expiresAtNs) claims tokens) ∧
        (tokens ++ w.draws.reduceOption) <+ draws) (Drawing entries draws []) := by
  refine Keeps.rejectIf.bind_triple fun _ _ => Keeps.get.bind_triple fun _ _ =>
    Keeps.rejectIf.bind_triple fun _ _ => ?_
  refine (Keeps.check fun _ h => h).bind_triple fun counted hcounted => ?_
  obtain ⟨claims, hclaims, hearlier⟩ := checkAll_ok hcounted
  rw [nil_append] at hearlier
  rw [hearlier]
  refine allocate_keeps.bind_triple fun _ _ => allocate_keeps.bind_triple fun _ _ => ?_
  refine .bind (prepareAll_triple claims []) fun tokens => ?_
  -- The lengths have to reach the end, where the entries are made of claims and tokens.
  intro w hw
  have hlen : tokens.length = claims.length := by simpa using hw.2
  refine (allocate_keeps.before (fun _ h => h.forget) fun _ _ => ?_ :
    Triple (Drawing entries draws tokens) _ _ _) w hw.1
  refine .bind (Q := fun _ w => w.entries =
      entries ++ zipWith (entryOf batch expiresAtNs) claims tokens ∧
    (tokens ++ w.draws.reduceOption) <+ draws) (Triple.modify fun w h => ?_)
    fun _ => .pure fun _ h => ⟨⟨claims, hclaims, hlen, h.1⟩, h.2⟩
  exact ⟨by rw [← h.entries_eq], h.draws_left⟩

end Drawing

-- ══ A claim

lemma parseTokenHex_error {hex : Text} {e : ClaimError} (h : parseTokenHex hex = .error e) :
    e = .badClaimRequest := by
  unfold parseTokenHex at h
  split at h
  · cases h
    rfl
  · cases hparse : parseHexBytes hex with
    | none =>
      rw [hparse] at h
      cases h
      rfl
    | some token =>
      rw [hparse] at h
      cases h

lemma validateClaimRequest_error {request : ClaimRequest} {e : ClaimError}
    (h : validateClaimRequest request = .error e) : e = .badClaimRequest := by
  have hcheck {p : Prop} [Decidable p] : Check.Raises (· = ClaimError.badClaimRequest)
      (rejectIf p ClaimError.badClaimRequest) := .rejectIf rfl
  have hraises : Check.Raises (· = ClaimError.badClaimRequest) (validateClaimRequest request) := by
    refine hcheck.bind fun _ _ => hcheck.bind fun _ _ => ?_
    refine Check.Raises.bind (fun e he => parseTokenHex_error he) fun _ _ => ?_
    exact hcheck.bind fun _ _ => hcheck.bind fun _ _ => hcheck
  exact hraises e h

/-- The entry is the one that is asked for, and has not expired. -/
def Serves (request : ClaimRequest) (nowNs : ℕ) (entry : Entry) : Prop :=
  parseTokenHex request.token = .ok entry.token ∧ matchesRequest entry request ∧
    nowNs < entry.expiresAtNs

lemma claimToken_cases (requested : Token) (request : ClaimRequest) (nowNs : ℕ) (w : Registry) :
    (∃ e, e ≠ .claimExpired ∧ claimToken requested request nowNs w = .error e w) ∨
    ∃ entry rest, w.entries.find? (fun entry => entry.token = requested) = some entry ∧
      w.entries.Perm (entry :: rest) ∧ entry.token = requested ∧
      ((entry.expiresAtNs ≤ nowNs ∧
          claimToken requested request nowNs w = .error .claimExpired { w with entries := rest }) ∨
        (nowNs < entry.expiresAtNs ∧ matchesRequest entry request ∧
          claimToken requested request nowNs w = .ok entry.head { w with entries := rest })) := by
  unfold claimToken
  cases hindex : w.entries.findIdx? (fun entry => entry.token = requested) with
  | none => exact .inl ⟨.unknownClaim, by decide, rfl⟩
  | some index =>
    obtain ⟨hlt, htoken, hfirst⟩ := findIdx?_eq_some_iff_getElem.mp hindex
    have hget := List.getElem?_eq_getElem hlt
    have hfind : w.entries.find? (fun entry => entry.token = requested) =
        some w.entries[index] := by
      refine List.find?_eq_some_iff_getElem.mpr ⟨htoken, index, hlt, rfl, fun j hj => ?_⟩
      simpa using hfirst j hj
    simp only [hget]
    by_cases hexpired : w.entries[index].expiresAtNs ≤ nowNs
    · rw [if_pos hexpired]
      exact .inr ⟨_, _, hfind, perm_swapRemove hget, of_decide_eq_true htoken, .inl ⟨hexpired, rfl⟩⟩
    · rw [if_neg hexpired]
      by_cases hmatches : matchesRequest w.entries[index] request
      · rw [if_pos hmatches]
        exact .inr ⟨_, _, hfind, perm_swapRemove hget, of_decide_eq_true htoken,
          .inr ⟨not_le.mp hexpired, hmatches, rfl⟩⟩
      · rw [if_neg hmatches]
        exact .inl ⟨.claimMismatch, by decide, rfl⟩

/-- What a claim does: it is refused and changes nothing, or it takes out the entry it has found,
which has expired or is the one it asks for. -/
theorem claim_cases (request : ClaimRequest) (nowNs : ℕ) (w : Registry) :
    (∃ e, e ≠ .claimExpired ∧ claim request nowNs w = .error e w) ∨
    ∃ entry rest, foundBy request w.entries = [entry] ∧ w.entries.Perm (entry :: rest) ∧
      ((parseTokenHex request.token = .ok entry.token ∧ entry.expiresAtNs ≤ nowNs ∧
          claim request nowNs w = .error .claimExpired { w with entries := rest }) ∨
        (Serves request nowNs entry ∧
          claim request nowNs w = .ok entry.head { w with entries := rest })) := by
  cases hvalid : validateClaimRequest request with
  | error e =>
    refine .inl ⟨e, ?_, ?_⟩
    · rw [validateClaimRequest_error hvalid]
      decide
    · unfold claim
      rw [hvalid]
      rfl
  | ok u =>
    cases htoken : parseTokenHex request.token with
    | error e =>
      refine .inl ⟨e, ?_, ?_⟩
      · rw [parseTokenHex_error htoken]
        decide
      · unfold claim
        rw [hvalid, htoken]
        rfl
    | ok requested =>
      have hclaim : claim request nowNs w = claimToken requested request nowNs w := by
        unfold claim
        rw [hvalid, htoken]
        rfl
      rw [hclaim]
      rcases claimToken_cases requested request nowNs w with hrefused | hfound
      · exact .inl hrefused
      · obtain ⟨entry, rest, hfind, hperm, rfl, hcases⟩ := hfound
        refine .inr ⟨entry, rest, ?_, hperm, hcases.imp (fun h => ⟨rfl, h⟩) fun h => ?_⟩
        · rw [foundBy, htoken]
          dsimp only
          rw [hfind]
          rfl
        · exact ⟨⟨htoken, h.2.1, h.1⟩, h.2.2⟩

-- ══ All calls

/-- What was registered is held, handed out, expired or cancelled, each entry once, and for a good
reason; who is handed a head gets the one of the entry. -/
structure Accounted (l : Ledger) : Prop where
  perm : l.registered.Perm (l.registry.entries ++ (l.handed.map Handed.entry ++
    (l.expired.map (·.2) ++ l.cancelled.map (·.2))))
  tokens : (l.registered.map Entry.token ++ l.registry.draws.reduceOption).Nodup
  handed : ∀ x ∈ l.handed, Serves x.request x.nowNs x.entry ∧ x.head = x.entry.head
  expired : ∀ x ∈ l.expired, x.2.expiresAtNs ≤ x.1
  cancelled : ∀ x ∈ l.cancelled, x.2.batch = x.1

/-- Entries that are taken out of one list and put behind another. -/
theorem perm_moved {held rest removed : List Entry} (front back : List Entry)
    (h : held ~ rest ++ removed) :
    held ++ (front ++ back) ~ rest ++ ((front ++ removed) ++ back) := by
  rw [perm_iff_count] at h ⊢
  intro entry
  have := h entry
  simp only [count_append] at this ⊢
  omega

lemma perm_append_swap (a b c : List Entry) : a ++ b ++ c ~ a ++ c ++ b := by
  rw [append_assoc, append_assoc]
  exact perm_append_comm.append_left a

section Steps

variable {validateOverlayFd : Head → Except StorageError Unit} {l : Ledger}

lemma Accounted.registerBatch (h : Accounted l) (batch : Text) (pending : List PendingClaim)
    (nowNs expiresAtNs : ℕ) :
    Accounted (step validateOverlayFd l (.registerBatch batch pending nowNs expiresAtNs)) := by
  have htriple := @registerBatch_triple l.registry.entries l.registry.draws.reduceOption
    validateOverlayFd batch pending nowNs expiresAtNs l.registry ⟨rfl, Sublist.refl _⟩
  rw [step]
  cases hrun : ForkHeads.registerBatch validateOverlayFd batch pending nowNs expiresAtNs
      l.registry with
  | ok tokens w =>
    rw [hrun] at htriple
    obtain ⟨⟨claims, -, hlen, hentries⟩, hdraws⟩ := htriple
    have hnew := congrArg (List.drop l.registry.entries.length) hentries
    rw [drop_left] at hnew
    refine ⟨?_, ?_, h.handed, h.expired, h.cancelled⟩
    · rw [Ledger.afterRegister]
      rw [hnew, hentries]
      exact (h.perm.append_right _).trans (perm_append_swap _ _ _)
    · rw [Ledger.afterRegister]
      rw [hnew, map_append, map_token_zipWith hlen, append_assoc]
      exact h.tokens.sublist (hdraws.append_left _)
  | error e w =>
    rw [hrun] at htriple
    refine ⟨?_, ?_, h.handed, h.expired, h.cancelled⟩
    · rw [Ledger.afterRegister]
      rw [htriple.entries_eq]
      exact h.perm
    · exact h.tokens.sublist (htriple.draws_left.append_left _)

lemma Accounted.expireEntries (h : Accounted l) {removed : List Entry} {nowNs : ℕ} {w : Registry}
    (hperm : l.registry.entries ~ w.entries ++ removed) (hdraws : w.draws = l.registry.draws)
    (hexpired : ∀ entry ∈ removed, entry.expiresAtNs ≤ nowNs) :
    Accounted { l with
      registry := w
      expired := l.expired ++ removed.map fun entry => (nowNs, entry) } where
  perm := by
    have hmoved := perm_moved (l.handed.map Handed.entry ++ l.expired.map (·.2))
      (l.cancelled.map (·.2)) hperm
    simp only [append_assoc] at hmoved
    refine h.perm.trans (hmoved.trans (Perm.of_eq ?_))
    simp [Function.comp_def]
  tokens := by
    rw [hdraws]
    exact h.tokens
  handed := h.handed
  expired := by
    intro x hx
    rcases mem_append.mp hx with hold | hnew
    · exact h.expired x hold
    · obtain ⟨entry, hentry, rfl⟩ := mem_map.mp hnew
      exact hexpired entry hentry
  cancelled := h.cancelled

lemma Accounted.claim (h : Accounted l) (request : ClaimRequest) (nowNs : ℕ) :
    Accounted (step validateOverlayFd l (.claim request nowNs)) := by
  rw [step]
  rcases claim_cases request nowNs l.registry with
    ⟨e, hne, hrun⟩ | ⟨entry, rest, hfound, hperm, hrun⟩
  · have hsame : l.afterClaim request nowNs (.error e l.registry) = l := by
      cases e <;> first | rfl | exact absurd rfl hne
    rw [hrun, hsame]
    exact h
  · have hremoved : l.registry.entries ~ rest ++ [entry] :=
      hperm.trans (perm_append_singleton entry rest).symm
    rcases hrun with ⟨-, hexpired, hrun⟩ | ⟨hserves, hrun⟩
    · rw [hrun, Ledger.afterClaim, hfound]
      exact h.expireEntries hremoved rfl fun other hother => by
        rw [mem_singleton.mp hother]
        exact hexpired
    · rw [hrun, Ledger.afterClaim, hfound]
      refine ⟨?_, h.tokens, ?_, h.expired, h.cancelled⟩
      · have hmoved := perm_moved (l.handed.map Handed.entry)
          (l.expired.map (·.2) ++ l.cancelled.map (·.2)) hremoved
        refine h.perm.trans (hmoved.trans (Perm.of_eq ?_))
        simp
      · intro x hx
        rcases mem_append.mp hx with hold | hnew
        · exact h.handed x hold
        · rw [mem_singleton.mp hnew]
          exact ⟨hserves, rfl⟩

lemma sweptFrom_spec (drop : Entry → Bool) (entries : List Entry) :
    entries ~ (sweep drop entries.length 0 entries).1 ++ sweptFrom drop entries ∧
      (∀ entry ∈ (sweep drop entries.length 0 entries).1, drop entry = false) ∧
      ∀ entry ∈ sweptFrom drop entries, drop entry = true :=
  sweep_spec drop entries.length 0 entries le_rfl fun _ hk => absurd hk (Nat.not_lt_zero _)

lemma Accounted.expire (h : Accounted l) (nowNs : ℕ) :
    Accounted (step validateOverlayFd l (.expire nowNs)) := by
  obtain ⟨hperm, -, hgone⟩ :=
    sweptFrom_spec (fun entry => entry.expiresAtNs ≤ nowNs) l.registry.entries
  exact h.expireEntries hperm rfl fun entry hentry => of_decide_eq_true (hgone entry hentry)

lemma Accounted.cancelBatch (h : Accounted l) (batch : Text) :
    Accounted (step validateOverlayFd l (.cancelBatch batch)) := by
  obtain ⟨hperm, -, hgone⟩ := sweptFrom_spec (fun entry => entry.batch = batch) l.registry.entries
  refine ⟨?_, h.tokens, h.handed, h.expired, ?_⟩
  · have hmoved := perm_moved (l.handed.map Handed.entry ++ (l.expired.map (·.2) ++
      l.cancelled.map (·.2))) [] hperm
    simp only [append_assoc, append_nil] at hmoved
    refine h.perm.trans (hmoved.trans (Perm.of_eq ?_))
    simp only [step, map_append, map_map, Function.comp_def, map_id']
    rfl
  · intro x hx
    rcases mem_append.mp hx with hold | hnew
    · exact h.cancelled x hold
    · obtain ⟨entry, hentry, rfl⟩ := mem_map.mp hnew
      exact of_decide_eq_true (hgone entry hentry)

lemma Accounted.step (h : Accounted l) (call : Call) :
    Accounted (step validateOverlayFd l call) := by
  cases call with
  | registerBatch batch pending nowNs expiresAtNs =>
    exact h.registerBatch batch pending nowNs expiresAtNs
  | claim request nowNs => exact h.claim request nowNs
  | cancelBatch batch => exact h.cancelBatch batch
  | expire nowNs => exact h.expire nowNs

lemma Accounted.calls : ∀ (calls : List Call) {l : Ledger}, Accounted l →
    Accounted (calls.foldl (ForkHeads.step validateOverlayFd) l)
  | [], _, h => h
  | call :: calls, _, h => Accounted.calls calls (h.step call)

end Steps

/-- **Heads are accounted for.** After any calls, if the random tokens differ, each head that was
registered is held, was handed out, has expired or was cancelled, and only one of these, for a good
reason. A registration makes one entry for each claim that it is given, or changes none; a claim
that is served hands out the head of the entry that it asks for and takes out that entry; a claim
that is refused changes none, unless the entry it names has expired, and then it takes out that
entry alone. -/
theorem registered_heads_accounted (validateOverlayFd : Head → Except StorageError Unit)
    (allocations : List Bool) (draws : List (Option Token)) (hdraws : draws.reduceOption.Nodup)
    (calls : List Call) : Accounted (run validateOverlayFd allocations draws calls) ∧
    ∀ w : Registry,
      (∀ batch pending nowNs expiresAtNs tokens w',
        registerBatch validateOverlayFd batch pending nowNs expiresAtNs w = .ok tokens w' →
          ∃ claims, pending = claims.map pendingOf ∧ tokens.length = claims.length ∧
            w'.entries = w.entries ++ zipWith (entryOf batch expiresAtNs) claims tokens) ∧
      (∀ batch pending nowNs expiresAtNs e w',
        registerBatch validateOverlayFd batch pending nowNs expiresAtNs w = .error e w' →
          w'.entries = w.entries) ∧
      (∀ request nowNs head w', claim request nowNs w = .ok head w' →
        ∃ entry, Serves request nowNs entry ∧ head = entry.head ∧
          w.entries ~ entry :: w'.entries) ∧
      ∀ request nowNs e w', claim request nowNs w = .error e w' →
        (e ≠ .claimExpired ∧ w'.entries = w.entries) ∨
        (e = .claimExpired ∧ ∃ entry, parseTokenHex request.token = .ok entry.token ∧
          entry.expiresAtNs ≤ nowNs ∧ w.entries ~ entry :: w'.entries) := by
  refine ⟨Accounted.calls calls ⟨Perm.refl _, hdraws, ?_, ?_, ?_⟩, fun w => ⟨?_, ?_, ?_, ?_⟩⟩
  iterate 3 exact fun _ hx => by cases hx
  · intro batch pending nowNs expiresAtNs tokens w' hrun
    have htriple := @registerBatch_triple w.entries w.draws.reduceOption
      validateOverlayFd batch pending nowNs expiresAtNs w ⟨rfl, Sublist.refl _⟩
    rw [hrun] at htriple
    exact htriple.1
  · intro batch pending nowNs expiresAtNs e w' hrun
    exact ((registerBatch_triple validateOverlayFd batch pending nowNs expiresAtNs).error
      ⟨rfl, Sublist.refl _⟩ hrun).entries_eq
  · intro request nowNs head w' hrun
    rcases claim_cases request nowNs w with ⟨e', hne, hrefused⟩ | ⟨entry, rest, -, hperm, hcase⟩
    · cases hrefused.symm.trans hrun
    · rcases hcase with ⟨-, -, hremoved⟩ | ⟨hserves, hserved⟩
      · cases hremoved.symm.trans hrun
      · cases hserved.symm.trans hrun
        exact ⟨entry, hserves, rfl, hperm⟩
  · intro request nowNs e w' hrun
    rcases claim_cases request nowNs w with ⟨e', hne, hrefused⟩ | ⟨entry, rest, -, hperm, hcase⟩
    · cases hrefused.symm.trans hrun
      exact .inl ⟨hne, rfl⟩
    · rcases hcase with ⟨htoken, hexpired, hremoved⟩ | ⟨-, hserved⟩
      · cases hremoved.symm.trans hrun
        exact .inr ⟨rfl, entry, htoken, hexpired, hperm⟩
      · cases hserved.symm.trans hrun

def sampleHead (fd : ℤ) : Head := ⟨RuntimeDiskFork.testDescriptor, fd⟩

def sampleRequest : ClaimRequest where
  type := claimType
  schema := claimSchema
  token := replicate 64 '1'
  batch := "batch".toList
  child := "second".toList
  childIndex := 1
  baselineKind := (sampleHead 0).descriptor.baseline.kind
  baselineIdentity := (sampleHead 0).descriptor.baseline.identity

def sampleCalls : List Call :=
  [.registerBatch "batch".toList
      [⟨"first".toList, 0, some (sampleHead 5)⟩, ⟨"second".toList, 1, some (sampleHead 6)⟩] 1 3,
    .claim sampleRequest 2, .claim sampleRequest 2]

def sampleDraws : List (Option Token) :=
  [some (replicate 32 0), some (replicate 32 0x11)]

/-- The second of two heads is claimed twice and handed out once. -/
theorem registered_heads_accounted_once : sampleDraws.reduceOption.Nodup ∧
      (run (fun _ => .ok ()) [] sampleDraws sampleCalls).handed.map Handed.head =
        [sampleHead 6] ∧
      Accounted (run (fun _ => .ok ()) [] sampleDraws sampleCalls) :=
  ⟨by decide, by decide +kernel,
    (registered_heads_accounted (fun _ => .ok ()) [] sampleDraws (by decide) sampleCalls).1⟩

end SporeVM.ForkHeads
