import SporeVM.Lib.DomainName
import SporeVM.Netd.Flow

/-!
# Names in DNS packets

The gateway reads the names of DNS packets in three places. `skipDnsName` finds where a name ends,
`decodeDnsName` writes it as dotted text in lower case, and `dnsNameMatchesHost` compares it with a
host of the policy without writing it anywhere. The three are one loop over the length octets
(`walkName`), and differ in what they do with a label.

The loop follows at most sixteen pointers and otherwise takes what `DomainName.Decodes` takes
(`walkName_iff`). The three limits on what a label may be are not the same:

* `skipDnsName` counts the octets of the labels and leaves out the octet that closes the name. It
  takes names of 256 octets, one more than `decodeDnsName`.
* `dnsNameMatchesHost` compares the dots of the host with the ends of labels, but a dot inside of a
  label is compared as a character and matches a dot of the host too.
-/

namespace SporeVM.Netd

open Lib Lib.DomainName
open List

-- ══ The loop over a name

def maxJumps : ℕ := 16

/-- The loop of the three readers. `onLabel` is what the reader does with a label. The result has
    the offset behind the name, which is behind the first pointer when there is one. -/
def walkName {σ : Type} (packet : Bytes) (onLabel : σ → Label → Option σ) (offset jumps : ℕ)
    (end' : Option ℕ) (state : σ) : Option (σ × ℕ) :=
  if hoffset : packet.length ≤ offset then none
  else
    let len := packet.get ⟨offset, by omega⟩
    if len &&& 0xc0 = 0xc0 then
      if hlow : packet.length ≤ offset + 1 then none
      else
        let pointer := pointerTarget len (packet.get ⟨offset + 1, by omega⟩)
        if packet.length ≤ pointer then none
        else if maxJumps < jumps + 1 then none
        else walkName packet onLabel pointer (jumps + 1) (some (end'.getD (offset + 2))) state
    else if len &&& 0xc0 ≠ 0 ∨ 63 < len then none
    else if len = 0 then some (state, end'.getD (offset + 1))
    else if packet.length < offset + 1 + len.toNat then none
    else
      (onLabel state ((packet.drop (offset + 1)).take len.toNat)).bind fun next =>
        walkName packet onLabel (offset + 1 + len.toNat) jumps end' next
  termination_by (maxJumps - jumps, packet.length - offset)
  decreasing_by
    · exact Prod.Lex.left _ _ (by omega)
    · exact Prod.Lex.right _ (by omega)

lemma not_lt_of_plain {len : UInt8} (hplain : len &&& 0xc0 = 0) : ¬63 < len := by
  obtain ⟨bits⟩ := len
  revert bits
  decide

section Walk

variable {σ : Type} {packet : Bytes} {onLabel : σ → Label → Option σ} {offset jumps : ℕ}
  {end' : Option ℕ} {state final : σ}

/-- The loop takes exactly the names that decode with the pointers that are left to it, and folds
    the reader over their labels. -/
theorem walkName_iff (hjumps : jumps ≤ maxJumps) :
    (∃ at', walkName packet onLabel offset jumps end' state = some (final, at')) ↔
      ∃ more labels, jumps + more ≤ maxJumps ∧ Decodes packet offset more labels ∧
        labels.foldlM onLabel state = some final := by
  fun_induction walkName packet onLabel offset jumps end' state with
  | case1 offset jumps end' state hout =>
    simp only [reduceCtorEq, exists_false, false_iff]
    rintro ⟨more, labels, -, hdec, -⟩
    exact absurd hdec.lt_length (by omega)
  | case2 offset jumps end' state hin len hset hout =>
    have hlen : packet[offset]? = some len := List.getElem?_eq_getElem _
    simp only [reduceCtorEq, exists_false, false_iff]
    rintro ⟨more, labels, -, hdec, -⟩
    rcases hdec.high_bits hlen with hplain | ⟨-, hlow⟩
    · exact absurd (hplain.symm.trans hset) (by decide)
    · omega
  | case3 offset jumps end' state hin len hset hlow pointer hout =>
    have hlen : packet[offset]? = some len := List.getElem?_eq_getElem _
    have hnext : packet[offset + 1]? = some _ := List.getElem?_eq_getElem (by omega)
    simp only [reduceCtorEq, exists_false, false_iff]
    rintro ⟨more, labels, -, hdec, -⟩
    obtain ⟨rest, -, hrest⟩ := (Decodes.iff_pointer hlen hnext hset).mp hdec
    exact hout.not_gt hrest.lt_length
  | case4 offset jumps end' state hin len hset hlow pointer hbound hmax =>
    have hlen : packet[offset]? = some len := List.getElem?_eq_getElem _
    have hnext : packet[offset + 1]? = some _ := List.getElem?_eq_getElem (by omega)
    simp only [reduceCtorEq, exists_false, false_iff]
    rintro ⟨more, labels, hmore, hdec, -⟩
    obtain ⟨rest, rfl, -⟩ := (Decodes.iff_pointer hlen hnext hset).mp hdec
    omega
  | case5 offset jumps end' state hin len hset hlow pointer hbound hmax ih =>
    have hlen : packet[offset]? = some len := List.getElem?_eq_getElem _
    have hnext : packet[offset + 1]? = some _ := List.getElem?_eq_getElem (by omega)
    rw [ih (by omega)]
    constructor
    · rintro ⟨more, labels, hmore, hdec, hfold⟩
      exact ⟨more + 1, labels, by omega, .pointer hlen hnext hset hdec, hfold⟩
    · rintro ⟨more, labels, hmore, hdec, hfold⟩
      obtain ⟨rest, rfl, hrest⟩ := (Decodes.iff_pointer hlen hnext hset).mp hdec
      exact ⟨rest, labels, by omega, hrest, hfold⟩
  | case6 offset jumps end' state hin len hset hodd =>
    have hlen : packet[offset]? = some len := List.getElem?_eq_getElem _
    simp only [reduceCtorEq, exists_false, false_iff]
    rintro ⟨more, labels, -, hdec, -⟩
    rcases hdec.high_bits hlen with hplain | ⟨hset', -⟩
    · exact hodd.elim (absurd hplain) (not_lt_of_plain hplain)
    · exact hset hset'
  | case7 offset jumps end' state hin len hset hodd hzero =>
    have hlen : packet[offset]? = some 0 := hzero ▸ List.getElem?_eq_getElem _
    simp only [Option.some.injEq, Prod.mk.injEq, exists_and_left, exists_eq', and_true,
      Decodes.iff_root hlen]
    constructor
    · rintro rfl
      exact ⟨0, by omega, [], ⟨rfl, rfl⟩, rfl⟩
    · rintro ⟨more, -, labels, ⟨-, rfl⟩, hfold⟩
      exact Option.some.inj hfold
  | case8 offset jumps end' state hin len hset hodd hpos hfits =>
    have hlen : packet[offset]? = some len := List.getElem?_eq_getElem _
    have hplain : len &&& 0xc0 = 0 := by simpa using not_or.mp hodd |>.1
    simp only [reduceCtorEq, exists_false, false_iff]
    rintro ⟨more, labels, -, hdec, -⟩
    have := ((Decodes.iff_label hlen hplain hpos).mp hdec).1
    omega
  | case9 offset jumps end' state hin len hset hodd hpos hfits ih =>
    have hlen : packet[offset]? = some len := List.getElem?_eq_getElem _
    have hplain : len &&& 0xc0 = 0 := by simpa using not_or.mp hodd |>.1
    simp only [Option.bind_eq_some_iff, Decodes.iff_label hlen hplain hpos]
    constructor
    · rintro ⟨at', next, hnext, hwalk⟩
      obtain ⟨more, labels, hmore, hdec, hfold⟩ := (ih next hjumps).mp ⟨at', hwalk⟩
      refine ⟨more, _ :: labels, hmore, ⟨by omega, labels, rfl, hdec⟩, ?_⟩
      rw [foldlM_cons, hnext]
      exact hfold
    · rintro ⟨more, _, hmore, ⟨-, labels, rfl, hdec⟩, hfold⟩
      rw [foldlM_cons] at hfold
      obtain ⟨next, hnext, hrest⟩ := Option.bind_eq_some_iff.mp hfold
      obtain ⟨at', hwalk⟩ := (ih next hjumps).mpr ⟨more, labels, hmore, hdec, hrest⟩
      exact ⟨at', next, hnext, hwalk⟩

end Walk

-- ══ The end of a name

def skipLabel (nameLen : ℕ) (label : Label) : Option ℕ :=
  if 255 < nameLen + (label.length + 1) then none else some (nameLen + (label.length + 1))

def skipDnsName (packet : Bytes) (start : ℕ) : Option ℕ :=
  (walkName packet skipLabel start 0 none 0).map Prod.snd

lemma foldlM_skipLabel (labels : List Label) (nameLen : ℕ) (hlen : nameLen ≤ 255) :
    (∃ final, labels.foldlM skipLabel nameLen = some final) ↔
      nameLen + labelOctets labels ≤ 255 := by
  induction labels generalizing nameLen with
  | nil => simpa using hlen
  | cons label rest ih =>
    by_cases hlong : 255 < nameLen + (label.length + 1)
    · have hnone : (label :: rest).foldlM skipLabel nameLen = none := by
        simp [skipLabel, hlong]
      simp only [hnone, reduceCtorEq, exists_false, false_iff, labelOctets_cons]
      omega
    · have hsome : (label :: rest).foldlM skipLabel nameLen =
          rest.foldlM skipLabel (nameLen + (label.length + 1)) := by
        simp [skipLabel, hlong]
      rw [hsome, ih _ (by omega), labelOctets_cons]
      omega

lemma skipDnsName_iff (packet : Bytes) (start : ℕ) :
    (skipDnsName packet start).isSome ↔ ∃ jumps labels, jumps ≤ maxJumps ∧
      Decodes packet start jumps labels ∧ labelOctets labels ≤ 255 := by
  have hwalk : (skipDnsName packet start).isSome ↔
      ∃ final at', walkName packet skipLabel start 0 none 0 = some (final, at') := by
    simp [skipDnsName, Option.isSome_iff_exists]
  simp only [hwalk, walkName_iff (Nat.zero_le maxJumps), Nat.zero_add]
  constructor
  · rintro ⟨final, jumps, labels, hjumps, hdec, hfold⟩
    have := (foldlM_skipLabel labels 0 (by omega)).mp ⟨final, hfold⟩
    exact ⟨jumps, labels, hjumps, hdec, by omega⟩
  · rintro ⟨jumps, labels, hjumps, hdec, hoctets⟩
    obtain ⟨final, hfold⟩ := (foldlM_skipLabel labels 0 (by omega)).mpr (by omega)
    exact ⟨final, jumps, labels, hjumps, hdec, hfold⟩

-- ══ The text of a name

def maxDnsNameText : ℕ := 253

def dot : UInt8 := 0x2e

def toLower (c : UInt8) : UInt8 := if 0x41 ≤ c ∧ c ≤ 0x5a then c ||| 0x20 else c

def decodeLabel (state : Bool × Bytes) (label : Label) : Option (Bool × Bytes) :=
  let (firstLabel, out) := state
  let needed := label.length + (!firstLabel).toNat
  if maxDnsNameText < out.length + needed then none
  else some (false, out ++ (if firstLabel then [] else [dot]) ++ label.map toLower)

def decodeDnsName (packet : Bytes) (start : ℕ) : Option Bytes :=
  (walkName packet decodeLabel start 0 none (true, [])).map fun result => result.1.2

def lowerText (labels : List Label) : Bytes := (joined dot labels).map toLower

lemma toLower_eq_dot {c : UInt8} : toLower c = dot ↔ c = dot := by
  obtain ⟨bits⟩ := c
  revert bits
  decide

@[simp] lemma toLower_dot : toLower dot = dot := toLower_eq_dot.mpr rfl

lemma lowerText_cons (label : Label) (labels : List Label) : lowerText (label :: labels) =
      label.map toLower ++ (labels.flatMap (dot :: ·)).map toLower := by
  simp [lowerText, joined_cons]

lemma length_lowerText (labels : List Label) :
    (lowerText labels).length = labelOctets labels - 1 := by
  simp [lowerText, length_joined]

lemma decodeLabel_eq (first : Bool) (out : Bytes) (label : Label) {text : Bool × Bytes} :
    decodeLabel (first, out) label = some text ↔
      text = (false, out ++ (if first then [] else [dot]) ++ label.map toLower) ∧
      text.2.length ≤ maxDnsNameText := by
  simp only [decodeLabel]
  split
  · next hlong =>
    simp only [reduceCtorEq, false_iff, not_and]
    rintro rfl
    cases first <;> simp_all
  · next hfits =>
    simp only [Option.some.injEq]
    constructor
    · rintro rfl
      exact ⟨rfl, by cases first <;> simp_all⟩
    · rintro ⟨rfl, -⟩
      rfl

lemma foldlM_decodeLabel_rest (labels : List Label) {out text : Bytes}
    (hout : out.length ≤ maxDnsNameText) :
    (∃ first, labels.foldlM decodeLabel (false, out) = some (first, text)) ↔
      text = out ++ (labels.flatMap (dot :: ·)).map toLower ∧ text.length ≤ maxDnsNameText := by
  induction labels generalizing out with
  | nil =>
    simp only [foldlM_nil, Option.pure_def, Option.some.injEq, Prod.mk.injEq, exists_eq_left',
      flatMap_nil, map_nil, append_nil]
    constructor
    · rintro rfl
      exact ⟨rfl, hout⟩
    · rintro ⟨rfl, -⟩
      rfl
  | cons label rest ih =>
    have htext : ∀ next, out ++ [dot] ++ label.map toLower = next →
        out ++ ((label :: rest).flatMap (dot :: ·)).map toLower =
          next ++ (rest.flatMap (dot :: ·)).map toLower := by
      rintro next rfl
      simp
    simp only [foldlM_cons, Option.bind_eq_bind, Option.bind_eq_some_iff, decodeLabel_eq]
    constructor
    · rintro ⟨first, ⟨_, next⟩, ⟨hnext, hlen⟩, hrest⟩
      obtain ⟨rfl, rfl⟩ := Prod.mk.inj hnext
      rw [htext _ rfl]
      exact (ih hlen).mp ⟨first, hrest⟩
    · intro h
      rw [htext _ rfl] at h
      have hlen : (out ++ [dot] ++ label.map toLower).length ≤ maxDnsNameText := by
        have := h.2
        rw [h.1, length_append] at this
        omega
      obtain ⟨first, hrest⟩ := (ih hlen).mpr h
      exact ⟨first, _, ⟨rfl, hlen⟩, hrest⟩

lemma foldlM_decodeLabel (labels : List Label) {text : Bytes} :
    (∃ first, labels.foldlM decodeLabel (true, []) = some (first, text)) ↔
      text = lowerText labels ∧ text.length ≤ maxDnsNameText := by
  cases labels with
  | nil =>
    simp only [foldlM_nil, Option.pure_def, Option.some.injEq, Prod.mk.injEq, exists_eq_left']
    constructor
    · rintro rfl
      exact ⟨rfl, by decide⟩
    · rintro ⟨rfl, -⟩
      rfl
  | cons label rest =>
    simp only [foldlM_cons, Option.bind_eq_bind, Option.bind_eq_some_iff, decodeLabel_eq]
    rw [lowerText_cons]
    constructor
    · rintro ⟨first, ⟨_, next⟩, ⟨hnext, hlen⟩, hrest⟩
      obtain ⟨rfl, rfl⟩ := Prod.mk.inj hnext
      exact (foldlM_decodeLabel_rest rest hlen).mp ⟨first, hrest⟩
    · intro h
      have hlen : (label.map toLower).length ≤ maxDnsNameText := by
        have := h.2
        rw [h.1, length_append] at this
        omega
      obtain ⟨first, hrest⟩ := (foldlM_decodeLabel_rest rest hlen).mpr h
      exact ⟨first, _, ⟨rfl, hlen⟩, hrest⟩

lemma decodeDnsName_iff (packet : Bytes) (start : ℕ) {text : Bytes} :
    decodeDnsName packet start = some text ↔ ∃ jumps labels, jumps ≤ maxJumps ∧
      Decodes packet start jumps labels ∧ text = lowerText labels ∧
      text.length ≤ maxDnsNameText := by
  have hwalk : decodeDnsName packet start = some text ↔ ∃ first at',
      walkName packet decodeLabel start 0 none (true, []) = some ((first, text), at') := by
    simp [decodeDnsName]
  simp only [hwalk, walkName_iff (Nat.zero_le maxJumps), Nat.zero_add]
  constructor
  · rintro ⟨first, jumps, labels, hjumps, hdec, hfold⟩
    exact ⟨jumps, labels, hjumps, hdec, (foldlM_decodeLabel labels).mp ⟨first, hfold⟩⟩
  · rintro ⟨jumps, labels, hjumps, hdec, htext⟩
    obtain ⟨first, hfold⟩ := (foldlM_decodeLabel labels).mpr htext
    exact ⟨first, jumps, labels, hjumps, hdec, hfold⟩

lemma decodeDnsName_isSome_iff (packet : Bytes) (start : ℕ) :
    (decodeDnsName packet start).isSome ↔ ∃ jumps labels, jumps ≤ maxJumps ∧
      Decodes packet start jumps labels ∧ labelOctets labels ≤ 254 := by
  simp only [Option.isSome_iff_exists, decodeDnsName_iff]
  constructor
  · rintro ⟨text, jumps, labels, hjumps, hdec, rfl, hlen⟩
    rw [length_lowerText] at hlen
    exact ⟨jumps, labels, hjumps, hdec, by simp only [maxDnsNameText] at hlen; omega⟩
  · rintro ⟨jumps, labels, hjumps, hdec, hlen⟩
    refine ⟨_, jumps, labels, hjumps, hdec, rfl, ?_⟩
    rw [length_lowerText, maxDnsNameText]
    omega

/-- The walker and the decoder take the same names, except for the names of exactly 256 octets
    with the one that closes them. -/
theorem skipDnsName_decodeDnsName_agree_iff (packet : Bytes) (start : ℕ) :
    ((skipDnsName packet start).isSome ↔ (decodeDnsName packet start).isSome) ↔
      ¬∃ jumps labels, jumps ≤ maxJumps ∧ Decodes packet start jumps labels ∧
        labelOctets labels + 1 = 256 := by
  rw [skipDnsName_iff, decodeDnsName_isSome_iff]
  constructor
  · rintro h ⟨jumps, labels, hjumps, hdec, hlen⟩
    obtain ⟨jumps', labels', -, hdec', hlen'⟩ := h.mp ⟨jumps, labels, hjumps, hdec, by omega⟩
    obtain ⟨-, rfl⟩ := hdec.unique hdec'
    omega
  · intro h
    constructor
    · rintro ⟨jumps, labels, hjumps, hdec, hlen⟩
      refine ⟨jumps, labels, hjumps, hdec, ?_⟩
      by_contra hlong
      exact h ⟨jumps, labels, hjumps, hdec, by omega⟩
    · rintro ⟨jumps, labels, hjumps, hdec, hlen⟩
      exact ⟨jumps, labels, hjumps, hdec, by omega⟩

def longLabels : List Label :=
  [.replicate 63 0x61, .replicate 63 0x61, .replicate 63 0x61, .replicate 62 0x61]

/-- A name that is skipped and not decoded. -/
theorem skipDnsName_without_decodeDnsName :
    (skipDnsName (wire longLabels) 0).isSome ∧ decodeDnsName (wire longLabels) 0 = none := by
  have hdec : Decodes ([] ++ wire longLabels) 0 0 longLabels :=
    decodes_wire (by simp [longLabels]) []
  have hlen : labelOctets longLabels = 255 := by simp [longLabels]
  constructor
  · exact (skipDnsName_iff _ _).mpr ⟨0, longLabels, by decide, hdec, hlen.le⟩
  · rw [← Option.not_isSome_iff_eq_none, decodeDnsName_isSome_iff]
    rintro ⟨jumps, labels, -, hdec', hshort⟩
    obtain ⟨-, rfl⟩ := hdec.unique hdec'
    omega

-- ══ Hosts of the policy

inductive ParseError
  | invalidHost
  | invalidCidr
  | invalidBoundService
  | invalidBoundServiceName
  deriving DecidableEq

def dash : UInt8 := 0x2d

def isAlphanumeric (c : UInt8) : Bool :=
  (0x30 ≤ c ∧ c ≤ 0x39) ∨ (0x41 ≤ c ∧ c ≤ 0x5a) ∨ (0x61 ≤ c ∧ c ≤ 0x7a)

def validateLabels : Bytes → ℕ → UInt8 → Except ParseError Unit
  | [], labelLen, prev => if labelLen = 0 ∨ prev = dash then .error .invalidHost else .ok ()
  | c :: rest, labelLen, prev =>
    if c = dot then
      if labelLen = 0 ∨ prev = dash then .error .invalidHost else validateLabels rest 0 c
    else if ¬(isAlphanumeric c ∨ c = dash) then .error .invalidHost
    else if labelLen = 0 ∧ c = dash then .error .invalidHost
    else if 63 < labelLen + 1 then .error .invalidHost
    else validateLabels rest (labelLen + 1) c

def validateHost (raw : Bytes) : Except ParseError Unit :=
  if raw.length = 0 ∨ 253 < raw.length then .error .invalidHost else validateLabels raw 0 0

lemma ne_nil_of_validateHost {host : Bytes} (h : validateHost host = .ok ()) : host ≠ [] := by
  rintro rfl
  simp [validateHost] at h

def eqlIgnoreCase (a b : Bytes) : Bool := a.map toLower == b.map toLower

/-- One more label of `dnsNameMatchesHost`: whether a label came before, and how much of the host
    was compared. -/
def matchLabel (host : Bytes) (state : Bool × ℕ) (label : Label) : Option (Bool × ℕ) :=
  let (firstLabel, hostI) := state
  if ¬firstLabel ∧ host[hostI]? ≠ some dot then none
  else
    let hostI := hostI + (!firstLabel).toNat
    if host.length < hostI + label.length then none
    else if ¬eqlIgnoreCase label ((host.drop hostI).take label.length) then none
    else some (false, hostI + label.length)

def dnsNameMatchesHost (packet : Bytes) (start : ℕ) (host : Bytes) : Bool :=
  match walkName packet (matchLabel host) start 0 none (true, 0) with
  | none => false
  | some ((_, hostI), _) => hostI == host.length

lemma matchLabel_rest (host : Bytes) (hostI : ℕ) (label : Label) {next : Bool × ℕ} :
    matchLabel host (false, hostI) label = some next ↔
      next = (false, hostI + 1 + label.length) ∧ hostI + 1 + label.length ≤ host.length ∧
      host[hostI]? = some dot ∧
      label.map toLower = ((host.drop (hostI + 1)).take label.length).map toLower := by
  simp only [matchLabel, eqlIgnoreCase]
  grind

lemma matchLabel_first (host : Bytes) (label : Label) {next : Bool × ℕ} :
    matchLabel host (true, 0) label = some next ↔
      next = (false, label.length) ∧ label.length ≤ host.length ∧
      label.map toLower = (host.take label.length).map toLower := by
  simp only [matchLabel, eqlIgnoreCase]
  grind

lemma append_eq_map_drop (host front back : Bytes) {hostI : ℕ} (hbound : hostI ≤ host.length) :
    front ++ back = (host.drop hostI).map toLower ↔
      hostI + front.length ≤ host.length ∧
      front = ((host.drop hostI).take front.length).map toLower ∧
      back = (host.drop (hostI + front.length)).map toLower := by
  constructor
  · intro h
    have hlen := congrArg length h
    simp only [length_append, length_map, length_drop] at hlen
    refine ⟨by omega, ?_, ?_⟩
    · rw [map_take, ← h, take_left]
    · rw [← drop_drop, map_drop, ← h, drop_left]
  · rintro ⟨-, hfront, hback⟩
    rw [hback, ← drop_drop]
    nth_rewrite 1 [hfront]
    rw [← map_append, take_append_drop]

lemma dot_cons_eq_map_take {host : Bytes} {hostI : ℕ} (label : Label)
    (hbound : hostI < host.length) :
    (dot :: label).map toLower = ((host.drop hostI).take (label.length + 1)).map toLower ↔
      host[hostI]? = some dot ∧
      label.map toLower = ((host.drop (hostI + 1)).take label.length).map toLower := by
  rw [drop_eq_getElem_cons hbound, take_succ_cons, map_cons, map_cons,
    List.cons.injEq, toLower_dot, eq_comm, toLower_eq_dot, List.getElem?_eq_getElem hbound,
    Option.some.injEq]

lemma foldlM_matchLabel_rest (host : Bytes) (labels : List Label) {hostI : ℕ}
    (hbound : hostI ≤ host.length) :
    (∃ first, labels.foldlM (matchLabel host) (false, hostI) = some (first, host.length)) ↔
      (labels.flatMap (dot :: ·)).map toLower = (host.drop hostI).map toLower := by
  induction labels generalizing hostI with
  | nil =>
    simp only [foldlM_nil, Option.pure_def, Option.some.injEq, Prod.mk.injEq, exists_eq_left',
      flatMap_nil, map_nil, eq_comm (a := ([] : Bytes)), map_eq_nil_iff,
      drop_eq_nil_iff]
    omega
  | cons label rest ih =>
    rw [flatMap_cons, map_append, append_eq_map_drop host _ _ hbound]
    simp only [foldlM_cons, Option.bind_eq_bind, Option.bind_eq_some_iff, matchLabel_rest,
      length_map, length_cons]
    constructor
    · rintro ⟨first, _, ⟨rfl, hlen, hdot, hlabel⟩, hrest⟩
      refine ⟨by omega, (dot_cons_eq_map_take label (by omega)).mpr ⟨hdot, hlabel⟩, ?_⟩
      rw [show hostI + (label.length + 1) = hostI + 1 + label.length by omega]
      exact (ih hlen).mp ⟨first, hrest⟩
    · rintro ⟨hlen, hfront, hback⟩
      obtain ⟨hdot, hlabel⟩ := (dot_cons_eq_map_take label (by omega)).mp hfront
      rw [show hostI + (label.length + 1) = hostI + 1 + label.length by omega] at hlen hback
      obtain ⟨first, hrest⟩ := (ih hlen).mpr hback
      exact ⟨first, _, ⟨rfl, hlen, hdot, hlabel⟩, hrest⟩

lemma foldlM_matchLabel (host : Bytes) (labels : List Label) :
    (∃ first, labels.foldlM (matchLabel host) (true, 0) = some (first, host.length)) ↔
      lowerText labels = host.map toLower := by
  cases labels with
  | nil =>
    simp only [foldlM_nil, Option.pure_def, Option.some.injEq, Prod.mk.injEq, exists_eq_left',
      lowerText, joined_nil, map_nil, eq_comm (a := ([] : Bytes)), map_eq_nil_iff]
    exact eq_comm.trans length_eq_zero_iff
  | cons label rest =>
    have hsplit := append_eq_map_drop host (label.map toLower)
      ((rest.flatMap (dot :: ·)).map toLower) (Nat.zero_le _)
    simp only [drop_zero, Nat.zero_add, length_map] at hsplit
    rw [lowerText_cons, hsplit]
    simp only [foldlM_cons, Option.bind_eq_bind, Option.bind_eq_some_iff, matchLabel_first]
    constructor
    · rintro ⟨first, _, ⟨rfl, hlen, hlabel⟩, hrest⟩
      exact ⟨hlen, hlabel, (foldlM_matchLabel_rest host rest hlen).mp ⟨first, hrest⟩⟩
    · rintro ⟨hlen, hlabel, hback⟩
      obtain ⟨first, hrest⟩ := (foldlM_matchLabel_rest host rest hlen).mpr hback
      exact ⟨first, _, ⟨rfl, hlen, hlabel⟩, hrest⟩

lemma dnsNameMatchesHost_iff (packet : Bytes) (start : ℕ) (host : Bytes) :
    dnsNameMatchesHost packet start host = true ↔ ∃ jumps labels, jumps ≤ maxJumps ∧
      Decodes packet start jumps labels ∧ lowerText labels = host.map toLower := by
  have hwalk : dnsNameMatchesHost packet start host = true ↔ ∃ first at',
      walkName packet (matchLabel host) start 0 none (true, 0) =
        some ((first, host.length), at') := by
    unfold dnsNameMatchesHost
    grind
  simp only [hwalk, walkName_iff (Nat.zero_le maxJumps), Nat.zero_add]
  constructor
  · rintro ⟨first, jumps, labels, hjumps, hdec, hfold⟩
    exact ⟨jumps, labels, hjumps, hdec, (foldlM_matchLabel host labels).mp ⟨first, hfold⟩⟩
  · rintro ⟨jumps, labels, hjumps, hdec, htext⟩
    obtain ⟨first, hfold⟩ := (foldlM_matchLabel host labels).mpr htext
    exact ⟨first, jumps, labels, hjumps, hdec, hfold⟩

def HasLabelsOf (labels : List Label) (host : Bytes) : Prop :=
  labels.map (map toLower) = (host.splitOn dot).map (map toLower)

instance (labels : List Label) (host : Bytes) : Decidable (HasLabelsOf labels host) :=
  inferInstanceAs (Decidable (_ = _))

lemma lowerText_eq (labels : List Label) :
    lowerText labels = [dot].intercalate (labels.map (map toLower)) := by
  rw [lowerText, joined, Separated.map_intercalate, toLower_dot]

lemma dot_mem_map_toLower {text : Bytes} : dot ∈ text.map toLower ↔ dot ∈ text := by
  simp [toLower_eq_dot]

lemma hasLabelsOf_iff {labels : List Label} {host : Bytes} (hhost : host ≠ []) :
    HasLabelsOf labels host ↔
      lowerText labels = host.map toLower ∧ ∀ label ∈ labels, dot ∉ label := by
  have hparts : [dot].intercalate ((host.splitOn dot).map (map toLower)) = host.map toLower := by
    rw [← lowerText_eq, lowerText, joined, intercalate_splitOn]
  have hfree : ∀ part ∈ (host.splitOn dot).map (map toLower), dot ∉ part := by
    intro part hpart
    obtain ⟨raw, hraw, rfl⟩ := mem_map.mp hpart
    rw [dot_mem_map_toLower]
    exact Separated.not_mem_of_mem_splitOn dot host raw hraw
  constructor
  · intro h
    refine ⟨by rw [lowerText_eq, h, hparts], fun label hlabel hdot => ?_⟩
    have hmem := mem_map_of_mem (f := map toLower) hlabel
    rw [h] at hmem
    exact hfree _ hmem (dot_mem_map_toLower.mpr hdot)
  · rintro ⟨htext, hdots⟩
    have hne : labels ≠ [] := by
      rintro rfl
      exact hhost (map_eq_nil_iff.mp htext.symm)
    have hfree' : ∀ part ∈ labels.map (map toLower), dot ∉ part := by
      intro part hpart
      obtain ⟨label, hlabel, rfl⟩ := mem_map.mp hpart
      rw [dot_mem_map_toLower]
      exact hdots label hlabel
    refine Separated.intercalate_inj (by simpa using hne) (by simp) hfree' hfree ?_
    rw [← lowerText_eq, htext, hparts]

/-- A host of the policy matches exactly the names that have its labels, except where a name of
    the same text has a dot inside of a label or is reached through too many pointers, and not
    both. -/
theorem dnsNameMatchesHost_labels_iff (packet : Bytes) (start : ℕ) (host : Bytes)
    (hhost : validateHost host = .ok ()) : (dnsNameMatchesHost packet start host = true ↔
      ∃ jumps labels, Decodes packet start jumps labels ∧ HasLabelsOf labels host) ↔
    ∀ jumps labels, Decodes packet start jumps labels → lowerText labels = host.map toLower →
      (jumps ≤ maxJumps ↔ ∀ label ∈ labels, dot ∉ label) := by
  simp only [dnsNameMatchesHost_iff, hasLabelsOf_iff (ne_nil_of_validateHost hhost)]
  constructor
  · intro h jumps labels hdec htext
    constructor
    · intro hjumps
      obtain ⟨_, _, hdec', -, hfree⟩ := h.mp ⟨jumps, labels, hjumps, hdec, htext⟩
      rwa [(hdec.unique hdec').2]
    · intro hfree
      obtain ⟨_, _, hjumps, hdec', -⟩ := h.mpr ⟨jumps, labels, hdec, htext, hfree⟩
      rwa [(hdec.unique hdec').1]
  · intro h
    constructor
    · rintro ⟨jumps, labels, hjumps, hdec, htext⟩
      exact ⟨jumps, labels, hdec, htext, (h jumps labels hdec htext).mp hjumps⟩
    · rintro ⟨jumps, labels, hdec, htext, hfree⟩
      exact ⟨jumps, labels, (h jumps labels hdec htext).mpr hfree, hdec, htext⟩

def sampleHost : Bytes := [0x61, dot, 0x62]

theorem dnsNameMatchesHost_labels_two : validateHost sampleHost = .ok () ∧
      (dnsNameMatchesHost ([] ++ wire [[0x61], [0x62]]) 0 sampleHost = true ↔
        ∃ jumps labels, Decodes ([] ++ wire [[0x61], [0x62]]) 0 jumps labels ∧
          HasLabelsOf labels sampleHost) := by
  have hhost : validateHost sampleHost = .ok () := by decide
  have hdec : Decodes ([] ++ wire [[0x61], [0x62]]) 0 0 [[0x61], [0x62]] :=
    decodes_wire (by simp) []
  refine ⟨hhost, (dnsNameMatchesHost_labels_iff _ 0 sampleHost hhost).mpr ?_⟩
  intro jumps labels hdec' _
  obtain ⟨rfl, rfl⟩ := hdec.unique hdec'
  simp [dot]

/-- A name of one label with a dot in it is taken for a host of two labels. -/
theorem dnsNameMatchesHost_dotted_label : validateHost sampleHost = .ok () ∧
      dnsNameMatchesHost ([] ++ wire [sampleHost]) 0 sampleHost = true ∧
      ¬∃ jumps labels, Decodes ([] ++ wire [sampleHost]) 0 jumps labels ∧
        HasLabelsOf labels sampleHost := by
  have hhost : validateHost sampleHost = .ok () := by decide
  have hdec : Decodes ([] ++ wire [sampleHost]) 0 0 [sampleHost] :=
    decodes_wire (by simp [sampleHost]) []
  refine ⟨hhost, ?_, ?_⟩
  · exact (dnsNameMatchesHost_iff _ 0 sampleHost).mpr ⟨0, _, by decide, hdec, by decide⟩
  · rintro ⟨jumps, labels, hdec', hlabels⟩
    obtain ⟨-, rfl⟩ := hdec.unique hdec'
    exact absurd hlabels (by decide)

end SporeVM.Netd
