import SporeVM.Lib.Separated

/-!
# Names on the wire

A domain name on the wire is a run of labels. Each label has a length octet in front, and the octet
zero closes the run. A length octet whose two high bits are set is the first half of a *pointer*:
the name goes on at the offset that the rest of the two octets give, anywhere in the packet.

`Decodes` is this reading as a relation, with the number of pointers that were followed. A packet
has at most one name at an offset (`Decodes.unique`), and no bound on its length or its pointers is
part of the relation.
-/

namespace Lib.DomainName

open List

abbrev Label := List UInt8

def pointerTarget (high low : UInt8) : ℕ := (high &&& 0x3f).toNat <<< 8 ||| low.toNat

/-- The name at an offset of the packet has these labels and is reached through so many pointers. -/
inductive Decodes (packet : List UInt8) : ℕ → ℕ → List Label → Prop
  | root {offset : ℕ} (hlen : packet[offset]? = some 0) : Decodes packet offset 0 []
  | label {offset jumps : ℕ} {len : UInt8} {labels : List Label}
      (hlen : packet[offset]? = some len) (hplain : len &&& 0xc0 = 0) (hpos : len ≠ 0)
      (hfits : offset + 1 + len.toNat ≤ packet.length)
      (rest : Decodes packet (offset + 1 + len.toNat) jumps labels) :
      Decodes packet offset jumps ((packet.drop (offset + 1)).take len.toNat :: labels)
  | pointer {offset jumps : ℕ} {high low : UInt8} {labels : List Label}
      (hhigh : packet[offset]? = some high) (hlow : packet[offset + 1]? = some low)
      (hset : high &&& 0xc0 = 0xc0) (rest : Decodes packet (pointerTarget high low) jumps labels) :
      Decodes packet offset (jumps + 1) labels

namespace Decodes

variable {packet : List UInt8} {offset jumps : ℕ} {len : UInt8} {labels : List Label}

lemma iff_root (hlen : packet[offset]? = some 0) :
    Decodes packet offset jumps labels ↔ jumps = 0 ∧ labels = [] := by
  constructor
  · intro h
    cases h with
    | root => exact ⟨rfl, rfl⟩
    | label hlen' _ hpos => exact absurd (Option.some.inj (hlen'.symm.trans hlen)) hpos
    | pointer hhigh _ hset =>
      rw [Option.some.inj (hhigh.symm.trans hlen)] at hset
      exact absurd hset (by decide)
  · rintro ⟨rfl, rfl⟩
    exact .root hlen

lemma iff_label (hlen : packet[offset]? = some len) (hplain : len &&& 0xc0 = 0) (hpos : len ≠ 0) :
    Decodes packet offset jumps labels ↔ offset + 1 + len.toNat ≤ packet.length ∧
      ∃ rest, labels = (packet.drop (offset + 1)).take len.toNat :: rest ∧
        Decodes packet (offset + 1 + len.toNat) jumps rest := by
  constructor
  · intro h
    cases h with
    | root hlen' => exact absurd (Option.some.inj (hlen.symm.trans hlen')) hpos
    | label hlen' _ _ hfits rest =>
      obtain rfl := Option.some.inj (hlen.symm.trans hlen')
      exact ⟨hfits, _, rfl, rest⟩
    | pointer hhigh _ hset =>
      rw [Option.some.inj (hhigh.symm.trans hlen), hplain] at hset
      exact absurd hset (by decide)
  · rintro ⟨hfits, rest, rfl, hrest⟩
    exact .label hlen hplain hpos hfits hrest

lemma iff_pointer {high low : UInt8} (hhigh : packet[offset]? = some high)
    (hlow : packet[offset + 1]? = some low) (hset : high &&& 0xc0 = 0xc0) :
    Decodes packet offset jumps labels ↔
      ∃ rest, jumps = rest + 1 ∧ Decodes packet (pointerTarget high low) rest labels := by
  constructor
  · intro h
    cases h with
    | root hlen =>
      rw [Option.some.inj (hhigh.symm.trans hlen)] at hset
      exact absurd hset (by decide)
    | label hlen hplain =>
      rw [Option.some.inj (hhigh.symm.trans hlen), hplain] at hset
      exact absurd hset (by decide)
    | pointer hhigh' hlow' _ rest =>
      obtain rfl := Option.some.inj (hhigh.symm.trans hhigh')
      obtain rfl := Option.some.inj (hlow.symm.trans hlow')
      exact ⟨_, rfl, rest⟩
  · rintro ⟨rest, rfl, hrest⟩
    exact .pointer hhigh hlow hset hrest

variable (h : Decodes packet offset jumps labels)

include h

lemma unique {jumps' : ℕ} {labels' : List Label}
    (h' : Decodes packet offset jumps' labels') : jumps = jumps' ∧ labels = labels' := by
  induction h generalizing jumps' labels' with
  | root hlen =>
    obtain ⟨rfl, rfl⟩ := (iff_root hlen).mp h'
    exact ⟨rfl, rfl⟩
  | label hlen hplain hpos _ _ ih =>
    obtain ⟨-, rest, rfl, hrest⟩ := (iff_label hlen hplain hpos).mp h'
    obtain ⟨rfl, rfl⟩ := ih hrest
    exact ⟨rfl, rfl⟩
  | pointer hhigh hlow hset _ ih =>
    obtain ⟨rest, rfl, hrest⟩ := (iff_pointer hhigh hlow hset).mp h'
    obtain ⟨rfl, rfl⟩ := ih hrest
    exact ⟨rfl, rfl⟩

lemma lt_length : offset < packet.length := by
  cases h with
  | root hlen => exact (List.getElem?_eq_some_iff.mp hlen).1
  | label hlen => exact (List.getElem?_eq_some_iff.mp hlen).1
  | pointer hhigh => exact (List.getElem?_eq_some_iff.mp hhigh).1

lemma high_bits (hlen : packet[offset]? = some len) :
    len &&& 0xc0 = 0 ∨ len &&& 0xc0 = 0xc0 ∧ offset + 1 < packet.length := by
  cases h with
  | root hlen' =>
    rw [Option.some.inj (hlen.symm.trans hlen')]
    exact .inl (by decide)
  | label hlen' hplain =>
    rw [Option.some.inj (hlen.symm.trans hlen')]
    exact .inl hplain
  | pointer hhigh hlow hset =>
    rw [Option.some.inj (hlen.symm.trans hhigh)]
    exact .inr ⟨hset, (List.getElem?_eq_some_iff.mp hlow).1⟩

end Decodes

-- ══ The size of a name and its text

def labelOctets (labels : List Label) : ℕ := (labels.map fun label => label.length + 1).sum

@[simp] lemma labelOctets_nil : labelOctets [] = 0 := rfl

@[simp] lemma labelOctets_cons (label : Label) (labels : List Label) :
    labelOctets (label :: labels) = label.length + 1 + labelOctets labels := by
  simp [labelOctets]

def joined (sep : UInt8) (labels : List Label) : List UInt8 := [sep].intercalate labels

@[simp] lemma joined_nil (sep : UInt8) : joined sep [] = [] := rfl

lemma joined_cons (sep : UInt8) (label : Label) (labels : List Label) :
    joined sep (label :: labels) = label ++ labels.flatMap (sep :: ·) :=
  Separated.intercalate_cons sep label labels

lemma length_flatMap_cons (sep : UInt8) (labels : List Label) :
    (labels.flatMap (sep :: ·)).length = labelOctets labels := by
  simp [length_flatMap, labelOctets]

lemma length_joined (sep : UInt8) (labels : List Label) :
    (joined sep labels).length = labelOctets labels - 1 := by
  cases labels with
  | nil => rfl
  | cons label rest =>
    simp only [joined_cons, length_append, length_flatMap_cons, labelOctets_cons]
    omega

-- ══ Writing a name

def wire (labels : List Label) : List UInt8 :=
  labels.flatMap (fun label => UInt8.ofNat label.length :: label) ++ [0]

lemma wire_cons (label : Label) (labels : List Label) :
    wire (label :: labels) = UInt8.ofNat label.length :: (label ++ wire labels) := by
  simp [wire]

lemma plain_of_le {n : ℕ} (hpos : 0 < n) (hle : n ≤ 63) :
    UInt8.ofNat n &&& 0xc0 = 0 ∧ UInt8.ofNat n ≠ 0 ∧ (UInt8.ofNat n).toNat = n := by
  interval_cases n <;> decide

lemma decodes_wire {labels : List Label}
    (hsize : ∀ label ∈ labels, label ≠ [] ∧ label.length ≤ 63) (front : List UInt8) :
    Decodes (front ++ wire labels) front.length 0 labels := by
  induction labels generalizing front with
  | nil => exact .root (by simp [wire])
  | cons label rest ih =>
    obtain ⟨hne, hle⟩ := hsize label mem_cons_self
    obtain ⟨hplain, hpos, hlen⟩ := plain_of_le (length_pos_iff.mpr hne) hle
    have hrest := ih (fun l hl => hsize l (mem_cons_of_mem _ hl))
      (front ++ (UInt8.ofNat label.length :: label))
    rw [append_assoc, cons_append, ← wire_cons] at hrest
    have hread : ((front ++ wire (label :: rest)).drop (front.length + 1)).take
        (UInt8.ofNat label.length).toNat = label := by
      rw [hlen, wire_cons, ← drop_drop, drop_left]
      simp
    have hfirst : (front ++ wire (label :: rest))[front.length]? =
        some (UInt8.ofNat label.length) := by simp [wire_cons]
    refine (Decodes.iff_label hfirst hplain hpos).mpr ⟨?_, rest, by rw [hread], ?_⟩
    · simp only [hlen, wire_cons, length_append, length_cons]
      omega
    · rw [hlen]
      simpa [Nat.add_assoc, Nat.add_comm 1] using hrest

end Lib.DomainName
