import SporeVM.Virtio.Queue

/-!
# Descriptor chains

What `popAvail` makes of a descriptor table that the guest has filled in as it likes. The table is
read descriptor by descriptor while other CPUs may be storing into it, so that "the descriptors that
are reached" are those that the reads find: `GuestRam.descriptor` gives what is found together with
the memory that is left for the next read.
-/

namespace SporeVM.Virtio

open Lib
open Lib.EState (rejectIf Keeps Triple outcome bind_ok bind_run rejectIf_ok bind_error
  rejectIf_error rejectIf_bind_ok)
open Function (update)

variable {idx table : ℕ} {ram' : GuestRam} {e : QueueError}

-- ══ Ranges of guest memory

def GuestRange.Inside (r : GuestRange) (ram : GuestRam) : Prop :=
  ∀ a, r.Has a → ram.base ≤ a ∧ a < ram.base + ram.size

variable {ram : GuestRam} {len : ℕ}

lemma GuestRange.Inside.part {addr addr' len' : ℕ} (h : (GuestRange.mk addr len).Inside ram)
    (hlo : addr ≤ addr') (hhi : addr' + len' ≤ addr + len) : (GuestRange.mk addr' len').Inside ram
    :=
  fun a ha => h a ⟨hlo.trans ha.1, ha.2.trans_le hhi⟩

lemma GuestRange.Inside.of_eq {r : GuestRange} (h : r.Inside ram) (hbase : ram'.base = ram.base)
    (hsize : ram'.size = ram.size) : r.Inside ram' := by
  intro a ha
  rw [hbase, hsize]
  exact h a ha

namespace GuestRam

variable {gpa : ℕ}

@[simp] lemma settle_base : ram.settle.base = ram.base := by
  unfold settle
  split <;> rfl

@[simp] lemma settle_size : ram.settle.size = ram.size := by
  unfold settle
  split <;> rfl

@[simp] lemma settle_reads : ram.settle.reads = ram.reads := by
  unfold settle
  split <;> rfl

@[simp] lemma markDirty_base : (ram.markDirty gpa len).base = ram.base := by
  unfold markDirty
  split <;> rfl

@[simp] lemma markDirty_size : (ram.markDirty gpa len).size = ram.size := by
  unfold markDirty
  split <;> rfl

lemma slice_isSome_iff : (ram.slice gpa len).isSome = true ↔
    (GuestRange.mk gpa len).Inside ram := by
  unfold slice GuestRange.Inside GuestRange.Has
  constructor
  · intro h a ha
    simp only at ha
    split_ifs at h with hempty hlow hhigh hlen
    · omega
    · simp at h
    · simp at h
    · simp at h
    · omega
  · intro h
    by_cases hempty : len = 0
    · rw [if_pos hempty]
      rfl
    · have hfirst := h gpa ⟨le_rfl, by simp only; omega⟩
      have hlast := h (gpa + len - 1) ⟨by simp only; omega, by simp only; omega⟩
      rw [if_neg hempty, if_neg (by omega), if_neg (by omega), if_neg (by omega)]
      rfl

def fetch (ram : GuestRam) (gpa len : ℕ) : ℕ × GuestRam :=
  (ofLittleEndian (ram.settle.bytesAt gpa len), ram.settle.noteRead gpa len)

@[simp] lemma fetch_base : (ram.fetch gpa len).2.base = ram.base := settle_base

@[simp] lemma fetch_size : (ram.fetch gpa len).2.size = ram.size := settle_size

end GuestRam

namespace Queue

open GuestRam (slice_isSome_iff)

-- ══ What is found in the rings

structure Descriptor where
  addr : ℕ
  len : ℕ
  flags : ℕ
  next : ℕ

namespace Descriptor

def hasNext (d : Descriptor) : Bool := d.flags.testBit 0

def isIndirect (d : Descriptor) : Bool := d.flags.testBit 2

def segment (d : Descriptor) : Segment := ⟨d.addr, d.len, d.flags.testBit 1⟩

end Descriptor

def descriptorAt (ram : GuestRam) (table idx : ℕ) : Descriptor × GuestRam :=
  let addr := ram.fetch (table + 16 * idx) 8
  let len := addr.2.fetch (table + 16 * idx + 8) 4
  let flags := len.2.fetch (table + 16 * idx + 12) 2
  let next := flags.2.fetch (table + 16 * idx + 14) 2
  (⟨addr.1, len.1, flags.1, next.1⟩, next.2)

@[simp] lemma descriptorAt_base (ram : GuestRam) (table idx : ℕ) :
    (descriptorAt ram table idx).2.base = ram.base := by
  simp [descriptorAt]

@[simp] lemma descriptorAt_size (ram : GuestRam) (table idx : ℕ) :
    (descriptorAt ram table idx).2.size = ram.size := by
  simp [descriptorAt]

def Published (q : VirtQueue) (ram : GuestRam) : Prop :=
  (ram.fetch (q.availAddr + 2) 2).1 ≠ q.lastAvail

/-- The head in the next slot of the available ring, which is read after the ring's index, and
memory afterwards. -/
def entryAt (q : VirtQueue) (ram : GuestRam) : ℕ × GuestRam :=
  (ram.fetch (q.availAddr + 2) 2).2.fetch (q.availAddr + (4 + 2 * (q.lastAvail % q.size))) 2

structure Fit (q : VirtQueue) (ram : GuestRam) (idx : ℕ) : Prop where
  index : idx < q.size
  direct : (descriptorAt ram q.descAddr idx).1.isIndirect = false
  buffer : (descriptorAt ram q.descAddr idx).1.segment.range.Inside ram

/-- The segments of the descriptors that are reached from `idx` by the NEXT flags, each of which can
be used. -/
inductive Follows (q : VirtQueue) : GuestRam → ℕ → List Segment → Prop
  | last {ram : GuestRam} {idx : ℕ} (hfit : Fit q ram idx)
      (hlast : (descriptorAt ram q.descAddr idx).1.hasNext = false) :
      Follows q ram idx [(descriptorAt ram q.descAddr idx).1.segment]
  | next {ram : GuestRam} {idx : ℕ} {segments : List Segment} (hfit : Fit q ram idx)
      (hnext : (descriptorAt ram q.descAddr idx).1.hasNext = true)
      (hrest : Follows q (descriptorAt ram q.descAddr idx).2
        (descriptorAt ram q.descAddr idx).1.next segments) :
      Follows q ram idx ((descriptorAt ram q.descAddr idx).1.segment :: segments)

def link (table : ℕ) : ℕ → GuestRam → ℕ → Option ℕ
  | 0, _, idx => some idx
  | n + 1, ram, idx =>
    if (descriptorAt ram table idx).1.hasNext then
      link table n (descriptorAt ram table idx).2 (descriptorAt ram table idx).1.next
    else none

variable {q : VirtQueue}

lemma Follows.link_eq_none {segments : List Segment} (h : Follows q ram idx segments) :
    ∀ {n : ℕ}, segments.length ≤ n → link q.descAddr n ram idx = none := by
  induction h with
  | last _ hlast =>
    intro n hn
    obtain ⟨n, rfl⟩ : ∃ k, n = k + 1 := ⟨n - 1, by simp at hn; omega⟩
    simp [link, hlast]
  | next _ hnext _ ih =>
    intro n hn
    obtain ⟨n, rfl⟩ : ∃ k, n = k + 1 := ⟨n - 1, by simp at hn; omega⟩
    rw [link, if_pos hnext]
    exact ih (by simpa using hn)

-- ══ Lists in memory that nobody writes

structure SameStill (ram ram' : GuestRam) : Prop where
  byte : ram'.byte = ram.byte
  still : ram.others = []
  still' : ram'.others = []

namespace SameStill

variable {ram ram' : GuestRam} (h : SameStill ram ram')

include h

lemma fetch_eq (gpa len : ℕ) : (ram'.fetch gpa len).1 = (ram.fetch gpa len).1 := by
  simp only [GuestRam.fetch, GuestRam.settle, GuestRam.bytesAt, h.still, h.still', h.byte]

lemma fetch (gpa len gpa' len' : ℕ) : SameStill (ram.fetch gpa len).2 (ram'.fetch gpa' len').2 := by
  constructor <;>
    simp only [GuestRam.fetch, GuestRam.settle, GuestRam.noteRead, h.still, h.still', h.byte]

lemma after_fetch (gpa len : ℕ) : SameStill ram (ram'.fetch gpa len).2 := by
  constructor <;>
    simp only [GuestRam.fetch, GuestRam.settle, GuestRam.noteRead, h.still, h.still', h.byte]

lemma descriptorAt_eq (table idx : ℕ) :
    (descriptorAt ram' table idx).1 = (descriptorAt ram table idx).1 := by
  have hlen := h.fetch (table + 16 * idx) 8 (table + 16 * idx) 8
  have hflags := hlen.fetch (table + 16 * idx + 8) 4 (table + 16 * idx + 8) 4
  have hnext := hflags.fetch (table + 16 * idx + 12) 2 (table + 16 * idx + 12) 2
  simp only [Queue.descriptorAt]
  rw [h.fetch_eq, hlen.fetch_eq, hflags.fetch_eq, hnext.fetch_eq]

lemma descriptorAt (table idx : ℕ) : SameStill ram (Queue.descriptorAt ram' table idx).2 :=
  (((h.after_fetch (table + 16 * idx) 8).after_fetch (table + 16 * idx + 8) 4).after_fetch
    (table + 16 * idx + 12) 2).after_fetch (table + 16 * idx + 14) 2

lemma link_eq {n : ℕ} (idx : ℕ) : link table n ram' idx = link table n ram idx := by
  induction n generalizing ram ram' idx with
  | zero => rfl
  | succ n ih =>
    have hself : SameStill ram ram := ⟨rfl, h.still, h.still⟩
    have hleft := ih (h.descriptorAt table idx) (Queue.descriptorAt ram table idx).1.next
    have hright := ih (hself.descriptorAt table idx) (Queue.descriptorAt ram table idx).1.next
    simp only [link]
    rw [h.descriptorAt_eq, hleft, hright]

end SameStill

lemma link_add (hstill : ram.others = []) :
    ∀ (n k idx : ℕ), link table (n + k) ram idx = (link table n ram idx).bind (link table k ram)
  | 0, k, idx => by rw [Nat.zero_add, link, Option.bind_some]
  | n + 1, k, idx => by
    have hself : SameStill ram ram := ⟨rfl, hstill, hstill⟩
    have hafter := hself.descriptorAt table idx
    rw [Nat.add_right_comm, link, link, hafter.link_eq, hafter.link_eq, link_add hstill n k]
    split <;> rfl

def Cyclic (table : ℕ) (ram : GuestRam) (head : ℕ) : Prop :=
  ram.others = [] ∧ ∃ before period idx, 0 < period ∧ link table before ram head = some idx ∧
    link table period ram idx = some idx

lemma link_mul_period {table : ℕ} {ram : GuestRam} (hstill : ram.others = []) {period idx : ℕ}
    (h : link table period ram idx = some idx) : ∀ n, link table (n * period) ram idx = some idx
  | 0 => by rw [Nat.zero_mul, link]
  | n + 1 => by rw [Nat.succ_mul, link_add hstill, link_mul_period hstill h n, Option.bind_some, h]

lemma Cyclic.link_isSome {head : ℕ} (h : Cyclic table ram head) (n : ℕ) :
    (link table n ram head).isSome = true := by
  obtain ⟨hstill, before, period, idx, hperiod, hbefore, hcycle⟩ := h
  -- a multiple of the period takes the list beyond `n`
  have hlong : (link table (before + n * period) ram head).isSome = true := by
    rw [link_add hstill, hbefore, Option.bind_some, link_mul_period hstill hcycle]
    rfl
  have hle : n ≤ before + n * period := le_add_left (Nat.le_mul_of_pos_right n hperiod)
  obtain ⟨k, hk⟩ := Nat.exists_eq_add_of_le hle
  rw [hk, link_add hstill] at hlong
  cases hlink : link table n ram head with
  | none => simp [hlink] at hlong
  | some _ => rfl

-- ══ The walk

section Walk

variable {D : Type} {m m' : Machine D} {gpa : ℕ}

lemma checkSlice_inside (h : (GuestRange.mk gpa len).Inside m.ram) :
    checkSlice gpa len m = .ok () m := by
  have hsome := slice_isSome_iff.mpr h
  refine bind_ok.mpr ⟨m, m, rfl, rejectIf_ok.mpr ⟨?_, rfl⟩⟩
  rw [Option.isNone_iff_eq_none]
  exact Option.isSome_iff_ne_none.mp hsome

lemma checkSlice_outside (h : ¬ (GuestRange.mk gpa len).Inside m.ram) :
    checkSlice gpa len m = .error .outOfBounds m := by
  have hnone := mt slice_isSome_iff.mp h
  refine bind_error.mpr (.inr ⟨m, m, rfl, ?_⟩)
  rw [rejectIf, if_pos (by simpa using hnone)]
  rfl

lemma readInt_inside (h : (GuestRange.mk gpa len).Inside m.ram) :
    readInt len gpa m = .ok (m.ram.fetch gpa len).1 { m with ram := (m.ram.fetch gpa len).2 } := by
  refine bind_ok.mpr ⟨(), { m with ram := m.ram.settle }, rfl,
    bind_ok.mpr ⟨(), _, checkSlice_inside ?_, rfl⟩⟩
  exact h.of_eq GuestRam.settle_base GuestRam.settle_size

lemma readInt_outside (h : ¬ (GuestRange.mk gpa len).Inside m.ram) :
    readInt len gpa m = .error .outOfBounds { m with ram := m.ram.settle } := by
  refine bind_error.mpr (.inr ⟨(), { m with ram := m.ram.settle }, rfl,
    bind_error.mpr (.inl (checkSlice_outside fun hin => h ?_))⟩)
  exact hin.of_eq GuestRam.settle_base.symm GuestRam.settle_size.symm

lemma readInt_ok {value : ℕ} (h : readInt len gpa m = .ok value m') :
    (m.ram.fetch gpa len).1 = value ∧ { m with ram := (m.ram.fetch gpa len).2 } = m' := by
  by_cases hin : (GuestRange.mk gpa len).Inside m.ram
  · rw [readInt_inside hin] at h
    cases h
    exact ⟨rfl, rfl⟩
  · rw [readInt_outside hin] at h
    cases h

lemma checkSlice_ok {u : Unit} (h : checkSlice gpa len m = .ok u m') :
    (GuestRange.mk gpa len).Inside m.ram ∧ m = m' := by
  by_cases hin : (GuestRange.mk gpa len).Inside m.ram
  · rw [checkSlice_inside hin] at h
    cases h
    exact ⟨hin, rfl⟩
  · rw [checkSlice_outside hin] at h
    cases h

lemma checkedAdd_ok {a b sum : ℕ} (h : checkedAdd a b m = .ok sum m') : sum = a + b ∧ m = m' := by
  obtain ⟨-, h⟩ := rejectIf_bind_ok.mp h
  cases h
  exact ⟨rfl, rfl⟩

lemma ringAddr_ok {base header elemSize slot addr : ℕ}
    (h : ringAddr base header elemSize slot m = .ok addr m') :
    addr = base + (header + elemSize * slot) ∧ m = m' := by
  obtain ⟨product, _, hmul, h₁⟩ := bind_ok.mp h
  obtain ⟨-, hmul'⟩ := rejectIf_bind_ok.mp hmul
  cases hmul'
  obtain ⟨offset, _, hoffset, h₂⟩ := bind_ok.mp h₁
  obtain ⟨rfl, rfl⟩ := checkedAdd_ok hoffset
  exact checkedAdd_ok h₂

lemma descAddr_ok {addr : ℕ} (h : descAddr table idx m = .ok addr m') :
    addr = table + 16 * idx ∧ m = m' := by
  obtain ⟨haddr, hm⟩ := ringAddr_ok h
  rw [Nat.zero_add] at haddr
  exact ⟨haddr, hm⟩

lemma descFieldAddr_ok {base offset addr : ℕ} (h : descFieldAddr base offset m = .ok addr m') :
    addr = base + offset ∧ m = m' :=
  checkedAdd_ok h

lemma readDescriptor_ok {β : Type} {f : ℕ → ℕ → ℕ → ℕ → DeviceM D β} {table idx : ℕ} {b : β}
    (h : (do
      let base ← descAddr table idx
      let addr ← readInt 8 base
      let lenAddr ← descFieldAddr base 8
      let len ← readInt 4 lenAddr
      let flagsAddr ← descFieldAddr base 12
      let flags ← readInt 2 flagsAddr
      let nextAddr ← descFieldAddr base 14
      let next ← readInt 2 nextAddr
      f addr len flags next) m = .ok b m') :
    f (descriptorAt m.ram table idx).1.addr (descriptorAt m.ram table idx).1.len
      (descriptorAt m.ram table idx).1.flags (descriptorAt m.ram table idx).1.next
      { m with ram := (descriptorAt m.ram table idx).2 } = .ok b m' := by
  obtain ⟨base, _, hbase, h₁⟩ := bind_ok.mp h
  obtain ⟨rfl, rfl⟩ := descAddr_ok hbase
  obtain ⟨addr, _, haddr, h₂⟩ := bind_ok.mp h₁
  obtain ⟨rfl, rfl⟩ := readInt_ok haddr
  obtain ⟨_, _, hadd₁, h₃⟩ := bind_ok.mp h₂
  obtain ⟨rfl, rfl⟩ := descFieldAddr_ok hadd₁
  obtain ⟨len, _, hlen, h₄⟩ := bind_ok.mp h₃
  obtain ⟨rfl, rfl⟩ := readInt_ok hlen
  obtain ⟨_, _, hadd₂, h₅⟩ := bind_ok.mp h₄
  obtain ⟨rfl, rfl⟩ := descFieldAddr_ok hadd₂
  obtain ⟨flags, _, hflags, h₆⟩ := bind_ok.mp h₅
  obtain ⟨rfl, rfl⟩ := readInt_ok hflags
  obtain ⟨_, _, hadd₃, h₇⟩ := bind_ok.mp h₆
  obtain ⟨rfl, rfl⟩ := descFieldAddr_ok hadd₃
  obtain ⟨next, _, hnext, h₈⟩ := bind_ok.mp h₇
  obtain ⟨rfl, rfl⟩ := readInt_ok hnext
  exact h₈

/-- **A walk that succeeds** has followed the NEXT flags to their end. -/
theorem walkChain_ok {hops idx : ℕ} {segments out : List Segment}
    (h : walkChain q hops idx segments m = .ok out m') :
    ∃ new, out = segments ++ new ∧ new.length ≤ hops ∧ Follows q m.ram idx new := by
  induction hops generalizing idx segments m with
  | zero =>
    obtain ⟨_, _, -, h⟩ := bind_ok.mp h
    cases h
  | succ hops ih =>
    obtain ⟨hindex, h₁⟩ := rejectIf_bind_ok.mp h
    have h₂ := readDescriptor_ok h₁
    obtain ⟨hdirect, h₃⟩ := rejectIf_bind_ok.mp h₂
    obtain ⟨_, _, hcheck₂, h₄⟩ := bind_ok.mp h₃
    obtain ⟨hinside, rfl⟩ := checkSlice_ok hcheck₂
    obtain ⟨-, h₅⟩ := rejectIf_bind_ok.mp h₄
    have hfit : Fit q m.ram idx := ⟨not_le.mp hindex, Bool.eq_false_iff.mpr hdirect,
      hinside.of_eq (descriptorAt_base _ _ _).symm (descriptorAt_size _ _ _).symm⟩
    split at h₅
    · next hlast =>
      obtain ⟨rfl, -⟩ := EState.pure_ok.mp h₅
      exact ⟨_, rfl, by simp, .last hfit hlast⟩
    · next hnext =>
      obtain ⟨new, rfl, hlen, hfollows⟩ := ih h₅
      refine ⟨_ :: new, List.append_assoc _ _ _, by simpa using hlen, ?_⟩
      exact .next hfit (Bool.eq_true_of_not_eq_false hnext) hfollows

-- ══ What is read

structure ReadAtMost (ram : GuestRam) (k : ℕ) (m : Machine D) : Prop where
  base : m.ram.base = ram.base
  size : m.ram.size = ram.size
  count : m.ram.reads.length ≤ k
  inside : ∀ r ∈ m.ram.reads, r.Inside ram

lemma ReadAtMost.mono {k n : ℕ} (h : ReadAtMost ram k m) (hkn : k ≤ n) : ReadAtMost ram n m :=
  { h with count := h.count.trans hkn }

lemma readInt_atMost {k n : ℕ} (hkn : k + 1 ≤ n) (len gpa : ℕ) :
    Triple (ReadAtMost (D := D) ram k) (readInt len gpa) (fun _ => ReadAtMost ram (k + 1))
      (ReadAtMost ram n) := by
  intro m hm
  by_cases hin : (GuestRange.mk gpa len).Inside m.ram
  · rw [readInt_inside hin]
    refine ⟨by simpa using hm.base, by simpa using hm.size, ?_, fun r hr => ?_⟩
    · simpa [GuestRam.fetch, GuestRam.noteRead] using hm.count
    · simp only [GuestRam.fetch, GuestRam.noteRead, GuestRam.settle_reads, List.mem_cons] at hr
      rcases hr with rfl | hr
      · exact hin.of_eq hm.base.symm hm.size.symm
      · exact hm.inside r hr
  · rw [readInt_outside hin]
    refine ⟨by simpa using hm.base, by simpa using hm.size, ?_, ?_⟩
    · simpa using hm.count.trans (Nat.le_of_succ_le hkn)
    · simpa using hm.inside

lemma walkChain_atMost (q : VirtQueue) {n : ℕ} :
    ∀ (hops idx : ℕ) (segments : List Segment) {k : ℕ}, k + 4 * hops ≤ n →
      Triple (ReadAtMost (D := D) ram k) (walkChain q hops idx segments)
        (fun _ => ReadAtMost ram n) (ReadAtMost ram n)
  | 0, _, _, k, hk => by
    have hmono : ∀ m : Machine D, ReadAtMost ram k m → ReadAtMost ram n m := fun m h =>
      h.mono (by omega)
    exact Keeps.rejectIf.before hmono fun _ _ => fun m h => hmono m h
  | hops + 1, idx, segments, k, hk => by
    have hmono : ∀ j, j ≤ 4 → ∀ m : Machine D, ReadAtMost ram (k + j) m → ReadAtMost ram n m :=
      fun j hj m h => h.mono (by omega)
    refine Keeps.rejectIf.before (hmono 0 (by omega)) fun _ _ =>
      (ringAddr_keeps _ _ _ _).before (hmono 0 (by omega)) fun base _ =>
      (readInt_atMost (by omega) _ _).bind fun addr =>
      (checkedAdd_keeps _ _).before (hmono 1 (by omega)) fun _ _ =>
      (readInt_atMost (by omega) _ _).bind fun len =>
      (checkedAdd_keeps _ _).before (hmono 2 (by omega)) fun _ _ =>
      (readInt_atMost (by omega) _ _).bind fun flags =>
      (checkedAdd_keeps _ _).before (hmono 3 (by omega)) fun _ _ =>
      (readInt_atMost (by omega) _ _).bind fun next =>
      Keeps.rejectIf.before (hmono 4 (by omega)) fun _ _ =>
      (checkSlice_keeps _ _).before (hmono 4 (by omega)) fun _ _ =>
      Keeps.rejectIf.before (hmono 4 (by omega)) fun _ _ => ?_
    split
    · exact .pure fun m h => h.mono (by omega)
    · exact walkChain_atMost q hops next _ (by omega)

lemma popAvail_atMost (qi : ℕ) :
    Triple (ReadAtMost (D := D) ram 0) (popAvail qi)
      (fun _ => ReadAtMost ram (2 + 4 * maxChainLen)) (ReadAtMost ram (2 + 4 * maxChainLen)) := by
  have hmono : ∀ k, k ≤ 2 → ∀ m : Machine D, ReadAtMost ram k m →
      ReadAtMost ram (2 + 4 * maxChainLen) m := fun k hk m h => h.mono (by omega)
  refine (getQueue_keeps qi).before (hmono 0 (by omega)) fun q _ =>
    Keeps.rejectIf.before (hmono 0 (by omega)) fun _ _ =>
    (checkedAdd_keeps _ _).before (hmono 0 (by omega)) fun _ _ =>
    (readInt_atMost (by omega) _ _).bind fun availIdx => ?_
  split
  · exact .pure fun m h => hmono 1 (by omega) m h
  · refine (ringAddr_keeps _ _ _ _).before (hmono 1 (by omega)) fun _ _ =>
      (readInt_atMost (by omega) _ _).bind fun head =>
      Triple.bind (Triple.modify fun m h => ?_) fun _ =>
      (walkChain_atMost q _ _ _ le_rfl).bind fun _ => .pure fun _ h => h
    exact { h with }

-- ══ What a queue takes

/-- What a call of `popAvail` that ends with a reply, in a machine with nothing on record, has done:
no more than four reads for each of at most `maxChainLen` descriptors besides the two reads of the
available ring, all in guest memory; at most one entry of the ring taken, and exactly one for a
chain; a chain is what the NEXT flags lead to from the head in the next slot; and a list that has
not ended after `maxChainLen` descriptors, as a cyclic one has not, is an error. -/
structure Walks (m : Machine D) (qi : ℕ) (reply : Except QueueError (Option Chain))
    (m' : Machine D) : Prop where
  few : m'.ram.reads.length ≤ 2 + 4 * maxChainLen
  inside : ∀ r ∈ m'.ram.reads, r.Inside m.ram
  device : m'.device = m.device
  takes : m'.queues = m.queues ∨ m'.queues = update m.queues qi (m.queues qi).taken
  chain : ∀ chain, reply = .ok (some chain) →
    m'.queues = update m.queues qi (m.queues qi).taken ∧
      chain.head = (entryAt (m.queues qi) m.ram).1 ∧
      Follows (m.queues qi) (entryAt (m.queues qi) m.ram).2 chain.head chain.segments
  long : Published (m.queues qi) m.ram →
    (link (m.queues qi).descAddr maxChainLen (entryAt (m.queues qi) m.ram).2
      (entryAt (m.queues qi) m.ram).1).isSome = true → ∃ e, reply = .error e
  cyclic : Published (m.queues qi) m.ram →
    Cyclic (m.queues qi).descAddr (entryAt (m.queues qi) m.ram).2
      (entryAt (m.queues qi) m.ram).1 → ∃ e, reply = .error e

structure Frame (device : D) (queues : ℕ → VirtQueue) (m : Machine D) : Prop where
  device : m.device = device
  queues : m.queues = queues

lemma Frame.readStable (device : D) (queues : ℕ → VirtQueue) :
    ReadStable (Frame device queues) where
  settle _ h := ⟨h.device, h.queues⟩
  noteRead _ _ _ h _ := ⟨h.device, h.queues⟩

lemma popAvail_frame (device : D) (queues : ℕ → VirtQueue) (qi : ℕ) :
    Triple (Frame device queues) (popAvail qi) (fun _ m => Frame device queues m ∨
        Frame device (update queues qi (queues qi).taken) m) (fun m => Frame device queues m ∨
        Frame device (update queues qi (queues qi).taken) m) := by
  have hstable := Frame.readStable device queues
  have hleft : ∀ m, Frame device queues m → Frame device queues m ∨
      Frame device (update queues qi (queues qi).taken) m := fun _ h => .inl h
  refine (getQueue_keeps qi).before hleft fun q hq => ?_
  obtain ⟨m₀, hm₀, rfl⟩ := hq
  refine Keeps.rejectIf.before hleft fun _ _ => (checkedAdd_keeps _ _).before hleft fun _ _ =>
    (readInt_keeps hstable _ _).before hleft fun availIdx _ => ?_
  split
  · exact .pure hleft
  · refine (ringAddr_keeps _ _ _ _).before hleft fun _ _ =>
      (readInt_keeps hstable _ _).before hleft fun head _ => .bind
        (Q := fun _ => Frame device (update queues qi (queues qi).taken))
        (Triple.modify fun m hm => ⟨hm.device, ?_⟩) fun _ =>
        (walkChain_keeps (Frame.readStable _ _) _ _ _ _).before (fun _ h => .inr h) fun _ _ =>
          Triple.pure fun _ h => .inr h
    rw [hm.queues, hm₀.queues]
    rfl

lemma popAvail_ok {qi : ℕ} {reply : Option Chain} (h : popAvail qi m = .ok reply m') :
    (reply = none ∧ ¬ Published (m.queues qi) m.ram) ∨
      ∃ segments, reply = some ⟨(entryAt (m.queues qi) m.ram).1, segments⟩ ∧
        m'.queues = update m.queues qi (m.queues qi).taken ∧
        segments.length ≤ maxChainLen ∧
        Follows (m.queues qi) (entryAt (m.queues qi) m.ram).2 (entryAt (m.queues qi) m.ram).1
          segments := by
  obtain ⟨q, _, hget, h₁⟩ := bind_ok.mp h
  cases hget
  obtain ⟨-, h₂⟩ := rejectIf_bind_ok.mp h₁
  obtain ⟨_, _, hadd, h₃⟩ := bind_ok.mp h₂
  obtain ⟨rfl, rfl⟩ := checkedAdd_ok hadd
  obtain ⟨availIdx, _, hidx, h₄⟩ := bind_ok.mp h₃
  obtain ⟨rfl, rfl⟩ := readInt_ok hidx
  split at h₄
  · next hempty =>
    obtain ⟨rfl, -⟩ := EState.pure_ok.mp h₄
    exact .inl ⟨rfl, not_not.mpr hempty⟩
  · obtain ⟨_, _, hslot, h₅⟩ := bind_ok.mp h₄
    obtain ⟨rfl, rfl⟩ := ringAddr_ok hslot
    obtain ⟨head, _, hhead, h₆⟩ := bind_ok.mp h₅
    obtain ⟨rfl, rfl⟩ := readInt_ok hhead
    obtain ⟨_, _, hset, h₇⟩ := bind_ok.mp h₆
    cases hset
    obtain ⟨segments, _, hwalk, h₈⟩ := bind_ok.mp h₇
    obtain ⟨rfl, rfl⟩ := EState.pure_ok.mp h₈
    obtain ⟨new, rfl, hlen, hfollows⟩ := walkChain_ok hwalk
    have hframe := (walkChain_keeps (Frame.readStable m.device
      (update m.queues qi (m.queues qi).taken)) _ _ _ _).ok (by exact ⟨rfl, rfl⟩) hwalk
    exact .inr ⟨_, rfl, hframe.queues, hlen, hfollows⟩

/-- **What a queue takes from its available ring**, for every content of guest memory and every
state of the queue. -/
theorem popAvail_walks (m : Machine D) (qi : ℕ) (hfresh : m.ram.reads = []) :
    Walks m qi (outcome (popAvail qi) m).1 (outcome (popAvail qi) m).2 := by
  have hreads : ReadAtMost m.ram (2 + 4 * maxChainLen) (outcome (popAvail qi) m).2 :=
    (popAvail_atMost qi).outcome ⟨rfl, rfl, by simp [hfresh], by simp [hfresh]⟩
  have hframe := (popAvail_frame m.device m.queues qi).outcome (s := m) ⟨rfl, rfl⟩
  -- a chain has an end, so that it has at most `maxChainLen` links
  have hchain : ∀ chain, (outcome (popAvail qi) m).1 = .ok (some chain) →
      (outcome (popAvail qi) m).2.queues = update m.queues qi (m.queues qi).taken ∧
      chain.head = (entryAt (m.queues qi) m.ram).1 ∧ chain.segments.length ≤ maxChainLen ∧
      Follows (m.queues qi) (entryAt (m.queues qi) m.ram).2 chain.head chain.segments := by
    intro chain hreply
    rcases popAvail_ok (EState.run_of_reply hreply) with ⟨hnone, -⟩ | ⟨segments, hsome, h⟩
    · cases hnone
    · cases hsome
      exact ⟨h.1, rfl, h.2⟩
  have hlong : Published (m.queues qi) m.ram →
      (link (m.queues qi).descAddr maxChainLen (entryAt (m.queues qi) m.ram).2
        (entryAt (m.queues qi) m.ram).1).isSome = true →
      ∃ e, (outcome (popAvail qi) m).1 = .error e := by
    intro hpublished hlink
    rcases hreply : (outcome (popAvail qi) m).1 with e | _ | chain
    · exact ⟨e, rfl⟩
    · rcases popAvail_ok (EState.run_of_reply hreply) with ⟨-, hempty⟩ | ⟨_, hsome, -⟩
      · exact absurd hpublished hempty
      · cases hsome
    · obtain ⟨-, hhead, hlen, hfollows⟩ := hchain chain hreply
      rw [← hhead, hfollows.link_eq_none hlen] at hlink
      cases hlink
  exact
    { few := hreads.count
      inside := hreads.inside
      device := hframe.elim (·.device) (·.device)
      takes := hframe.imp (·.queues) (·.queues)
      chain := fun chain h => ⟨(hchain chain h).1, (hchain chain h).2.1, (hchain chain h).2.2.2⟩
      long := hlong
      cyclic := fun hpublished hcyclic => hlong hpublished (hcyclic.link_isSome maxChainLen) }

def twoDescriptors : Machine Unit where
  device := ()
  queues _ := { size := 4, ready := true, descAddr := 0, availAddr := 64, usedAddr := 96 }
  ram :=
    { base := 0
      size := 256
      byte := fun
        | 0 => 128 | 8 => 16 | 12 => 1 | 14 => 2
        | 32 => 160 | 40 => 8 | 44 => 2
        | 66 => 1
        | _ => 0 }

theorem popAvail_walks_twoDescriptors : (outcome (popAvail 0) twoDescriptors).1 =
        .ok (some ⟨0, [⟨128, 16, false⟩, ⟨160, 8, true⟩]⟩) ∧
      Walks twoDescriptors 0 (outcome (popAvail 0) twoDescriptors).1
        (outcome (popAvail 0) twoDescriptors).2 :=
  ⟨by rfl, popAvail_walks twoDescriptors 0 rfl⟩

-- ══ Queues whose rings lie in guest memory

structure RingsFit (q : VirtQueue) (ram : GuestRam) : Prop where
  size_pos : 0 < q.size
  desc_le : q.descAddr + 16 * q.size ≤ 2 ^ 64 - 1
  avail_le : q.availAddr + (6 + 2 * q.size) ≤ 2 ^ 64 - 1
  used_le : q.usedAddr + (6 + 8 * q.size) ≤ 2 ^ 64 - 1
  desc : (GuestRange.mk q.descAddr (16 * q.size)).Inside ram
  avail : (GuestRange.mk q.availAddr (6 + 2 * q.size)).Inside ram
  used : (GuestRange.mk q.usedAddr (6 + 8 * q.size)).Inside ram

lemma ringsFit_of_validateRings (h : q.validateRings ram = .ok ()) : RingsFit q ram := by
  have hinside : ∀ {gpa len : ℕ}, ¬ (ram.slice gpa len).isNone = true →
      (GuestRange.mk gpa len).Inside ram := by
    intro gpa len hsome
    rw [Option.isNone_iff_eq_none] at hsome
    exact slice_isSome_iff.mp (Option.isSome_iff_ne_none.mpr hsome)
  obtain ⟨hlayout, h₁⟩ := Check.seq_ok.mp h
  obtain ⟨hdesc, h₂⟩ := Check.seq_ok.mp h₁
  obtain ⟨havail, hused⟩ := Check.seq_ok.mp h₂
  obtain ⟨hsize, h₃⟩ := Check.seq_ok.mp hlayout
  obtain ⟨hdescLe, h₄⟩ := Check.seq_ok.mp h₃
  obtain ⟨havailLe, h₅⟩ := Check.seq_ok.mp h₄
  obtain ⟨husedLe, -⟩ := Check.seq_ok.mp h₅
  rw [Check.rejectIf_ok] at hdesc havail hused hsize hdescLe havailLe husedLe
  exact
    { size_pos := Nat.pos_of_ne_zero fun hzero => hsize (.inl hzero)
      desc_le := not_lt.mp hdescLe
      avail_le := not_lt.mp havailLe
      used_le := not_lt.mp husedLe
      desc := hinside hdesc
      avail := hinside havail
      used := hinside hused }

lemma RingsFit.of_eq (h : RingsFit q ram) (hbase : ram'.base = ram.base)
    (hsize : ram'.size = ram.size) : RingsFit q ram' :=
  { h with
    desc := h.desc.of_eq hbase hsize
    avail := h.avail.of_eq hbase hsize
    used := h.used.of_eq hbase hsize }

lemma checkedAdd_fits {a b : ℕ} (h : a + b ≤ 2 ^ 64 - 1) :
    checkedAdd a b m = .ok (a + b) m :=
  bind_ok.mpr ⟨(), m, rejectIf_ok.mpr ⟨not_lt.mpr h, rfl⟩, rfl⟩

lemma ringAddr_fits {base header elemSize slot : ℕ}
    (h : base + (header + elemSize * slot) ≤ 2 ^ 64 - 1) :
    ringAddr base header elemSize slot m = .ok (base + (header + elemSize * slot)) m := by
  refine bind_ok.mpr ⟨elemSize * slot, m, ?_, bind_ok.mpr
    ⟨header + elemSize * slot, m, checkedAdd_fits (by omega), checkedAdd_fits h⟩⟩
  exact bind_ok.mpr ⟨(), m, rejectIf_ok.mpr ⟨by omega, rfl⟩, rfl⟩

lemma readDescriptor_fits {β : Type} {f : ℕ → ℕ → ℕ → ℕ → DeviceM D β} (hfit : RingsFit q m.ram)
    (hidx : idx < q.size) :
    (do
      let base ← descAddr q.descAddr idx
      let addr ← readInt 8 base
      let lenAddr ← descFieldAddr base 8
      let len ← readInt 4 lenAddr
      let flagsAddr ← descFieldAddr base 12
      let flags ← readInt 2 flagsAddr
      let nextAddr ← descFieldAddr base 14
      let next ← readInt 2 nextAddr
      f addr len flags next : DeviceM D β) m =
    f (descriptorAt m.ram q.descAddr idx).1.addr (descriptorAt m.ram q.descAddr idx).1.len
      (descriptorAt m.ram q.descAddr idx).1.flags (descriptorAt m.ram q.descAddr idx).1.next
      { m with ram := (descriptorAt m.ram q.descAddr idx).2 } := by
  have hle := hfit.desc_le
  have hread : ∀ {addr len : ℕ} {m' : Machine D}, q.descAddr + 16 * idx ≤ addr →
      addr + len ≤ q.descAddr + 16 * idx + 16 → m'.ram.base = m.ram.base →
      m'.ram.size = m.ram.size → readInt len addr m' =
        .ok (m'.ram.fetch addr len).1 { m' with ram := (m'.ram.fetch addr len).2 } := by
    intro addr len m' hlo hhi hbase hsize
    exact readInt_inside ((hfit.desc.part (by omega) (by omega)).of_eq hbase hsize)
  have hfield : ∀ {offset : ℕ} {m' : Machine D}, offset ≤ 16 →
      descFieldAddr (q.descAddr + 16 * idx) offset m' = .ok (q.descAddr + 16 * idx + offset) m' :=
    fun hoffset => checkedAdd_fits (by omega)
  have hbase : descAddr q.descAddr idx m = .ok (q.descAddr + 16 * idx) m := by
    have haddr : ringAddr q.descAddr 0 16 idx m = _ := ringAddr_fits (by omega)
    rwa [Nat.zero_add] at haddr
  rw [bind_run hbase, bind_run (hread le_rfl (by omega) rfl rfl),
    bind_run (hfield (by omega)),
    bind_run (hread (by omega) (by omega) (by simp) (by simp)),
    bind_run (hfield (by omega)),
    bind_run (hread (by omega) (by omega) (by simp) (by simp)),
    bind_run (hfield (by omega)),
    bind_run (hread (by omega) (by omega) (by simp) (by simp))]
  rfl

inductive Fault (q : VirtQueue) : ℕ → GuestRam → ℕ → QueueError → Prop
  | index {hops : ℕ} {ram : GuestRam} {idx : ℕ} (hidx : q.size ≤ idx) :
      Fault q hops ram idx .badDescriptorIndex
  | tooLong {ram : GuestRam} {idx : ℕ} : Fault q 0 ram idx .chainTooLong
  | indirect {hops : ℕ} {ram : GuestRam} {idx : ℕ} (hidx : idx < q.size)
      (hindirect : (descriptorAt ram q.descAddr idx).1.isIndirect = true) :
      Fault q hops ram idx .badDescriptorIndex
  | buffer {hops : ℕ} {ram : GuestRam} {idx : ℕ} (hidx : idx < q.size)
      (hbuffer : ¬ (descriptorAt ram q.descAddr idx).1.segment.range.Inside ram) :
      Fault q hops ram idx .outOfBounds
  | next {hops : ℕ} {ram : GuestRam} {idx : ℕ} {e : QueueError} (hfit : Fit q ram idx)
      (hnext : (descriptorAt ram q.descAddr idx).1.hasNext = true)
      (hrest : Fault q hops (descriptorAt ram q.descAddr idx).2
        (descriptorAt ram q.descAddr idx).1.next e) : Fault q (hops + 1) ram idx e

lemma checkSlice_error (h : checkSlice gpa len m = .error e m') :
    ¬ (GuestRange.mk gpa len).Inside m.ram ∧ .outOfBounds = e := by
  by_cases hin : (GuestRange.mk gpa len).Inside m.ram
  · rw [checkSlice_inside hin] at h
    cases h
  · rw [checkSlice_outside hin] at h
    cases h
    exact ⟨hin, rfl⟩

lemma walkChain_error {hops : ℕ} {segments : List Segment} (hfit : RingsFit q m.ram)
    (hroom : segments.length + hops = maxChainLen)
    (h : walkChain q hops idx segments m = .error e m') : Fault q hops m.ram idx e := by
  induction hops generalizing idx segments m with
  | zero =>
    rcases bind_error.mp h with hcheck | ⟨_, _, -, h₁⟩
    · obtain ⟨hidx, rfl, -⟩ := rejectIf_error.mp hcheck
      exact .index hidx
    · cases h₁
      exact .tooLong
  | succ hops ih =>
    rcases bind_error.mp h with hcheck | ⟨_, _, hcheck, h₁⟩
    · obtain ⟨hidx, rfl, -⟩ := rejectIf_error.mp hcheck
      exact .index hidx
    obtain ⟨hidx, rfl⟩ := rejectIf_ok.mp hcheck
    rw [readDescriptor_fits hfit (not_le.mp hidx)] at h₁
    rcases bind_error.mp h₁ with hcheck₁ | ⟨_, _, hcheck₁, h₂⟩
    · obtain ⟨hindirect, rfl, -⟩ := rejectIf_error.mp hcheck₁
      exact .indirect (not_le.mp hidx) hindirect
    obtain ⟨hdirect, rfl⟩ := rejectIf_ok.mp hcheck₁
    have hsame : ∀ {r : GuestRange}, r.Inside (descriptorAt m.ram q.descAddr idx).2 ↔
        r.Inside m.ram := by
      intro r
      simp [GuestRange.Inside]
    rcases bind_error.mp h₂ with hcheck₂ | ⟨_, _, hcheck₂, h₃⟩
    · obtain ⟨hbuffer, rfl⟩ := checkSlice_error hcheck₂
      exact .buffer (not_le.mp hidx) fun hin => hbuffer (hsame.mpr hin)
    obtain ⟨hbuffer, rfl⟩ := checkSlice_ok hcheck₂
    rcases bind_error.mp h₃ with hcheck₃ | ⟨_, _, hcheck₃, h₄⟩
    · -- the array of the segments has room for as many as there are hops
      obtain ⟨hfull, -, -⟩ := rejectIf_error.mp hcheck₃
      omega
    obtain ⟨-, rfl⟩ := rejectIf_ok.mp hcheck₃
    split at h₄
    · cases h₄
    · next hnext =>
      refine .next ⟨not_le.mp hidx, Bool.eq_false_iff.mpr hdirect, hsame.mp hbuffer⟩
        (Bool.eq_true_of_not_eq_false hnext) (ih ?_ ?_ h₄)
      · exact hfit.of_eq (descriptorAt_base _ _ _) (descriptorAt_size _ _ _)
      · simp only [List.length_append, List.length_singleton]
        omega

lemma ready_run {qi : ℕ} (hready : (m.queues qi).ready = true) (hsize : 0 < (m.queues qi).size) :
    rejectIf ((m.queues qi).ready = false ∨ (m.queues qi).size = 0) QueueError.queueNotReady m =
      .ok () m :=
  rejectIf_ok.mpr ⟨by simp [hready, hsize.ne'], rfl⟩

/-- **Taking a chain** from a queue whose rings lie in guest memory fails only for what its
descriptors say. -/
theorem popAvail_error {qi : ℕ} (hready : (m.queues qi).ready = true)
    (hfit : RingsFit (m.queues qi) m.ram) (h : popAvail qi m = .error e m') :
    Fault (m.queues qi) maxChainLen (entryAt (m.queues qi) m.ram).2
      (entryAt (m.queues qi) m.ram).1 e := by
  have hsize := hfit.size_pos
  have hle := hfit.avail_le
  have hslot : (m.queues qi).lastAvail % (m.queues qi).size < (m.queues qi).size :=
    Nat.mod_lt _ hsize
  unfold popAvail at h
  have hget : getQueue qi m = .ok (m.queues qi) m := rfl
  have hidx : availIdxAddr (m.queues qi).availAddr m = _ := checkedAdd_fits (by omega)
  rw [bind_run hget, bind_run (ready_run hready hsize), bind_run hidx,
    bind_run (readInt_inside (hfit.avail.part (by omega) (by omega)))] at h
  split at h
  · cases h
  · have haddr : ∀ m' : Machine D, availRingAddr (m.queues qi).availAddr
        ((m.queues qi).lastAvail % (m.queues qi).size) m' = _ :=
      fun _ => ringAddr_fits (by omega)
    rw [bind_run (haddr _), bind_run (readInt_inside
      ((hfit.avail.part (by omega) (by omega)).of_eq (by simp) (by simp)))] at h
    obtain hset | ⟨_, _, hset, h₁⟩ := bind_error.mp h
    · cases hset
    cases hset
    rcases bind_error.mp h₁ with hwalk | ⟨_, _, -, h₂⟩
    · exact walkChain_error (hfit.of_eq (by simp) (by simp)) rfl hwalk
    · cases h₂

lemma writeInt_inside (h : (GuestRange.mk gpa len).Inside m.ram) (value : ℕ) :
    writeInt len gpa value m =
      .ok () { m with ram := (m.ram.store gpa (littleEndian value len)).markDirty gpa len } :=
  bind_ok.mpr ⟨(), m, checkSlice_inside h, rfl⟩

/-- **Giving a chain back** to a queue whose rings lie in guest memory succeeds. -/
theorem pushUsed_fits {qi : ℕ} (hready : (m.queues qi).ready = true)
    (hfit : RingsFit (m.queues qi) m.ram) (head written : ℕ) :
    ∃ m', pushUsed qi head written m = .ok () m' := by
  have hsize := hfit.size_pos
  have hle := hfit.used_le
  have hslot : (m.queues qi).usedIdx % (m.queues qi).size < (m.queues qi).size := Nat.mod_lt _ hsize
  unfold pushUsed
  have hget : getQueue qi m = .ok (m.queues qi) m := rfl
  have helem : usedRingAddr (m.queues qi).usedAddr
      ((m.queues qi).usedIdx % (m.queues qi).size) m = _ :=
    ringAddr_fits (by omega)
  rw [bind_run hget, bind_run (ready_run hready hsize), bind_run helem,
    bind_run (writeInt_inside (hfit.used.part (by omega) (by omega)) _),
    bind_run (checkedAdd_fits (by omega)),
    bind_run (writeInt_inside
      ((hfit.used.part (by omega) (by omega)).of_eq (by simp [GuestRam.store])
        (by simp [GuestRam.store])) _)]
  have hset : ∀ (q : VirtQueue) (m' : Machine D), setQueue qi q m' =
      .ok () { m' with queues := update m'.queues qi q } := fun _ _ => rfl
  have hidx : ∀ m' : Machine D, usedIdxAddr (m.queues qi).usedAddr m' =
      .ok ((m.queues qi).usedAddr + 2) m' := fun _ => checkedAdd_fits (by omega)
  rw [bind_run (hset _ _), bind_run (hidx _)]
  exact ⟨_, writeInt_inside ((hfit.used.part (by omega) (by omega)).of_eq
    (by simp [GuestRam.store]) (by simp [GuestRam.store])) _⟩

end Walk

end Queue

end SporeVM.Virtio
