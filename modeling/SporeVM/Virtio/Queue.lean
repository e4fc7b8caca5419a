import SporeVM.Lib.LittleEndian
import SporeVM.Lib.SparseFile
import SporeVM.Lib.Yields

/-!
# Guest memory and split virtqueues

`guestmem.zig` and `virtio/queue.zig`, on the device side. The bytes of guest memory are named by
their guest-physical addresses. A descriptor chain is a list of ranges of guest memory, which the
guest chooses and which may overlap in any way; what a device finds in a range is what memory holds
when it looks.

Other CPUs run on while a device works. What they store before each coming read of a ring is the
field `others`. The fields `written`, `dirty` and `reads` are history variables: the ranges that the
device has stored into, those that have been passed to `markDirty`, and those that the queues have
read.
-/

namespace SporeVM.Virtio

open Lib (littleEndian ofLittleEndian slice)
open Lib.EState (rejectIf capture Keeps Stays)

-- ══ Guest memory

structure GuestRange where
  addr : ℕ
  len : ℕ
  deriving DecidableEq

def GuestRange.Has (r : GuestRange) (a : ℕ) : Prop := r.addr ≤ a ∧ a < r.addr + r.len

structure GuestRam where
  base : ℕ
  size : ℕ
  byte : ℕ → UInt8
  others : List (ℕ → Option UInt8) := []
  written : List GuestRange := []
  dirty : List GuestRange := []
  reads : List GuestRange := []

namespace GuestRam

def slice (ram : GuestRam) (gpa len : ℕ) : Option GuestRange :=
  if len = 0 then some ⟨gpa, 0⟩
  else if gpa < ram.base then none
  else if gpa - ram.base ≥ ram.size then none
  else if len > ram.size - (gpa - ram.base) then none
  else some ⟨gpa, len⟩

def bytesAt (ram : GuestRam) (addr len : ℕ) : List UInt8 := Lib.slice ram.byte addr len

def store (ram : GuestRam) (addr : ℕ) (data : List UInt8) : GuestRam :=
  { ram with
    byte := fun a =>
      if addr ≤ a ∧ a < addr + data.length then data.getD (a - addr) 0 else ram.byte a
    written := ⟨addr, data.length⟩ :: ram.written }

def markDirty (ram : GuestRam) (gpa len : ℕ) : GuestRam :=
  if len = 0 then ram else { ram with dirty := ⟨gpa, len⟩ :: ram.dirty }

def settle (ram : GuestRam) : GuestRam :=
  match ram.others with
  | [] => ram
  | stores :: others => { ram with byte := fun a => (stores a).getD (ram.byte a), others }

def noteRead (ram : GuestRam) (gpa len : ℕ) : GuestRam :=
  { ram with reads := ⟨gpa, len⟩ :: ram.reads }

def fresh (ram : GuestRam) : GuestRam := { ram with written := [], dirty := [], reads := [] }

variable {ram : GuestRam} {addr len a : ℕ} {data : List UInt8}

@[simp] lemma markDirty_written : (ram.markDirty addr len).written = ram.written := by
  unfold markDirty
  split <;> rfl

@[simp] lemma markDirty_byte : (ram.markDirty addr len).byte = ram.byte := by
  unfold markDirty
  split <;> rfl

@[simp] lemma settle_written : ram.settle.written = ram.written := by
  unfold settle
  split <;> rfl

@[simp] lemma settle_dirty : ram.settle.dirty = ram.dirty := by
  unfold settle
  split <;> rfl

lemma mem_markDirty (h : (GuestRange.mk addr len).Has a) :
    ∃ r ∈ (ram.markDirty addr len).dirty, r.Has a := by
  have hlen : len ≠ 0 := by
    rintro rfl
    exact absurd h.2 (by have := h.1; simp only at this ⊢; omega)
  rw [markDirty, if_neg hlen]
  exact ⟨_, List.mem_cons_self, h⟩

lemma dirty_subset_markDirty {r : GuestRange} (h : r ∈ ram.dirty) :
    r ∈ (ram.markDirty addr len).dirty := by
  unfold markDirty
  split
  · exact h
  · exact List.mem_cons_of_mem _ h

end GuestRam

-- ══ Queues

namespace Queue

def maxQueueSize : ℕ := 256

def maxChainLen : ℕ := 64

def maxNotifyChains : ℕ := 256

inductive QueueError
  | queueNotReady | invalidQueueSize | misalignedRing | badDescriptorIndex | chainTooLong
  | outOfBounds
  deriving DecidableEq

structure Segment where
  addr : ℕ
  len : ℕ
  writable : Bool
  deriving DecidableEq

def Segment.range (seg : Segment) : GuestRange := ⟨seg.addr, seg.len⟩

structure Chain where
  head : ℕ
  segments : List Segment
  deriving DecidableEq

structure VirtQueue where
  size : ℕ := 0
  ready : Bool := false
  descAddr : ℕ := 0
  availAddr : ℕ := 0
  usedAddr : ℕ := 0
  lastAvail : ℕ := 0
  usedIdx : ℕ := 0

def VirtQueue.validateUsableLayout (q : VirtQueue) : Except QueueError Unit := do
  Lib.Check.rejectIf (q.size = 0 ∨ q.size > maxQueueSize ∨ ¬ q.size.isPowerOfTwo)
    .invalidQueueSize
  Lib.Check.rejectIf (q.descAddr + 16 * q.size > 2 ^ 64 - 1) .outOfBounds
  Lib.Check.rejectIf (q.availAddr + (6 + 2 * q.size) > 2 ^ 64 - 1) .outOfBounds
  Lib.Check.rejectIf (q.usedAddr + (6 + 8 * q.size) > 2 ^ 64 - 1) .outOfBounds
  Lib.Check.rejectIf (q.descAddr % 16 ≠ 0 ∨ q.availAddr % 2 ≠ 0 ∨ q.usedAddr % 4 ≠ 0)
    .misalignedRing

def VirtQueue.validateRings (q : VirtQueue) (ram : GuestRam) : Except QueueError Unit := do
  q.validateUsableLayout
  Lib.Check.rejectIf ((ram.slice q.descAddr (16 * q.size)).isNone = true) .outOfBounds
  Lib.Check.rejectIf ((ram.slice q.availAddr (6 + 2 * q.size)).isNone = true) .outOfBounds
  Lib.Check.rejectIf ((ram.slice q.usedAddr (6 + 8 * q.size)).isNone = true) .outOfBounds

structure Machine (D : Type) where
  device : D
  queues : ℕ → VirtQueue
  ram : GuestRam

abbrev DeviceM (D : Type) := EStateM QueueError (Machine D)

section Access

variable {D : Type}

def modifyRam (f : GuestRam → GuestRam) : DeviceM D Unit := modify fun m =>
    { m with ram := f m.ram }

def getQueue (qi : ℕ) : DeviceM D VirtQueue := do
  let m ← get
  pure (m.queues qi)

def setQueue (qi : ℕ) (q : VirtQueue) : DeviceM D Unit :=
  modify fun m => { m with queues := Function.update m.queues qi q }

def checkSlice (gpa len : ℕ) : DeviceM D Unit := do
  let m ← get
  rejectIf ((m.ram.slice gpa len).isNone = true) .outOfBounds

def readInt (len gpa : ℕ) : DeviceM D ℕ := do
  modifyRam GuestRam.settle
  checkSlice gpa len
  modifyRam (·.noteRead gpa len)
  let m ← get
  pure (ofLittleEndian (m.ram.bytesAt gpa len))

def writeInt (len gpa value : ℕ) : DeviceM D Unit := do
  checkSlice gpa len
  modifyRam fun ram => (ram.store gpa (littleEndian value len)).markDirty gpa len

def checkedAdd (a b : ℕ) : DeviceM D ℕ := do
  rejectIf (a + b > 2 ^ 64 - 1) .outOfBounds
  pure (a + b)

def checkedMul (a b : ℕ) : DeviceM D ℕ := do
  rejectIf (a * b > 2 ^ 64 - 1) .outOfBounds
  pure (a * b)

def ringAddr (base header elemSize slot : ℕ) : DeviceM D ℕ := do
  let elemOff ← checkedMul elemSize slot
  let offset ← checkedAdd header elemOff
  checkedAdd base offset

def availIdxAddr (availAddr : ℕ) : DeviceM D ℕ := checkedAdd availAddr 2

def availRingAddr (availAddr slot : ℕ) : DeviceM D ℕ := ringAddr availAddr 4 2 slot

def descAddr (descAddr idx : ℕ) : DeviceM D ℕ := ringAddr descAddr 0 16 idx

def descFieldAddr (descBase offset : ℕ) : DeviceM D ℕ := checkedAdd descBase offset

def usedIdxAddr (usedAddr : ℕ) : DeviceM D ℕ := checkedAdd usedAddr 2

def usedRingAddr (usedAddr slot : ℕ) : DeviceM D ℕ := ringAddr usedAddr 4 8 slot

/-- Follows a chain of descriptors; `hops` more may be taken. Bit 0 of the flags says that there is
a next descriptor, bit 1 that the device may write, bit 2 that the descriptor is indirect. -/
def walkChain (q : VirtQueue) : ℕ → ℕ → List Segment → DeviceM D (List Segment)
  | 0, idx, _ => do
    rejectIf (idx ≥ q.size) .badDescriptorIndex
    throw .chainTooLong
  | hops + 1, idx, segments => do
    rejectIf (idx ≥ q.size) .badDescriptorIndex
    let base ← descAddr q.descAddr idx
    let addr ← readInt 8 base
    let lenAddr ← descFieldAddr base 8
    let len ← readInt 4 lenAddr
    let flagsAddr ← descFieldAddr base 12
    let flags ← readInt 2 flagsAddr
    let nextAddr ← descFieldAddr base 14
    let next ← readInt 2 nextAddr
    rejectIf (flags.testBit 2 = true) .badDescriptorIndex
    checkSlice addr len
    rejectIf (segments.length ≥ maxChainLen) .chainTooLong
    let segments := segments ++ [⟨addr, len, flags.testBit 1⟩]
    if flags.testBit 0 = false then pure segments else walkChain q hops next segments

def popAvail (qi : ℕ) : DeviceM D (Option Chain) := do
  let q ← getQueue qi
  rejectIf (q.ready = false ∨ q.size = 0) .queueNotReady
  let idxAddr ← availIdxAddr q.availAddr
  let availIdx ← readInt 2 idxAddr
  if availIdx = q.lastAvail then pure none
  else do
    let headAddr ← availRingAddr q.availAddr (q.lastAvail % q.size)
    let head ← readInt 2 headAddr
    setQueue qi { q with lastAvail := (q.lastAvail + 1) % 2 ^ 16 }
    let segments ← walkChain q maxChainLen head []
    pure (some ⟨head, segments⟩)

def pushUsed (qi head written : ℕ) : DeviceM D Unit := do
  let q ← getQueue qi
  rejectIf (q.ready = false ∨ q.size = 0) .queueNotReady
  let elem ← usedRingAddr q.usedAddr (q.usedIdx % q.size)
  writeInt 4 elem head
  let lenAddr ← checkedAdd elem 4
  writeInt 4 lenAddr written
  setQueue qi { q with usedIdx := (q.usedIdx + 1) % 2 ^ 16 }
  let idxAddr ← usedIdxAddr q.usedAddr
  writeInt 2 idxAddr ((q.usedIdx + 1) % 2 ^ 16)

def markSegments : List Segment → GuestRam → GuestRam
  | [], ram => ram
  | seg :: rest, ram =>
    if seg.writable then markSegments rest (ram.markDirty seg.addr seg.len)
    else markSegments rest ram

def Chain.markWritableDirty (chain : Chain) : DeviceM D Unit :=
  modifyRam (markSegments chain.segments)

/-- What a device makes of a chain: the number of bytes it says to have written, and the state of
device and memory after it. -/
abbrev Handler (D : Type) := Chain → D → GuestRam → ℕ × D × GuestRam

def runHandler (handle : Handler D) (chain : Chain) : DeviceM D ℕ := do
  let m ← get
  let (written, device, ram) := handle chain m.device m.ram
  set { m with device, ram }
  pure written

/-- The loop of a notification, for as many chains as the budget allows. An error of the queue ends
it. The reply tells whether a chain has been given back. -/
def serve (qi : ℕ) (handle : Handler D) : ℕ → Bool → DeviceM D Bool
  | 0, didWork => pure didWork
  | budget + 1, didWork => do
    match ← capture (popAvail qi) with
    | .error _ => pure didWork
    | .ok none => pure didWork
    | .ok (some chain) => do
      let written ← runHandler handle chain
      chain.markWritableDirty
      match ← capture (pushUsed qi chain.head written) with
      | .error _ => pure didWork
      | .ok _ => serve qi handle budget true

end Access

-- ══ What is on record

def Covered (ram : GuestRam) : Prop :=
  ∀ w ∈ ram.written, ∀ a, w.Has a → ∃ r ∈ ram.dirty, r.Has a

def InWritable (segments : List Segment) (a : ℕ) : Prop :=
  ∃ seg ∈ segments, seg.writable = true ∧ seg.range.Has a

/-- Everything stored has been marked or is in a writable segment, which is still to be marked. -/
def CoveredBut (segments : List Segment) (ram : GuestRam) : Prop :=
  ∀ w ∈ ram.written, ∀ a, w.Has a → (∃ r ∈ ram.dirty, r.Has a) ∨ InWritable segments a

lemma Covered.but {ram : GuestRam} (h : Covered ram) (segments : List Segment) :
    CoveredBut segments ram :=
  fun w hw a ha => .inl (h w hw a ha)

lemma covered_fresh (ram : GuestRam) : Covered ram.fresh := by
  rintro w ⟨⟩

lemma CoveredBut.store {segments : List Segment} {ram : GuestRam} (h : CoveredBut segments ram)
    {seg : Segment} (hseg : seg ∈ segments) (hwritable : seg.writable = true) {addr : ℕ}
    {data : List UInt8} (hlo : seg.addr ≤ addr) (hhi : addr + data.length ≤ seg.addr + seg.len) :
    CoveredBut segments (ram.store addr data) := by
  intro w hw a ha
  rcases List.mem_cons.mp hw with rfl | hw
  · have hlo' := ha.1
    have hhi' := ha.2
    exact .inr ⟨seg, hseg, hwritable, hlo.trans hlo', hhi'.trans_le hhi⟩
  · exact h w hw a ha

lemma CoveredBut.store_two {segments : List Segment} {ram : GuestRam}
    (h : CoveredBut segments ram) {seg : Segment} (hseg : seg ∈ segments)
    (hwritable : seg.writable = true) {head tail : List UInt8} (hhead : head.length ≤ seg.len)
    (htail : tail.length ≤ seg.len - head.length) :
    CoveredBut segments ((ram.store seg.addr head).store (seg.addr + head.length) tail) :=
  (h.store hseg hwritable (Nat.le_refl _) (by omega)).store hseg hwritable (by omega) (by omega)

lemma Covered.writeInt {ram : GuestRam} (h : Covered ram) (addr : ℕ) (data : List UInt8) :
    Covered ((ram.store addr data).markDirty addr data.length) := by
  intro w hw a ha
  rw [GuestRam.markDirty_written] at hw
  rcases List.mem_cons.mp hw with rfl | hw
  · exact GuestRam.mem_markDirty ha
  · obtain ⟨r, hr, hra⟩ := h w hw a ha
    exact ⟨r, GuestRam.dirty_subset_markDirty hr, hra⟩

lemma markSegments_covered : ∀ {segments : List Segment} {ram : GuestRam},
    CoveredBut segments ram → Covered (markSegments segments ram)
  | [], ram, h => fun w hw a ha => (h w hw a ha).resolve_right (by rintro ⟨seg, ⟨⟩, -⟩)
  | seg :: rest, ram, h => by
    rw [markSegments]
    split
    · refine markSegments_covered fun w hw a ha => ?_
      rw [GuestRam.markDirty_written] at hw
      rcases h w hw a ha with ⟨r, hr, hra⟩ | ⟨seg', hmem, hwritable, hhas⟩
      · exact .inl ⟨r, GuestRam.dirty_subset_markDirty hr, hra⟩
      · rcases List.mem_cons.mp hmem with rfl | hmem
        · exact .inl (GuestRam.mem_markDirty hhas)
        · exact .inr ⟨seg', hmem, hwritable, hhas⟩
    · next hread =>
      refine markSegments_covered fun w hw a ha => (h w hw a ha).imp_right ?_
      rintro ⟨seg', hmem, hwritable, hhas⟩
      rcases List.mem_cons.mp hmem with rfl | hmem
      · exact absurd hwritable hread
      · exact ⟨seg', hmem, hwritable, hhas⟩

section Rules

variable {D : Type} {P : Machine D → Prop}

structure ReadStable (P : Machine D → Prop) : Prop where
  settle : ∀ m, P m → P { m with ram := m.ram.settle }
  noteRead : ∀ m gpa len, P m → (m.ram.slice gpa len).isSome = true →
    P { m with ram := m.ram.noteRead gpa len }

lemma getQueue_keeps (qi : ℕ) : Keeps P (getQueue qi) fun q => ∃ m, P m ∧ m.queues qi = q :=
  Keeps.get.bind fun m hm => .pure ⟨m, hm, rfl⟩

lemma checkSlice_triple (gpa len : ℕ) : Lib.EState.Triple P (checkSlice gpa len)
      (fun _ m => P m ∧ (m.ram.slice gpa len).isSome = true) P := by
  intro m hm
  by_cases hnone : (m.ram.slice gpa len).isNone = true
  · have hrun : checkSlice gpa len m = .error .outOfBounds m := by
      show rejectIf _ _ m = _
      rw [rejectIf, if_pos hnone]
      rfl
    rw [hrun]
    exact hm
  · have hrun : checkSlice gpa len m = .ok () m := by
      show rejectIf _ _ m = _
      rw [rejectIf, if_neg hnone]
      rfl
    rw [hrun]
    rw [Option.isNone_iff_eq_none] at hnone
    exact ⟨hm, Option.isSome_iff_ne_none.mpr hnone⟩

lemma checkSlice_keeps (gpa len : ℕ) : Stays P (checkSlice gpa len) :=
  (checkSlice_triple gpa len).weaken (fun _ h => h) (fun _ _ h => ⟨h.1, trivial⟩) fun _ h => h

lemma readInt_keeps (hP : ReadStable P) (len gpa : ℕ) : Stays P (readInt len gpa) := by
  refine (Keeps.modify fun m h => hP.settle m h).bind_triple fun _ _ =>
    (checkSlice_triple gpa len).bind fun _ => .bind
      (Lib.EState.Triple.modify fun m h => hP.noteRead m gpa len h.1 h.2) fun _ =>
        Keeps.get.bind fun _ _ => Stays.pure

lemma checkedAdd_keeps (a b : ℕ) : Stays P (checkedAdd a b) :=
  Keeps.guard <| Stays.pure

lemma ringAddr_keeps (base header elemSize slot : ℕ) :
    Stays P (ringAddr base header elemSize slot) :=
  Keeps.bind (Keeps.guard <| Stays.pure) fun _ _ =>
    (checkedAdd_keeps _ _).bind fun _ _ => checkedAdd_keeps _ _

lemma walkChain_keeps (hP : ReadStable P) (q : VirtQueue) :
    ∀ (hops idx : ℕ) (segments : List Segment),
      Stays P (walkChain q hops idx segments)
  | 0, _, _ => .guard <| .throw
  | hops + 1, idx, segments => by
    refine .guard <| (ringAddr_keeps _ _ _ _).bind fun base _ =>
      (readInt_keeps hP _ _).bind fun addr _ => (checkedAdd_keeps _ _).bind fun _ _ =>
      (readInt_keeps hP _ _).bind fun len _ => (checkedAdd_keeps _ _).bind fun _ _ =>
      (readInt_keeps hP _ _).bind fun flags _ => (checkedAdd_keeps _ _).bind fun _ _ =>
      (readInt_keeps hP _ _).bind fun next _ => .guard <|
      (checkSlice_keeps _ _).bind fun _ _ => .guard <| ?_
    split
    · exact Stays.pure
    · exact walkChain_keeps hP q hops next _

def VirtQueue.taken (q : VirtQueue) : VirtQueue :=
  { q with lastAvail := (q.lastAvail + 1) % 2 ^ 16 }

/-- Taking a chain does nothing but read, and move on in the available ring. -/
theorem popAvail_keeps (hP : ReadStable P) {qi : ℕ}
    (htaken : ∀ m₀ m, P m₀ → P m →
      P { m with queues := Function.update m.queues qi (m₀.queues qi).taken }) :
    Stays P (popAvail qi) := by
  refine (getQueue_keeps qi).bind fun q hq => .guard <|
    (checkedAdd_keeps _ _).bind fun _ _ => (readInt_keeps hP _ _).bind fun availIdx _ => ?_
  obtain ⟨m₀, hm₀, rfl⟩ := hq
  split
  · exact Stays.pure
  · exact (ringAddr_keeps _ _ _ _).bind fun _ _ => (readInt_keeps hP _ _).bind fun head _ =>
      (Keeps.modify fun m hm => htaken m₀ m hm₀ hm).bind fun _ _ =>
        (walkChain_keeps hP _ _ _ _).bind fun _ _ => Stays.pure

lemma covered_readStable : ReadStable fun m : Machine D => Covered m.ram where
  settle m h := by
    simp only [Covered, GuestRam.settle_written, GuestRam.settle_dirty]
    exact h
  noteRead _ _ _ h _ := h

lemma popAvail_covered (qi : ℕ) :
    Stays (fun m => Covered m.ram) (popAvail qi : DeviceM D (Option Chain)) :=
  popAvail_keeps covered_readStable fun _ _ _ h => h

lemma writeInt_covered (len gpa value : ℕ) :
    Stays (fun m => Covered m.ram) (writeInt len gpa value : DeviceM D Unit) := by
  refine (checkSlice_keeps gpa len).bind fun _ _ => .modify fun m h => ?_
  have hwrite := h.writeInt gpa (littleEndian value len)
  rwa [Lib.length_littleEndian] at hwrite

/-- Giving a chain back writes, and moves on in the used ring. -/
theorem pushUsed_keeps (hwrite : ∀ len gpa value, Stays P (writeInt len gpa value))
    {qi : ℕ} (hused : ∀ m₀ m usedIdx, P m₀ → P m →
      P { m with queues := Function.update m.queues qi { m₀.queues qi with usedIdx } })
    (head written : ℕ) : Stays P (pushUsed qi head written) := by
  refine (getQueue_keeps qi).bind fun q hq => .guard <|
    (ringAddr_keeps _ _ _ _).bind fun elem _ => (hwrite _ _ _).bind fun _ _ =>
      (checkedAdd_keeps _ _).bind fun _ _ => (hwrite _ _ _).bind fun _ _ =>
        (Keeps.modify fun m hm => ?_).bind fun _ _ =>
          (checkedAdd_keeps _ _).bind fun _ _ => hwrite _ _ _
  obtain ⟨m₀, hm₀, rfl⟩ := hq
  exact hused m₀ m _ hm₀ hm

/-- Every part of the used ring that is written is marked by the write itself, so that a push that
fails midway leaves nothing unmarked. -/
theorem pushUsed_covered (qi head written : ℕ) :
    Stays (fun m => Covered m.ram) (pushUsed qi head written : DeviceM D Unit) :=
  pushUsed_keeps writeInt_covered (fun _ _ _ _ h => h) head written

def Within (handle : Handler D) : Prop :=
  ∀ chain device ram, CoveredBut chain.segments ram →
    CoveredBut chain.segments (handle chain device ram).2.2

variable {handle : Handler D}

lemma runHandler_but (h : Within handle) (chain : Chain) :
    Lib.EState.Triple (fun m => Covered m.ram) (runHandler handle chain)
      (fun _ m => CoveredBut chain.segments m.ram) fun m => Covered m.ram :=
  fun m hm => h chain m.device m.ram (hm.but _)

/-- **The loop of a notification** leaves everything it has stored marked, however it ends. -/
theorem serve_covered (qi : ℕ) (h : Within handle) : ∀ (budget : ℕ) (didWork : Bool),
    Stays (fun m => Covered m.ram) (serve qi handle budget didWork)
  | 0, _ => .pure
  | budget + 1, didWork => by
    refine (popAvail_covered qi).capture.bind fun popped _ => ?_
    match popped with
    | .error _ => exact Stays.pure
    | .ok none => exact Stays.pure
    | .ok (some chain) =>
      refine Lib.EState.Triple.bind (runHandler_but h chain) fun written =>
        Lib.EState.Triple.bind (Q := fun _ (m : Machine D) => Covered m.ram)
          (fun m hm => markSegments_covered hm) fun _ => ?_
      refine (pushUsed_covered qi _ _).capture.bind fun pushed _ => ?_
      cases pushed with
      | error _ => exact Stays.pure
      | ok _ => exact serve_covered qi h budget true

lemma device_readStable (P : D → Prop) : ReadStable fun m : Machine D => P m.device :=
  ⟨fun _ h => h, fun _ _ _ h _ => h⟩

lemma writeInt_device (P : D → Prop) (len gpa value : ℕ) :
    Stays (fun m => P m.device) (writeInt len gpa value : DeviceM D Unit) :=
  (checkSlice_keeps gpa len).bind fun _ _ => .modify fun _ h => h

/-- **The loop of a notification** keeps what its handler keeps of the device. -/
theorem serve_device {P : D → Prop} (qi : ℕ)
    (h : ∀ chain device ram, P device → P (handle chain device ram).2.1) :
    ∀ (budget : ℕ) (didWork : Bool), Stays (fun m => P m.device) (serve qi handle budget didWork)
  | 0, _ => .pure
  | budget + 1, didWork => by
    have hpop : Stays (fun m => P m.device) (popAvail qi : DeviceM D (Option Chain)) :=
      popAvail_keeps (device_readStable P) fun _ _ _ hm => hm
    have hpush : ∀ head written,
        Stays (fun m => P m.device) (pushUsed qi head written : DeviceM D Unit) :=
      pushUsed_keeps (writeInt_device P) fun _ _ _ _ hm => hm
    refine hpop.capture.bind fun popped _ => ?_
    match popped with
    | .error _ => exact Stays.pure
    | .ok none => exact Stays.pure
    | .ok (some chain) =>
      refine .bind (Q := fun _ => True) (fun m hm => ⟨h chain m.device m.ram hm, trivial⟩)
        fun written _ => .bind (Q := fun _ => True) (fun _ hm => ⟨hm, trivial⟩) fun _ _ => ?_
      refine (hpush _ _).capture.bind fun pushed _ => ?_
      cases pushed with
      | error _ => exact Stays.pure
      | ok _ => exact serve_device qi h budget true

end Rules

end Queue

end SporeVM.Virtio
