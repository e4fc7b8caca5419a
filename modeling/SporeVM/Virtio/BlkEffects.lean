import SporeVM.Virtio.Blk

/-!
# What a block request does

A request that is rejected before the back end is asked, or whose prefault fails, leaves the disk as
it was and changes guest memory at the status byte at most. One that succeeds moves exactly the
bytes of its range. The length it returns is the number of bytes stored into guest memory.

The segments of a request may overlap, so that a byte of guest memory can be stored more than once,
and the status byte can lie in a data segment.
-/

namespace SporeVM.Virtio.Blk

open Lib
open Lib.EState (outcome run_of_reply)
open Queue (Segment)
open List
open Function

variable {Id : Type} [DecidableEq Id] {hash : List UInt8 → Id}
  {stringify : DiskIndex Id → List UInt8}

/-- The bytes that a back end holds: those of the file, those of the list, or the array at this
point of the disk's history. -/
def Backend.Shows (hash : List UInt8 → Id) (stringify : DiskIndex Id → List UInt8) :
    Backend Id → SparseFile → Prop
  | .file f, A => f.content = A
  | .chunkMapped s _, A => ∃ G, History hash stringify s G ∧ G.now = A
  | .memory bytes, A => SparseFile.ofList bytes = A

-- ══ Back ends

variable {data : List UInt8}

section Backends

variable {A : SparseFile} {b b' : Backend Id}

omit [DecidableEq Id] in
@[simp] lemma HostFile.next_content (f : HostFile) : f.next.2.content = f.content := by
  unfold HostFile.next
  split <;> rfl

lemma HostFile.read_ok {f f' : HostFile} {len offset : ℕ} (h : f.read len offset = (.ok data, f')) :
    data = slice f.content.byte offset len ∧ f'.content = f.content := by
  unfold HostFile.read at h
  split at h
  · next hlen =>
    cases h
    exact ⟨by rw [hlen, slice_zero], rfl⟩
  · have hcontent := f.next_content
    cases hnext : f.next with
    | mk fault g =>
      rw [hnext] at h hcontent
      cases fault with
      | some n => cases h
      | none =>
        simp only at h hcontent
        split at h
        · cases h
          exact ⟨by rw [hcontent], hcontent⟩
        · cases h

lemma HostFile.write_ok {f f' : HostFile} {offset : ℕ}
    (h : f.write data offset = (true, f')) : f'.content = f.content.pwrite offset data := by
  unfold HostFile.write at h
  split at h
  · next hdata =>
    cases h
    rw [hdata, SparseFile.pwrite_nil]
  split at h
  · cases h
  · have hcontent := f.next_content
    cases hnext : f.next with
    | mk fault g =>
      rw [hnext] at h hcontent
      cases fault with
      | some n => cases h
      | none =>
        cases h
        rw [hcontent]

lemma Backend.prefaultCasRange_shows (h : b.Shows hash stringify A) (len offset : ℕ) :
    (b.prefaultCasRange hash len offset).2.Shows hash stringify A := by
  cases b with
  | file f => exact h
  | memory bytes => exact h
  | chunkMapped s residues =>
    obtain ⟨G, hG, hA⟩ := h
    exact ⟨G, hG.step .prefaulted, hA⟩

variable (hinj : Injective hash)

include hinj

lemma Backend.readAt_ok (h : b.Shows hash stringify A) {len offset : ℕ}
    (hrun : b.readAt hash len offset = (.ok data, b')) :
    data = slice A.byte offset len ∧ b'.Shows hash stringify A := by
  cases b with
  | file f =>
    cases hread : f.read len offset with
    | mk result f' =>
      simp only [Backend.readAt, hread, Prod.mk.injEq] at hrun
      obtain ⟨rfl, rfl⟩ := hrun
      obtain ⟨hdata, hcontent⟩ := HostFile.read_ok hread
      obtain rfl : f.content = A := h
      exact ⟨hdata, hcontent⟩
  | memory bytes =>
    obtain rfl : SparseFile.ofList bytes = A := h
    simp only [Backend.readAt] at hrun
    split at hrun
    · cases hrun
    · cases hrun
      exact ⟨(SparseFile.slice_ofList bytes offset len (by omega)).symm, rfl⟩
  | chunkMapped s residues =>
    obtain ⟨G, hG, rfl⟩ := h
    simp only [Backend.readAt] at hrun
    cases hread : outcome (SporeVM.readAt hash len offset) s with
    | mk result s' =>
      rw [hread] at hrun
      cases result with
      | error e => cases hrun
      | ok data' =>
        cases hrun
        have hok := run_of_reply (congrArg Prod.fst hread)
        rw [hread] at hok
        obtain ⟨-, hdata, -⟩ := SporeVM.readAt_ok hinj (hG.sound hinj).sim hok
        have hexec : (Op.readAt len offset).exec hash stringify s = .ok data s' := hok
        exact ⟨hdata, G, hG.step (.ok hexec), rfl⟩

omit hinj in
lemma Backend.writeAt_ok (h : b.Shows hash stringify A) {offset : ℕ}
    (hrun : b.writeAt hash data offset = (true, b')) :
    b'.Shows hash stringify (A.pwrite offset data) := by
  cases b with
  | file f =>
    cases hwrite : f.write data offset with
    | mk result f' =>
      simp only [Backend.writeAt, hwrite, Prod.mk.injEq] at hrun
      obtain ⟨rfl, rfl⟩ := hrun
      obtain rfl : f.content = A := h
      exact HostFile.write_ok hwrite
  | memory bytes =>
    obtain rfl : SparseFile.ofList bytes = A := h
    simp only [Backend.writeAt] at hrun
    split at hrun
    · cases hrun
    · cases hrun
      exact SparseFile.ofList_splice bytes data offset (by omega)
  | chunkMapped s residues =>
    obtain ⟨G, hG, rfl⟩ := h
    simp only [Backend.writeAt, Prod.mk.injEq] at hrun
    obtain ⟨hreply, rfl⟩ := hrun
    rcases EState.outcome_cases (SporeVM.writeAt hash data offset) s with
      ⟨u, -, hok⟩ | ⟨e, herror, -⟩
    · have hexec : (Op.writeAt data offset).exec hash stringify s = .ok [] _ :=
        EState.bind_ok.mpr ⟨u, _, hok, rfl⟩
      exact ⟨_, hG.step (.ok hexec), rfl⟩
    · rw [herror] at hreply
      cases hreply

omit hinj in
lemma Backend.zeroRange_ok (h : b.Shows hash stringify A) {offset len : ℕ}
    (hrun : b.zeroRange hash offset len = (true, b')) :
    b'.Shows hash stringify (A.zeroed offset len) := by
  cases b with
  | file f => cases hrun
  | memory bytes =>
    obtain rfl : SparseFile.ofList bytes = A := h
    simp only [Backend.zeroRange] at hrun
    split at hrun
    · cases hrun
    split at hrun
    · cases hrun
    · next hin =>
      cases hrun
      have hsplice := SparseFile.ofList_splice bytes (replicate len 0) offset (by simp; omega)
      rw [length_replicate, SparseFile.pwrite_zeros _ _ _ (by
        change offset + len ≤ bytes.length
        omega)] at hsplice
      exact hsplice
  | chunkMapped s residues =>
    obtain ⟨G, hG, rfl⟩ := h
    simp only [Backend.zeroRange] at hrun
    cases hzero : outcome (SporeVM.zeroRange hash offset len) s with
    | mk result s' =>
      rw [hzero] at hrun
      cases result with
      | error e => cases hrun
      | ok u =>
        cases hrun
        have hok := run_of_reply (congrArg Prod.fst hzero)
        rw [hzero] at hok
        have hexec : (Op.zeroRange offset len).exec hash stringify s = .ok [] s' :=
          EState.bind_ok.mpr ⟨u, _, hok, rfl⟩
        exact ⟨_, hG.step (.ok hexec), rfl⟩

end Backends

-- ══ The loops

def totalLen (segs : List Queue.Segment) : ℕ := (segs.map Queue.Segment.len).sum

def gather (ram : GuestRam) (segs : List Queue.Segment) : List UInt8 :=
  segs.flatMap fun seg => ram.bytesAt seg.addr seg.len

def scatter (A : SparseFile) : List Queue.Segment → ℕ → GuestRam → GuestRam
  | [], _, ram => ram
  | seg :: rest, offset, ram =>
    scatter A rest (offset + seg.len) (ram.store seg.addr (slice A.byte offset seg.len))

def bytesStored (ram : GuestRam) : ℕ := (ram.written.map GuestRange.len).sum

@[simp] lemma bytesStored_store (ram : GuestRam) (addr : ℕ) (data : List UInt8) :
    bytesStored (ram.store addr data) = data.length + bytesStored ram := by
  simp [bytesStored, GuestRam.store]

lemma totalLen_cons (seg : Segment) (rest : List Segment) :
    totalLen (seg :: rest) = seg.len + totalLen rest := by
  simp [totalLen]

lemma bytesStored_scatter (A : SparseFile) : ∀ (segs : List Segment) (offset : ℕ) (ram : GuestRam),
    bytesStored (scatter A segs offset ram) = totalLen segs + bytesStored ram
  | [], _, _ => by simp [scatter, totalLen]
  | seg :: rest, offset, ram => by
    rw [scatter, bytesStored_scatter A rest, bytesStored_store, length_slice, totalLen_cons]
    omega

/-- **Validation**: the segments have the right direction and the request ends in the disk. -/
theorem validateData_ok {wantWritable : Bool} {capacity : ℕ} :
    ∀ {segs : List Segment} {offset moved : ℕ} {result : ℕ × ℕ},
      validateData wantWritable capacity segs offset moved = some result →
      (∀ seg ∈ segs, seg.writable = wantWritable) ∧ result.1 = offset + totalLen segs ∧
        (segs ≠ [] → offset + totalLen segs ≤ capacity) ∧
        result.2 = (if wantWritable then moved + totalLen segs else moved) ∧
        (moved + 1 ≤ maxU32 → result.2 + 1 ≤ maxU32)
  | [], offset, moved, result, h => by
    cases h
    simp [totalLen]
  | seg :: rest, offset, moved, result, h => by
    simp only [validateData] at h
    split at h
    · cases h
    next hwritable =>
    split at h
    · cases h
    split at h
    · cases h
    split at h
    · cases h
    next hcapacity =>
    have hend : rest = [] → totalLen rest = 0 := by
      rintro rfl
      rfl
    rw [totalLen_cons]
    split at h
    · next hwant =>
      split at h
      · cases h
      split at h
      · cases h
      next hmoved =>
      obtain ⟨hall, hstop, hin, hcount, hle⟩ := validateData_ok h
      rw [if_pos hwant] at hcount
      refine ⟨forall_mem_cons.mpr ⟨by simpa using hwritable, hall⟩, by omega, fun _ => ?_, ?_,
        fun hfit => hle (by omega)⟩
      · by_cases hrest : rest = []
        · have := hend hrest
          omega
        · have := hin hrest
          omega
      · rw [if_pos hwant]
        omega
    · next hwant =>
      obtain ⟨hall, hstop, hin, hcount, hle⟩ := validateData_ok h
      rw [if_neg hwant] at hcount
      refine ⟨forall_mem_cons.mpr ⟨by simpa using hwritable, hall⟩, by omega, fun _ => ?_, ?_, hle⟩
      · by_cases hrest : rest = []
        · have := hend hrest
          omega
        · have := hin hrest
          omega
      · rw [if_neg hwant]
        exact hcount

variable {ram : GuestRam}

section Loops

variable (hinj : Injective hash)

include hinj

/-- **Reads** put the bytes of the disk into the segments, in their order. -/
theorem readSegments_ok {A : SparseFile} : ∀ {segs : List Segment} {offset : ℕ}
    {b b' : Backend Id} {ram ram' : GuestRam}, b.Shows hash stringify A →
    readSegments hash segs offset b ram = (true, b', ram') →
    b'.Shows hash stringify A ∧ ram' = scatter A segs offset ram
  | [], _, _, _, _, _, h, hrun => by
    cases hrun
    exact ⟨h, rfl⟩
  | seg :: rest, offset, b, b', ram, ram', h, hrun => by
    simp only [readSegments] at hrun
    cases hread : b.readAt hash seg.len offset with
    | mk result b₁ =>
      rw [hread] at hrun
      cases result with
      | error residue => cases hrun
      | ok data =>
        obtain ⟨rfl, hb₁⟩ := Backend.readAt_ok hinj h hread
        have hrest : readSegments hash rest (offset + seg.len) b₁
            (ram.store seg.addr (slice A.byte offset seg.len)) = (true, b', ram') := hrun
        obtain ⟨hshows, hram⟩ := readSegments_ok hb₁ hrest
        exact ⟨hshows, hram⟩

omit hinj in
/-- **Writes** put the bytes of the segments on the disk, in their order. -/
theorem writeSegments_ok : ∀ {segs : List Segment} {offset : ℕ} {A : SparseFile}
    {b b' : Backend Id}, b.Shows hash stringify A →
    writeSegments hash ram segs offset b = (true, b') →
    b'.Shows hash stringify (A.pwrite offset (gather ram segs))
  | [], _, _, _, _, h, hrun => by
    cases hrun
    rw [gather, flatMap_nil, SparseFile.pwrite_nil]
    exact h
  | seg :: rest, offset, A, b, b', h, hrun => by
    simp only [writeSegments] at hrun
    cases hwrite : b.writeAt hash (ram.bytesAt seg.addr seg.len) offset with
    | mk result b₁ =>
      rw [hwrite] at hrun
      cases result with
      | false => cases hrun
      | true =>
        have hrest := writeSegments_ok (Backend.writeAt_ok h hwrite) hrun
        have happend := A.pwrite_append offset (ram.bytesAt seg.addr seg.len) (gather ram rest)
        rw [GuestRam.bytesAt, length_slice] at happend
        rw [GuestRam.bytesAt, happend] at hrest
        exact hrest

end Loops

-- ══ Requests

/-- Memory is as it was and nothing is returned, or one byte has been stored, at the beginning of
the last segment, which is writable and not empty, and 1 is returned. -/
def StatusOnly (segs : List Queue.Segment) (ram ram' : GuestRam) (written : ℕ) : Prop :=
  (ram' = ram ∧ written = 0) ∨
    ∃ status code, segs.getLast? = some status ∧ status.writable = true ∧ status.len ≥ 1 ∧
      ram' = ram.store status.addr [code] ∧ written = 1

def askedRange (header : Queue.Segment) (data : List Queue.Segment) (ram : GuestRam) : ℕ × ℕ :=
  if requestType header ram = reqWriteZeroes then
    (((zeroesRange (data.headD header) ram).1) * sectorSize,
      (zeroesRange (data.headD header) ram).2.1 * sectorSize)
  else (requestSector header ram * sectorSize, totalLen data)

def diskAfter (header : Queue.Segment) (data : List Queue.Segment) (ram : GuestRam)
    (A : SparseFile) :
    SparseFile :=
  if requestType header ram = reqOut then
    A.pwrite (askedRange header data ram).1 (gather ram data)
  else if requestType header ram = reqWriteZeroes then
    A.zeroed (askedRange header data ram).1 (askedRange header data ram).2
  else A

def memoryAfter (header : Queue.Segment) (data : List Queue.Segment) (ram : GuestRam)
    (A : SparseFile) :
    GuestRam :=
  if requestType header ram = reqIn then scatter A data (askedRange header data ram).1 ram else ram

/-- The disk, guest memory and the length returned after a request with this header, these data
segments and this status segment has succeeded. -/
structure Succeeds (hash : List UInt8 → Id) (stringify : DiskIndex Id → List UInt8)
    (blk blk' : Blk Id) (header : Queue.Segment) (data : List Queue.Segment)
      (status : Queue.Segment)
    (ram ram' : GuestRam) (A : SparseFile) (written : ℕ) : Prop where
  within : ∀ i, (askedRange header data ram).1 ≤ i →
    i < (askedRange header data ram).1 + (askedRange header data ram).2 →
    i < blk.capacitySectors * sectorSize
  direction : requestType header ram = reqIn ∨ requestType header ram = reqOut →
    ∀ seg ∈ data, seg.writable = decide (requestType header ram = reqIn)
  disk : blk'.backend.Shows hash stringify (diskAfter header data ram A)
  memory : ram' = (memoryAfter header data ram A).store status.addr [statusOk]
  length : written = (if requestType header ram = reqIn then totalLen data else 0) + 1
  fits : written ≤ maxU32

variable {segs : List Segment} {status : Segment}

lemma failStatus_only (h : segs.getLast? = some status) (ram : GuestRam) :
    StatusOnly segs ram (failStatus status ram).2 (failStatus status ram).1 := by
  unfold failStatus
  split
  · next hstatus => exact .inr ⟨status, _, h, hstatus.1, hstatus.2, rfl, rfl⟩
  · exact .inl ⟨rfl, rfl⟩

lemma unsupportedStatus_only (h : segs.getLast? = some status) (ram : GuestRam) :
    StatusOnly segs ram (unsupportedStatus status ram).2 (unsupportedStatus status ram).1 := by
  unfold unsupportedStatus
  split
  · next hstatus => exact .inr ⟨status, _, h, hstatus.1, hstatus.2, rfl, rfl⟩
  · exact .inl ⟨rfl, rfl⟩

structure Effects (hash : List UInt8 → Id) (stringify : DiskIndex Id → List UInt8) (blk : Blk Id)
    (header : Queue.Segment) (data : List Queue.Segment) (status : Queue.Segment) (ram : GuestRam)
      (A : SparseFile)
    (out : Answer Id) : Prop where
  rejected : out.1.verdict = .rejected →
    out.2.1 = blk ∧ StatusOnly (header :: (data ++ [status])) ram out.2.2 out.1.written
  prefault : out.1.verdict = .prefaultFailed → out.2.1.backend.Shows hash stringify A ∧
    StatusOnly (header :: (data ++ [status])) ram out.2.2 out.1.written
  succeeded : out.1.verdict = .succeeded →
    Succeeds hash stringify blk out.2.1 header data status ram out.2.2 A out.1.written

section Answers

variable {blk blk' : Blk Id} {header status : Segment} {data : List Segment} {ram : GuestRam}
  {A : SparseFile} {r : ℕ × GuestRam}

omit [DecidableEq Id] in
lemma getLast?_framed (header status : Segment) (data : List Segment) :
    (header :: (data ++ [status])).getLast? = some status := by
  rw [← cons_append, List.getLast?_concat]

lemma effects_rejected (h : StatusOnly (header :: (data ++ [status])) ram r.2 r.1) :
    Effects hash stringify blk header data status ram A (answer .rejected blk r) :=
  ⟨fun _ => ⟨rfl, h⟩, by rintro ⟨⟩, by rintro ⟨⟩⟩

lemma effects_failStatus : Effects hash stringify blk header data status ram A
      (answer .rejected blk (failStatus status ram)) :=
  effects_rejected (failStatus_only (getLast?_framed header status data) ram)

lemma effects_backendFailed :
    Effects hash stringify blk header data status ram A (answer .backendFailed blk' r) :=
  ⟨by rintro ⟨⟩, by rintro ⟨⟩, by rintro ⟨⟩⟩

lemma effects_succeeded (h : Succeeds hash stringify blk blk' header data status ram r.2 A r.1) :
    Effects hash stringify blk header data status ram A (answer .succeeded blk' r) :=
  ⟨by rintro ⟨⟩, by rintro ⟨⟩, fun _ => h⟩

variable (hinj : Injective hash) (hA : blk.backend.Shows hash stringify A)

include hinj hA

lemma handleIn_effects (htype : requestType header ram = reqIn) :
    Effects hash stringify blk header data status ram A
      (handleIn hash blk (requestSector header ram) data status ram) := by
  have hasked : askedRange header data ram =
      (requestSector header ram * sectorSize, totalLen data) := by
    rw [askedRange, if_neg (by rw [htype]; decide)]
  unfold handleIn
  split
  · exact effects_failStatus
  cases hvalid : validateData true (blk.capacitySectors * sectorSize) data
      (requestSector header ram * sectorSize) 0 with
  | none => exact effects_failStatus
  | some result =>
    obtain ⟨stop, moved⟩ := result
    obtain ⟨hwritable, hstop, hin, hmoved, hfits⟩ := validateData_ok hvalid
    simp only [if_true, Nat.zero_add] at hmoved hfits
    simp only
    have hprefault := Backend.prefaultCasRange_shows hA
      (stop - requestSector header ram * sectorSize)
      (requestSector header ram * sectorSize)
    generalize blk.backend.prefaultCasRange hash (stop - requestSector header ram * sectorSize)
      (requestSector header ram * sectorSize) = prefault at hprefault
    match prefault, hprefault with
    | (false, backend), hprefault =>
      refine ⟨by rintro ⟨⟩, fun _ => ⟨hprefault, ?_⟩, by rintro ⟨⟩⟩
      exact failStatus_only (getLast?_framed header status data) ram
    | (true, backend), hprefault =>
      simp only
      cases hread : readSegments hash data (requestSector header ram * sectorSize) backend ram with
      | mk ok rest =>
        obtain ⟨backend', ram'⟩ := rest
        cases ok with
        | false => exact effects_backendFailed
        | true =>
          obtain ⟨hshows, rfl⟩ := readSegments_ok hinj hprefault hread
          have hstatus : okStatus status moved
              (scatter A data (requestSector header ram * sectorSize) ram) = (moved + 1,
                (scatter A data (requestSector header ram * sectorSize) ram).store status.addr
                  [statusOk]) := if_neg (Nat.not_lt.mpr (hfits (by decide)))
          simp only [hstatus]
          refine effects_succeeded ⟨fun i hlo hhi => ?_, fun _ seg hseg => ?_, ?_, ?_, ?_,
            hfits (by decide)⟩
          · rw [hasked] at hlo hhi
            refine Nat.lt_of_lt_of_le hhi (hin ?_)
            rintro rfl
            simp only [totalLen, map_nil, sum_nil] at hlo hhi
            omega
          · rw [hwritable seg hseg, htype]
            rfl
          · rw [diskAfter, if_neg (by rw [htype]; decide), if_neg (by rw [htype]; decide)]
            exact hshows
          · rw [memoryAfter, if_pos htype, hasked]
          · rw [if_pos htype, hmoved]

omit hinj in
lemma handleOut_effects (htype : requestType header ram = reqOut) :
    Effects hash stringify blk header data status ram A
      (handleOut hash blk (requestSector header ram) data status ram) := by
  have hasked : askedRange header data ram =
      (requestSector header ram * sectorSize, totalLen data) := by
    rw [askedRange, if_neg (by rw [htype]; decide)]
  unfold handleOut
  split
  · exact effects_failStatus
  split
  · exact effects_failStatus
  cases hvalid : validateData false (blk.capacitySectors * sectorSize) data
      (requestSector header ram * sectorSize) 0 with
  | none => exact effects_failStatus
  | some result =>
    obtain ⟨stop, moved⟩ := result
    obtain ⟨hreadable, hstop, hin, hmoved, -⟩ := validateData_ok hvalid
    obtain rfl : moved = 0 := by simpa using hmoved
    cases hwrite : writeSegments hash ram data (requestSector header ram * sectorSize)
        blk.backend with
    | mk ok backend =>
      cases ok with
      | false => exact effects_backendFailed
      | true =>
        have hshows := writeSegments_ok hA hwrite
        have hstatus : okStatus status 0 ram = (1, ram.store status.addr [statusOk]) :=
          if_neg (by decide)
        simp only [hstatus]
        refine effects_succeeded ⟨fun i hlo hhi => ?_, fun _ seg hseg => ?_, ?_, ?_, ?_,
          (by decide : 1 ≤ maxU32)⟩
        · rw [hasked] at hlo hhi
          refine Nat.lt_of_lt_of_le hhi (hin ?_)
          rintro rfl
          simp only [totalLen, map_nil, sum_nil] at hlo hhi
          omega
        · rw [hreadable seg hseg, htype]
          rfl
        · rw [diskAfter, if_pos htype, hasked]
          exact hshows
        · rw [memoryAfter, if_neg (by rw [htype]; decide)]
        · rw [if_neg (by rw [htype]; decide)]

omit hinj in
lemma handleWriteZeroes_effects (htype : requestType header ram = reqWriteZeroes) :
    Effects hash stringify blk header data status ram A
      (handleWriteZeroes hash blk header data status ram) := by
  unfold handleWriteZeroes
  split
  · exact effects_rejected (unsupportedStatus_only (getLast?_framed header status data) ram)
  split
  case h_2 => exact effects_failStatus
  next range =>
  split
  · exact effects_failStatus
  split
  · exact effects_failStatus
  split
  · exact effects_failStatus
  have hasked : askedRange header [range] ram = ((zeroesRange range ram).1 * sectorSize,
      (zeroesRange range ram).2.1 * sectorSize) := by
    rw [askedRange, if_pos htype]
    rfl
  unfold zeroSectors
  iterate 5
    split
    · exact effects_failStatus
  next hcapacity =>
  split
  · exact effects_rejected (unsupportedStatus_only (getLast?_framed header status [range]) ram)
  split
  · exact effects_backendFailed
  cases hzero : blk.backend.zeroRange hash ((zeroesRange range ram).1 * sectorSize)
      ((zeroesRange range ram).2.1 * sectorSize) with
  | mk ok backend =>
    cases ok with
    | false => exact effects_backendFailed
    | true =>
      have hshows := Backend.zeroRange_ok hA hzero
      refine effects_succeeded ⟨fun i hlo hhi => ?_, fun hio => ?_, ?_, ?_, ?_,
        (by decide : 1 ≤ maxU32)⟩
      · rw [hasked] at hlo hhi
        omega
      · rw [htype] at hio
        exact absurd hio (by decide)
      · rw [diskAfter, if_neg (by rw [htype]; decide), if_pos htype, hasked]
        exact hshows
      · rw [memoryAfter, if_neg (by rw [htype]; decide)]
      · rw [if_neg (by rw [htype]; decide)]

end Answers

def Moves (segs : List Queue.Segment) (ram : GuestRam) : Prop :=
  ∀ header rest, segs = header :: rest → header.writable = false → 16 ≤ header.len →
    requestType header ram = reqIn ∨ requestType header ram = reqOut ∨
      requestType header ram = reqWriteZeroes

lemma StatusOnly.bytesStored {ram ram' : GuestRam} {written : ℕ}
    (h : StatusOnly segs ram ram' written) :
    written ≤ maxU32 ∧ bytesStored ram' = written + bytesStored ram := by
  rcases h with ⟨rfl, rfl⟩ | ⟨status, code, -, -, -, rfl, rfl⟩
  · exact ⟨by decide, (Nat.zero_add _).symm⟩
  · exact ⟨by decide, bytesStored_store _ _ _⟩

lemma Succeeds.bytesStored {blk blk' : Blk Id} {header : Segment}
    {data : List Segment} {ram ram' : GuestRam} {A : SparseFile} {written : ℕ}
    (h : Succeeds hash stringify blk blk' header data status ram ram' A written) :
    Blk.bytesStored ram' = written + Blk.bytesStored ram := by
  rw [h.memory, bytesStored_store, h.length, memoryAfter]
  split
  · rw [bytesStored_scatter, length_singleton]
    omega
  · rfl

lemma dispatch_effects (hinj : Injective hash) {blk : Blk Id} {A : SparseFile}
    (hA : blk.backend.Shows hash stringify A) {header : Segment} {data : List Segment}
    (htype : requestType header ram = reqIn ∨ requestType header ram = reqOut ∨
      requestType header ram = reqWriteZeroes) : Effects hash stringify blk header data status ram A
      (dispatch hash blk header data status ram) := by
  unfold dispatch
  rcases htype with htype | htype | htype
  · rw [if_pos htype]
    exact handleIn_effects hinj hA htype
  · rw [if_neg (by rw [htype]; decide), if_pos htype]
    exact handleOut_effects hA htype
  · iterate 4 rw [if_neg (by rw [htype]; decide)]
    rw [if_pos htype]
    exact handleWriteZeroes_effects hA htype

lemma handleRequest_framed (header status : Segment) (data : List Segment) (blk : Blk Id)
    (ram : GuestRam) : handleRequest hash (header :: (data ++ [status])) blk ram =
      if header.writable = true ∨ header.len < 16 then answer .rejected blk (failStatus status ram)
      else if status.writable = false ∨ status.len < 1 then (⟨0, .rejected⟩, blk, ram)
      else dispatch hash blk header data status ram := by
  cases data with
  | nil => rfl
  | cons seg rest =>
    rw [cons_append, handleRequest]
    simp only [← cons_append, getLast_concat, dropLast_concat]

lemma handleRequest_effects (hinj : Injective hash) {blk : Blk Id} {A : SparseFile}
    (hA : blk.backend.Shows hash stringify A) (hmoves : Moves segs ram) :
    ((handleRequest hash segs blk ram).1.verdict = .rejected ∧
        (handleRequest hash segs blk ram).2.1 = blk ∧
        StatusOnly segs ram (handleRequest hash segs blk ram).2.2
          (handleRequest hash segs blk ram).1.written) ∨
      ∃ header data status, segs = header :: (data ++ [status]) ∧ status.writable = true ∧
        status.len ≥ 1 ∧ Effects hash stringify blk header data status ram A
          (handleRequest hash segs blk ram) := by
  match segs, hmoves with
  | [], _ => exact .inl ⟨rfl, rfl, .inl ⟨rfl, rfl⟩⟩
  | [_], _ => exact .inl ⟨rfl, rfl, .inl ⟨rfl, rfl⟩⟩
  | header :: second :: rest, hmoves =>
    obtain ⟨data, status, hsplit⟩ :=
      (eq_nil_or_concat (second :: rest)).resolve_left (cons_ne_nil _ _)
    rw [hsplit, concat_eq_append] at hmoves ⊢
    rw [handleRequest_framed]
    split
    · exact .inl ⟨rfl, rfl, failStatus_only (getLast?_framed header status data) ram⟩
    next hheader =>
    split
    · exact .inl ⟨rfl, rfl, .inl ⟨rfl, rfl⟩⟩
    next hstatus =>
    rw [not_or, Bool.not_eq_true, Nat.not_lt] at hheader
    rw [not_or, Bool.not_eq_false, Nat.not_lt] at hstatus
    refine .inr ⟨header, data, status, rfl, hstatus.1, hstatus.2, ?_⟩
    exact dispatch_effects hinj hA (hmoves header _ rfl hheader.1 hheader.2)

/-- **Effects of a request.** Rejected requests and failed prefaults change nothing but the status
byte; a request that succeeds moves the bytes of its range, which lies in the disk. The length
returned is the number of bytes stored. -/
theorem request_effects (hinj : Injective hash) {blk blk' : Blk Id} {A : SparseFile}
    (hA : blk.backend.Shows hash stringify A) {segs : List Queue.Segment} {ram ram' : GuestRam}
    (hmoves : Moves segs ram) {reply : Reply}
    (hrun : handleRequest hash segs blk ram = (reply, blk', ram')) :
    (reply.verdict = .rejected → blk' = blk ∧ StatusOnly segs ram ram' reply.written) ∧
      (reply.verdict = .prefaultFailed → blk'.backend.Shows hash stringify A ∧
        StatusOnly segs ram ram' reply.written) ∧
      (reply.verdict = .succeeded → ∃ header data status, segs = header :: (data ++ [status]) ∧
        status.writable = true ∧ status.len ≥ 1 ∧
          Succeeds hash stringify blk blk' header data status ram ram' A reply.written) ∧
      (reply.verdict ≠ .backendFailed → reply.written ≤ maxU32 ∧
        bytesStored ram' = reply.written + bytesStored ram) := by
  have heffects := handleRequest_effects hinj hA hmoves
  rw [hrun] at heffects
  rcases heffects with ⟨hverdict, hblk, hstatus⟩ | ⟨header, data, status, rfl, hwritable, hlen, h⟩
  · rw [hverdict]
    exact ⟨fun _ => ⟨hblk, hstatus⟩, by rintro ⟨⟩, by rintro ⟨⟩, fun _ => hstatus.bytesStored⟩
  · refine ⟨h.rejected, h.prefault, fun hok => ⟨header, data, status, rfl, hwritable, hlen,
      h.succeeded hok⟩, fun hne => ?_⟩
    cases hverdict : reply.verdict with
    | rejected => exact (h.rejected hverdict).2.bytesStored
    | prefaultFailed => exact (h.prefault hverdict).2.bytesStored
    | backendFailed => exact absurd hverdict hne
    | succeeded => exact ⟨(h.succeeded hverdict).fits, (h.succeeded hverdict).bytesStored⟩

def sampleBlk : Blk (List UInt8) where
  backend := .memory (replicate 1024 5)
  capacitySectors := 2
  capacity_le := by decide

def sampleRam (sector : UInt8) : GuestRam where
  base := 0
  size := 4096
  byte a := if a = 8 then sector else if a < 16 then 0 else 7

def sampleSegments (statusAddr : ℕ) : List Queue.Segment :=
  [⟨0, 16, false⟩, ⟨512, 512, true⟩, ⟨statusAddr, 1, true⟩]

lemma sampleSegments_moves (statusAddr : ℕ) (sector : UInt8) :
    Moves (sampleSegments statusAddr) (sampleRam sector) := by
  rintro header rest hsegs - -
  cases hsegs
  exact .inl rfl

/-- A read of the first sector returns 513. -/
theorem request_effects_sample :
    ∃ reply blk' ram', handleRequest id (sampleSegments 2000) sampleBlk (sampleRam 0) =
        (reply, blk', ram') ∧ reply = ⟨513, .succeeded⟩ ∧ reply.written ≤ maxU32 ∧
        bytesStored ram' = reply.written + bytesStored (sampleRam 0) := by
  have hreply : (handleRequest id (sampleSegments 2000) sampleBlk (sampleRam 0)).1 =
      ⟨513, .succeeded⟩ := by decide +kernel
  have hA : sampleBlk.backend.Shows id (fun _ => []) (SparseFile.ofList (replicate 1024 5)) := rfl
  cases hrun : handleRequest id (sampleSegments 2000) sampleBlk (sampleRam 0) with
  | mk reply rest =>
    rw [hrun] at hreply
    cases hreply
    obtain ⟨-, -, -, hstored⟩ := request_effects injective_id hA (sampleSegments_moves 2000 0) hrun
    exact ⟨_, _, _, rfl, rfl, hstored (by decide)⟩

/-- A read past the end is rejected, and its status byte lies in its data segment. -/
theorem rejected_request_changes_data :
    (handleRequest id (sampleSegments 512) sampleBlk (sampleRam 2)).1 = ⟨1, .rejected⟩ ∧
      (handleRequest id (sampleSegments 512) sampleBlk (sampleRam 2)).2.2.bytesAt 512 512 ≠
        (sampleRam 2).bytesAt 512 512 := by
  decide +kernel

end SporeVM.Virtio.Blk
