import SporeVM.Virtio.Blk

/-!
# Failed writes poison the disk

A write or a zeroing that passed validation and then failed in the back end may have changed a part
of its range. The block device poisons the disk, and nothing ever lifts that: from then on no
snapshot and no export of the disk succeeds. A request that is rejected leaves the device as it was.
-/

namespace SporeVM.Virtio.Blk

open Lib.EState (outcome Keeps bind_ok rejectIf_ok rejectIf_bind_ok Stays)

variable {Id : Type} [DecidableEq Id] {hash : List UInt8 → Id}
  {stringify : DiskIndex Id → List UInt8}

-- ══ The disk

omit [DecidableEq Id] in
lemma steady_poisoned : Steady fun d : ChunkMappedDisk Id => d.poisoned = true :=
  ⟨fun h => h, fun _ => rfl⟩

lemma snapshot_of_poisoned {s s' : DiskState Id} (h : s.disk.poisoned = true) {dir : String}
    {device : RootfsDevice} {quiesced : Bool} {out : SporeDisk Id × SnapshotStats} :
    snapshotIndexWithStats hash stringify dir device quiesced s ≠ .ok out s' := by
  intro hrun
  obtain ⟨-, hrun⟩ := rejectIf_bind_ok.mp hrun
  replace hrun := getDisk_bind_ok.mp hrun
  obtain ⟨_, s₃, hguard, -⟩ := bind_ok.mp hrun
  exact (rejectIf_ok.mp hguard).1 h

omit [DecidableEq Id] in
lemma export_of_poisoned {s s' : DiskState Id} (h : s.disk.poisoned = true)
    {baseline : ForkBaseline Id} {options : ExportForkOptions} {childFd : ℕ} {head : ForkHead Id} :
    exportForkHead baseline options childFd s ≠ .ok head s' := by
  intro hrun
  obtain ⟨-, hrun⟩ := rejectIf_bind_ok.mp hrun
  replace hrun := getDisk_bind_ok.mp hrun
  obtain ⟨_, s₃, hguard, -⟩ := bind_ok.mp hrun
  exact (rejectIf_ok.mp hguard).1 h

/-- No operation of the disk lifts the poison, whatever its outcome. -/
theorem exec_poisoned (op : Op) {s : DiskState Id} (h : s.disk.poisoned = true) :
    (outcome (op.exec hash stringify) s).2.disk.poisoned = true := by
  have hp : Steady fun d : ChunkMappedDisk Id => d.poisoned = true := steady_poisoned
  have hdrop : ∀ {α : Type} {x : DiskM Id α},
      Keeps (fun t : DiskState Id => t.disk.poisoned = true) x (fun _ => True) →
      Stays (fun t : DiskState Id => t.disk.poisoned = true)
        (do let _ ← x; pure ([] : List UInt8)) :=
    fun hx => hx.bind fun _ _ => Stays.pure
  refine Keeps.outcome (P := fun t : DiskState Id => t.disk.poisoned = true)
    (Q := fun _ => True) ?_ h
  cases op with
  | readAt len offset => exact hp.readAt len offset
  | writeAt buf offset => exact hdrop (hp.writeAt buf offset)
  | zeroRange offset len => exact hdrop (hp.zeroRange offset len)
  | growKnownZero newSize =>
    refine hdrop (hp.growKnownZero (fun {d tail n} hd => ?_) newSize)
    unfold ChunkMappedDisk.grow
    split
    · exact hd
    · exact hd
  | snapshotIndex dir device quiesced =>
    have hnever : Stays (fun t : DiskState Id => t.disk.poisoned = true)
        (snapshotIndexWithStats hash stringify dir device quiesced) := by
      refine .guard <| getDisk_keeps.bind fun d hd => ?_
      obtain ⟨t, ht, rfl⟩ := hd
      exact Keeps.rejectIf.bind fun _ hclear => absurd ht hclear
    exact hdrop (hnever.bind fun _ _ => Stays.pure)
  | commitSnapshot =>
    refine hdrop (Keeps.modify fun t ht => ?_)
    simp only
    split
    · exact ht
    · exact ht

-- ══ Requests

def Backend.IsDisk (p : ChunkMappedDisk Id → Prop) : Backend Id → Prop
  | .chunkMapped s _ => p s.disk
  | .file _ | .memory _ => False

structure Leaves (p : ChunkMappedDisk Id → Prop) (out : Answer Id) : Prop where
  isDisk : out.2.1.backend.IsDisk p

variable {rangeSector numSectors flags : ℕ}

section Requests

variable (hash) {p : ChunkMappedDisk Id → Prop} (hp : Steady p) {b : Backend Id}

include hp

lemma Backend.prefaultCasRange_isDisk (h : b.IsDisk p) (len offset : ℕ) :
    (b.prefaultCasRange hash len offset).2.IsDisk p := by
  cases b with
  | file f => exact h
  | memory bytes => exact h
  | chunkMapped s residues =>
    exact Keeps.outcome (Reads.prefaultCasRange hp.faultCasChunk len offset) h

lemma Backend.readAt_isDisk (h : b.IsDisk p) (len offset : ℕ) :
    (b.readAt hash len offset).2.IsDisk p := by
  cases b with
  | file f => exact h
  | memory bytes => cases h
  | chunkMapped s residues =>
    have hread : p (outcome (SporeVM.readAt hash len offset) s).2.disk :=
      Keeps.outcome (hp.readAt len offset) h
    simp only [Backend.readAt]
    generalize outcome (SporeVM.readAt hash len offset) s = out at hread
    obtain ⟨result, s'⟩ := out
    cases result with
    | ok data => exact hread
    | error e => exact hread

lemma Backend.writeAt_isDisk (h : b.IsDisk p) (data : List UInt8) (offset : ℕ) :
    (b.writeAt hash data offset).2.IsDisk p := by
  cases b with
  | file f => exact h
  | memory bytes => cases h
  | chunkMapped s residues =>
    exact Keeps.outcome (hp.writeAt data offset) h

lemma Backend.zeroRange_isDisk (h : b.IsDisk p) (offset len : ℕ) :
    (b.zeroRange hash offset len).2.IsDisk p := by
  cases b with
  | file f => exact h
  | memory bytes => cases h
  | chunkMapped s residues =>
    have hzero : p (outcome (SporeVM.zeroRange hash offset len) s).2.disk :=
      Keeps.outcome (hp.zeroRange offset len) h
    simp only [Backend.zeroRange]
    generalize outcome (SporeVM.zeroRange hash offset len) s = out at hzero
    obtain ⟨result, s'⟩ := out
    cases result with
    | ok u => exact hzero
    | error e => exact hp.poison hzero

omit [DecidableEq Id] in
lemma Backend.poison_isDisk (h : b.IsDisk p) : b.poisonValidatedMutationFailure.IsDisk p := by
  cases b with
  | file f => exact h
  | memory bytes => exact h
  | chunkMapped s residues => exact hp.poison h

omit hp [DecidableEq Id] in
lemma Backend.flush_isDisk (h : b.IsDisk p) : b.flush.2.IsDisk p := by
  cases b with
  | file f => exact h
  | memory bytes => exact h
  | chunkMapped s residues =>
    simp only [Backend.flush]
    split
    · exact h
    · exact h

lemma readSegments_isDisk : ∀ (segs : List Queue.Segment) (offset : ℕ) {b : Backend Id}
    (ram : GuestRam),
    b.IsDisk p → (readSegments hash segs offset b ram).2.1.IsDisk p
  | [], _, _, _, h => h
  | seg :: rest, offset, b, ram, h => by
    have hread := Backend.readAt_isDisk hash hp h seg.len offset
    simp only [readSegments]
    generalize b.readAt hash seg.len offset = out at hread
    obtain ⟨result, b'⟩ := out
    cases result with
    | ok data => exact readSegments_isDisk rest _ _ hread
    | error residue => exact hread

lemma writeSegments_isDisk (ram : GuestRam) : ∀ (segs : List Queue.Segment) (offset : ℕ)
    {b : Backend Id}, b.IsDisk p → (writeSegments hash ram segs offset b).2.IsDisk p
  | [], _, _, h => h
  | seg :: rest, offset, b, h => by
    have hwrite := Backend.writeAt_isDisk hash hp h (ram.bytesAt seg.addr seg.len) offset
    simp only [writeSegments]
    generalize b.writeAt hash (ram.bytesAt seg.addr seg.len) offset = out at hwrite
    obtain ⟨result, b'⟩ := out
    cases result with
    | true => exact writeSegments_isDisk ram rest _ hwrite
    | false => exact hwrite

variable {blk : Blk Id} (h : blk.backend.IsDisk p) {header status : Queue.Segment}
  {data : List Queue.Segment}
  {ram : GuestRam} {sector : ℕ}

include h

lemma handleIn_isDisk : Leaves p (handleIn hash blk sector data status ram) := by
  unfold handleIn
  split
  · exact ⟨h⟩
  split
  · exact ⟨h⟩
  next stop moved _ =>
  have hprefault := Backend.prefaultCasRange_isDisk hash hp h
    (stop - sector * sectorSize) (sector * sectorSize)
  generalize blk.backend.prefaultCasRange hash (stop - sector * sectorSize)
    (sector * sectorSize) = prefault at hprefault
  obtain ⟨ok, b⟩ := prefault
  cases ok with
  | false => exact ⟨hprefault⟩
  | true =>
    have hread := readSegments_isDisk hash hp data (sector * sectorSize) ram hprefault
    simp only
    generalize readSegments hash data (sector * sectorSize) b ram = out at hread
    obtain ⟨ok, b', ram'⟩ := out
    cases ok with
    | false => exact ⟨hread⟩
    | true => exact ⟨hread⟩

lemma handleOut_isDisk : Leaves p (handleOut hash blk sector data status ram) := by
  unfold handleOut
  split
  · exact ⟨h⟩
  split
  · exact ⟨h⟩
  split
  · exact ⟨h⟩
  have hwrite := writeSegments_isDisk hash hp ram data (sector * sectorSize) h
  generalize writeSegments hash ram data (sector * sectorSize) blk.backend = out at hwrite
  obtain ⟨ok, b⟩ := out
  cases ok with
  | false => exact ⟨Backend.poison_isDisk hp hwrite⟩
  | true => exact ⟨hwrite⟩

lemma zeroSectors_isDisk :
    Leaves p (zeroSectors hash blk rangeSector numSectors flags status ram) := by
  unfold zeroSectors
  repeat' split
  all_goals first | exact ⟨h⟩ | exact ⟨Backend.poison_isDisk hp h⟩ | skip
  all_goals
    next _ backend hzero =>
    have hkept := Backend.zeroRange_isDisk hash hp h (rangeSector * sectorSize)
      (numSectors * sectorSize)
    rw [hzero] at hkept
    exact ⟨hkept⟩

lemma handleWriteZeroes_isDisk : Leaves p (handleWriteZeroes hash blk header data status ram) := by
  unfold handleWriteZeroes
  repeat' split
  all_goals first | exact ⟨h⟩ | exact zeroSectors_isDisk hash hp h

omit hp [DecidableEq Id] in
lemma handleFlush_isDisk : Leaves p (handleFlush blk status ram) := by
  have hflush := Backend.flush_isDisk h
  unfold handleFlush
  generalize blk.backend.flush = out at hflush
  obtain ⟨ok, b⟩ := out
  cases ok with
  | false => exact ⟨hflush⟩
  | true => exact ⟨hflush⟩

lemma dispatch_isDisk : Leaves p (dispatch hash blk header data status ram) := by
  unfold dispatch
  by_cases hin : requestType header ram = reqIn
  · rw [if_pos hin]
    exact handleIn_isDisk hash hp h
  rw [if_neg hin]
  by_cases hout : requestType header ram = reqOut
  · rw [if_pos hout]
    exact handleOut_isDisk hash hp h
  rw [if_neg hout]
  by_cases hflush : requestType header ram = reqFlush
  · rw [if_pos hflush]
    exact handleFlush_isDisk h
  rw [if_neg hflush]
  by_cases hid : requestType header ram = reqGetId
  · rw [if_pos hid]
    unfold handleGetId
    split
    · exact ⟨h⟩
    · exact ⟨h⟩
  rw [if_neg hid]
  by_cases hzeroes : requestType header ram = reqWriteZeroes
  · rw [if_pos hzeroes]
    exact handleWriteZeroes_isDisk hash hp h
  · rw [if_neg hzeroes]
    exact ⟨h⟩

lemma handleRequest_isDisk (segs : List Queue.Segment) (ram : GuestRam) :
    Leaves p (handleRequest hash segs blk ram) := by
  unfold handleRequest
  split
  · exact ⟨h⟩
  · exact ⟨h⟩
  simp only
  split
  · exact ⟨h⟩
  split
  · exact ⟨h⟩
  · exact dispatch_isDisk hash hp h

end Requests

section Verdicts

variable {blk : Blk Id} {header status : Queue.Segment} {data : List Queue.Segment} {ram : GuestRam}
  {sector : ℕ}

lemma zeroSectors_rejected
    (h : (zeroSectors hash blk rangeSector numSectors flags status ram).1.verdict = .rejected) :
    (zeroSectors hash blk rangeSector numSectors flags status ram).2.1 = blk := by
  revert h
  unfold zeroSectors
  repeat' split
  all_goals first | exact fun _ => rfl | rintro ⟨⟩

lemma dispatch_rejected (h : (dispatch hash blk header data status ram).1.verdict = .rejected) :
    (dispatch hash blk header data status ram).2.1 = blk := by
  revert h
  unfold dispatch
  split
  · unfold handleIn
    repeat' split
    all_goals first | exact fun _ => rfl | rintro ⟨⟩
  split
  · unfold handleOut
    repeat' split
    all_goals first | exact fun _ => rfl | rintro ⟨⟩
  split
  · unfold handleFlush
    split
    all_goals rintro ⟨⟩
  split
  · unfold handleGetId
    split
    all_goals exact fun _ => rfl
  split
  · unfold handleWriteZeroes
    repeat' split
    all_goals first | exact fun _ => rfl | exact zeroSectors_rejected
  · exact fun _ => rfl

lemma handleRequest_rejected {segs : List Queue.Segment}
    (h : (handleRequest hash segs blk ram).1.verdict = .rejected) :
    (handleRequest hash segs blk ram).2.1 = blk := by
  revert h
  unfold handleRequest
  split
  · exact fun _ => rfl
  · exact fun _ => rfl
  simp only
  split
  · exact fun _ => rfl
  split
  · exact fun _ => rfl
  · exact dispatch_rejected

omit [DecidableEq Id] in
lemma Backend.poison_poisons {b : Backend Id} (h : b.IsDisk fun _ => True) :
    b.poisonValidatedMutationFailure.IsDisk fun d => d.poisoned = true := by
  cases b with
  | file f => exact h.elim
  | memory bytes => exact h.elim
  | chunkMapped s residues => rfl

lemma Backend.zeroRange_poisons {b b' : Backend Id} (h : b.IsDisk fun _ => True) {offset len : ℕ}
    (hrun : b.zeroRange hash offset len = (false, b')) : b'.IsDisk fun d => d.poisoned = true := by
  cases b with
  | file f => exact h.elim
  | memory bytes => exact h.elim
  | chunkMapped s residues =>
    simp only [Backend.zeroRange] at hrun
    cases hzero : outcome (SporeVM.zeroRange hash offset len) s with
    | mk result s' =>
      rw [hzero] at hrun
      cases result with
      | ok u => cases hrun
      | error e =>
        cases hrun
        rfl

variable (hdisk : blk.backend.IsDisk fun _ => True)

include hdisk

lemma zeroSectors_poisons
    (h : (zeroSectors hash blk rangeSector numSectors flags status ram).1.verdict =
      .backendFailed) : Leaves (fun d => d.poisoned = true)
      (zeroSectors hash blk rangeSector numSectors flags status ram) := by
  revert h
  unfold zeroSectors
  repeat' split
  all_goals try (rintro ⟨⟩; done)
  · exact fun _ => ⟨Backend.poison_poisons hdisk⟩
  · next hzero => exact fun _ => ⟨Backend.zeroRange_poisons hdisk hzero⟩

variable (htype : requestType header ram = reqOut ∨ requestType header ram = reqWriteZeroes)

include htype

lemma dispatch_poisons (h : (dispatch hash blk header data status ram).1.verdict = .backendFailed) :
    Leaves (fun d => d.poisoned = true) (dispatch hash blk header data status ram) := by
  revert h
  unfold dispatch
  rcases htype with htype | htype
  · rw [if_neg (by rw [htype]; decide), if_pos htype]
    unfold handleOut
    split
    · rintro ⟨⟩
    split
    · rintro ⟨⟩
    split
    · rintro ⟨⟩
    have hwrite := writeSegments_isDisk hash
      ⟨fun _ => trivial, fun _ => trivial⟩ ram data (requestSector header ram * sectorSize) hdisk
    generalize writeSegments hash ram data (requestSector header ram * sectorSize)
      blk.backend = out at hwrite
    obtain ⟨ok, b⟩ := out
    cases ok with
    | false => exact fun _ => ⟨Backend.poison_poisons hwrite⟩
    | true => rintro ⟨⟩
  · iterate 4 rw [if_neg (by rw [htype]; decide)]
    rw [if_pos htype]
    unfold handleWriteZeroes
    repeat' split
    all_goals first | rintro ⟨⟩ | exact zeroSectors_poisons hdisk

lemma handleRequest_poisons {rest : List Queue.Segment}
    (h : (handleRequest hash (header :: rest) blk ram).1.verdict = .backendFailed) :
    Leaves (fun d => d.poisoned = true) (handleRequest hash (header :: rest) blk ram) := by
  revert h
  unfold handleRequest
  split
  · rintro ⟨⟩
  · rintro ⟨⟩
  next hsegs =>
  cases hsegs
  simp only
  split
  · rintro ⟨⟩
  split
  · rintro ⟨⟩
  · exact dispatch_poisons hdisk htype

end Verdicts

-- ══ Runs

inductive Step (hash : List UInt8 → Id) (stringify : DiskIndex Id → List UInt8) :
    Blk Id → Blk Id → Prop
  | request {blk : Blk Id} (segs : List Queue.Segment) (ram : GuestRam) :
      Step hash stringify blk (handleRequest hash segs blk ram).2.1
  | featuresAccepted {blk : Blk Id} (features : ℕ) :
      Step hash stringify blk { blk with acceptedFeatures := features }
  /-- Reads and writes of the host's own, growth, snapshots and their commits. -/
  | operation {blk : Blk Id} {s : DiskState Id} {residues : List (List UInt8)}
      (hdisk : blk.backend = .chunkMapped s residues) (op : Op) :
      Step hash stringify blk
        { blk with backend := .chunkMapped (outcome (op.exec hash stringify) s).2 residues }
  | exported {blk : Blk Id} {s : DiskState Id} {residues : List (List UInt8)}
      (hdisk : blk.backend = .chunkMapped s residues) (baseline : ForkBaseline Id)
      (options : ExportForkOptions) (childFd : ℕ) :
      Step hash stringify blk
        { blk with backend :=
            .chunkMapped (outcome (exportForkHead baseline options childFd) s).2 residues }
  | forked {blk : Blk Id} {s s' : DiskState Id} {residues : List (List UInt8)}
      (hdisk : blk.backend = .chunkMapped s residues) {descriptor : ForkDescriptor Id} {fd old : ℕ}
      (happly : applyForkDescriptor descriptor fd s = .ok old s') :
      Step hash stringify blk { blk with backend := .chunkMapped s' residues }
  /-- The host changes, and so do the failures to come. -/
  | elsewhere {blk : Blk Id} {s : DiskState Id} {residues : List (List UInt8)}
      (hdisk : blk.backend = .chunkMapped s residues) (host : Host Id)
      (residues' : List (List UInt8)) :
      Step hash stringify blk { blk with backend := .chunkMapped ⟨s.disk, host⟩ residues' }

lemma Step.poisoned {blk blk' : Blk Id} (h : Step hash stringify blk blk')
    (hpoisoned : blk.backend.IsDisk fun d => d.poisoned = true) :
    blk'.backend.IsDisk fun d => d.poisoned = true := by
  cases h with
  | request segs ram => exact (handleRequest_isDisk hash steady_poisoned hpoisoned segs ram).isDisk
  | featuresAccepted features => exact hpoisoned
  | operation hdisk op =>
    rw [hdisk] at hpoisoned
    exact exec_poisoned op hpoisoned
  | @exported s residues hdisk baseline options childFd =>
    rw [hdisk] at hpoisoned
    have hnever : Stays (fun t : DiskState Id => t.disk.poisoned = true)
        (exportForkHead baseline options childFd) := by
      refine .guard <| getDisk_keeps.bind fun d hd => ?_
      obtain ⟨t, ht, rfl⟩ := hd
      exact Keeps.rejectIf.bind fun _ hclear => absurd ht hclear
    exact hnever.outcome hpoisoned
  | forked hdisk happly =>
    rw [hdisk] at hpoisoned
    obtain ⟨o, -, -, -, -, -, -, rfl⟩ := applyForkDescriptor_ok happly
    exact hpoisoned
  | elsewhere hdisk host residues' =>
    rw [hdisk] at hpoisoned
    exact hpoisoned

lemma Step.later_poisoned {blk blk' : Blk Id}
    (h : Relation.ReflTransGen (Step hash stringify) blk blk')
    (hpoisoned : blk.backend.IsDisk fun d => d.poisoned = true) :
    blk'.backend.IsDisk fun d => d.poisoned = true := by
  induction h with
  | refl => exact hpoisoned
  | tail _ hstep ih => exact hstep.poisoned ih

/-- **Failed mutations.** After a write or a zeroing that failed in the back end, no snapshot and no
export of the disk succeeds any more, whatever happens. A rejected request changes nothing. -/
theorem failed_mutation_poisons {blk blk' : Blk Id} {s : DiskState Id}
    {residues : List (List UInt8)} (hdisk : blk.backend = .chunkMapped s residues)
    {segs : List Queue.Segment} {ram ram' : GuestRam} {reply : Reply}
    (hrun : handleRequest hash segs blk ram = (reply, blk', ram')) :
    (reply.verdict = .backendFailed →
      (∃ header rest, segs = header :: rest ∧
        (requestType header ram = reqOut ∨ requestType header ram = reqWriteZeroes)) →
      ∀ later, Relation.ReflTransGen (Step hash stringify) blk' later →
        ∃ t residues', later.backend = .chunkMapped t residues' ∧ t.disk.poisoned = true ∧
          (∀ dir device quiesced out t',
            snapshotIndexWithStats hash stringify dir device quiesced t ≠ .ok out t') ∧
          ∀ baseline options childFd head t',
            exportForkHead baseline options childFd t ≠ .ok head t') ∧
      (reply.verdict = .rejected → blk' = blk) := by
  constructor
  · rintro hfailed ⟨header, rest, rfl, htype⟩ later hlater
    have hpoisoned : blk'.backend.IsDisk fun d => d.poisoned = true := by
      rw [← show (handleRequest hash (header :: rest) blk ram).2.1 = blk' by rw [hrun]]
      exact (handleRequest_poisons (by rw [hdisk]; trivial) htype
        (by rw [hrun]; exact hfailed)).isDisk
    have hlast := Step.later_poisoned hlater hpoisoned
    cases hbackend : later.backend with
    | file f =>
      rw [hbackend] at hlast
      exact hlast.elim
    | memory bytes =>
      rw [hbackend] at hlast
      exact hlast.elim
    | chunkMapped t residues' =>
      rw [hbackend] at hlast
      exact ⟨t, residues', rfl, hlast, fun _ _ _ _ _ => snapshot_of_poisoned hlast,
        fun _ _ _ _ _ => export_of_poisoned hlast⟩
  · intro hrejected
    rw [← show (handleRequest hash segs blk ram).2.1 = blk' by rw [hrun]]
    exact handleRequest_rejected (by rw [hrun]; exact hrejected)

def failingBlk (s : DiskState (List UInt8)) : Blk (List UInt8) where
  backend := .chunkMapped { s with host := { s.host with faults := [some 0] } } []
  capacitySectors := 1
  capacity_le := by decide

def writeRam : GuestRam where
  base := 0
  size := 4096
  byte a := if a = 0 then 1 else 0

def writeSample : List Queue.Segment := [⟨0, 16, false⟩, ⟨512, 512, false⟩, ⟨2000, 1, true⟩]

theorem failed_mutation_poisons_sample :
    ∃ (s t : DiskState (List UInt8)) (residues : List (List UInt8)) (blk' : Blk (List UInt8))
      (ram' : GuestRam),
      handleRequest id writeSample (failingBlk s) writeRam = (⟨1, .backendFailed⟩, blk', ram') ∧
        (handleRequest id writeSample blk' ram').2.1.backend = .chunkMapped t residues ∧
        t.disk.poisoned = true := by
  have hreply : ((init sampleHost ⟨0, 600⟩ (some ⟨1, "/tmp"⟩) 512 512).toOption.map fun s =>
      (handleRequest id writeSample (failingBlk s) writeRam).1) = some ⟨1, .backendFailed⟩ := by
    decide +kernel
  have htype : requestType ⟨0, 16, false⟩ writeRam = reqOut := by decide +kernel
  obtain ⟨s, -, hverdict⟩ := Option.map_eq_some_iff.mp hreply
  have hdisk : (failingBlk s).backend =
      .chunkMapped { s with host := { s.host with faults := [some 0] } } [] := rfl
  cases hrun : handleRequest id writeSample (failingBlk s) writeRam with
  | mk reply rest =>
    obtain ⟨blk', ram'⟩ := rest
    rw [hrun] at hverdict
    cases hverdict
    have hpoisons := @failed_mutation_poisons _ _ _ sampleText _ _ _ _ hdisk _ _ _ _ hrun
    obtain ⟨t, residues, hbackend, hpoisoned, -⟩ := hpoisons.1 rfl
      ⟨_, _, rfl, .inl htype⟩ _ (.single (.request writeSample ram'))
    exact ⟨s, t, residues, blk', ram', hrun, hbackend, hpoisoned⟩

end SporeVM.Virtio.Blk
