import SporeVM.Disk.ForkRuns
import SporeVM.Preload

/-!
# Disks that come from files and from disks

A disk outlives the run that wrote it: what a snapshot of it has published is opened again, on the
same host or another, and a fork of it goes on beside it. `Lineage` says of a disk and its arrays
that they have come about in this way, over any number of generations. Its first disk is one over
the index of a file that was preloaded, or over a file itself. -/

namespace SporeVM

open Lib
open Lib.EState (runAll specAll bind_ok attempt attempt_ok)
open Function

variable {Id : Type} [DecidableEq Id] {hash : List UInt8 → Id}
  {stringify : DiskIndex Id → List UInt8}

/-- A disk that was just opened over a content-addressed index, whatever the index says. -/
def OpenedOver (index : DiskIndex Id) (t : DiskState Id) : Prop :=
  ∃ host base overlay size chunkSize root s, init host base overlay size chunkSize = .ok s ∧
    (∀ o, overlay = some o → o.fd ≠ base.fd) ∧ attachCasIndex root index s = .ok () t

omit [DecidableEq Id] in
lemma OpenedOver.sim {index : DiskIndex Id} {t : DiskState Id} {A : SparseFile}
    (h : OpenedOver index t) (hindex : IndexDenotes hash index A) : Sim hash t (.fresh A) := by
  obtain ⟨_, _, _, _, _, _, _, hinit, hoverlay, hattach⟩ := h
  exact sim_of_opened (.attachCasIndex hinit hoverlay hattach hindex)

/-- A disk is opened, runs operations that may fail, stands by while others use its host, is opened
over the index that a snapshot of another has published, or takes a fork of another whose fork
authority it stands for. -/
inductive Lineage (hash : List UInt8 → Id) (stringify : DiskIndex Id → List UInt8) :
    DiskState Id → Contents → Prop
  | opened {host : Host Id} {s : DiskState Id} {A : SparseFile} (hopen : Opened hash host s A) :
      Lineage hash stringify s (.fresh A)
  | ran {s s' : DiskState Id} {G G' : Contents} (h : Lineage hash stringify s G)
      (hsteps : Steps hash stringify s G s' G') : Lineage hash stringify s' G'
  | elsewhere {s : DiskState Id} {G : Contents} {host : Host Id} (h : Lineage hash stringify s G)
      (hfiles : ∀ fd, s.disk.Reads fd → host.files fd = s.host.files fd) :
      Lineage hash stringify ⟨s.disk, host⟩ G
  | restored {s s' t : DiskState Id} {G : Contents} {dir : String} {device : RootfsDevice}
      {quiesced : Bool} {disk : SporeDisk Id} {stats : SnapshotStats} {index : DiskIndex Id}
      (h : Lineage hash stringify s G) (hsnapshot :
        snapshotIndexWithStats hash stringify dir device quiesced s = .ok (disk, stats) s')
      (hindex : s'.host.indexes dir disk.base = some index) (hopen : OpenedOver index t) :
      Lineage hash stringify t (.fresh G.now)
  | forked {s s' t t' : DiskState Id} {G H : Contents} {baseline : ForkBaseline Id}
      {options : ExportForkOptions} {childFd fd old : ℕ} {head : ForkHead Id}
      (hparent : Lineage hash stringify s G) (hchild : Lineage hash stringify t H)
      (hfresh : ¬ s.disk.Reads childFd)
      (hexport : exportForkHead baseline options childFd s = .ok head s')
      (hbaseline : ∀ i, H.now.byte i = G.based.byte i) (hne : fd ≠ t.disk.base.fd)
      (hclone : t.host.files fd = s'.host.files childFd)
      (happly : applyForkDescriptor head.descriptor fd t = .ok old t') :
      Lineage hash stringify t' { H with now := G.now }

/-- **Invariance.** A disk of any lineage stands for its arrays. -/
theorem Lineage.sim (hinj : Injective hash) {s : DiskState Id} {G : Contents}
    (h : Lineage hash stringify s G) : Sim hash s G := by
  induction h with
  | opened hopen => exact sim_of_opened hopen
  | ran _ hsteps ih => exact (hsteps.sim hinj ih).1
  | elsewhere _ hfiles ih => exact Inv.of_files ih hfiles
  | restored _ hsnapshot hindex hopen ih =>
    obtain ⟨⟨index', hpublished, hdenotes, -⟩, -⟩ := snapshotIndexWithStats_ok hinj ih hsnapshot
    cases hindex.symm.trans hpublished
    exact hopen.sim hdenotes
  | forked _ _ hfresh hexport hbaseline hne hclone happly hparent hchild =>
    obtain ⟨o, ho, hexported⟩ := exportForkHead_ok hfresh hexport
    exact sim_of_fork hparent hchild ho hexported happly hbaseline hne (.inl hclone)

section Fleets

variable {ι : Type} [DecidableEq ι]

/-- Disks of one host, each with a lineage that ends there, of which none writes to a file that
another one reads. -/
structure Fleet.Descended (hash : List UInt8 → Id) (stringify : DiskIndex Id → List UInt8)
    (m : Fleet ι Id) : Prop where
  lineage : ∀ i, ∃ G, Lineage hash stringify (m.state i) G
  apart : ∀ i j, i ≠ j → Apart (m.disk i) (m.disk j)

lemma Lineage.outcome (hinj : Injective hash) {s : DiskState Id} {G : Contents}
    (h : Lineage hash stringify s G) (op : Op) :
    ∃ G', Lineage hash stringify (EState.outcome (op.exec hash stringify) s).2 G' := by
  rcases EState.outcome_cases (op.exec hash stringify) s with ⟨reply, -, hrun⟩ | ⟨e, -, hrun⟩
  · exact ⟨_, h.ran (.ok .refl hrun)⟩
  · obtain ⟨⟨now, hsim⟩, -⟩ := exec_error hinj (h.sim hinj) hrun
    exact ⟨_, h.ran (.failed .refl hrun hsim.shows)⟩

/-- **Step.** What one disk does is a step of its own lineage, and one elsewhere for the others. -/
lemma Fleet.Descended.put (hinj : Injective hash) {m : Fleet ι Id}
    (h : m.Descended hash stringify) (i : ι) (op : Op) :
    (m.put i (EState.outcome (op.exec hash stringify) (m.state i)).2).Descended hash stringify := by
  obtain ⟨G, hline⟩ := h.lineage i
  have hfoot := (outcome_footprint hinj stringify (hline.sim hinj) op).2
  refine ⟨fun j => ?_, Fleet.put_apart h.apart hfoot⟩
  by_cases hj : j = i
  · subst hj
    rw [Fleet.put_state_self]
    exact hline.outcome hinj op
  · obtain ⟨H, hother⟩ := h.lineage j
    refine ⟨H, ?_⟩
    have hstill := hother.elsewhere fun fd hread =>
      hfoot.file fun hwrite => h.apart i j (Ne.symm hj) fd hwrite hread
    simpa only [Fleet.put, Fleet.state, update_of_ne hj] using hstill

lemma Fleet.Descended.run (hinj : Injective hash) (steps : List (ι × Op)) :
    ∀ {m : Fleet ι Id}, m.Descended hash stringify →
      (m.run hash stringify steps).2.Descended hash stringify := by
  induction steps with
  | nil => exact fun h => h
  | cons step steps ih => exact fun h => ih (h.put hinj step.1 step.2)

/-- **Lineages.** Whatever snapshots, restores, forks, failures and doings of others lie behind the
disks of a host, of which none writes to a file of another: any interleaving leads to such disks
again, and along it a disk none of whose operations failed replies as its own byte array does. -/
theorem lineages_reply_as_arrays (hinj : Injective hash)
    {m : Fleet ι Id} {G : ι → Contents} (hlineage : ∀ i, Lineage hash stringify (m.state i) (G i))
    (hapart : ∀ i j, i ≠ j → Apart (m.disk i) (m.disk j)) (steps : List (ι × Op)) :
    (m.run hash stringify steps).2.Descended hash stringify ∧
    ∀ i replies, entriesOf i (m.run hash stringify steps).1 = replies.map Except.ok →
      replies = (specAll Op.flat (entriesOf i steps) (G i).now).1 := by
  have hsim := fun j => (hlineage j).sim hinj
  refine ⟨Fleet.Descended.run hinj steps ⟨fun j => ⟨_, hlineage j⟩, hapart⟩, ?_⟩
  intro i replies hreplies
  have hrun := fleet_run_ok hinj i steps m (G i) replies hapart (fun j => ⟨_, hsim j⟩) (hsim i)
    hreplies
  rw [hrun.1, (specAll_apply_flat _ (G i)).1]

end Fleets

def restoredSteps : List (Side × Op) :=
  [(.child, .writeAt [5] 0), (.parent, .writeAt [7] 2), (.parent, .writeAt [6] 5),
    (.child, .readAt 3 0), (.parent, .readAt 3 0)]

/-- A disk writes, publishes a snapshot and goes on beside the disk that is restored from it. -/
def sampleRestore : Except StorageError
    (List (Side × Except StorageError (List UInt8)) × Option (DiskIndex (List UInt8))) := do
  let s ← sampleInit
  let (_, s₁) ← attempt (Op.exec id sampleText (.writeAt [9] 1)) s
  let ((disk, _), s₂) ← attempt
    (snapshotIndexWithStats id sampleText "cache" sampleDevice true) s₁
  let t ← init s₂.host ⟨4, 600⟩ (some ⟨2, "/tmp"⟩) 3 512
  let (_, t₁) ← attempt (attachCasIndex "cache" (sampleIndex [0, 9, 0])) t
  pure (((forkFleet s₂.disk t₁.disk t₁.host).run id sampleText restoredSteps).1,
    s₂.host.indexes "cache" disk.base)

theorem lineages_reply_as_arrays_restored : ∃ (m : Fleet Side (List UInt8)) (G : Side → Contents),
    (∀ i, Lineage id sampleText (m.state i) (G i)) ∧
    (m.run id sampleText restoredSteps).2.Descended id sampleText ∧
    (m.run id sampleText restoredSteps).1 = [(.child, .ok []), (.parent, .ok []),
      (.parent, .error .outOfRange), (.child, .ok [5, 9, 0]), (.parent, .ok [0, 9, 7])] ∧
    [[], [5, 9, 0]] = (specAll Op.flat (entriesOf .child restoredSteps) (G .child).now).1 := by
  have hrestore : sampleRestore = .ok ([(.child, .ok []), (.parent, .ok []),
      (.parent, .error .outOfRange), (.child, .ok [5, 9, 0]), (.parent, .ok [0, 9, 7])],
      some (sampleIndex [0, 9, 0])) := by
    decide +kernel
  obtain ⟨s, hinit, h⟩ := Check.bind_ok.mp hrestore
  obtain ⟨⟨_, s₁⟩, hwrite, h⟩ := Check.bind_ok.mp h
  obtain ⟨⟨⟨disk, stats⟩, s₂⟩, hsnapshot, h⟩ := Check.bind_ok.mp h
  obtain ⟨t, hinit', h⟩ := Check.bind_ok.mp h
  obtain ⟨⟨_, t₁⟩, hattach, h⟩ := Check.bind_ok.mp h
  obtain ⟨hresults, hindex⟩ := Prod.mk.inj (Except.ok.inj h)
  have hsnapshot := attempt_ok hsnapshot
  have hattach : attachCasIndex "cache" (sampleIndex [0, 9, 0]) t = .ok () t₁ :=
    attempt_ok hattach
  set A := baseContents sampleHost ⟨0, 600⟩ 3
  have hopened : Opened id sampleHost s A := .init hinit (by simp)
  have hsteps : Steps id sampleText s (.fresh A) s₁ (Op.apply (.writeAt [9] 1) (.fresh A)).2 :=
    .ok .refl (attempt_ok hwrite)
  have hpublish : Op.exec id sampleText (.snapshotIndex "cache" sampleDevice true) s₁ = .ok [] s₂ :=
    bind_ok.mpr ⟨_, _, bind_ok.mpr ⟨_, _, hsnapshot, rfl⟩, rfl⟩
  have hsteps' := hsteps.ok hpublish
  have hfoot := (hsteps'.sim injective_id (sim_of_opened hopened)).2
  have hchild := (Lineage.ran (.opened hopened) hsteps).restored hsnapshot hindex
    ⟨_, _, _, _, _, _, t, hinit', by simp, hattach⟩
  obtain ⟨ht₁, -⟩ := attach_ok hattach
  -- The two disks have the files 0 and 1, and 4 and 2.
  have hreads : ∀ fd, s₂.disk.Reads fd ↔ 1 = fd ∨ 0 = fd := fun fd => by
    simp [hfoot.reads, (init_files hinit fd).2]
  have hreads' : ∀ fd, t₁.disk.Reads fd ↔ 2 = fd ∨ 4 = fd := fun fd => by
    rw [ht₁]
    exact (init_files hinit' fd).2.trans (by simp)
  have hfiles : ∀ fd, s₂.disk.Reads fd → t₁.host.files fd = s₂.host.files fd := by
    intro fd hread
    rw [hreads] at hread
    rw [ht₁]
    refine (init_ok hinit').2.2 fd fun o ho heq => ?_
    cases ho
    simp only at heq
    omega
  have hlineage : ∀ i, ∃ G, Lineage id sampleText
      ((forkFleet s₂.disk t₁.disk t₁.host).state i) G := by
    intro i
    cases i with
    | parent => exact ⟨_, (Lineage.ran (.opened hopened) hsteps').elsewhere hfiles⟩
    | child => exact ⟨_, hchild⟩
  choose G hlineage using hlineage
  have hapart : ∀ i j, i ≠ j → Apart ((forkFleet s₂.disk t₁.disk t₁.host).disk i)
      ((forkFleet s₂.disk t₁.disk t₁.host).disk j) := by
    intro i j hne fd hw hr
    have hw := hw.reads
    cases i <;> cases j <;> simp only [forkFleet, hreads, hreads', ne_eq, not_true_eq_false]
      at hne hw hr <;> omega
  obtain ⟨hdescended, hreplies⟩ :=
    lineages_reply_as_arrays injective_id hlineage hapart restoredSteps
  exact ⟨_, G, hlineage, hdescended, hresults, hreplies .child _ (by rw [hresults]; rfl)⟩

-- ══ Preloaded files

open Preload (SourceFile preloadFd preloadFd_ok fileIndex)

/-- A preload of the file has published the index. -/
def Preloaded (hash : List UInt8 → Id) (stringify : DiskIndex Id → List UInt8) (src : SourceFile)
    (cs : ℕ) (index : DiskIndex Id) : Prop :=
  ∃ c result c', preloadFd hash stringify src cs c = .ok result c' ∧
    c'.indexes result.indexDigest = some index

section Preloaded

omit [DecidableEq Id]

lemma fileIndex_denotes (hash : List UInt8 → Id) (src : SourceFile) (cs : ℕ) :
    IndexDenotes hash (fileIndex hash src cs) src.file := by
  refine denotes_draftOf rfl rfl rfl rfl fun c _ => ?_
  have hchunk : chunkSlice cs src.file.size src.file.byte c = Preload.readChunk src cs c := by
    rw [chunkSlice, Preload.readChunk, chunkExtent]
    congr 1
    omega
  exact hchunk ▸ describes_sealBytes hash _

lemma IndexDenotes.unique (hinj : Injective hash) {index : DiskIndex Id}
    {A B : SparseFile} (hpos : 0 < index.chunkSize) (hA : IndexDenotes hash index A)
    (hB : IndexDenotes hash index B) : A = B := by
  refine SparseFile.ext (hA.size.trans hB.size.symm) fun i => ?_
  by_cases hi : i < index.logicalSize
  · have hin := inChunk_div hpos hi
    rcases (hA.covers.covered _).mpr ⟨Nat.zero_le _, div_lt_divCeil hpos hi⟩ with
      ⟨entry, hmem, hchunk⟩ | hzero
    · have hsame := hinj ((hA.digest entry hmem).trans (hB.digest entry hmem).symm)
      exact chunkSlice_eq_iff.mp hsame i (hchunk ▸ hin)
    · rw [hA.zero _ hzero i hin, hB.zero _ hzero i hin]
  · rw [A.zero_past_end i (hA.size ▸ not_lt.mp hi), B.zero_past_end i (hB.size ▸ not_lt.mp hi)]

end Preloaded

variable {src src' : SourceFile} {cs : ℕ} {index index' : DiskIndex Id}

lemma Preloaded.eq (hinj : Injective hash)
    (h : Preloaded hash stringify src cs index) :
    index = fileIndex hash src cs ∧ 0 < index.chunkSize := by
  obtain ⟨c, result, c', hpreload, hindex⟩ := h
  obtain ⟨-, hshape, hpublished, -⟩ := preloadFd_ok hinj hpreload
  cases hindex.symm.trans hpublished
  exact ⟨rfl, (covers_of_validateIndexShape hshape).1⟩

/-- **Preloaded files.** A disk over the index that a preload has published replies, along every run
of successful operations, as a byte array does that starts as the file. -/
theorem preloaded_disk_replies_as_file (hinj : Injective hash)
    (h : Preloaded hash stringify src cs index) {t t' : DiskState Id} (hopen : OpenedOver index t)
    {ops : List Op} {replies : List (List UInt8)}
    (hrun : runAll (Op.exec hash stringify) ops t = .ok replies t') :
    replies = (specAll Op.flat ops src.file).1 := by
  obtain ⟨rfl, -⟩ := h.eq hinj
  have hsim := hopen.sim (fileIndex_denotes hash src cs)
  rw [(runAll_exec_ok hinj hsim hrun).1, (specAll_apply_flat ops _).1]
  rfl

def threeBytes : SourceFile := Preload.plainSource [1, 2, 3] (by decide)

lemma preloaded_of_reply {src : SourceFile} (result : Preload.PreloadResult (List UInt8))
    {index : DiskIndex (List UInt8)}
    (hreply : (EState.outcome (preloadFd id sampleText src 512) Preload.emptyCache).1 = .ok result)
    (hindex : (EState.outcome (preloadFd id sampleText src 512) Preload.emptyCache).2.indexes
      result.indexDigest = some index) : Preloaded id sampleText src 512 index :=
  ⟨_, _, _, EState.run_of_reply hreply, hindex⟩

lemma preloaded_threeBytes : Preloaded id sampleText threeBytes 512 (sampleIndex [1, 2, 3]) :=
  preloaded_of_reply ⟨[3], [3], 3, 512, 1⟩ (by decide +kernel) (by decide +kernel)

theorem preloaded_disk_replies_as_file_threeBytes : ∃ t t', OpenedOver (sampleIndex [1, 2, 3]) t ∧
    runAll (Op.exec id sampleText) sampleOps t = .ok sampleReplies t' ∧
    sampleReplies = (specAll Op.flat sampleOps threeBytes.file).1 := by
  have hreply : EState.replyFrom sampleInit (do
      attachCasIndex "cache" (sampleIndex [1, 2, 3])
      runAll (Op.exec id sampleText) sampleOps) = some sampleReplies := by
    decide +kernel
  obtain ⟨s, t', hinit, h⟩ := EState.ok_of_replyFrom hreply
  obtain ⟨_, t, hattach, hrun⟩ := bind_ok.mp h
  have hopen : OpenedOver (sampleIndex [1, 2, 3]) t :=
    ⟨_, _, _, _, _, _, s, hinit, by simp, hattach⟩
  exact ⟨t, t', hopen, hrun, preloaded_disk_replies_as_file injective_id
    preloaded_threeBytes hopen hrun⟩

/-- **Content addressing.** Two preloads publish one index exactly if they were given one file. -/
theorem preloaded_index_eq_iff (hinj : Injective hash)
    (h : Preloaded hash stringify src cs index) (h' : Preloaded hash stringify src' cs index') :
    index = index' ↔ src.file = src'.file := by
  obtain ⟨rfl, hpos⟩ := h.eq hinj
  obtain ⟨rfl, -⟩ := h'.eq hinj
  constructor
  · intro heq
    have hdenotes := heq ▸ fileIndex_denotes hash src' cs
    exact (fileIndex_denotes hash src cs).unique hinj hpos hdenotes
  · intro hfile
    unfold fileIndex Preload.decisionOf Preload.readChunk
    rw [hfile]

/-- The same file on a file system that cannot seek for holes. -/
def threeBytesUnscanned : SourceFile :=
  { threeBytes with seekData := fun _ => none, seekHole := fun _ => none, holes_zero := nofun }

theorem preloaded_index_eq_iff_threeBytes :
    (sampleIndex [1, 2, 3] = sampleIndex [1, 2, 3] ↔
      threeBytes.file = threeBytesUnscanned.file) ∧
    (sampleIndex [1, 2, 3] = sampleIndex [1, 2, 4] ↔
      threeBytes.file = (Preload.plainSource [1, 2, 4] (by decide)).file) := by
  refine ⟨preloaded_index_eq_iff injective_id preloaded_threeBytes ?_,
    preloaded_index_eq_iff injective_id preloaded_threeBytes ?_⟩
  all_goals
    exact preloaded_of_reply ⟨[3], [3], 3, 512, 1⟩ (by decide +kernel) (by decide +kernel)

end SporeVM
