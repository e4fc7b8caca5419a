import SporeVM.Disk.ForkRuns

/-!
# Histories of a disk

A disk is opened and then used: operations succeed or fail at any host call, the head is exported
and exports are applied, other programs use the host's other files. `Follows` is one such event and
`History` a disk with everything that happened to it, together with the three arrays behind it.

The array `clean` is what the current baseline denotes: the index the disk was opened with or last
published, or the base file of a disk without one (`Grounded`).
-/

namespace SporeVM

open Lib (SparseFile)
open Lib.EState (Triple Keeps bind_ok pure_ok outcome bind_pure_ok Stays)

variable {Id : Type} {hash : List UInt8 → Id}

-- ══ Properties apart from the source map

structure Steady (p : ChunkMappedDisk Id → Prop) : Prop where
  setSource : ∀ {d : ChunkMappedDisk Id} {c : ℕ} {source : Source}, p d → p (d.setSource c source)
  poison : ∀ {d : ChunkMappedDisk Id}, p d → p { d with poisoned := true }

lemma Steady.closed {p : ChunkMappedDisk Id → Prop} (hp : Steady p) :
    Closed fun t : DiskState Id => p t.disk where
  quiet h hquiet := by
    rw [hquiet.1]
    exact h
  poison h := hp.poison h

namespace Steady

variable [DecidableEq Id] {p : ChunkMappedDisk Id → Prop} (hp : Steady p)

include hp

omit [DecidableEq Id] in
lemma writeExact {fd offset : ℕ} {data : List UInt8} :
    Stays (fun t : DiskState Id => p t.disk) (SporeVM.writeExact fd data offset) :=
  writeExact_keeps hp.closed fun _ _ _ ht hdisk _ => by
    rw [hdisk]
    exact ht

omit [DecidableEq Id] in
lemma reclassify (c : ℕ) (source : Source) :
    Stays (fun t : DiskState Id => p t.disk) (modifyDisk (·.setSource c source)) :=
  Keeps.modify fun _ ht => hp.setSource ht

lemma faultCasChunk (c : ℕ) : Stays (fun t => p t.disk) (SporeVM.faultCasChunk hash c) := by
  refine getDisk_keeps.bind fun d _ => .guard <| .runIf fun _ => ?_
  cases d.baselineId c with
  | none => exact .throw
  | some id =>
    exact Stays.check.bind fun len _ => (readCasObject_keeps hp.closed).bind
      fun data _ => .guard <| hp.writeExact.bind fun _ _ => hp.reclassify _ _

lemma seedChunk (c fd : ℕ) : Stays (fun t => p t.disk) (SporeVM.seedChunk hash c fd) := by
  refine getDisk_keeps.bind fun d _ => Stays.check.bind fun len _ =>
    Keeps.guard <| ?_
  have hcopy : Stays (fun t : DiskState Id => p t.disk) (do
      let buf ← d.base.readAt len (c * d.chunkSize)
      SporeVM.writeExact fd buf (c * d.chunkSize)) :=
    (readAt_source_keeps hp.closed).bind fun _ _ => hp.writeExact
  cases d.source c with
  | base => exact hcopy
  | overlay | overlayClean => exact Stays.pure
  | zero | zeroDirty => exact hp.writeExact
  | cas => exact (hp.faultCasChunk c).bind fun _ _ => hcopy

lemma writeSpan (fd : ℕ) (data : List UInt8) (absolute : ℕ) (span : Span) :
    Stays (fun t => p t.disk) (SporeVM.writeSpan hash fd data absolute span) :=
  getDisk_keeps.bind fun _ _ => Stays.check.bind fun _ _ =>
    (Keeps.runIf fun _ => hp.seedChunk _ _).bind fun _ _ =>
      (Keeps.runIf fun _ => hp.reclassify _ _).bind fun _ _ => hp.writeExact.bind fun _ _ =>
        hp.reclassify _ _

lemma readAt (len offset : ℕ) : Stays (fun t => p t.disk) (SporeVM.readAt hash len offset) :=
  Reads.readAt hp.closed hp.faultCasChunk len offset

lemma readChunk (c len : ℕ) : Stays (fun t => p t.disk) (SporeVM.readChunk hash c len) :=
  getDisk_keeps.bind fun _ _ => Stays.check.bind fun _ _ =>
    Keeps.guard <| .guard <| hp.readAt _ _

omit hp [DecidableEq Id] in
lemma overlayFd (e : StorageError) : Stays (fun t => p t.disk) (SporeVM.overlayFd e) := by
  refine getDisk_keeps.bind fun d _ => ?_
  cases d.overlay with
  | none => exact .throw
  | some o => exact Stays.pure

lemma writeAt (buf : List UInt8) (offset : ℕ) :
    Stays (fun t => p t.disk) (SporeVM.writeAt hash buf offset) :=
  (overlayFd _).bind fun _ _ => getDisk_keeps.bind fun _ _ =>
    Stays.check.bind fun _ _ => Reads.forSpans (fun _ _ _ _ =>
      hp.writeSpan _ _ _ _) _ _ _

omit [DecidableEq Id] in
lemma markZeroChunk (c : ℕ) : Stays (fun t : DiskState Id => p t.disk) (SporeVM.markZeroChunk c) :=
  getDisk_keeps.bind fun _ _ => .guard <| .guard <|
    Keeps.runIf fun _ => hp.reclassify _ _

lemma zeroRange (offset len : ℕ) : Stays (fun t => p t.disk) (SporeVM.zeroRange hash offset len) :=
  Zeroes.zeroRange hp.readChunk hp.markZeroChunk hp.writeAt offset len

lemma readGrowthBoundary (c len : ℕ) :
    Stays (fun t => p t.disk) (SporeVM.readGrowthBoundary hash c len) := by
  refine getDisk_keeps.bind fun d _ => .guard <|
    Stays.check.bind fun len _ => .guard <|
      Keeps.guard <| ?_
  cases d.source c with
  | base => exact (readAt_source_keeps hp.closed).stays
  | overlay | overlayClean =>
    exact (overlayFd _).bind fun _ _ => (readExact_keeps hp.closed).stays
  | zero | zeroDirty => exact Stays.pure
  | cas =>
    cases d.baselineId c with
    | none => exact .throw
    | some id => exact (readCasObject_keeps hp.closed).stays

lemma growKnownZero (hgrow : ∀ {d tail newSize}, p d → p (d.grow tail newSize)) (newSize : ℕ) :
    Stays (fun t => p t.disk) (SporeVM.growKnownZero hash newSize) := by
  refine (overlayFd _).bind fun fd _ => getDisk_keeps.bind fun d _ => .guard <| ?_
  split
  · exact Stays.pure
  refine .guard <| .guard <|
    Keeps.bind (Q := fun _ => True) ?_ fun tail _ => .bind (Q := fun _ => True) ?_
      fun _ _ => .modify fun _ ht => hgrow ht
  · split
    · exact Stays.pure
    refine .bind (Q := fun _ => True) (getDisk_keeps.bind fun d _ => ?_) fun _ _ =>
      Stays.pure
    split
    · exact Stays.pure
    · exact (hp.readGrowthBoundary _ _).bind fun _ _ => .guard <|
        hp.writeExact.bind fun _ _ => Stays.pure
  · exact .guard <| (nextFault_keeps hp.closed).bind fun _ _ =>
      Keeps.guard <| (Keeps.get.bind fun _ _ => Stays.pure :
        Stays _ (getFile fd)).bind fun _ _ => .modify fun _ ht => ht

end Steady

-- ══ What the baseline denotes

/-- `B` is what the baseline of a disk denotes: the array of the index it was opened with or last
published, or else the bytes of its base file. -/
structure Grounded (hash : List UInt8 → Id) (d : ChunkMappedDisk Id) (files : ℕ → SparseFile)
    (B : SparseFile) : Prop where
  indexed : ∀ b, d.currentBaseline = some b → ∃ index : DiskIndex Id,
    index.chunkSize = d.chunkSize ∧ index.chunks = b.digests ∧ IndexDenotes hash index B
  unindexed : d.currentBaseline = none → ∀ i, i < B.size → (files d.base.fd).byte i = B.byte i

lemma isCas_of_currentBaseline_none {d : ChunkMappedDisk Id} (h : d.currentBaseline = none) :
    d.index.isCas = false := by
  unfold ChunkMappedDisk.currentBaseline at h
  cases hindex : d.index with
  | none | parent => rfl
  | cas root b => simp [hindex] at h

variable {s s' : DiskState Id}

lemma Grounded.frame {B : SparseFile} (h : Grounded hash s.disk s.host.files B)
    (hfoot : Footprint s s') (hindex : s'.disk.index = s.disk.index) :
    Grounded hash s'.disk s'.host.files B := by
  have hbaseline : s'.disk.currentBaseline = s.disk.currentBaseline := by
    rw [ChunkMappedDisk.currentBaseline, ChunkMappedDisk.currentBaseline, hindex]
  constructor
  · rw [hbaseline, hfoot.chunkSize]
    exact h.indexed
  · intro hnone
    rw [hbaseline] at hnone
    rw [hfoot.base, hfoot.baseFile (isCas_of_currentBaseline_none hnone)]
    exact h.unindexed hnone

lemma grounded_of_opened {host : Host Id} {A : SparseFile} (h : Opened hash host s A) :
    Grounded hash s.disk s.host.files A := by
  induction h with
  | @init base overlay size chunkSize s hinit hoverlay =>
    obtain ⟨⟨hpos, hdisk⟩, -, hfiles⟩ := init_ok hinit
    constructor
    · intro b hb
      rw [hdisk] at hb
      cases hb
    · intro _ i hi
      have hi : i < size.toNat := hi
      have hbase : s.disk.base = base := by rw [hdisk]; rfl
      rw [hbase, hfiles _ hoverlay, baseContents, SparseFile.ftruncate_byte_of_lt _ hi]
  | attachCasIndex hinit hoverlay hattach hindex =>
    obtain ⟨rfl, -, hcs, -⟩ := attach_ok hattach
    refine ⟨?_, by rintro ⟨⟩⟩
    rintro b hb
    cases hb
    exact ⟨_, hcs, rfl, hindex⟩
  | attachParentIndex hinit hoverlay hattach hindex =>
    obtain ⟨rfl, -, hcs, -⟩ := attach_ok hattach
    refine ⟨?_, by rintro ⟨⟩⟩
    rintro b hb
    cases hb
    exact ⟨_, hcs, rfl, hindex⟩
  | attachRemote hopen hattach ih =>
    cases modifyDisk_ok.mp hattach
    exact ⟨ih.indexed, ih.unindexed⟩

variable {G : Contents}

section Operations

variable [DecidableEq Id] {stringify : DiskIndex Id → List UInt8}

lemma exec_error_index {op : Op} {e : StorageError} (h : op.exec hash stringify s = .error e s') :
    s'.disk.index = s.disk.index := by
  have hp : Steady fun d : ChunkMappedDisk Id => d.index = s.disk.index := ⟨fun h => h, fun h => h⟩
  have hdrop : ∀ {α : Type} {x : DiskM Id α},
      Triple (fun t : DiskState Id => t.disk.index = s.disk.index) x (fun _ _ => True)
        (fun t => t.disk.index = s.disk.index) →
      Triple (fun t : DiskState Id => t.disk.index = s.disk.index)
        (do let _ ← x; pure ([] : List UInt8)) (fun _ _ => True)
        fun t => t.disk.index = s.disk.index :=
    fun hx => hx.bind fun _ _ _ => trivial
  refine Triple.error (P := fun t : DiskState Id => t.disk.index = s.disk.index)
    (E := fun t : DiskState Id => t.disk.index = s.disk.index) (Q := fun _ _ => True) ?_ rfl h
  cases op with
  | readAt len offset => exact (hp.readAt len offset).errors
  | writeAt buf offset => exact hdrop (hp.writeAt buf offset).errors
  | zeroRange offset len => exact hdrop (hp.zeroRange offset len).errors
  | growKnownZero newSize =>
    refine hdrop (hp.growKnownZero (fun {d tail n} hd => ?_) newSize).errors
    rw [(SameDisk.grow d tail n).index]
    exact hd
  | snapshotIndex dir device quiesced =>
    exact hdrop ((snapshotIndexWithStats_errors hp.closed hp.readChunk dir device quiesced).bind
      fun _ _ _ => trivial)
  | commitSnapshot => exact hdrop fun _ _ => trivial

-- ══ Events

def Beside (fd : ℕ) (s t : DiskState Id) : Prop :=
  (∀ fd', fd' ≠ fd → t.host.files fd' = s.host.files fd') ∧
    ∃ b, t.disk = { s.disk with poisoned := b }

omit [DecidableEq Id] in
lemma Beside.closed (fd : ℕ) (s : DiskState Id) : Closed (Beside fd s) where
  quiet h hquiet := by
    refine ⟨fun fd' hne => ?_, ?_⟩
    · rw [hquiet.2]
      exact h.1 fd' hne
    · rw [hquiet.1]
      exact h.2
  poison h := by
    obtain ⟨b, hb⟩ := h.2
    exact ⟨h.1, true, by rw [hb]⟩

omit [DecidableEq Id] in
lemma exportForkHead_keeps (baseline : ForkBaseline Id) (options : ExportForkOptions)
    (childFd : ℕ) (s : DiskState Id) :
    Stays (Beside childFd s) (exportForkHead baseline options childFd) := by
  have hclosed := Beside.closed childFd s
  have hset : ∀ f, Stays (Beside childFd s) (setFile childFd f) := by
    refine fun f => .modify fun t ht => ⟨fun fd' hne => ?_, ht.2⟩
    change Function.update _ _ _ fd' = _
    rw [Function.update_of_ne hne]
    exact ht.1 fd' hne
  have hget : ∀ fd, Stays (Beside childFd s) (getFile fd) :=
    fun _ => Keeps.get.bind fun _ _ => Stays.pure
  have htemp : ∀ dir, Stays (Beside childFd s) (createTempOverlayFd dir childFd) :=
    fun dir => .guard <| (nextFault_keeps hclosed).bind fun _ _ =>
      Keeps.guard <| hset _
  have htruncate : ∀ size, Stays (Beside childFd s) (ftruncate childFd size) :=
    fun size => .guard <| (nextFault_keeps hclosed).bind fun _ _ =>
      Keeps.guard <| (hget _).bind fun _ _ => hset _
  have hwrite : ∀ data offset, Stays (Beside childFd s) (writeExact childFd data offset) := by
    refine fun data offset => writeExact_keeps hclosed fun t t' n ht hdisk hfiles => ⟨?_, ?_⟩
    · intro fd' hne
      rw [hfiles, Function.update_of_ne hne]
      exact ht.1 fd' hne
    · rw [hdisk]
      exact ht.2
  have hcopy : ∀ parentFd, Stays (Beside childFd s) (copyOverlayChunks parentFd childFd) := by
    refine fun parentFd => getDisk_keeps.bind fun d _ => (htruncate _).bind fun _ _ =>
      Keeps.foldlM (fun n c => ?_) _ _
    split
    · exact Stays.pure
    · exact Stays.check.bind fun _ _ => Keeps.guard <|
        (readExact_keeps hclosed).bind fun _ _ => (hwrite _ _).bind fun _ _ => Stays.pure
  have hnative : ∀ dir parentFd,
      Stays (Beside childFd s) (cloneOverlayNative dir parentFd childFd) := by
    refine fun dir parentFd => (htemp _).bind fun _ _ => (nextFault_keeps hclosed).bind
      fun fault _ => ?_
    cases fault with
    | some n => exact Stays.pure
    | none => exact (hget _).bind fun _ _ => (hset _).bind fun _ _ => Stays.pure
  refine .guard <| getDisk_keeps.bind fun d _ => .guard <| ?_
  cases d.overlay with
  | none => exact .throw
  | some parent =>
    refine Keeps.bind (Q := fun _ => True) ?_ fun _ _ => Stays.pure
    split
    · exact getDisk_keeps.bind fun _ _ => (htemp _).bind fun _ _ => (htruncate _).bind fun _ _ =>
        Stays.pure
    · refine .bind (Q := fun _ => True) ?_ fun cloned _ => ?_
      · split
        · exact Stays.pure
        · exact hnative _ _
      · split
        · exact Stays.pure
        · exact .guard <| (htemp _).bind fun _ _ => (hcopy _).bind fun _ _ =>
            Stays.pure

inductive Follows (hash : List UInt8 → Id) (stringify : DiskIndex Id → List UInt8) :
    DiskState Id × Contents → DiskState Id × Contents → Prop
  | ok {s s' : DiskState Id} {G : Contents} {op : Op} {reply : List UInt8}
      (hrun : op.exec hash stringify s = .ok reply s') :
      Follows hash stringify (s, G) (s', (op.apply G).2)
  /-- After a failed operation the current contents are whatever the disk shows. -/
  | failed {s s' : DiskState Id} {G : Contents} {op : Op} {e : StorageError} {now : SparseFile}
      (hrun : op.exec hash stringify s = .error e s') (hnow : Shows hash s' now) :
      Follows hash stringify (s, G) (s', { G with now := now })
  | poisoned {s : DiskState Id} {G : Contents} :
      Follows hash stringify (s, G) ({ s with disk := { s.disk with poisoned := true } }, G)
  /-- The chunks of a range are faulted in, as far as that succeeds. -/
  | prefaulted {s : DiskState Id} {G : Contents} {len offset : ℕ} :
      Follows hash stringify (s, G) ((outcome (prefaultCasRange hash len offset) s).2, G)
  | exported {s : DiskState Id} {G : Contents} {baseline : ForkBaseline Id}
      {options : ExportForkOptions} {childFd : ℕ} (hfresh : ¬ s.disk.Reads childFd) :
      Follows hash stringify (s, G) ((outcome (exportForkHead baseline options childFd) s).2, G)
  /-- The rest of the host changes, and so do the failures to come. -/
  | elsewhere {s : DiskState Id} {G : Contents} {host : Host Id}
      (hfiles : ∀ fd, s.disk.Reads fd → host.files fd = s.host.files fd) :
      Follows hash stringify (s, G) (⟨s.disk, host⟩, G)
  /-- The disk, over the fork authority of a parent, takes the parent's exported head. -/
  | forked {s s' t t' : DiskState Id} {F G : Contents} {baseline : ForkBaseline Id}
      {options : ExportForkOptions} {childFd fd old : ℕ} {head : ForkHead Id}
      (hparent : Sim hash s F) (hfresh : ¬ s.disk.Reads childFd)
      (hexport : exportForkHead baseline options childFd s = .ok head s')
      (hbaseline : ∀ i, G.now.byte i = F.based.byte i) (hbase : fd ≠ t.disk.base.fd)
      (hclone : t.host.files fd = s'.host.files childFd ∨
        ∃ o, s.disk.overlay = some o ∧ t.host.files fd = s.host.files o.fd)
      (happly : applyForkDescriptor head.descriptor fd t = .ok old t') :
      Follows hash stringify (t, G) (t', { G with now := F.now })

structure Sound (hash : List UInt8 → Id) (s : DiskState Id) (G : Contents) : Prop where
  sim : Sim hash s G
  grounded : Grounded hash s.disk s.host.files G.clean

variable (hinj : Function.Injective hash)

include hinj

lemma Sound.exec {op : Op} {reply : List UInt8} (h : Sound hash s G)
    (hrun : op.exec hash stringify s = .ok reply s') : Sound hash s' (op.apply G).2 := by
  obtain ⟨-, hsim, hfoot⟩ := exec_ok hinj h.sim hrun
  refine ⟨hsim, ?_⟩
  cases op with
  | readAt len offset =>
    obtain ⟨-, -, -, hframe⟩ := readAt_ok hinj h.sim hrun
    exact h.grounded.frame hfoot hframe.index
  | writeAt buf offset =>
    obtain ⟨_, hop, -⟩ := bind_pure_ok.mp hrun
    obtain ⟨-, -, hframe⟩ := writeAt_ok hinj h.sim hop
    exact h.grounded.frame hfoot hframe.index
  | zeroRange offset len =>
    obtain ⟨_, hop, -⟩ := bind_pure_ok.mp hrun
    obtain ⟨-, -, hframe⟩ := zeroRange_ok hinj h.sim hop
    exact h.grounded.frame hfoot hframe.index
  | growKnownZero newSize =>
    obtain ⟨_, hop, -⟩ := bind_pure_ok.mp hrun
    obtain ⟨-, -, hframe⟩ := growKnownZero_ok hinj h.sim hop
    exact h.grounded.frame hfoot hframe.index
  | snapshotIndex dir device quiesced =>
    obtain ⟨_, hop, -⟩ := bind_pure_ok.mp hrun
    obtain ⟨⟨disk, stats⟩, s₂, hsnapshot, hret⟩ := bind_ok.mp hop
    obtain ⟨-, rfl⟩ := pure_ok.mp hret
    obtain ⟨⟨index, -, hdenotes, -, -, -, hbaseline, hcs⟩, -⟩ :=
      snapshotIndexWithStats_ok hinj h.sim hsnapshot
    constructor
    · intro b hb
      rw [hbaseline] at hb
      cases hb
      exact ⟨index, by rw [hcs, hfoot.chunkSize], rfl, hdenotes⟩
    · rw [hbaseline]
      rintro ⟨⟩
  | commitSnapshot =>
    obtain ⟨_, hop, -⟩ := bind_pure_ok.mp hrun
    refine h.grounded.frame hfoot ?_
    cases modifyDisk_ok.mp hop
    cases s.disk.pendingSnapshotIdentity <;> rfl

lemma Sound.failed {op : Op} {e : StorageError} {now : SparseFile}
    (h : Sound hash s G) (hrun : op.exec hash stringify s = .error e s') (hnow : Shows hash s' now)
    : Sound hash s' { G with now := now } := by
  obtain ⟨⟨now', hsim⟩, hfoot, -⟩ := exec_error hinj h.sim hrun
  cases hnow.unique hinj hsim.shows
  exact ⟨hsim, h.grounded.frame hfoot (exec_error_index hrun)⟩

omit hinj [DecidableEq Id] in
lemma Sound.elsewhere {s t : DiskState Id} (h : Sound hash s G) {b : Bool}
    (hdisk : t.disk = { s.disk with poisoned := b })
    (hfiles : ∀ fd, s.disk.Reads fd → t.host.files fd = s.host.files fd) : Sound hash t G := by
  constructor
  · unfold Sim
    rw [hdisk]
    exact (Inv.of_files h.sim hfiles).poisoned b
  · rw [hdisk]
    refine ⟨h.grounded.indexed, fun hnone => ?_⟩
    rw [hfiles s.disk.base.fd (.inr rfl)]
    exact h.grounded.unindexed hnone

/-- **One event** keeps what holds of a disk; its chunk size stays and it does not shrink. -/
theorem Follows.sound {x y : DiskState Id × Contents} (h : Follows hash stringify x y)
    (hx : Sound hash x.1 x.2) : Sound hash y.1 y.2 ∧ y.1.disk.chunkSize = x.1.disk.chunkSize ∧
      x.1.disk.size ≤ y.1.disk.size := by
  cases h with
  | @ok s s' G op reply hrun =>
    have hsound := hx.exec hinj hrun
    obtain ⟨-, hsim, hfoot⟩ := exec_ok hinj hx.sim hrun
    refine ⟨hsound, hfoot.chunkSize, ?_⟩
    rw [← hsim.size_eq, ← hx.sim.size_eq]
    cases op with
    | readAt | zeroRange | snapshotIndex | commitSnapshot => exact Nat.le_refl _
    | writeAt buf offset => exact SparseFile.le_pwrite_size _ _ _
    | growKnownZero newSize =>
      obtain ⟨_, s₁, hop, hret⟩ := bind_ok.mp hrun
      exact (growKnownZero_ok hinj hx.sim hop).1
  | failed hrun hnow =>
    have hkept := exec_error hinj hx.sim hrun
    exact ⟨hx.failed hinj hrun hnow, hkept.chunkSize, hkept.size.ge⟩
  | poisoned => exact ⟨hx.elsewhere rfl fun _ _ => rfl, rfl, Nat.le_refl _⟩
  | @prefaulted s G len offset =>
    have hstill := Lib.EState.Keeps.outcome
      (Reads.prefaultCasRange (faultCasChunk_still hinj) len offset)
      ⟨Kept.refl hx.sim, hx.sim⟩
    have hp : Steady fun d : ChunkMappedDisk Id => d.index = s.disk.index :=
      ⟨fun h => h, fun h => h⟩
    have hindex : (outcome (prefaultCasRange hash len offset) s).2.disk.index = s.disk.index :=
      Lib.EState.Keeps.outcome
        (Reads.prefaultCasRange hp.faultCasChunk len offset) rfl
    exact ⟨⟨hstill.sim, hx.grounded.frame hstill.kept.foot hindex⟩, hstill.kept.chunkSize,
      hstill.kept.size.ge⟩
  | @exported s G baseline options childFd hfresh =>
    have hbeside : Beside childFd s (outcome (exportForkHead baseline options childFd) s).2 := by
      exact Lib.EState.Keeps.outcome (exportForkHead_keeps baseline options childFd s)
        ⟨fun _ _ => rfl, s.disk.poisoned, rfl⟩
    obtain ⟨hfiles, b, hdisk⟩ := hbeside
    refine ⟨hx.elsewhere hdisk fun fd hread => hfiles fd ?_, by rw [hdisk], by rw [hdisk]⟩
    rintro rfl
    exact hfresh hread
  | @elsewhere s G host hfiles =>
    exact ⟨hx.elsewhere rfl hfiles, rfl, Nat.le_refl _⟩
  | forked hparent hfresh hexport hbaseline hbase hclone happly =>
    obtain ⟨o, ho, hexported⟩ := exportForkHead_ok hfresh hexport
    have hclone' := hclone.imp_right fun ⟨o', ho', hfile⟩ => by
      cases ho.symm.trans ho'
      exact hfile
    have hsim := sim_of_fork hparent hx.sim ho hexported happly hbaseline hbase hclone'
    obtain ⟨o', -, -, -, -, -, -, rfl⟩ := applyForkDescriptor_ok happly
    exact ⟨⟨hsim, hx.grounded.indexed, hx.grounded.unindexed⟩, rfl, Nat.le_refl _⟩

lemma Follows.later {x y : DiskState Id × Contents}
    (h : Relation.ReflTransGen (Follows hash stringify) x y) (hx : Sound hash x.1 x.2) :
    Sound hash y.1 y.2 ∧ y.1.disk.chunkSize = x.1.disk.chunkSize ∧
      x.1.disk.size ≤ y.1.disk.size := by
  induction h with
  | refl => exact ⟨hx, rfl, Nat.le_refl _⟩
  | tail _ hnext ih =>
    obtain ⟨hsound, hcs, hsize⟩ := hnext.sound hinj ih.1
    exact ⟨hsound, hcs.trans ih.2.1, ih.2.2.trans hsize⟩

omit hinj in
/-- The states of a disk that was opened in any way, and what they denote, along any run. -/
def History (hash : List UInt8 → Id) (stringify : DiskIndex Id → List UInt8) (s : DiskState Id)
    (G : Contents) : Prop :=
  ∃ host s₀ A, Opened hash host s₀ A ∧
    Relation.ReflTransGen (Follows hash stringify) (s₀, Contents.fresh A) (s, G)

omit hinj in
lemma History.step {G G' : Contents} (h : History hash stringify s G)
    (hnext : Follows hash stringify (s, G) (s', G')) : History hash stringify s' G' := by
  obtain ⟨host, s₀, A, hopen, hlater⟩ := h
  exact ⟨host, s₀, A, hopen, hlater.tail hnext⟩

lemma History.sound (h : History hash stringify s G) : Sound hash s G := by
  obtain ⟨host, s₀, A, hopen, hlater⟩ := h
  exact (Follows.later hinj hlater ⟨sim_of_opened hopen, grounded_of_opened hopen⟩).1

-- ══ Conservative classification

omit hinj in
/-- A snapshot reads the chunk and hashes it again, whatever the baseline has. -/
def Resealed (hash : List UInt8 → Id) (s : DiskState Id) (c : ℕ) : Prop :=
  ∀ (dir : String) (useParentIndex : Bool) (digests : List (DiskIndexChunk Id))
    (parentChunkCount : ℕ) (v : SnapshotLoop Id),
    snapshotStep hash dir useParentIndex digests parentChunkCount v c s =
      sealCandidate hash dir c { v with
        parentDigestCursor := (DigestIndex.cursorNext digests v.parentDigestCursor c).2 } s

omit hinj in
lemma resealed_of_overlay {c : ℕ} (h : s.disk.source c = .overlay) : Resealed hash s c := by
  intro dir useParentIndex digests parentChunkCount v
  have hseal : s.disk.needsSnapshotSeal c = true := by
    rw [ChunkMappedDisk.needsSnapshotSeal, h]
    rfl
  change (if s.disk.source c = .zero then _ else if s.disk.source c = .zeroDirty then _ else
    if useParentIndex = true ∧ c < parentChunkCount ∧ s.disk.needsSnapshotSeal c = false then _
    else _ : DiskM Id (SnapshotLoop Id)) s = _
  rw [if_neg (by rw [h]; decide), if_neg (by rw [h]; decide), if_neg (by simp [hseal])]

omit hinj in
/-- A snapshot records the chunk as zero and does not read it; the disk and the host stay as they
are. -/
def ZeroRecorded (hash : List UInt8 → Id) (s : DiskState Id) (c : ℕ) : Prop :=
  ∀ (dir : String) (useParentIndex : Bool) (digests : List (DiskIndexChunk Id))
    (parentChunkCount : ℕ) (v : SnapshotLoop Id), ∃ v',
    snapshotStep hash dir useParentIndex digests parentChunkCount v c s = .ok v' s ∧
      v'.draft = v.draft.record c .zero

omit hinj in
lemma zeroRecorded_of_zeroDirty {c : ℕ} (h : s.disk.source c = .zeroDirty) :
    ZeroRecorded hash s c := by
  intro dir useParentIndex digests parentChunkCount v
  refine ⟨{ v with
    parentDigestCursor := (DigestIndex.cursorNext digests v.parentDigestCursor c).2
    draft := v.draft.record c .zero
    stats := { v.stats with
      dirtyZeroChunksRecorded := v.stats.dirtyZeroChunksRecorded + 1 } }, ?_, rfl⟩
  change (if s.disk.source c = .zero then _ else if s.disk.source c = .zeroDirty then _ else _ :
    DiskM Id (SnapshotLoop Id)) s = _
  rw [if_neg (by rw [h]; decide), if_pos h]
  rfl

/-- **Classification.** At every point of a history, after any failures, a chunk that differs
anywhere from what the baseline denotes is either overlay data, which a snapshot hashes again and an
export takes along, or all zero, and then a snapshot records it as zero without reading it and an
export puts it into its zero map. -/
theorem changed_chunk_is_dirty {s : DiskState Id} {G : Contents} (h : History hash stringify s G) :
    Shows hash s G.now ∧ Grounded hash s.disk s.host.files G.clean ∧
      ∀ c i, s.disk.Holds c i → G.now.byte i ≠ G.clean.byte i →
        s.disk.source c = .overlay ∧ Resealed hash s c ∧ exportsOverlay s.disk c = true ∨
        s.disk.source c = .zeroDirty ∧ (∀ j, s.disk.Holds c j → G.now.byte j = 0) ∧
          ZeroRecorded hash s c ∧ exportsZero s.disk c = true := by
  have hsound := h.sound hinj
  refine ⟨hsound.sim.shows, hsound.grounded, fun c i hi hne => ?_⟩
  have hc : c < s.disk.chunkCount :=
    ChunkMappedDisk.lt_chunkCount.mpr (Nat.lt_of_le_of_lt hi.1 hi.lt_size)
  have hok := hsound.sim.chunk c hc
  have hdirty : sourceIsDirty (s.disk.source c) = true := by
    by_contra hclean
    exact hne (hok.clean (Bool.not_eq_true _ ▸ hclean) i hi)
  have hshow := hok.shows
  unfold ChunkShows at hshow
  cases hsource : s.disk.source c with
  | overlay =>
    exact .inl ⟨rfl, resealed_of_overlay hsource, by simp [exportsOverlay, hsource]⟩
  | zeroDirty =>
    rw [hsource] at hshow
    exact .inr ⟨rfl, hshow, zeroRecorded_of_zeroDirty hsource, by simp [exportsZero, hsource]⟩
  | base | overlayClean | zero | cas =>
    rw [hsource] at hdirty
    cases hdirty

end Operations

lemma zeroed_sample_history :
    ∃ s G, History id sampleText s G ∧ s.disk.Holds 0 0 ∧ G.now.byte 0 ≠ G.clean.byte 0 ∧
      s.disk.source 0 = .zeroDirty := by
  have hreply : (Lib.EState.replyFrom sampleInit (do
      attachCasIndex "cache" (sampleIndex [1, 2, 3])
      let reply ← (Op.zeroRange 0 3).exec id sampleText
      let d ← getDisk
      pure (reply, d.size, d.chunkSize, d.source 0))) = some ([], 3, 512, .zeroDirty) := by
    decide +kernel
  obtain ⟨s₁, s', hopen, hrun⟩ := opened_sample hreply
  obtain ⟨reply, s₂, hzero, hrun⟩ := bind_ok.mp hrun
  obtain ⟨hpair, rfl⟩ := pure_ok.mp hrun
  simp only [Prod.mk.injEq] at hpair
  obtain ⟨-, hsize, hcs, hsource⟩ := hpair
  refine ⟨s₂, _, ⟨sampleHost, s₁, _, hopen, .single (.ok hzero)⟩, ?_, by decide, hsource⟩
  rw [ChunkMappedDisk.Holds, hsize, hcs]
  exact ⟨by decide, by decide, by decide⟩

/-- A chunk that was zeroed is classified as such. -/
theorem changed_chunk_is_dirty_sample : ∃ s G, History id sampleText s G ∧ Shows id s G.now ∧
    Grounded id s.disk s.host.files G.clean ∧ s.disk.source 0 = .zeroDirty ∧
      ZeroRecorded id s 0 ∧ exportsZero s.disk 0 = true := by
  obtain ⟨s, G, h, hholds, hne, hsource⟩ := zeroed_sample_history
  obtain ⟨hshows, hgrounded, hchanged⟩ := changed_chunk_is_dirty Function.injective_id h
  refine ⟨s, G, h, hshows, hgrounded, hsource, ?_⟩
  rcases hchanged 0 0 hholds hne with ⟨hoverlay, -⟩ | ⟨-, -, hzero⟩
  · rw [hsource] at hoverlay
    cases hoverlay
  · exact hzero

/-- A chunk that was zeroed whole differs from its baseline and is not exported as overlay data. -/
theorem zeroed_chunk_is_not_overlay_data :
    ∃ s G, History id sampleText s G ∧ s.disk.Holds 0 0 ∧ G.now.byte 0 ≠ G.clean.byte 0 ∧
      exportsOverlay s.disk 0 = false := by
  obtain ⟨s, G, h, hholds, hne, hsource⟩ := zeroed_sample_history
  exact ⟨s, G, h, hholds, hne, by simp [exportsOverlay, hsource]⟩

end SporeVM
