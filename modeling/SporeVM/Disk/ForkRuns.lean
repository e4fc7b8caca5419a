import SporeVM.Disk.Fork

/-!
# A forked head and its parent

Several disks run over one host. Each of them sees only its own operations, as long as no disk
writes to a file that another one reads; a failed operation of one disk is no exception. A child
opened over the fork authority of its parent, with the exported descriptor applied, starts with the
parent's contents at the export and shares no writable file with it.
-/

namespace SporeVM

open Lib
open Lib.EState (runAll specAll outcome)
open Function

variable {Id : Type} {ι : Type} [DecidableEq ι]

-- ══ Disks that share a host

def Apart (d d' : ChunkMappedDisk Id) : Prop := ∀ fd, d.Writes fd → ¬ d'.Reads fd

structure Fleet (ι Id : Type) where
  disk : ι → ChunkMappedDisk Id
  host : Host Id

namespace Fleet

def state (m : Fleet ι Id) (i : ι) : DiskState Id := ⟨m.disk i, m.host⟩

def put (m : Fleet ι Id) (i : ι) (s : DiskState Id) : Fleet ι Id :=
  ⟨update m.disk i s.disk, s.host⟩

variable [DecidableEq Id] (hash : List UInt8 → Id) (stringify : DiskIndex Id → List UInt8)

def run : List (ι × Op) → Fleet ι Id → List (ι × Except StorageError (List UInt8)) × Fleet ι Id
  | [], m => ([], m)
  | (i, op) :: steps, m =>
    let result := outcome (op.exec hash stringify) (m.state i)
    let rest := run steps (m.put i result.2)
    ((i, result.1) :: rest.1, rest.2)

end Fleet

def entriesOf {α : Type} (i : ι) (entries : List (ι × α)) : List α :=
  (entries.filter fun entry => decide (entry.1 = i)).map Prod.snd

lemma entriesOf_cons_self {α : Type} (i : ι) (a : α) (entries : List (ι × α)) :
    entriesOf i ((i, a) :: entries) = a :: entriesOf i entries := by
  simp [entriesOf]

lemma entriesOf_cons_ne {α : Type} {i j : ι} (hne : j ≠ i) (a : α) (entries : List (ι × α)) :
    entriesOf i ((j, a) :: entries) = entriesOf i entries := by
  simp [entriesOf, hne]

variable {hash : List UInt8 → Id} {G : Contents} {d : ChunkMappedDisk Id}

lemma Inv.of_files {files files' : ℕ → SparseFile} (h : Inv hash d files G)
    (hfiles : ∀ fd, d.Reads fd → files' fd = files fd) : Inv hash d files' G where
  size_eq := h.size_eq
  clean_size := h.clean_size
  based_size := h.based_size
  settled := h.settled
  overlay_ne_base := h.overlay_ne_base
  overlay_size o ho := by
    rw [hfiles o.fd (.inl ⟨o, ho, rfl⟩)]
    exact h.overlay_size o ho
  sorted := h.sorted
  baseline_le := h.baseline_le
  chunk c hc := by
    have hold := h.chunk c hc
    refine ⟨?_, hold.agrees, hold.clean, hold.based, hold.unread⟩
    refine chunkShows_congr hash rfl rfl rfl rfl rfl rfl ?_ ?_ (fun _ _ => rfl) hold.shows
    · intro i _
      rw [hfiles d.base.fd (.inr rfl)]
    · intro o ho i _
      rw [hfiles o.fd (.inl ⟨o, ho, rfl⟩)]

section Run

variable [DecidableEq Id] {stringify : DiskIndex Id → List UInt8} {s : DiskState Id}

omit [DecidableEq Id] in
lemma Fleet.put_apart {m : Fleet ι Id} (h : ∀ i j, i ≠ j → Apart (m.disk i) (m.disk j)) {i : ι}
    (hfoot : Footprint (m.state i) s) :
    ∀ j k, j ≠ k → Apart ((m.put i s).disk j) ((m.put i s).disk k) := by
  have hfiles : ∀ j fd, (((m.put i s).disk j).Writes fd ↔ (m.disk j).Writes fd) ∧
      (((m.put i s).disk j).Reads fd ↔ (m.disk j).Reads fd) := by
    intro j fd
    by_cases hj : j = i
    · subst hj
      simp only [Fleet.put, update_self]
      exact ⟨hfoot.writes fd, hfoot.reads fd⟩
    · simp only [Fleet.put, update_of_ne hj, and_self]
  intro j k hne fd hw hr
  exact h j k hne fd ((hfiles j fd).1.mp hw) ((hfiles k fd).2.mp hr)

lemma outcome_footprint (hinj : Injective hash) (stringify : DiskIndex Id → List UInt8)
    (hsim : Sim hash s G) (op : Op) : (∃ G', Sim hash (outcome (op.exec hash stringify) s).2 G') ∧
      Footprint s (outcome (op.exec hash stringify) s).2 := by
  rcases EState.outcome_cases (op.exec hash stringify) s with ⟨reply, -, hrun⟩ | ⟨e, -, hrun⟩
  · obtain ⟨-, hsim', hfoot⟩ := exec_ok hinj hsim hrun
    exact ⟨⟨_, hsim'⟩, hfoot⟩
  · obtain ⟨⟨now, hsim'⟩, hfoot, -⟩ := exec_error hinj hsim hrun
    exact ⟨⟨_, hsim'⟩, hfoot⟩

omit [DecidableEq Id] in
lemma Fleet.put_sim_ne {m : Fleet ι Id} {i j : ι} (hne : j ≠ i)
    (hapart : Apart (m.disk j) (m.disk i)) (hfoot : Footprint (m.state j) s)
    (hsim : Sim hash (m.state i) G) : Sim hash ((m.put j s).state i) G := by
  have hdisk : ((m.put j s).state i).disk = m.disk i := by
    simp [Fleet.put, Fleet.state, update_of_ne (Ne.symm hne)]
  unfold Sim
  rw [hdisk]
  exact Inv.of_files hsim fun fd hread => hfoot.file fun hwrite => hapart fd hwrite hread

omit [DecidableEq Id] in
lemma Fleet.put_state_self (m : Fleet ι Id) (i : ι) (s : DiskState Id) :
    (m.put i s).state i = s := by
  simp [Fleet.put, Fleet.state]

/-- **Isolation.** Along any interleaved run, a disk none of whose operations failed replies as its
own byte array does, whatever the other disks do. -/
theorem fleet_run_ok (hinj : Injective hash) (i : ι) :
    ∀ (steps : List (ι × Op)) (m : Fleet ι Id) (G : Contents) (replies : List (List UInt8)),
      (∀ j k, j ≠ k → Apart (m.disk j) (m.disk k)) → (∀ j, ∃ H, Sim hash (m.state j) H) →
      Sim hash (m.state i) G →
      entriesOf i (m.run hash stringify steps).1 = replies.map Except.ok →
      replies = (specAll Op.apply (entriesOf i steps) G).1 ∧
        Sim hash ((m.run hash stringify steps).2.state i)
          (specAll Op.apply (entriesOf i steps) G).2 := by
  intro steps
  induction steps with
  | nil =>
    intro m G replies _ _ hsim hreplies
    obtain rfl : replies = [] := List.map_eq_nil_iff.mp hreplies.symm
    exact ⟨rfl, hsim⟩
  | cons step steps ih =>
    obtain ⟨j, op⟩ := step
    intro m G replies hapart hall hsim hreplies
    obtain ⟨H, hsimj⟩ := hall j
    obtain ⟨hsimj', hfoot⟩ := outcome_footprint hinj stringify hsimj op
    have hapart' := Fleet.put_apart hapart hfoot
    have hall' : ∀ k, ∃ H, Sim hash
        ((m.put j (outcome (op.exec hash stringify) (m.state j)).2).state k) H := by
      intro k
      by_cases hk : j = k
      · subst hk
        rw [Fleet.put_state_self]
        exact hsimj'
      · obtain ⟨K, hsimk⟩ := hall k
        exact ⟨K, Fleet.put_sim_ne hk (hapart j k hk) hfoot hsimk⟩
    by_cases hij : j = i
    · subst hij
      rw [entriesOf_cons_self]
      simp only [Fleet.run, entriesOf_cons_self] at hreplies
      cases replies with
      | nil => cases hreplies
      | cons reply replies =>
        obtain ⟨hok, hreplies⟩ := List.cons.inj hreplies
        rcases EState.outcome_cases (op.exec hash stringify) (m.state j) with
          ⟨reply', hreply', hrun⟩ | ⟨e, hfailed, -⟩
        case inr =>
          rw [hfailed] at hok
          cases hok
        rw [hreply'] at hok
        cases hok
        obtain ⟨hreply, hsim', -⟩ := exec_ok hinj hsim hrun
        rw [← Fleet.put_state_self m j (outcome (op.exec hash stringify) (m.state j)).2] at hsim'
        obtain ⟨hrest, hsim''⟩ := ih _ _ replies hapart' hall' hsim' hreplies
        exact ⟨by rw [specAll, ← hreply, hrest], hsim''⟩
    · rw [entriesOf_cons_ne hij]
      simp only [Fleet.run, entriesOf_cons_ne hij] at hreplies
      exact ih _ G replies hapart' hall' (Fleet.put_sim_ne hij (hapart j i hij) hfoot hsim) hreplies

-- ══ The fork authority

variable {host : Host Id}

section

omit [DecidableEq Id]

lemma opened_start {A : SparseFile} (h : Opened hash host s A) : ∃ base overlay size chunkSize s₀,
      init host base overlay size chunkSize = .ok s₀ ∧ s.host = s₀.host ∧
      s.disk.overlay = s₀.disk.overlay ∧
      s.disk.pendingSnapshotIdentity = s₀.disk.pendingSnapshotIdentity ∧
      s.disk.committedSnapshotIdentity = s₀.disk.committedSnapshotIdentity := by
  induction h with
  | init hrun _ => exact ⟨_, _, _, _, _, hrun, rfl, rfl, rfl, rfl⟩
  | attachCasIndex hrun _ hattach _ =>
    obtain ⟨rfl, -⟩ := attach_ok hattach
    exact ⟨_, _, _, _, _, hrun, rfl, rfl, rfl, rfl⟩
  | attachParentIndex hrun _ hattach _ =>
    obtain ⟨rfl, -⟩ := attach_ok hattach
    exact ⟨_, _, _, _, _, hrun, rfl, rfl, rfl, rfl⟩
  | attachRemote _ hattach ih =>
    cases modifyDisk_ok.mp hattach
    exact ih

-- ══ Forks

lemma opened_files {A : SparseFile} (h : Opened hash host s A) {fd : ℕ}
    (hfd : ∀ o, s.disk.overlay = some o → o.fd ≠ fd) : s.host.files fd = host.files fd := by
  obtain ⟨base, overlay, size, chunkSize, s₀, hinit, hhost, hoverlay, -, -⟩ := opened_start h
  obtain ⟨⟨hpos, hdisk⟩, -, hfiles⟩ := init_ok hinit
  rw [hoverlay, hdisk] at hfd
  rw [hhost]
  exact hfiles fd hfd

lemma unexported_based {files : ℕ → SparseFile} (h : Inv hash d files G) {c : ℕ}
    (hc : c < d.chunkCount) (hoverlay : exportsOverlay d c = false)
    (hzero : exportsZero d c = false) : ∀ i, d.Holds c i → G.now.byte i = G.based.byte i := by
  have hold := h.chunk c hc
  -- A clean chunk is left out only when the committed snapshot covers it.
  have hsettled : cleanSourcesAreBaseline d = true → G.clean = G.based := by
    intro hclean
    rw [cleanSourcesAreBaseline, Bool.and_eq_true, Option.isNone_iff_eq_none] at hclean
    exact h.settled hclean.2
  unfold exportsOverlay at hoverlay
  unfold exportsZero at hzero
  cases hs : d.source c with
  | base | cas => exact hold.based (by simp [hs])
  | overlay => simp [hs] at hoverlay
  | zeroDirty => simp [hs] at hzero
  | overlayClean =>
    rw [← hsettled (by simpa [hs] using hoverlay)]
    exact hold.clean (by rw [hs]; rfl)
  | zero =>
    rw [← hsettled (by simpa [hs] using hzero)]
    exact hold.clean (by rw [hs]; rfl)

/-- **Fork.** A disk over the fork authority of the parent that takes the exported descriptor stands
for the parent's contents at the export. -/
theorem sim_of_fork {s' t t' : DiskState Id} {H : Contents} (hsim : Sim hash s G)
    (ht : Sim hash t H) {baseline : ForkBaseline Id} {childFd fd old : ℕ} {o : Overlay}
    {head : ForkHead Id} (hover : s.disk.overlay = some o)
    (hexported : Exported baseline childFd o s s' head)
    (happly : applyForkDescriptor head.descriptor fd t = .ok old t')
    (hbaseline : ∀ i, H.now.byte i = G.based.byte i) (hne : fd ≠ t.disk.base.fd)
    (hclone : t.host.files fd = s'.host.files childFd ∨ t.host.files fd = s.host.files o.fd) :
    Sim hash t' { H with now := G.now } := by
  obtain ⟨o', -, hfile, hsize, hcs, hcount, hclean, rfl⟩ := applyForkDescriptor_ok happly
  have hsize' : t.disk.size = s.disk.size := hsize.symm.trans hexported.logicalSize
  have hcs' : t.disk.chunkSize = s.disk.chunkSize := hcs.symm.trans hexported.chunkSize
  have hcount' : t.disk.chunkCount = s.disk.chunkCount := by
    rw [ChunkMappedDisk.chunkCount, ChunkMappedDisk.chunkCount, t.disk.sources_length,
      s.disk.sources_length, hsize', hcs']
  have hholds : ∀ {c i}, t.disk.Holds c i → s.disk.Holds c i := by
    intro c i hi
    rwa [ChunkMappedDisk.Holds, hsize', hcs'] at hi
  refine Inv.fork ht hclean (hsim.size_eq.trans hsize'.symm) hne (hfile.trans hsize).le ?_ ?_ ?_
  · intro c hc hbit i hi
    rw [hcount'] at hc
    rw [hexported.overlayChunks c hc] at hbit
    -- Both kinds of clone have the bytes of the parent's overlay here.
    have hbyte : (t.host.files fd).byte i = (s.host.files o.fd).byte i := by
      rcases hclone with hclone | hclone
      · rw [hclone]
        exact hexported.cloned c hc hbit i (hholds hi)
      · rw [hclone]
    have hshow := (hsim.chunk c hc).shows
    unfold ChunkShows at hshow
    unfold exportsOverlay at hbit
    cases hs : s.disk.source c <;> simp only [hs, reduceCtorEq] at hbit
    all_goals
      rw [hs] at hshow
      obtain ⟨o₁, ho₁, hshow⟩ := hshow
      cases hover.symm.trans ho₁
      exact hbyte.trans (hshow i (hholds hi))
  · intro c hc hbit i hi
    rw [hcount'] at hc
    rw [hexported.zeroChunks c hc] at hbit
    have hshow := (hsim.chunk c hc).shows
    unfold ChunkShows at hshow
    unfold exportsZero at hbit
    cases hs : s.disk.source c <;> simp only [hs, reduceCtorEq] at hbit
    all_goals
      rw [hs] at hshow
      exact hshow i (hholds hi)
  · intro c hc hbit hzbit i hi
    rw [hcount'] at hc
    rw [hexported.overlayChunks c hc] at hbit
    rw [hexported.zeroChunks c hc] at hzbit
    rw [unexported_based hsim hc hbit hzbit i (hholds hi), hbaseline i]

lemma fork_files {descriptor : ForkDescriptor Id} {o : Overlay} {fd : ℕ} :
    ((d.fork descriptor o).Writes fd → o.fd = fd ∨ d.Writes fd) ∧
      ((d.fork descriptor o).Reads fd → o.fd = fd ∨ d.Reads fd) := by
  constructor
  all_goals
    rintro (⟨o', ho', heq⟩ | hbase)
    · cases ho'
      exact .inl heq
    · exact .inr (.inr hbase)

end

lemma steps_file (hinj : Injective hash) {t t' : DiskState Id} {B : SparseFile}
    {H : Contents} (hopen : Opened hash host t B)
    (hsteps : Steps hash stringify t (Contents.fresh B) t' H) {fd : ℕ} (hfd : ¬ t'.disk.Writes fd) :
    t'.host.files fd = host.files fd := by
  have hfoot := (hsteps.sim hinj (sim_of_opened hopen)).2
  rw [hfoot.writes] at hfd
  rw [hfoot.file hfd]
  exact opened_files hopen fun o ho heq => hfd (.inl ⟨o, ho, heq⟩)

inductive Side
  | parent | child
  deriving DecidableEq

def forkFleet (parent child : ChunkMappedDisk Id) (host : Host Id) : Fleet Side Id where
  disk
    | .parent => parent
    | .child => child
  host := host

/-- **Forks.** Let a child be opened over the fork authority of a parent, whatever operations both
have run, and take the exported descriptor with the exported overlay file or a byte-exact clone of
the parent's overlay. Then the child reads what the parent read at the export. Along every later
interleaving each of the two replies as a byte array of its own, failures of the other included, and
every snapshot of the child denotes the child's array. -/
theorem fork_preserves_contents (hinj : Injective hash) {host : Host Id}
    {s s₁ s₂ s₃ : DiskState Id} {A : SparseFile} {G G₃ : Contents} (hopen : Opened hash host s A)
    (hparent : Steps hash stringify s (Contents.fresh A) s₁ G) {baseline : ForkBaseline Id}
    {options : ExportForkOptions} {childFd : ℕ} {head : ForkHead Id}
    (hfresh : ¬ s₁.disk.Reads childFd)
    (hexport : exportForkHead baseline options childFd s₁ = .ok head s₂)
    (hbetween : Steps hash stringify s₂ G s₃ G₃)
    {t t₁ t₂ : DiskState Id} {B : SparseFile} {H : Contents} (hopen' : Opened hash s₃.host t B)
    (hchild : Steps hash stringify t (Contents.fresh B) t₁ H)
    (hbaseline : ∀ i, H.now.byte i = G.based.byte i) {fd old : ℕ} (hclone : fd = head.overlayFd ∨
      ∃ o, s₁.disk.overlay = some o ∧ t₁.host.files fd = s₁.host.files o.fd)
    (happly : applyForkDescriptor head.descriptor fd t₁ = .ok old t₂)
    (hapart : Apart s₁.disk t₁.disk) (hapart' : Apart t₁.disk s₁.disk)
    (hfd : ¬ s₁.disk.Reads fd) (hfd' : ¬ t₁.disk.Reads fd) :
    (∀ len offset data data' s' t', readAt hash len offset s₁ = .ok data s' →
      readAt hash len offset t₂ = .ok data' t' → data = data') ∧
    ∀ steps results m,
      (forkFleet s₃.disk t₂.disk t₂.host).run hash stringify steps = (results, m) →
      (∀ replies, entriesOf .parent results = replies.map Except.ok →
        replies = (specAll Op.flat (entriesOf .parent steps) G₃.now).1) ∧
      (∀ replies, entriesOf .child results = replies.map Except.ok →
        replies = (specAll Op.flat (entriesOf .child steps) G.now).1 ∧
        ∀ dir device quiesced disk stats t', snapshotIndexWithStats hash stringify dir device
            quiesced (m.state .child) = .ok (disk, stats) t' →
          ∃ index, t'.host.indexes dir disk.base = some index ∧
            IndexDenotes hash index (specAll Op.flat (entriesOf .child steps) G.now).2) := by
  have hsim := (hparent.sim hinj (sim_of_opened hopen)).1
  have ht₁ := (hchild.sim hinj (sim_of_opened hopen')).1
  obtain ⟨o, ho, hexported⟩ := exportForkHead_ok hfresh hexport
  -- The export leaves the parent as it was.
  have hsim₂ : Sim hash s₂ G := by
    unfold Sim
    rw [hexported.only.disk]
    refine Inv.of_files hsim fun fd' hread => hexported.only.files fd' ?_
    rintro rfl
    exact hfresh hread
  obtain ⟨hsim₃, hfoot₃⟩ := hbetween.sim hinj hsim₂
  have hreads₃ : ∀ fd', s₃.disk.Reads fd' ↔ s₁.disk.Reads fd' := by
    intro fd'
    rw [hfoot₃.reads, hexported.only.disk]
  have hwrites₃ : ∀ fd', s₃.disk.Writes fd' ↔ s₁.disk.Writes fd' := by
    intro fd'
    rw [hfoot₃.writes, hexported.only.disk]
  -- Nobody has written to the exported file since.
  have hclone' : t₁.host.files fd = s₂.host.files childFd ∨
      t₁.host.files fd = s₁.host.files o.fd := by
    rcases hclone with hfile | ⟨o', ho', hfile⟩
    · left
      rw [hexported.overlayFd] at hfile
      subst hfile
      rw [steps_file hinj hopen' hchild fun h => hfd' h.reads, hfoot₃.file]
      rw [hexported.only.disk]
      exact fun h => hfresh h.reads
    · right
      cases ho.symm.trans ho'
      exact hfile
  have hbase : fd ≠ t₁.disk.base.fd := fun heq => hfd' (.inr heq.symm)
  have ht₂ := sim_of_fork hsim ht₁ ho hexported happly hbaseline hbase hclone'
  refine ⟨?_, ?_⟩
  · intro len offset data data' s' t' hread hread'
    rw [(readAt_ok hinj hsim hread).2.1, (readAt_ok hinj ht₂ hread').2.1]
  obtain ⟨o', -, -, -, -, -, -, rfl⟩ := applyForkDescriptor_ok happly
  set fleet := forkFleet s₃.disk (t₁.disk.fork head.descriptor { o' with fd := fd }) t₁.host
  -- The two disks share no file that either of them writes to.
  have hsep : ∀ j k, j ≠ k → Apart (fleet.disk j) (fleet.disk k) := by
    intro j k hne fd' hw hr
    cases j <;> cases k <;> simp only [ne_eq, not_true_eq_false, reduceCtorEq,
      not_false_eq_true] at hne
    · have hw := (hwrites₃ fd').mp hw
      rcases fork_files.2 hr with rfl | hr
      · exact hfd hw.reads
      · exact hapart fd' hw hr
    · have hr := (hreads₃ fd').mp hr
      rcases fork_files.1 hw with rfl | hw
      · exact hfd hr
      · exact hapart' fd' hw hr
  have hparent₃ : Sim hash (fleet.state .parent) G₃ := by
    refine Inv.of_files hsim₃ fun fd' hread => steps_file hinj hopen' hchild fun hwrite => ?_
    exact hapart' fd' hwrite ((hreads₃ fd').mp hread)
  have hall : ∀ j, ∃ K, Sim hash (fleet.state j) K := by
    intro j
    cases j with
    | parent => exact ⟨_, hparent₃⟩
    | child => exact ⟨_, ht₂⟩
  intro steps results m hrun
  have hresults := congrArg Prod.fst hrun
  have hm := congrArg Prod.snd hrun
  simp only at hresults hm
  subst hresults hm
  refine ⟨fun replies hreplies => ?_, fun replies hreplies => ?_⟩
  · rw [← (specAll_apply_flat _ G₃).1]
    exact (fleet_run_ok hinj .parent steps _ G₃ replies hsep hall hparent₃ hreplies).1
  · obtain ⟨hreply, hsim'⟩ :=
      fleet_run_ok hinj Side.child steps _ { H with now := G.now } replies hsep hall ht₂ hreplies
    refine ⟨hreply.trans (specAll_apply_flat _ _).1, ?_⟩
    intro dir device quiesced disk stats t' hsnapshot
    obtain ⟨⟨index, hpublished, hdenotes, -⟩, -⟩ := snapshotIndexWithStats_ok hinj hsim' hsnapshot
    rw [(specAll_apply_flat _ _).2] at hdenotes
    exact ⟨index, hpublished, hdenotes⟩

end Run

lemma init_files {host : Host Id} {base : FileBlockSource} {overlay : Option Overlay}
    {size chunkSize : UInt64} {s : DiskState Id}
    (h : init host base overlay size chunkSize = .ok s) (fd : ℕ) :
    (s.disk.Writes fd ↔ ∃ o, overlay = some o ∧ o.fd = fd) ∧
      (s.disk.Reads fd ↔ (∃ o, overlay = some o ∧ o.fd = fd) ∨ base.fd = fd) := by
  obtain ⟨⟨hpos, hdisk⟩, -, -⟩ := init_ok h
  rw [hdisk]
  simp [ChunkMappedDisk.Writes, ChunkMappedDisk.Reads, freshDisk, Index.isCas]

def sampleParentOps : List Op :=
  [.writeAt [9] 1, .snapshotIndex "cache" sampleDevice true, .writeAt [8] 2]

def sampleSteps : List (Side × Op) :=
  [(.child, .readAt 3 0), (.parent, .writeAt [7] 0), (.child, .writeAt [5] 0),
    (.parent, .writeAt [6] 5), (.child, .readAt 3 0), (.parent, .readAt 3 0)]

def sampleFork : Except StorageError
    (List (Side × Except StorageError (List UInt8)) × List UInt8 × ℕ) := do
  let s ← init sampleHost ⟨0, 600⟩ (some ⟨1, "/tmp"⟩) 3 65536
  let (_, s₁) ← EState.attempt (runAll (Op.exec id sampleText) sampleParentOps) s
  let (head, s₂) ← EState.attempt
    (exportForkHead ⟨.rootfs, []⟩ ⟨true, true, true⟩ 3) s₁
  let t ← init s₂.host ⟨0, 600⟩ (some ⟨2, "/tmp"⟩) 3 65536
  let (_, t₂) ← EState.attempt (applyForkDescriptor head.descriptor 3) t
  let results := ((forkFleet s₂.disk t₂.disk t₂.host).run id sampleText sampleSteps).1
  pure (results, slice (s₂.host.files 0).byte 0 3, head.overlayFd)

theorem fork_preserves_contents_sample :
    ∃ s s₁ s₂ t t₂ replies head old, Opened id sampleHost s (baseContents sampleHost ⟨0, 600⟩ 3) ∧
      runAll (Op.exec id sampleText) sampleParentOps s = .ok replies s₁ ∧
      exportForkHead ⟨.rootfs, []⟩ ⟨true, true, true⟩ 3 s₁ = .ok head s₂ ∧
      Opened id s₂.host t (baseContents s₂.host ⟨0, 600⟩ 3) ∧
      applyForkDescriptor head.descriptor 3 t = .ok old t₂ ∧
      entriesOf .child ((forkFleet s₂.disk t₂.disk t₂.host).run id sampleText sampleSteps).1 =
        [[0, 9, 8], [], [5, 9, 8]].map Except.ok ∧
      [[0, 9, 8], [], [5, 9, 8]] = (specAll Op.flat (entriesOf .child sampleSteps)
        (specAll Op.apply sampleParentOps
          (Contents.fresh (baseContents sampleHost ⟨0, 600⟩ 3))).2.now).1 := by
  have hfork : sampleFork = .ok ([(.child, .ok [0, 9, 8]), (.parent, .ok []), (.child, .ok []),
      (.parent, .error .outOfRange), (.child, .ok [5, 9, 8]), (.parent, .ok [7, 9, 8])],
      [0, 0, 0], 3) := by
    decide +kernel
  obtain ⟨s, hinit, h⟩ := Check.bind_ok.mp hfork
  obtain ⟨⟨replies, s₁⟩, hrun, h⟩ := Check.bind_ok.mp h
  obtain ⟨⟨head, s₂⟩, hexport, h⟩ := Check.bind_ok.mp h
  obtain ⟨t, hinit', h⟩ := Check.bind_ok.mp h
  obtain ⟨⟨old, t₂⟩, happly, h⟩ := Check.bind_ok.mp h
  have hrun := EState.attempt_ok hrun
  have hexport := EState.attempt_ok hexport
  have happly := EState.attempt_ok happly
  obtain ⟨hresults, hrest⟩ := Prod.mk.inj (Except.ok.inj h)
  obtain ⟨hbytes, hoverlay⟩ := Prod.mk.inj hrest
  have hopen : Opened id sampleHost s (baseContents sampleHost ⟨0, 600⟩ 3) := .init hinit (by simp)
  have hopen' : Opened id s₂.host t (baseContents s₂.host ⟨0, 600⟩ 3) := .init hinit' (by simp)
  have hsteps := steps_of_runAll (G := Contents.fresh (baseContents sampleHost ⟨0, 600⟩ 3)) hrun
  have hfoot := (hsteps.sim injective_id (sim_of_opened hopen)).2
  have hreads : ∀ fd, s₁.disk.Reads fd ↔ 1 = fd ∨ 0 = fd := fun fd => by
    simp [hfoot.reads, (init_files hinit fd).2]
  have hwrites : ∀ fd, s₁.disk.Writes fd ↔ 1 = fd := fun fd => by
    simp [hfoot.writes, (init_files hinit fd).1]
  have hreads' : ∀ fd, t.disk.Reads fd ↔ 2 = fd ∨ 0 = fd := fun fd => by
    simp [(init_files hinit' fd).2]
  have hwrites' : ∀ fd, t.disk.Writes fd ↔ 2 = fd := fun fd => by
    simp [(init_files hinit' fd).1]
  have hbase : ∀ i, (baseContents s₂.host ⟨0, 600⟩ 3).byte i =
      (baseContents sampleHost ⟨0, 600⟩ 3).byte i := by
    intro i
    have hsame : slice (s₂.host.files 0).byte 0 3 = slice (sampleHost.files 0).byte 0 3 :=
      hbytes.trans (by decide)
    change (if i < 3 then (s₂.host.files 0).byte i else 0) =
      if i < 3 then (sampleHost.files 0).byte i else 0
    split
    · exact slice_eq_iff.mp hsame i (by omega) (by omega)
    · rfl
  have hchild : entriesOf .child
      ((forkFleet s₂.disk t₂.disk t₂.host).run id sampleText sampleSteps).1 =
        [[0, 9, 8], [], [5, 9, 8]].map Except.ok := by
    rw [hresults]
    rfl
  have hconclusion := (fork_preserves_contents injective_id hopen hsteps
    (by simp [hreads]) hexport .refl hopen' .refl hbase (.inl hoverlay.symm) happly
    (fun fd hw hr => by rw [hwrites] at hw; rw [hreads'] at hr; omega)
    (fun fd hw hr => by rw [hwrites'] at hw; rw [hreads] at hr; omega)
    (by simp [hreads]) (by simp [hreads'])).2 sampleSteps _ _ rfl
  exact ⟨s, s₁, s₂, t, t₂, replies, head, old, hopen, hrun, hexport, hopen', happly, hchild,
    (hconclusion.2 _ hchild).1⟩

end SporeVM
