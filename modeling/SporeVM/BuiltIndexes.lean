import SporeVM.Disk.SnapshotRefine
import SporeVM.DirtyRam.Sealer
import SporeVM.Rootfs.InlineCas

/-!
# Indexes the program builds

Five places build an index or a memory manifest chunk by chunk: the snapshot of a disk, the sealer
of dirty memory, the writer of an image, the save of memory and the preload of a file. They skip and
share work in different ways, but each of them decides every chunk once, in ascending order, and so
each gives a draft (`draftOf`), whose index is well formed.
-/

namespace SporeVM

open Lib (SparseFile divCeil)
open Lib.EState (bind_ok pure_ok)
open InlineCas (InlineRootfsCas EmitSpan Pool)

variable {Id : Type} [DecidableEq Id] {hash : List UInt8 → Id}

-- ══ The snapshot of a disk

section Snapshot

variable {dir : String} {s s' : DiskState Id}

lemma sealCandidate_record {c : ℕ} {v v' : SnapshotLoop Id}
    (h : sealCandidate hash dir c v s = .ok v' s') :
    ∃ decision, v'.draft = v.draft.record c decision := by
  obtain ⟨draft, cursor, published, batch, sealed, linked, stats⟩ := v
  rcases batch with _ | (_ | ⟨⟨index, result⟩, rest⟩)
  · obtain ⟨result, _, -, h⟩ := bind_ok.mp h
    obtain ⟨rfl, -⟩ := pure_ok.mp h
    exact ⟨result, rfl⟩
  · cases h
  · obtain ⟨_, _, -, h⟩ := bind_ok.mp h
    obtain ⟨rfl, -⟩ := pure_ok.mp h
    exact ⟨result, rfl⟩

/-- An iteration decides its chunk, in whichever way. -/
theorem snapshotStep_record {useParentIndex : Bool} {digests : List (DiskIndexChunk Id)}
    {parentChunkCount c : ℕ} {v v' : SnapshotLoop Id}
    (h : snapshotStep hash dir useParentIndex digests parentChunkCount v c s = .ok v' s') :
    ∃ decision, v'.draft = v.draft.record c decision := by
  obtain ⟨d, _, hd, h⟩ := bind_ok.mp h
  split at h
  · obtain ⟨rfl, -⟩ := pure_ok.mp h
    exact ⟨.zero, rfl⟩
  split at h
  · obtain ⟨rfl, -⟩ := pure_ok.mp h
    exact ⟨.zero, rfl⟩
  split at h
  · obtain ⟨-, hdraft, -⟩ := reuseParentEntry_ok h
    exact ⟨_, hdraft⟩
  · obtain ⟨decision, hdraft⟩ := sealCandidate_record h
    exact ⟨decision, hdraft⟩

lemma buildDraft_draftOf {draft : Draft Id} {stats : SnapshotStats}
    (h : buildDraft hash dir s = .ok (draft, stats) s') :
    ∃ decision, draft = draftOf decision s.disk.chunkCount := by
  replace h := getDisk_bind_ok.mp h
  obtain ⟨batch, s₂, -, h⟩ := bind_ok.mp h
  obtain ⟨v, s₃, hloop, h⟩ := bind_ok.mp h
  iterate 3 obtain ⟨_, _, -, h⟩ := bind_ok.mp h
  obtain ⟨hpair, -⟩ := pure_ok.mp h
  cases hpair
  refine Lib.EState.foldlM_range_ok
    (I := fun n (v : SnapshotLoop Id) _ => ∃ decision, v.draft = draftOf decision n)
    (fun n v t v' t' _ hdraft hstep => ?_) ⟨fun _ => .zero, rfl⟩ hloop
  obtain ⟨decision, hdraft⟩ := hdraft
  obtain ⟨next, hnext⟩ := snapshotStep_record hstep
  refine ⟨Function.update decision n next, ?_⟩
  rw [hnext, hdraft, draftOf, Function.update_self]
  congr 1
  exact draftOf_congr fun c hc => (Function.update_of_ne (by omega) _ _).symm

end Snapshot

-- ══ The sealer of memory

section Sealer

omit [DecidableEq Id]

lemma foldl_record (decision : ℕ → SealResult Id) (n : ℕ) :
    (List.range n).foldl (fun (draft : Draft Id) i => draft.record i (decision i)) ⟨[], []⟩ =
      draftOf decision n := by
  induction n with
  | zero => rfl
  | succ n ih =>
    rw [List.range_succ, List.foldl_append, ih]
    rfl

lemma listed_wellFormed {decision : ℕ → SealResult Id} {draft : Draft Id} {n size : ℕ}
    {backing : Option Memory.MemoryBacking} (hn : n = divCeil size Memory.chunkSize)
    (hdraft : draft = draftOf decision n) (hle : size ≤ maxU64) :
    validateIndexShape (Memory.memoryIndex
      { logicalSize := size, chunkSize := Memory.chunkSize, chunks := draft.chunks
        zeroRanges := draft.zeroRanges, backing }) = .ok () := by
  subst hn
  exact Memory.validateIndexShape_memoryIndex rfl rfl hle (congrArg Draft.chunks hdraft)
    (congrArg Draft.zeroRanges hdraft)

lemma manifest_wellFormed (s : DirtyRam.Sealer Id) (hle : s.ram.size ≤ maxU64) :
    validateIndexShape (Memory.memoryIndex s.manifest) = .ok () := by
  exact listed_wellFormed rfl (foldl_record (fun c => .ofEntry (s.refs c)) s.chunkCount) hle

end Sealer

-- ══ All of them

/-- Every index and memory manifest that the program builds chunk by chunk is accepted, whatever the
size and whichever chunks are zero: of a disk's snapshot, of the sealer of dirty memory (whose size
is a number of sixty-four bits), of an image that is written, of saved memory, of a preloaded
file. -/
theorem built_indexes_well_formed (hash : List UInt8 → Id) :
    (∀ (dir : String) (s s' : DiskState Id) (draft : Draft Id) (stats : SnapshotStats),
      snapshotDraft hash dir s = .ok (draft, stats) s' →
        validateIndexShape (indexOf s.disk draft) = .ok ()) ∧
    (∀ (w w' : DirtyRam.Host Id) (manifest : Memory.MemoryManifest Id),
      DirtyRam.finishBacking w = .ok manifest w' → manifest.logicalSize ≤ maxU64 →
        validateIndexShape (Memory.memoryIndex manifest) = .ok ()) ∧
    (∀ (imageSize chunkSize totalBlocks capacity workers : ℕ) (cas : InlineRootfsCas)
      (spans : List EmitSpan) (pool : Pool Id),
      InlineRootfsCas.init imageSize chunkSize = .ok cas →
      imageSize = totalBlocks * InlineCas.blockSize →
      InlineCas.spansOk totalBlocks 0 spans = true →
      Relation.ReflTransGen (Pool.Step hash capacity workers)
        { waiting := (InlineCas.writeImage imageSize totalBlocks cas spans).cas.close.tasks } pool →
      pool.Joined →
        validateIndexShape
          ((InlineCas.writeImage imageSize totalBlocks cas spans).cas.close.index pool.results) =
            .ok ()) ∧
    (∀ (ram : SparseFile) (withBacking : Bool) (s s' : Memory.SporeDir Id)
      (manifest : Memory.MemoryManifest Id),
      Memory.saveMemoryInternal hash ram withBacking s = .ok manifest s' →
        validateIndexShape (Memory.memoryIndex manifest) = .ok ()) ∧
    ∀ (src : Preload.SourceFile) (chunkSize count : ℕ) (v : Preload.PreloadLoop Id)
      (s s' : Preload.CasCache Id),
      Preload.chunkCount src.file.size chunkSize = .ok count →
      (List.range count).foldlM (Preload.scanChunk hash src chunkSize) {} s = .ok v s' →
        validateIndexShape (Preload.manifestIndex src.file.size chunkSize v.draft) = .ok () := by
  refine ⟨?_, ?_, ?_, ?_, ?_⟩
  · intro dir s s' draft stats h
    obtain ⟨_, s₁, hfetch, h⟩ := bind_ok.mp h
    obtain ⟨_, s₂, hsync, h⟩ := bind_ok.mp h
    obtain ⟨decision, rfl⟩ := buildDraft_draftOf h
    have hdisk : s₂.disk = s.disk := ((fetchFromStore_ok hfetch).trans (syncDir_ok hsync)).1
    have hcount : s₂.disk.chunkCount = divCeil s.disk.size s.disk.chunkSize := by
      rw [hdisk]
      exact s.disk.sources_length
    rw [hcount]
    exact validateIndexShape_draftOf rfl s.disk.chunkSize_pos
      ((Lib.divCeil_le s.disk.chunkSize_pos.ne').trans s.disk.size_le) rfl rfl
  · intro w w' manifest h hsize
    iterate 7 obtain ⟨_, _, -, h⟩ := bind_ok.mp h
    obtain ⟨final, _, -, h⟩ := bind_ok.mp h
    obtain ⟨rfl, -⟩ := pure_ok.mp h
    exact manifest_wellFormed final.sealer hsize
  · intro imageSize chunkSize totalBlocks capacity workers cas spans pool hinit hsize hspans hrun
      hjoined
    obtain ⟨bytes, -, -, hindex, -⟩ :=
      InlineCas.sealed_of_joined hinit hsize spans hspans hrun hjoined
    rw [hindex]
    unfold InlineRootfsCas.init at hinit
    split at hinit
    · next hgood => exact validateIndexShape_draftOf rfl hgood.1 hgood.2.2 rfl rfl
    · cases hinit
  · intro ram withBacking s s' manifest h
    obtain ⟨hle, hsaved, hkind, hlogical, hsize, -, -⟩ := Memory.saveChunks_ok h
    exact Memory.validateIndexShape_memoryIndex hkind hsize (by omega)
      (by rw [hlogical, ← hsaved.draft]) (by rw [hlogical, ← hsaved.draft])
  · intro src chunkSize count v s s' hcount hscan
    obtain ⟨hpos, hle, rfl⟩ := Preload.chunkCount_ok hcount
    obtain ⟨-, hscanned⟩ := Preload.scanChunks_ok hscan
    rw [hscanned.draft]
    exact validateIndexShape_draftOf rfl hpos hle rfl rfl

/-- A zero chunk and a short tail chunk, preloaded. -/
theorem built_indexes_well_formed_three_bytes : ∃ v s', (List.range 2).foldlM
        (Preload.scanChunk id (Preload.plainSource [0, 0, 1] (by decide)) 2) {} Preload.emptyCache =
          .ok v s' ∧
      validateIndexShape (Preload.manifestIndex 3 2 v.draft) = .ok () :=
  ⟨_, _, rfl, (built_indexes_well_formed id).2.2.2.2
    (Preload.plainSource [0, 0, 1] (by decide)) 2 2 _ Preload.emptyCache _ (by decide) rfl⟩

end SporeVM
