import SporeVM.Memory

/-!
# The dirty RAM sealer

The `Sealer` of `dirty_ram.zig` keeps, for a RAM image that goes on changing, a reference to a chunk
file or none for each of its chunks, and a copy of the image in a backing file. This module has
`finishBacking`, which gives the manifest of the references, and the state that it uses.

RAM is an array of bytes. The references are digests, for which the source has their hexadecimal
text. Clocks are read between file operations, and every reading, file operation and allocation may
fail: the fault list says which. Statistics are left out, and so is the sealing of single chunks.
-/

namespace SporeVM.DirtyRam

open Lib (SparseFile divCeil)
open Lib.EState (rejectIf runIf)
open Memory (MemoryError MemoryManifest chunkSize)

variable {Id : Type}

/-- The errors of the sealer: its own, and those of file operations. -/
inductive SealError
  | clockFailed | outOfMemory
  | file (e : MemoryError)
  deriving DecidableEq

structure Sealer (Id : Type) where
  ram : SparseFile
  refs : ℕ → Option Id
  /-- Whether `backing_fd` is a descriptor. -/
  backingOpen : Bool
  /-- Whether there is a file of the name `backing_tmp_path`. -/
  backingTmp : Bool
  /-- Whether there is a file of the name `backing_final_path`. -/
  backingFinal : Bool
  finished : Bool

structure Host (Id : Type) where
  sealer : Sealer Id
  faults : List (Option ℕ)

abbrev SealerM (Id : Type) := EStateM SealError (Host Id)

namespace Sealer

def chunkCount (s : Sealer Id) : ℕ := divCeil s.ram.size chunkSize

def manifest (s : Sealer Id) : MemoryManifest Id :=
  let draft := (List.range s.chunkCount).foldl
    (fun (draft : Draft Id) i => draft.record i (.ofEntry (s.refs i))) ⟨[], []⟩
  { logicalSize := s.ram.size
    chunkSize
    chunks := draft.chunks
    zeroRanges := draft.zeroRanges
    backing := some { path := Memory.ramBackingPath, size := s.ram.size } }

end Sealer

-- ══ Operations that may fail

def attempt : SealerM Id Bool := do
  let w ← get
  modify fun w => { w with faults := w.faults.tail }
  pure (w.faults.headD none).isNone

def mayFail (e : SealError) : SealerM Id Unit := do
  let succeeds ← attempt
  rejectIf (succeeds = false) e

def clock : SealerM Id Unit := mayFail .clockFailed

def update (f : Sealer Id → Sealer Id) : SealerM Id Unit :=
  modify fun w => { w with sealer := f w.sealer }

section Model

-- ══ Finishing

def timedCall : SealerM Id Unit := do
  clock
  let w ← get
  let succeeds ← attempt
  clock
  rejectIf (w.sealer.backingOpen = false ∨ succeeds = false) (.file .ioFailed)

def linkBacking : SealerM Id Unit := do
  clock
  let w ← get
  let succeeds ← attempt
  let linked := succeeds && w.sealer.backingTmp && !w.sealer.backingFinal
  runIf (linked = true) (update fun s => { s with backingFinal := true })
  clock
  rejectIf (linked = false) (.file .ioFailed)

def unlinkBackingTmp : SealerM Id Unit := do
  let succeeds ← attempt
  runIf (succeeds = true) (update fun s => { s with backingTmp := false })
  runIf (succeeds = false) do
    let undone ← attempt
    update fun s => { s with backingFinal := !undone }
  rejectIf (succeeds = false) (.file .ioFailed)

def closeBacking : SealerM Id Unit := do
  let deferred ← attempt
  runIf (deferred = false) clock
  update fun s => { s with backingOpen := false }
  runIf (deferred = false) clock

def finishBacking : SealerM Id (MemoryManifest Id) := do
  timedCall
  timedCall
  linkBacking
  unlinkBackingTmp
  closeBacking
  update fun s => { s with finished := true }
  mayFail .outOfMemory
  let w ← get
  pure w.sealer.manifest

end Model

end SporeVM.DirtyRam
