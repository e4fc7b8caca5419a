import Mathlib.Algebra.Order.Ring.Nat
import Mathlib.Tactic.Common
import SporeVM.Lib.Assoc
import SporeVM.Lib.EState
import SporeVM.Lib.PathText

/-!
# Applying image layers to a merged tree

The layer application of `rootfs/tar.zig`. A layer is a sequence of tar records; some carry names
and metadata for the next one, the others put a file, a directory, a link or a whiteout into the
tree that the layers below have made.

A path is the list of its components, which the source joins by slashes; no component is empty or
holds a slash, so a path lies below another exactly when the list of the other is a proper initial
part of its own. A record is modelled by what its header and payload give: `mode` and the owners
may be malformed, and the payload of an extended header acts on the pending one in its own way.
-/

namespace SporeVM.Tar

open Lib (Assoc)
open Lib.PathText (Text components sep dot dotDot)
open Lib.Check (rejectIf)

abbrev Path := List Text

inductive TarError
  | unsafeTarPath | rootTarPath | nameTooLong | symlinkTraversal | parentNotDirectory
  | badHardlinkTarget | badSymlinkTarget | badWhiteout
  | unsupportedTarXattr | unsupportedTarEntryType | unsupportedGlobalPaxRecord
  | rootFSArchiveTooManyEntries | rootFSArchiveTooLarge | rootFSTooManyXattrs
  | rootFSXattrsTooLarge | badTarHeader | badPaxHeader | tarHeaderTooLarge
  deriving DecidableEq

structure Ownership where
  uid : ℕ
  gid : ℕ
  deriving DecidableEq

structure Attribute where
  name : Text
  value : List UInt8
  deriving DecidableEq

inductive FileSource
  | memory (data : List UInt8)
  | file (path : Text) (offset size : ℕ)
  deriving DecidableEq

inductive MergedEntryKind
  | directory | file | symlink
  deriving DecidableEq

structure MergedEntry where
  kind : MergedEntryKind
  mode : ℕ
  uid : ℕ
  gid : ℕ
  inodeId : ℕ := 0
  symlinkTarget : Text := []
  xattrs : List Attribute := []
  deriving DecidableEq

structure MergedTree where
  entries : Assoc Path MergedEntry
  fileSources : ℕ → Option FileSource
  fileLinkCounts : ℕ → Option ℕ
  nextInodeId : ℕ

def MergedTree.init : MergedTree where
  entries := Assoc.empty
  fileSources _ := none
  fileLinkCounts _ := none
  nextInodeId := 1

def maxContentBytes : ℕ := 32 * 2 ^ 30

def maxArchiveEntries : ℕ := 1000000

def maxLayerXattrs : ℕ := 1000000

def maxLayerValueBytes : ℕ := 64 * 2 ^ 20

def maxPathBytes : ℕ := 4096

-- ══ Paths

def normalizeComponents : Path → List Text → Except TarError Path
  | parts, [] => .ok parts
  | parts, part :: rest =>
    if part = [] ∨ part = dot then normalizeComponents parts rest
    else if part = dotDot then
      if parts = [] then .error .unsafeTarPath else normalizeComponents parts.dropLast rest
    else normalizeComponents (parts ++ [part]) rest

def normalizeRelativePath (raw : List Text) : Except TarError Path := do
  let parts ← normalizeComponents [] raw
  rejectIf (parts = []) .unsafeTarPath
  pure parts

def isTarRootPath (raw : Text) : Bool :=
  raw ≠ [] ∧ ∀ part ∈ components raw, part = [] ∨ part = dot

def safeTarPath (raw : Text) : Except TarError Path := do
  rejectIf (raw = [] ∨ raw.head? = some sep) .unsafeTarPath
  rejectIf (Char.ofNat 0 ∈ raw) .unsafeTarPath
  rejectIf (isTarRootPath raw) .rootTarPath
  normalizeRelativePath (components raw)

def parentPath (rel : Path) : Path := rel.dropLast

def baseName (rel : Path) : Text := rel.getLastD []

def pathLength (rel : Path) : ℕ := (rel.map List.length).sum + (rel.length - 1)

def isMergedDescendant (parent path : Path) : Bool := parent.isPrefixOf path && parent ≠ path

def validateSymlinkTarget (rel : Path) (rawLink : Text) : Except TarError Unit := do
  rejectIf (rawLink = [] ∨ Char.ofNat 0 ∈ rawLink) .badSymlinkTarget
  let _ ← normalizeRelativePath
    (if rawLink.head? = some sep then components rawLink.tail
      else parentPath rel ++ components rawLink)
  pure ()

-- ══ Entries and links

def MergedEntry.names (i : ℕ) (entry : MergedEntry) : Bool :=
  entry.kind = .file ∧ entry.inodeId = i

/-- Gives up one name of the inode of an entry; the last one takes the contents along. The source
asserts that the count is not zero. -/
def releaseMergedEntry (tree : MergedTree) (entry : MergedEntry) : MergedTree :=
  if entry.kind ≠ .file then tree
  else
    match tree.fileLinkCounts entry.inodeId with
    | none => tree
    | some count =>
      if count - 1 ≠ 0 then
        { tree with
          fileLinkCounts := Function.update tree.fileLinkCounts entry.inodeId (some (count - 1)) }
      else
        { tree with
          fileLinkCounts := Function.update tree.fileLinkCounts entry.inodeId none
          fileSources := Function.update tree.fileSources entry.inodeId none }

def removeMergedPath (tree : MergedTree) (rel : Path) : MergedTree :=
  match tree.entries.find rel with
  | none => tree
  | some entry => releaseMergedEntry { tree with entries := tree.entries.erase rel } entry

def releaseExisting (tree : MergedTree) (rel : Path) : MergedTree :=
  match tree.entries.find rel with
  | none => tree
  | some entry => releaseMergedEntry tree entry

def countName (tree : MergedTree) (entry : MergedEntry) : MergedTree :=
  if entry.kind = .file then
    { tree with
      fileLinkCounts := Function.update tree.fileLinkCounts entry.inodeId
        (some ((tree.fileLinkCounts entry.inodeId).getD 0 + 1)) }
  else tree

def putMergedEntry (tree : MergedTree) (rel : Path) (entry : MergedEntry) : MergedTree :=
  let released := releaseExisting tree rel
  countName { released with entries := released.entries.put rel entry } entry

def removeMergedPaths (tree : MergedTree) (keys : List Path) : MergedTree :=
  keys.foldl removeMergedPath tree

def removeMergedSubtree (tree : MergedTree) (rel : Path) : MergedTree :=
  removeMergedPaths tree (tree.entries.keys.filter fun key => rel.isPrefixOf key)

def createdHasDescendant (created : List Path) (rel : Path) : Bool :=
  created.any (isMergedDescendant rel)

def createdAtOrBelow (created : List Path) (rel : Path) : Bool :=
  created.contains rel || createdHasDescendant created rel

def removeMergedLowerChildren (tree : MergedTree) (created : List Path) (rel : Path) : MergedTree :=
  removeMergedPaths tree
    (tree.entries.keys.filter fun key =>
      isMergedDescendant rel key && !createdAtOrBelow created key)

inductive IncomingEntryKind
  | directory | nonDirectory
  deriving DecidableEq

def prepareMergedPath (tree : MergedTree) (rel : Path) (incoming : IncomingEntryKind) :
    MergedTree :=
  match tree.entries.find rel with
  | none => tree
  | some entry =>
    if incoming = .directory ∧ entry.kind = .directory then tree
    else if entry.kind ≠ .directory then removeMergedPath tree rel
    else removeMergedSubtree tree rel

def implicitDirectory : MergedEntry := { kind := .directory, mode := 0o755, uid := 0, gid := 0 }

def ensureDirectory (tree : MergedTree) (current : Path) : Except TarError MergedTree :=
  match tree.entries.find current with
  | some entry => if entry.kind ≠ .directory then .error .parentNotDirectory else .ok tree
  | none => .ok (putMergedEntry tree current implicitDirectory)

def ensureMergedParentFrom (tree : MergedTree) (accum : Path) :
    List Text → Except TarError MergedTree
  | [] => .ok tree
  | part :: rest => do
    let tree ← ensureDirectory tree (accum ++ [part])
    ensureMergedParentFrom tree (accum ++ [part]) rest

def ensureMergedParent (tree : MergedTree) (parent : Path) : Except TarError MergedTree :=
  ensureMergedParentFrom tree [] parent

def ensureNoSymlinkFrom (tree : MergedTree) (allowMissingLeaf : Bool) (accum : Path) :
    List Text → Except TarError Unit
  | [] => .ok ()
  | part :: rest =>
    if pathLength (accum ++ [part]) > maxPathBytes then .error .nameTooLong
    else
      match tree.entries.find (accum ++ [part]) with
      | some entry =>
        if entry.kind = .symlink then .error .symlinkTraversal
        else ensureNoSymlinkFrom tree allowMissingLeaf (accum ++ [part]) rest
      | none =>
        if rest = [] ∧ allowMissingLeaf then .ok ()
        else ensureNoSymlinkFrom tree allowMissingLeaf (accum ++ [part]) rest

def ensureNoMergedSymlinkPath (tree : MergedTree) (rel : Path) (allowMissingLeaf : Bool) :
    Except TarError Unit :=
  ensureNoSymlinkFrom tree allowMissingLeaf [] rel

def MergedEntry.normalize (inodeId : ℕ) (owner : Ownership) (attrs : Option (List Attribute))
    (entry : MergedEntry) : MergedEntry :=
  if entry.names inodeId then
    { entry with uid := owner.uid, gid := owner.gid, xattrs := attrs.getD entry.xattrs }
  else entry

def normalizeMergedHardlinkMetadata (tree : MergedTree) (inodeId : ℕ) (owner : Ownership)
    (attrs : Option (List Attribute)) : MergedTree :=
  { tree with entries := tree.entries.mapValues (MergedEntry.normalize inodeId owner attrs) }

-- ══ Putting and removing

structure LayerState where
  tree : MergedTree
  created : List Path

def recordCreatedPath (created : List Path) (rel : Path) : List Path :=
  if rel ∈ created then created else created ++ [rel]

def removeCreatedSubtree (created : List Path) (rel : Path) : List Path :=
  created.filter fun key => !rel.isPrefixOf key

def openMergedPath (tree : MergedTree) (rel : Path) (incoming : IncomingEntryKind) :
    Except TarError MergedTree := do
  ensureNoMergedSymlinkPath tree (parentPath rel) false
  let tree ← ensureMergedParent tree (parentPath rel)
  pure (prepareMergedPath tree rel incoming)

def putMergedDirectory (s : LayerState) (rel : Path) (mode : ℕ) (owner : Ownership) :
    Except TarError LayerState := do
  let tree ← openMergedPath s.tree rel .directory
  pure
    { tree := putMergedEntry tree rel
        { kind := .directory, mode := mode % 0o10000, uid := owner.uid, gid := owner.gid }
      created := recordCreatedPath s.created rel }

def storeSource (tree : MergedTree) (source : FileSource) : MergedTree :=
  { tree with
    nextInodeId := tree.nextInodeId + 1
    fileSources := Function.update tree.fileSources tree.nextInodeId (some source) }

def putMergedFile (s : LayerState) (rel : Path) (source : FileSource) (mode : ℕ)
    (owner : Ownership) (attrs : List Attribute) : Except TarError LayerState := do
  let tree ← openMergedPath s.tree rel .nonDirectory
  pure
    { tree := putMergedEntry (storeSource tree source) rel
        { kind := .file
          mode := mode % 0o10000
          uid := owner.uid
          gid := owner.gid
          inodeId := tree.nextInodeId
          xattrs := attrs }
      created := recordCreatedPath s.created rel }

def putMergedSymlink (s : LayerState) (rel : Path) (rawLink : Text) (owner : Ownership) :
    Except TarError LayerState := do
  validateSymlinkTarget rel rawLink
  let tree ← openMergedPath s.tree rel .nonDirectory
  pure
    { tree := putMergedEntry tree rel
        { kind := .symlink
          mode := 0o777
          uid := owner.uid
          gid := owner.gid
          symlinkTarget := rawLink }
      created := recordCreatedPath s.created rel }

def hardlinkTarget (tree : MergedTree) (linkRel : Path) : Except TarError MergedEntry :=
  match tree.entries.find linkRel with
  | none => .error .badHardlinkTarget
  | some target => if target.kind ≠ .file then .error .badHardlinkTarget else .ok target

def linkEntry (target : MergedEntry) (owner : Ownership) (attrs : List Attribute) :
    MergedEntry where
  kind := .file
  mode := target.mode
  uid := owner.uid
  gid := owner.gid
  inodeId := target.inodeId
  xattrs := if attrs = [] then target.xattrs else attrs

def linkMergedEntry (tree : MergedTree) (rel : Path) (target : MergedEntry) (owner : Ownership)
    (attrs : List Attribute) : MergedTree :=
  normalizeMergedHardlinkMetadata (putMergedEntry tree rel (linkEntry target owner attrs))
    target.inodeId owner (if attrs = [] then none else some attrs)

def putMergedHardlink (s : LayerState) (rel : Path) (rawLink : Text) (owner : Ownership)
    (attrs : List Attribute) : Except TarError LayerState := do
  let linkRel ← safeTarPath rawLink
  rejectIf (rel = linkRel) .badHardlinkTarget
  rejectIf (isMergedDescendant rel linkRel) .badHardlinkTarget
  ensureNoMergedSymlinkPath s.tree linkRel false
  let target ← hardlinkTarget s.tree linkRel
  let tree ← openMergedPath s.tree rel .nonDirectory
  pure
    { tree := linkMergedEntry tree rel target owner attrs
      created := recordCreatedPath s.created rel }

def whiteoutPrefix : Text := ".wh.".toList

def opaqueName : Text := ".wh..wh..opq".toList

def isWhiteoutPath (rel : Path) : Bool := whiteoutPrefix.isPrefixOf (baseName rel)

def whiteoutTarget (rel : Path) : Path :=
  parentPath rel ++ [(baseName rel).drop whiteoutPrefix.length]

def whiteoutCreated (s : LayerState) (target : Path) : LayerState :=
  match s.tree.entries.find target with
  | none => s
  | some entry =>
    if entry.kind = .directory then
      { s with tree := removeMergedLowerChildren s.tree s.created target }
    else s

def applyMergedWhiteout (s : LayerState) (rel : Path) : Except TarError LayerState :=
  if baseName rel = opaqueName then do
    ensureNoMergedSymlinkPath s.tree (parentPath rel) true
    pure { s with tree := removeMergedLowerChildren s.tree s.created (parentPath rel) }
  else do
    let targetBase := (baseName rel).drop whiteoutPrefix.length
    rejectIf (targetBase = []) .badWhiteout
    rejectIf (targetBase = dot ∨ targetBase = dotDot) .badWhiteout
    ensureNoMergedSymlinkPath s.tree (parentPath rel) true
    if createdAtOrBelow s.created (whiteoutTarget rel) then
      pure (whiteoutCreated s (whiteoutTarget rel))
    else
      pure
        { tree := removeMergedSubtree s.tree (whiteoutTarget rel)
          created := removeCreatedSubtree s.created (whiteoutTarget rel) }

inductive TreeOp
  | whiteout (rel : Path)
  | file (rel : Path) (source : FileSource) (mode : ℕ) (owner : Ownership) (attrs : List Attribute)
  | directory (rel : Path) (mode : ℕ) (owner : Ownership)
  | symlink (rel : Path) (rawLink : Text) (owner : Ownership)
  | hardlink (rel : Path) (rawLink : Text) (owner : Ownership) (attrs : List Attribute)

def applyOp (s : LayerState) : TreeOp → Except TarError LayerState
  | .whiteout rel => applyMergedWhiteout s rel
  | .file rel source mode owner attrs => putMergedFile s rel source mode owner attrs
  | .directory rel mode owner => putMergedDirectory s rel mode owner
  | .symlink rel rawLink owner => putMergedSymlink s rel rawLink owner
  | .hardlink rel rawLink owner attrs => putMergedHardlink s rel rawLink owner attrs

-- ══ Records

structure PendingPax where
  path : Option Text := none
  linkpath : Option Text := none
  uid : Option ℕ := none
  gid : Option ℕ := none
  size : Option ℕ := none
  xattrs : List Attribute := []
  deriving DecidableEq

structure TarRecord where
  kind : Char
  size : ℕ
  payloadOffset : ℕ
  /-- `tarFullName`. -/
  name : Text
  /-- `tarLinkName`. -/
  linkName : Text
  /-- `tarMode`. -/
  mode : Except TarError ℕ
  /-- `tarId` of the owner fields. -/
  uid : Except TarError ℕ
  gid : Except TarError ℕ
  /-- `readTarString` of the payload. -/
  text : Except TarError Text
  /-- `parsePaxHeaderBytes` of the payload, on top of a pending header. -/
  pax : PendingPax → Except TarError PendingPax

structure LayerLimits where
  payloadBytes : ℕ := 0
  entries : ℕ := 0
  xattrs : ℕ := 0
  xattrValueBytes : ℕ := 0
  deriving DecidableEq

structure HeaderState where
  limits : LayerLimits := {}
  longName : Option Text := none
  longLink : Option Text := none
  pax : PendingPax := {}
  globalPax : PendingPax := {}

def accountTarEntry (limits : LayerLimits) : Except TarError LayerLimits :=
  if limits.entries ≥ maxArchiveEntries then .error .rootFSArchiveTooManyEntries
  else .ok { limits with entries := limits.entries + 1 }

def accountTarPayloadBytes (limits : LayerLimits) (size : ℕ) : Except TarError LayerLimits :=
  if size > maxContentBytes - limits.payloadBytes then .error .rootFSArchiveTooLarge
  else .ok { limits with payloadBytes := limits.payloadBytes + size }

def accountTarMetadataRecord (limits : LayerLimits) (size : ℕ) : Except TarError LayerLimits := do
  let limits ← accountTarEntry limits
  accountTarPayloadBytes limits size

def addXattrValue (limits : LayerLimits) (attr : Attribute) : Except TarError LayerLimits :=
  if limits.xattrValueBytes > maxLayerValueBytes - attr.value.length then
    .error .rootFSXattrsTooLarge
  else .ok { limits with xattrValueBytes := limits.xattrValueBytes + attr.value.length }

def addXattrBytes (limits : LayerLimits) (attrs : List Attribute) : Except TarError LayerLimits :=
  if attrs = [] then .ok limits
  else if limits.xattrs > maxLayerXattrs - attrs.length then .error .rootFSTooManyXattrs
  else attrs.foldlM addXattrValue { limits with xattrs := limits.xattrs + attrs.length }

def validateGlobalPax (pax : PendingPax) : Except TarError Unit := do
  rejectIf (pax.path ≠ none ∨ pax.linkpath ≠ none ∨ pax.size ≠ none) .unsupportedGlobalPaxRecord
  rejectIf (pax.xattrs ≠ []) .unsupportedTarXattr

def ownerField (pax globalPax : Option ℕ) (header : Except TarError ℕ) : Except TarError ℕ :=
  match pax.or globalPax with
  | some id => .ok id
  | none => header

def tarOwnership (record : TarRecord) (pax globalPax : PendingPax) : Except TarError Ownership := do
  let uid ← ownerField pax.uid globalPax.uid record.uid
  let gid ← ownerField pax.gid globalPax.gid record.gid
  pure { uid, gid }

def HeaderState.reset (h : HeaderState) (limits : LayerLimits) : HeaderState :=
  { h with limits, longName := none, longLink := none, pax := {} }

def putOp (h : HeaderState) (limits : LayerLimits) (layerPath : Text) (record : TarRecord)
    (rel : Path) (owner : Ownership) (payloadSize : ℕ) : Except TarError (LayerLimits × TreeOp) :=
  let rawLink := (h.pax.linkpath.or h.longLink).getD record.linkName
  if record.kind = Char.ofNat 0 ∨ record.kind = '0' then do
    let limits ← accountTarPayloadBytes limits payloadSize
    let limits ← addXattrBytes limits h.pax.xattrs
    let mode ← record.mode
    pure (limits,
      .file rel (.file layerPath record.payloadOffset payloadSize) mode owner h.pax.xattrs)
  else if record.kind = '5' then do
    rejectIf (h.pax.xattrs ≠ []) .unsupportedTarXattr
    let mode ← record.mode
    pure (limits, .directory rel mode owner)
  else if record.kind = '2' then do
    rejectIf (h.pax.xattrs ≠ []) .unsupportedTarXattr
    pure (limits, .symlink rel rawLink owner)
  else if record.kind = '1' then do
    let limits ← addXattrBytes limits h.pax.xattrs
    pure (limits, .hardlink rel rawLink owner h.pax.xattrs)
  else do
    rejectIf (h.pax.xattrs ≠ []) .unsupportedTarXattr
    .error .unsupportedTarEntryType

def pathOp (h : HeaderState) (limits : LayerLimits) (layerPath : Text) (record : TarRecord)
    (rel : Path) (payloadSize : ℕ) : Except TarError (LayerLimits × TreeOp) := do
  let owner ← tarOwnership record h.pax h.globalPax
  if isWhiteoutPath rel then do
    rejectIf (h.pax.xattrs ≠ []) .unsupportedTarXattr
    pure (limits, .whiteout rel)
  else putOp h limits layerPath record rel owner payloadSize

def entryOp (h : HeaderState) (layerPath : Text) (record : TarRecord) :
    Except TarError (HeaderState × Option TreeOp) := do
  let limits ← accountTarEntry h.limits
  let rawName := (h.pax.path.or h.longName).getD record.name
  let payloadSize := h.pax.size.getD record.size
  rejectIf (payloadSize > maxContentBytes) .rootFSArchiveTooLarge
  match safeTarPath rawName with
  | .error .rootTarPath =>
    if record.kind ≠ '5' then .error .unsafeTarPath else .ok (h.reset limits, none)
  | .error e => .error e
  | .ok rel => do
    let op ← pathOp h limits layerPath record rel payloadSize
    pure (h.reset op.1, some op.2)

def readRecord (h : HeaderState) (layerPath : Text) (record : TarRecord) :
    Except TarError (HeaderState × Option TreeOp) :=
  if record.kind = 'L' then do
    let limits ← accountTarMetadataRecord h.limits record.size
    let text ← record.text
    pure ({ h with limits, longName := some text }, none)
  else if record.kind = 'K' then do
    let limits ← accountTarMetadataRecord h.limits record.size
    let text ← record.text
    pure ({ h with limits, longLink := some text }, none)
  else if record.kind = 'x' then do
    let limits ← accountTarMetadataRecord h.limits record.size
    let pax ← record.pax {}
    pure ({ h with limits, pax }, none)
  else if record.kind = 'g' then do
    let limits ← accountTarMetadataRecord h.limits record.size
    let globalPax ← record.pax h.globalPax
    validateGlobalPax globalPax
    pure ({ h with limits, globalPax }, none)
  else entryOp h layerPath record

def applyOptionalOp (s : LayerState) : Option TreeOp → Except TarError LayerState
  | none => .ok s
  | some op => applyOp s op

def applyRecords (layerPath : Text) : HeaderState → LayerState → List TarRecord →
    Except TarError LayerState
  | _, s, [] => .ok s
  | h, s, record :: records => do
    let next ← readRecord h layerPath record
    let s ← applyOptionalOp s next.2
    applyRecords layerPath next.1 s records

structure Layer where
  path : Text
  records : List TarRecord

def applyTarRecordsToMergedTree (tree : MergedTree) (layer : Layer) :
    Except TarError MergedTree := do
  let s ← applyRecords layer.path {} { tree, created := [] } layer.records
  pure s.tree

end SporeVM.Tar
