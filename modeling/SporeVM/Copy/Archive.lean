import SporeVM.Lib.EState
import SporeVM.Lib.LittleEndian
import SporeVM.Lib.FileTree

/-!
# Transfer archives

The archive of `named_copy_archive.zig` carries a file, or a tree of files and directories, between
the host and a guest. After eight bytes of magic comes a sequence of records: a header of sixteen
bytes, a path relative to the root of the tree, and for a file its bytes. The first record is the
root itself, with an empty path, and the last one is an end mark.
-/

namespace SporeVM.NamedCopyArchive

open Lib Lib.PathText Lib.Check

abbrev Text := Lib.PathText.Text

abbrev Bytes := List UInt8

inductive Kind
  | file | directory | endMark
  deriving DecidableEq

inductive ArchiveError
  | badCopyArchive | badCopyArchivePath | readFailed | openFailed | createDirFailed
  /-- An error of the host that is passed on. -/
  | host (e : PathError)
  deriving DecidableEq

def pathText (bytes : Bytes) : Text := bytes.map fun b => Char.ofNat b.toNat

structure Record where
  kind : Kind
  path : Text
  mode : ℕ
  size : ℕ
  deriving DecidableEq

def magic : Bytes := [0x53, 0x50, 0x43, 0x50, 0x31, 0x0a, 0x00, 0x0a]

def recordHeaderLen : ℕ := 16

def maxPath : ℕ := 512

def validatePath (path : Text) (allowRoot : Bool) : Except ArchiveError Unit :=
  if path = [] then
    if allowRoot then .ok () else .error .badCopyArchivePath
  else do
    rejectIf (path.length > maxPath ∨ path.head? = some sep ∨ path.getLast? = some sep)
      .badCopyArchivePath
    rejectIf (∃ part ∈ components path,
      part = [] ∨ part = dot ∨ part = dotDot ∨ FileTree.nul ∈ part) .badCopyArchivePath

-- ══ Reading

/-- What is read from: the bytes that come, and whether reading fails after them. -/
structure Stream where
  bytes : Bytes
  breaks : Bool

namespace Stream

def drop (input : Stream) (n : ℕ) : Stream := { input with bytes := input.bytes.drop n }

def shortage (input : Stream) : ArchiveError :=
  if input.breaks then .readFailed else .badCopyArchive

end Stream

def readExact (input : Stream) (n : ℕ) : Except ArchiveError (Bytes × Stream) :=
  if input.bytes.length < n then .error input.shortage
  else .ok (input.bytes.take n, input.drop n)

def expectEof (input : Stream) : Except ArchiveError Unit :=
  if input.bytes ≠ [] then .error .badCopyArchive
  else if input.breaks then .error .readFailed
  else .ok ()

def kindCode : Kind → UInt8
  | .file => 0x46
  | .directory => 0x44
  | .endMark => 0x45

def kindOfCode (code : UInt8) : Except ArchiveError Kind :=
  if code = kindCode .file then .ok .file
  else if code = kindCode .directory then .ok .directory
  else if code = kindCode .endMark then .ok .endMark
  else .error .badCopyArchive

def checkRecord (record : Record) : Except ArchiveError Unit :=
  match record.kind with
  | .endMark => rejectIf (record.path ≠ [] ∨ record.mode ≠ 0 ∨ record.size ≠ 0) .badCopyArchive
  | .file => validatePath record.path true
  | .directory => do
    validatePath record.path true
    rejectIf (record.size ≠ 0) .badCopyArchive

def readRecord (input : Stream) : Except ArchiveError (Record × Stream) := do
  let (header, input) ← readExact input recordHeaderLen
  let kind ← kindOfCode (header.headD 0)
  let pathLen := ofLittleEndian (bytesAt header 1 2)
  let mode := ofLittleEndian (bytesAt header 3 4)
  let size := ofLittleEndian (bytesAt header 7 8)
  rejectIf (header.getD 15 0 ≠ 0 ∨ pathLen > maxPath ∨ mode / 0o1000 ≠ 0) .badCopyArchive
  let (path, input) ← readExact input pathLen
  let record : Record := { kind, path := pathText path, mode, size }
  checkRecord record
  pure (record, input)

def readMagic (input : Stream) : Except ArchiveError Stream := do
  let (header, input) ← readExact input magic.length
  rejectIf (header ≠ magic) .badCopyArchive
  pure input

variable {input rest : Stream}

-- ══ What is accepted

/-- The parts of an accepted path are names that a call takes as they are. -/
theorem plain_of_validatePath {path part : Text} (h : validatePath path true = .ok ())
    (hpath : path ≠ []) (hpart : part ∈ components path) : Plain (FileTree.cString part) := by
  rw [validatePath, if_neg hpath] at h
  obtain ⟨-, -, h⟩ := bind_ok.mp h
  have hall := rejectIf_ok.mp h
  push Not at hall
  obtain ⟨hnil, hdot, hup, hnul⟩ := hall part hpart
  have hseen : FileTree.cString part = part := by
    refine List.takeWhile_eq_self_iff.mpr fun c hc => ?_
    have hne : c ≠ FileTree.nul := fun hzero => hnul (hzero ▸ hc)
    simpa using hne
  rw [hseen]
  exact ⟨hnil, no_sep_of_mem_components hpart, hdot, hup⟩

lemma validatePath_of_readRecord {record : Record} (h : readRecord input = .ok (record, rest))
    (hkind : record.kind ≠ .endMark) : validatePath record.path true = .ok () := by
  obtain ⟨⟨header, input₁⟩, -, h⟩ := bind_ok.mp h
  obtain ⟨kind, -, h⟩ := bind_ok.mp h
  obtain ⟨-, -, h⟩ := bind_ok.mp h
  obtain ⟨⟨path, input₂⟩, -, h⟩ := bind_ok.mp h
  obtain ⟨u, hcheck, h⟩ := bind_ok.mp h
  cases h
  cases kind with
  | file => exact hcheck
  | directory => exact (bind_ok.mp hcheck).choose_spec.1
  | endMark => exact absurd rfl hkind

-- ══ What is left of the stream

lemma readExact_ok {n : ℕ} {bytes : Bytes} : readExact input n = .ok (bytes, rest) ↔
      n ≤ input.bytes.length ∧ bytes = input.bytes.take n ∧ rest = input.drop n := by
  unfold readExact
  split
  · next h =>
    simp only [reduceCtorEq, false_iff, not_and]
    omega
  · next h =>
    simp only [Except.ok.injEq, Prod.mk.injEq]
    constructor
    · rintro ⟨rfl, rfl⟩
      exact ⟨by omega, rfl, rfl⟩
    · rintro ⟨-, rfl, rfl⟩
      exact ⟨rfl, rfl⟩

lemma readRecord_shorter {record : Record}
    (h : readRecord input = .ok (record, rest)) : rest.bytes.length < input.bytes.length := by
  obtain ⟨⟨header, input₁⟩, hheader, h⟩ := bind_ok.mp h
  obtain ⟨kind, -, h⟩ := bind_ok.mp h
  obtain ⟨-, -, h⟩ := bind_ok.mp h
  obtain ⟨⟨path, input₂⟩, hpath, h⟩ := bind_ok.mp h
  obtain ⟨-, -, h⟩ := bind_ok.mp h
  cases h
  obtain ⟨hlen, -, rfl⟩ := readExact_ok.mp hheader
  obtain ⟨-, -, rfl⟩ := readExact_ok.mp hpath
  simp only [Stream.drop, List.length_drop]
  have : recordHeaderLen = 16 := rfl
  omega

lemma readRecord_drop_shorter {record : Record}
    (h : readRecord input = .ok (record, rest)) (n : ℕ) :
    (rest.drop n).bytes.length < input.bytes.length := by
  have hshorter := readRecord_shorter h
  simp only [Stream.drop, List.length_drop]
  omega

end SporeVM.NamedCopyArchive
