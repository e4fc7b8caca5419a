import SporeVM.Disk.Histories
import SporeVM.Virtio.Queue

/-!
# The virtio block device

`virtio/blk.zig`: requests over a host file, a chunk-mapped disk or memory. Framing, sectors and
lengths are the guest's, and its segments may overlap.

The number that a request returns comes with a verdict that names the return of the source: the
request was rejected before the back end was asked for anything, its prefault failed, the back end
failed, or it succeeded. Counters, log lines and the failure points of unit tests are left out.

A read that fails leaves some of its bytes in the guest's buffer. For a file that is what came
before the failure; for a chunk-mapped disk it is whatever `residues` says. -/

namespace SporeVM.Virtio.Blk

open Lib (SparseFile ofLittleEndian)
open Lib.EState (outcome)

def sectorSize : ℕ := 512

def maxU32 : ℕ := 2 ^ 32 - 1

def reqIn : ℕ := 0

def reqOut : ℕ := 1

def reqFlush : ℕ := 4

def reqGetId : ℕ := 8

def reqWriteZeroes : ℕ := 13

def featureWriteZeroes : ℕ := 14

def maxWriteZeroesSectors : ℕ := 4 * 1024 * 1024 / sectorSize

def statusOk : UInt8 := 0

def statusIoerr : UInt8 := 1

def statusUnsupp : UInt8 := 2

-- ══ Back ends

structure HostFile where
  content : SparseFile
  writable : Bool
  faults : List (Option ℕ) := []

namespace HostFile

def next (f : HostFile) : Option ℕ × HostFile :=
  match f.faults with
  | [] => (none, f)
  | fault :: faults => (fault, { f with faults })

def read (f : HostFile) (len offset : ℕ) : Except (List UInt8) (List UInt8) × HostFile :=
  if len = 0 then (.ok [], f)
  else
    match f.next with
    | (none, f) =>
      if offset + len ≤ f.content.size then (.ok (Lib.slice f.content.byte offset len), f)
      else (.error (Lib.slice f.content.byte offset (f.content.size - offset)), f)
    | (some n, f) => (.error (Lib.slice f.content.byte offset (min n (f.content.size - offset))), f)

def write (f : HostFile) (data : List UInt8) (offset : ℕ) : Bool × HostFile :=
  if data = [] then (true, f)
  else if f.writable = false then (false, f)
  else
    match f.next with
    | (none, f) => (true, { f with content := f.content.pwrite offset data })
    | (some n, f) => (false, { f with content := f.content.pwrite offset (data.take n) })

end HostFile

inductive Backend (Id : Type)
  | file (file : HostFile)
  | chunkMapped (disk : DiskState Id) (residues : List (List UInt8))
  | memory (bytes : List UInt8)

def poison {Id : Type} (s : DiskState Id) : DiskState Id :=
  { s with disk := { s.disk with poisoned := true } }

namespace Backend

variable {Id : Type}

def canZeroRange : Backend Id → Bool
  | file _ => false
  | chunkMapped s _ => s.disk.overlay.isSome
  | memory _ => true

def poisonValidatedMutationFailure : Backend Id → Backend Id
  | chunkMapped s residues => chunkMapped (poison s) residues
  | file f => file f
  | memory bytes => memory bytes

def flush : Backend Id → Bool × Backend Id
  | file f => (f.next.1.isNone, file f.next.2)
  | chunkMapped s residues =>
    if s.disk.overlay.isNone then (true, chunkMapped s residues)
    else
      (s.host.faults.headD none |>.isNone,
        chunkMapped { s with host := { s.host with faults := s.host.faults.tail } } residues)
  | memory bytes => (true, memory bytes)

variable [DecidableEq Id] (hash : List UInt8 → Id)

def prefaultCasRange (len offset : ℕ) : Backend Id → Bool × Backend Id
  | chunkMapped s residues =>
    ((outcome (SporeVM.prefaultCasRange hash len offset) s).1.isOk,
      chunkMapped (outcome (SporeVM.prefaultCasRange hash len offset) s).2 residues)
  | file f => (true, file f)
  | memory bytes => (true, memory bytes)

def readAt (len offset : ℕ) : Backend Id → Except (List UInt8) (List UInt8) × Backend Id
  | file f => ((f.read len offset).1, file (f.read len offset).2)
  | chunkMapped s residues =>
    match outcome (SporeVM.readAt hash len offset) s with
    | (.ok data, s) => (.ok data, chunkMapped s residues)
    | (.error _, s) => (.error (residues.headD []), chunkMapped s residues.tail)
  | memory bytes =>
    if offset + len > bytes.length then (.error [], memory bytes)
    else (.ok ((bytes.drop offset).take len), memory bytes)

def writeAt (data : List UInt8) (offset : ℕ) : Backend Id → Bool × Backend Id
  | file f => ((f.write data offset).1, file (f.write data offset).2)
  | chunkMapped s residues =>
    ((outcome (SporeVM.writeAt hash data offset) s).1.isOk,
      chunkMapped (outcome (SporeVM.writeAt hash data offset) s).2 residues)
  | memory bytes =>
    if offset + data.length > bytes.length then (false, memory bytes)
    else (true, memory (bytes.take offset ++ data ++ bytes.drop (offset + data.length)))

/-- A failed zeroing of a chunk-mapped disk may follow a partial write, so it poisons the disk. -/
def zeroRange (offset len : ℕ) : Backend Id → Bool × Backend Id
  | file f => (false, file f)
  | chunkMapped s residues =>
    match outcome (SporeVM.zeroRange hash offset len) s with
    | (.ok _, s) => (true, chunkMapped s residues)
    | (.error _, s) => (false, chunkMapped (poison s) residues)
  | memory bytes =>
    if offset + len > maxU64 then (false, memory bytes)
    else if offset + len > bytes.length then (false, memory bytes)
    else
      (true, memory (bytes.take offset ++ List.replicate len 0 ++ bytes.drop (offset + len)))

end Backend

-- ══ Requests

structure Options where
  readOnly : Bool := false
  writeZeroes : Bool := false
  forceWriteZeroesUnsupported : Bool := false
  forceWriteZeroesBackendFailure : Bool := false

/-- The capacity is that of the back end when the device was made. With a worker, whose kicks are
counted, a notification leaves the requests to it. -/
structure Blk (Id : Type) where
  backend : Backend Id
  capacitySectors : ℕ
  options : Options := {}
  acceptedFeatures : ℕ := 0
  worker : Option ℕ := none
  capacity_le : capacitySectors * sectorSize ≤ maxU64

inductive Verdict
  | rejected | prefaultFailed | backendFailed | succeeded
  deriving DecidableEq

structure Reply where
  written : ℕ
  verdict : Verdict
  deriving DecidableEq

def failStatus (status : Queue.Segment) (ram : GuestRam) : ℕ × GuestRam :=
  if status.writable = true ∧ status.len ≥ 1 then (1, ram.store status.addr [statusIoerr])
  else (0, ram)

def unsupportedStatus (status : Queue.Segment) (ram : GuestRam) : ℕ × GuestRam :=
  if status.writable = true ∧ status.len ≥ 1 then (1, ram.store status.addr [statusUnsupp])
  else (0, ram)

def okStatus (status : Queue.Segment) (moved : ℕ) (ram : GuestRam) : ℕ × GuestRam :=
  if moved + 1 > maxU32 then failStatus status ram
  else (moved + 1, ram.store status.addr [statusOk])

/-- The loop that checks the data segments before anything is moved: where the request ends, and how
many bytes it moves to the guest. -/
def validateData (wantWritable : Bool) (capacityBytes : ℕ) :
    List Queue.Segment → ℕ → ℕ → Option (ℕ × ℕ)
  | [], offset, moved => some (offset, moved)
  | seg :: rest, offset, moved =>
    if seg.writable ≠ wantWritable then none
    else if seg.len % sectorSize ≠ 0 then none
    else if offset + seg.len > maxU64 then none
    else if offset + seg.len > capacityBytes then none
    else if wantWritable then
      if seg.len > maxU32 then none
      else if seg.len > maxU32 - 1 - moved then none
      else validateData wantWritable capacityBytes rest (offset + seg.len) (moved + seg.len)
    else validateData wantWritable capacityBytes rest (offset + seg.len) moved

section Requests

variable {Id : Type} [DecidableEq Id] (hash : List UInt8 → Id)

abbrev Answer (Id : Type) := Reply × Blk Id × GuestRam

def answer (verdict : Verdict) (blk : Blk Id) (status : ℕ × GuestRam) : Answer Id :=
  (⟨status.1, verdict⟩, blk, status.2)

def readSegments : List Queue.Segment → ℕ → Backend Id → GuestRam → Bool × Backend Id × GuestRam
  | [], _, backend, ram => (true, backend, ram)
  | seg :: rest, offset, backend, ram =>
    match backend.readAt hash seg.len offset with
    | (.ok data, backend) =>
      readSegments rest (offset + seg.len) backend (ram.store seg.addr data)
    | (.error residue, backend) => (false, backend, ram.store seg.addr (residue.take seg.len))

def writeSegments (ram : GuestRam) : List Queue.Segment → ℕ → Backend Id → Bool × Backend Id
  | [], _, backend => (true, backend)
  | seg :: rest, offset, backend =>
    match backend.writeAt hash (ram.bytesAt seg.addr seg.len) offset with
    | (true, backend) => writeSegments ram rest (offset + seg.len) backend
    | (false, backend) => (false, backend)

def handleIn (blk : Blk Id) (sector : ℕ) (data : List Queue.Segment) (status : Queue.Segment)
    (ram : GuestRam) : Answer Id :=
  if sector * sectorSize > maxU64 then answer .rejected blk (failStatus status ram)
  else
    match validateData true (blk.capacitySectors * sectorSize) data (sector * sectorSize) 0 with
    | none => answer .rejected blk (failStatus status ram)
    | some (stop, moved) =>
      match blk.backend.prefaultCasRange hash (stop - sector * sectorSize)
          (sector * sectorSize) with
      | (false, backend) => answer .prefaultFailed { blk with backend } (failStatus status ram)
      | (true, backend) =>
        match readSegments hash data (sector * sectorSize) backend ram with
        | (true, backend, ram) => answer .succeeded { blk with backend } (okStatus status moved ram)
        | (false, backend, ram) => answer .backendFailed { blk with backend }
          (failStatus status ram)

def handleOut (blk : Blk Id) (sector : ℕ) (data : List Queue.Segment) (status : Queue.Segment)
    (ram : GuestRam) : Answer Id :=
  if blk.options.readOnly then answer .rejected blk (failStatus status ram)
  else if sector * sectorSize > maxU64 then answer .rejected blk (failStatus status ram)
  else
    match validateData false (blk.capacitySectors * sectorSize) data (sector * sectorSize) 0 with
    | none => answer .rejected blk (failStatus status ram)
    | some (_, moved) =>
      match writeSegments hash ram data (sector * sectorSize) blk.backend with
      | (true, backend) => answer .succeeded { blk with backend } (okStatus status moved ram)
      | (false, backend) =>
        answer .backendFailed { blk with backend := backend.poisonValidatedMutationFailure }
          (failStatus status ram)

def zeroesRange (range : Queue.Segment) (ram : GuestRam) : ℕ × ℕ × ℕ :=
  (ofLittleEndian (ram.bytesAt range.addr 8), ofLittleEndian (ram.bytesAt (range.addr + 8) 4),
    ofLittleEndian (ram.bytesAt (range.addr + 12) 4))

def zeroSectors (blk : Blk Id) (rangeSector numSectors flags : ℕ) (status : Queue.Segment)
    (ram : GuestRam) : Answer Id :=
  if numSectors = 0 ∨ numSectors > maxWriteZeroesSectors then
    answer .rejected blk (failStatus status ram)
  else if flags > 1 then answer .rejected blk (failStatus status ram)
  else if rangeSector * sectorSize > maxU64 ∨ numSectors * sectorSize > maxU64 then
    answer .rejected blk (failStatus status ram)
  else if rangeSector * sectorSize + numSectors * sectorSize > maxU64 ∨
      blk.capacitySectors * sectorSize > maxU64 then
    answer .rejected blk (failStatus status ram)
  else if rangeSector * sectorSize + numSectors * sectorSize > blk.capacitySectors * sectorSize ∨
      blk.backend.canZeroRange = false then
    answer .rejected blk (failStatus status ram)
  else if blk.options.forceWriteZeroesUnsupported then
    answer .rejected blk (unsupportedStatus status ram)
  else if blk.options.forceWriteZeroesBackendFailure then
    answer .backendFailed { blk with backend := blk.backend.poisonValidatedMutationFailure }
      (failStatus status ram)
  else
    match blk.backend.zeroRange hash (rangeSector * sectorSize) (numSectors * sectorSize) with
    | (false, backend) => answer .backendFailed { blk with backend } (failStatus status ram)
    | (true, backend) =>
      answer .succeeded { blk with backend } (1, ram.store status.addr [statusOk])

def handleWriteZeroes (blk : Blk Id) (header : Queue.Segment) (data : List Queue.Segment)
    (status : Queue.Segment)
    (ram : GuestRam) : Answer Id :=
  if blk.options.writeZeroes = false ∨ blk.acceptedFeatures.testBit featureWriteZeroes = false then
    answer .rejected blk (unsupportedStatus status ram)
  else
    match data with
    | [range] =>
      if header.len ≠ 16 ∨ status.len ≠ 1 then answer .rejected blk (failStatus status ram)
      else if ofLittleEndian (ram.bytesAt (header.addr + 8) 8) ≠ 0 then
        answer .rejected blk (failStatus status ram)
      else if range.writable = true ∨ range.len ≠ 16 then
        answer .rejected blk (failStatus status ram)
      else
        zeroSectors hash blk (zeroesRange range ram).1 (zeroesRange range ram).2.1
          (zeroesRange range ram).2.2 status ram
    | _ => answer .rejected blk (failStatus status ram)

def deviceIdText : List UInt8 := "sporevm-blk0".toUTF8.toList

/-- The loop of a request for the device's name; how many bytes it has moved, if all segments are
right. -/
def getIdSegments : List Queue.Segment → ℕ → GuestRam → Option ℕ × GuestRam
  | [], moved, ram => (some moved, ram)
  | seg :: rest, moved, ram =>
    if seg.writable = false then (none, ram)
    else if seg.len > maxU32 then (none, ram)
    else if seg.len > maxU32 - 1 - moved then (none, ram)
    else
      getIdSegments rest (moved + seg.len)
        ((ram.store seg.addr (List.replicate seg.len 0)).store seg.addr
          (deviceIdText.take (min seg.len deviceIdText.length)))

def handleGetId (blk : Blk Id) (data : List Queue.Segment) (status : Queue.Segment)
    (ram : GuestRam) :
    Answer Id :=
  match getIdSegments data 0 ram with
  | (none, ram) => answer .rejected blk (failStatus status ram)
  | (some moved, ram) => answer .succeeded blk (okStatus status moved ram)

def handleFlush (blk : Blk Id) (status : Queue.Segment) (ram : GuestRam) : Answer Id :=
  match blk.backend.flush with
  | (false, backend) => answer .backendFailed { blk with backend } (failStatus status ram)
  | (true, backend) => answer .succeeded { blk with backend } (1, ram.store status.addr [statusOk])

def requestType (header : Queue.Segment) (ram : GuestRam) : ℕ :=
  ofLittleEndian (ram.bytesAt header.addr 4)

def requestSector (header : Queue.Segment) (ram : GuestRam) : ℕ :=
  ofLittleEndian (ram.bytesAt (header.addr + 8) 8)

def dispatch (blk : Blk Id) (header : Queue.Segment) (data : List Queue.Segment)
    (status : Queue.Segment)
    (ram : GuestRam) : Answer Id :=
  if requestType header ram = reqIn then
    handleIn hash blk (requestSector header ram) data status ram
  else if requestType header ram = reqOut then
    handleOut hash blk (requestSector header ram) data status ram
  else if requestType header ram = reqFlush then handleFlush blk status ram
  else if requestType header ram = reqGetId then handleGetId blk data status ram
  else if requestType header ram = reqWriteZeroes then
    handleWriteZeroes hash blk header data status ram
  else answer .rejected blk (1, ram.store status.addr [statusUnsupp])

/-- A readable header first and a writable status last. Without that the status is still set if
there is one. -/
def handleRequest (segs : List Queue.Segment) (blk : Blk Id) (ram : GuestRam) : Answer Id :=
  match segs with
  | [] => (⟨0, .rejected⟩, blk, ram)
  | [_] => (⟨0, .rejected⟩, blk, ram)
  | header :: second :: rest =>
    let status := (second :: rest).getLast (List.cons_ne_nil _ _)
    if header.writable = true ∨ header.len < 16 then answer .rejected blk (failStatus status ram)
    else if status.writable = false ∨ status.len < 1 then (⟨0, .rejected⟩, blk, ram)
    else dispatch hash blk header (second :: rest).dropLast status ram

def handler : Queue.Handler (Blk Id) := fun chain blk ram =>
  let (reply, blk, ram) := handleRequest hash chain.segments blk ram
  (reply.written, blk, ram)

def notify (qi : ℕ) : Queue.DeviceM (Blk Id) Bool := do
  let m ← get
  if qi ≠ 0 then pure false
  else
    match m.device.worker with
    | some kicks => do
      set { m with device := { m.device with worker := some ((kicks + 1) % 2 ^ 32) } }
      pure false
    | none => Queue.serve 0 (handler hash) Queue.maxNotifyChains false

end Requests

end SporeVM.Virtio.Blk
