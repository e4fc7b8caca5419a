import Mathlib.Data.List.Basic
import Mathlib.Tactic.NormNum
import SporeVM.Lib.EState

/-!
# Records of a tar stream

Every reader of an archive walks its records. It may read the payload of a record or leave it, and
a pax record may have replaced its size. The contents of files are later read by their offset in
the stream, so the framing must not depend on what was read before.

Offsets are numbers of sixty-four bits, and an addition that does not fit traps.
-/

namespace SporeVM.TarRecords

open Lib
open Lib.Check (rejectIf)
open List

abbrev Bytes := List UInt8

inductive TarError
  | endOfStream
  | truncatedTarHeader
  | badTarHeader
  | badTarChecksum
  | rootFSArchiveTooLarge
  | tarHeaderTooLarge
  /-- A trap of the arithmetic. -/
  | overflow
  deriving DecidableEq

-- ══ Numbers in a header

def base256 : Bytes → ℕ → ℕ → Except TarError ℕ
  | [], value, _ => .ok value
  | byte :: rest, value, significant =>
    if significant = 0 ∧ byte = 0 then base256 rest value significant
    else if 8 < significant + 1 then .error .badTarHeader
    else base256 rest (value * 256 % 2 ^ 64 + byte.toNat) (significant + 1)

def plus : UInt8 := 0x2b

def minus : UInt8 := 0x2d

def underscore : UInt8 := 0x5f

def octalDigit (c : UInt8) : Bool := 0x30 ≤ c ∧ c ≤ 0x37

/-- `std.fmt.parseInt` in base eight, for a number of sixty-four bits. Behind a minus sign only
zero fits. -/
def parseOctal (text : Bytes) : Option ℕ :=
  let digits := if text.head? = some plus ∨ text.head? = some minus then text.tail else text
  if digits = [] ∨ digits.head? = some underscore ∨ digits.getLast? = some underscore ∨
      ¬ digits.all (fun c => octalDigit c || c == underscore) then none
  else
    let value := (digits.filter octalDigit).foldl (fun n c => 8 * n + (c.toNat - 0x30)) 0
    if 2 ^ 64 ≤ value ∨ text.head? = some minus ∧ value ≠ 0 then none else some value

def trimField (raw : Bytes) : Bytes :=
  let blank : UInt8 → Bool := fun c => c = 0x20 ∨ c = 0
  ((raw.dropWhile blank).reverse.dropWhile blank).reverse

def parseTarNumber : Bytes → Except TarError ℕ
  | [] => .error .badTarHeader
  | first :: rest =>
    if first &&& 0x80 ≠ 0 then base256 ((first &&& 0x7f) :: rest) 0 0
    else
      let trimmed := trimField (first :: rest)
      if trimmed = [] then .ok 0
      else (parseOctal trimmed).elim (.error .badTarHeader) .ok

def field (header : Bytes) (first last : ℕ) : Bytes := (header.drop first).take (last - first)

def tarSize (header : Bytes) : Except TarError ℕ := parseTarNumber (field header 124 136)

def checksumBytes (header : Bytes) : Bytes :=
  header.take 148 ++ replicate 8 0x20 ++ header.drop 156

def signed (b : UInt8) : ℤ := if b.toNat < 128 then b.toNat else (b.toNat : ℤ) - 256

def verifyTarHeader (header : Bytes) : Except TarError Unit := do
  let stored ← parseTarNumber (field header 148 156)
  if stored = ((checksumBytes header).map UInt8.toNat).sum then pure ()
  else do
    -- the conversion to a signed number traps
    rejectIf (2 ^ 63 ≤ stored) .overflow
    rejectIf ((stored : ℤ) ≠ ((checksumBytes header).map signed).sum) .badTarChecksum

def isZeroBlock (block : Bytes) : Bool := block.all (· == 0)

lemma base256_lt {bytes : Bytes} {value significant result : ℕ}
    (h : base256 bytes value significant = .ok result) :
    result < (value + 1) * 256 ^ bytes.length := by
  induction bytes generalizing value significant with
  | nil =>
    cases h
    simp
  | cons byte rest ih =>
    rw [length_cons, pow_succ']
    rw [base256] at h
    split at h
    · refine (ih h).trans_le (Nat.mul_le_mul_left _ ?_)
      exact Nat.le_mul_of_pos_left _ (by decide)
    · split at h
      · cases h
      · have hbyte := byte.toNat_lt
        rw [← Nat.mul_assoc]
        exact (ih h).trans_le (Nat.mul_le_mul_right _ (by omega))

lemma octal_lt (digits : Bytes) (hdigits : ∀ c ∈ digits, octalDigit c = true) (n : ℕ) :
    digits.foldl (fun n c => 8 * n + (c.toNat - 0x30)) n < (n + 1) * 8 ^ digits.length := by
  induction digits generalizing n with
  | nil => simp
  | cons c digits ih =>
    obtain ⟨hc, hdigits⟩ := forall_mem_cons.mp hdigits
    have hvalue : c.toNat ≤ 0x37 := UInt8.le_iff_toNat_le.mp (of_decide_eq_true hc).2
    rw [foldl_cons, length_cons, pow_succ', ← Nat.mul_assoc]
    exact (ih hdigits _).trans_le (Nat.mul_le_mul_right _ (by omega))

lemma parseOctal_lt {text : Bytes} {value : ℕ} (h : parseOctal text = some value) :
    value < 8 ^ text.length := by
  simp only [parseOctal, Option.ite_none_left_eq_some, Option.some.injEq] at h
  obtain ⟨-, -, rfl⟩ := h
  refine (octal_lt _ (fun c hc => (mem_filter.mp hc).2) 0).trans_le ?_
  rw [Nat.zero_add, Nat.one_mul]
  refine Nat.pow_le_pow_right (by decide) ((length_filter_le _ _).trans ?_)
  split
  · exact length_tail ▸ Nat.sub_le _ _
  · exact le_rfl

lemma trimField_length (raw : Bytes) : (trimField raw).length ≤ raw.length := by
  unfold trimField
  rw [length_reverse]
  refine (dropWhile_sublist _).length_le.trans ?_
  rw [length_reverse]
  exact (dropWhile_sublist _).length_le

lemma parseTarNumber_lt {raw : Bytes} {value : ℕ} (hlength : raw.length ≤ 8)
    (h : parseTarNumber raw = .ok value) : value < 2 ^ 63 := by
  cases raw with
  | nil => cases h
  | cons first rest =>
    rw [length_cons] at hlength
    rw [parseTarNumber] at h
    split at h
    · have hrest : 256 ^ rest.length ≤ 256 ^ 7 := Nat.pow_le_pow_right (by decide) (by omega)
      have hfirst : (first &&& 0x7f).toNat ≤ 127 := by
        rw [UInt8.toNat_and]
        exact Nat.and_le_right
      rw [base256] at h
      split at h
      · have hlt := base256_lt h
        omega
      · have hlt := base256_lt h
        rw [Nat.zero_mul, Nat.zero_mod, Nat.zero_add] at hlt
        calc value < ((first &&& 0x7f).toNat + 1) * 256 ^ rest.length := hlt
          _ ≤ 128 * 256 ^ 7 := Nat.mul_le_mul (by omega) hrest
          _ = 2 ^ 63 := by norm_num
    · dsimp only at h
      split at h
      · cases h
        norm_num
      · cases hoctal : parseOctal (trimField (first :: rest)) with
        | none =>
          rw [hoctal] at h
          cases h
        | some number =>
          rw [hoctal] at h
          cases h
          have htrim := trimField_length (first :: rest)
          rw [length_cons] at htrim
          calc value < 8 ^ (trimField (first :: rest)).length := parseOctal_lt hoctal
            _ ≤ 8 ^ 8 := Nat.pow_le_pow_right (by decide) (by omega)
            _ ≤ 2 ^ 63 := by norm_num

lemma base256_raises (bytes : Bytes) (value significant : ℕ) :
    Check.Raises (· ≠ .overflow) (base256 bytes value significant) := by
  induction bytes generalizing value significant with
  | nil => exact .ok _
  | cons byte rest ih =>
    exact .ite (fun _ => ih _ _) fun _ => .ite (fun _ => .error (by decide)) fun _ => ih _ _

lemma parseTarNumber_raises (raw : Bytes) : Check.Raises (· ≠ .overflow) (parseTarNumber raw) := by
  cases raw with
  | nil => exact .error (by decide)
  | cons first rest =>
    refine .ite (fun _ => base256_raises _ _ _) fun _ => .ite (fun _ => .ok _) fun _ => ?_
    cases parseOctal (trimField (first :: rest)) with
    | none => exact .error (by decide)
    | some value => exact .ok _

lemma verifyTarHeader_raises (header : Bytes) :
    Check.Raises (· ≠ .overflow) (verifyTarHeader header) := by
  refine (parseTarNumber_raises _).bind fun stored hstored => ?_
  have hfits : stored < 2 ^ 63 := by
    refine parseTarNumber_lt ?_ hstored
    rw [field, length_take]
    exact Nat.min_le_left _ _
  refine .ite (fun _ => .ok ()) fun _ => ?_
  rw [Check.rejectIf_bind, if_neg (Nat.not_le.mpr hfits)]
  exact .rejectIf (by decide)

-- ══ The iterator

def maxContentBytes : ℕ := 32 * 2 ^ 30

structure Record where
  header : Bytes
  /-- The size of the payload by the header. -/
  size : ℕ
  /-- The offset in the stream of the first byte of the payload. -/
  payloadOffset : ℕ
  deriving DecidableEq

structure RecordIterator where
  /-- What the reader has not returned yet. -/
  reader : Bytes
  offset : ℕ := 0
  payloadLeft : ℕ := 0
  paddingLeft : ℕ := 0

def readExact (reader : Bytes) (n : ℕ) : Except TarError (Bytes × Bytes) :=
  if reader.length < n then .error .endOfStream else .ok (reader.take n, reader.drop n)

def addOffset (offset n : ℕ) : Except TarError ℕ :=
  if 2 ^ 64 ≤ offset + n then .error .overflow else .ok (offset + n)

namespace RecordIterator

def setPayloadSize (self : RecordIterator) (size : ℕ) : Except TarError RecordIterator := do
  rejectIf (maxContentBytes < size) .rootFSArchiveTooLarge
  pure { self with payloadLeft := size, paddingLeft := (512 - size % 512) % 512 }

def takePayload (self : RecordIterator) : Except TarError (Bytes × RecordIterator) := do
  let (bytes, reader) ← readExact self.reader self.payloadLeft
  let offset ← addOffset self.offset self.payloadLeft
  pure (bytes, { self with reader, offset, payloadLeft := 0 })

def nextHeader (self : RecordIterator) : Except TarError (Option Record × RecordIterator) := do
  let discarded := min self.paddingLeft self.reader.length
  let offset ← addOffset self.offset discarded
  let reader := self.reader.drop discarded
  let header := reader.take 512
  if header.length = 0 then pure (none, { self with reader := [], offset, paddingLeft := 0 })
  else do
    rejectIf (header.length ≠ 512) .truncatedTarHeader
    let offset ← addOffset offset 512
    let self := { self with reader := reader.drop 512, offset, paddingLeft := 0 }
    if isZeroBlock header = true then pure (none, self)
    else do
      verifyTarHeader header
      let size ← tarSize header
      let self ← self.setPayloadSize size
      pure (some { header, size, payloadOffset := self.offset }, self)

def next (self : RecordIterator) : Except TarError (Option Record × RecordIterator) := do
  let (_, self) ← self.takePayload
  self.nextHeader

def readPayloadAlloc (self : RecordIterator) (maxBytes : ℕ) :
    Except TarError (Bytes × RecordIterator) := do
  rejectIf (maxBytes < self.payloadLeft) .tarHeaderTooLarge
  self.takePayload

def streamPayload (self : RecordIterator) : Except TarError (Bytes × RecordIterator) :=
  self.takePayload

end RecordIterator

-- ══ Consumers

inductive Use
  | skip
  | readAlloc (maxBytes : ℕ)
  | stream

structure Choice where
  size : Option ℕ := none
  use : Use := .skip

structure Seen where
  record : Record
  size : ℕ
  payload : Option Bytes

def replaceSize (it : RecordIterator) : Option ℕ → Except TarError RecordIterator
  | none => .ok it
  | some size => it.setPayloadSize size

def usePayload (it : RecordIterator) : Use → Except TarError (Option Bytes × RecordIterator)
  | .skip => .ok (none, it)
  | .readAlloc maxBytes => (it.readPayloadAlloc maxBytes).map (Prod.map some id)
  | .stream => it.streamPayload.map (Prod.map some id)

inductive Outcome
  | unfinished
  | ended
  | failed (e : TarError)
  deriving DecidableEq

def see (record : Record) (size : ℕ) (rest : RecordIterator → List Seen × Outcome) :
    Except TarError (Option Bytes × RecordIterator) → List Seen × Outcome
  | .error e => ([⟨record, size, none⟩], .failed e)
  | .ok (payload, it) => (⟨record, size, payload⟩ :: (rest it).1, (rest it).2)

/-- What a consumer sees in at most so many calls, and how it ended. The choice for a record goes
by the number of those before it. -/
def walk (choices : ℕ → Choice) : ℕ → ℕ → RecordIterator → List Seen × Outcome
  | 0, _, _ => ([], .unfinished)
  | calls + 1, k, it =>
    match it.next with
    | .error e => ([], .failed e)
    | .ok (none, _) => ([], .ended)
    | .ok (some record, it) =>
      match replaceSize it (choices k).size with
      | .error e => ([⟨record, record.size, none⟩], .failed e)
      | .ok it =>
        see record it.payloadLeft (walk choices calls (k + 1)) (usePayload it (choices k).use)

-- ══ Framing

def padding (n : ℕ) : ℕ := (512 - n % 512) % 512

def RecordIterator.payloadEnd (it : RecordIterator) : ℕ := it.offset + it.payloadLeft

/-- The iterator stands in the stream where its offset says, with the padding that leads from the
end of the payload to the next block. -/
structure Framed (stream : Bytes) (it : RecordIterator) : Prop where
  reader : it.reader = stream.drop it.offset
  inside : it.offset ≤ stream.length
  padded : it.paddingLeft = padding it.payloadEnd

def behind (stream : Bytes) (payloadEnd : ℕ) : RecordIterator :=
  ⟨stream.drop payloadEnd, payloadEnd, 0, padding payloadEnd⟩

def pass (stream : Bytes) (payloadEnd : ℕ) : Except TarError RecordIterator :=
  if stream.length < payloadEnd then .error .endOfStream
  else if 2 ^ 64 ≤ payloadEnd then .error .overflow
  else .ok (behind stream payloadEnd)

def roundUp (n : ℕ) : ℕ := (n + 511) / 512 * 512

/-- The header of a record is the block of the stream at `start`, says how long the payload is, and
is followed by it. -/
structure Record.HeaderAt (record : Record) (stream : Bytes) (start : ℕ) : Prop where
  header : record.header = (stream.drop start).take 512
  whole : record.header.length = 512
  size : tarSize record.header = .ok record.size
  payload : record.payloadOffset = start + 512

variable {payloadEnd : ℕ} {record : Record}

section Framing

variable {stream : Bytes} {it it' : RecordIterator}

lemma framed_behind (h : payloadEnd ≤ stream.length) : Framed stream (behind stream payloadEnd) :=
  ⟨rfl, h, rfl⟩

lemma Framed.setPayloadSize {size : ℕ} (h : Framed stream it) (haligned : it.offset % 512 = 0)
    (hset : it.setPayloadSize size = .ok it') :
    Framed stream it' ∧ it'.offset = it.offset ∧ it'.payloadLeft = size := by
  obtain ⟨-, hset⟩ := Check.seq_ok.mp hset
  cases hset
  refine ⟨⟨h.reader, h.inside, ?_⟩, rfl, rfl⟩
  change (512 - size % 512) % 512 = padding (it.offset + size)
  rw [padding]
  omega

lemma Framed.takePayload_eq (h : Framed stream it) : it.takePayload =
    (pass stream it.payloadEnd).map (Prod.mk ((stream.drop it.offset).take it.payloadLeft)) := by
  obtain ⟨reader, offset, payloadLeft, paddingLeft⟩ := it
  obtain ⟨hreader, hinside, hpadded⟩ := h
  dsimp only [RecordIterator.payloadEnd] at hreader hinside hpadded
  subst hreader hpadded
  have hshort : (stream.drop offset).length < payloadLeft ↔
      stream.length < offset + payloadLeft := by
    rw [length_drop]
    omega
  rw [RecordIterator.takePayload, readExact, addOffset, pass, RecordIterator.payloadEnd]
  by_cases hend : stream.length < offset + payloadLeft
  · rw [if_pos (hshort.mpr hend), if_pos hend]
    rfl
  · rw [if_neg (mt hshort.mp hend), if_neg hend]
    by_cases hfits : 2 ^ 64 ≤ offset + payloadLeft
    · rw [if_pos hfits, if_pos hfits]
      rfl
    · rw [if_neg hfits, if_neg hfits, drop_drop]
      rfl

lemma Framed.next_eq (h : Framed stream it) :
    it.next = pass stream it.payloadEnd >>= RecordIterator.nextHeader := by
  rw [RecordIterator.next, h.takePayload_eq]
  cases pass stream it.payloadEnd <;> rfl

lemma pass_ok (h : pass stream payloadEnd = .ok it) :
    payloadEnd ≤ stream.length ∧ it = behind stream payloadEnd := by
  unfold pass at h
  split_ifs at h with hshort
  exact ⟨Nat.not_lt.mp hshort, (Except.ok.inj h).symm⟩

lemma addOffset_ok {offset n result : ℕ} (h : addOffset offset n = .ok result) :
    result = offset + n := by
  unfold addOffset at h
  split at h <;> cases h
  rfl

lemma nextHeader_some (hend : payloadEnd ≤ stream.length)
    (h : (behind stream payloadEnd).nextHeader = .ok (some record, it)) :
    record.HeaderAt stream (roundUp payloadEnd) ∧ Framed stream it ∧
      it.offset = record.payloadOffset ∧ it.payloadLeft = record.size := by
  obtain ⟨offset, hoffset, h⟩ := Check.bind_ok.mp h
  have hoffset := addOffset_ok hoffset
  dsimp only [behind] at h hoffset
  split at h
  · cases h
  · obtain ⟨hwhole, h⟩ := Check.seq_ok.mp h
    have hwhole := not_not.mp (Check.rejectIf_ok.mp hwhole)
    obtain ⟨next, hnext, h⟩ := Check.bind_ok.mp h
    have hnext := addOffset_ok hnext
    split at h
    · cases h
    · obtain ⟨-, h⟩ := Check.seq_ok.mp h
      obtain ⟨size, hparse, h⟩ := Check.bind_ok.mp h
      obtain ⟨fresh, hset, h⟩ := Check.bind_ok.mp h
      cases h
      -- the header is whole, so the padding in front of it was not cut short
      have hlength := hwhole
      simp only [length_take, length_drop] at hlength
      have hpadding : min (padding payloadEnd) (stream.drop payloadEnd).length =
          padding payloadEnd := by
        rw [length_drop]
        omega
      have hround : roundUp payloadEnd = payloadEnd + padding payloadEnd := by
        rw [roundUp, padding]
        omega
      have hdrop : (stream.drop payloadEnd).drop (padding payloadEnd) =
          stream.drop (roundUp payloadEnd) := by
        rw [drop_drop, hround]
      rw [hpadding, hdrop] at hwhole hparse hset ⊢
      rw [hpadding, ← hround] at hoffset
      subst hnext hoffset
      have hinside : roundUp payloadEnd + 512 ≤ stream.length := by
        rw [length_take, length_drop] at hwhole
        omega
      have haligned : (roundUp payloadEnd + 512) % 512 = 0 := by
        rw [roundUp]
        omega
      have hstart : Framed stream
          { reader := (stream.drop (roundUp payloadEnd)).drop 512
            offset := roundUp payloadEnd + 512 } := by
        refine ⟨drop_drop, hinside, ?_⟩
        change 0 = padding (roundUp payloadEnd + 512 + 0)
        rw [padding]
        omega
      obtain ⟨hframed, hsame, hsize⟩ := hstart.setPayloadSize haligned hset
      exact ⟨⟨rfl, hwhole, hparse, hsame⟩, hframed, rfl, hsize⟩

end Framing

-- ══ What a consumer sees

def Seen.framing (seen : Seen) : Record × ℕ := (seen.record, seen.size)

section Consumers

variable {stream : Bytes} {it it' : RecordIterator} {choices choices' : ℕ → Choice}

structure Passed (stream : Bytes) (it : RecordIterator) (taken : Option Bytes × RecordIterator) :
    Prop where
  framed : Framed stream taken.2
  payloadEnd : taken.2.payloadEnd = it.payloadEnd
  payload : ∀ bytes, taken.1 = some bytes →
    bytes = (stream.drop it.offset).take it.payloadLeft ∧ it.payloadEnd ≤ stream.length

variable (h : Framed stream it)

include h

lemma Framed.takePayload : (∃ e, pass stream it.payloadEnd = .error e ∧
      it.takePayload.map (Prod.map some id) = .error e) ∨
    ∃ taken, it.takePayload.map (Prod.map some id) = .ok taken ∧ Passed stream it taken := by
  rw [h.takePayload_eq]
  cases hpass : pass stream it.payloadEnd with
  | error e => exact .inl ⟨e, rfl, rfl⟩
  | ok it' =>
    obtain ⟨hend, rfl⟩ := pass_ok hpass
    refine .inr ⟨_, rfl, framed_behind hend, rfl, ?_⟩
    rintro _ ⟨⟩
    exact ⟨rfl, hend⟩

lemma Framed.usePayload (use : Use) : usePayload it use = .error .tarHeaderTooLarge ∨
    (∃ e, pass stream it.payloadEnd = .error e ∧ usePayload it use = .error e) ∨
    ∃ taken, usePayload it use = .ok taken ∧ Passed stream it taken := by
  cases use with
  | skip => exact .inr (.inr ⟨_, rfl, h, rfl, nofun⟩)
  | stream => exact .inr h.takePayload
  | readAlloc maxBytes =>
    rw [TarRecords.usePayload, RecordIterator.readPayloadAlloc, Check.rejectIf_bind]
    split
    · exact .inl rfl
    · exact .inr h.takePayload

lemma next_ok (hnext : it.next = .ok (some record, it')) :
    record.HeaderAt stream (roundUp it.payloadEnd) ∧ Framed stream it' ∧
      it'.offset = record.payloadOffset ∧ it'.payloadLeft = record.size := by
  rw [h.next_eq] at hnext
  obtain ⟨passed, hpass, hnext⟩ := Check.bind_ok.mp hnext
  obtain ⟨hend, rfl⟩ := pass_ok hpass
  exact nextHeader_some hend hnext

lemma replaceSize_ok {size : Option ℕ} (haligned : it.offset % 512 = 0)
    (hset : replaceSize it size = .ok it') : Framed stream it' ∧ it'.offset = it.offset := by
  cases size with
  | none =>
    cases hset
    exact ⟨h, rfl⟩
  | some size =>
    obtain ⟨hframed, hsame, -⟩ := h.setPayloadSize haligned hset
    exact ⟨hframed, hsame⟩

omit h

lemma Record.HeaderAt.aligned {n : ℕ} (h : record.HeaderAt stream (roundUp n)) :
    record.payloadOffset % 512 = 0 := by
  rw [h.payload, roundUp]
  omega

lemma pass_ne_tooLarge (stream : Bytes) (n : ℕ) : pass stream n ≠ .error .tarHeaderTooLarge := by
  unfold pass
  split_ifs <;> nofun

lemma walk_of_pass_error {e : TarError} (h : Framed stream it)
    (hpass : pass stream it.payloadEnd = .error e) (calls k : ℕ) :
    (walk choices calls k it).1 = [] ∧
      (walk choices calls k it).2 ≠ .failed .tarHeaderTooLarge := by
  cases calls with
  | zero => exact ⟨rfl, nofun⟩
  | succ calls =>
    rw [walk, h.next_eq, hpass]
    refine ⟨rfl, fun he => ?_⟩
    cases he
    exact pass_ne_tooLarge _ _ hpass

lemma see_eq {calls k : ℕ} {use : Use} (h : Framed stream it)
    (hread : (see record it.payloadLeft (walk choices calls k) (usePayload it use)).2 ≠
      .failed .tarHeaderTooLarge) : ∃ it', Framed stream it' ∧ it'.payloadEnd = it.payloadEnd ∧
      (walk choices calls k it').2 ≠ .failed .tarHeaderTooLarge ∧
      (see record it.payloadLeft (walk choices calls k) (usePayload it use)).1.map Seen.framing =
        (record, it.payloadLeft) :: (walk choices calls k it').1.map Seen.framing := by
  rcases h.usePayload use with huse | ⟨e, hpass, huse⟩ | ⟨taken, huse, hpassed⟩
  · rw [huse] at hread
    exact absurd rfl hread
  · obtain ⟨hnone, hother⟩ : (walk choices calls k it).1 = [] ∧
        (walk choices calls k it).2 ≠ .failed .tarHeaderTooLarge :=
      walk_of_pass_error h hpass calls k
    refine ⟨it, h, rfl, hother, ?_⟩
    rw [huse, hnone]
    rfl
  · rw [huse] at hread ⊢
    exact ⟨taken.2, hpassed.framed, hpassed.payloadEnd, hread, rfl⟩

/-- Whether payloads are read or left, the same records are seen with the same sizes. -/
theorem walk_records_eq (hsizes : ∀ k, (choices k).size = (choices' k).size) (calls k : ℕ)
    (h : Framed stream it) (h' : Framed stream it') (hend : it.payloadEnd = it'.payloadEnd)
    (hread : (walk choices calls k it).2 ≠ .failed .tarHeaderTooLarge)
    (hread' : (walk choices' calls k it').2 ≠ .failed .tarHeaderTooLarge) :
    (walk choices calls k it).1.map Seen.framing =
      (walk choices' calls k it').1.map Seen.framing := by
  induction calls generalizing k it it' with
  | zero => rfl
  | succ calls ih =>
    have hnext : it'.next = it.next := by rw [h.next_eq, h'.next_eq, hend]
    rw [walk] at hread hread' ⊢
    rw [walk]
    rw [hnext] at hread' ⊢
    cases hresult : it.next with
    | error e => rfl
    | ok result =>
      obtain ⟨_ | record, fresh⟩ := result
      · rfl
      · obtain ⟨hheader, hframed, hoffset, -⟩ := next_ok h hresult
        simp only [hresult, ← hsizes k] at hread hread' ⊢
        cases hreplace : replaceSize fresh (choices k).size with
        | error e => rfl
        | ok sized =>
          obtain ⟨hsized, -⟩ := replaceSize_ok hframed (hoffset ▸ hheader.aligned) hreplace
          simp only [hreplace] at hread hread' ⊢
          obtain ⟨next, hn, hnend, hnread, hseen⟩ := see_eq hsized hread
          obtain ⟨next', hn', hnend', hnread', hseen'⟩ := see_eq hsized hread'
          rw [hseen, hseen', ih (k + 1) hn hn' (hnend.trans hnend'.symm) hnread hnread']

/-- The records are where they say: the first header at the end of the payload before, rounded up
to a block, the payload behind it, and the rest behind that. What was read is the payload. -/
def Chained (stream : Bytes) : ℕ → List Seen → Prop
  | _, [] => True
  | payloadEnd, seen :: rest =>
    seen.record.HeaderAt stream (roundUp payloadEnd) ∧
    (∀ bytes, seen.payload = some bytes → bytes.length = seen.size ∧
      bytes = (stream.drop seen.record.payloadOffset).take seen.size) ∧
    Chained stream (seen.record.payloadOffset + seen.size) rest

lemma walk_chained (calls k : ℕ) (h : Framed stream it) :
    Chained stream it.payloadEnd (walk choices calls k it).1 := by
  induction calls generalizing k it with
  | zero => trivial
  | succ calls ih =>
    rw [walk]
    cases hresult : it.next with
    | error e => trivial
    | ok result =>
      obtain ⟨_ | record, fresh⟩ := result
      · trivial
      · obtain ⟨hheader, hframed, hoffset, -⟩ := next_ok h hresult
        cases hreplace : replaceSize fresh (choices k).size with
        | error e =>
          simp only [hreplace]
          exact ⟨hheader, nofun, trivial⟩
        | ok sized =>
          obtain ⟨hsized, hsame⟩ := replaceSize_ok hframed (hoffset ▸ hheader.aligned) hreplace
          have hstart : sized.offset = record.payloadOffset := hsame.trans hoffset
          simp only [hreplace]
          rcases hsized.usePayload (choices k).use with huse | ⟨e, -, huse⟩ | ⟨taken, huse, hpassed⟩
          · rw [huse]
            exact ⟨hheader, nofun, trivial⟩
          · rw [huse]
            exact ⟨hheader, nofun, trivial⟩
          · rw [huse]
            refine ⟨hheader, fun bytes hbytes => ?_, ?_⟩
            · obtain ⟨rfl, hinside⟩ := hpassed.payload bytes hbytes
              rw [hstart]
              refine ⟨?_, rfl⟩
              rw [length_take, length_drop]
              rw [RecordIterator.payloadEnd] at hinside
              change min sized.payloadLeft _ = sized.payloadLeft
              omega
            · have hrest := ih (k + 1) hpassed.framed
              rwa [hpassed.payloadEnd, RecordIterator.payloadEnd, hstart] at hrest

-- ══ No overflow

def TooLong (stream : Bytes) (e : TarError) : Prop := e = .overflow → 2 ^ 64 ≤ stream.length

lemma addOffset_raises {offset n : ℕ} (h : offset + n ≤ stream.length) :
    Check.Raises (TooLong stream) (addOffset offset n) :=
  .ite (fun htrap => .error fun _ => htrap.trans h) fun _ => .ok _

lemma pass_raises (n : ℕ) : Check.Raises (TooLong stream) (pass stream n) :=
  .ite (fun _ => .error nofun) fun hinside =>
    .ite (fun htrap => .error fun _ => htrap.trans (Nat.not_lt.mp hinside)) fun _ => .ok _

lemma setPayloadSize_raises (size : ℕ) : Check.Raises (TooLong stream) (it.setPayloadSize size) :=
  .bind (.rejectIf nofun) fun _ _ => .ok _

lemma nextHeader_raises (hend : payloadEnd ≤ stream.length) :
    Check.Raises (TooLong stream) (behind stream payloadEnd).nextHeader := by
  have hheader {α : Type} {x : Except TarError α} (h : Check.Raises (· ≠ .overflow) x) :
      Check.Raises (TooLong stream) x := fun e he htrap => absurd htrap (h e he)
  refine (addOffset_raises ?_).bind fun offset hoffset => ?_
  · change payloadEnd + min (padding payloadEnd) (stream.drop payloadEnd).length ≤ _
    rw [length_drop]
    omega
  · have hoffset : offset = payloadEnd + min (padding payloadEnd) (stream.drop payloadEnd).length :=
      addOffset_ok hoffset
    refine .ite (fun _ => .ok _) fun _ => .bind (.rejectIf nofun) fun _ hwhole => ?_
    refine (addOffset_raises ?_).bind fun next _ => .ite (fun _ => .ok _) fun _ => ?_
    · have hwhole := not_not.mp (Check.rejectIf_ok.mp hwhole)
      simp only [behind, length_take, length_drop] at hwhole hoffset
      omega
    · refine (hheader (verifyTarHeader_raises _)).bind fun _ _ => ?_
      refine (hheader (parseTarNumber_raises _)).bind fun size _ => ?_
      exact (setPayloadSize_raises size).bind fun _ _ => .ok _

lemma next_raises (h : Framed stream it) : Check.Raises (TooLong stream) it.next := by
  rw [h.next_eq]
  refine (pass_raises _).bind fun passed hpass => ?_
  obtain ⟨hend, rfl⟩ := pass_ok hpass
  exact nextHeader_raises hend

lemma walk_overflow (calls k : ℕ) (h : Framed stream it)
    (htrap : (walk choices calls k it).2 = .failed .overflow) : 2 ^ 64 ≤ stream.length := by
  induction calls generalizing k it with
  | zero => cases htrap
  | succ calls ih =>
    rw [walk] at htrap
    cases hresult : it.next with
    | error e =>
      rw [hresult] at htrap
      cases htrap
      exact next_raises h _ hresult rfl
    | ok result =>
      obtain ⟨_ | record, fresh⟩ := result
      · rw [hresult] at htrap
        cases htrap
      · obtain ⟨hheader, hframed, hoffset, -⟩ := next_ok h hresult
        simp only [hresult] at htrap
        cases hreplace : replaceSize fresh (choices k).size with
        | error e =>
          simp only [hreplace] at htrap
          cases htrap
          cases hsize : (choices k).size with
          | none => simp [hsize, replaceSize] at hreplace
          | some size =>
            rw [hsize] at hreplace
            exact setPayloadSize_raises size _ hreplace rfl
        | ok sized =>
          obtain ⟨hsized, -⟩ := replaceSize_ok hframed (hoffset ▸ hheader.aligned) hreplace
          simp only [hreplace] at htrap
          rcases hsized.usePayload (choices k).use with
            huse | ⟨e, hpass, huse⟩ | ⟨taken, huse, hpassed⟩
          · rw [huse] at htrap
            cases htrap
          · rw [huse] at htrap
            cases htrap
            exact pass_raises _ _ hpass rfl
          · rw [huse] at htrap
            exact ih (k + 1) hpassed.framed htrap

end Consumers

/-- Two consumers that give the records the same sizes see the same records, whatever payloads they
read, unless a cap of theirs refuses one. The records are where they say, and no arithmetic traps
unless the stream itself is longer than an offset can tell. -/
theorem records_framed (stream : Bytes) (choices choices' : ℕ → Choice) (calls : ℕ)
    (hsizes : ∀ k, (choices k).size = (choices' k).size)
    (hread : (walk choices calls 0 { reader := stream }).2 ≠ .failed .tarHeaderTooLarge)
    (hread' : (walk choices' calls 0 { reader := stream }).2 ≠ .failed .tarHeaderTooLarge) :
    (walk choices calls 0 { reader := stream }).1.map Seen.framing =
      (walk choices' calls 0 { reader := stream }).1.map Seen.framing ∧
    Chained stream 0 (walk choices calls 0 { reader := stream }).1 ∧
    ((walk choices calls 0 { reader := stream }).2 = .failed .overflow →
      2 ^ 64 ≤ stream.length) := by
  have hstart : Framed stream { reader := stream } :=
    ⟨rfl, Nat.zero_le _, (by decide : 0 = padding 0)⟩
  exact ⟨walk_records_eq hsizes calls 0 hstart hstart rfl hread hread', walk_chained calls 0 hstart,
    walk_overflow calls 0 hstart⟩

def sampleHeader : Bytes :=
  replicate 124 0 ++ [0x33] ++ replicate 23 0 ++ [0x34, 0x36, 0x33] ++
    replicate 361 0

def sampleStream : Bytes :=
  sampleHeader ++ [1, 2, 3] ++ replicate 509 0 ++ sampleHeader ++ [4, 5, 6]

theorem records_framed_two :
    (walk (fun _ => { use := .stream }) 3 0 { reader := sampleStream }).1.map Seen.payload =
      [some [1, 2, 3], some [4, 5, 6]] ∧
    (walk (fun _ => { use := .stream }) 3 0 { reader := sampleStream }).1.map Seen.framing =
      (walk (fun _ => {}) 3 0 { reader := sampleStream }).1.map Seen.framing ∧
    Chained sampleStream 0 (walk (fun _ => { use := .stream }) 3 0 { reader := sampleStream }).1 ∧
    ((walk (fun _ => { use := .stream }) 3 0 { reader := sampleStream }).2 = .failed .overflow →
      2 ^ 64 ≤ sampleStream.length) :=
  ⟨by decide +kernel,
    records_framed sampleStream _ _ 3 (fun _ => rfl) (by decide +kernel) (by decide +kernel)⟩

end SporeVM.TarRecords
