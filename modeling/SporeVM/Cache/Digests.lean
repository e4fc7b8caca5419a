import SporeVM.Lib.Json
import SporeVM.Lib.PathText
import SporeVM.DiskIndex

/-!
# Digests and storage descriptors

A chunk of content is known by its BLAKE3 digest. Files are named after the digest in hexadecimal,
records write it with a scheme in front. A storage descriptor names a disk by the digest of its
index.
-/

namespace SporeVM

open Lib.Json (hexValue)
open Lib.PathText (Text)

abbrev Bytes := List UInt8

/-- The bytes of a text. The texts of the source are strings of bytes: a character of a text
stands for the byte that is its code. -/
def textBytes (text : Text) : Bytes := text.map fun c => UInt8.ofNat c.toNat

-- ══ Chunk ids and digests

structure ChunkId where
  bytes : List UInt8
  size : bytes.length = 32
  deriving DecidableEq

namespace ChunkId

def hexLen : ℕ := 64

def hexDigit (n : ℕ) : Char :=
  if n < 10 then Char.ofNat ('0'.toNat + n) else Char.ofNat ('a'.toNat + (n - 10))

def bytesToHex : List UInt8 → Text
  | [] => []
  | b :: bs => hexDigit (b.toNat / 16) :: hexDigit (b.toNat % 16) :: bytesToHex bs

def hexToBytes : Text → Option (List UInt8)
  | [] => some []
  | [_] => none
  | high :: low :: rest =>
    match hexValue high, hexValue low, hexToBytes rest with
    | some h, some l, some bs => some (UInt8.ofNat (16 * h + l) :: bs)
    | _, _, _ => none

def toHex (id : ChunkId) : Text := bytesToHex id.bytes

lemma length_hexToBytes : ∀ {hex : Text} {bs : List UInt8}, hexToBytes hex = some bs →
    hex.length = 2 * bs.length
  | [], _, h => by
    cases h
    rfl
  | [_], _, h => by cases h
  | high :: low :: rest, bs, h => by
    unfold hexToBytes at h
    split at h
    · next hr =>
      cases h
      have := length_hexToBytes hr
      simp only [List.length_cons]
      omega
    · cases h

def fromHex (hex : Text) : Option ChunkId :=
  if hlen : hex.length = hexLen then
    match h : hexToBytes hex with
    | none => none
    | some bs => some ⟨bs, by have := length_hexToBytes h; unfold hexLen at hlen; omega⟩
  else none

end ChunkId

def isLowerHex (c : Char) : Bool := ('0' ≤ c && c ≤ '9') || ('a' ≤ c && c ≤ 'f')

def digestPrefix : Text := "blake3:".toList

def ChunkId.toDigest (id : ChunkId) : Text := digestPrefix ++ id.toHex

def diskDigestHex (digest : Text) : Except StorageError Text :=
  if digestPrefix.isPrefixOf digest then
    if (ChunkId.fromHex (digest.drop digestPrefix.length)).isSome then
      .ok (digest.drop digestPrefix.length)
    else .error .badManifest
  else .error .badManifest

def validateDiskDigest (digest : Text) : Except StorageError Unit := do
  let _ ← diskDigestHex digest
  pure ()

end SporeVM
