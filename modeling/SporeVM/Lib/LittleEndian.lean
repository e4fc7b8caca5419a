import Mathlib.Tactic.Common
import Mathlib.Algebra.Order.Ring.Nat

/-!
# Numbers as bytes

Numbers of a fixed width as lists of bytes, the lowest byte first, and the fields of a byte string
at fixed offsets. A field read from a concatenation is the part that stands there, and a byte string
is the concatenation of its consecutive fields. -/

namespace Lib

open List

def littleEndian (value : ℕ) : ℕ → List UInt8
  | 0 => []
  | count + 1 => UInt8.ofNat (value % 256) :: littleEndian (value / 256) count

def ofLittleEndian : List UInt8 → ℕ
  | [] => 0
  | b :: bs => b.toNat + 256 * ofLittleEndian bs

@[simp] lemma length_littleEndian (value count : ℕ) :
    (littleEndian value count).length = count := by
  induction count generalizing value with
  | zero => rfl
  | succ count ih => simp [littleEndian, ih]

lemma ofLittleEndian_littleEndian {count : ℕ} : ∀ {value : ℕ}, value < 256 ^ count →
    ofLittleEndian (littleEndian value count) = value := by
  induction count with
  | zero =>
    intro value h
    rw [pow_zero] at h
    simp only [littleEndian, ofLittleEndian]
    omega
  | succ count ih =>
    intro value h
    rw [pow_succ] at h
    rw [littleEndian, ofLittleEndian, ih (by omega), UInt8.toNat_ofNat']
    omega

lemma littleEndian_inj {count m n : ℕ} (hm : m < 256 ^ count) (hn : n < 256 ^ count)
    (h : littleEndian m count = littleEndian n count) : m = n := by
  rw [← ofLittleEndian_littleEndian hm, h, ofLittleEndian_littleEndian hn]

lemma littleEndian_ofLittleEndian : ∀ bytes : List UInt8,
    littleEndian (ofLittleEndian bytes) bytes.length = bytes
  | [] => rfl
  | b :: bs => by
    have hb := b.toNat_lt
    have hlow : (b.toNat + 256 * ofLittleEndian bs) % 256 = b.toNat := by omega
    have hhigh : (b.toNat + 256 * ofLittleEndian bs) / 256 = ofLittleEndian bs := by omega
    rw [ofLittleEndian, length_cons, littleEndian, hlow, hhigh,
      littleEndian_ofLittleEndian bs, UInt8.ofNat_toNat]

lemma ofLittleEndian_lt : ∀ bytes : List UInt8, ofLittleEndian bytes < 256 ^ bytes.length
  | [] => by decide
  | b :: bs => by
    have hb := b.toNat_lt
    have ih := ofLittleEndian_lt bs
    rw [ofLittleEndian, length_cons, pow_succ]
    omega

-- ══ Fields at offsets

def bytesAt (bytes : List UInt8) (offset count : ℕ) : List UInt8 := (bytes.drop offset).take count

lemma length_bytesAt {bytes : List UInt8} {offset count : ℕ} (h : offset + count ≤ bytes.length) :
    (bytesAt bytes offset count).length = count := by
  rw [bytesAt, length_take, length_drop]
  omega

lemma length_bytesAt_le (bytes : List UInt8) (offset count : ℕ) :
    (bytesAt bytes offset count).length ≤ count := by
  rw [bytesAt, length_take]
  omega

/-- **A field of a concatenation** is the part that begins at its offset. -/
theorem bytesAt_flatten : ∀ {parts : List (List UInt8)} {i offset count : ℕ} {part : List UInt8},
    parts[i]? = some part → ((parts.take i).map length).sum = offset →
    part.length = count → bytesAt parts.flatten offset count = part
  | [], _, _, _, _, h, _, _ => by simp at h
  | first :: parts, 0, offset, count, part, h, hoffset, hcount => by
    obtain rfl : first = part := by simpa using h
    obtain rfl : 0 = offset := hoffset
    subst hcount
    rw [bytesAt, drop_zero, flatten_cons, take_left]
  | first :: parts, i + 1, offset, count, part, h, hoffset, hcount => by
    have hrest : ((parts.take i).map length).sum = offset - first.length := by
      rw [take_succ_cons, map_cons, sum_cons] at hoffset
      omega
    have hpast : first.length ≤ offset := by
      rw [← hoffset, take_succ_cons, map_cons, sum_cons]
      omega
    have ih := bytesAt_flatten (by simpa using h) hrest hcount
    rw [bytesAt, flatten_cons, drop_append, drop_eq_nil_of_le hpast, nil_append]
    exact ih

lemma drop_eq_bytesAt_append (bytes : List UInt8) (offset count : ℕ) :
    bytes.drop offset = bytesAt bytes offset count ++ bytes.drop (offset + count) := by
  rw [bytesAt, ← drop_drop, take_append_drop]

end Lib
