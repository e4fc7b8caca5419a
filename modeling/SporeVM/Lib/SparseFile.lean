import Mathlib.Tactic.Common
import Mathlib.Data.List.GetD

/-!
# Sparse files

A file is a size and a byte at every offset, and every byte past the end is zero. This is the view
`pread`, `pwrite` and `ftruncate` give of a regular file, holes included, and it is also the flat
byte array a disk image stands for.
-/

namespace Lib

open List

def slice (f : ℕ → UInt8) (off len : ℕ) : List UInt8 :=
  (range len).map fun i => f (off + i)

@[simp] lemma length_slice (f : ℕ → UInt8) (off len : ℕ) : (slice f off len).length = len := by
  simp [slice]

@[simp] lemma slice_zero (f : ℕ → UInt8) (off : ℕ) : slice f off 0 = [] := rfl

lemma getElem_slice (f : ℕ → UInt8) (off len i : ℕ) (h : i < (slice f off len).length) :
    (slice f off len)[i] = f (off + i) := by
  simp [slice]

lemma getD_slice (f : ℕ → UInt8) (off len i : ℕ) (h : i < len) :
    (slice f off len).getD i 0 = f (off + i) := by
  rw [getD_eq_getElem _ _ (by simpa using h), getElem_slice]

lemma slice_append (f : ℕ → UInt8) (off a b : ℕ) :
    slice f off a ++ slice f (off + a) b = slice f off (a + b) := by
  apply ext_getElem
  · simp
  · intro i h₁ h₂
    rw [getElem_slice, getElem_append]
    split
    · rw [getElem_slice]
    · next h =>
      rw [getElem_slice]
      simp only [length_slice] at h ⊢
      congr 1
      omega

variable {off len : ℕ} {f : ℕ → UInt8}

lemma slice_eq_iff {g : ℕ → UInt8} :
    slice f off len = slice g off len ↔ ∀ i, off ≤ i → i < off + len → f i = g i := by
  constructor
  · intro h i hlo hhi
    have hi : i - off < len := by omega
    have := congrArg (fun l => l.getD (i - off) 0) h
    simp only [getD_slice _ _ _ _ hi] at this
    rwa [show off + (i - off) = i by omega] at this
  · intro h
    apply map_congr_left
    intro i hi
    have := mem_range.mp hi
    exact h _ (by omega) (by omega)

lemma eq_slice_iff {data : List UInt8} (hlen : data.length = len) :
    data = slice f off len ↔ ∀ i, off ≤ i → i < off + len → f i = data.getD (i - off) 0 := by
  subst hlen
  constructor
  · intro h i hlo hhi
    rw [h, getD_slice _ _ _ _ (by omega), show off + (i - off) = i by omega]
  · intro h
    apply ext_getElem (by simp)
    intro i h₁ h₂
    rw [getElem_slice, h (off + i) (by omega) (by omega), show off + i - off = i by omega,
      getD_eq_getElem _ _ h₁]

lemma slice_all_zero :
    (slice f off len).all (· == 0) = true ↔ ∀ i, off ≤ i → i < off + len → f i = 0 := by
  simp only [all_eq_true, slice, mem_map, mem_range, beq_iff_eq]
  constructor
  · intro h i hlo hhi
    have := h (f i) ⟨i - off, by omega, by rw [show off + (i - off) = i by omega]⟩
    exact this
  · rintro h _ ⟨i, hi, rfl⟩
    exact h _ (by omega) (by omega)

structure SparseFile where
  size : ℕ
  byte : ℕ → UInt8
  zero_past_end : ∀ i, size ≤ i → byte i = 0

variable {f : SparseFile}

namespace SparseFile

variable {g : SparseFile}

lemma ext (hsize : f.size = g.size) (hbyte : ∀ i, f.byte i = g.byte i) :
    f = g := by
  cases f
  cases g
  simp only [mk.injEq]
  exact ⟨hsize, funext hbyte⟩

def zeros (size : ℕ) : SparseFile := ⟨size, fun _ => 0, fun _ _ => rfl⟩

def ofList (data : List UInt8) : SparseFile where
  size := data.length
  byte i := data.getD i 0
  zero_past_end _ h := getD_eq_default _ _ h

def pwrite (f : SparseFile) (off : ℕ) (data : List UInt8) : SparseFile where
  size := if data.length = 0 then f.size else max f.size (off + data.length)
  byte i := if off ≤ i ∧ i < off + data.length then data.getD (i - off) 0 else f.byte i
  zero_past_end i h := by
    split at h
    · next h0 => rw [if_neg (by omega)]; exact f.zero_past_end i h
    · rw [if_neg (by omega)]; exact f.zero_past_end i (by omega)

def ftruncate (f : SparseFile) (size : ℕ) : SparseFile where
  size := size
  byte i := if i < size then f.byte i else 0
  zero_past_end i h := if_neg (by omega)

def zeroed (f : SparseFile) (off len : ℕ) : SparseFile where
  size := f.size
  byte i := if off ≤ i ∧ i < off + len then 0 else f.byte i
  zero_past_end i h := by
    split
    · rfl
    · exact f.zero_past_end i h

@[simp] lemma ftruncate_size (f : SparseFile) (n : ℕ) : (f.ftruncate n).size = n := rfl

lemma pwrite_size_of_le (f : SparseFile) (off : ℕ) (data : List UInt8)
    (h : off + data.length ≤ f.size) : (f.pwrite off data).size = f.size := by
  simp only [pwrite]
  split <;> omega

lemma le_pwrite_size (f : SparseFile) (off : ℕ) (data : List UInt8) :
    f.size ≤ (f.pwrite off data).size := by
  simp only [pwrite]
  split <;> omega

lemma pwrite_size_le (f : SparseFile) (off : ℕ) (data : List UInt8) (n : ℕ)
    (hf : f.size ≤ n) (h : off + data.length ≤ n) : (f.pwrite off data).size ≤ n := by
  simp only [pwrite]
  split <;> omega

lemma pwrite_byte_in (f : SparseFile) (off : ℕ) (data : List UInt8) (i : ℕ)
    (hlo : off ≤ i) (hhi : i < off + data.length) :
    (f.pwrite off data).byte i = data.getD (i - off) 0 :=
  if_pos ⟨hlo, hhi⟩

lemma pwrite_byte_out (f : SparseFile) (off : ℕ) (data : List UInt8) (i : ℕ)
    (h : i < off ∨ off + data.length ≤ i) : (f.pwrite off data).byte i = f.byte i :=
  if_neg (by omega)

lemma zeroed_byte_in (f : SparseFile) (off len i : ℕ) (hlo : off ≤ i) (hhi : i < off + len) :
    (f.zeroed off len).byte i = 0 :=
  if_pos ⟨hlo, hhi⟩

lemma zeroed_byte_out (f : SparseFile) (off len i : ℕ) (h : i < off ∨ off + len ≤ i) :
    (f.zeroed off len).byte i = f.byte i :=
  if_neg (by omega)

@[simp] lemma pwrite_nil (f : SparseFile) (off : ℕ) : f.pwrite off [] = f := by
  refine SparseFile.ext rfl fun i => ?_
  exact pwrite_byte_out f off [] i (by simp; omega)

@[simp] lemma zeroed_zero (f : SparseFile) (off : ℕ) : f.zeroed off 0 = f := by
  refine SparseFile.ext rfl fun i => ?_
  exact zeroed_byte_out f off 0 i (by omega)

lemma pwrite_append (f : SparseFile) (off : ℕ) (a b : List UInt8) :
    (f.pwrite off a).pwrite (off + a.length) b = f.pwrite off (a ++ b) := by
  refine SparseFile.ext ?_ fun i => ?_
  · simp only [pwrite, length_append]
    grind
  · by_cases hb : off + a.length ≤ i ∧ i < off + a.length + b.length
    · rw [pwrite_byte_in _ _ _ _ hb.1 hb.2,
        pwrite_byte_in _ _ _ _ (by omega) (by simp; omega),
        getD_append_right _ _ _ _ (by omega)]
      congr 1
      omega
    · rw [pwrite_byte_out _ _ _ _ (by omega)]
      by_cases ha : off ≤ i ∧ i < off + a.length
      · rw [pwrite_byte_in _ _ _ _ ha.1 ha.2,
          pwrite_byte_in _ _ _ _ (by omega) (by simp; omega),
          getD_append _ _ _ _ (by omega)]
      · rw [pwrite_byte_out _ _ _ _ (by omega), pwrite_byte_out _ _ _ _ (by simp; omega)]

lemma ofList_splice (bytes data : List UInt8) (off : ℕ) (h : off + data.length ≤ bytes.length) :
    ofList (bytes.take off ++ data ++ bytes.drop (off + data.length)) =
      (ofList bytes).pwrite off data := by
  have hsize : ((ofList bytes).pwrite off data).size = bytes.length := pwrite_size_of_le _ _ _ h
  refine SparseFile.ext ?_ fun i => ?_
  · rw [hsize]
    simp only [ofList, length_append, length_take, length_drop]
    omega
  · simp only [ofList, pwrite, getD_eq_getElem?_getD, append_assoc,
      List.getElem?_append, length_take, List.getElem?_take, List.getElem?_drop]
    grind

lemma pwrite_zeros (f : SparseFile) (off len : ℕ) (h : off + len ≤ f.size) :
    f.pwrite off (replicate len 0) = f.zeroed off len := by
  refine SparseFile.ext (pwrite_size_of_le _ _ _ (by simpa using h)) fun i => ?_
  simp only [pwrite, zeroed, length_replicate]
  split
  · exact getD_replicate _ (by omega)
  · rfl

lemma slice_ofList (bytes : List UInt8) (off len : ℕ) (h : off + len ≤ bytes.length) :
    slice (ofList bytes).byte off len = (bytes.drop off).take len := by
  refine ext_getElem (by simp; omega) fun i hi hi' => ?_
  rw [length_slice] at hi
  rw [getElem_slice, getElem_take, getElem_drop]
  exact getD_eq_getElem _ _ (by omega)

lemma pwrite_slice_eq (hsize : f.size = g.size) (hle : off + len ≤ f.size)
    (h : ∀ i, i < off ∨ off + len ≤ i → f.byte i = g.byte i) :
    f.pwrite off (slice g.byte off len) = g := by
  refine SparseFile.ext ?_ fun i => ?_
  · rw [pwrite_size_of_le _ _ _ (by simpa using hle), hsize]
  · by_cases hi : off ≤ i ∧ i < off + len
    · rw [pwrite_byte_in _ _ _ _ hi.1 (by simpa using hi.2), getD_slice _ _ _ _ (by omega),
        show off + (i - off) = i by omega]
    · rw [pwrite_byte_out _ _ _ _ (by simp; omega), h i (by omega)]

lemma zeroed_eq (hsize : f.size = g.size)
    (hzero : ∀ i, off ≤ i → i < off + len → g.byte i = 0)
    (h : ∀ i, i < off ∨ off + len ≤ i → f.byte i = g.byte i) : f.zeroed off len = g := by
  refine SparseFile.ext hsize fun i => ?_
  by_cases hi : off ≤ i ∧ i < off + len
  · rw [zeroed_byte_in _ _ _ _ hi.1 hi.2, hzero i hi.1 hi.2]
  · rw [zeroed_byte_out _ _ _ _ (by omega), h i (by omega)]

lemma ftruncate_byte_of_lt (f : SparseFile) {n i : ℕ} (h : i < n) :
    (f.ftruncate n).byte i = f.byte i :=
  if_pos h

lemma ftruncate_byte_of_le (f : SparseFile) {n : ℕ} (h : f.size ≤ n) (i : ℕ) :
    (f.ftruncate n).byte i = f.byte i := by
  by_cases hi : i < n
  · exact f.ftruncate_byte_of_lt hi
  · rw [(f.ftruncate n).zero_past_end i (by simp; omega), f.zero_past_end i (by omega)]

@[simp] lemma ftruncate_self (f : SparseFile) : f.ftruncate f.size = f :=
  SparseFile.ext rfl fun i => f.ftruncate_byte_of_le (Nat.le_refl _) i

end SparseFile

end Lib
