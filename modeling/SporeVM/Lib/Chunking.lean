import Mathlib.Algebra.Order.Group.Nat
import SporeVM.Lib.SparseFile

/-!
# Chunked ranges

A range of `size` bytes cut into chunks of `cs` bytes, the last of which may be short. Chunk `c`
starts at `c * cs`; `InChunk` says which bytes of the range it holds, and `chunkExtent` how many.
-/

namespace Lib

def divCeil (a b : ℕ) : ℕ := (a + b - 1) / b

lemma divCeil_mono {a b : ℕ} (c : ℕ) (h : a ≤ b) : divCeil a c ≤ divCeil b c :=
  Nat.div_le_div_right (by omega)

lemma lt_divCeil {cs : ℕ} (hcs : 0 < cs) {c size : ℕ} : c < divCeil size cs ↔ c * cs < size := by
  unfold divCeil
  rw [← Nat.succ_le_iff, Nat.le_div_iff_mul_le hcs, Nat.succ_mul]
  omega

lemma divCeil_eq {cs : ℕ} (hcs : 0 < cs) {n size : ℕ} (hall : size ≤ n * cs)
    (hneeded : ∀ c < n, c * cs < size) : divCeil size cs = n := by
  apply le_antisymm
  · exact not_lt.mp fun hlt => absurd ((lt_divCeil hcs).mp hlt) (not_lt.mpr hall)
  · exact not_lt.mp fun hlt => absurd ((lt_divCeil hcs).mpr (hneeded _ hlt)) (lt_irrefl _)

lemma divCeil_le {n d : ℕ} (hd : d ≠ 0) : divCeil n d ≤ n := by
  by_contra hlt
  have hmul := (lt_divCeil (Nat.pos_of_ne_zero hd)).mp (not_le.mp hlt)
  have hle := Nat.le_mul_of_pos_right n (Nat.pos_of_ne_zero hd)
  omega

def InChunk (cs size c i : ℕ) : Prop := c * cs ≤ i ∧ i < c * cs + cs ∧ i < size

def chunkExtent (cs size c : ℕ) : ℕ := min (c * cs + cs) size - c * cs

variable {cs size c c' i : ℕ}

lemma inChunk_iff : InChunk cs size c i ↔ c * cs ≤ i ∧ i < c * cs + chunkExtent cs size c := by
  unfold InChunk chunkExtent
  omega

lemma InChunk.lt_size (h : InChunk cs size c i) : i < size := h.2.2

lemma InChunk.div_eq (h : InChunk cs size c i) : i / cs = c := by
  obtain ⟨hlo, hhi, -⟩ := h
  exact Nat.div_eq_of_lt_le hlo (by rw [Nat.succ_mul]; exact hhi)

lemma InChunk.unique (h : InChunk cs size c i) (h' : InChunk cs size c' i) : c = c' :=
  h.div_eq.symm.trans h'.div_eq

lemma inChunk_div (hcs : 0 < cs) (hi : i < size) : InChunk cs size (i / cs) i := by
  refine ⟨Nat.div_mul_le_self i cs, ?_, hi⟩
  have := Nat.lt_div_mul_add hcs (a := i)
  omega

lemma div_lt_divCeil (hcs : 0 < cs) (hi : i < size) : i / cs < divCeil size cs := by
  rw [lt_divCeil hcs]
  have := Nat.div_mul_le_self i cs
  omega

def chunkSlice (cs size : ℕ) (f : ℕ → UInt8) (c : ℕ) : List UInt8 :=
  slice f (c * cs) (chunkExtent cs size c)

lemma chunkSlice_eq_iff {f g : ℕ → UInt8} :
    chunkSlice cs size f c = chunkSlice cs size g c ↔ ∀ i, InChunk cs size c i → f i = g i := by
  simp only [chunkSlice, slice_eq_iff, inChunk_iff, and_imp]

lemma eq_chunkSlice_iff {f : ℕ → UInt8} {data : List UInt8}
    (hlen : data.length = chunkExtent cs size c) : data = chunkSlice cs size f c ↔
      ∀ i, InChunk cs size c i → f i = data.getD (i - c * cs) 0 := by
  simp only [chunkSlice, eq_slice_iff hlen, inChunk_iff, and_imp]

lemma chunkSlice_all_zero {f : ℕ → UInt8} :
    (chunkSlice cs size f c).all (· == 0) = true ↔ ∀ i, InChunk cs size c i → f i = 0 := by
  simp only [chunkSlice, slice_all_zero, inChunk_iff, and_imp]

@[simp] lemma length_chunkSlice {f : ℕ → UInt8} :
    (chunkSlice cs size f c).length = chunkExtent cs size c :=
  length_slice _ _ _

lemma chunkExtent_grow {size' : ℕ} (hsize : size ≤ size') (hfull : c * cs + cs ≤ size) :
    chunkExtent cs size' c = chunkExtent cs size c := by
  unfold chunkExtent
  omega

lemma chunkExtent_mono {size' : ℕ} (hsize : size ≤ size') :
    chunkExtent cs size c ≤ chunkExtent cs size' c := by
  unfold chunkExtent
  omega

lemma chunkExtent_last (hcs : 0 < cs) (htail : size % cs ≠ 0) (hc : c = divCeil size cs - 1) :
    c * cs + size % cs = size ∧ chunkExtent cs size c = size % cs := by
  have hdiv : size / cs * cs + size % cs = size := by
    rw [Nat.mul_comm]
    exact Nat.div_add_mod size cs
  have hlt := Nat.mod_lt size hcs
  have hin : size / cs < divCeil size cs := (lt_divCeil hcs).mpr (by omega)
  have hout : ¬ size / cs + 1 < divCeil size cs := by
    rw [lt_divCeil hcs, Nat.succ_mul]
    omega
  obtain rfl : c = size / cs := by
    rw [hc]
    generalize size / cs = q at hin hout
    omega
  refine ⟨hdiv, ?_⟩
  unfold chunkExtent
  omega

def flagCount (flag : ℕ → Bool) (n : ℕ) : ℕ := (List.range n).countP flag

lemma flagCount_succ (flag : ℕ → Bool) (n : ℕ) :
    flagCount flag (n + 1) = flagCount flag n + (flag n).toNat := by
  unfold flagCount
  rw [List.range_succ, List.countP_append, List.countP_singleton]
  cases flag n <;> rfl

lemma flagCount_false (n : ℕ) : flagCount (fun _ => false) n = 0 :=
  List.countP_eq_zero.mpr fun _ _ => Bool.false_ne_true

lemma flagCount_le {flag : ℕ → Bool} {n bound : ℕ} (h : ∀ c, flag c = true → c < bound) :
    flagCount flag n ≤ bound := by
  induction n with
  | zero => exact Nat.zero_le _
  | succ n ih =>
    rw [flagCount_succ]
    cases hflag : flag n with
    | false => exact ih
    | true =>
      have hn := h n hflag
      have hle : flagCount flag n ≤ n := by
        have := List.countP_le_length (p := flag) (l := List.range n)
        rwa [List.length_range] at this
      rw [Bool.toNat_true]
      omega

lemma flagCount_fill {flag : ℕ → Bool} {first last n : ℕ} (hle : first ≤ last) (hn : last ≤ n)
    (hfree : ∀ c, first ≤ c → c < last → flag c = false) :
    flagCount (fun c => (first ≤ c && c < last) || flag c) n = flagCount flag n +
    (last - first) := by
  -- up to any number, those of the range that lie below it are added
  have hall : ∀ m, flagCount (fun c => (first ≤ c && c < last) || flag c) m =
      flagCount flag m + (min m last - min m first) := by
    intro m
    induction m with
    | zero =>
      rw [Nat.zero_min, Nat.zero_min]
      rfl
    | succ m ih =>
      rw [flagCount_succ, flagCount_succ, ih]
      by_cases hin : first ≤ m ∧ m < last
      · rw [hfree m hin.1 hin.2, decide_eq_true hin.1, decide_eq_true hin.2]
        simp only [Bool.and_self, Bool.or_false, Bool.toNat_true, Bool.toNat_false]
        omega
      · have hout : (decide (first ≤ m) && decide (m < last)) = false := by
          rw [← Bool.decide_and]
          exact decide_eq_false hin
        rw [hout, Bool.false_or]
        omega
  have := hall n
  rw [Nat.min_eq_right hn, Nat.min_eq_right (by omega)] at this
  exact this

end Lib
