import Mathlib.Data.Nat.ModEq

/-!
# Ring buffers

A queue in an array of fixed size: the first element stands at `head`, the others in the slots
after it, going round at the end of the array. The slots that are not in use hold anything.
-/

namespace Lib

open List

variable {α : Type} {n : ℕ}

structure Ring (α : Type) (n : ℕ) where
  slots : ℕ → α
  head : ℕ
  count : ℕ
  head_lt : head < n
  count_le : count ≤ n

namespace Ring

def toList (r : Ring α n) : List α :=
  (range r.count).map fun i => r.slots ((r.head + i) % n)

def push (r : Ring α n) (a : α) (h : r.count < n) : Ring α n where
  slots := Function.update r.slots ((r.head + r.count) % n) a
  head := r.head
  count := r.count + 1
  head_lt := r.head_lt
  count_le := h

def pop (r : Ring α n) : Ring α n where
  slots := r.slots
  head := (r.head + 1) % n
  count := r.count - 1
  head_lt := Nat.mod_lt _ (Nat.lt_of_le_of_lt (Nat.zero_le _) r.head_lt)
  count_le := (Nat.sub_le _ _).trans r.count_le

@[simp] lemma length_toList (r : Ring α n) : r.toList.length = r.count := by
  simp [toList]

lemma slot_ne {head i j : ℕ} (hi : i < n) (hj : j < n) (hne : i ≠ j) :
    (head + i) % n ≠ (head + j) % n := by
  intro h
  apply hne
  have hmod := Nat.ModEq.add_left_cancel' (n := n) head h
  rw [Nat.ModEq, Nat.mod_eq_of_lt hi, Nat.mod_eq_of_lt hj] at hmod
  exact hmod

lemma toList_push (r : Ring α n) (a : α) (h : r.count < n) :
    (r.push a h).toList = r.toList ++ [a] := by
  have hlast : (r.push a h).slots ((r.head + r.count) % n) = a := Function.update_self ..
  have hfirst : ∀ i ∈ range r.count,
      (r.push a h).slots ((r.head + i) % n) = r.slots ((r.head + i) % n) := by
    intro i hi
    rw [mem_range] at hi
    exact Function.update_of_ne (slot_ne (hi.trans h) h hi.ne) _ _
  calc (r.push a h).toList
      = (range (r.count + 1)).map fun i => (r.push a h).slots ((r.head + i) % n) := rfl
    _ = r.toList ++ [a] := by
      rw [range_succ, map_append, map_singleton, hlast, map_congr_left hfirst, toList]

lemma toList_pop (r : Ring α n) (h : r.count ≠ 0) : r.toList = r.slots r.head :: r.pop.toList := by
  have hcount : r.count = r.count - 1 + 1 := by omega
  have hfirst : r.slots ((r.head + 0) % n) = r.slots r.head := by
    rw [Nat.add_zero, Nat.mod_eq_of_lt r.head_lt]
  rw [toList, hcount, range_succ_eq_map, map_cons, map_map, hfirst]
  congr 1
  apply map_congr_left
  intro i _
  show r.slots ((r.head + i.succ) % n) = r.slots (((r.head + 1) % n + i) % n)
  rw [Nat.mod_add_mod, Nat.succ_eq_add_one, Nat.add_right_comm, Nat.add_assoc]

end Ring

end Lib
