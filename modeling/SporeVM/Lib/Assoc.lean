import Mathlib.Tactic.Common
import Mathlib.Data.List.Nodup

/-!
# Finite maps as association lists

A list of keys with values in which no key occurs twice. The order of the list means nothing: all
lemmas speak about what a key finds and about how many values have a property.
-/

namespace Lib

open List

variable {κ ν : Type}

structure Assoc (κ ν : Type) where
  entries : List (κ × ν)
  nodup : (entries.map Prod.fst).Nodup

namespace Assoc

def empty : Assoc κ ν := ⟨[], nodup_nil⟩

def keys (m : Assoc κ ν) : List κ := m.entries.map Prod.fst

def keep (m : Assoc κ ν) (p : κ → Bool) : Assoc κ ν where
  entries := m.entries.filter fun e => p e.1
  nodup := m.nodup.sublist (Sublist.map _ filter_sublist)

def mapValues (m : Assoc κ ν) (f : ν → ν) : Assoc κ ν where
  entries := m.entries.map fun e => (e.1, f e.2)
  nodup := by
    rw [map_map]
    exact m.nodup

def count (m : Assoc κ ν) (p : ν → Bool) : ℕ := m.entries.countP fun e => p e.2

variable [DecidableEq κ]

def find (m : Assoc κ ν) (k : κ) : Option ν := (m.entries.find? fun e => e.1 = k).map Prod.snd

def erase (m : Assoc κ ν) (k : κ) : Assoc κ ν := m.keep fun k' => k' ≠ k

def put (m : Assoc κ ν) (k : κ) (v : ν) : Assoc κ ν where
  entries := (k, v) :: (m.erase k).entries
  nodup := by
    refine nodup_cons.mpr ⟨?_, (m.erase k).nodup⟩
    intro h
    obtain ⟨e, he, hk⟩ := mem_map.mp h
    have := (mem_filter.mp he).2
    simp [hk] at this

-- ══ Finding

variable {m : Assoc κ ν}

lemma find_eq_some {k : κ} {v : ν} : m.find k = some v ↔ (k, v) ∈ m.entries := by
  obtain ⟨entries, nodup⟩ := m
  unfold find
  dsimp only
  induction entries with
  | nil => simp
  | cons e es ih =>
    obtain ⟨hnotin, hrest⟩ := nodup_cons.mp nodup
    by_cases hk : e.1 = k
    · rw [List.find?_cons_of_pos (by simpa using hk), mem_cons]
      have hnone : (k, v) ∉ es := by
        intro hmem
        exact hnotin (mem_map.mpr ⟨_, hmem, hk.symm⟩)
      simp only [Option.map_some, Option.some.injEq, hnone, or_false]
      constructor
      · rintro rfl
        rw [← hk]
      · intro h
        rw [← h]
    · rw [List.find?_cons_of_neg (by simpa using hk), ih hrest, mem_cons]
      have hne : (k, v) ≠ e := by
        rintro rfl
        exact hk rfl
      simp [hne]

lemma mem_keys {k : κ} : k ∈ m.keys ↔ ∃ v, m.find k = some v := by
  simp only [keys, mem_map, find_eq_some, Prod.exists, exists_and_right, exists_eq_right]

@[simp] lemma find_empty (k : κ) : (empty : Assoc κ ν).find k = none := rfl

lemma find_keep (m : Assoc κ ν) (p : κ → Bool) (k : κ) :
    (m.keep p).find k = if p k then m.find k else none := by
  refine Option.ext fun v => ?_
  rw [find_eq_some, keep, mem_filter]
  split
  · next h => simp [find_eq_some, h]
  · next h => simp [h]

lemma find_erase (m : Assoc κ ν) (k k' : κ) :
    (m.erase k).find k' = if k' = k then none else m.find k' := by
  rw [erase, find_keep]
  by_cases h : k' = k <;> simp [h]

lemma find_put (m : Assoc κ ν) (k k' : κ) (v : ν) :
    (m.put k v).find k' = if k' = k then some v else m.find k' := by
  refine Option.ext fun v' => ?_
  rw [find_eq_some, put, mem_cons, ← find_eq_some, find_erase]
  by_cases h : k' = k
  · simp [h, eq_comm]
  · simp [h]

lemma find_mapValues (m : Assoc κ ν) (f : ν → ν) (k : κ) :
    (m.mapValues f).find k = (m.find k).map f := by
  refine Option.ext fun v => ?_
  simp only [find_eq_some, Option.map_eq_some_iff, mapValues, mem_map, Prod.mk.injEq, Prod.exists]
  constructor
  · rintro ⟨k', v', hmem, rfl, rfl⟩
    exact ⟨v', hmem, rfl⟩
  · rintro ⟨v', hmem, rfl⟩
    exact ⟨k, v', hmem, rfl, rfl⟩

-- ══ Counting

lemma count_put (m : Assoc κ ν) (k : κ) (v : ν) (p : ν → Bool) :
    (m.put k v).count p = (m.erase k).count p + if p v then 1 else 0 := by
  rw [count, put, countP_cons, count]

lemma count_erase_of_find {k : κ} {v : ν} (h : m.find k = some v) (p : ν → Bool) :
    m.count p = (m.erase k).count p + if p v then 1 else 0 := by
  rw [find_eq_some] at h
  obtain ⟨entries, nodup⟩ := m
  unfold count erase keep
  dsimp only at h ⊢
  induction entries with
  | nil => cases h
  | cons e es ih =>
    obtain ⟨hnotin, hrest⟩ := nodup_cons.mp nodup
    rcases mem_cons.mp h with rfl | hmem
    · -- no other entry has the key
      have hkeep : es.filter (fun e => decide (e.1 ≠ k)) = es := by
        rw [filter_eq_self]
        intro e he
        simp only [ne_eq, decide_not, Bool.not_eq_true', decide_eq_false_iff_not]
        rintro rfl
        exact hnotin (mem_map.mpr ⟨e, he, rfl⟩)
      rw [countP_cons, filter_cons_of_neg (by simp), hkeep]
    · have hne : e.1 ≠ k := by
        rintro rfl
        exact hnotin (mem_map.mpr ⟨_, hmem, rfl⟩)
      rw [countP_cons, filter_cons_of_pos (by simpa using hne), countP_cons, ih hrest hmem]
      omega

lemma erase_of_find_none {k : κ} (h : m.find k = none) : m.erase k = m := by
  obtain ⟨entries, nodup⟩ := m
  unfold erase keep
  congr
  rw [filter_eq_self]
  intro e he
  simp only [ne_eq, decide_not, Bool.not_eq_true', decide_eq_false_iff_not]
  rintro rfl
  have hfind : (⟨entries, nodup⟩ : Assoc κ ν).find e.1 = some e.2 := find_eq_some.mpr he
  rw [h] at hfind
  cases hfind

lemma count_ne_zero {p : ν → Bool} : m.count p ≠ 0 ↔ ∃ k v, m.find k = some v ∧ p v = true := by
  rw [count, ← Nat.pos_iff_ne_zero, countP_pos_iff]
  simp only [Prod.exists, find_eq_some]

omit [DecidableEq κ] in
lemma count_mapValues (m : Assoc κ ν) {f : ν → ν} {p : ν → Bool} (h : ∀ v, p (f v) = p v) :
    (m.mapValues f).count p = m.count p := by
  rw [count, mapValues, countP_map, count]
  exact countP_congr fun e _ => by rw [Function.comp_apply, h]

end Assoc

end Lib
