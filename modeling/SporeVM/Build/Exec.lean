import Mathlib.Data.List.Infix
import SporeVM.Lib.PathText

/-!
# Finding a full disk in the output of a build

The output of a build step is searched for messages of a full disk, piece by piece as it arrives.
A message may lie across any number of pieces, so the end of the output so far is kept.
-/

namespace SporeVM.Exec

open Lib.PathText (Text)
open List

def enospcPatterns : List Text :=
  ["SPORE_BUILD_ENOSPC".toList, "No space left on device".toList, "ENOSPC".toList]

def maxEnospcPatternLen : ℕ := "No space left on device".length

structure EnospcDetector where
  seen : Bool := false
  tail : Text := []

namespace EnospcDetector

/-- Whether a pattern begins at the end of the tail and ends at the start of the piece. -/
def spans (tail bytes pattern : Text) : Bool :=
  (range' 1 (pattern.length - 1)).any fun split =>
    !(decide (split > tail.length) || decide (pattern.length - split > bytes.length)) &&
      (decide (pattern.take split <:+ tail) && decide (pattern.drop split <+: bytes))

def retainTail (tail bytes : Text) : Text :=
  let capacity := maxEnospcPatternLen - 1
  if bytes.length ≥ capacity then bytes.drop (bytes.length - capacity)
  else
    let merged := tail ++ bytes
    merged.drop (merged.length - min capacity merged.length)

def observe (self : EnospcDetector) (bytes : Text) : EnospcDetector :=
  if self.seen = true ∨ bytes.length = 0 then self
  else if enospcPatterns.any fun pattern =>
      decide (pattern <:+: bytes) || spans self.tail bytes pattern then
    { self with seen := true }
  else { self with tail := retainTail self.tail bytes }

/-- The end of the output that is kept. -/
def lastOf (output : Text) : Text := output.drop (output.length - (maxEnospcPatternLen - 1))

lemma retainTail_lastOf (output bytes : Text) :
    retainTail (lastOf output) bytes = lastOf (output ++ bytes) := by
  unfold retainTail lastOf
  generalize maxEnospcPatternLen - 1 = capacity
  dsimp only
  split
  · next hlong =>
    rw [length_append, Nat.add_sub_assoc hlong, drop_append, drop_of_length_le
      (Nat.le_add_right _ _), nil_append, Nat.add_sub_cancel_left]
  · next hshort =>
    rw [← drop_append_of_le_length (Nat.sub_le _ _), drop_drop]
    congr 1
    simp only [length_drop, length_append]
    omega

lemma length_of_mem : ∀ pattern ∈ enospcPatterns, pattern.length ≤ maxEnospcPatternLen := by decide

/-- A pattern that lies across the seam is found with what is kept of the output. -/
theorem infix_append_iff {output bytes pattern : Text}
    (hlen : pattern.length ≤ maxEnospcPatternLen) :
    pattern <:+: output ++ bytes ↔
      pattern <:+: output ∨ pattern <:+: bytes ∨ spans (lastOf output) bytes pattern = true := by
  rw [infix_append_iff_ne_nil]
  refine or_congr_right (or_congr_right ?_)
  simp only [spans, any_eq_true, mem_range'_1, Bool.and_eq_true, Bool.not_eq_true',
    Bool.or_eq_false_iff, decide_eq_false_iff_not, decide_eq_true_eq]
  constructor
  · rintro ⟨first, rest, hfirst, hrest, rfl, hsuffix, hstart⟩
    have hfirst := length_pos_iff.mpr hfirst
    have hrest := length_pos_iff.mpr hrest
    rw [length_append] at hlen
    have hkept : first <:+ lastOf output := by
      refine suffix_of_suffix_length_le hsuffix (drop_suffix _ _) ?_
      have := hsuffix.length_le
      rw [lastOf, length_drop]
      omega
    have hends := hkept.length_le
    have hstarts := hstart.length_le
    refine ⟨first.length, ?_⟩
    rw [take_left, drop_left, length_append]
    exact ⟨by omega, by omega, hkept, hstart⟩
  · rintro ⟨split, hsplit, -, hkept, hstart⟩
    refine ⟨pattern.take split, pattern.drop split, ?_, ?_, (take_append_drop _ _).symm,
      hkept.trans (drop_suffix _ _), hstart⟩
    · rw [← length_pos_iff, length_take]
      omega
    · rw [← length_pos_iff, length_drop]
      omega

def Found (output : Text) : Prop := ∃ pattern ∈ enospcPatterns, pattern <:+: output

/-- What the detector knows of the output so far. -/
def Knows (self : EnospcDetector) (output : Text) : Prop :=
  (self.seen = true ↔ Found output) ∧ (self.seen = false → self.tail = lastOf output)

lemma Knows.observe {self : EnospcDetector} {output : Text} (h : self.Knows output)
    (bytes : Text) : (self.observe bytes).Knows (output ++ bytes) := by
  obtain ⟨hseen, htail⟩ := h
  have hmore : Found output → Found (output ++ bytes) := by
    rintro ⟨pattern, hmem, hfound⟩
    exact ⟨pattern, hmem, hfound.trans (prefix_append _ _).isInfix⟩
  unfold EnospcDetector.observe
  split
  · next hdone =>
    rcases hdone with hdone | hempty
    · exact ⟨by simp [hdone, hmore (hseen.mp hdone)], by simp [hdone]⟩
    · rw [length_eq_zero_iff.mp hempty, append_nil]
      exact ⟨hseen, htail⟩
  next hdone =>
  rw [not_or, Bool.not_eq_true] at hdone
  have hnone : ¬Found output := fun hfound => by simp [hseen.mpr hfound] at hdone
  have hiff : Found (output ++ bytes) ↔ (enospcPatterns.any fun pattern =>
      decide (pattern <:+: bytes) || spans self.tail bytes pattern) = true := by
    rw [htail hdone.1, any_eq_true]
    refine exists_congr fun pattern => and_congr_right fun hmem => ?_
    rw [infix_append_iff (length_of_mem pattern hmem), Bool.or_eq_true, decide_eq_true_eq]
    exact or_iff_right fun hfound => hnone ⟨pattern, hmem, hfound⟩
  split
  · next hfound => exact ⟨by simpa using hiff.mpr hfound, by simp⟩
  · next hfound =>
    refine ⟨by simp [hdone.1, hiff, hfound], fun _ => ?_⟩
    rw [htail hdone.1, retainTail_lastOf]

/-- **Finding a full disk.** However the output is cut into pieces, the detector has seen a full
disk exactly if the output holds one of the messages. -/
theorem observed_seen_iff (pieces : List Text) : (pieces.foldl observe {}).seen = true ↔
      ∃ pattern ∈ enospcPatterns, pattern <:+: pieces.flatten := by
  have hall : ∀ (pieces : List Text) (self : EnospcDetector) (output : Text), self.Knows output →
      (pieces.foldl observe self).Knows (output ++ pieces.flatten) := by
    intro pieces
    induction pieces with
    | nil => simp
    | cons bytes pieces ih =>
      intro self output h
      simpa [append_assoc] using ih _ _ (h.observe bytes)
  have hstart : Knows {} [] := ⟨by simp [Found, enospcPatterns], fun _ => rfl⟩
  exact (hall pieces {} [] hstart).1

end EnospcDetector

end SporeVM.Exec
