import Mathlib.Data.List.Basic

/-!
# Self-delimiting encodings

An encoding is self-delimiting when its words can be read off the front of any continuation. A
concatenation of such words determines each of them, so a message made of them determines the
values it was made from.
-/

namespace Lib

open List

variable {α β γ : Type*}

def SelfDelimiting (encode : α → List β) (P : α → Prop) : Prop :=
  ∀ ⦃a b : α⦄ ⦃r s : List β⦄, P a → P b → encode a ++ r = encode b ++ s → a = b ∧ r = s

namespace SelfDelimiting

variable {encode : α → List β} {P : α → Prop}

lemma of_length {n : ℕ} (hlen : ∀ a, (encode a).length = n)
    (hinj : ∀ ⦃a b⦄, P a → P b → encode a = encode b → a = b) : SelfDelimiting encode P := by
  intro a b r s ha hb h
  obtain ⟨hword, hrest⟩ := append_inj h (by rw [hlen, hlen])
  exact ⟨hinj ha hb hword, hrest⟩

lemma comp (hencode : SelfDelimiting encode P) {f : γ → α} {Q : γ → Prop}
    (hP : ∀ c, Q c → P (f c)) (hinj : ∀ ⦃c d⦄, Q c → Q d → f c = f d → c = d) :
    SelfDelimiting (fun c => encode (f c)) Q := by
  intro c d r s hc hd h
  obtain ⟨heq, hrest⟩ := hencode (hP c hc) (hP d hd) h
  exact ⟨hinj hc hd heq, hrest⟩

lemma lengthFirst {length : ℕ → List β} {Q : ℕ → Prop} (hlength : SelfDelimiting length Q)
    {content : γ → List β} {P : γ → Prop} (hQ : ∀ c, P c → Q (content c).length)
    (hinj : ∀ ⦃c d⦄, P c → P d → content c = content d → c = d) :
    SelfDelimiting (fun c => length (content c).length ++ content c) P := by
  intro c d r s hc hd h
  rw [append_assoc, append_assoc] at h
  -- the lengths come first, and equal lengths end the contents at the same place
  obtain ⟨hlen, h⟩ := hlength (hQ c hc) (hQ d hd) h
  obtain ⟨hcontent, hrest⟩ := append_inj h hlen
  exact ⟨hinj hc hd hcontent, hrest⟩

lemma optional (hencode : SelfDelimiting encode P) {present absent : β} (hmark : present ≠ absent)
    {optional : Option α → List β} (hnone : optional none = [absent])
    (hsome : ∀ a, optional (some a) = present :: encode a) :
    SelfDelimiting optional (fun o => ∀ a ∈ o, P a) := by
  intro o o' r s ho ho' h
  cases o with
  | none =>
    cases o' with
    | none =>
      rw [hnone] at h
      exact ⟨rfl, append_cancel_left h⟩
    | some b =>
      rw [hnone, hsome, singleton_append, cons_append] at h
      exact absurd (cons.inj h).1.symm hmark
  | some a =>
    cases o' with
    | none =>
      rw [hnone, hsome, singleton_append, cons_append] at h
      exact absurd (cons.inj h).1 hmark
    | some b =>
      rw [hsome, hsome, cons_append, cons_append] at h
      obtain ⟨rfl, hrest⟩ := hencode (ho a rfl) (ho' b rfl) (cons.inj h).2
      exact ⟨rfl, hrest⟩

end SelfDelimiting

end Lib
