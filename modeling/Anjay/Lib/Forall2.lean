/-
  File:      Anjay/Lib/Forall2.lean
  Subject:   Two lists that agree element by element.
-/
import Mathlib.Data.List.Forall2

namespace Anjay.Lib

variable {α β : Type} {R S : α → β → Prop} {as : List α} {bs : List β}

theorem forall₂_left (h : List.Forall₂ R as bs) : ∀ a ∈ as, ∃ b ∈ bs, R a b := by
  induction h with
  | nil => exact List.forall_mem_nil _
  | @cons a b as bs hab _ ih =>
      refine List.forall_mem_cons.mpr ⟨⟨b, List.mem_cons_self, hab⟩, fun x hx => ?_⟩
      obtain ⟨y, hy, hxy⟩ := ih x hx
      exact ⟨y, List.mem_cons_of_mem b hy, hxy⟩

theorem forall₂_imp_mem (h : List.Forall₂ R as bs) (himp : ∀ a ∈ as, ∀ b, R a b → S a b) : List.Forall₂ S as bs := by
  induction h with
  | nil => exact List.Forall₂.nil
  | cons hab _ ih =>
      obtain ⟨hhead, htail⟩ := List.forall_mem_cons.mp himp
      exact List.Forall₂.cons (hhead _ hab) (ih htail)

end Anjay.Lib
