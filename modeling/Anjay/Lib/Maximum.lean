/-
  File:      Anjay/Lib/Maximum.lean
  Subject:   The maximum that a loop over a list keeps.

  * `runningMax_last`: the loop that also replaces an equal maximum ends with the last one.
  * `FirstMax.exists`, `FirstMax.unique`: the first maximum is there, and there is one only.
-/
import Mathlib.Data.List.Induction
import Mathlib.Data.Nat.Basic

namespace Anjay.Lib

variable {α β : Type}

/-- The first element of the highest score. -/
def FirstMax (score : α → Nat) (xs : List α) (a : α) : Prop :=
  ∃ front back, xs = front ++ a :: back ∧ (∀ b ∈ front, score b < score a) ∧ ∀ b ∈ back, score b ≤ score a

/-- The last element of the highest score. -/
def LastMax (score : α → Nat) (xs : List α) (a : α) : Prop :=
  ∃ front back, xs = front ++ a :: back ∧ (∀ b ∈ front, score b ≤ score a) ∧ ∀ b ∈ back, score b < score a

/-! ## 1. First maxima -/

theorem FirstMax.mem {score : α → Nat} {xs : List α} {a : α} (h : FirstMax score xs a) : a ∈ xs := by
  obtain ⟨front, back, rfl, -, -⟩ := h
  simp

theorem FirstMax.le {score : α → Nat} {xs : List α} {a b : α} (h : FirstMax score xs a) (hb : b ∈ xs) :
    score b ≤ score a := by
  obtain ⟨front, back, rfl, hfront, hback⟩ := h
  rcases List.mem_append.mp hb with hb | hb
  · exact Nat.le_of_lt (hfront b hb)
  · rcases List.mem_cons.mp hb with rfl | hb
    · exact le_refl _
    · exact hback b hb

theorem FirstMax.exists (score : α → Nat) {xs : List α} (hne : xs ≠ []) : ∃ a, FirstMax score xs a := by
  induction xs with
  | nil => exact absurd rfl hne
  | cons x xs ih =>
      by_cases htail : ∃ b ∈ xs, score x < score b
      · obtain ⟨b, hb, hlt⟩ := htail
        obtain ⟨a, ha⟩ := ih (List.ne_nil_of_mem hb)
        have hxa : score x < score a := lt_of_lt_of_le hlt (ha.le hb)
        obtain ⟨front, back, rfl, hfront, hback⟩ := ha
        exact ⟨a, x :: front, back, rfl, List.forall_mem_cons.mpr ⟨hxa, hfront⟩, hback⟩
      · refine ⟨x, [], xs, rfl, List.forall_mem_nil _, fun b hb => ?_⟩
        exact not_lt.mp fun hlt => htail ⟨b, hb, hlt⟩

/-- Where a first maximum comes later, all in front of it have a lower score. -/
theorem FirstMax.unique {score : α → Nat} {xs : List α} {a b : α} (ha : FirstMax score xs a)
    (hb : FirstMax score xs b) : a = b := by
  obtain ⟨front, back, hxs, hfront, hback⟩ := ha
  induction front generalizing xs with
  | nil =>
      subst hxs
      obtain ⟨front', back', hxs', hfront', -⟩ := id hb
      cases front' with
      | nil => exact (List.cons.inj hxs').1
      | cons c front' =>
          have hac : a = c := (List.cons.inj hxs').1
          have hlt : score a < score b := by
            rw [hac]
            exact hfront' c List.mem_cons_self
          have hle : score b ≤ score a := by
            rcases List.mem_cons.mp hb.mem with rfl | hmem
            · exact le_refl _
            · exact hback b hmem
          omega
  | cons c front ih =>
      subst hxs
      have hca : score c < score a := hfront c List.mem_cons_self
      obtain ⟨front', back', hxs', hfront', hback'⟩ := id hb
      cases front' with
      | nil =>
          obtain ⟨rfl, -⟩ := List.cons.inj hxs'
          have hle : score a ≤ score c := hb.le (by simp)
          omega
      | cons d front' =>
          obtain ⟨-, hrest⟩ := List.cons.inj hxs'
          exact ih ⟨front', back', hrest, fun x hx => hfront' x (List.mem_cons_of_mem d hx), hback'⟩ rfl
            fun x hx => hfront x (List.mem_cons_of_mem c hx)

/-! ## 2. Last maxima -/

theorem LastMax.mem {score : α → Nat} {xs : List α} {a : α} (h : LastMax score xs a) : a ∈ xs := by
  obtain ⟨front, back, rfl, -, -⟩ := h
  simp

theorem LastMax.le {score : α → Nat} {xs : List α} {a b : α} (h : LastMax score xs a) (hb : b ∈ xs) :
    score b ≤ score a := by
  obtain ⟨front, back, rfl, hfront, hback⟩ := h
  rcases List.mem_append.mp hb with hb | hb
  · exact hfront b hb
  · rcases List.mem_cons.mp hb with rfl | hb
    · exact le_refl _
    · exact Nat.le_of_lt (hback b hb)

/-- A new element of at least the highest score is the last maximum. -/
theorem LastMax.replaced {score : α → Nat} {xs : List α} {x : α} (h : ∀ b ∈ xs, score b ≤ score x) :
    LastMax score (xs ++ [x]) x := ⟨xs, [], rfl, h, List.forall_mem_nil _⟩

theorem LastMax.kept {score : α → Nat} {xs : List α} {a x : α} (h : LastMax score xs a) (hx : score x < score a) :
    LastMax score (xs ++ [x]) a := by
  obtain ⟨front, back, rfl, hfront, hback⟩ := h
  refine ⟨front, back ++ [x], by simp, hfront, fun b hb => ?_⟩
  rcases List.mem_append.mp hb with hb | hb
  · exact hback b hb
  · rwa [List.mem_singleton.mp hb]

/-- **A loop that also replaces an equal maximum ends with the last one.** -/
theorem runningMax_last (score : α → Nat) (f : α → β) (start : β) {xs : List α} (hne : xs ≠ []) :
    ∃ a, LastMax score xs a ∧
      xs.foldl (fun best x => if best.2 ≤ score x then (f x, score x) else best) (start, 0) = (f a, score a) := by
  induction xs using List.reverseRecOn with
  | nil => exact absurd rfl hne
  | append_singleton xs x ih =>
      rw [List.foldl_append, List.foldl_cons, List.foldl_nil]
      by_cases hnil : xs = []
      · subst hnil
        exact ⟨x, LastMax.replaced (List.forall_mem_nil _), if_pos (Nat.zero_le _)⟩
      · obtain ⟨a, ha, hfold⟩ := ih hnil
        rw [hfold]
        by_cases hle : score a ≤ score x
        · exact ⟨x, LastMax.replaced fun b hb => Nat.le_trans (ha.le hb) hle, if_pos hle⟩
        · exact ⟨a, ha.kept (not_le.mp hle), if_neg hle⟩

end Anjay.Lib
