/-
  File:      Anjay/Lib/Totals.lean
  Subject:   The total of a measure over a list, and what happens to it when the element of one key changes.

  * `total_updateAt_le`, `total_updateAt_lt`: it grows by at most what that element grows by, and shrinks with it.
  * `count_flatMap`: how often something occurs in joined lists.
-/
import Mathlib.Data.List.Nodup

namespace Anjay.Lib

variable {α β κ : Type}

/-- The total of a measure over a list. -/
def total (g : α → Nat) : List α → Nat
  | [] => 0
  | a :: as => g a + total g as

theorem total_append (g : α → Nat) : ∀ as bs : List α, total g (as ++ bs) = total g as + total g bs
  | [], _ => (Nat.zero_add _).symm
  | a :: as, bs => by
      show g a + total g (as ++ bs) = g a + total g as + total g bs
      rw [total_append g as bs, Nat.add_assoc]

theorem total_map (g : β → Nat) (f : α → β) : ∀ as : List α, total g (as.map f) = total (fun a => g (f a)) as
  | [] => rfl
  | a :: as => congrArg (g (f a) + ·) (total_map g f as)

theorem total_le {g h : α → Nat} : ∀ {as : List α}, (∀ a ∈ as, g a ≤ h a) → total g as ≤ total h as
  | [], _ => Nat.le_refl 0
  | a :: _, hle => Nat.add_le_add (hle a List.mem_cons_self) (total_le fun b hb => hle b (List.mem_cons_of_mem a hb))

theorem le_total (g : α → Nat) {a : α} : ∀ {as : List α}, a ∈ as → g a ≤ total g as
  | b :: as, h => by
      show g a ≤ g b + total g as
      rcases List.mem_cons.mp h with rfl | h
      · exact Nat.le_add_right _ _
      · exact Nat.le_trans (le_total g h) (Nat.le_add_left _ _)

theorem total_sublist (g : α → Nat) {as bs : List α} (h : as.Sublist bs) : total g as ≤ total g bs := by
  induction h with
  | slnil => exact Nat.le_refl 0
  | cons a _ ih => exact Nat.le_trans ih (Nat.le_add_left _ _)
  | cons_cons a _ ih => exact Nat.add_le_add_left ih _

theorem total_perm (g : α → Nat) {as bs : List α} (h : as.Perm bs) : total g as = total g bs := by
  induction h with
  | nil => rfl
  | cons a _ ih => exact congrArg (g a + ·) ih
  | swap a b as => exact Nat.add_left_comm _ _ _
  | trans _ _ ih ih' => exact ih.trans ih'

/-- How often `x` occurs in joined lists. -/
theorem count_flatMap [BEq β] (h : α → List β) (x : β) :
    ∀ as : List α, (as.flatMap h).count x = total (fun a => (h a).count x) as
  | [] => rfl
  | a :: as => by
      rw [List.flatMap_cons, List.count_append, count_flatMap h x as]
      rfl

section Update

variable [DecidableEq κ] {key : α → κ} {k : κ} {f : α → α}

/-- A change of the element with the key `k`. -/
def updateAt (key : α → κ) (k : κ) (f : α → α) (as : List α) : List α := as.map fun a => if key a = k then f a else a

theorem mem_updateAt {as : List α} {b : α} : b ∈ updateAt key k f as ↔ ∃ a ∈ as, (if key a = k then f a else a) = b :=
  List.mem_map

theorem updateAt_of_notMem {as : List α} (h : k ∉ as.map key) : updateAt key k f as = as := by
  refine (List.map_congr_left fun a ha => ?_).trans (List.map_id as)
  have hne : key a ≠ k := fun heq => h (heq ▸ List.mem_map_of_mem ha)
  exact if_neg hne

theorem total_updateAt_le {g : α → Nat} {n : Nat} : ∀ {as : List α}, (as.map key).Nodup →
    (∀ a ∈ as, key a = k → g (f a) ≤ n + g a) → total g (updateAt key k f as) ≤ n + total g as
  | [], _, _ => Nat.zero_le _
  | a :: as, hnodup, hle => by
      obtain ⟨ha, has⟩ := List.nodup_cons.mp hnodup
      show g (if key a = k then f a else a) + total g (updateAt key k f as) ≤ n + (g a + total g as)
      by_cases hk : key a = k
      · rw [if_pos hk, updateAt_of_notMem (hk ▸ ha)]
        have := hle a List.mem_cons_self hk
        omega
      · rw [if_neg hk]
        have := total_updateAt_le has fun b hb => hle b (List.mem_cons_of_mem a hb)
        omega

theorem total_updateAt_mono {g : α → Nat} {as : List α} (hle : ∀ a ∈ as, key a = k → g (f a) ≤ g a) :
    total g (updateAt key k f as) ≤ total g as := by
  unfold updateAt
  rw [total_map]
  refine total_le fun a ha => ?_
  split
  · exact hle a ha ‹_›
  · exact Nat.le_refl _

theorem total_updateAt_lt {g : α → Nat} : ∀ {as : List α}, (∀ a ∈ as, key a = k → g (f a) ≤ g a) →
    (∃ a ∈ as, key a = k ∧ g (f a) < g a) → total g (updateAt key k f as) < total g as
  | [], _, h => by obtain ⟨a, ha, _⟩ := h; cases ha
  | a :: as, hle, h => by
      show g (if key a = k then f a else a) + total g (updateAt key k f as) < g a + total g as
      have hrest := total_updateAt_mono fun b hb => hle b (List.mem_cons_of_mem a hb)
      obtain ⟨b, hb, hk, hlt⟩ := h
      rcases List.mem_cons.mp hb with rfl | hb
      · rw [if_pos hk]
        omega
      · have := total_updateAt_lt (fun b hb => hle b (List.mem_cons_of_mem a hb)) ⟨b, hb, hk, hlt⟩
        have hhead : g (if key a = k then f a else a) ≤ g a := by
          split
          · exact hle a List.mem_cons_self ‹_›
          · exact Nat.le_refl _
        omega

end Update

end Anjay.Lib
