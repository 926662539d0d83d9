/-
  File:      Anjay/Lib/Separated.lean
  Subject:   Texts that are items with a separator between them, and lists that are made of groups.

  * `intercalate_append`: what is written behind the first items, with the separator in front of each.
  * `intercalate_inj`: items without the separator can be read back.
  * `groups_inj`: groups in the order of their keys can be told apart again.
-/
import Mathlib.Order.Lattice

namespace Anjay.Lib

variable {α β γ κ : Type}

/-! ## 1. Separators -/

/-- The items, with the separator in front of each. -/
def preceded (sep : α) (items : List (List α)) : List α := items.flatMap fun item => sep :: item

@[simp] theorem preceded_nil (sep : α) : preceded sep [] = [] := rfl

@[simp] theorem preceded_cons (sep : α) (item : List α) (items : List (List α)) :
    preceded sep (item :: items) = sep :: item ++ preceded sep items := rfl

theorem preceded_append (sep : α) (as bs : List (List α)) :
    preceded sep (as ++ bs) = preceded sep as ++ preceded sep bs := List.flatMap_append

theorem intercalate_cons (sep : α) (item : List α) (items : List (List α)) :
    [sep].intercalate (item :: items) = item ++ preceded sep items := by
  induction items generalizing item with
  | nil => simp
  | cons next items ih =>
      rw [List.intercalate_cons_cons, ih next, preceded_cons, List.append_assoc]
      rfl

/-- **What is written behind the first items has the separator in front of each.** -/
theorem intercalate_append (sep : α) {as : List (List α)} (h : as ≠ []) (bs : List (List α)) :
    [sep].intercalate (as ++ bs) = [sep].intercalate as ++ preceded sep bs := by
  obtain ⟨a, as, rfl⟩ := List.exists_cons_of_ne_nil h
  rw [List.cons_append, intercalate_cons, intercalate_cons, preceded_append, List.append_assoc]

theorem preceded_eq {sep : α} {items : List (List α)} (h : items ≠ []) :
    preceded sep items = sep :: [sep].intercalate items := by
  obtain ⟨a, as, rfl⟩ := List.exists_cons_of_ne_nil h
  rw [intercalate_cons, preceded_cons]
  rfl

/-- Elements that print nothing print no separator either. -/
theorem flatMap_preceded (sep : α) (p : β → Bool) (text : β → List α) (bs : List β) :
    (bs.flatMap fun b => if p b then sep :: text b else []) = preceded sep ((bs.filter p).map text) := by
  induction bs with
  | nil => rfl
  | cons b bs ih =>
      rw [List.flatMap_cons, ih]
      cases hp : p b with
      | true =>
          rw [List.filter_cons_of_pos hp, List.map_cons, preceded_cons]
          rfl
      | false =>
          rw [List.filter_cons_of_neg (ne_true_of_eq_false hp)]
          rfl

theorem preceded_flatMap (sep : α) (items : β → List (List α)) (bs : List β) :
    bs.flatMap (fun b => preceded sep (items b)) = preceded sep (bs.flatMap items) := by
  rw [preceded, List.flatMap_assoc]
  rfl

theorem intercalate_eq_nil {sep : α} {items : List (List α)} (hne : ∀ item ∈ items, item ≠ [])
    (h : [sep].intercalate items = []) : items = [] := by
  cases items with
  | nil => rfl
  | cons item items =>
      rw [intercalate_cons] at h
      exact absurd (List.append_eq_nil_iff.mp h).1 (hne item List.mem_cons_self)

/-- **Items that are not empty and do not contain the separator can be read back.** -/
theorem intercalate_inj [DecidableEq α] {sep : α} {as bs : List (List α)}
    (ha : ∀ a ∈ as, a ≠ [] ∧ sep ∉ a) (hb : ∀ b ∈ bs, b ≠ [] ∧ sep ∉ b)
    (h : [sep].intercalate as = [sep].intercalate bs) : as = bs := by
  by_cases has : as = []
  · rw [has] at h ⊢
    exact (intercalate_eq_nil (fun b hm => (hb b hm).1) h.symm).symm
  by_cases hbs : bs = []
  · rw [hbs] at h
    exact absurd (intercalate_eq_nil (fun a hm => (ha a hm).1) h) has
  rw [← List.splitOn_intercalate sep (fun a hm => (ha a hm).2) has, h,
    List.splitOn_intercalate sep (fun b hm => (hb b hm).2) hbs]

theorem preceded_inj [DecidableEq α] {sep : α} {as bs : List (List α)} (ha : ∀ a ∈ as, sep ∉ a)
    (hb : ∀ b ∈ bs, sep ∉ b) (h : preceded sep as = preceded sep bs) : as = bs := by
  have hread : ∀ {items : List (List α)}, (∀ item ∈ items, sep ∉ item) →
      (preceded sep items).splitOn sep = [] :: items := by
    intro items hitems
    have hjoin : [sep].intercalate ([] :: items) = preceded sep items := intercalate_cons sep [] items
    rw [← hjoin]
    exact List.splitOn_intercalate sep (List.forall_mem_cons.mpr ⟨List.not_mem_nil, hitems⟩)
      (List.cons_ne_nil _ _)
  have hboth := hread ha
  rw [h, hread hb] at hboth
  exact (List.cons.inj hboth).2.symm

/-! ## 2. Groups -/

/-- The first group is what has the first key: everything behind it has a greater one. -/
theorem filter_group [LinearOrder κ] {group : α → List γ} {key : α → κ} {keyOf : γ → κ} {k : κ} {front : List γ}
    {as : List α} (hfront : ∀ x ∈ front, keyOf x = k) (hlt : ∀ a ∈ as, k < key a)
    (has : ∀ a ∈ as, ∀ x ∈ group a, keyOf x = key a) :
    (front ++ as.flatMap group).filter (fun x => decide (keyOf x = k)) = front := by
  have hrest : (as.flatMap group).filter (fun x => decide (keyOf x = k)) = [] := by
    refine List.filter_eq_nil_iff.mpr fun x hx heq => ?_
    obtain ⟨a, ha, hxa⟩ := List.mem_flatMap.mp hx
    have hk := has a ha x hxa
    exact absurd (of_decide_eq_true heq) (by rw [hk]; exact (hlt a ha).ne')
  rw [List.filter_append, hrest, List.append_nil,
    List.filter_eq_self.mpr fun x hx => decide_eq_true (hfront x hx)]

/-- **Groups that are not empty and stand in the order of their keys can be told apart again.** -/
theorem groups_inj [LinearOrder κ] {group : α → List γ} {group' : β → List γ} {key : α → κ} {key' : β → κ}
    {keyOf : γ → κ} : ∀ {as : List α} {bs : List β},
      (as.Pairwise fun a b => key a < key b) → (bs.Pairwise fun a b => key' a < key' b) →
      (∀ a ∈ as, group a ≠ [] ∧ ∀ x ∈ group a, keyOf x = key a) →
      (∀ b ∈ bs, group' b ≠ [] ∧ ∀ x ∈ group' b, keyOf x = key' b) →
      as.flatMap group = bs.flatMap group' → as.map group = bs.map group'
  | [], [], _, _, _, _, _ => rfl
  | [], b :: bs, _, _, _, hb, h => by
      have hnil := (List.append_eq_nil_iff.mp h.symm).1
      exact absurd hnil (hb b List.mem_cons_self).1
  | a :: as, [], _, _, ha, _, h => by
      have hnil := (List.append_eq_nil_iff.mp h).1
      exact absurd hnil (ha a List.mem_cons_self).1
  | a :: as, b :: bs, hsa, hsb, ha, hb, h => by
      rw [List.flatMap_cons, List.flatMap_cons] at h
      obtain ⟨hane, hakey⟩ := ha a List.mem_cons_self
      obtain ⟨hbne, hbkey⟩ := hb b List.mem_cons_self
      obtain ⟨hahead, hsa⟩ := List.pairwise_cons.mp hsa
      obtain ⟨hbhead, hsb⟩ := List.pairwise_cons.mp hsb
      have hkey : key a = key' b := by
        obtain ⟨x, xs, hx⟩ := List.exists_cons_of_ne_nil hane
        obtain ⟨y, ys, hy⟩ := List.exists_cons_of_ne_nil hbne
        rw [hx, hy] at h
        have hxy : x = y := (List.cons.inj h).1
        rw [← hakey x (by rw [hx]; exact List.mem_cons_self), hxy,
          hbkey y (by rw [hy]; exact List.mem_cons_self)]
      have hgroup : group a = group' b := by
        rw [← filter_group hakey hahead fun d hd => (ha d (List.mem_cons_of_mem _ hd)).2, h, hkey,
          filter_group hbkey hbhead fun d hd => (hb d (List.mem_cons_of_mem _ hd)).2]
      rw [hgroup] at h
      rw [List.map_cons, List.map_cons, hgroup, groups_inj hsa hsb
        (fun d hd => ha d (List.mem_cons_of_mem _ hd)) (fun d hd => hb d (List.mem_cons_of_mem _ hd))
        (List.append_cancel_left h)]

end Anjay.Lib
