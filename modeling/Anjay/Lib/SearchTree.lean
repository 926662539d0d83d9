/-
  File:      Anjay/Lib/SearchTree.lean
  Subject:   Binary search trees under a three-way comparison function: bounds, successors, ranges.

  * `boundFrom_eq`: the descent for a bound finds the first element from the bound on.
  * `next_eq`: the successor of an element is the element after it in order.
  * `range_split`: the elements between two bounds stand together, from the lower bound of the one
    key to the upper bound of the other.
-/
import Mathlib.Order.Lattice
import Mathlib.Data.List.Basic

namespace Anjay.Lib

variable {α κ : Type}

/-! ## 1. Trees -/

/-- A binary tree. Colours and parent pointers, which only matter to rebalancing, are left out. -/
inductive Tree (α : Type)
  | leaf
  | node (left : Tree α) (value : α) (right : Tree α)

namespace Tree

/-- The elements in order. -/
def toList : Tree α → List α
  | leaf => []
  | node l x r => l.toList ++ x :: r.toList

/-- The descent for the first element with `p`; `result` is where it last went left. -/
def boundFrom (p : α → Bool) : Tree α → Option α → Option α
  | leaf, result => result
  | node l x r, result => if p x then boundFrom p l (some x) else boundFrom p r result

/-- The leftmost element. -/
def min? : Tree α → Option α
  | leaf => none
  | node leaf x _ => some x
  | node (node l y r) _ _ => min? (node l y r)

/-- The successor of the element `a`: the leftmost element of its right subtree, or else the nearest
    element above it that has it on the left (`above`, on the way down). -/
def nextFrom (cmp : α → α → Int) (a : α) : Tree α → Option α → Option α
  | leaf, _ => none
  | node l x r, above =>
      if cmp a x < 0 then nextFrom cmp a l (some x)
      else if 0 < cmp a x then nextFrom cmp a r above
      else
        match r with
        | leaf => above
        | node l' y r' => min? (node l' y r')

theorem min?_eq : ∀ t : Tree α, t.min? = t.toList.head?
  | leaf => rfl
  | node leaf x r => rfl
  | node (node l y r') x r => by
      have ih := min?_eq (node l y r')
      rw [min?, ih]
      simp only [toList, List.append_assoc, List.head?_append, List.cons_append, List.head?_cons]

theorem nextFrom_node (cmp : α → α → Int) (a : α) (l : Tree α) (x : α) (r : Tree α)
    (above : Option α) : nextFrom cmp a (node l x r) above
      = if cmp a x < 0 then nextFrom cmp a l (some x)
        else if 0 < cmp a x then nextFrom cmp a r above
        else r.toList.head?.or above := by
  cases r with
  | leaf => rfl
  | node l' y r' =>
      have hne : (node l' y r').toList ≠ [] :=
        List.append_ne_nil_of_right_ne_nil _ (List.cons_ne_nil _ _)
      obtain ⟨z, zs, hz⟩ := List.exists_cons_of_ne_nil hne
      have hmin : min? (node l' y r') = (node l' y r').toList.head?.or above := by
        rw [min?_eq, hz]
        rfl
      rw [← hmin]
      rfl

/-- **The descent finds the first element with `p`**, when all elements after one with `p` have it. -/
theorem boundFrom_eq (p : α → Bool) : ∀ (t : Tree α) (result : Option α),
    t.toList.Pairwise (fun a b => p a = true → p b = true) →
    boundFrom p t result = (t.toList.find? p).or result
  | leaf, _, _ => rfl
  | node l x r, result, h => by
      simp only [toList, List.pairwise_append, List.pairwise_cons] at h
      obtain ⟨hl, ⟨-, hr⟩, hlr⟩ := h
      rw [boundFrom, toList, List.find?_append]
      by_cases hx : p x = true
      · rw [if_pos hx, boundFrom_eq p l (some x) hl, List.find?_cons_of_pos hx, Option.or_assoc]
        rfl
      · have hnone : l.toList.find? p = none :=
          List.find?_eq_none.mpr fun a ha hpa => hx (hlr a ha x List.mem_cons_self hpa)
        rw [if_neg hx, boundFrom_eq p r result hr, hnone, List.find?_cons_of_neg hx, Option.none_or]

end Tree

/-! ## 2. Comparison functions -/

/-- The sign of `cmp` is the order of the keys. -/
structure Reflects [LinearOrder κ] (cmp : α → α → Int) (key : α → κ) : Prop where
  lt : ∀ a b, cmp a b < 0 ↔ key a < key b
  gt : ∀ a b, 0 < cmp a b ↔ key b < key a

theorem Reflects.le [LinearOrder κ] {cmp : α → α → Int} {key : α → κ} (h : Reflects cmp key)
    (a b : α) : cmp a b ≤ 0 ↔ key a ≤ key b := by
  rw [← Int.not_lt, h.gt, not_lt]

/-- A search tree carries the order of its elements. -/
structure SearchTree (cmp : α → α → Int) where
  tree : Tree α
  sorted : tree.toList.Pairwise fun a b => cmp a b < 0

namespace SearchTree

variable {cmp : α → α → Int}

def toList (t : SearchTree cmp) : List α := t.tree.toList

/-- The first element that is not less than `value`. -/
def lowerBound (t : SearchTree cmp) (value : α) : Option α :=
  t.tree.boundFrom (fun x => cmp value x ≤ 0) none

/-- The first element that is greater than `value`. -/
def upperBound (t : SearchTree cmp) (value : α) : Option α :=
  t.tree.boundFrom (fun x => cmp value x < 0) none

/-- The element after `a`. -/
def next (t : SearchTree cmp) (a : α) : Option α := t.tree.nextFrom cmp a none

/-- The elements that are neither less than `lo` nor greater than `hi`. -/
def range (t : SearchTree cmp) (lo hi : α) : List α :=
  t.toList.filter fun x => cmp lo x ≤ 0 ∧ ¬ cmp hi x < 0

variable [LinearOrder κ] {key : α → κ}

/-! ## 3. Successors -/

theorem nextFrom_eq (hc : Reflects cmp key) {a : α} : ∀ (t : Tree α) (above : Option α),
    t.toList.Pairwise (fun a b => cmp a b < 0) → a ∈ t.toList →
    t.nextFrom cmp a above = (t.toList.find? fun x => cmp a x < 0).or above
  | .leaf, _, _, h => absurd h List.not_mem_nil
  | .node l x r, above, hs, ha => by
      have hs' := hs
      simp only [Tree.toList, List.pairwise_append, List.pairwise_cons, hc.lt] at hs'
      obtain ⟨hl, ⟨hxr, hr⟩, hlr⟩ := hs'
      have hlx : ∀ y ∈ l.toList, key y < key x := fun y hy => hlr y hy x List.mem_cons_self
      -- an element that is not less than `x` finds nothing on the left
      have hleft : key x ≤ key a → l.toList.find? (fun x => decide (cmp a x < 0)) = none := by
        intro hxa
        refine List.find?_eq_none.mpr fun y hy hay => ?_
        rw [decide_eq_true_eq, hc.lt] at hay
        exact lt_asymm hay ((hlx y hy).trans_le hxa)
      rw [Tree.nextFrom_node, Tree.toList, List.find?_append]
      rcases lt_trichotomy (key a) (key x) with hlt | heq | hgt
      · have hmem : a ∈ l.toList := by
          rcases List.mem_append.mp ha with h | h
          · exact h
          · rcases List.mem_cons.mp h with rfl | h
            · exact absurd hlt (lt_irrefl _)
            · exact absurd hlt (lt_asymm (hxr a h))
        have hcmp : cmp a x < 0 := (hc.lt a x).mpr hlt
        rw [if_pos hcmp, nextFrom_eq hc l (some x) (hl.imp fun h => (hc.lt _ _).mpr h) hmem,
          List.find?_cons_of_pos (p := fun x => decide (cmp a x < 0)) (decide_eq_true hcmp),
          Option.or_assoc]
        rfl
      · have h1 : ¬ cmp a x < 0 := fun h => heq.not_lt ((hc.lt a x).mp h)
        have h2 : ¬ 0 < cmp a x := fun h => heq.not_gt ((hc.gt a x).mp h)
        have hright : r.toList.find? (fun y => decide (cmp a y < 0)) = r.toList.head? := by
          cases hr0 : r.toList with
          | nil => rfl
          | cons y ys =>
              have hy : cmp a y < 0 := by
                rw [hc.lt, heq]
                exact hxr y (by rw [hr0]; exact List.mem_cons_self)
              exact List.find?_cons_of_pos (decide_eq_true hy)
        rw [if_neg h1, if_neg h2, hleft heq.ge, Option.none_or,
          List.find?_cons_of_neg (by rw [decide_eq_true_eq]; exact h1), hright]
      · have hmem : a ∈ r.toList := by
          rcases List.mem_append.mp ha with h | h
          · exact absurd hgt (lt_asymm (hlx a h))
          · rcases List.mem_cons.mp h with rfl | h
            · exact absurd hgt (lt_irrefl _)
            · exact h
        have h1 : ¬ cmp a x < 0 := fun h => lt_asymm hgt ((hc.lt a x).mp h)
        rw [if_neg h1, if_pos ((hc.gt a x).mpr hgt),
          nextFrom_eq hc r above (hr.imp fun h => (hc.lt _ _).mpr h) hmem, hleft hgt.le,
          Option.none_or, List.find?_cons_of_neg (by rw [decide_eq_true_eq]; exact h1)]

/-- **The successor of an element is the one after it in order.** -/
theorem next_eq (hc : Reflects cmp key) (t : SearchTree cmp) {before after : List α} {a : α}
    (h : t.toList = before ++ a :: after) : t.next a = after.head? := by
  have hs := t.sorted
  have hl : t.tree.toList = before ++ a :: after := h
  rw [next, nextFrom_eq hc t.tree none hs (by rw [hl]; simp), Option.or_none, hl]
  rw [hl, List.pairwise_append, List.pairwise_cons] at hs
  obtain ⟨-, ⟨hafter, -⟩, hbefore⟩ := hs
  have hnone : before.find? (fun x => decide (cmp a x < 0)) = none := by
    refine List.find?_eq_none.mpr fun y hy hay => ?_
    rw [decide_eq_true_eq, hc.lt] at hay
    exact lt_asymm hay ((hc.lt y a).mp (hbefore y hy a List.mem_cons_self))
  have hself : ¬ cmp a a < 0 := fun h0 => lt_irrefl _ ((hc.lt a a).mp h0)
  rw [List.find?_append, hnone, Option.none_or,
    List.find?_cons_of_neg (by rw [decide_eq_true_eq]; exact hself)]
  cases after with
  | nil => rfl
  | cons y ys =>
      exact List.find?_cons_of_pos (decide_eq_true (hafter y List.mem_cons_self))

/-! ## 4. Ranges -/

/-- A list on which `p` stays true once it is true is cut in two by `p`. -/
theorem filter_split (p : α → Bool) : ∀ {xs : List α},
    xs.Pairwise (fun a b => p a = true → p b = true) →
    xs = xs.filter (fun x => !p x) ++ xs.filter p
  | [], _ => rfl
  | x :: xs, h => by
      obtain ⟨hx, hxs⟩ := List.pairwise_cons.mp h
      by_cases hp : p x = true
      · have hall : ∀ y ∈ x :: xs, p y = true := fun y hy => by
          rcases List.mem_cons.mp hy with rfl | hy
          · exact hp
          · exact hx y hy hp
        have hnone : (x :: xs).filter (fun y => !p y) = [] :=
          List.filter_eq_nil_iff.mpr fun y hy => by simp [hall y hy]
        rw [hnone, List.filter_eq_self.mpr hall, List.nil_append]
      · have ih := filter_split p hxs
        rw [List.filter_cons_of_pos (by simp [hp]), List.filter_cons_of_neg hp, List.cons_append,
          ← ih]

/-- **The elements between two bounds stand together**, and the bounds point to the first of them and
    to the first one behind them. -/
theorem range_split (hc : Reflects cmp key) (t : SearchTree cmp) {lo hi : α}
    (hle : key lo ≤ key hi) :
    ∃ before after, t.toList = before ++ (t.range lo hi ++ after) ∧
      t.lowerBound lo = (t.range lo hi ++ after).head? ∧ t.upperBound hi = after.head? := by
  have hmono : ∀ {p : α → Bool}, (∀ a b, key a < key b → p a = true → p b = true) →
      t.toList.Pairwise fun a b => p a = true → p b = true := fun hp =>
    t.sorted.imp fun h => hp _ _ ((hc.lt _ _).mp h)
  have hlo := hmono (p := fun x => decide (cmp lo x ≤ 0)) fun a b hab ha => by
    rw [decide_eq_true_eq, hc.le] at ha ⊢
    exact ha.trans hab.le
  have hhi := hmono (p := fun x => decide (cmp hi x < 0)) fun a b hab ha => by
    rw [decide_eq_true_eq, hc.lt] at ha ⊢
    exact ha.trans hab
  -- what is behind the upper bound is behind the lower one
  have hsub : ∀ x, cmp hi x < 0 → cmp lo x ≤ 0 := fun x hx => by
    rw [hc.lt] at hx
    rw [hc.le]
    exact hle.trans hx.le
  have htail : t.toList.filter (fun x => decide (cmp lo x ≤ 0))
      = t.range lo hi ++ t.toList.filter fun x => decide (cmp hi x < 0) := by
    have hcut := filter_split (fun x => decide (cmp hi x < 0))
      (hhi.sublist (List.filter_sublist (p := fun x => decide (cmp lo x ≤ 0))))
    rw [List.filter_filter, List.filter_filter] at hcut
    rw [hcut]
    congr 1
    · refine List.filter_congr fun x _ => ?_
      by_cases h1 : cmp lo x ≤ 0 <;> by_cases h2 : cmp hi x < 0 <;> simp [h1, h2]
    · refine List.filter_congr fun x _ => ?_
      by_cases h2 : cmp hi x < 0
      · simp [h2, hsub x h2]
      · simp [h2]
  refine ⟨t.toList.filter fun x => !decide (cmp lo x ≤ 0),
    t.toList.filter fun x => decide (cmp hi x < 0), ?_, ?_, ?_⟩
  · rw [← htail]
    exact filter_split _ hlo
  · rw [← htail, lowerBound, Tree.boundFrom_eq _ _ _ hlo, Option.or_none]
    exact List.head?_filter.symm
  · rw [upperBound, Tree.boundFrom_eq _ _ _ hhi, Option.or_none]
    exact List.head?_filter.symm

end SearchTree

end Anjay.Lib
