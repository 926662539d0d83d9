/-
  File:      Anjay/Lib/SortedList.lean
  Subject:   Lists kept in the order of a comparison function, with one element for each key.

  * `upsert`: the walk that updates the element of a key where it stands, or puts in a new one where
    it belongs.
  * `upsert_sorted`, `mem_upsert`: the list stays sorted, and only the element of that key changes.
  * `walkFinds_iff`: a walk that stops early finds what is there.
  * `find?_from`: what is erased where such a walk stops.
-/
import Mathlib.Data.List.Nodup
import Anjay.Lib.SearchTree

namespace Anjay.Lib

variable {α κ : Type} [LinearOrder κ] {cmp : α → α → Int} {key : α → κ}

/-- Strictly ascending keys. -/
def Sorted (key : α → κ) (as : List α) : Prop := as.Pairwise fun a b => key a < key b

theorem sorted_eq {as : List α} (hs : Sorted key as) {x y : α} (hx : x ∈ as) (hy : y ∈ as)
    (h : key x = key y) : x = y := by
  have hnodup : (as.map key).Nodup := List.pairwise_map.mpr (hs.imp fun hlt => hlt.ne)
  exact List.inj_on_of_nodup_map hnodup hx hy h

/-- Updates the element that compares equal to `new`, or puts `new` in front of the first greater
    one and updates it there. -/
def upsert (cmp : α → α → Int) (new : α) (update : α → α) : List α → List α
  | [] => [update new]
  | a :: as =>
      if cmp a new = 0 then update a :: as
      else if 0 < cmp a new then update new :: a :: as
      else a :: upsert cmp new update as

theorem Reflects.eq_zero (hc : Reflects cmp key) (a b : α) : cmp a b = 0 ↔ key a = key b := by
  have h1 := hc.lt a b
  have h2 := hc.gt a b
  constructor
  · intro h
    exact le_antisymm (not_lt.mp fun hlt => by have := h2.mpr hlt; omega)
      (not_lt.mp fun hlt => by have := h1.mpr hlt; omega)
  · intro h
    have hn1 : ¬ cmp a b < 0 := fun hlt => absurd (h1.mp hlt) (by rw [h]; exact lt_irrefl _)
    have hn2 : ¬ 0 < cmp a b := fun hlt => absurd (h2.mp hlt) (by rw [h]; exact lt_irrefl _)
    omega

section Upsert

variable {new : α} {update : α → α}

/-- **Only the element with the key of `new` changes**: it is the updated old one, or the updated
    `new` if there was none. -/
theorem mem_upsert (hc : Reflects cmp key) {x : α} : ∀ {as : List α}, Sorted key as →
    (x ∈ upsert cmp new update as ↔ (x ∈ as ∧ key x ≠ key new) ∨
      x = update ((as.find? fun a => decide (key a = key new)).getD new))
  | [], _ => by simp [upsert]
  | a :: as, hs => by
      obtain ⟨ha, has⟩ := List.pairwise_cons.mp hs
      unfold upsert
      by_cases heq : cmp a new = 0
      · have hkey : key a = key new := (hc.eq_zero a new).mp heq
        rw [if_pos heq, List.find?_cons_of_pos (p := fun a => decide (key a = key new))
          (decide_eq_true hkey), Option.getD_some, List.mem_cons, List.mem_cons]
        constructor
        · rintro (h | h)
          · exact Or.inr h
          · exact Or.inl ⟨Or.inr h, by rw [← hkey]; exact (ha x h).ne'⟩
        · rintro (⟨rfl | h, hne⟩ | h)
          · exact absurd hkey hne
          · exact Or.inr h
          · exact Or.inl h
      · have hkey : key a ≠ key new := fun h => heq ((hc.eq_zero a new).mpr h)
        rw [if_neg heq, List.find?_cons_of_neg (p := fun a => decide (key a = key new))
          (by simpa using hkey)]
        by_cases hgt : 0 < cmp a new
        · -- everything from `a` on is greater than `new`
          have hall : ∀ y ∈ a :: as, key new < key y := by
            intro y hy
            rcases List.mem_cons.mp hy with rfl | hy
            · exact (hc.gt _ _).mp hgt
            · exact ((hc.gt _ _).mp hgt).trans (ha y hy)
          have hnone : as.find? (fun a => decide (key a = key new)) = none := by
            refine List.find?_eq_none.mpr fun y hy h => ?_
            exact (hall y (List.mem_cons_of_mem _ hy)).ne' (of_decide_eq_true h)
          rw [if_pos hgt, hnone, Option.getD_none, List.mem_cons]
          constructor
          · rintro (h | h)
            · exact Or.inr h
            · exact Or.inl ⟨h, (hall x h).ne'⟩
          · rintro (⟨h, -⟩ | h)
            · exact Or.inr h
            · exact Or.inl h
        · rw [if_neg hgt, List.mem_cons, mem_upsert hc has, List.mem_cons]
          constructor
          · rintro (rfl | ⟨h, hne⟩ | h)
            · exact Or.inl ⟨Or.inl rfl, hkey⟩
            · exact Or.inl ⟨Or.inr h, hne⟩
            · exact Or.inr h
          · rintro (⟨rfl | h, hne⟩ | h)
            · exact Or.inl rfl
            · exact Or.inr (Or.inl ⟨h, hne⟩)
            · exact Or.inr (Or.inr h)

/-- The keys are the old ones and that of `new`. -/
theorem key_mem_upsert (hc : Reflects cmp key) (hkey : ∀ a, key (update a) = key a) {x : α}
    {as : List α} (hs : Sorted key as) (hx : x ∈ upsert cmp new update as) :
    key x = key new ∨ x ∈ as := by
  rcases (mem_upsert hc hs).mp hx with ⟨h, -⟩ | rfl
  · exact Or.inr h
  · left
    rw [hkey]
    cases hf : as.find? fun a => decide (key a = key new) with
    | none => rfl
    | some a =>
        have hfound := List.find?_some hf
        exact of_decide_eq_true hfound

/-- **The list stays sorted.** -/
theorem upsert_sorted (hc : Reflects cmp key) (hkey : ∀ a, key (update a) = key a) :
    ∀ {as : List α}, Sorted key as → Sorted key (upsert cmp new update as)
  | [], _ => List.pairwise_singleton _ _
  | a :: as, hs => by
      obtain ⟨ha, has⟩ := List.pairwise_cons.mp hs
      unfold upsert
      by_cases heq : cmp a new = 0
      · rw [if_pos heq]
        refine List.pairwise_cons.mpr ⟨fun b hb => ?_, has⟩
        rw [hkey]
        exact ha b hb
      · rw [if_neg heq]
        by_cases hgt : 0 < cmp a new
        · have hnew : key new < key a := (hc.gt _ _).mp hgt
          rw [if_pos hgt]
          refine List.pairwise_cons.mpr ⟨fun b hb => ?_, hs⟩
          rw [hkey]
          rcases List.mem_cons.mp hb with rfl | hb
          · exact hnew
          · exact hnew.trans (ha b hb)
        · have hlt : key a < key new := by
            rcases lt_trichotomy (key a) (key new) with h | h | h
            · exact h
            · exact absurd ((hc.eq_zero a new).mpr h) heq
            · exact absurd ((hc.gt a new).mpr h) hgt
          rw [if_neg hgt]
          refine List.pairwise_cons.mpr ⟨fun b hb => ?_, upsert_sorted hc hkey has⟩
          rcases key_mem_upsert hc hkey has hb with h | h
          · rw [h]
            exact hlt
          · exact ha b h

/-- Two updates one after the other are one update. -/
theorem upsert_upsert (hc : Reflects cmp key) {update' : α → α} (hkey : ∀ a, key (update a) = key a) :
    ∀ as : List α, upsert cmp new update' (upsert cmp new update as) =
      upsert cmp new (fun a => update' (update a)) as
  | [] => if_pos ((hc.eq_zero _ _).mpr (hkey new))
  | a :: as => by
      rw [upsert, upsert.eq_def cmp new (fun a => update' (update a))]
      dsimp only
      by_cases heq : cmp a new = 0
      · have heq' : cmp (update a) new = 0 := (hc.eq_zero _ _).mpr ((hkey a).trans ((hc.eq_zero _ _).mp heq))
        rw [if_pos heq, if_pos heq, upsert, if_pos heq']
      · rw [if_neg heq, if_neg heq]
        by_cases hgt : 0 < cmp a new
        · rw [if_pos hgt, if_pos hgt, upsert, if_pos ((hc.eq_zero _ _).mpr (hkey new))]
        · rw [if_neg hgt, if_neg hgt, upsert, if_neg heq, if_neg hgt, upsert_upsert hc hkey as]

/-- An element that is there stays as it is; one that is not is put in. -/
theorem upsert_id_cases : ∀ as : List α, (upsert cmp new id as = as ∧ ∃ a ∈ as, cmp a new = 0) ∨
    (upsert cmp new id as).Perm (new :: as)
  | [] => .inr (List.Perm.refl _)
  | a :: as => by
      unfold upsert
      by_cases heq : cmp a new = 0
      · rw [if_pos heq]
        exact .inl ⟨rfl, a, List.mem_cons_self, heq⟩
      · rw [if_neg heq]
        split
        · exact .inr (List.Perm.refl _)
        · rcases upsert_id_cases as with ⟨hsame, b, hb, heqb⟩ | hperm
          · exact .inl ⟨congrArg (a :: ·) hsame, b, List.mem_cons_of_mem _ hb, heqb⟩
          · exact .inr ((hperm.cons a).trans (List.Perm.swap new a as))

/-- What a filter drops may as well not be put in. -/
theorem filter_upsert (hc : Reflects cmp key) {p : α → Bool} (hnew : p (update new) = false) :
    ∀ {as : List α}, (∀ a ∈ as, key a ≠ key new) → (upsert cmp new update as).filter p = as.filter p
  | [], _ => by rw [upsert, List.filter_cons_of_neg (ne_true_of_eq_false hnew)]
  | a :: as, h => by
      have hne : cmp a new ≠ 0 := fun heq => h a List.mem_cons_self ((hc.eq_zero _ _).mp heq)
      have ih := filter_upsert hc hnew fun b hb => h b (List.mem_cons_of_mem a hb)
      rw [upsert, if_neg hne]
      split
      · rw [List.filter_cons_of_neg (ne_true_of_eq_false hnew)]
      · rw [List.filter_cons, ih, List.filter_cons]

end Upsert

/-- A walk that stops at the first element from `new` on: whether that compares equal. -/
def walkFinds (cmp : α → α → Int) (new : α) (as : List α) : Bool :=
  match as.find? fun a => decide (0 ≤ cmp a new) with
  | none => false
  | some a => decide (cmp a new = 0)

/-- **In a sorted list the walk finds what is there.** -/
theorem walkFinds_iff (hc : Reflects cmp key) {new : α} : ∀ {as : List α}, Sorted key as →
    (walkFinds cmp new as = true ↔ ∃ a ∈ as, key a = key new)
  | [], _ => by simp [walkFinds]
  | a :: as, hs => by
      obtain ⟨ha, has⟩ := List.pairwise_cons.mp hs
      unfold walkFinds
      by_cases hle : 0 ≤ cmp a new
      · rw [List.find?_cons_of_pos (p := fun a => decide (0 ≤ cmp a new)) (decide_eq_true hle)]
        refine (decide_eq_true_iff.trans (hc.eq_zero a new)).trans ⟨fun h => ⟨a, List.mem_cons_self, h⟩, ?_⟩
        rintro ⟨b, hb, hkey⟩
        rcases List.mem_cons.mp hb with rfl | hb
        · exact hkey
        · have hlt : cmp a new < 0 := (hc.lt a new).mpr (hkey ▸ ha b hb)
          omega
      · rw [List.find?_cons_of_neg (p := fun a => decide (0 ≤ cmp a new)) (by simpa using hle)]
        refine (walkFinds_iff hc has).trans ⟨fun ⟨b, hb, hkey⟩ => ⟨b, List.mem_cons_of_mem a hb, hkey⟩, ?_⟩
        rintro ⟨b, hb, hkey⟩
        rcases List.mem_cons.mp hb with rfl | hb
        · have heq : cmp b new = 0 := (hc.eq_zero _ _).mpr hkey
          omega
        · exact ⟨b, hb, hkey⟩

/-- **A walk to the first element from a key on**: it meets the element of this key, and erasing there erases that one
    only, or there is none. -/
theorem find?_from {id : κ} {p q : α → Bool} (hp : ∀ a, p a = true ↔ id ≤ key a) (hq : ∀ a, q a = true ↔ key a ≠ id) :
    ∀ {as : List α}, Sorted key as →
      (∃ found, as.find? p = some found ∧ key found = id ∧ as.eraseP p = as.filter q) ∨
        ((∀ a ∈ as, key a ≠ id) ∧ ∀ found, as.find? p = some found → key found ≠ id)
  | [], _ => .inr ⟨nofun, nofun⟩
  | a :: as, hs => by
      obtain ⟨ha, has⟩ := List.pairwise_cons.mp hs
      by_cases hle : id ≤ key a
      · rw [List.find?_cons_of_pos ((hp a).mpr hle)]
        have hne : ∀ b ∈ as, key b ≠ id := fun b hb heq => absurd (ha b hb) (by rw [heq]; exact not_lt.mpr hle)
        by_cases heq : key a = id
        · refine .inl ⟨a, rfl, heq, ?_⟩
          rw [List.eraseP_cons_of_pos ((hp a).mpr hle), List.filter_cons_of_neg fun h => (hq a).mp h heq]
          exact (List.filter_eq_self.mpr fun b hb => (hq b).mpr (hne b hb)).symm
        · refine .inr ⟨List.forall_mem_cons.mpr ⟨heq, hne⟩, fun found hfound => ?_⟩
          rwa [← Option.some.inj hfound]
      · have hpa : ¬p a = true := fun h => hle ((hp a).mp h)
        have heq : key a ≠ id := fun heq => hle (ge_of_eq heq)
        rw [List.find?_cons_of_neg hpa, List.eraseP_cons_of_neg hpa, List.filter_cons_of_pos ((hq a).mpr heq)]
        rcases find?_from hp hq has with ⟨found, hfound, hkey, herase⟩ | ⟨hall, hfound⟩
        · exact .inl ⟨found, hfound, hkey, congrArg (a :: ·) herase⟩
        · exact .inr ⟨List.forall_mem_cons.mpr ⟨heq, hall⟩, hfound⟩

end Anjay.Lib
