/-
  File:      Anjay/Lib/KeyedList.lean
  Subject:   Lists of entries in the order of their keys, as one level of a tree: finding, making and
             deleting an entry, and walks that delete what they do not meet.

  * `Level.withEntry`, `Level.filterMap`: the order and what holds of every entry are kept.
  * `Level.updateEntry`, `Level.sweep`: so it is where empty entries are deleted at once.
  * `mem_withEntry`: only the entry of the key that is looked for is replaced.
  * `findEntry_withEntry`, `lookup_updateEntry_ite`: what is found and read afterwards.
  * `withEntry_filterMap`: changing or deleting one entry is a `filterMap` over the list.
  * `foldl_visit`: a walk that visits ascending keys keeps exactly the entries that are met.
-/
import Mathlib.Data.List.TakeWhile
import Anjay.Lib.SortedList

namespace Anjay.Lib

variable {α β κ ρ ε : Type} [LinearOrder κ] {key : α → κ}

/-! ## 1. Levels -/

/-- Entries in ascending order of their keys, `ok` each. -/
structure Level (key : α → κ) (ok : α → Prop) (as : List α) : Prop where
  sorted : Sorted key as
  all : ∀ a ∈ as, ok a

instance instDecidableLevel (ok : α → Prop) [DecidablePred ok] (as : List α) : Decidable (Level key ok as) :=
  decidable_of_iff ((as.Pairwise fun a b => key a < key b) ∧ ∀ a ∈ as, ok a)
    ⟨fun h => ⟨h.1, h.2⟩, fun h => ⟨h.sorted, h.all⟩⟩

namespace Level

variable {ok ok' : α → Prop} {as : List α}

theorem nil : Level key ok [] := ⟨List.Pairwise.nil, fun _ h => absurd h List.not_mem_nil⟩

theorem cons_iff {a : α} : Level key ok (a :: as) ↔ (∀ b ∈ as, key a < key b) ∧ ok a ∧ Level key ok as := by
  constructor
  · intro h
    obtain ⟨ha, has⟩ := List.pairwise_cons.mp h.sorted
    exact ⟨ha, h.all a List.mem_cons_self, has, fun b hb => h.all b (List.mem_cons_of_mem a hb)⟩
  · intro ⟨ha, hok, h⟩
    exact ⟨List.pairwise_cons.mpr ⟨ha, h.sorted⟩, List.forall_mem_cons.mpr ⟨hok, h.all⟩⟩

theorem mono (h : Level key ok as) (himp : ∀ a, ok a → ok' a) : Level key ok' as :=
  ⟨h.sorted, fun a ha => himp a (h.all a ha)⟩

theorem sublist {bs : List α} (h : Level key ok as) (hsub : bs.Sublist as) : Level key ok bs :=
  ⟨h.sorted.sublist hsub, fun b hb => h.all b (hsub.subset hb)⟩

/-- Entries may be changed or dropped, as long as they keep their keys. -/
theorem filterMap {g : α → Option α} (h : Level key ok as)
    (hg : ∀ a b, ok a → g a = some b → key b = key a ∧ ok' b) : Level key ok' (as.filterMap g) := by
  induction as with
  | nil => exact nil
  | cons a as ih =>
      obtain ⟨hlt, hok, htail⟩ := cons_iff.mp h
      cases hga : g a with
      | none =>
          rw [List.filterMap_cons_none hga]
          exact ih htail
      | some b =>
          obtain ⟨hkey, hb⟩ := hg a b hok hga
          rw [List.filterMap_cons_some hga]
          refine cons_iff.mpr ⟨fun c hc => ?_, hb, ih htail⟩
          obtain ⟨d, hd, hgd⟩ := List.mem_filterMap.mp hc
          rw [hkey, (hg d c (htail.all d hd) hgd).1]
          exact hlt d hd

/-- The entry of a key, if there is one, is the only one. -/
theorem find?_eq_some (h : Level key ok as) {a : α} {id : κ} :
    as.find? (fun a => decide (key a = id)) = some a ↔ a ∈ as ∧ key a = id := by
  constructor
  · intro hf
    exact ⟨List.mem_of_find?_eq_some hf, of_decide_eq_true (List.find?_some hf :)⟩
  · intro ⟨ha, hkey⟩
    cases hf : as.find? fun a => decide (key a = id) with
    | none => exact absurd (decide_eq_true hkey) (List.find?_eq_none.mp hf a ha)
    | some b =>
        have hb : key b = id := of_decide_eq_true (List.find?_some hf :)
        rw [sorted_eq h.sorted (List.mem_of_find?_eq_some hf) ha (hb.trans hkey.symm)]

end Level

/-! ## 2. One entry -/

/-- Looks for the entry of `id` and replaces it: `f` gets the entry, if there is one, and gives what
    stands in its place afterwards, if anything. -/
def withEntry (key : α → κ) (id : κ) (f : Option α → ρ × Option α) : List α → ρ × List α
  | [] => ((f none).1, (f none).2.toList)
  | a :: as =>
      if key a < id then ((withEntry key id f as).1, a :: (withEntry key id f as).2)
      else if key a = id then ((f (some a)).1, (f (some a)).2.toList ++ as)
      else ((f none).1, (f none).2.toList ++ a :: as)

section WithEntry

variable {id : κ} {f : Option α → ρ × Option α} {ok : α → Prop}

theorem mem_withEntry_subset : ∀ {as : List α} {x : α}, x ∈ (withEntry key id f as).2 →
    x ∈ as ∨ ∃ e, (∀ a, e = some a → a ∈ as ∧ key a = id) ∧ (f e).2 = some x
  | [], x, h => Or.inr ⟨none, fun a ha => (by cases ha), Option.mem_toList.mp h⟩
  | a :: as, x, h => by
      rw [withEntry] at h
      split at h
      · rcases List.mem_cons.mp h with rfl | h
        · exact Or.inl List.mem_cons_self
        · rcases mem_withEntry_subset h with h | ⟨e, he, hx⟩
          · exact Or.inl (List.mem_cons_of_mem a h)
          · exact Or.inr ⟨e, fun b hb => ⟨List.mem_cons_of_mem a (he b hb).1, (he b hb).2⟩, hx⟩
      split at h
      · next heq =>
        rcases List.mem_append.mp h with h | h
        · refine Or.inr ⟨some a, fun b hb => ?_, Option.mem_toList.mp h⟩
          cases hb
          exact ⟨List.mem_cons_self, heq⟩
        · exact Or.inl (List.mem_cons_of_mem a h)
      · rcases List.mem_append.mp h with h | h
        · exact Or.inr ⟨none, fun b hb => (by cases hb), Option.mem_toList.mp h⟩
        · exact Or.inl h

/-- **The level is kept where the entry is replaced by a good one of the same key.** -/
theorem Level.withEntry {as : List α} (h : Level key ok as)
    (hf : ∀ e b, (∀ a, e = some a → ok a ∧ key a = id) → (f e).2 = some b → key b = id ∧ ok b) :
    Level key ok (Lib.withEntry key id f as).2 := by
  -- what stands in the place of the entry goes well in front of greater entries
  have hput : ∀ (o : Option α) (bs : List α), (∀ b, o = some b → key b = id ∧ ok b) →
      (∀ b ∈ bs, id < key b) → Level key ok bs → Level key ok (o.toList ++ bs) := by
    intro o bs ho hbs hlevel
    cases o with
    | none => exact hlevel
    | some b =>
        obtain ⟨hkey, hok⟩ := ho b rfl
        exact cons_iff.mpr ⟨fun c hc => hkey ▸ hbs c hc, hok, hlevel⟩
  induction as with
  | nil =>
      have hnone := hput (f none).2 [] (fun b hb => hf none b (fun a ha => (by cases ha)) hb)
        (fun b hb => absurd hb List.not_mem_nil) nil
      rwa [List.append_nil] at hnone
  | cons a as ih =>
      obtain ⟨hlt, hok, htail⟩ := cons_iff.mp h
      rw [Lib.withEntry]
      split
      · next hless =>
        refine cons_iff.mpr ⟨fun b hb => ?_, hok, ih htail⟩
        rcases mem_withEntry_subset hb with hb | ⟨e, he, hb⟩
        · exact hlt b hb
        · rw [(hf e b (fun a ha => ⟨htail.all a (he a ha).1, (he a ha).2⟩) hb).1]
          exact hless
      split
      · next heq =>
        refine hput _ _ (fun b hb => hf (some a) b (fun c hc => ?_) hb) (fun b hb => heq ▸ hlt b hb) htail
        cases hc
        exact ⟨hok, heq⟩
      · next hnlt hne =>
        have hgt : id < key a := lt_of_le_of_ne (not_lt.mp hnlt) (Ne.symm hne)
        refine hput _ _ (fun b hb => hf none b (fun c hc => (by cases hc)) hb) (fun b hb => ?_) h
        rcases List.mem_cons.mp hb with rfl | hb
        · exact hgt
        · exact hgt.trans (hlt b hb)

/-- What `f` says of an entry that is there, or that there is none, is what the search returns. -/
theorem withEntry_fst (id : κ) (f : Option α → ρ × Option α) : ∀ {as : List α}, Sorted key as →
    (Lib.withEntry key id f as).1 = (f (as.find? fun a => decide (key a = id))).1
  | [], _ => rfl
  | a :: as, hs => by
      obtain ⟨hlt, htail⟩ := List.pairwise_cons.mp hs
      rw [Lib.withEntry]
      split
      · next hless =>
        rw [List.find?_cons_of_neg (by simpa using hless.ne)]
        exact withEntry_fst id f htail
      split
      · next heq => rw [List.find?_cons_of_pos (by simpa using heq)]
      · next hnlt hne =>
        have hgt : id < key a := lt_of_le_of_ne (not_lt.mp hnlt) (Ne.symm hne)
        have hnone : (a :: as).find? (fun a => decide (key a = id)) = none := by
          refine List.find?_eq_none.mpr fun b hb => ?_
          rcases List.mem_cons.mp hb with rfl | hb
          · simpa using hne
          · simpa using (hgt.trans (hlt b hb)).ne'
        rw [hnone]

/-- **Only the entry of that key is replaced.** -/
theorem mem_withEntry {x : α} : ∀ {as : List α}, Sorted key as →
    (x ∈ (Lib.withEntry key id f as).2 ↔
      (x ∈ as ∧ key x ≠ id) ∨ (f (as.find? fun a => decide (key a = id))).2 = some x)
  | [], _ => by
      rw [Lib.withEntry, List.find?_nil, Option.mem_toList]
      exact ⟨Or.inr, fun h => h.resolve_left fun h => absurd h.1 List.not_mem_nil⟩
  | a :: as, hs => by
      obtain ⟨hlt, htail⟩ := List.pairwise_cons.mp hs
      have hsplit : ∀ (o : Option α) (bs : List α), (∀ b ∈ bs, key b ≠ id) →
          (x ∈ o.toList ++ bs ↔ (x ∈ bs ∧ key x ≠ id) ∨ o = some x) := by
        intro o bs hbs
        rw [List.mem_append, Option.mem_toList]
        exact ⟨fun h => h.symm.imp_left fun hx => ⟨hx, hbs x hx⟩, fun h => (h.imp_left And.left).symm⟩
      rw [Lib.withEntry]
      split
      next hless =>
        rw [List.find?_cons_of_neg (by simpa using hless.ne), List.mem_cons, mem_withEntry htail, List.mem_cons]
        constructor
        · rintro (rfl | ⟨hx, hne⟩ | hx)
          · exact Or.inl ⟨Or.inl rfl, hless.ne⟩
          · exact Or.inl ⟨Or.inr hx, hne⟩
          · exact Or.inr hx
        · rintro (⟨rfl | hx, hne⟩ | hx)
          · exact Or.inl rfl
          · exact Or.inr (Or.inl ⟨hx, hne⟩)
          · exact Or.inr (Or.inr hx)
      split
      next heq =>
        rw [List.find?_cons_of_pos (by simpa using heq), hsplit _ as fun b hb => heq ▸ (hlt b hb).ne', List.mem_cons]
        refine or_congr_left (and_congr_left fun hne => ⟨Or.inr, fun h => h.resolve_left ?_⟩)
        rintro rfl
        exact hne heq
      next hnlt hne =>
        have hgt : id < key a := lt_of_le_of_ne (not_lt.mp hnlt) (Ne.symm hne)
        have hall : ∀ b ∈ a :: as, key b ≠ id :=
          List.forall_mem_cons.mpr ⟨hne, fun b hb => (hgt.trans (hlt b hb)).ne'⟩
        rw [List.find?_eq_none.mpr fun b hb => by simpa using hall b hb]
        exact hsplit _ _ hall

/-- Looks for the entry of `id`. -/
def findEntry (key : α → κ) (id : κ) : List α → Option α
  | [] => none
  | a :: as => if key a < id then findEntry key id as else if key a = id then some a else none

theorem findEntry_mem {a : α} : ∀ {as : List α}, findEntry key id as = some a → a ∈ as ∧ key a = id
  | [], h => by cases h
  | b :: as, h => by
      rw [findEntry] at h
      split at h
      · obtain ⟨hmem, hkey⟩ := findEntry_mem h
        exact ⟨List.mem_cons_of_mem b hmem, hkey⟩
      split at h
      next heq =>
        rw [← Option.some.inj h]
        exact ⟨List.mem_cons_self, heq⟩
      · cases h

/-- Before the first entry there is none. -/
theorem findEntry_of_lt {as : List α} (h : ∀ a ∈ as, id < key a) : findEntry key id as = none := by
  cases as with
  | nil => rfl
  | cons a as =>
      have hlt := h a List.mem_cons_self
      rw [findEntry, if_neg (not_lt.mpr hlt.le), if_neg hlt.ne']

theorem findEntry_toList_append (o : Option α) (hkey : ∀ b, o = some b → key b = id) (as : List α) {j : κ} (hj : j ≠ id)
    (hlt : ∀ a ∈ as, id < key a) : findEntry key j (o.toList ++ as) = findEntry key j as := by
  cases o with
  | none => rfl
  | some b =>
      show findEntry key j (b :: as) = _
      rw [findEntry, hkey b rfl]
      split
      · rfl
      next hnlt =>
        have hjlt : j < id := lt_of_le_of_ne (not_lt.mp hnlt) hj
        rw [if_neg hj.symm, findEntry_of_lt fun a ha => hjlt.trans (hlt a ha)]

theorem findEntry_toList_append_self (o : Option α) (hkey : ∀ b, o = some b → key b = id) {as : List α}
    (hlt : ∀ a ∈ as, id < key a) : findEntry key id (o.toList ++ as) = o := by
  cases o with
  | none => exact findEntry_of_lt hlt
  | some b =>
      show findEntry key id (b :: as) = _
      rw [findEntry, hkey b rfl, if_neg (lt_irrefl id), if_pos rfl]

/-- **The entries of other keys are found as before, and that of `id` as `f` leaves it.** -/
theorem findEntry_withEntry (hf : ∀ e b, (∀ a, e = some a → key a = id) → (f e).2 = some b → key b = id) (j : κ) :
    ∀ {as : List α}, Sorted key as → findEntry key j (Lib.withEntry key id f as).2 =
      if j = id then (f (findEntry key id as)).2 else findEntry key j as
  | [], _ => by
      have hkey := fun b => hf none b (fun a ha => by cases ha)
      rw [Lib.withEntry, ← List.append_nil (f none).2.toList]
      split
      next hj =>
        rw [hj]
        exact findEntry_toList_append_self _ hkey (fun a ha => absurd ha List.not_mem_nil)
      next hj => exact findEntry_toList_append _ hkey [] hj (fun a ha => absurd ha List.not_mem_nil)
  | a :: as, hs => by
      obtain ⟨hlt, htail⟩ := List.pairwise_cons.mp hs
      rw [Lib.withEntry, findEntry.eq_def key id]
      dsimp only
      split
      next hless =>
        have ih := findEntry_withEntry hf j htail
        rw [findEntry, findEntry]
        split
        · exact ih
        next hnlt =>
          have hjlt : j < id := (not_lt.mp hnlt).trans_lt hless
          rw [if_neg hjlt.ne]
      split
      next hnlt heq =>
        have hkey := fun b => hf (some a) b (fun c hc => Option.some.inj hc ▸ heq)
        have hgt : ∀ b ∈ as, id < key b := fun b hb => heq ▸ hlt b hb
        split
        next hj =>
          rw [hj]
          exact findEntry_toList_append_self _ hkey hgt
        next hj =>
          rw [findEntry_toList_append _ hkey as hj hgt]
          exact (findEntry_toList_append (some a) (fun b hb => Option.some.inj hb ▸ heq) as hj hgt).symm
      next hnlt hne =>
        have hkey := fun b => hf none b (fun a ha => by cases ha)
        have hgt : ∀ b ∈ a :: as, id < key b := by
          have hidlt : id < key a := lt_of_le_of_ne (not_lt.mp hnlt) (Ne.symm hne)
          exact List.forall_mem_cons.mpr ⟨hidlt, fun b hb => hidlt.trans (hlt b hb)⟩
        split
        next hj =>
          rw [hj]
          exact findEntry_toList_append_self _ hkey hgt
        next hj => exact findEntry_toList_append _ hkey _ hj hgt

theorem withEntry_fst_eq (f : Option α → ρ × Option α) : ∀ {as : List α},
    (Lib.withEntry key id f as).1 = (f (findEntry key id as)).1
  | [] => rfl
  | a :: as => by
      rw [Lib.withEntry, findEntry]
      split
      · exact withEntry_fst_eq f
      split
      · rfl
      · rfl

theorem filterMap_cons_toList (g : α → Option β) (a : α) (as : List α) :
    (a :: as).filterMap g = (g a).toList ++ as.filterMap g := by
  rw [List.filterMap_cons]
  cases g a <;> rfl

theorem filterMap_cons_ite_neg {g : α → Option α} {a : α} {as : List α} (h : key a ≠ id) :
    (a :: as).filterMap (fun a => if key a = id then g a else some a) =
      a :: as.filterMap fun a => if key a = id then g a else some a := by
  rw [List.filterMap_cons, if_neg h]

/-- **Without making a new entry, the search changes or drops one entry of a sorted list.** -/
theorem withEntry_filterMap (hnone : (f none).2 = none) : ∀ {as : List α}, Sorted key as →
    (Lib.withEntry key id f as).2 = as.filterMap fun a => if key a = id then (f (some a)).2 else some a
  | [], _ => by simp [Lib.withEntry, hnone]
  | a :: as, hs => by
      obtain ⟨hlt, htail⟩ := List.pairwise_cons.mp hs
      have hrest : id ≤ key a → as.filterMap (fun a => if key a = id then (f (some a)).2 else some a) = as := by
        intro hle
        refine (List.filterMap_congr fun b hb => ?_).trans List.filterMap_some
        exact if_neg (hle.trans_lt (hlt b hb)).ne'
      rw [Lib.withEntry]
      split
      · next hless =>
        rw [filterMap_cons_ite_neg hless.ne, ← withEntry_filterMap hnone htail]
      split
      · next heq =>
        cases hfa : (f (some a)).2 with
        | none => rw [List.filterMap_cons_none (by rw [if_pos heq, hfa]), hrest heq.ge]; rfl
        | some b => rw [List.filterMap_cons_some (b := b) (by rw [if_pos heq, hfa]), hrest heq.ge]; rfl
      · next hnlt hne =>
        rw [hnone, filterMap_cons_ite_neg hne, hrest (not_lt.mp hnlt)]
        rfl

end WithEntry

/-! ## 3. Entries that are deleted once they are empty -/

def removeIfEmpty (empty : α → Bool) (a : α) : Option α := if empty a then none else some a

/-- Looks for the entry of `id`, or makes a `fresh` one if memory for it is allocated, changes it with
    `f`, and deletes it if it is empty then. -/
def updateEntry (key : α → κ) (fresh : α) (empty : α → Bool) (allocated : Bool) (id : κ) (fail : ρ)
    (f : α → ρ × α) : List α → ρ × List α :=
  withEntry key id fun found =>
    match found.or (if allocated then some fresh else none) with
    | none => (fail, none)
    | some a => ((f a).1, removeIfEmpty empty (f a).2)

/-- Every entry is changed with `f` in turn, and deleted if it is empty then. -/
def sweep (empty : α → Bool) (f : α → α × Bool) (as : List α) : List α × Bool :=
  (as.filterMap fun a => removeIfEmpty empty (f a).1, as.any fun a => (f a).2)

section RemoveIfEmpty

variable {empty : α → Bool} {ok weak : α → Prop} {as : List α}

theorem removeIfEmpty_eq_some {a b : α} : removeIfEmpty empty a = some b ↔ empty a = false ∧ a = b := by
  unfold removeIfEmpty
  cases empty a <;> simp

/-- **The level is kept where `f` keeps what holds of entries that may be empty.** -/
theorem Level.updateEntry {fresh : α} {allocated : Bool} {id : κ} {fail : ρ} {f : α → ρ × α}
    (h : Level key ok as) (hweak : ∀ a, ok a → weak a) (hok : ∀ a, weak a → empty a = false → ok a)
    (hfresh : key fresh = id ∧ weak fresh)
    (hf : ∀ a, weak a → key a = id → key (f a).2 = id ∧ weak (f a).2) :
    Level key ok (Lib.updateEntry key fresh empty allocated id fail f as).2 := by
  refine h.withEntry fun e b he hb => ?_
  -- the entry that is changed, found or fresh
  cases hfound : e.or (if allocated then some fresh else none) with
  | none =>
      rw [hfound] at hb
      cases hb
  | some a =>
      rw [hfound] at hb
      obtain ⟨hne, rfl⟩ := removeIfEmpty_eq_some.mp hb
      have ha : weak a ∧ key a = id := by
        cases e with
        | some c =>
            cases hfound
            exact ⟨hweak a (he a rfl).1, (he a rfl).2⟩
        | none =>
            rw [Option.none_or] at hfound
            split at hfound
            · cases hfound
              exact ⟨hfresh.2, hfresh.1⟩
            · cases hfound
      obtain ⟨hkey, hw⟩ := hf a ha.1 ha.2
      exact ⟨hkey, hok _ hw hne⟩

/-- What is read of an entry, `d` where there is none. -/
def lookup (key : α → κ) (d : β) (view : α → β) (id : κ) (as : List α) : β := (findEntry key id as).elim d view

/-- **What is read of other entries stays, and what is read of this one becomes what `f` makes of it**: of an entry
    that is found or made, unless there is no memory. -/
theorem lookup_updateEntry {fresh : α} {allocated : Bool} {id : κ} {fail : ρ} {f : α → ρ × α} (hs : Sorted key as)
    (hfresh : key fresh = id) (hf : ∀ a, key a = id → key (f a).2 = id) {d : β} {view : α → β}
    (hview : view fresh = d) (hempty : ∀ a, empty a = true → view a = d) :
    (∀ j, j ≠ id → lookup key d view j (Lib.updateEntry key fresh empty allocated id fail f as).2 =
      lookup key d view j as) ∧
    (((Lib.updateEntry key fresh empty allocated id fail f as).1 = fail ∧
        lookup key d view id (Lib.updateEntry key fresh empty allocated id fail f as).2 = lookup key d view id as) ∨
      ∃ a, (a ∈ as ∨ a = fresh) ∧ key a = id ∧
        (Lib.updateEntry key fresh empty allocated id fail f as).1 = (f a).1 ∧
        lookup key d view id (Lib.updateEntry key fresh empty allocated id fail f as).2 = view (f a).2 ∧
        lookup key d view id as = view a) := by
  have hkeep : ∀ e b, (∀ a, e = some a → key a = id) → (match e.or (if allocated then some fresh else none) with
      | none => ((fail, none) : ρ × Option α)
      | some a => ((f a).1, removeIfEmpty empty (f a).2)).2 = some b → key b = id := by
    intro e b he hb
    cases e with
    | some a =>
        obtain ⟨-, hb⟩ := removeIfEmpty_eq_some.mp hb
        exact hb ▸ hf a (he a rfl)
    | none =>
        cases allocated with
        | false => cases hb
        | true =>
            obtain ⟨-, hb⟩ := removeIfEmpty_eq_some.mp hb
            exact hb ▸ hf fresh hfresh
  have hremove : ∀ a, (removeIfEmpty empty a).elim d view = view a := by
    intro a
    unfold removeIfEmpty
    split
    next he => exact (hempty a he).symm
    · rfl
  unfold lookup Lib.updateEntry
  refine ⟨fun j hj => by rw [findEntry_withEntry hkeep j hs, if_neg hj], ?_⟩
  rw [findEntry_withEntry hkeep id hs, if_pos rfl, withEntry_fst_eq]
  cases hfound : findEntry key id as with
  | some a =>
      obtain ⟨hmem, hkey⟩ := findEntry_mem hfound
      exact Or.inr ⟨a, Or.inl hmem, hkey, rfl, hremove _, rfl⟩
  | none =>
      cases allocated with
      | false => exact Or.inl ⟨rfl, rfl⟩
      | true => exact Or.inr ⟨fresh, Or.inr rfl, hfresh, rfl, hremove _, hview.symm⟩

theorem lookup_apply {γ : Type} (g : β → γ) (d : β) (view : α → β) (id : κ) (as : List α) :
    g (lookup key d view id as) = lookup key (g d) (fun a => g (view a)) id as := by
  unfold lookup
  cases findEntry key id as <;> rfl

/-- **Where `f`, if it succeeds, makes what is read of an entry `x` on the condition `c`, so does the update** for the
    entry of `id`; nothing else that is read changes. -/
theorem lookup_updateEntry_ite {fresh : α} {allocated : Bool} {id : κ} {fail : ρ} {f : α → ρ × α} (hs : Sorted key as)
    (hfresh : key fresh = id) (hf : ∀ a, key a = id → key (f a).2 = id) {d x : β} {view : α → β}
    (hview : view fresh = d) (hempty : ∀ a, empty a = true → view a = d) {success : ρ → Prop} [DecidablePred success]
    {c : Prop} [Decidable c] (hfail : ¬success fail)
    (hmain : ∀ a, (a ∈ as ∨ a = fresh) → view (f a).2 = if success (f a).1 ∧ c then x else view a) (j : κ) :
    lookup key d view j (Lib.updateEntry key fresh empty allocated id fail f as).2 =
      if success (Lib.updateEntry key fresh empty allocated id fail f as).1 ∧ j = id ∧ c then x
      else lookup key d view j as := by
  obtain ⟨hother, hid⟩ : (∀ j, j ≠ id → lookup key d view j (Lib.updateEntry key fresh empty allocated id fail f as).2 =
      lookup key d view j as) ∧ _ := lookup_updateEntry hs hfresh hf hview hempty
  by_cases hj : j = id
  · rw [hj]
    rcases hid with ⟨hres, heq⟩ | ⟨a, ha, -, hres, hnew, hold⟩
    · rw [heq, hres, if_neg fun h => hfail h.1]
    · rw [hnew, hold, hres, hmain a ha]
      by_cases hc : success (f a).1 ∧ c
      · rw [if_pos hc, if_pos ⟨hc.1, rfl, hc.2⟩]
      · rw [if_neg hc, if_neg fun h => hc ⟨h.1, h.2.2⟩]
  · rw [hother j hj, if_neg fun h => hj h.2.1]

theorem Level.sweep {ok' : α → Prop} {f : α → α × Bool} (h : Level key ok' as)
    (hok : ∀ a, weak a → empty a = false → ok a) (hf : ∀ a, ok' a → key (f a).1 = key a ∧ weak (f a).1) :
    Level key ok (Lib.sweep empty f as).1 := by
  refine h.filterMap fun a b ha hb => ?_
  obtain ⟨hne, rfl⟩ := removeIfEmpty_eq_some.mp hb
  exact ⟨(hf a ha).1, hok _ (hf a ha).2 hne⟩

/-- What a tree stores below its entries, when these are changed or deleted one by one. -/
theorem flatMap_filterMap_eq_filter {g : α → Option α} (stored : α → List β) {p : β → Bool} :
    ∀ {as : List α}, (∀ a ∈ as, (g a).elim [] stored = (stored a).filter p) →
      (as.filterMap g).flatMap stored = (as.flatMap stored).filter p
  | [], _ => rfl
  | a :: as, h => by
      obtain ⟨ha, has⟩ := List.forall_mem_cons.mp h
      have ih := flatMap_filterMap_eq_filter stored has
      rw [List.flatMap_cons, List.filter_append, ← ha, ← ih]
      cases hg : g a with
      | none => rw [List.filterMap_cons_none hg]; rfl
      | some b => rw [List.filterMap_cons_some hg]; rfl

theorem flatMap_filter_eq_filter {q : α → Bool} {stored : α → List β} {p : β → Bool}
    (h : ∀ a ∈ as, ∀ b ∈ stored a, p b = q a) : (as.filter q).flatMap stored = (as.flatMap stored).filter p := by
  rw [← List.filterMap_eq_filter]
  refine flatMap_filterMap_eq_filter stored fun a ha => ?_
  cases hq : q a with
  | true =>
      rw [Option.guard, hq]
      exact (List.filter_eq_self.mpr fun b hb => (h a ha b hb).trans hq).symm
  | false =>
      rw [Option.guard, hq]
      refine (List.filter_eq_nil_iff.mpr fun b hb => ?_).symm
      rw [h a ha b hb, hq]
      exact Bool.false_ne_true

theorem filter_map_of_forall {f : α → β} {p : β → Bool} (h : ∀ a, p (f a) = true) (as : List α) :
    (as.map f).filter p = as.map f := by
  refine List.filter_eq_self.mpr fun b hb => ?_
  obtain ⟨a, -, rfl⟩ := List.mem_map.mp hb
  exact h a

theorem elim_removeIfEmpty (stored : α → List β) {a : α} (h : empty a = true → stored a = []) :
    (removeIfEmpty empty a).elim [] stored = stored a := by
  unfold removeIfEmpty
  split
  · next he => exact (h he).symm
  · rfl

end RemoveIfEmpty

/-! ## 4. Walks that delete what they do not meet -/

/-- A walk over a list: the entries passed and kept, those still ahead, and whether any was removed. -/
structure Walk (α : Type) where
  kept : List α
  rest : List α
  removed : Bool
  deriving DecidableEq, Repr

namespace Walk

def start (as : List α) : Walk α := ⟨[], as, false⟩

/-- All entries that are left. -/
def list (w : Walk α) : List α := w.kept ++ w.rest

/-- The entries before the key `id` are removed. -/
def skipTo (key : α → κ) (id : κ) (w : Walk α) : Walk α :=
  { w with
    rest := w.rest.dropWhile fun a => decide (key a < id)
    removed := w.removed || w.rest.head?.any fun a => decide (key a < id) }

/-- The key `id` is met: entries before it are removed, and its own entry is kept or removed. -/
def visit (key : α → κ) (id : κ) (keep : Bool) (w : Walk α) : Walk α :=
  let w := w.skipTo key id
  match w.rest with
  | [] => w
  | a :: rest =>
      if key a = id then
        if keep then { w with kept := w.kept ++ [a], rest := rest } else { w with rest := rest, removed := true }
      else w

/-- Everything ahead is removed. -/
def finish (w : Walk α) : Walk α := { w with rest := [], removed := w.removed || !w.rest.isEmpty }

theorem visit_sublist (id : κ) (keep : Bool) (w : Walk α) : (w.visit key id keep).list.Sublist w.list := by
  have hskip : (w.skipTo key id).list.Sublist w.list :=
    (List.dropWhile_sublist _).append_left w.kept
  unfold visit
  dsimp only
  split
  · exact hskip
  next a rest hrest =>
  have hlist : (w.skipTo key id).list = w.kept ++ a :: rest := by rw [list, hrest]; rfl
  split
  · split
    · refine List.Sublist.trans ?_ hskip
      rw [hlist]
      show (w.kept ++ [a] ++ rest).Sublist (w.kept ++ a :: rest)
      rw [List.append_assoc]
      exact List.Sublist.refl _
    · refine List.Sublist.trans ?_ hskip
      rw [hlist]
      exact (List.sublist_cons_self a rest).append_left w.kept
  · exact hskip

theorem finish_sublist (w : Walk α) : w.finish.list.Sublist w.list := by
  rw [list, finish, List.append_nil]
  exact List.sublist_append_left w.kept w.rest

/-- A key of `es` is met. -/
def met (idOf : ε → κ) (keepOf : ε → Bool) (es : List ε) (id : κ) : Bool :=
  es.any fun e => decide (idOf e = id) && keepOf e

section Met

variable {idOf : ε → κ} {keepOf : ε → Bool} {e : ε} {es : List ε} {w : Walk α}

theorem met_eq_true {id : κ} : met idOf keepOf es id = true ↔ ∃ e ∈ es, idOf e = id ∧ keepOf e = true := by
  simp [met, List.any_eq_true]

theorem met_eq_false_of_lt {id : κ} (h : ∀ e ∈ es, id < idOf e) : met idOf keepOf es id = false := by
  refine Bool.eq_false_iff.mpr fun hmet => ?_
  obtain ⟨d, hd, hkey, -⟩ := met_eq_true.mp hmet
  exact (h d hd).ne hkey.symm

/-- Behind the key of `e`, only the later ones are met. -/
theorem met_cons_of_lt {id : κ} (h : idOf e < id) : met idOf keepOf (e :: es) id = met idOf keepOf es id := by
  simp [met, h.ne]

theorem le_of_mem_skipTo (hs : Sorted key w.rest) (id : κ) : ∀ a ∈ (w.skipTo key id).rest, id ≤ key a := by
  obtain ⟨as, has⟩ : ∃ as, as = w.rest := ⟨_, rfl⟩
  rw [← has] at hs
  show ∀ a ∈ w.rest.dropWhile _, _
  rw [← has]
  clear has
  induction as with
  | nil => exact fun a ha => absurd ha List.not_mem_nil
  | cons b as ih =>
      obtain ⟨hlt, htail⟩ := List.pairwise_cons.mp hs
      rw [List.dropWhile_cons]
      split
      · exact ih htail
      · next hb =>
        have hle : id ≤ key b := not_lt.mp fun h => hb (decide_eq_true h)
        exact List.forall_mem_cons.mpr ⟨hle, fun a ha => hle.trans (hlt a ha).le⟩

/-- The entries that are removed on the way to the first of ascending keys are met by none of them. -/
theorem filter_skipTo (hlt : ∀ d ∈ es, idOf e < idOf d) :
    (w.rest.filter fun a => met idOf keepOf (e :: es) (key a)) =
      (w.skipTo key (idOf e)).rest.filter fun a => met idOf keepOf (e :: es) (key a) := by
  have hnone : ((w.rest.takeWhile fun a => decide (key a < idOf e)).filter fun a =>
      met idOf keepOf (e :: es) (key a)) = [] := by
    refine List.filter_eq_nil_iff.mpr fun a ha => ?_
    have hbefore : key a < idOf e :=
      of_decide_eq_true (List.mem_takeWhile_imp (p := fun a => decide (key a < idOf e)) ha)
    rw [met_eq_false_of_lt (List.forall_mem_cons.mpr ⟨hbefore, fun d hd => hbefore.trans (hlt d hd)⟩)]
    exact Bool.false_ne_true
  calc (w.rest.filter fun a => met idOf keepOf (e :: es) (key a))
      = (w.rest.takeWhile (fun a => decide (key a < idOf e)) ++
          w.rest.dropWhile fun a => decide (key a < idOf e)).filter fun a =>
            met idOf keepOf (e :: es) (key a) := by rw [List.takeWhile_append_dropWhile]
    _ = _ := by rw [List.filter_append, hnone, List.nil_append]; rfl

/-- What a visit keeps is the entry that is met; what stays ahead is behind it. -/
theorem visit_spec (keepOf : ε → Bool) (hs : Sorted key w.rest) (hlt : ∀ d ∈ es, idOf e < idOf d) :
    Sorted key (w.visit key (idOf e) (keepOf e)).rest ∧
      (w.visit key (idOf e) (keepOf e)).kept ++
        ((w.visit key (idOf e) (keepOf e)).rest.filter fun a => met idOf keepOf es (key a)) =
      w.kept ++ w.rest.filter fun a => met idOf keepOf (e :: es) (key a) := by
  have hs' : Sorted key (w.skipTo key (idOf e)).rest := hs.sublist (List.dropWhile_sublist _)
  have hge := le_of_mem_skipTo hs (idOf e)
  rw [filter_skipTo hlt]
  unfold visit
  dsimp only
  cases hrest : (w.skipTo key (idOf e)).rest with
  | nil => exact ⟨by rw [hrest]; exact List.Pairwise.nil, by rw [hrest]; rfl⟩
  | cons a rest =>
      rw [hrest] at hs' hge
      obtain ⟨halt, hsrest⟩ := List.pairwise_cons.mp hs'
      have hbehind : ∀ b ∈ rest, idOf e < key b := fun b hb => (hge a List.mem_cons_self).trans_lt (halt b hb)
      have hfilter : (rest.filter fun a => met idOf keepOf (e :: es) (key a)) =
          rest.filter fun a => met idOf keepOf es (key a) :=
        List.filter_congr fun b hb => met_cons_of_lt (hbehind b hb)
      dsimp only
      split
      · next heq =>
        -- the later keys are all behind the entry
        have hlater : met idOf keepOf es (key a) = false :=
          met_eq_false_of_lt fun d hd => heq ▸ hlt d hd
        have hmet : met idOf keepOf (e :: es) (key a) = keepOf e := by
          have hcons : met idOf keepOf (e :: es) (key a) = (keepOf e || met idOf keepOf es (key a)) := by
            simp [met, heq]
          rw [hcons, hlater, Bool.or_false]
        split
        · next hkeep =>
          refine ⟨hsrest, ?_⟩
          rw [List.filter_cons_of_pos (by rw [hmet, hkeep]), hfilter]
          show w.kept ++ [a] ++ _ = _
          rw [List.append_assoc]
          rfl
        · next hkeep =>
          refine ⟨hsrest, ?_⟩
          rw [List.filter_cons_of_neg (by rw [hmet]; exact hkeep), hfilter]
          rfl
      · next hne =>
        have hlt' : idOf e < key a := lt_of_le_of_ne (hge a List.mem_cons_self) (Ne.symm hne)
        refine ⟨by rw [hrest]; exact hs', ?_⟩
        have hall : ∀ b ∈ a :: rest, idOf e < key b := List.forall_mem_cons.mpr ⟨hlt', hbehind⟩
        rw [hrest, List.filter_congr fun b hb => met_cons_of_lt (hall b hb)]
        rfl

/-- **Visiting ascending keys keeps the entries that are met, and removes the others.** -/
theorem foldl_visit (idOf : ε → κ) (keepOf : ε → Bool) : ∀ {es : List ε} (w : Walk α), Sorted key w.rest →
    es.Pairwise (fun d e => idOf d < idOf e) →
      (es.foldl (fun w e => w.visit key (idOf e) (keepOf e)) w).kept =
        w.kept ++ w.rest.filter fun a => met idOf keepOf es (key a)
  | [], w, _, _ => by
      have hnone : (w.rest.filter fun a => met idOf keepOf [] (key a)) = [] :=
        List.filter_eq_nil_iff.mpr fun a _ => Bool.false_ne_true
      rw [hnone, List.append_nil]
      rfl
  | e :: es, w, hs, hasc => by
      obtain ⟨hlt, htail⟩ := List.pairwise_cons.mp hasc
      obtain ⟨hs', hstep⟩ := visit_spec keepOf hs hlt
      rw [List.foldl_cons, foldl_visit idOf keepOf _ hs' htail, hstep]

end Met

end Walk

end Anjay.Lib
