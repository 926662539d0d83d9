/-
  File:      Anjay/Lib/RefIndex.lean
  Subject:   An index of references: a sorted list of entries, each with the references to those that use its key,
             where an entry exists only as long as it has a reference.

  * `change_cases`: one change of the references of a key, or of none.
  * `dropAll_spec`: references that are there can be dropped one after the other.
  * `addFrom_spec`: several references are added, or none where an allocation fails on the way.
  * `index_ext`: the references of the keys determine the index.
  * `referring_perm`: the keys that refer to something, from what it uses.
-/
import Anjay.Lib.KeyedList
import Mathlib.Data.List.Count

namespace Anjay.Lib

/-- How the entries of an index are made and read: `π` is what is looked for, `κ` the key of it. -/
structure RefShape (π α κ ρ : Type) where
  fresh : π → α
  key : α → κ
  refs : α → List ρ
  set : List ρ → α → α

/-- Whether there is memory for a new entry, and for a new reference. -/
structure RefAlloc where
  entry : Bool
  element : Bool
  deriving DecidableEq, Repr

namespace RefShape

variable {π α κ ρ : Type} (S : RefShape π α κ ρ)

structure Lawful : Prop where
  refs_fresh : ∀ p, S.refs (S.fresh p) = []
  refs_set : ∀ rs a, S.refs (S.set rs a) = rs
  key_set : ∀ rs a, S.key (S.set rs a) = S.key a

/-- The key that is looked for. -/
def keyOf (p : π) : κ := S.key (S.fresh p)

/-- Whether an entry has no reference left. -/
def unused (a : α) : Bool := (S.refs a).isEmpty

/-- Changes the references of an entry, where `g` gives others. -/
def changeEntry (g : List ρ → Option (List ρ)) (a : α) : Bool × α :=
  match g (S.refs a) with
  | some rs => (true, S.set rs a)
  | none => (false, a)

/-! ## 1. Operations -/

section Operations

variable [LinearOrder κ]

/-- Entries in order, each with a reference. -/
abbrev Index (as : List α) : Prop := Level S.key (fun a => S.refs a ≠ []) as

/-- The references of a key. -/
def refsAt (id : κ) (as : List α) : List ρ := lookup S.key [] S.refs id as

/-- Changes the references of a key, in an entry that is found or made; an entry left without one is deleted. -/
def change (allocated : Bool) (g : List ρ → Option (List ρ)) (p : π) (as : List α) : Bool × List α :=
  updateEntry S.key (S.fresh p) S.unused allocated (S.keyOf p) false (S.changeEntry g) as

/-- Adds a reference. -/
def addRef (alloc : RefAlloc) (p : π) (r : ρ) (as : List α) : Bool × List α :=
  S.change alloc.entry (fun rs => if alloc.element then some (r :: rs) else none) p as

variable [DecidableEq ρ]

/-- Drops the first reference to `r`; `false` if there is none. -/
def dropRef (p : π) (r : ρ) (as : List α) : Bool × List α :=
  S.change false (fun rs => if r ∈ rs then some (rs.erase r) else none) p as

/-- Drops a reference for each of some keys; `none` if one is not there. -/
def dropAll (r : ρ) : List π → List α → Option (List α)
  | [], as => some as
  | p :: ps, as =>
      match S.dropRef p r as with
      | (true, as) => dropAll r ps as
      | (false, _) => none

/-- Adds references for the keys of `ps`; where that fails, drops those for `before`, which were added already. -/
def addFrom (alloc : Nat → RefAlloc) (r : ρ) (before : List π) : List π → List α → Option (Bool × List α)
  | [], as => some (true, as)
  | p :: ps, as =>
      match S.addRef (alloc before.length) p r as with
      | (true, as) => addFrom alloc r (before ++ [p]) ps as
      | (false, as) => (S.dropAll r before as).map fun as => (false, as)

end Operations

/-! ## 2. One change -/

variable {S}

theorem changeEntry_cases (g : List ρ → Option (List ρ)) (a : α) :
    (∃ rs, g (S.refs a) = some rs ∧ S.changeEntry g a = (true, S.set rs a)) ∨
      g (S.refs a) = none ∧ S.changeEntry g a = (false, a) := by
  unfold changeEntry
  cases g (S.refs a) with
  | some rs => exact .inl ⟨rs, rfl, rfl⟩
  | none => exact .inr ⟨rfl, rfl⟩

theorem changeEntry_key (hS : S.Lawful) (g : List ρ → Option (List ρ)) (a : α) :
    S.key (S.changeEntry g a).2 = S.key a := by
  rcases changeEntry_cases g a with ⟨rs, -, heq⟩ | ⟨-, heq⟩
  · rw [heq]
    exact hS.key_set rs a
  · rw [heq]

variable [LinearOrder κ] {as bs : List α} {p : π} {r : ρ} {g : List ρ → Option (List ρ)}

theorem change_index (hS : S.Lawful) (h : S.Index as) (allocated : Bool) (g : List ρ → Option (List ρ)) (p : π) :
    S.Index (S.change allocated g p as).2 :=
  Level.updateEntry h (fun _ _ => (trivial : True))
    (fun a _ hne hnil => by rw [unused, hnil] at hne; cases hne) ⟨rfl, trivial⟩
    fun a _ hkey => ⟨(changeEntry_key hS g a).trans hkey, trivial⟩

/-- **A change either does nothing to the references, or it makes those of the key what `g` gives.** -/
theorem change_cases (hS : S.Lawful) (h : S.Index as) (allocated : Bool) (g : List ρ → Option (List ρ)) (p : π) :
    ((S.change allocated g p as).1 = false ∧ ∀ id, S.refsAt id (S.change allocated g p as).2 = S.refsAt id as) ∨
      (S.change allocated g p as).1 = true ∧ ∃ rs, g (S.refsAt (S.keyOf p) as) = some rs ∧
        ∀ id, S.refsAt id (S.change allocated g p as).2 = if id = S.keyOf p then rs else S.refsAt id as := by
  have hkey : ∀ a, S.key a = S.keyOf p → S.key (S.changeEntry g a).2 = S.keyOf p :=
    fun a ha => (changeEntry_key hS g a).trans ha
  obtain ⟨hother, hid⟩ : (∀ j, j ≠ S.keyOf p →
      lookup S.key [] S.refs j (S.change allocated g p as).2 = lookup S.key [] S.refs j as) ∧ _ :=
    lookup_updateEntry h.sorted (show S.key (S.fresh p) = S.keyOf p from rfl) hkey (hS.refs_fresh p)
      (fun a ha => List.isEmpty_iff.mp ha)
  have hsame : ∀ (rs : List ρ) (id : κ), S.refsAt (S.keyOf p) (S.change allocated g p as).2 = rs →
      S.refsAt id (S.change allocated g p as).2 = if id = S.keyOf p then rs else S.refsAt id as := by
    intro rs id hrs
    by_cases heq : id = S.keyOf p
    · rw [if_pos heq, heq, hrs]
    · rw [if_neg heq]
      exact hother id heq
  have hunchanged : S.refsAt (S.keyOf p) (S.change allocated g p as).2 = S.refsAt (S.keyOf p) as →
      ∀ id, S.refsAt id (S.change allocated g p as).2 = S.refsAt id as := by
    intro hrs id
    rw [hsame _ id hrs]
    split
    next heq => rw [heq]
    · rfl
  rcases hid with ⟨hres, heq⟩ | ⟨a, -, -, hres, hnew, hold⟩
  · exact .inl ⟨hres, hunchanged heq⟩
  · rcases changeEntry_cases g a with ⟨rs, hg, hchange⟩ | ⟨-, hchange⟩
    · rw [hchange] at hres hnew
      refine .inr ⟨hres, rs, ?_, fun id => hsame rs id (hnew.trans (hS.refs_set rs a))⟩
      rw [← hg]
      exact congrArg g hold
    · rw [hchange] at hres hnew
      exact .inl ⟨hres, hunchanged (hnew.trans hold.symm)⟩

theorem change_of_refs (hrefs : S.refsAt (S.keyOf p) as ≠ []) {rs : List ρ}
    (hg : g (S.refsAt (S.keyOf p) as) = some rs) (allocated : Bool) : (S.change allocated g p as).1 = true := by
  unfold refsAt lookup at hrefs hg
  unfold change updateEntry
  rw [withEntry_fst_eq]
  cases hfound : findEntry S.key (S.keyOf p) as with
  | none =>
      rw [hfound] at hrefs
      exact absurd rfl hrefs
  | some a =>
      rw [hfound] at hg
      rcases changeEntry_cases g a with ⟨rs, -, hchange⟩ | ⟨hnone, -⟩
      · exact congrArg Prod.fst hchange
      · exact absurd (hnone.symm.trans hg) (by simp)

/-! ## 3. The references determine the index -/

theorem findEntry_of_mem {a : α} : ∀ {as : List α}, Sorted S.key as → a ∈ as → findEntry S.key (S.key a) as = some a
  | b :: as, hs, ha => by
      obtain ⟨hlt, htail⟩ := List.pairwise_cons.mp hs
      rw [findEntry]
      rcases List.mem_cons.mp ha with rfl | ha
      · rw [if_neg (lt_irrefl _), if_pos rfl]
      · rw [if_pos (hlt a ha)]
        exact findEntry_of_mem htail ha

/-- The references of a key, gathered from all entries. -/
theorem refsAt_filter {id : κ} {q : α → Bool} (hq : ∀ a, q a = true ↔ S.key a = id) : ∀ {as : List α},
    Sorted S.key as → (as.filter q).flatMap S.refs = S.refsAt id as
  | [], _ => rfl
  | a :: as, hs => by
      obtain ⟨hlt, htail⟩ := List.pairwise_cons.mp hs
      have ih := refsAt_filter hq htail
      unfold refsAt lookup at ih ⊢
      rw [findEntry]
      rcases lt_trichotomy (S.key a) id with h | h | h
      · rw [if_pos h, List.filter_cons_of_neg fun ha => h.ne ((hq a).mp ha), ih]
      · rw [if_neg h.not_lt, if_pos h, List.filter_cons_of_pos ((hq a).mpr h), List.flatMap_cons, ih,
          findEntry_of_lt fun b hb => h ▸ hlt b hb]
        exact List.append_nil _
      · rw [if_neg h.not_gt, if_neg h.ne', List.filter_cons_of_neg fun ha => h.ne' ((hq a).mp ha), ih,
          findEntry_of_lt fun b hb => h.trans (hlt b hb)]

/-- What an index shows: its keys, each with its references. -/
def shown (S : RefShape π α κ ρ) (as : List α) : List (κ × List ρ) := as.map fun a => (S.key a, S.refs a)

theorem mem_shown (h : S.Index as) {id : κ} {rs : List ρ} : (id, rs) ∈ S.shown as ↔ rs ≠ [] ∧ S.refsAt id as = rs := by
  unfold shown refsAt lookup
  rw [List.mem_map]
  constructor
  · intro ⟨a, ha, heq⟩
    cases heq
    rw [findEntry_of_mem h.sorted ha]
    exact ⟨h.all a ha, rfl⟩
  · intro ⟨hne, heq⟩
    cases hfound : findEntry S.key id as with
    | none =>
        rw [hfound] at heq
        exact absurd heq.symm hne
    | some a =>
        obtain ⟨ha, hkey⟩ := findEntry_mem hfound
        rw [hfound] at heq
        exact ⟨a, ha, Prod.ext hkey heq⟩

theorem shown_sorted (h : S.Index as) : (S.shown as).Pairwise fun a b => a.1 < b.1 := List.pairwise_map.mpr h.sorted

/-- **Two indices with the same references for every key show the same.** -/
theorem index_ext (has : S.Index as) (hbs : S.Index bs) (heq : ∀ id, S.refsAt id as = S.refsAt id bs) :
    S.shown as = S.shown bs := by
  have hnodup : ∀ {cs : List α}, S.Index cs → (S.shown cs).Nodup :=
    fun hcs => (shown_sorted hcs).imp fun hlt he => (congrArg Prod.fst he ▸ hlt.ne) rfl
  have hperm : (S.shown as).Perm (S.shown bs) := (List.perm_ext_iff_of_nodup (hnodup has) (hnodup hbs)).mpr fun e => by
    obtain ⟨id, rs⟩ := e
    rw [mem_shown has, mem_shown hbs, heq]
  exact hperm.eq_of_pairwise (fun a b _ _ hab hba => absurd hab hba.not_gt) (shown_sorted has) (shown_sorted hbs)

/-! ## 4. Several references -/

variable [DecidableEq ρ]

theorem dropRef_spec (hS : S.Lawful) (h : S.Index as) (hmem : r ∈ S.refsAt (S.keyOf p) as) :
    ∃ as', S.dropRef p r as = (true, as') ∧ S.Index as' ∧
      ∀ id, S.refsAt id as' = if id = S.keyOf p then (S.refsAt (S.keyOf p) as).erase r else S.refsAt id as := by
  have hsome : (if r ∈ S.refsAt (S.keyOf p) as then some ((S.refsAt (S.keyOf p) as).erase r) else none) =
      some ((S.refsAt (S.keyOf p) as).erase r) := if_pos hmem
  have htrue : (S.dropRef p r as).1 = true := change_of_refs (List.ne_nil_of_mem hmem) hsome false
  rcases change_cases hS h false (fun rs => if r ∈ rs then some (rs.erase r) else none) p with
    ⟨hfalse, -⟩ | ⟨-, rs, hrs, hspec⟩
  · exact absurd (htrue.symm.trans hfalse) (by decide)
  · have hrs' : rs = (S.refsAt (S.keyOf p) as).erase r := Option.some.inj (hrs.symm.trans hsome)
    exact ⟨(S.dropRef p r as).2, Prod.ext htrue rfl, change_index hS h _ _ _, hrs' ▸ hspec⟩

/-- The references of one key without the first `n` references to `r`. -/
def without (r : ρ) (n : Nat) (rs : List ρ) : List ρ := (fun rs => rs.erase r)^[n] rs

theorem without_succ (r : ρ) (n : Nat) (rs : List ρ) : without r (n + 1) rs = without r n (rs.erase r) := rfl

theorem without_replicate (r : ρ) (rs : List ρ) : ∀ n, without r n (List.replicate n r ++ rs) = rs
  | 0 => rfl
  | n + 1 => by
      rw [without_succ, List.replicate_succ, List.cons_append, List.erase_cons_head]
      exact without_replicate r rs n

theorem count_without_self (r : ρ) : ∀ (n : Nat) (rs : List ρ), (without r n rs).count r = rs.count r - n
  | 0, _ => rfl
  | n + 1, rs => by
      rw [without_succ, count_without_self r n, List.count_erase_self]
      omega

theorem count_without_ne {q r : ρ} (hne : q ≠ r) : ∀ (n : Nat) (rs : List ρ), (without r n rs).count q = rs.count q
  | 0, _ => rfl
  | n + 1, rs => by rw [without_succ, count_without_ne hne n, List.count_erase_of_ne hne]

/-- How many of `ps` are looked for under a key. -/
def uses (S : RefShape π α κ ρ) (id : κ) (ps : List π) : Nat := (ps.map S.keyOf).count id

omit [DecidableEq ρ] in
theorem uses_cons (id : κ) (p : π) (ps : List π) : S.uses id (p :: ps) = S.uses id ps + if id = S.keyOf p then 1 else 0 := by
  unfold uses
  rw [List.map_cons, List.count_cons]
  by_cases h : id = S.keyOf p
  · rw [if_pos h, if_pos (beq_iff_eq.mpr h.symm)]
  · rw [if_neg h, if_neg fun heq => h (beq_iff_eq.mp heq).symm]

omit [DecidableEq ρ] in
theorem uses_eq_countP {id : κ} {q : π → Bool} (hq : ∀ p, q p = true ↔ S.keyOf p = id) (ps : List π) :
    S.uses id ps = ps.countP q := by
  unfold uses List.count
  rw [List.countP_map]
  refine List.countP_congr fun p _ => ?_
  rw [hq]
  exact beq_iff_eq

omit [DecidableEq ρ] in
theorem uses_append (id : κ) (ps qs : List π) : S.uses id (ps ++ qs) = S.uses id ps + S.uses id qs := by
  unfold uses
  rw [List.map_append, List.count_append]

/-- **Where every key has as many references to `r` as it is used, they can all be dropped.** -/
theorem dropAll_spec (hS : S.Lawful) : ∀ {ps : List π} {as : List α}, S.Index as →
    (∀ id, S.uses id ps ≤ (S.refsAt id as).count r) → ∃ as', S.dropAll r ps as = some as' ∧ S.Index as' ∧
      ∀ id, S.refsAt id as' = without r (S.uses id ps) (S.refsAt id as)
  | [], as, h, _ => ⟨as, rfl, h, fun _ => rfl⟩
  | p :: ps, as, h, hcount => by
      have hmem : r ∈ S.refsAt (S.keyOf p) as := by
        have hone := hcount (S.keyOf p)
        rw [uses_cons, if_pos rfl] at hone
        exact List.count_pos_iff.mp (by omega)
      obtain ⟨as₁, hdrop, h₁, hspec⟩ := dropRef_spec hS h hmem
      have hrest : ∀ id, S.uses id ps ≤ (S.refsAt id as₁).count r := by
        intro id
        have hle := hcount id
        rw [uses_cons] at hle
        rw [hspec id]
        split
        next heq =>
          rw [if_pos heq, heq] at hle
          rw [List.count_erase_self, heq]
          omega
        next hne =>
          rw [if_neg hne] at hle
          exact hle
      obtain ⟨as', hall, h', hspec'⟩ := dropAll_spec hS h₁ hrest
      refine ⟨as', ?_, h', fun id => ?_⟩
      · rw [dropAll, hdrop]
        exact hall
      · rw [hspec' id, hspec id, uses_cons]
        split
        next heq => rw [heq, without_succ]
        · rfl

omit [DecidableEq ρ] in
theorem addRef_cases (hS : S.Lawful) (h : S.Index as) (alloc : RefAlloc) (p : π) (r : ρ) :
    (∃ as', S.addRef alloc p r as = (false, as') ∧ S.Index as' ∧ ∀ id, S.refsAt id as' = S.refsAt id as) ∨
      ∃ as', S.addRef alloc p r as = (true, as') ∧ S.Index as' ∧
        ∀ id, S.refsAt id as' = List.replicate (S.uses id [p]) r ++ S.refsAt id as := by
  have hindex := change_index hS h alloc.entry (fun rs => if alloc.element then some (r :: rs) else none) p
  rcases change_cases hS h alloc.entry (fun rs => if alloc.element then some (r :: rs) else none) p with
    ⟨hfalse, hspec⟩ | ⟨htrue, rs, hrs, hspec⟩
  · exact .inl ⟨_, Prod.ext hfalse rfl, hindex, hspec⟩
  · refine .inr ⟨_, Prod.ext htrue rfl, hindex, fun id => ?_⟩
    have hadded : rs = r :: S.refsAt (S.keyOf p) as := by
      split at hrs
      · exact (Option.some.inj hrs).symm
      · cases hrs
    refine (hspec id).trans ?_
    rw [uses_cons, hadded]
    split
    next heq =>
      rw [heq]
      rfl
    · rfl

/-- **References for all of some keys are added, or the index shows what it showed**: the loop never looks for a
    reference in vain. -/
theorem addFrom_spec (hS : S.Lawful) (alloc : Nat → RefAlloc) (h : S.Index as) : ∀ {ps before : List π} {cs : List α},
    S.Index cs → (∀ id, S.refsAt id cs = List.replicate (S.uses id before) r ++ S.refsAt id as) →
    ∃ good as', S.addFrom alloc r before ps cs = some (good, as') ∧ S.Index as' ∧ ∀ id, S.refsAt id as' =
      if good then List.replicate (S.uses id (before ++ ps)) r ++ S.refsAt id as else S.refsAt id as
  | [], before, cs, hcs, hspec => ⟨true, cs, rfl, hcs, by rw [List.append_nil]; exact hspec⟩
  | p :: ps, before, cs, hcs, hspec => by
      rcases addRef_cases hS hcs (alloc before.length) p r with ⟨ds, hadd, hds, hsame⟩ | ⟨ds, hadd, hds, hmore⟩
      · -- what was added is in front of what was there, so it can be dropped again
        have hcount : ∀ id, S.uses id before ≤ (S.refsAt id ds).count r := by
          intro id
          rw [hsame id, hspec id, List.count_append, List.count_replicate_self]
          exact Nat.le_add_right _ _
        obtain ⟨as', hdrop, has', hback⟩ := dropAll_spec hS hds hcount
        refine ⟨false, as', ?_, has', fun id => ?_⟩
        · rw [addFrom, hadd]
          dsimp only
          rw [hdrop]
          rfl
        · rw [hback id, hsame id, hspec id, without_replicate]
          exact (if_neg (by decide)).symm
      · have hnext : ∀ id, S.refsAt id ds = List.replicate (S.uses id (before ++ [p])) r ++ S.refsAt id as := by
          intro id
          rw [hmore id, hspec id, uses_append, Nat.add_comm, List.replicate_add, List.append_assoc]
        obtain ⟨good, as', hrun, has', hresult⟩ := addFrom_spec hS alloc h hds hnext
        refine ⟨good, as', ?_, has', fun id => ?_⟩
        · rw [addFrom, hadd]
          exact hrun
        · rw [hresult id, List.append_assoc]
          rfl

omit [DecidableEq ρ] in
theorem addRef_of_memory (p : π) (r : ρ) (as : List α) : (S.addRef ⟨true, true⟩ p r as).1 = true := by
  unfold addRef change updateEntry
  rw [withEntry_fst_eq]
  cases findEntry S.key (S.keyOf p) as <;> rfl

/-- **With memory for everything, all references are added.** -/
theorem addFrom_of_memory : ∀ {before ps : List π} {as as' : List α} {good : Bool},
    S.addFrom (fun _ => ⟨true, true⟩) r before ps as = some (good, as') → good = true
  | _, [], _, _, _, h => by
      cases h
      rfl
  | before, p :: ps, as, as', good, h => by
      have hadd := S.addRef_of_memory p r as
      rw [addFrom] at h
      split at h
      · exact addFrom_of_memory h
      next heq =>
        rw [heq] at hadd
        exact absurd hadd Bool.false_ne_true

/-! ## 5. The keys that refer to something -/

/-- The keys of the entries that refer to `r`, once for each reference. -/
def referring (S : RefShape π α κ ρ) (r : ρ) (as : List α) : List κ :=
  as.flatMap fun a => List.replicate ((S.refs a).count r) (S.key a)

omit [LinearOrder κ] in
/-- The keys that pass a test are those of the entries that pass it. -/
theorem referring_filter (r : ρ) (q : κ → Bool) : ∀ as : List α,
    S.referring r (as.filter fun a => q (S.key a)) = (S.referring r as).filter q
  | [] => rfl
  | a :: as => by
      have ih := referring_filter r q as
      unfold referring at ih ⊢
      rw [List.flatMap_cons, List.filter_append, ← ih, List.filter_replicate, List.filter_cons]
      cases q (S.key a) <;> rfl

theorem count_referring (h : S.Index as) (r : ρ) (id : κ) : (S.referring r as).count id = (S.refsAt id as).count r := by
  have hcount : ∀ as : List α, (S.referring r as).count id =
      ((as.filter fun a => decide (S.key a = id)).flatMap S.refs).count r := by
    intro as
    induction as with
    | nil => rfl
    | cons a as ih =>
        unfold referring at ih ⊢
        rw [List.flatMap_cons, List.count_append, ih, List.count_replicate, List.filter_cons]
        by_cases hkey : S.key a = id
        · simp [hkey]
        · simp [hkey]
  rw [hcount, refsAt_filter (fun a => decide_eq_true_iff) h.sorted]

/-- **Where every key has as many references to `r` as `r` uses it, the keys that refer to `r` are those it uses.** -/
theorem referring_perm (h : S.Index as) {r : ρ} {ps : List π} (hrefs : ∀ id, (S.refsAt id as).count r = S.uses id ps) :
    (S.referring r as).Perm (ps.map S.keyOf) :=
  List.perm_iff_count.mpr fun id => (count_referring h r id).trans (hrefs id)

end RefShape

end Anjay.Lib
