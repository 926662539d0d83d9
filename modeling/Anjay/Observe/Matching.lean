/-
  File:      Anjay/Observe/Matching.lean
  Subject:   Which observed paths a changed path concerns (`observe_for_each_matching`).

  * `inBounds_eq`: a bounded search calls the callback on the entries between the two bounds.
  * `mem_wildcard`, `mem_below`: the searches as prefixes of ids. A search for a shorter path finds
    the entry of that path, the last one finds everything at or below the query.
  * `observeForEachMatching_calls`: every entry that is a prefix of the query or has it as a prefix
    is visited exactly once, and no other entry is.
-/
import Anjay.Dm.Path
import Anjay.Lib.SearchTree
import Mathlib.Data.List.Nodup

namespace Anjay.Observe

open Lib

/-! ## 1. The searches -/

/-- `anjay_observe_path_entry_t`: a key of the tree, and the observations of that path. -/
structure PathEntry (ρ : Type) where
  path : UriPath
  refs : List ρ
  deriving DecidableEq, Repr

variable {ρ : Type}

/-- `_anjay_observe_path_entry_cmp`. -/
def observePathEntryCmp (left right : PathEntry ρ) : Int := left.path.compare right.path

/-- `observed_paths` of a connection. -/
abbrev ObservedPaths (ρ : Type) := SearchTree (observePathEntryCmp (ρ := ρ))

/-- `path_entry_query`: only the path of the entry is looked at. -/
def pathEntryQuery (path : UriPath) : PathEntry ρ := ⟨path, []⟩

/-- `ANJAY_FOREACH_BREAK`. -/
def foreachBreak : Int := -2 ^ 31

/-- A callback with the state it works on. -/
abbrev MatchingClb (ρ σ : Type) := PathEntry ρ → σ → Int × σ

/-- The loop `for (i = from; i < 4; ++i) path.ids[i] = id`. -/
def fillFrom (path : UriPath) (start : Nat) (id : Id) : UriPath :=
  (IdType.all.filter fun t => start ≤ t.toNat).foldl (fun p t => p.setId t id) path

section Searches

variable {σ : Type} [DecidableEq ρ]

/-- The loop of `observe_for_each_in_bounds`; `none` is the assertion in it. -/
def boundsLoop (paths : ObservedPaths ρ) (stop : Option (PathEntry ρ)) (clb : MatchingClb ρ σ) :
    Nat → Option (PathEntry ρ) → σ → Option (Int × σ)
  | 0, _, _ => none
  | fuel + 1, it, s =>
      if it = stop then some (0, s)
      else
        match it with
        | none => none
        | some e =>
            match clb e s with
            | (retval, s) =>
                if retval ≠ 0 then some (retval, s) else boundsLoop paths stop clb fuel (paths.next e) s

/-- `observe_for_each_in_bounds`. -/
def observeForEachInBounds (paths : ObservedPaths ρ) (lower upper : UriPath) (clb : MatchingClb ρ σ)
    (s : σ) : Option (Int × σ) :=
  let it := paths.lowerBound (pathEntryQuery lower)
  let stop := paths.upperBound (pathEntryQuery upper)
  if it.isNone ∧ stop.isSome then none
  else boundsLoop paths stop clb (paths.toList.length + 1) it s

/-- `observe_for_each_in_wildcard`. -/
def observeForEachInWildcard (paths : ObservedPaths ρ) (specimen : UriPath) (wildcardLevel : Nat)
    (clb : MatchingClb ρ σ) (s : σ) : Option (Int × σ) :=
  let path := fillFrom specimen wildcardLevel idInvalid
  observeForEachInBounds paths path path clb s

/-- The loop of `observe_for_each_matching` over the levels of the path. -/
def wildcardLoop (paths : ObservedPaths ρ) (path : UriPath) (clb : MatchingClb ρ σ) :
    List Nat → σ → Option (Int × σ)
  | [], s => some (0, s)
  | i :: is, s =>
      match observeForEachInWildcard paths path i clb s with
      | none => none
      | some (retval, s) => if retval ≠ 0 then some (retval, s) else wildcardLoop paths path clb is s

/-- `observe_for_each_matching`. -/
def observeForEachMatching (paths : ObservedPaths ρ) (path : UriPath) (clb : MatchingClb ρ σ) (s : σ) :
    Option (Int × σ) :=
  let finish := fun r : Int × σ => (if r.1 = foreachBreak then 0 else r.1, r.2)
  match wildcardLoop paths path clb (List.range path.length) s with
  | none => none
  | some (retval, s) =>
      if retval ≠ 0 then some (finish (retval, s))
      else
        (observeForEachInBounds paths (fillFrom path path.length 0)
          (fillFrom path path.length idInvalid) clb s).map finish

end Searches

/-! ## 2. Bounds as prefixes -/

theorem reflects_key : Reflects (observePathEntryCmp (ρ := ρ)) fun e => e.path.key :=
  ⟨fun a b => a.path.compare_neg b.path, fun a b => a.path.compare_pos b.path⟩

theorem ids_foldl_setId (id : Id) (t : IdType) : ∀ (ts : List IdType) (p : UriPath),
    (ts.foldl (fun p t => p.setId t id) p).ids t = if t ∈ ts then id else p.ids t
  | [], p => by simp
  | t' :: ts, p => by
      rw [List.foldl_cons, ids_foldl_setId id t ts, UriPath.ids_setId]
      by_cases h1 : t ∈ ts <;> by_cases h2 : t = t' <;> simp [h1, h2]

theorem ids_fillFrom (p : UriPath) (start : Nat) (id : Id) (t : IdType) :
    (fillFrom p start id).ids t = if start ≤ t.toNat then id else p.ids t := by
  rw [fillFrom, ids_foldl_setId]
  have hmem : t ∈ IdType.all := by cases t <;> decide
  simp [hmem]

/-- The ids of `p` from `ts` on, as `fillFrom` leaves them when it starts at the end of `p`. -/
def Filled (p q : UriPath) (id : Id) : List IdType → Prop
  | [] => True
  | t :: ts =>
      if p.ids t = idInvalid then ∀ t' ∈ t :: ts, q.ids t' = id
      else q.ids t = p.ids t ∧ Filled p q id ts

theorem filled_fillFrom (p : UriPath) (id : Id) :
    Filled p (fillFrom p p.length id) id IdType.all := by
  have hlen : ∀ t : IdType, t.toNat < p.length ↔ ∀ t' : IdType, t'.toNat ≤ t.toNat →
      p.ids t' ≠ idInvalid := p.lt_length_iff
  -- from an invalid id on everything is filled, before it nothing is
  have hge : ∀ t t' : IdType, p.ids t = idInvalid → t.toNat ≤ t'.toNat →
      (fillFrom p p.length id).ids t' = id := fun t t' ht hle => by
    have h : ¬ t'.toNat < p.length := fun h => (hlen t').mp h t hle ht
    rw [ids_fillFrom, if_pos (Nat.not_lt.mp h)]
  have hlt : ∀ t : IdType, (∀ t' : IdType, t'.toNat ≤ t.toNat → p.ids t' ≠ idInvalid) →
      (fillFrom p p.length id).ids t = p.ids t := fun t h => by
    rw [ids_fillFrom, if_neg (Nat.not_le.mpr ((hlen t).mpr h))]
  have hnext : ∀ (ts : List IdType), (∀ t ∈ ts, ∀ t' : IdType, t'.toNat < t.toNat →
      p.ids t' ≠ idInvalid ∨ t' ∈ ts) → ts.Pairwise (fun a b => a.toNat < b.toNat) →
      Filled p (fillFrom p p.length id) id ts := by
    intro ts
    induction ts with
    | nil => exact fun _ _ => trivial
    | cons t ts ih =>
        intro hbefore hsorted
        obtain ⟨hhead, htail⟩ := List.pairwise_cons.mp hsorted
        unfold Filled
        split
        · rename_i ht
          intro t' ht'
          rcases List.mem_cons.mp ht' with rfl | ht'
          · exact hge _ _ ht (Nat.le_refl _)
          · exact hge _ _ ht (Nat.le_of_lt (hhead t' ht'))
        · rename_i ht
          refine ⟨hlt t fun t' hle => ?_, ih (fun u hu t' hu' => ?_) htail⟩
          · rcases Nat.lt_or_eq_of_le hle with hlt' | heq
            · rcases hbefore t List.mem_cons_self t' hlt' with h | h
              · exact h
              · rcases List.mem_cons.mp h with rfl | h
                · exact ht
                · exact absurd (hhead t' h) (Nat.not_lt.mpr hle)
            · rw [IdType.toNat_inj heq]
              exact ht
          · rcases hbefore u (List.mem_cons_of_mem _ hu) t' hu' with h | h
            · exact Or.inl h
            · rcases List.mem_cons.mp h with rfl | h
              · exact Or.inl ht
              · exact Or.inr h
  refine hnext IdType.all (fun t _ t' _ => Or.inr ?_) (by decide)
  cases t' <;> decide

/-- Zeros are below everything. -/
theorem zeros_le {q : UriPath} : ∀ {ts : List IdType}, (∀ t ∈ ts, q.ids t = 0) → ∀ e : UriPath,
    q.keyFrom ts ≤ e.keyFrom ts
  | [], _, _ => le_refl _
  | t :: ts, h, e => by
      have h0 : q.ids t = 0 := h t List.mem_cons_self
      rcases lt_or_eq_of_le (Fin.zero_le (e.ids t)) with hlt | heq
      · exact le_of_lt (UriPath.keyFrom_lt_of_lt (h0 ▸ hlt) ts)
      · have ih := zeros_le (fun t' ht' => h t' (List.mem_cons_of_mem _ ht')) e
        have hne : (0 : Id) ≠ idInvalid := by decide
        rw [UriPath.keyFrom, UriPath.keyFrom, h0, ← heq, if_neg hne, if_neg hne]
        rw [← not_lt, List.cons_lt_cons_iff]
        rintro (h' | ⟨-, h'⟩)
        · exact lt_irrefl _ h'
        · exact absurd ih (not_le.mpr h')

/-- **Between the query filled with zeros and the query filled with invalid ids lie the paths with
    the ids of the query as a prefix.** -/
theorem between_iff {p lo hi : UriPath} (e : UriPath) : ∀ {ts : List IdType},
    Filled p lo 0 ts → Filled p hi idInvalid ts →
    (lo.keyFrom ts ≤ e.keyFrom ts ∧ e.keyFrom ts ≤ hi.keyFrom ts ↔
      p.validFrom ts <+: e.validFrom ts)
  | [], _, _ => by simp [UriPath.keyFrom, UriPath.validFrom]
  | t :: ts, hlo, hhi => by
      unfold Filled at hlo hhi
      unfold UriPath.validFrom
      by_cases hp : p.ids t = idInvalid
      · rw [if_pos hp] at hlo hhi ⊢
        refine ⟨fun _ => List.nil_prefix, fun _ => ⟨zeros_le hlo e, ?_⟩⟩
        have hinv : hi.ids t = idInvalid := hhi t List.mem_cons_self
        rcases lt_or_eq_of_le (UriPath.id_le_invalid (e.ids t)) with hlt | heq
        · exact le_of_lt (UriPath.keyFrom_lt_of_lt (hinv ▸ hlt) ts)
        · rw [UriPath.keyFrom, if_pos heq, UriPath.keyFrom, if_pos hinv]
      · rw [if_neg hp] at hlo hhi ⊢
        obtain ⟨hlo0, hlos⟩ := hlo
        obtain ⟨hhi0, hhis⟩ := hhi
        have ih := between_iff e hlos hhis
        rcases lt_trichotomy (e.ids t) (p.ids t) with hlt | heq | hgt
        · have hl := UriPath.keyFrom_lt_of_lt (p := e) (q := lo) (hlo0.symm ▸ hlt) ts
          refine ⟨fun h => absurd h.1 (not_le.mpr hl), fun h => ?_⟩
          by_cases he : e.ids t = idInvalid
          · simp [he] at h
          · rw [if_neg he, List.cons_prefix_cons] at h
            exact absurd h.1.symm hlt.ne
        · have he : e.ids t ≠ idInvalid := fun h => hp (heq ▸ h)
          rw [if_neg he, heq, List.cons_prefix_cons, ← ih]
          rw [UriPath.keyFrom, hlo0, if_neg hp, UriPath.keyFrom, if_neg he, heq, UriPath.keyFrom,
            hhi0, if_neg hp]
          simp only [← not_lt, List.cons_lt_cons_iff, lt_irrefl, false_or, true_and]
        · have hl := UriPath.keyFrom_lt_of_lt (p := hi) (q := e) (hhi0.symm ▸ hgt) ts
          refine ⟨fun h => absurd h.2 (not_le.mpr hl), fun h => ?_⟩
          by_cases he : e.ids t = idInvalid
          · simp [he] at h
          · rw [if_neg he, List.cons_prefix_cons] at h
            exact absurd h.1 hgt.ne

/-- The query cut off at a level. -/
theorem validFrom_cut (p : UriPath) (n : Nat) : ∀ (ts : List IdType),
    ts.Pairwise (fun a b => a.toNat < b.toNat) →
    (fillFrom p n idInvalid).validFrom ts
      = (p.validFrom ts).take (ts.filter fun t => t.toNat < n).length
  | [], _ => rfl
  | t :: ts, hsorted => by
      obtain ⟨hhead, htail⟩ := List.pairwise_cons.mp hsorted
      have ih := validFrom_cut p n ts htail
      rw [UriPath.validFrom, UriPath.validFrom, ids_fillFrom]
      by_cases hn : n ≤ t.toNat
      · have hnone : (t :: ts).filter (fun t => decide (t.toNat < n)) = [] := by
          refine List.filter_eq_nil_iff.mpr fun t' ht' => ?_
          rw [decide_eq_true_eq, not_lt]
          rcases List.mem_cons.mp ht' with rfl | ht'
          · exact hn
          · exact hn.trans (Nat.le_of_lt (hhead t' ht'))
        rw [if_pos hn, if_pos rfl, hnone]
        rfl
      · rw [if_neg hn, List.filter_cons_of_pos (by simpa using hn), List.length_cons]
        split
        · rfl
        · rw [ih, List.take_succ_cons]

theorem validIds_cut (p : UriPath) {n : Nat} (hn : n ≤ 4) :
    (fillFrom p n idInvalid).validIds = p.validIds.take n := by
  rw [UriPath.validIds, validFrom_cut p n IdType.all (by decide)]
  have hlen : (IdType.all.filter fun t => t.toNat < n).length = n := by
    match n, hn with
    | 0, _ => rfl
    | 1, _ => rfl
    | 2, _ => rfl
    | 3, _ => rfl
    | 4, _ => rfl
  rw [hlen]
  rfl

/-- **A search for a shorter path finds the entry of that path.** -/
theorem mem_wildcard (paths : ObservedPaths ρ) (p : UriPath) {n : Nat} (hn : n ≤ 4)
    (e : PathEntry ρ) :
    e ∈ paths.range (pathEntryQuery (fillFrom p n idInvalid))
        (pathEntryQuery (fillFrom p n idInvalid)) ↔
      e ∈ paths.toList ∧ e.path.validIds = p.validIds.take n := by
  rw [SearchTree.range, List.mem_filter, decide_eq_true_eq, reflects_key.le, reflects_key.lt, not_lt,
    ← validIds_cut p hn, ← UriPath.key_eq_iff]
  exact and_congr_right fun _ => ⟨fun h => le_antisymm h.2 h.1, fun h => ⟨h.ge, h.le⟩⟩

/-- **The last search finds everything that has the query as a prefix.** -/
theorem mem_below (paths : ObservedPaths ρ) (p : UriPath) (e : PathEntry ρ) :
    e ∈ paths.range (pathEntryQuery (fillFrom p p.length 0))
        (pathEntryQuery (fillFrom p p.length idInvalid)) ↔
      e ∈ paths.toList ∧ p.validIds <+: e.path.validIds := by
  rw [SearchTree.range, List.mem_filter, decide_eq_true_eq, reflects_key.le, reflects_key.lt, not_lt]
  exact and_congr_right fun _ =>
    between_iff e.path (filled_fillFrom p 0) (filled_fillFrom p idInvalid)

theorem lower_le_upper (p : UriPath) :
    (fillFrom p p.length 0).key ≤ (fillFrom p p.length idInvalid).key := by
  have h := (between_iff p (filled_fillFrom p 0) (filled_fillFrom p idInvalid)).mpr
    (List.prefix_refl _)
  exact h.1.trans h.2

theorem observedPaths_nodup (paths : ObservedPaths ρ) : paths.toList.Nodup :=
  paths.sorted.imp fun {a b} h e => by
    rw [reflects_key.lt, e] at h
    exact lt_irrefl _ h

/-- The entries the searches for the levels `is` of a path visit. -/
def wildcardVisits (paths : ObservedPaths ρ) (p : UriPath) (is : List Nat) : List (PathEntry ρ) :=
  is.flatMap fun i => paths.range (pathEntryQuery (fillFrom p i idInvalid))
    (pathEntryQuery (fillFrom p i idInvalid))

theorem mem_wildcardVisits {paths : ObservedPaths ρ} {p : UriPath} {e : PathEntry ρ} :
    e ∈ wildcardVisits paths p (List.range p.length) ↔
      e ∈ paths.toList ∧ ∃ n < p.length, e.path.validIds = p.validIds.take n := by
  rw [wildcardVisits, List.mem_flatMap]
  constructor
  · rintro ⟨n, hn, he⟩
    have hn := List.mem_range.mp hn
    obtain ⟨h1, h2⟩ := (mem_wildcard paths p ((Nat.le_of_lt hn).trans p.length_le) e).mp he
    exact ⟨h1, n, hn, h2⟩
  · rintro ⟨h1, n, hn, h2⟩
    exact ⟨n, List.mem_range.mpr hn,
      (mem_wildcard paths p ((Nat.le_of_lt hn).trans p.length_le) e).mpr ⟨h1, h2⟩⟩

theorem range_nodup (paths : ObservedPaths ρ) (lo hi : PathEntry ρ) : (paths.range lo hi).Nodup :=
  (observedPaths_nodup paths).filter _

/-- An entry that a search for a shorter path finds is of that length, so no two searches find the
    same one. -/
theorem wildcardVisits_nodup (paths : ObservedPaths ρ) (p : UriPath) :
    (wildcardVisits paths p (List.range p.length)).Nodup := by
  rw [wildcardVisits, List.nodup_flatMap]
  refine ⟨fun i _ => range_nodup paths _ _, ?_⟩
  have hlen : ∀ {i : Nat} {e : PathEntry ρ}, i ∈ List.range p.length →
      e ∈ paths.range (pathEntryQuery (fillFrom p i idInvalid))
        (pathEntryQuery (fillFrom p i idInvalid)) → e.path.length = i := by
    intro i e hi he
    have hi := List.mem_range.mp hi
    have h := ((mem_wildcard paths p ((Nat.le_of_lt hi).trans p.length_le) e).mp he).2
    rw [← UriPath.length_validIds, h, List.length_take, UriPath.length_validIds]
    omega
  refine List.Pairwise.imp_of_mem ?_ List.nodup_range
  intro i j hi hj hne e he1 he2
  exact hne ((hlen hi he1).symm.trans (hlen hj he2))

/-! ## 3. The calls -/

section Calls

variable {σ : Type} [DecidableEq ρ] {clb : MatchingClb ρ σ}

/-- What a callback that never fails makes of the state when it is called on some entries in turn. -/
def callAll (clb : MatchingClb ρ σ) (es : List (PathEntry ρ)) (s : σ) : σ :=
  es.foldl (fun s e => (clb e s).2) s

/-- The loop runs from one element to another one behind it. -/
theorem boundsLoop_eq (hclb : ∀ e s, (clb e s).1 = 0) (paths : ObservedPaths ρ)
    {after : List (PathEntry ρ)} : ∀ (es : List (PathEntry ρ)) {before : List (PathEntry ρ)}
      {fuel : Nat} (s : σ), paths.toList = before ++ (es ++ after) → es.length < fuel →
      boundsLoop paths after.head? clb fuel (es ++ after).head? s = some (0, callAll clb es s)
  | [], before, fuel + 1, s, _, _ => by
      rw [List.nil_append]
      unfold boundsLoop
      rw [if_pos rfl]
      rfl
  | e :: es, before, fuel + 1, s, hsplit, hfuel => by
      have hnodup := observedPaths_nodup paths
      rw [hsplit] at hnodup
      have hne : ((e :: es) ++ after).head? ≠ after.head? := by
        intro h
        have hmem : e ∈ after := List.mem_of_head? h.symm
        have hcons := (List.nodup_append.mp hnodup).2.1
        rw [List.cons_append, List.nodup_cons] at hcons
        exact hcons.1 (List.mem_append_right _ hmem)
      have hnext : paths.next e = (es ++ after).head? := SearchTree.next_eq reflects_key paths hsplit
      have hsplit' : paths.toList = (before ++ [e]) ++ (es ++ after) := by
        rw [hsplit, List.append_assoc]
        rfl
      unfold boundsLoop
      rw [if_neg hne]
      simp only [List.cons_append, List.head?_cons, hclb, ne_eq, not_true_eq_false, if_false, hnext]
      exact boundsLoop_eq hclb paths es _ hsplit' (Nat.lt_of_succ_lt_succ hfuel)

/-- **A bounded search calls the callback on the entries between the bounds, in order.** -/
theorem inBounds_eq (hclb : ∀ e s, (clb e s).1 = 0) (paths : ObservedPaths ρ) {lower upper : UriPath}
    (hle : lower.key ≤ upper.key) (s : σ) :
    observeForEachInBounds paths lower upper clb s = some (0, callAll clb
      (paths.range (pathEntryQuery lower) (pathEntryQuery upper)) s) := by
  have hkey : (pathEntryQuery lower : PathEntry ρ).path.key
      ≤ (pathEntryQuery upper : PathEntry ρ).path.key := hle
  obtain ⟨before, after, hsplit, hlo, hhi⟩ := SearchTree.range_split reflects_key paths hkey
  have hassert : ¬ ((paths.lowerBound (pathEntryQuery lower)).isNone ∧
      (paths.upperBound (pathEntryQuery upper)).isSome) := by
    rw [hlo, hhi]
    rintro ⟨h1, h2⟩
    obtain ⟨e, he⟩ := Option.isSome_iff_exists.mp h2
    rw [Option.isNone_iff_eq_none, List.head?_eq_none_iff, List.append_eq_nil_iff] at h1
    rw [h1.2] at he
    cases he
  unfold observeForEachInBounds
  rw [if_neg hassert, hlo, hhi]
  refine boundsLoop_eq hclb paths _ s hsplit ?_
  rw [hsplit]
  simp only [List.length_append]
  omega

theorem wildcardLoop_eq (hclb : ∀ e s, (clb e s).1 = 0) (paths : ObservedPaths ρ) (p : UriPath) :
    ∀ (is : List Nat) (s : σ),
      wildcardLoop paths p clb is s = some (0, callAll clb (wildcardVisits paths p is) s)
  | [], s => rfl
  | i :: is, s => by
      rw [wildcardLoop, observeForEachInWildcard]
      simp only [inBounds_eq hclb paths (le_refl (fillFrom p i idInvalid).key), ne_eq,
        not_true_eq_false, if_false]
      rw [wildcardLoop_eq hclb paths p is, wildcardVisits, wildcardVisits, List.flatMap_cons, callAll,
        callAll, callAll, List.foldl_append]

/-- **Every stored path that is a prefix of the query, or has it as a prefix, is visited exactly once,
    and no other one is.** -/
theorem observeForEachMatching_calls (hclb : ∀ e s, (clb e s).1 = 0) (paths : ObservedPaths ρ)
    (path : UriPath) (s : σ) :
    ∃ visited : List (PathEntry ρ), visited.Nodup ∧
      (∀ e, e ∈ visited ↔ e ∈ paths.toList ∧
        (e.path.validIds <+: path.validIds ∨ path.validIds <+: e.path.validIds)) ∧
      observeForEachMatching paths path clb s = some (0, callAll clb visited s) := by
  have hle := lower_le_upper path
  refine ⟨wildcardVisits paths path (List.range path.length) ++
    paths.range (pathEntryQuery (fillFrom path path.length 0))
      (pathEntryQuery (fillFrom path path.length idInvalid)), ?_, fun e => ?_, ?_⟩
  · refine List.nodup_append.mpr ⟨wildcardVisits_nodup paths path, range_nodup paths _ _, ?_⟩
    rintro e he1 e' he2 rfl
    obtain ⟨-, n, hn, h1⟩ := mem_wildcardVisits.mp he1
    have h2 := ((mem_below paths path e).mp he2).2.length_le
    rw [h1, List.length_take, UriPath.length_validIds] at h2
    omega
  · rw [List.mem_append, mem_wildcardVisits, mem_below]
    constructor
    · rintro (⟨h1, n, -, h2⟩ | ⟨h1, h2⟩)
      · exact ⟨h1, Or.inl (h2 ▸ List.take_prefix _ _)⟩
      · exact ⟨h1, Or.inr h2⟩
    · rintro ⟨h1, h2 | h2⟩
      · have htake : e.path.validIds = path.validIds.take e.path.length := by
          rw [← UriPath.length_validIds]
          exact List.prefix_iff_eq_take.mp h2
        rcases Nat.lt_or_ge e.path.length path.length with hlt | hge
        · exact Or.inl ⟨h1, _, hlt, htake⟩
        · right
          rw [List.take_of_length_le (by rw [UriPath.length_validIds]; exact hge)] at htake
          exact ⟨h1, htake ▸ List.prefix_refl _⟩
      · exact Or.inr ⟨h1, h2⟩
  · rw [observeForEachMatching, wildcardLoop_eq hclb]
    simp only [ne_eq, not_true_eq_false, if_false, inBounds_eq hclb paths hle, Option.map_some]
    rw [if_neg (by decide), callAll, callAll, callAll, List.foldl_append]

end Calls

/-- Observations of `/`, `/3`, `/3/0/7`, `/3/1` and `/4`, and a change of `/3/0`. -/
theorem observeForEachMatching_device :
    let entry := fun path : UriPath => (⟨path, []⟩ : PathEntry Unit)
    let paths : ObservedPaths Unit :=
      ⟨.node (.node .leaf (entry (.resource 3 0 7)) (.node .leaf (entry (.instancePath 3 1)) .leaf))
        (entry (.object 3)) (.node .leaf (entry (.object 4)) (.node .leaf (entry .root) .leaf)),
        by decide⟩
    let clb : MatchingClb Unit (List UriPath) := fun e s => (0, s ++ [e.path])
    (∀ e s, (clb e s).1 = 0) ∧ ∃ visited : List (PathEntry Unit), visited.Nodup ∧
      (∀ e, e ∈ visited ↔ e ∈ paths.toList ∧ (e.path.validIds <+: (UriPath.instancePath 3 0).validIds ∨
        (UriPath.instancePath 3 0).validIds <+: e.path.validIds)) ∧
      observeForEachMatching paths (.instancePath 3 0) clb [] = some (0, callAll clb visited []) := by
  intro entry paths clb
  exact ⟨fun _ _ => rfl, observeForEachMatching_calls (fun _ _ => rfl) paths _ []⟩

end Anjay.Observe
