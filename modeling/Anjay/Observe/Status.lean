/-
  File:      Anjay/Observe/Status.lean
  Subject:   Whether a resource is observed, and how often (`_anjay_observe_status`).

  * `Shortest`: the shortest of some periods that are set.
  * `mem_keys_iff`: the tree has an entry for a path iff an observation names it.
  * `reachable_status`: a resource is reported as observed iff an observation of any connection concerns it, with the
    shortest periods of the paths by which it does.
-/
import Anjay.Observe.Notifying

namespace Anjay.Observe

open AttrStorage Dm Lib Paths

variable {β : Type}

/-! ## 1. The status -/

/-- `anjay_resource_observation_status_t`. -/
structure ObservationStatus where
  isObserved : Bool
  minPeriod : Int
  maxEvalPeriod : Int
  deriving DecidableEq, Repr

/-- The update of one period in `get_observe_status`. -/
def shorterPeriod (period out : Int) : Int :=
  if period ≠ periodNone.toInt ∧ (period < out ∨ out = periodNone.toInt) then period else out

/-- `get_observe_status`. -/
def getObserveStatus (attrs : ConnectionRef → List Id → Except Failure InternalRAttrs) (ref : ConnectionRef) :
    MatchingClb Nat ObservationStatus := fun e out =>
  let oi := getOiAttributes attrs ref e.path
  (0, ⟨true, shorterPeriod oi.minPeriod.toInt out.minPeriod, shorterPeriod oi.maxEvalPeriod.toInt out.maxEvalPeriod⟩)

/-- The loop of `_anjay_observe_status`; `none` is the assertion in it. -/
def statusLoop (attrs : ConnectionRef → List Id → Except Failure InternalRAttrs) (trees : ConnectionRef → ObservedPaths Nat)
    (path : UriPath) : List ConnectionRef → ObservationStatus → Option ObservationStatus
  | [], out => some out
  | ref :: refs, out =>
      match observeForEachMatching (trees ref) path (getObserveStatus attrs ref) out with
      | none => none
      | some (retval, out) => if retval = 0 then statusLoop attrs trees path refs out else none

/-- `_anjay_observe_status`. -/
def observeStatus (attrs : ConnectionRef → List Id → Except Failure InternalRAttrs)
    (trees : ConnectionRef → ObservedPaths Nat) (oid iid rid : ValidId) (s : State β) : Option ObservationStatus :=
  (statusLoop attrs trees (.resource oid iid rid) (s.connectionEntries.map ConnectionEntry.connRef)
    ⟨false, periodNone.toInt, periodNone.toInt⟩).map fun result => { result with minPeriod := max result.minPeriod 0 }

section Status

variable {s : State β} {ops : BatchOps β} {attrs : ConnectionRef → List Id → Except Failure InternalRAttrs}
  {trees : ConnectionRef → ObservedPaths Nat} {path : UriPath}

/-- `m` is the shortest of some periods that are set, or stands for none. -/
def Shortest (periods : Int → Prop) (m : Int) : Prop :=
  (m = periodNone.toInt ∧ ∀ p, periods p → p = periodNone.toInt) ∨
    (periods m ∧ m ≠ periodNone.toInt ∧ ∀ p, periods p → p ≠ periodNone.toInt → m ≤ p)

theorem Shortest.congr {ps qs : Int → Prop} {m : Int} (h : Shortest ps m) (heq : ∀ p, ps p ↔ qs p) : Shortest qs m :=
  (funext fun p => propext (heq p) : ps = qs) ▸ h

theorem Shortest.add {ps : Int → Prop} {m : Int} (h : Shortest ps m) (q : Int) :
    Shortest (fun p => ps p ∨ p = q) (shorterPeriod q m) := by
  unfold shorterPeriod
  rcases h with ⟨hm, hall⟩ | ⟨hps, hne, hleast⟩
  · by_cases hq : q = periodNone.toInt
    · rw [if_neg fun hand => hand.1 hq]
      exact Or.inl ⟨hm, fun p hp => hp.elim (hall p) fun he => he.trans hq⟩
    · rw [if_pos ⟨hq, Or.inr hm⟩]
      exact Or.inr ⟨Or.inr rfl, hq, fun p hp hset => hp.elim (fun hp => absurd (hall p hp) hset) fun he => he ▸ Int.le_refl _⟩
  · by_cases hq : q ≠ periodNone.toInt ∧ (q < m ∨ m = periodNone.toInt)
    · have hlt : q < m := hq.2.resolve_right hne
      rw [if_pos hq]
      refine Or.inr ⟨Or.inr rfl, hq.1, fun p hp hset => hp.elim (fun hp => ?_) fun he => he ▸ Int.le_refl _⟩
      exact Int.le_trans (Int.le_of_lt hlt) (hleast p hp hset)
    · rw [if_neg hq]
      refine Or.inr ⟨Or.inl hps, hne, fun p hp hset => hp.elim (fun hp => hleast p hp hset) fun he => ?_⟩
      exact Int.not_lt.mp fun hlt => hq ⟨he ▸ hset, Or.inl (he ▸ hlt)⟩

/-- The entries that are visited for some connections. -/
def statusVisits (trees : ConnectionRef → ObservedPaths Nat) (path : UriPath) (refs : List ConnectionRef) :
    List (ConnectionRef × PathEntry Nat) := refs.flatMap fun ref => (matchingVisits (trees ref) path).map fun e => (ref, e)

/-- One visit. -/
def statusVisit (attrs : ConnectionRef → List Id → Except Failure InternalRAttrs) (out : ObservationStatus)
    (visit : ConnectionRef × PathEntry Nat) : ObservationStatus := (getObserveStatus attrs visit.1 visit.2 out).2

theorem statusLoop_eq : ∀ (refs : List ConnectionRef) (out : ObservationStatus),
    statusLoop attrs trees path refs out = some ((statusVisits trees path refs).foldl (statusVisit attrs) out)
  | [], _ => rfl
  | ref :: refs, out => by
      unfold statusLoop statusVisits
      rw [forEachMatching_eq fun _ _ => rfl]
      dsimp only
      rw [if_pos rfl, statusLoop_eq refs, List.flatMap_cons, List.foldl_append, List.foldl_map]
      rfl

/-- What some visits make of a status. -/
structure StatusOf (attrs : ConnectionRef → List Id → Except Failure InternalRAttrs)
    (visited : ConnectionRef → List Id → Prop) (out : ObservationStatus) : Prop where
  isObserved : out.isObserved = true ↔ ∃ ref ids, visited ref ids
  minPeriod : Shortest (fun p => ∃ ref ids, visited ref ids ∧ p = (idsAttributes attrs ref ids).minPeriod.toInt) out.minPeriod
  maxEvalPeriod :
    Shortest (fun p => ∃ ref ids, visited ref ids ∧ p = (idsAttributes attrs ref ids).maxEvalPeriod.toInt) out.maxEvalPeriod

theorem StatusOf.visit {visited : ConnectionRef → List Id → Prop} {out : ObservationStatus}
    (h : StatusOf attrs visited out) (ref : ConnectionRef) (e : PathEntry Nat) :
    StatusOf attrs (fun r ids => visited r ids ∨ r = ref ∧ ids = e.path.validIds) (statusVisit attrs out (ref, e)) := by
  have hor : ∀ (f : ConnectionRef → List Id → Int) p, ((∃ r ids, visited r ids ∧ p = f r ids) ∨ p = f ref e.path.validIds) ↔
      ∃ r ids, (visited r ids ∨ r = ref ∧ ids = e.path.validIds) ∧ p = f r ids := by
    intro f p
    constructor
    · rintro (⟨r, ids, hv, rfl⟩ | rfl)
      · exact ⟨r, ids, Or.inl hv, rfl⟩
      · exact ⟨ref, e.path.validIds, Or.inr ⟨rfl, rfl⟩, rfl⟩
    · rintro ⟨r, ids, hv | ⟨rfl, rfl⟩, rfl⟩
      · exact Or.inl ⟨r, ids, hv, rfl⟩
      · exact Or.inr rfl
  exact
    { isObserved := ⟨fun _ => ⟨ref, e.path.validIds, Or.inr ⟨rfl, rfl⟩⟩, fun _ => rfl⟩
      minPeriod := (h.minPeriod.add _).congr (hor _)
      maxEvalPeriod := (h.maxEvalPeriod.add _).congr (hor _) }

theorem StatusOf.visits : ∀ (vs : List (ConnectionRef × PathEntry Nat)) {visited : ConnectionRef → List Id → Prop}
    {out : ObservationStatus}, StatusOf attrs visited out →
    StatusOf attrs (fun r ids => visited r ids ∨ ∃ v ∈ vs, v.1 = r ∧ v.2.path.validIds = ids) (vs.foldl (statusVisit attrs) out)
  | [], visited, out, h => by simpa using h
  | (ref, e) :: vs, visited, out, h => by
      have hrest := StatusOf.visits vs (h.visit ref e)
      have heq : (fun r ids => (visited r ids ∨ r = ref ∧ ids = e.path.validIds) ∨ ∃ v ∈ vs, v.1 = r ∧ v.2.path.validIds = ids) =
          fun r ids => visited r ids ∨ ∃ v ∈ (ref, e) :: vs, v.1 = r ∧ v.2.path.validIds = ids := by
        funext r ids
        simp only [List.exists_mem_cons_iff, or_assoc, eq_comm]
      exact heq ▸ hrest

theorem StatusOf.congr {ps qs : ConnectionRef → List Id → Prop} {out : ObservationStatus} (h : StatusOf attrs ps out)
    (heq : ∀ r ids, ps r ids ↔ qs r ids) : StatusOf attrs qs out :=
  (funext fun r => funext fun ids => propext (heq r ids) : ps = qs) ▸ h

theorem statusOf_none : StatusOf attrs (fun _ _ => False) ⟨false, periodNone.toInt, periodNone.toInt⟩ where
  isObserved := ⟨fun h => absurd h Bool.false_ne_true, fun ⟨_, _, h⟩ => h.elim⟩
  minPeriod := Or.inl ⟨rfl, fun _ ⟨_, _, h, _⟩ => h.elim⟩
  maxEvalPeriod := Or.inl ⟨rfl, fun _ ⟨_, _, h, _⟩ => h.elim⟩

/-- The tree has an entry for a path iff an observation names it. -/
theorem mem_keys_iff {c : TrackedEntry} (h : Consistent c) (ids : List Id) :
    (∃ e ∈ c.observedPaths, e.path.validIds = ids) ↔ ∃ o ∈ c.observations, ∃ p ∈ o.paths, p.validIds = ids := by
  constructor
  · rintro ⟨e, he, rfl⟩
    obtain ⟨a, ha⟩ := List.exists_mem_of_ne_nil _ (h.nonempty e he)
    obtain ⟨o, ho, rfl⟩ := h.refs e he a ha
    have hmem : o.addr ∈ (c.observedPaths.filter fun e' => decide (e'.path.compare e.path = 0)).flatMap PathEntry.refs :=
      List.mem_flatMap.mpr ⟨e, List.mem_filter.mpr ⟨he, decide_eq_true (UriPath.compare_eq_zero.mpr rfl)⟩, ha⟩
    have hpos := List.count_pos_iff.mpr hmem
    rw [h.counts o ho e.path] at hpos
    obtain ⟨p, hp, heq⟩ := List.countP_pos_iff.mp hpos
    exact ⟨o, ho, p, hp, UriPath.compare_eq_zero.mp (of_decide_eq_true heq)⟩
  · rintro ⟨o, ho, p, hp, rfl⟩
    have hpos : 0 < o.paths.countP fun q => decide (q.compare p = 0) :=
      List.countP_pos_iff.mpr ⟨p, hp, decide_eq_true (UriPath.compare_eq_zero.mpr rfl)⟩
    rw [← h.counts o ho p] at hpos
    obtain ⟨e, he, -⟩ := List.mem_flatMap.mp (List.count_pos_iff.mp hpos)
    obtain ⟨hmem, heq⟩ := List.mem_filter.mp he
    exact ⟨e, hmem, UriPath.compare_eq_zero.mp (of_decide_eq_true heq)⟩

/-- Whether an observation of a connection concerns a path, and by which path of it. -/
def Concerns (s : State β) (path : UriPath) (ref : ConnectionRef) (ids : List Id) : Prop :=
  related path ids = true ∧ ∃ c ∈ s.connectionEntries, c.connRef = ref ∧ ∃ o ∈ c.observations, ∃ p ∈ o.paths, p.validIds = ids

theorem Agrees.visits_iff {r : Registry} (h : Agrees r s trees) (ref : ConnectionRef) (ids : List Id) :
    (∃ v ∈ statusVisits trees path (s.connectionEntries.map ConnectionEntry.connRef), v.1 = ref ∧ v.2.path.validIds = ids) ↔
      Concerns s path ref ids := by
  have htree : ∀ c ∈ s.connectionEntries, (∃ e ∈ (trees c.connRef).toList, e.path.validIds = ids) ↔
      ∃ o ∈ c.observations, ∃ p ∈ o.paths, p.validIds = ids := by
    intro c hc
    have hcrossed := h.crossed hc
    rw [mem_keys_iff (c := ⟨c.connRef, c.observations.map Observation.tracked, (trees c.connRef).toList⟩) hcrossed.consistent]
    simp [Observation.tracked]
  constructor
  · rintro ⟨v, hv, rfl, rfl⟩
    obtain ⟨ref, href, hmem⟩ := List.mem_flatMap.mp hv
    obtain ⟨c, hc, rfl⟩ := List.mem_map.mp href
    obtain ⟨e, he, rfl⟩ := List.mem_map.mp hmem
    obtain ⟨htoList, hrelated⟩ := (mem_matchingVisits _ _ _).mp he
    exact ⟨hrelated, c, hc, rfl, (htree c hc).mp ⟨e, htoList, rfl⟩⟩
  · rintro ⟨hrelated, c, hc, rfl, hobs⟩
    obtain ⟨e, he, rfl⟩ := (htree c hc).mpr hobs
    refine ⟨(c.connRef, e), List.mem_flatMap.mpr ⟨c.connRef, List.mem_map_of_mem hc, ?_⟩, rfl, rfl⟩
    exact List.mem_map_of_mem ((mem_matchingVisits _ _ _).mpr ⟨he, hrelated⟩)

/-- **The status of a resource**: in every reachable state, with all trees that agree with it, the assertion holds, a
    resource is reported as observed iff a path of an observation is a prefix of it or has it as a prefix, and the
    periods are the shortest that are set for such a path, for the server of the observation; a minimum period that is
    set nowhere is 0. -/
theorem reachable_status (h : Reachable ops s) : (∃ r : Registry, Paths.Reachable r ∧ r.view = s.view) ∧
    ∀ r : Registry, Paths.Reachable r → r.view = s.view →
      ∀ trees : ConnectionRef → ObservedPaths Nat, (∀ c ∈ r, (trees c.connRef).toList = c.observedPaths) →
        ∀ attrs (oid iid rid : ValidId), ∃ out, StatusOf attrs (Concerns s (.resource oid iid rid)) out ∧
          observeStatus attrs trees oid iid rid s = some { out with minPeriod := max out.minPeriod 0 } := by
  refine ⟨h.tracked, fun r hr hview trees htrees attrs oid iid rid => ?_⟩
  have hagrees : Agrees r s trees := ⟨hr, hview, htrees⟩
  have hnone : StatusOf attrs (fun _ _ => False) ⟨false, periodNone.toInt, periodNone.toInt⟩ := statusOf_none
  have hvisits := (StatusOf.visits (statusVisits trees (.resource oid iid rid) (s.connectionEntries.map
    ConnectionEntry.connRef)) hnone).congr fun ref ids => (by rw [false_or] : _ ↔ _).trans (hagrees.visits_iff ref ids)
  refine ⟨_, hvisits, ?_⟩
  unfold observeStatus
  rw [statusLoop_eq]
  rfl

theorem reachable_status_one : ∃ s : State Nat, s.view = [(exampleRef, [⟨0, [7], [.resource 3 0 9]⟩])] ∧
    ∃ out, StatusOf (fun _ _ => .ok internalRAttrsEmpty) (Concerns s (.resource (3 : Id) (0 : Id) (9 : Id))) out ∧
      observeStatus (fun _ _ => .ok internalRAttrsEmpty) treesOne ⟨3, by decide⟩ ⟨0, by decide⟩ ⟨9, by decide⟩ s =
        some { out with minPeriod := max out.minPeriod 0 } := by
  obtain ⟨s, hs, hview⟩ := reachable_one
  have htrees : ∀ c ∈ trackedOne, (treesOne c.connRef).toList = c.observedPaths := List.forall_mem_singleton.mpr rfl
  exact ⟨s, hview, (reachable_status hs).2 trackedOne trackedOne_reachable hview.symm treesOne htrees _
    ⟨3, by decide⟩ ⟨0, by decide⟩ ⟨9, by decide⟩⟩

end Status

end Anjay.Observe
