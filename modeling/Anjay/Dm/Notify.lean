/-
  File:      Anjay/Dm/Notify.lean
  Subject:   The queue of data model changes (`anjay_notify.c`). Allocations succeed.

  * `NotifyQueue`: Object entries in ascending order, each with its changed Resources in ascending
    order; the structure carries both orders.
  * `queueResourceChange_names`: a queued change adds exactly that Resource to what the queue names.
-/
import Anjay.Lib.SortedList
import Anjay.Dm.Path

namespace Anjay.Dm

open Lib

/-! ## 1. Entries -/

/-- `anjay_notify_queue_resource_entry_t`. -/
structure NotifyResource where
  iid : Id
  rid : Id
  deriving DecidableEq, Repr

/-- The order of `compare_resource_entries`. -/
def NotifyResource.key (e : NotifyResource) : Nat := e.iid.val * 65536 + e.rid.val

/-- `compare_resource_entries`. -/
def compareResourceEntries (left right : NotifyResource) : Int :=
  let result : Int := left.iid.val - right.iid.val
  if result = 0 then left.rid.val - right.rid.val else result

/-- `anjay_notify_queue_object_entry_t`, with its `instance_set_changes`. -/
structure NotifyObject where
  oid : Id
  instanceSetChanged : Bool
  knownAddedIids : List Id
  resourcesChanged : List NotifyResource
  sorted : Sorted NotifyResource.key resourcesChanged

/-- The comparison of the loop of `find_or_create_object_entry`. -/
def compareObjectEntries (left right : NotifyObject) : Int := left.oid.val - right.oid.val

/-- `anjay_notify_queue_t`. -/
structure NotifyQueue where
  entries : List NotifyObject
  sorted : Sorted (fun e : NotifyObject => e.oid.val) entries

def NotifyQueue.empty : NotifyQueue := ⟨[], List.Pairwise.nil⟩

theorem reflects_resourceEntries : Reflects compareResourceEntries NotifyResource.key := by
  constructor <;> intro a b <;> unfold compareResourceEntries NotifyResource.key
  all_goals
    have ha := a.rid.isLt
    have hb := b.rid.isLt
    simp only
    split <;> omega

theorem reflects_objectEntries : Reflects compareObjectEntries fun e : NotifyObject => e.oid.val := by
  constructor <;> intro a b <;> unfold compareObjectEntries <;> omega

theorem NotifyResource.key_inj {a b : NotifyResource} (h : a.key = b.key) : a = b := by
  obtain ⟨ai, ar⟩ := a
  obtain ⟨bi, br⟩ := b
  have h1 := ar.isLt
  have h2 := br.isLt
  simp only [key] at h
  have hi : ai = bi := Fin.ext (by omega)
  have hr : ar = br := Fin.ext (by omega)
  rw [hi, hr]

/-! ## 2. Queueing a change -/

/-- A zeroed entry, as `find_or_create_object_entry` makes it. -/
def NotifyObject.fresh (oid : Id) : NotifyObject := ⟨oid, false, [], [], List.Pairwise.nil⟩

/-- The loop of `_anjay_notify_queue_resource_change` over `resources_changed`. -/
def NotifyObject.addResource (new : NotifyResource) (e : NotifyObject) : NotifyObject :=
  { e with
    resourcesChanged := upsert compareResourceEntries new id e.resourcesChanged
    sorted := upsert_sorted reflects_resourceEntries (fun _ => rfl) e.sorted }

/-- `_anjay_notify_queue_resource_change`, with `find_or_create_object_entry`. -/
def queueResourceChange (q : NotifyQueue) (oid iid rid : Id) : NotifyQueue :=
  { entries := upsert compareObjectEntries (.fresh oid) (NotifyObject.addResource ⟨iid, rid⟩) q.entries
    sorted := upsert_sorted reflects_objectEntries
      (fun e => (rfl : (e.addResource ⟨iid, rid⟩).oid.val = e.oid.val)) q.sorted }

/-- The queue asks for a notification about this Resource. -/
def NotifyQueue.Names (q : NotifyQueue) (oid iid rid : Id) : Prop :=
  ∃ e ∈ q.entries, e.oid = oid ∧ ⟨iid, rid⟩ ∈ e.resourcesChanged

theorem not_names_empty (oid iid rid : Id) : ¬ NotifyQueue.empty.Names oid iid rid := by
  rintro ⟨e, he, -⟩
  cases he

theorem mem_addResource (new x : NotifyResource) (e : NotifyObject) :
    x ∈ (e.addResource new).resourcesChanged ↔ x ∈ e.resourcesChanged ∨ x = new := by
  rw [NotifyObject.addResource, mem_upsert reflects_resourceEntries e.sorted]
  have hfound : ∀ a, e.resourcesChanged.find? (fun a => decide (a.key = new.key)) = some a →
      a = new := by
    intro a ha
    have hkey := List.find?_some ha
    exact NotifyResource.key_inj (of_decide_eq_true hkey)
  constructor
  · rintro (⟨h, -⟩ | h)
    · exact Or.inl h
    · right
      cases hf : e.resourcesChanged.find? fun a => decide (a.key = new.key) with
      | none => rw [h, hf]; rfl
      | some a => rw [h, hf]; exact hfound a hf
  · intro h
    by_cases hx : x = new
    · right
      cases hf : e.resourcesChanged.find? fun a => decide (a.key = new.key) with
      | none => exact hx
      | some a => rw [hx]; exact (hfound a hf).symm
    · exact Or.inl ⟨h.resolve_right hx, fun hk => hx (NotifyResource.key_inj hk)⟩

/-- **A queued change adds exactly its Resource.** -/
theorem queueResourceChange_names (q : NotifyQueue) (oid iid rid o i r : Id) :
    (queueResourceChange q oid iid rid).Names o i r ↔
      q.Names o i r ∨ (o = oid ∧ i = iid ∧ r = rid) := by
  have hkey : ∀ {e : NotifyObject}, e.oid.val = (NotifyObject.fresh oid).oid.val ↔ e.oid = oid :=
    fun {e} => Fin.ext_iff.symm
  have hmem : ∀ {e : NotifyObject}, e ∈ (queueResourceChange q oid iid rid).entries ↔
      (e ∈ q.entries ∧ e.oid.val ≠ (NotifyObject.fresh oid).oid.val) ∨
      e = NotifyObject.addResource ⟨iid, rid⟩ ((q.entries.find? fun a =>
        decide (a.oid.val = (NotifyObject.fresh oid).oid.val)).getD (.fresh oid)) :=
    fun {e} => mem_upsert reflects_objectEntries q.sorted
  -- the entry of `oid` before the change, as the walk finds or makes it
  obtain ⟨old, hold, hoid, hnames⟩ : ∃ old : NotifyObject,
      old = (q.entries.find? fun a => decide (a.oid.val = (NotifyObject.fresh oid).oid.val)).getD
        (.fresh oid) ∧ old.oid = oid ∧ ∀ x, x ∈ old.resourcesChanged ↔ q.Names oid x.iid x.rid := by
    refine ⟨_, rfl, ?_⟩
    cases hf : q.entries.find? fun a => decide (a.oid.val = (NotifyObject.fresh oid).oid.val) with
    | none =>
        refine ⟨rfl, fun x => ⟨fun h => absurd h List.not_mem_nil, ?_⟩⟩
        rintro ⟨e, he, ho, -⟩
        exact absurd (decide_eq_true (hkey.mpr ho)) (List.find?_eq_none.mp hf e he)
    | some a =>
        have hfound := List.find?_some hf
        have ha : a.oid = oid := hkey.mp (of_decide_eq_true hfound)
        have hin := List.mem_of_find?_eq_some hf
        refine ⟨ha, fun x => ⟨fun h => ⟨a, hin, ha, h⟩, ?_⟩⟩
        rintro ⟨e, he, ho, hx⟩
        have hea : e = a := sorted_eq q.sorted he hin (by rw [ho, ha])
        rw [← hea]
        exact hx
  constructor
  · rintro ⟨e, he, ho, hx⟩
    rcases hmem.mp he with ⟨hin, -⟩ | hnew
    · exact Or.inl ⟨e, hin, ho, hx⟩
    · rw [← hold] at hnew
      subst hnew
      have ho' : o = oid := ho.symm.trans hoid
      rcases (mem_addResource _ _ _).mp hx with hx | hx
      · rw [ho']
        exact Or.inl ((hnames _).mp hx)
      · cases hx
        exact Or.inr ⟨ho', rfl, rfl⟩
  · intro h
    by_cases ho : o = oid
    · refine ⟨old.addResource ⟨iid, rid⟩, hmem.mpr (Or.inr (by rw [← hold])), hoid.trans ho.symm,
        (mem_addResource _ _ _).mpr ?_⟩
      rcases h with h | ⟨-, hi, hr⟩
      · rw [ho] at h
        exact Or.inl ((hnames ⟨i, r⟩).mpr h)
      · exact Or.inr (by rw [hi, hr])
    · obtain ⟨e, he, heo, hx⟩ := h.resolve_right fun h => ho h.1
      exact ⟨e, hmem.mpr (Or.inl ⟨he, fun hk => ho (heo.symm.trans (hkey.mp hk))⟩), heo, hx⟩

end Anjay.Dm
