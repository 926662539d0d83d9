/-
  File:      Anjay/Dm/NotifyQueue.lean
  Subject:   The operations on the queue of changes (`anjay_notify.c`) when memory may run out.

  * `QueueOp.perform_cases`: an operation updates the entry of its Object, or fails and changes nothing.
  * `reached_record`: the queue is well formed, and records exactly the operations that succeeded.
-/
import Anjay.Dm.NotifyFlush

namespace Anjay.Dm

open Lib

/-! ## 1. Entries -/

/-- The next allocation; those that are not named succeed. -/
def allocate : List Bool → Bool × List Bool
  | [] => (true, [])
  | ok :: memory => (ok, memory)

/-- Memory for what is there already is not needed. -/
def reserve (found : Bool) (memory : List Bool) : Bool × List Bool :=
  if found then (true, memory) else allocate memory

/-- The comparison of the loops over an `iid_set`. -/
def compareIids (left right : Id) : Int := left.val - right.val

theorem reflects_iids : Reflects compareIids fun a : Id => a.val := by
  constructor <;> intro a b <;> unfold compareIids <;> omega

/-- `remove_entry_from_iid_set`. -/
def removeEntryFromIidSet (iid : Id) : List Id → List Id
  | [] => []
  | a :: iids => if iid ≤ a then (if a = iid then iids else a :: iids) else a :: removeEntryFromIidSet iid iids

/-- What `delete_notify_queue_object_entry_if_empty` looks at. -/
def NotifyObject.isEmpty (e : NotifyObject) : Bool := !e.instanceSetChanged && e.resourcesChanged.isEmpty

theorem NotifyObject.oid_id (e : NotifyObject) : (id e).oid = e.oid := rfl

/-- An operation on the queue. -/
inductive QueueOp
  | instanceCreated (oid iid : Id)
  | instanceRemoved (oid iid : Id)
  | instanceSetUnknownChange (oid : Id)
  | resourceChange (oid iid rid : Id)
  deriving DecidableEq, Repr

namespace QueueOp

def oid : QueueOp → Id
  | instanceCreated oid _ | instanceRemoved oid _ | instanceSetUnknownChange oid | resourceChange oid _ _ => oid

/-- What the operation does to the entry of its Object. -/
def update : QueueOp → NotifyObject → NotifyObject
  | instanceCreated _ iid, e =>
      { e with knownAddedIids := addEntryToIidSet iid e.knownAddedIids, instanceSetChanged := true }
  | instanceRemoved _ iid, e =>
      { e with knownAddedIids := removeEntryFromIidSet iid e.knownAddedIids, instanceSetChanged := true }
  | instanceSetUnknownChange _, e => { e with instanceSetChanged := true }
  | resourceChange _ iid rid, e => e.addResource ⟨iid, rid⟩

/-- The entry lists already what the operation would put into one of its lists. -/
def listed : QueueOp → NotifyObject → Bool
  | instanceCreated _ iid, e => walkFinds compareIids iid e.knownAddedIids
  | instanceRemoved _ _, _ | instanceSetUnknownChange _, _ => true
  | resourceChange _ iid rid, e => walkFinds compareResourceEntries ⟨iid, rid⟩ e.resourcesChanged

theorem oid_update (op : QueueOp) (e : NotifyObject) : (op.update e).oid = e.oid := by
  cases op <;> rfl

end QueueOp

namespace NotifyQueue

/-- An update of the entry of an Object, which is put in if it is not there. -/
def updateEntry (q : NotifyQueue) (oid : Id) (update : NotifyObject → NotifyObject)
    (hupdate : ∀ e, (update e).oid = e.oid) : NotifyQueue where
  entries := upsert compareObjectEntries (.fresh oid) update q.entries
  sorted := upsert_sorted reflects_objectEntries (fun e => congrArg Fin.val (hupdate e)) q.sorted

/-- `find_or_create_object_entry`. -/
def findOrCreateObjectEntry (oid : Id) (memory : List Bool) (q : NotifyQueue) : Option NotifyQueue × List Bool :=
  if walkFinds compareObjectEntries (.fresh oid) q.entries then (some q, memory)
  else
    match allocate memory with
    | (true, memory) => (some (q.updateEntry oid id NotifyObject.oid_id), memory)
    | (false, memory) => (none, memory)

/-- The entry of an Object, a zeroed one if there is none. -/
def entry (q : NotifyQueue) (oid : Id) : NotifyObject :=
  (q.entries.find? fun e => decide (e.oid.val = oid.val)).getD (.fresh oid)

/-- `delete_notify_queue_object_entry_if_empty`. -/
def deleteIfEmpty (q : NotifyQueue) (oid : Id) : NotifyQueue where
  entries := q.entries.filter fun e => !(decide (e.oid = oid) && e.isEmpty)
  sorted := q.sorted.filter _

end NotifyQueue

/-- `_anjay_notify_queue_instance_created`, `_anjay_notify_queue_instance_removed`,
    `_anjay_notify_queue_instance_set_unknown_change` and `_anjay_notify_queue_resource_change`. -/
def QueueOp.perform (op : QueueOp) (memory : List Bool) (q : NotifyQueue) : Int × NotifyQueue × List Bool :=
  match q.findOrCreateObjectEntry op.oid memory with
  | (none, memory) => (-1, q, memory)
  | (some q, memory) =>
      match reserve (op.listed (q.entry op.oid)) memory with
      | (true, memory) => (0, q.updateEntry op.oid op.update op.oid_update, memory)
      | (false, memory) => (-1, q.deleteIfEmpty op.oid, memory)

/-! ## 2. What an update changes -/

namespace NotifyQueue

theorem mem_updateEntry {q : NotifyQueue} {oid : Id} {update : NotifyObject → NotifyObject}
    {hupdate : ∀ e, (update e).oid = e.oid} {e : NotifyObject} :
    e ∈ (q.updateEntry oid update hupdate).entries ↔ (e ∈ q.entries ∧ e.oid ≠ oid) ∨ e = update (q.entry oid) := by
  have hne : e.oid ≠ oid ↔ e.oid.val ≠ (NotifyObject.fresh oid).oid.val := not_congr Fin.ext_iff
  rw [hne]
  exact mem_upsert reflects_objectEntries q.sorted

theorem entry_of_mem {q : NotifyQueue} {e : NotifyObject} (h : e ∈ q.entries) : q.entry e.oid = e := by
  unfold entry
  cases hf : q.entries.find? fun a => decide (a.oid.val = e.oid.val) with
  | none => exact absurd (decide_eq_true rfl) (List.find?_eq_none.mp hf e h)
  | some a => exact sorted_eq q.sorted (List.mem_of_find?_eq_some hf) h (of_decide_eq_true (List.find?_some hf :))

theorem entry_cases (q : NotifyQueue) (oid : Id) :
    (q.entry oid ∈ q.entries ∧ (q.entry oid).oid = oid) ∨
      (q.entry oid = .fresh oid ∧ ∀ e ∈ q.entries, e.oid ≠ oid) := by
  unfold entry
  cases hf : q.entries.find? fun a => decide (a.oid.val = oid.val) with
  | none =>
      exact Or.inr ⟨rfl, fun e he heq => List.find?_eq_none.mp hf e he (decide_eq_true (congrArg Fin.val heq))⟩
  | some a =>
      exact Or.inl ⟨List.mem_of_find?_eq_some hf, Fin.ext (of_decide_eq_true (List.find?_some hf :))⟩

theorem entry_oid (q : NotifyQueue) (oid : Id) : (q.entry oid).oid = oid := by
  rcases q.entry_cases oid with ⟨-, h⟩ | ⟨h, -⟩
  · exact h
  · rw [h]
    rfl

/-- **An update changes the entry of its Object and no other.** -/
theorem entry_updateEntry (q : NotifyQueue) (oid : Id) (update : NotifyObject → NotifyObject)
    (hupdate : ∀ e, (update e).oid = e.oid) (o : Id) :
    (q.updateEntry oid update hupdate).entry o = if o = oid then update (q.entry oid) else q.entry o := by
  split
  next h =>
    subst h
    have hmem : update (q.entry o) ∈ (q.updateEntry o update hupdate).entries := mem_updateEntry.mpr (Or.inr rfl)
    have hoid : (update (q.entry o)).oid = o := (hupdate _).trans (q.entry_oid o)
    have heq := entry_of_mem hmem
    rw [hoid] at heq
    exact heq
  next h =>
    rcases q.entry_cases o with ⟨hmem, hoid⟩ | ⟨hfresh, hnone⟩
    · have hkept : q.entry o ∈ (q.updateEntry oid update hupdate).entries :=
        mem_updateEntry.mpr (Or.inl ⟨hmem, fun heq => h (hoid.symm.trans heq)⟩)
      have heq := entry_of_mem hkept
      rw [hoid] at heq
      exact heq
    · rw [hfresh]
      rcases (q.updateEntry oid update hupdate).entry_cases o with ⟨hmem, hoid⟩ | ⟨hfresh', -⟩
      · rcases mem_updateEntry.mp hmem with ⟨hold, -⟩ | hnew
        · exact absurd hoid (hnone _ hold)
        · have hsame : o = oid := by
            rw [← hoid, hnew, hupdate, q.entry_oid]
          exact absurd hsame h
      · exact hfresh'

theorem updateEntry_updateEntry (q : NotifyQueue) (oid : Id) {update update' : NotifyObject → NotifyObject}
    (hupdate : ∀ e, (update e).oid = e.oid) (hupdate' : ∀ e, (update' e).oid = e.oid) :
    (q.updateEntry oid update hupdate).updateEntry oid update' hupdate' =
      q.updateEntry oid (fun e => update' (update e)) fun e => (hupdate' _).trans (hupdate e) := by
  have heq : upsert compareObjectEntries (.fresh oid) update' (upsert compareObjectEntries (.fresh oid) update
      q.entries) = upsert compareObjectEntries (.fresh oid) (fun e => update' (update e)) q.entries :=
    upsert_upsert reflects_objectEntries (fun e => congrArg Fin.val (hupdate e)) q.entries
  unfold updateEntry
  simp only [heq]

/-- The queue is well formed: no entry is empty, its Instances are in ascending order, and there are some only if
    the set of Instances has changed. -/
structure WellFormed (q : NotifyQueue) : Prop where
  nonempty : ∀ e ∈ q.entries, e.isEmpty = false
  added : ∀ e ∈ q.entries, e.knownAddedIids.Pairwise (· < ·)
  changed : ∀ e ∈ q.entries, e.knownAddedIids ≠ [] → e.instanceSetChanged = true

theorem wellFormed_empty : WellFormed empty :=
  ⟨fun _ he => absurd he List.not_mem_nil, fun _ he => absurd he List.not_mem_nil,
    fun _ he => absurd he List.not_mem_nil⟩

theorem WellFormed.added_entry {q : NotifyQueue} (h : q.WellFormed) (oid : Id) :
    (q.entry oid).knownAddedIids.Pairwise (· < ·) := by
  rcases q.entry_cases oid with ⟨hmem, -⟩ | ⟨hfresh, -⟩
  · exact h.added _ hmem
  · rw [hfresh]
    exact List.Pairwise.nil

end NotifyQueue

/-! ## 3. Lists of Instances -/

theorem mem_removeEntryFromIidSet {iid x : Id} : ∀ {iids : List Id}, iids.Pairwise (· < ·) →
    (x ∈ removeEntryFromIidSet iid iids ↔ x ∈ iids ∧ x ≠ iid)
  | [], _ => by simp [removeEntryFromIidSet]
  | a :: iids, hs => by
      obtain ⟨ha, has⟩ := List.pairwise_cons.mp hs
      rw [removeEntryFromIidSet, List.mem_cons]
      split
      next hle =>
        split
        next heq =>
          subst heq
          refine ⟨fun h => ⟨Or.inr h, (ha x h).ne'⟩, fun ⟨h, hne⟩ => h.resolve_left hne⟩
        next hne =>
          have hlt : iid < a := lt_of_le_of_ne hle (Ne.symm hne)
          refine ⟨fun h => ⟨List.mem_cons.mp h, ?_⟩, fun ⟨h, _⟩ => List.mem_cons.mpr h⟩
          rcases List.mem_cons.mp h with rfl | h
          · exact hne
          · exact (hlt.trans (ha x h)).ne'
      next hle =>
        rw [List.mem_cons, mem_removeEntryFromIidSet has]
        constructor
        · rintro (rfl | ⟨h, hne⟩)
          · exact ⟨Or.inl rfl, fun heq => hle heq.ge⟩
          · exact ⟨Or.inr h, hne⟩
        · rintro ⟨rfl | h, hne⟩
          · exact Or.inl rfl
          · exact Or.inr ⟨h, hne⟩

theorem removeEntryFromIidSet_sorted {iid : Id} : ∀ {iids : List Id}, iids.Pairwise (· < ·) →
    (removeEntryFromIidSet iid iids).Pairwise (· < ·)
  | [], _ => List.Pairwise.nil
  | a :: iids, hs => by
      obtain ⟨ha, has⟩ := List.pairwise_cons.mp hs
      rw [removeEntryFromIidSet]
      split
      · split
        · exact has
        · exact hs
      · refine List.pairwise_cons.mpr ⟨fun b hb => ?_, removeEntryFromIidSet_sorted has⟩
        exact ha b ((mem_removeEntryFromIidSet has).mp hb).1

theorem addEntryToIidSet_sorted {iid : Id} : ∀ {iids : List Id}, iids.Pairwise (· < ·) →
    (addEntryToIidSet iid iids).Pairwise (· < ·)
  | [], _ => List.pairwise_singleton _ _
  | a :: iids, hs => by
      obtain ⟨ha, has⟩ := List.pairwise_cons.mp hs
      rw [addEntryToIidSet]
      split
      · exact hs
      next hne =>
      split
      next hlt =>
        refine List.pairwise_cons.mpr ⟨fun b hb => ?_, hs⟩
        rcases List.mem_cons.mp hb with rfl | hb
        · exact hlt
        · exact hlt.trans (ha b hb)
      next hge =>
        refine List.pairwise_cons.mpr ⟨fun b hb => ?_, addEntryToIidSet_sorted has⟩
        rcases mem_addEntryToIidSet.mp hb with rfl | hb
        · exact lt_of_le_of_ne (not_lt.mp hge) hne
        · exact ha b hb

/-! ## 4. What an operation does -/

theorem QueueOp.update_nonempty (op : QueueOp) (e : NotifyObject) : (op.update e).isEmpty = false := by
  cases op with
  | instanceCreated oid iid => rfl
  | instanceRemoved oid iid => rfl
  | instanceSetUnknownChange oid => rfl
  | resourceChange oid iid rid =>
      have hmem : (⟨iid, rid⟩ : NotifyResource) ∈ (e.addResource ⟨iid, rid⟩).resourcesChanged :=
        (mem_addResource _ _ _).mpr (Or.inr rfl)
      have hne : (e.addResource ⟨iid, rid⟩).resourcesChanged.isEmpty = false :=
        List.isEmpty_eq_false_iff.mpr (List.ne_nil_of_mem hmem)
      show (!e.instanceSetChanged && (e.addResource ⟨iid, rid⟩).resourcesChanged.isEmpty) = false
      rw [hne, Bool.and_false]

theorem QueueOp.update_added (op : QueueOp) {e : NotifyObject} (h : e.knownAddedIids.Pairwise (· < ·)) :
    (op.update e).knownAddedIids.Pairwise (· < ·) := by
  cases op with
  | instanceCreated oid iid => exact addEntryToIidSet_sorted h
  | instanceRemoved oid iid => exact removeEntryFromIidSet_sorted h
  | instanceSetUnknownChange oid => exact h
  | resourceChange oid iid rid => exact h

theorem QueueOp.update_changed (op : QueueOp) {e : NotifyObject}
    (h : e.knownAddedIids ≠ [] → e.instanceSetChanged = true) :
    (op.update e).knownAddedIids ≠ [] → (op.update e).instanceSetChanged = true := by
  cases op with
  | instanceCreated oid iid => exact fun _ => rfl
  | instanceRemoved oid iid => exact fun _ => rfl
  | instanceSetUnknownChange oid => exact fun _ => rfl
  | resourceChange oid iid rid => exact h

namespace NotifyQueue

theorem WellFormed.updateEntry {q : NotifyQueue} (h : q.WellFormed) (op : QueueOp) :
    (q.updateEntry op.oid op.update op.oid_update).WellFormed := by
  have hchanged : (q.entry op.oid).knownAddedIids ≠ [] → (q.entry op.oid).instanceSetChanged = true := by
    rcases q.entry_cases op.oid with ⟨hmem, -⟩ | ⟨hfresh, -⟩
    · exact h.changed _ hmem
    · rw [hfresh]
      exact fun hne => absurd rfl hne
  refine ⟨fun e he => ?_, fun e he => ?_, fun e he => ?_⟩
  · rcases mem_updateEntry.mp he with ⟨hold, -⟩ | rfl
    · exact h.nonempty e hold
    · exact op.update_nonempty _
  · rcases mem_updateEntry.mp he with ⟨hold, -⟩ | rfl
    · exact h.added e hold
    · exact op.update_added (h.added_entry op.oid)
  · rcases mem_updateEntry.mp he with ⟨hold, -⟩ | rfl
    · exact h.changed e hold
    · exact op.update_changed hchanged

/-- Deleting an entry that has just been put in undoes that. -/
theorem deleteIfEmpty_created {q : NotifyQueue} {oid : Id} (h : ∀ e ∈ q.entries, e.oid ≠ oid) :
    (q.updateEntry oid id NotifyObject.oid_id).deleteIfEmpty oid = q := by
  have hdropped : (!(decide ((id (NotifyObject.fresh oid)).oid = oid) && (id (NotifyObject.fresh oid)).isEmpty)) =
      false := by
    have hoid : decide ((id (NotifyObject.fresh oid)).oid = oid) = true := decide_eq_true rfl
    rw [hoid]
    rfl
  have hkept : ∀ e ∈ q.entries, (!(decide (e.oid = oid) && e.isEmpty)) = true := by
    intro e he
    rw [decide_eq_false (h e he)]
    rfl
  have hkeys : ∀ e ∈ q.entries, e.oid.val ≠ (NotifyObject.fresh oid).oid.val :=
    fun e he heq => h e he (Fin.ext heq)
  have heq : ((q.updateEntry oid id NotifyObject.oid_id).entries.filter fun e =>
      !(decide (e.oid = oid) && e.isEmpty)) = q.entries :=
    (filter_upsert reflects_objectEntries hdropped hkeys).trans (List.filter_eq_self.mpr hkept)
  obtain ⟨entries, hsorted⟩ := q
  unfold deleteIfEmpty
  simp only [heq]

theorem deleteIfEmpty_found {q : NotifyQueue} (h : q.WellFormed) (oid : Id) : q.deleteIfEmpty oid = q := by
  have hkept : ∀ e ∈ q.entries, (!(decide (e.oid = oid) && e.isEmpty)) = true := by
    intro e he
    rw [h.nonempty e he, Bool.and_false]
    rfl
  have heq : (q.entries.filter fun e => !(decide (e.oid = oid) && e.isEmpty)) = q.entries :=
    List.filter_eq_self.mpr hkept
  obtain ⟨entries, hsorted⟩ := q
  unfold deleteIfEmpty
  simp only [heq]

theorem updateEntry_created (q : NotifyQueue) (op : QueueOp) :
    (q.updateEntry op.oid id NotifyObject.oid_id).updateEntry op.oid op.update op.oid_update =
      q.updateEntry op.oid op.update op.oid_update :=
  q.updateEntry_updateEntry op.oid NotifyObject.oid_id op.oid_update

theorem findOrCreateObjectEntry_cases (q : NotifyQueue) (oid : Id) (memory : List Bool) :
    q.findOrCreateObjectEntry oid memory = (some q, memory) ∨
      (∀ e ∈ q.entries, e.oid ≠ oid) ∧ ∃ memory', q.findOrCreateObjectEntry oid memory = (none, memory') ∨
        q.findOrCreateObjectEntry oid memory = (some (q.updateEntry oid id NotifyObject.oid_id), memory') := by
  have hfound : walkFinds compareObjectEntries (.fresh oid) q.entries = true ↔
      ∃ e ∈ q.entries, e.oid.val = (NotifyObject.fresh oid).oid.val :=
    walkFinds_iff reflects_objectEntries q.sorted
  unfold findOrCreateObjectEntry
  cases hwalk : walkFinds compareObjectEntries (.fresh oid) q.entries with
  | true => exact Or.inl rfl
  | false =>
      refine Or.inr ⟨fun e he heq => ?_, ?_⟩
      · rw [hfound.mpr ⟨e, he, congrArg Fin.val heq⟩] at hwalk
        cases hwalk
      · rw [if_neg Bool.false_ne_true]
        cases allocate memory with
        | mk ok memory' =>
            cases ok with
            | false => exact ⟨memory', Or.inl rfl⟩
            | true => exact ⟨memory', Or.inr rfl⟩

/-- **An operation updates the entry of its Object, or fails and changes nothing.** -/
theorem perform_cases {q : NotifyQueue} (h : q.WellFormed) (op : QueueOp) (memory : List Bool) :
    ∃ memory', op.perform memory q = (0, q.updateEntry op.oid op.update op.oid_update, memory') ∨
      op.perform memory q = (-1, q, memory') := by
  unfold QueueOp.perform
  rcases q.findOrCreateObjectEntry_cases op.oid memory with hsome | ⟨hnone, memory1, hfail | hsome⟩
  · rw [hsome]
    dsimp only
    cases reserve (op.listed (q.entry op.oid)) memory with
    | mk ok memory' =>
        cases ok with
        | true => exact ⟨memory', Or.inl rfl⟩
        | false => exact ⟨memory', Or.inr (by rw [deleteIfEmpty_found h])⟩
  · rw [hfail]
    exact ⟨memory1, Or.inr rfl⟩
  · rw [hsome]
    dsimp only
    cases reserve (op.listed ((q.updateEntry op.oid id NotifyObject.oid_id).entry op.oid)) memory1 with
    | mk ok memory' =>
        cases ok with
        | true => exact ⟨memory', Or.inl (by rw [updateEntry_created])⟩
        | false => exact ⟨memory', Or.inr (by rw [deleteIfEmpty_created hnone])⟩

end NotifyQueue

/-! ## 5. Runs -/

/-- The queues that are reached from the empty one, with the operations that succeeded. -/
inductive QueueReached : NotifyQueue → List QueueOp → Prop
  | empty : QueueReached .empty []
  | perform {q : NotifyQueue} {ops : List QueueOp} (op : QueueOp) (memory : List Bool) (h : QueueReached q ops) :
      QueueReached (op.perform memory q).2.1 (if (op.perform memory q).1 = 0 then ops ++ [op] else ops)

/-- The operation is about the set of Instances of this Object. -/
def QueueOp.changesInstances (oid : Id) : QueueOp → Bool
  | instanceCreated o _ | instanceRemoved o _ | instanceSetUnknownChange o => o = oid
  | resourceChange _ _ _ => false

/-- The operation tells whether this Instance has been created or removed. -/
def QueueOp.isAbout (oid iid : Id) : QueueOp → Bool
  | instanceCreated o i | instanceRemoved o i => o = oid ∧ i = iid
  | instanceSetUnknownChange _ | resourceChange _ _ _ => false

/-- The last operation about an Instance. -/
def lastAbout (oid iid : Id) (ops : List QueueOp) : Option QueueOp := (ops.filter (QueueOp.isAbout oid iid)).getLast?

namespace NotifyQueue

/-- The entries tell exactly what the operations said. -/
structure Records (q : NotifyQueue) (ops : List QueueOp) : Prop where
  resources : ∀ oid iid rid, ⟨iid, rid⟩ ∈ (q.entry oid).resourcesChanged ↔ .resourceChange oid iid rid ∈ ops
  instances : ∀ oid, (q.entry oid).instanceSetChanged = true ↔ ∃ op ∈ ops, op.changesInstances oid = true
  added : ∀ oid iid, iid ∈ (q.entry oid).knownAddedIids ↔ lastAbout oid iid ops = some (.instanceCreated oid iid)

theorem records_empty : empty.Records [] :=
  ⟨fun _ _ _ => ⟨fun h => absurd h List.not_mem_nil, fun h => absurd h List.not_mem_nil⟩,
    fun _ => ⟨nofun, fun ⟨_, h, _⟩ => absurd h List.not_mem_nil⟩,
    fun _ _ => ⟨fun h => absurd h List.not_mem_nil, nofun⟩⟩

theorem lastAbout_append {oid iid : Id} {op : QueueOp} (ops : List QueueOp) :
    lastAbout oid iid (ops ++ [op]) = if op.isAbout oid iid then some op else lastAbout oid iid ops := by
  unfold lastAbout
  rw [List.filter_append, List.filter_singleton]
  cases op.isAbout oid iid with
  | true =>
      rw [cond_true, List.getLast?_concat]
      rfl
  | false =>
      rw [cond_false, List.append_nil]
      rfl

end NotifyQueue

namespace QueueOp

theorem resources_update (op : QueueOp) (e : NotifyObject) (iid rid : Id) :
    ⟨iid, rid⟩ ∈ (op.update e).resourcesChanged ↔
      ⟨iid, rid⟩ ∈ e.resourcesChanged ∨ op = .resourceChange op.oid iid rid := by
  cases op with
  | instanceCreated oid i => exact ⟨Or.inl, fun h => h.resolve_right (fun h => nomatch h)⟩
  | instanceRemoved oid i => exact ⟨Or.inl, fun h => h.resolve_right (fun h => nomatch h)⟩
  | instanceSetUnknownChange oid => exact ⟨Or.inl, fun h => h.resolve_right (fun h => nomatch h)⟩
  | resourceChange oid i r =>
      refine (mem_addResource _ _ _).trans (or_congr_right ?_)
      constructor
      · intro h
        cases h
        rfl
      · intro h
        cases h
        rfl

theorem instances_update (op : QueueOp) (e : NotifyObject) :
    (op.update e).instanceSetChanged = (e.instanceSetChanged || op.changesInstances op.oid) := by
  cases op with
  | instanceCreated oid i =>
      show true = (e.instanceSetChanged || decide (oid = oid))
      rw [decide_eq_true rfl, Bool.or_true]
  | instanceRemoved oid i =>
      show true = (e.instanceSetChanged || decide (oid = oid))
      rw [decide_eq_true rfl, Bool.or_true]
  | instanceSetUnknownChange oid =>
      show true = (e.instanceSetChanged || decide (oid = oid))
      rw [decide_eq_true rfl, Bool.or_true]
  | resourceChange oid i r => exact (Bool.or_false _).symm

theorem added_update (op : QueueOp) {e : NotifyObject} (h : e.knownAddedIids.Pairwise (· < ·)) (iid : Id) :
    iid ∈ (op.update e).knownAddedIids ↔
      if op.isAbout op.oid iid then op = .instanceCreated op.oid iid else iid ∈ e.knownAddedIids := by
  cases op with
  | instanceCreated oid i =>
      refine mem_addEntryToIidSet.trans ?_
      by_cases hi : i = iid
      · subst hi
        have habout : (instanceCreated oid i).isAbout oid i = true := decide_eq_true ⟨rfl, rfl⟩
        rw [QueueOp.oid, if_pos habout]
        exact ⟨fun _ => rfl, fun _ => Or.inl rfl⟩
      · rw [if_neg fun h => hi (of_decide_eq_true h).2]
        exact ⟨fun h => h.resolve_left fun heq => hi heq.symm, Or.inr⟩
  | instanceRemoved oid i =>
      refine (mem_removeEntryFromIidSet h).trans ?_
      by_cases hi : i = iid
      · subst hi
        have habout : (instanceRemoved oid i).isAbout oid i = true := decide_eq_true ⟨rfl, rfl⟩
        rw [QueueOp.oid, if_pos habout]
        exact ⟨fun h => absurd rfl h.2, fun h => nomatch h⟩
      · rw [if_neg fun h => hi (of_decide_eq_true h).2]
        exact ⟨And.left, fun h => ⟨h, fun heq => hi heq.symm⟩⟩
  | instanceSetUnknownChange oid => exact (if_neg Bool.false_ne_true).symm ▸ Iff.rfl
  | resourceChange oid i r => exact (if_neg Bool.false_ne_true).symm ▸ Iff.rfl

theorem changesInstances_other {op : QueueOp} {oid : Id} (h : oid ≠ op.oid) : op.changesInstances oid = false := by
  cases op with
  | resourceChange => rfl
  | _ => exact decide_eq_false fun heq => h heq.symm

theorem isAbout_other {op : QueueOp} {oid iid : Id} (h : oid ≠ op.oid) : op.isAbout oid iid = false := by
  cases op with
  | instanceCreated | instanceRemoved => exact decide_eq_false fun heq => h heq.1.symm
  | instanceSetUnknownChange | resourceChange => rfl

end QueueOp

namespace NotifyQueue

/-- **What an operation updates, it records.** -/
theorem Records.updateEntry {q : NotifyQueue} {ops : List QueueOp} (h : q.Records ops) (hwf : q.WellFormed)
    (op : QueueOp) : (q.updateEntry op.oid op.update op.oid_update).Records (ops ++ [op]) := by
  refine ⟨fun oid iid rid => ?_, fun oid => ?_, fun oid iid => ?_⟩
  · rw [entry_updateEntry, List.mem_append, List.mem_singleton, ← h.resources]
    by_cases hoid : oid = op.oid
    · subst hoid
      rw [if_pos rfl, op.resources_update]
      exact or_congr_right eq_comm
    · rw [if_neg hoid]
      refine ⟨Or.inl, fun h => h.resolve_right fun heq => hoid ?_⟩
      rw [← heq]
      rfl
  · rw [entry_updateEntry]
    have happend : (∃ op' ∈ ops ++ [op], op'.changesInstances oid = true) ↔
        (q.entry oid).instanceSetChanged = true ∨ op.changesInstances oid = true := by
      rw [h.instances]
      simp only [List.mem_append, List.mem_singleton, or_and_right, exists_or, exists_eq_left]
    rw [happend]
    by_cases hoid : oid = op.oid
    · subst hoid
      rw [if_pos rfl, op.instances_update, Bool.or_eq_true]
    · rw [if_neg hoid, QueueOp.changesInstances_other hoid]
      exact ⟨Or.inl, fun h => h.resolve_right Bool.false_ne_true⟩
  · rw [entry_updateEntry, lastAbout_append]
    by_cases hoid : oid = op.oid
    · subst hoid
      rw [if_pos rfl, op.added_update (hwf.added_entry _)]
      split
      · exact Option.some_inj.symm
      · exact h.added _ iid
    · rw [if_neg hoid, QueueOp.isAbout_other hoid, if_neg Bool.false_ne_true]
      exact h.added oid iid

theorem reached_invariant {q : NotifyQueue} {ops : List QueueOp} (h : QueueReached q ops) :
    q.WellFormed ∧ q.Records ops := by
  induction h with
  | empty => exact ⟨wellFormed_empty, records_empty⟩
  | perform op memory h ih =>
      rename_i q ops
      obtain ⟨memory', hok | hfail⟩ := perform_cases ih.1 op memory
      · rw [hok]
        exact ⟨ih.1.updateEntry op, ih.2.updateEntry ih.1 op⟩
      · rw [hfail]
        exact ih

/-- **The queue is well formed and records exactly the operations that succeeded**; one that fails leaves it as it
    was. -/
theorem reached_record {q : NotifyQueue} {ops : List QueueOp} (h : QueueReached q ops) :
    q.entries.Pairwise (fun a b => a.oid < b.oid) ∧
    (∀ e ∈ q.entries, e.knownAddedIids.Pairwise (· < ·) ∧
      e.resourcesChanged.Pairwise (fun a b => a.iid < b.iid ∨ a.iid = b.iid ∧ a.rid < b.rid) ∧
      (e.instanceSetChanged = true ∨ e.resourcesChanged ≠ []) ∧
      (e.knownAddedIids ≠ [] → e.instanceSetChanged = true)) ∧
    q.Records ops ∧
    ∀ (op : QueueOp) (memory : List Bool), (op.perform memory q).1 ≠ 0 → (op.perform memory q).2.1 = q := by
  obtain ⟨hwf, hrecords⟩ := reached_invariant h
  refine ⟨q.sorted, fun e he => ⟨hwf.added e he, ?_, ?_, hwf.changed e he⟩, hrecords, fun op memory hfail => ?_⟩
  · refine e.sorted.imp fun {a b} hkey => ?_
    have ha := a.rid.isLt
    have hb := b.rid.isLt
    unfold NotifyResource.key at hkey
    rcases Nat.lt_or_ge a.iid.val b.iid.val with hlt | hge
    · exact Or.inl hlt
    · exact Or.inr ⟨Fin.ext (by omega), Fin.lt_def.mpr (by omega)⟩
  · have hne := hwf.nonempty e he
    unfold NotifyObject.isEmpty at hne
    rcases (Bool.and_eq_false_iff.mp hne) with hset | hres
    · exact Or.inl ((Bool.not_eq_false' _).mp hset)
    · exact Or.inr (List.isEmpty_eq_false_iff.mp hres)
  · obtain ⟨memory', hok | hfail'⟩ := perform_cases hwf op memory
    · rw [hok] at hfail
      exact absurd rfl hfail
    · rw [hfail']

/-- A change of a Resource, an Instance that is created, and a removal for which there is no memory. -/
theorem reached_record_three : ∃ q, QueueReached q [.resourceChange 5 0 3, .instanceCreated 5 1] ∧
    q.Records [.resourceChange 5 0 3, .instanceCreated 5 1] := by
  have h1 := QueueReached.empty.perform (.resourceChange 5 0 3) []
  have h2 := h1.perform (.instanceCreated 5 1) []
  have h3 := h2.perform (.instanceRemoved 6 1) [false]
  exact ⟨_, h3, (reached_record h3).2.2.1⟩

end NotifyQueue

end Anjay.Dm
