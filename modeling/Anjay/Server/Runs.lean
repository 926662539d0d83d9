/-
  File:      Anjay/Server/Runs.lean
  Subject:   The Server Object over whole runs: transactions, API calls, and what is persisted and restored, in
             any order.

  * `reachable_unmodified`: what is not marked as modified is what was persisted or restored last, in runs whose
    events meet `Event.KeepsFlag`.
-/
import Anjay.Modules.Saving
import Anjay.Server.Persistence

namespace Anjay.Serv

open Dm Modules Lib Persistence

/-! ## 1. Runs -/

/-- What happens to the Object. -/
inductive Event
  | create (mem : Bool) (iid : Id)
  | remove (iid : Id)
  | reset (iid : Id)
  | write (iid : Id) (rid : ServerRid) (input : Input)
  | add (mem : Bool) (ssidMem : Nat) (inst : ServerInstance) (iid : Id)
  | purge
  | begin (mem : Bool)
  | commit (ssidMem : Nat)
  | rollback
  | persist (failed : Option Errno)
  | restore (stream : List UInt8)

/-- The state after an event; there is none where an assertion fails. -/
def perform : Event → ServerRepr → Option ServerRepr
  | .create mem iid, repr => (servInstanceCreate mem iid repr).map Prod.snd
  | .remove iid, repr => (deleteInstance iid repr).map Prod.snd
  | .reset iid, repr => (servInstanceReset iid repr).map Prod.snd
  | .write iid rid input, repr => (servWrite iid rid input repr).map Prod.snd
  | .add mem ssidMem inst iid, repr => (serverObjectAddInstance mem ssidMem inst iid repr).map Prod.snd
  | .purge, repr => some repr.purge
  | .begin mem, repr => (servTransactionBegin mem repr).map Prod.snd
  | .commit _, repr => repr.transactionCommit.map Prod.snd
  | .rollback, repr => repr.transactionRollback.map Prod.snd
  | .persist failed, repr => some (serverObjectPersist failed repr).2
  | .restore stream, repr => some (serverObjectRestore stream repr).2

/-- The handlers that change Instances are called in a transaction only, and it is committed after it has
    passed the validation. -/
def Event.Enabled : Event → ServerRepr → Prop
  | .create _ _, repr | .remove _, repr | .reset _, repr | .write _ _ _, repr | .rollback, repr =>
      repr.inTransaction = true
  | .begin _, repr => repr.inTransaction = false
  | .commit ssidMem, repr => repr.inTransaction = true ∧ objectValidate ssidMem repr.instances = 0
  | _, _ => True

/-- The Object, and the Instances that were persisted or restored last. -/
structure RunState where
  repr : ServerRepr
  stored : List Instance

def RunState.init : RunState := ⟨.empty, []⟩

/-- What is remembered as persisted or restored. -/
def storedAfter : Event → ServerRepr → ServerRepr → List Instance → List Instance
  | .persist failed, repr, _, stored =>
      match (serverObjectPersist failed repr).1 with
      | .ok _ => repr.toPersist
      | .error _ => stored
  | .restore stream, repr, repr', stored =>
      match (serverObjectRestore stream repr).1 with
      | .ok _ => repr'.instances
      | .error _ => stored
  | _, _, _, stored => stored

/-- The states of the runs whose events meet the condition `C`. -/
inductive ReachableWith (C : Event → ServerRepr → Prop) : RunState → Prop
  | init : ReachableWith C .init
  | step {s : RunState} {repr' : ServerRepr} (event : Event) (h : ReachableWith C s) (hen : event.Enabled s.repr)
      (hc : C event s.repr) (hstep : perform event s.repr = some repr') :
      ReachableWith C ⟨repr', storedAfter event s.repr repr' s.stored⟩

/-- The Object is persisted. -/
theorem ReachableWith.persisted {C : Event → ServerRepr → Prop} {s : RunState} (h : ReachableWith C s)
    (hc : C (.persist none) s.repr) (hvalid : Valid s.repr.toPersist) (hlength : s.repr.toPersist.length < 2 ^ 32) :
    ReachableWith C ⟨s.repr.clearModified, s.repr.toPersist⟩ := by
  obtain ⟨bytes, hpersist, -⟩ := serverObjectPersist_restore hvalid hlength
  have hstored : storedAfter (.persist none) s.repr s.repr.clearModified s.stored = s.repr.toPersist := by
    show (match (serverObjectPersist none s.repr).1 with
      | .ok _ => s.repr.toPersist
      | .error _ => s.stored) = _
    rw [hpersist]
  have hstep : perform (.persist none) s.repr = some s.repr.clearModified := by
    show some (serverObjectPersist none s.repr).2 = _
    rw [hpersist]
  have hpersisted := h.step (.persist none) trivial hc hstep
  rw [hstored] at hpersisted
  exact hpersisted

/-! ## 2. Saved in every run -/

/-- What keeps the flag good: in an open transaction, no purge that throws away a snapshot whose flag is not
    set, and no saving while the Instances differ from the snapshot; and an Instance is added without an id only
    while some id is free. -/
def Event.KeepsFlag : Event → ServerRepr → Prop
  | .purge, repr => repr.inTransaction = true → repr.savedInstances = [] ∨ repr.savedModifiedSincePersist = true
  | .persist failed, repr => failed = none → repr.inTransaction = true → repr.instances = repr.savedInstances
  | .add _ _ _ iid, repr => iid = idInvalid → SomeFree Instance.iid repr.instances
  | _, _ => True

/-- What `insert_created_instance` does to the Object. -/
theorem insertCreatedInstance_steps {new : Instance} {repr repr' : ServerRepr} (stored : List Instance)
    (h : insertCreatedInstance new repr = some repr') :
    Journal.Steps Valid (repr.journal stored) (repr'.journal stored) := by
  obtain ⟨insts, -, rfl⟩ := Option.map_eq_some_iff.mp h
  exact ObjectRepr.markModified_steps stored insts repr

/-- **Every event that keeps the flag good is a step of a journal.** -/
theorem perform_steps {event : Event} {repr repr' : ServerRepr} (stored : List Instance) (hen : event.Enabled repr)
    (hc : event.KeepsFlag repr) (hstep : perform event repr = some repr') :
    Journal.Steps Valid (repr.journal stored) (repr'.journal (storedAfter event repr repr' stored)) := by
  cases event with
  | create mem iid =>
      obtain ⟨r, hr, rfl⟩ := Option.map_eq_some_iff.mp hstep
      unfold servInstanceCreate at hr
      split at hr
      · cases hr
      split at hr
      · cases hr
        exact Relation.ReflTransGen.refl
      · obtain ⟨created, hcreated, rfl⟩ := Option.map_eq_some_iff.mp hr
        exact insertCreatedInstance_steps stored hcreated
  | remove iid =>
      obtain ⟨r, hr, rfl⟩ := Option.map_eq_some_iff.mp hstep
      obtain ⟨insts, -, rfl⟩ := Option.map_eq_some_iff.mp hr
      exact ObjectRepr.markModified_steps stored insts repr
  | reset iid =>
      obtain ⟨r, hr, rfl⟩ := Option.map_eq_some_iff.mp hstep
      obtain ⟨old, hold, rfl⟩ := Option.map_eq_some_iff.mp hr
      -- the Instance that has been reset does not pass
      refine ObjectRepr.setInstances_steps hen fun hvalid =>
        validateInstance_resetInstance old old.ssid old.hasSsid ?_
      exact hvalid.instances _ (modifyInstance_mem
        (f := fun inst => { resetInstance inst with hasSsid := inst.hasSsid, ssid := inst.ssid }) hold)
  | write iid rid input =>
      obtain ⟨r, hr, rfl⟩ := Option.map_eq_some_iff.mp hstep
      unfold servWrite at hr
      split at hr
      · cases hr
      · obtain ⟨_, -, rfl⟩ := Option.map_eq_some_iff.mp hr
        exact ObjectRepr.markModified_steps stored _ repr
  | add mem ssidMem inst iid =>
      obtain ⟨r, hr, rfl⟩ := Option.map_eq_some_iff.mp hstep
      rcases serverObjectAddInstance_cases hc hr with heq | ⟨new, -, -, heq, -⟩
      · rw [heq]
        exact Relation.ReflTransGen.refl
      · rw [heq]
        exact ObjectRepr.markModified_steps stored _ repr
  | purge =>
      cases hstep
      exact ObjectRepr.purge_steps hc
  | begin mem =>
      obtain ⟨r, hr, rfl⟩ := Option.map_eq_some_iff.mp hstep
      cases mem with
      | true => exact ObjectRepr.transactionBegin_steps hen hr
      | false => exact ObjectRepr.transactionBegin_nil_steps hen hr
  | commit ssidMem =>
      obtain ⟨r, hr, rfl⟩ := Option.map_eq_some_iff.mp hstep
      exact ObjectRepr.transactionCommit_steps (objectValidate_eq_zero_iff.mp hen.2).1 hr
  | rollback =>
      obtain ⟨r, hr, rfl⟩ := Option.map_eq_some_iff.mp hstep
      exact ObjectRepr.transactionRollback_steps hr
  | persist failed =>
      cases hstep
      show Journal.Steps Valid _ (ObjectRepr.journal (match (serverObjectPersist failed repr).1 with
        | .ok _ => repr.toPersist
        | .error _ => stored) _)
      rcases serverObjectPersist_cases failed repr with ⟨err, heq⟩ | ⟨hfailed, bytes, heq⟩
      · rw [heq]
      · rw [heq]
        exact ObjectRepr.clearModified_steps (hc hfailed)
  | restore stream =>
      cases hstep
      show Journal.Steps Valid _ (ObjectRepr.journal (match (serverObjectRestore stream repr).1 with
        | .ok _ => (serverObjectRestore stream repr).2.instances
        | .error _ => stored) _)
      rcases serverObjectRestore_cases stream repr with ⟨err, heq⟩ | ⟨hclosed, insts, -, -, heq⟩
      · rw [heq]
      · rw [heq]
        exact ObjectRepr.restored_steps hclosed

/-- **What is not marked as modified was persisted or restored last**, in runs that keep the flag good. -/
theorem reachable_unmodified {s : RunState} (h : ReachableWith Event.KeepsFlag s) : (s.repr.journal s.stored).Kept Valid := by
  induction h with
  | init => exact ObjectRepr.kept_empty
  | step event _ hen hc hstep ih => exact ih.steps (perform_steps _ hen hc hstep)

end Anjay.Serv
