/-
  File:      Anjay/Modules/Saving.lean
  Subject:   The Security and the Server Object as journals: what the functions that both share do to the
             Instances, the snapshot, and the two flags.

  * `purge_steps`, `clearModified_steps`: a purge, or saving, in an open transaction is a step of a journal
    only under a condition.
-/
import Anjay.Modules.Repr
import Anjay.Lib.Journal

namespace Anjay.Modules

open Lib

variable {ι : Type} {valid : List ι → Prop}

namespace ObjectRepr

/-- The Object as a journal; `stored` is what was persisted or restored last. -/
def journal (stored : List ι) (repr : ObjectRepr ι) : Journal (List ι) where
  current := ⟨repr.instances, repr.modifiedSincePersist⟩
  snapshot := if repr.inTransaction then some ⟨repr.savedInstances, repr.savedModifiedSincePersist⟩ else none
  stored := stored

theorem snapshot_journal_open {stored : List ι} {repr : ObjectRepr ι} (h : repr.inTransaction = true) :
    (repr.journal stored).snapshot = some ⟨repr.savedInstances, repr.savedModifiedSincePersist⟩ := if_pos h

theorem snapshot_journal_closed {stored : List ι} {repr : ObjectRepr ι} (h : repr.inTransaction = false) :
    (repr.journal stored).snapshot = none := if_neg fun h' => Bool.false_ne_true (h.symm.trans h')

/-- An Object that has not been touched. -/
theorem kept_empty : (journal [] (empty : ObjectRepr ι)).Kept valid := ⟨nofun, fun _ => Or.inl rfl⟩

/-- Outside a transaction, what is not modified is what was stored. -/
theorem stored_of_kept {stored : List ι} {repr : ObjectRepr ι} (h : (repr.journal stored).Kept valid)
    (hclosed : repr.inTransaction = false) (hclean : repr.isModified = false) : repr.instances = stored := by
  unfold isModified at hclean
  rw [hclosed, if_neg Bool.false_ne_true] at hclean
  exact h.closed (snapshot_journal_closed hclosed) hclean

/-! ## 1. The steps -/

theorem markModified_steps (stored insts : List ι) (repr : ObjectRepr ι) :
    Journal.Steps valid (repr.journal stored) ((repr.setInstances insts).markModified.journal stored) :=
  (Journal.Step.change insts).steps

theorem setInstances_steps {stored insts : List ι} {repr : ObjectRepr ι} (hopen : repr.inTransaction = true)
    (hinvalid : ¬ valid insts) :
    Journal.Steps valid (repr.journal stored) ((repr.setInstances insts).journal stored) := by
  refine (Journal.Step.spoil insts ?_ hinvalid).steps
  rw [snapshot_journal_open hopen]
  exact nofun

/-- A begin that copies the whole list. -/
theorem transactionBegin_steps {stored : List ι} {repr : ObjectRepr ι} {r : Int × ObjectRepr ι}
    (hclosed : repr.inTransaction = false) (h : repr.transactionBegin repr.instances = some r) :
    Journal.Steps valid (repr.journal stored) (r.2.journal stored) := by
  unfold transactionBegin at h
  split at h
  · cases h
  split at h
  · cases h
    exact Relation.ReflTransGen.refl
  · cases h
    exact (Journal.Step.begin (snapshot_journal_closed hclosed)).steps

/-- A begin that fails for want of memory. -/
theorem transactionBegin_nil_steps {stored : List ι} {repr : ObjectRepr ι} {r : Int × ObjectRepr ι}
    (hclosed : repr.inTransaction = false) (h : repr.transactionBegin [] = some r) :
    Journal.Steps valid (repr.journal stored) (r.2.journal stored) := by
  cases hinsts : repr.instances with
  | nil =>
      rw [← hinsts] at h
      exact transactionBegin_steps hclosed h
  | cons inst insts =>
      unfold transactionBegin at h
      rw [hinsts] at h
      split at h
      · cases h
      · cases h
        exact Relation.ReflTransGen.refl

theorem transactionCommit_steps {stored : List ι} {repr : ObjectRepr ι} {r : Int × ObjectRepr ι}
    (hvalid : valid repr.instances) (h : repr.transactionCommit = some r) :
    Journal.Steps valid (repr.journal stored) (r.2.journal stored) := by
  unfold transactionCommit at h
  split at h
  · cases h
    exact (Journal.Step.commit hvalid).steps
  · cases h

theorem transactionRollback_steps {stored : List ι} {repr : ObjectRepr ι} {r : Int × ObjectRepr ι}
    (h : repr.transactionRollback = some r) : Journal.Steps valid (repr.journal stored) (r.2.journal stored) := by
  unfold transactionRollback at h
  split at h
  next hopen =>
    cases h
    exact (Journal.Step.rollback (snapshot_journal_open hopen)).steps
  · cases h

/-- **A purge in an open transaction throws the snapshot away**, and leaves its flag as it is. -/
theorem purge_steps {stored : List ι} {repr : ObjectRepr ι}
    (h : repr.inTransaction = true → repr.savedInstances = [] ∨ repr.savedModifiedSincePersist = true) :
    Journal.Steps valid (repr.journal stored) (repr.purge.journal stored) := by
  obtain ⟨insts, saved, modified, savedModified, inTransaction⟩ := repr
  -- the Instances first, then the snapshot
  have hcurrent : Journal.Steps valid (journal stored ⟨insts, saved, modified, savedModified, inTransaction⟩)
      (journal stored ⟨[], saved, if insts.isEmpty then modified else true, savedModified, inTransaction⟩) := by
    cases insts with
    | nil => exact Relation.ReflTransGen.refl
    | cons inst insts => exact (Journal.Step.change []).steps
  refine hcurrent.trans ?_
  cases inTransaction with
  | false => exact Relation.ReflTransGen.refl
  | true =>
      rcases h rfl with hsaved | hmod
      · cases hsaved
        exact Relation.ReflTransGen.refl
      · cases hmod
        exact (Journal.Step.discard [] rfl rfl).steps

/-- **Saving clears the flag of the Instances there are**, whichever list is saved. -/
theorem clearModified_steps {stored : List ι} {repr : ObjectRepr ι}
    (h : repr.inTransaction = true → repr.instances = repr.savedInstances) :
    Journal.Steps valid (repr.journal stored) (repr.clearModified.journal repr.toPersist) := by
  obtain ⟨insts, saved, modified, savedModified, inTransaction⟩ := repr
  cases inTransaction with
  | false => exact (Journal.Step.save rfl).steps
  | true =>
      have hsame : insts = saved := h rfl
      exact (Journal.Step.saveOpen (j := journal stored ⟨insts, saved, modified, savedModified, true⟩)
        (m := ⟨saved, savedModified⟩) rfl hsame).steps

theorem restored_steps {stored insts : List ι} {repr : ObjectRepr ι} (hclosed : repr.inTransaction = false) :
    Journal.Steps valid (repr.journal stored) ((repr.setInstances insts).clearModified.journal insts) := by
  obtain ⟨_, saved, modified, savedModified, inTransaction⟩ := repr
  cases hclosed
  exact (Journal.Step.load insts rfl).steps

end ObjectRepr

end Anjay.Modules
