/-
  File:      Anjay/Modules/Repr.lean
  Subject:   What the Security and the Server Object do alike (`anjay_mod_security.c`, `anjay_mod_server.c` and
             their `_transaction.c`): the lists of Instances, and the functions on them.

  * `getNewIid_spec`: the id that is found for a new Instance is free, unless all are taken.
  * `delInstance_insertInstance`: what has been put in is what is taken out again.
  * `not_hasDuplicate_iff`: the check for equal neighbours, after sorting, finds all equal keys.
-/
import Anjay.Dm.Path
import Mathlib.Data.List.Sort
import Mathlib.Data.List.Nodup

namespace Anjay.Modules

open Dm

variable {ι : Type}

/-! ## 1. The state -/

/-- `sec_repr_t` and `server_repr_t`. -/
@[ext]
structure ObjectRepr (ι : Type) where
  instances : List ι
  savedInstances : List ι
  modifiedSincePersist : Bool
  savedModifiedSincePersist : Bool
  inTransaction : Bool
  deriving DecidableEq, Repr

namespace ObjectRepr

/-- What `avs_calloc` gives. -/
def empty : ObjectRepr ι := ⟨[], [], false, false, false⟩

/-- `_anjay_sec_mark_modified`, `_anjay_serv_mark_modified`. -/
def markModified (repr : ObjectRepr ι) : ObjectRepr ι := { repr with modifiedSincePersist := true }

/-- `_anjay_sec_clear_modified`, `_anjay_serv_clear_modified`. -/
def clearModified (repr : ObjectRepr ι) : ObjectRepr ι := { repr with modifiedSincePersist := false }

def setInstances (repr : ObjectRepr ι) (insts : List ι) : ObjectRepr ι := { repr with instances := insts }

/-- The list that is persisted: that from before the transaction, if there is one. -/
def toPersist (repr : ObjectRepr ι) : List ι := if repr.inTransaction then repr.savedInstances else repr.instances

/-- `anjay_security_object_is_modified`, `anjay_server_object_is_modified`. -/
def isModified (repr : ObjectRepr ι) : Bool :=
  if repr.inTransaction then repr.savedModifiedSincePersist else repr.modifiedSincePersist

/-- `security_purge`, `server_purge`. -/
def purge (repr : ObjectRepr ι) : ObjectRepr ι :=
  { repr with
    instances := []
    savedInstances := []
    modifiedSincePersist := if repr.instances.isEmpty then repr.modifiedSincePersist else true }

/-- `_anjay_sec_transaction_begin_impl`, `_anjay_serv_transaction_begin_impl`, where the copy of the list is
    `cloned`; there is no result where an assertion fails. -/
def transactionBegin (cloned : List ι) (repr : ObjectRepr ι) : Option (Int × ObjectRepr ι) :=
  if repr.savedInstances.isEmpty = false ∨ repr.inTransaction = true then none
  else if cloned.isEmpty = true ∧ repr.instances.isEmpty = false then some (errInternal, repr)
  else
    some (0, { repr with
      savedInstances := cloned
      savedModifiedSincePersist := repr.modifiedSincePersist
      inTransaction := true })

/-- `_anjay_sec_transaction_commit_impl`, `_anjay_serv_transaction_commit_impl`. -/
def transactionCommit (repr : ObjectRepr ι) : Option (Int × ObjectRepr ι) :=
  if repr.inTransaction then some (0, { repr with savedInstances := [], inTransaction := false }) else none

/-- `_anjay_sec_transaction_rollback_impl`, `_anjay_serv_transaction_rollback_impl`. -/
def transactionRollback (repr : ObjectRepr ι) : Option (Int × ObjectRepr ι) :=
  if repr.inTransaction then
    some (0, { repr with
      instances := repr.savedInstances
      savedInstances := []
      modifiedSincePersist := repr.savedModifiedSincePersist
      inTransaction := false })
  else none

end ObjectRepr

/-! ## 2. The list of Instances -/

section Instances

variable (iid : ι → Id)

/-- `find_instance`. -/
def findInstance (k : Id) : List ι → Option ι
  | [] => none
  | inst :: insts =>
      if iid inst = k then some inst else if k < iid inst then none else findInstance k insts

/-- A write through the pointer that `find_instance` gives. -/
def modifyInstance (k : Id) (f : ι → ι) : List ι → List ι
  | [] => []
  | inst :: insts =>
      if iid inst = k then f inst :: insts
      else if k < iid inst then inst :: insts
      else inst :: modifyInstance k f insts

/-- The loop of `get_new_iid`. -/
def newIidFrom (next : Id) : List ι → Id
  | [] => next
  | inst :: insts =>
      if iid inst = next then newIidFrom (next + 1) insts
      else if next < iid inst then next
      else newIidFrom next insts

/-- `get_new_iid`. -/
def getNewIid (insts : List ι) : Id := newIidFrom iid 0 insts

/-- `assign_iid`, and the test of `add_instance` for an id that is given: the id of the new Instance. -/
def chooseIid (k : Id) (insts : List ι) : Option Id :=
  if k = idInvalid then
    if getNewIid iid insts = idInvalid then none else some (getNewIid iid insts)
  else if (findInstance iid k insts).isSome then none else some k

/-- The insertion in front of the first Instance with a greater id. -/
def insertInstance (new : ι) : List ι → List ι
  | [] => [new]
  | inst :: insts => if iid new < iid inst then new :: inst :: insts else inst :: insertInstance new insts

/-- The loop of `del_instance`; `ordered` is whether it ends at a greater id. There is no result where
    `assert(0)` is reached. -/
def delInstance (ordered : Bool) (k : Id) : List ι → Option (List ι)
  | [] => none
  | inst :: insts =>
      if iid inst = k then some insts
      else if ordered ∧ k < iid inst then none
      else (delInstance ordered k insts).map (inst :: ·)

end Instances

/-- The `while` loop that compares neighbours. -/
def hasDuplicate {α : Type} [DecidableEq α] : List α → Bool
  | a :: b :: as => decide (a = b) || hasDuplicate (b :: as)
  | _ => false

/-! ## 3. Ids -/

section Instances

variable {iid : ι → Id}

theorem findInstance_some {k : Id} {insts : List ι} {inst : ι} (h : findInstance iid k insts = some inst) :
    inst ∈ insts ∧ iid inst = k := by
  induction insts with
  | nil => cases h
  | cons a insts ih =>
      unfold findInstance at h
      split at h
      next hk =>
        cases h
        exact ⟨List.mem_cons_self, hk⟩
      split at h
      · cases h
      · exact ⟨List.mem_cons_of_mem _ (ih h).1, (ih h).2⟩

theorem mem_modifyInstance {k : Id} {f : ι → ι} {insts : List ι} {inst : ι}
    (h : inst ∈ modifyInstance iid k f insts) :
    inst ∈ insts ∨ ∃ old, findInstance iid k insts = some old ∧ inst = f old := by
  induction insts with
  | nil => cases h
  | cons a insts ih =>
      unfold modifyInstance at h
      unfold findInstance
      split at h
      next hk =>
        rw [if_pos hk]
        rcases List.mem_cons.mp h with rfl | h
        · exact Or.inr ⟨a, rfl, rfl⟩
        · exact Or.inl (List.mem_cons_of_mem _ h)
      next hk =>
      rw [if_neg hk]
      split at h
      · exact Or.inl h
      next hlt =>
      rw [if_neg hlt]
      rcases List.mem_cons.mp h with rfl | h
      · exact Or.inl List.mem_cons_self
      · exact (ih h).imp_left (List.mem_cons_of_mem _)

/-- What is found is among the Instances after the change, as changed. -/
theorem modifyInstance_mem {k : Id} {f : ι → ι} {insts : List ι} {old : ι}
    (h : findInstance iid k insts = some old) : f old ∈ modifyInstance iid k f insts := by
  induction insts with
  | nil => cases h
  | cons a insts ih =>
      unfold findInstance at h
      unfold modifyInstance
      split at h
      next hk =>
        cases h
        rw [if_pos hk]
        exact List.mem_cons_self
      next hk =>
      split at h
      · cases h
      next hlt =>
      rw [if_neg hk, if_neg hlt]
      exact List.mem_cons_of_mem _ (ih h)

/-- **A change of one Instance is seen where that Instance is looked for.** -/
theorem findInstance_modifyInstance {k' : Id} {f : ι → ι} (hf : ∀ a, iid a = k' → iid (f a) = k') (k : Id) (insts : List ι) :
    findInstance iid k (modifyInstance iid k' f insts) =
      if k = k' then (findInstance iid k insts).map f else findInstance iid k insts := by
  induction insts with
  | nil => exact (ite_self _).symm
  | cons a insts ih =>
      unfold modifyInstance
      by_cases ha : iid a = k'
      · rw [if_pos ha, findInstance, findInstance, hf a ha, ha]
        by_cases hk : k = k'
        · rw [if_pos hk, if_pos hk.symm, if_pos hk.symm]
          rfl
        · rw [if_neg hk]
          simp only [if_neg (Ne.symm hk)]
      rw [if_neg ha]
      by_cases hlt : k' < iid a
      · rw [if_pos hlt]
        split
        next hk => rw [findInstance, if_neg (hk ▸ ha), if_pos (hk ▸ hlt), Option.map_none]
        · rfl
      rw [if_neg hlt, findInstance, findInstance, ih]
      by_cases hk : k = k'
      · rw [if_pos hk, if_pos hk, if_neg (hk ▸ ha), if_neg (hk ▸ hlt), if_neg (hk ▸ ha), if_neg (hk ▸ hlt)]
      · rw [if_neg hk, if_neg hk]

/-- An Instance that is put in does not hide the others. -/
theorem findInstance_insertInstance {new : ι} {k : Id} (hk : k ≠ iid new) (insts : List ι) :
    findInstance iid k (insertInstance iid new insts) = findInstance iid k insts := by
  induction insts with
  | nil =>
      unfold insertInstance findInstance
      rw [if_neg (Ne.symm hk)]
      split <;> rfl
  | cons a insts ih =>
      unfold insertInstance
      split
      next hlt =>
        rw [findInstance, if_neg (Ne.symm hk)]
        split
        next hbelow =>
          have hnot : ¬iid a = k := (hbelow.trans hlt).ne'
          rw [findInstance, if_neg hnot, if_pos (hbelow.trans hlt)]
        · rfl
      · rw [findInstance, findInstance, ih]

theorem mem_insertInstance {new inst : ι} {insts : List ι} :
    inst ∈ insertInstance iid new insts ↔ inst = new ∨ inst ∈ insts := by
  induction insts with
  | nil => rw [insertInstance, List.mem_singleton, or_iff_left List.not_mem_nil]
  | cons a insts ih =>
      unfold insertInstance
      split
      · exact List.mem_cons
      · rw [List.mem_cons, ih, List.mem_cons, or_left_comm]

theorem delInstance_sublist {ordered : Bool} {k : Id} {insts insts' : List ι}
    (h : delInstance iid ordered k insts = some insts') : insts'.Sublist insts := by
  induction insts generalizing insts' with
  | nil => cases h
  | cons a insts ih =>
      unfold delInstance at h
      split at h
      · cases h
        exact List.sublist_cons_self _ _
      split at h
      · cases h
      · obtain ⟨rest, hrest, rfl⟩ := Option.map_eq_some_iff.mp h
        exact (ih hrest).cons_cons a

/-- What is found is found after another Instance has been taken out. -/
theorem findInstance_delInstance {ordered : Bool} {k k' : Id} {insts insts' : List ι} {inst : ι} (hne : k ≠ k')
    (hdel : delInstance iid ordered k' insts = some insts') (h : findInstance iid k insts = some inst) :
    findInstance iid k insts' = some inst := by
  induction insts generalizing insts' with
  | nil => cases h
  | cons a insts ih =>
      unfold findInstance at h
      unfold delInstance at hdel
      split at hdel
      next hk' =>
        rw [if_neg fun hk => hne (hk.symm.trans hk')] at h
        split at h
        · cases h
        · rw [← Option.some.inj hdel]
          exact h
      split at hdel
      · cases hdel
      obtain ⟨rest, hrest, rfl⟩ := Option.map_eq_some_iff.mp hdel
      unfold findInstance
      split at h
      next hk =>
        rw [if_pos hk]
        exact h
      next hk =>
        split at h
        · cases h
        next hlt =>
          rw [if_neg hk, if_neg hlt]
          exact ih hrest h

/-- **The Instance that has been put in is taken out again**, where none was found with its id. -/
theorem delInstance_insertInstance (ordered : Bool) (new : ι) {insts : List ι}
    (h : findInstance iid (iid new) insts = none) :
    delInstance iid ordered (iid new) (insertInstance iid new insts) = some insts := by
  induction insts with
  | nil =>
      unfold insertInstance delInstance
      exact if_pos rfl
  | cons a insts ih =>
      unfold findInstance at h
      unfold insertInstance
      split at h
      · cases h
      next hne =>
      split
      · unfold delInstance
        exact if_pos rfl
      next hnlt =>
      rw [if_neg hnlt] at h
      unfold delInstance
      rw [if_neg hne, if_neg fun hlt => hnlt hlt.2, ih h]
      rfl

/-- **The id that is found is free**, unless all from `next` on are taken. -/
theorem newIidFrom_spec {next : Id} {insts : List ι} (h : ∃ k, next ≤ k ∧ ∀ inst ∈ insts, iid inst ≠ k) :
    next ≤ newIidFrom iid next insts ∧ findInstance iid (newIidFrom iid next insts) insts = none := by
  induction insts generalizing next with
  | nil => exact ⟨le_refl _, rfl⟩
  | cons a insts ih =>
      obtain ⟨k, hk, hfree⟩ := h
      have hfree' : ∀ inst ∈ insts, iid inst ≠ k := fun inst hinst => hfree inst (List.mem_cons_of_mem _ hinst)
      unfold newIidFrom findInstance
      by_cases heq : iid a = next
      · rw [if_pos heq]
        -- `k` is greater, so that the id after `next` is not 0 again
        have hlt : next < k := lt_of_le_of_ne hk fun h => hfree a List.mem_cons_self (heq.trans h)
        have hval : (next + 1).val = next.val + 1 := by
          have hk' := k.isLt
          have hlt' := Fin.lt_def.mp hlt
          rw [Fin.val_add, show (1 : Id).val = 1 from rfl, Nat.mod_eq_of_lt (by omega)]
        have hsucc : next < next + 1 := Fin.lt_def.mpr (by omega)
        have hnext : next + 1 ≤ k := Fin.le_def.mpr (by have := Fin.lt_def.mp hlt; omega)
        obtain ⟨hle, hfind⟩ := ih ⟨k, hnext, hfree'⟩
        have hbelow : iid a < newIidFrom iid (next + 1) insts := by
          rw [heq]
          exact lt_of_lt_of_le hsucc hle
        rw [if_neg hbelow.ne, if_neg (not_lt.mpr hbelow.le)]
        exact ⟨(lt_of_lt_of_le hsucc hle).le, hfind⟩
      rw [if_neg heq]
      by_cases hgt : next < iid a
      · rw [if_pos hgt, if_neg heq, if_pos hgt]
        exact ⟨le_refl _, rfl⟩
      · obtain ⟨hle, hfind⟩ := ih ⟨k, hk, hfree'⟩
        have hbelow : iid a < newIidFrom iid next insts :=
          lt_of_lt_of_le (lt_of_le_of_ne (not_lt.mp hgt) heq) hle
        rw [if_neg hgt, if_neg hbelow.ne, if_neg (not_lt.mpr hbelow.le)]
        exact ⟨hle, hfind⟩

/-- Some id is not in use. -/
def SomeFree (iid : ι → Id) (insts : List ι) : Prop := ∃ k, ∀ inst ∈ insts, iid inst ≠ k

theorem chooseIid_spec {k k' : Id} {insts : List ι} (hfree : k = idInvalid → SomeFree iid insts)
    (h : chooseIid iid k insts = some k') : findInstance iid k' insts = none := by
  unfold chooseIid at h
  split at h
  next hk =>
    obtain ⟨k₀, hk₀⟩ := hfree hk
    split at h
    · cases h
    · cases h
      exact (newIidFrom_spec ⟨k₀, Fin.zero_le _, hk₀⟩).2
  · split at h
    · cases h
    next hnone =>
      cases h
      exact Option.not_isSome_iff_eq_none.mp hnone

end Instances

/-- A transaction that has begun has the copy saved, which is empty only where there are no Instances. -/
theorem ObjectRepr.begin_saved {cloned : List ι} {repr begun : ObjectRepr ι}
    (h : repr.transactionBegin cloned = some (0, begun)) :
    begun.savedInstances = cloned ∧ (cloned = [] → repr.instances = []) := by
  unfold ObjectRepr.transactionBegin at h
  split at h
  · cases h
  split at h
  · cases h
  next hcopied =>
    rw [← (Prod.mk.inj (Option.some.inj h)).2]
    refine ⟨rfl, fun hnil => Decidable.byContradiction fun hne => hcopied ⟨by rw [hnil]; rfl, ?_⟩⟩
    cases hinsts : repr.instances with
    | nil => exact absurd hinsts hne
    | cons inst insts => rfl

/-- The end of `anjay_security_object_add_instance` and of `anjay_server_object_add_instance`, where what was
    added is taken out again: the flag is what it was. -/
theorem ObjectRepr.taken_back {repr : ObjectRepr ι} {insts insts' : List ι} (h : insts' = repr.instances) :
    (if repr.modifiedSincePersist then ((repr.setInstances insts).markModified.setInstances insts').markModified
      else ((repr.setInstances insts).markModified.setInstances insts').markModified.clearModified) = repr := by
  obtain ⟨current, saved, modified, savedModified, inTransaction⟩ := repr
  rw [h]
  cases modified with
  | true => rfl
  | false => rfl

/-! ## 4. Equal keys -/

theorem not_hasDuplicate_iff {α κ : Type} [DecidableEq α] [LinearOrder κ] {key : α → κ} (hinj : Function.Injective key)
    {as : List α} (hs : as.Pairwise fun a b => key a ≤ key b) : hasDuplicate as = false ↔ as.Nodup := by
  induction as with
  | nil => exact ⟨fun _ => List.nodup_nil, fun _ => rfl⟩
  | cons a as ih =>
      obtain ⟨ha, has⟩ := List.pairwise_cons.mp hs
      cases as with
      | nil => exact ⟨fun _ => List.nodup_singleton a, fun _ => rfl⟩
      | cons b as =>
          unfold hasDuplicate
          rw [Bool.or_eq_false_iff, ih has, List.nodup_cons (a := a), decide_eq_false_iff_not]
          refine and_congr_left fun _ => ⟨fun hne hin => ?_, fun hnot h => hnot (h ▸ List.mem_cons_self)⟩
          -- all that follow are at least `b`, which is not `a`
          have hb : key b ≤ key a := by
            rcases List.mem_cons.mp hin with rfl | hin
            · exact le_refl _
            · exact (List.pairwise_cons.mp has).1 a hin
          exact hne (hinj (le_antisymm (ha b List.mem_cons_self) hb))

end Anjay.Modules
