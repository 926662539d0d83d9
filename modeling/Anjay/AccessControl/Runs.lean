/-
  File:      Anjay/AccessControl/Runs.lean
  Subject:   The Access Control Object over whole runs: requests, API calls, transactions, and what is
             persisted and restored, in any order.

  * `reachable_sound`: in runs whose restores bring sorted lists, Instances and ACLs stay sorted, the cached
    pointer stays good, and no assertion fails; `sound_not_always`: a stream need not be sorted.
  * `restore_persist_not_always`: 65536 Instances can be had, and are not restored.
  * `reachable_validated`: where no owner is 0 and the tree of SSIDs is allocated, what passes the check is
    valid, and a rollback brings the Instances of the begin back.
-/
import Anjay.AccessControl.Persistence
import Anjay.AccessControl.Validate

namespace Anjay.Ac

open Dm Lib Persistence

variable {σ : Type}

/-! ## 1. Runs -/

/-- What happens to the Object. `read` stands for the handlers that only look an Instance up. -/
inductive Event (σ : Type)
  | create (mem : Nat) (iid : Id)
  | remove (iid : Id)
  | reset (iid : Id)
  | read (iid : Id)
  | write (mem : Bool) (iid rid riid : Id) (input : Except Int Int)
  | resourceReset (iid : Id)
  | setAcl (dm : DataModel σ) (mem : Nat) (notified queued : Int) (oid iid ssid : Id) (mask : Mask)
  | purge
  | begin (mem : Nat)
  | validate (dm : DataModel σ) (alloc : ValidateAlloc)
  | commit
  | rollback
  | persist (failed : Option Errno)
  | restore (dm : DataModel σ) (stream : List UInt8)

/-- The state after an event; there is none where an assertion fails or a dangling pointer is followed. -/
def perform : Event σ → AccessControl → Option AccessControl
  | .create mem iid, ac => (instanceCreate mem iid ac).map Prod.snd
  | .remove iid, ac => (instanceRemove iid ac).map Prod.snd
  | .reset iid, ac => (instanceReset iid ac).map Prod.snd
  | .read iid, ac => (findInstance iid ac).map Prod.snd
  | .write mem iid rid riid input, ac => (resourceWrite mem iid rid riid input ac).map Prod.snd
  | .resourceReset iid, ac => (resourceReset iid ac).map Prod.snd
  | .setAcl dm mem notified queued oid iid ssid mask, ac =>
      (accessControlSetAcl dm mem notified queued oid iid ssid mask ac).map Prod.snd
  | .purge, ac => some (accessControlPurge ac)
  | .begin mem, ac => (transactionBegin mem ac).map Prod.snd
  | .validate dm alloc, ac => (transactionValidate dm alloc ac).map Prod.snd
  | .commit, ac => (transactionCommit ac).map Prod.snd
  | .rollback, ac => (transactionRollback ac).map Prod.snd
  | .persist failed, ac => some (accessControlPersist failed ac).2
  | .restore dm stream, ac => some (accessControlRestore dm stream ac).2

/-- The transaction handlers are called in turn. -/
def Event.Enabled : Event σ → AccessControl → Prop
  | .begin _, ac => ac.inTransaction = false
  | .validate _ _, ac | .commit, ac | .rollback, ac => ac.inTransaction = true
  | _, _ => True

/-- The Object, the Instances at the last begin, and those last persisted or restored, if any. -/
structure RunState where
  ac : AccessControl
  begun : List Instance
  stored : Option (List Instance)

def AccessControl.insts (ac : AccessControl) : List Instance := ac.current.instances.map Node.inst

def RunState.init : RunState := ⟨.installed, [], none⟩

/-- What is remembered as persisted or restored. -/
def storedAfter : Event σ → AccessControl → AccessControl → Option (List Instance) → Option (List Instance)
  | .persist failed, ac, _, stored =>
      match (accessControlPersist failed ac).1 with
      | .ok _ => some ac.toPersist
      | .error _ => stored
  | .restore dm stream, ac, ac', stored =>
      match (accessControlRestore dm stream ac).1 with
      | .ok _ => some ac'.insts
      | .error _ => stored
  | _, _, _, stored => stored

def begunAfter : Event σ → AccessControl → List Instance → List Instance
  | .begin _, ac, _ => ac.insts
  | _, _, begun => begun

/-- The states of the runs whose events meet the condition `C`. -/
inductive ReachableWith (C : Event σ → AccessControl → Prop) : RunState → Prop
  | init : ReachableWith C .init
  | step {s : RunState} {ac' : AccessControl} (event : Event σ) (h : ReachableWith C s)
      (hen : event.Enabled s.ac) (hc : C event s.ac) (hstep : perform event s.ac = some ac') :
      ReachableWith C ⟨ac', begunAfter event s.ac s.begun, storedAfter event s.ac ac' s.stored⟩

/-! ## 2. Sound states -/

/-- Tidy list elements at distinct addresses that have been given out. -/
structure Placed (next : Nat) (nodes : List Node) : Prop where
  tidy : Tidy nodes
  distinct : (nodes.map Node.addr).Nodup
  below : ∀ n ∈ nodes, n.addr < next

/-- The Instances are in order, those of the snapshot too, and the cached pointer points to one of them. -/
structure Sound (ac : AccessControl) : Prop where
  current : Placed ac.nextAddr ac.current.instances
  saved : Placed ac.nextAddr ac.savedState.instances
  cached : ∀ addr, ac.lastAccessedInstance = some addr → ∃ n ∈ ac.current.instances, n.addr = addr
  closed : ac.inTransaction = false → ac.savedState = .empty

theorem Placed.nil (next : Nat) : Placed next [] := ⟨.nil, List.nodup_nil, fun _ h => absurd h List.not_mem_nil⟩

theorem Placed.mono {next next' : Nat} {nodes : List Node} (h : Placed next nodes) (hle : next ≤ next') :
    Placed next' nodes := ⟨h.tidy, h.distinct, fun n hn => Nat.lt_of_lt_of_le (h.below n hn) hle⟩

theorem Placed.sublist {next : Nat} {nodes nodes' : List Node} (h : Placed next nodes)
    (hsub : nodes'.Sublist nodes) : Placed next nodes' :=
  ⟨⟨h.tidy.sorted.sublist hsub, fun n hn => h.tidy.tidy n (hsub.subset hn)⟩,
    h.distinct.sublist (hsub.map Node.addr), fun n hn => h.below n (hsub.subset hn)⟩

theorem Placed.inserted {next : Nat} {nodes nodes' : List Node} {inst : Instance} (h : Placed next nodes)
    (hinst : inst.Tidy) (hins : Inserted ⟨next, inst⟩ nodes nodes') : Placed (next + 1) nodes' := by
  refine ⟨h.tidy.inserted hinst hins, ?_, fun n hn => ?_⟩
  · obtain ⟨before, after, rfl, rfl, -, -⟩ := hins
    have hnodup := h.distinct
    rw [List.map_append] at hnodup
    rw [List.map_append, List.map_cons]
    refine List.nodup_middle.mpr (List.nodup_cons.mpr ⟨fun hin => ?_, hnodup⟩)
    rw [← List.map_append] at hin
    obtain ⟨n, hn, haddr⟩ := List.mem_map.mp hin
    have hlt := h.below n hn
    rw [haddr] at hlt
    exact lt_irrefl _ hlt
  · rcases hins.mem.mp hn with rfl | hn
    · exact Nat.lt_succ_self _
    · exact Nat.lt_succ_of_lt (h.below n hn)

/-- Instances in order can be placed anywhere. -/
theorem placed_place {insts : List Instance} (hs : Sorted Instance.iid insts) (ht : ∀ inst ∈ insts, inst.Tidy)
    (addr : Nat) : Placed (addr + insts.length) (place addr insts) := by
  refine ⟨⟨?_, fun n hn => ht _ (mem_place hn).2.2⟩, nodup_place addr insts, fun n hn => (mem_place hn).2.1⟩
  have hmap : ((place addr insts).map Node.inst).Pairwise fun a b => a.iid < b.iid := by
    rw [map_inst_place]
    exact hs
  have hnodes := List.pairwise_map.mp hmap
  exact hnodes

/-- An Instance is changed where it is, and keeps its id. -/
theorem Placed.modifyAt {next addr : Nat} {ac : AccessControl} {f : Instance → Instance}
    (h : Placed next ac.current.instances) (hiid : ∀ inst, (f inst).iid = inst.iid)
    (htidy : ∀ n ∈ ac.current.instances, n.addr = addr → (f n.inst).Tidy) :
    Placed next (ac.modifyAt addr f).current.instances := by
  have hnode : ∀ n : Node, (if n.addr = addr then ⟨n.addr, f n.inst⟩ else n).addr = n.addr ∧
      (if n.addr = addr then ⟨n.addr, f n.inst⟩ else n).inst.iid = n.inst.iid := by
    intro n
    split
    · exact ⟨rfl, hiid n.inst⟩
    · exact ⟨rfl, rfl⟩
  have hmem : ∀ n ∈ (ac.modifyAt addr f).current.instances, ∃ m ∈ ac.current.instances,
      (if m.addr = addr then ⟨m.addr, f m.inst⟩ else m) = n := fun n hn => List.mem_map.mp hn
  refine ⟨⟨List.pairwise_map.mpr (h.tidy.sorted.imp fun hlt => ?_), fun n hn => ?_⟩, ?_, fun n hn => ?_⟩
  · dsimp only
    rw [(hnode _).2, (hnode _).2]
    exact hlt
  · obtain ⟨m, hm, rfl⟩ := hmem n hn
    split
    next haddr => exact htidy m hm haddr
    · exact h.tidy.tidy m hm
  · have hmap : (ac.modifyAt addr f).current.instances.map Node.addr = ac.current.instances.map Node.addr := by
      show (List.map _ _).map Node.addr = _
      rw [List.map_map]
      exact List.map_congr_left fun n _ => (hnode n).1
    rw [hmap]
    exact h.distinct
  · obtain ⟨m, hm, rfl⟩ := hmem n hn
    rw [(hnode m).1]
    exact h.below m hm

theorem sound_installed : Sound .installed := ⟨.nil _, .nil _, nofun, fun _ => rfl⟩

/-! ## 3. Looking up -/

theorem searchInstance_eq_some {iid : Id} {nodes : List Node} (hs : Sorted (fun n => n.inst.iid) nodes) {n : Node} :
    searchInstance iid nodes = some n ↔ n ∈ nodes ∧ n.inst.iid = iid := by
  unfold searchInstance
  cases hf : nodes.find? fun n => decide (iid ≤ n.inst.iid) with
  | none =>
      refine ⟨nofun, fun ⟨hn, heq⟩ => ?_⟩
      have := List.find?_eq_none.mp hf n hn
      rw [heq] at this
      exact absurd (decide_eq_true (le_refl iid)) this
  | some m =>
      have hm := List.mem_of_find?_eq_some hf
      have hle : iid ≤ m.inst.iid := of_decide_eq_true (List.find?_some hf :)
      dsimp only
      constructor
      · intro h
        split at h
        next heq => exact Option.some.inj h ▸ ⟨hm, heq⟩
        · cases h
      · rintro ⟨hn, rfl⟩
        -- what is found first is not greater
        obtain ⟨-, before, after, rfl, hbefore⟩ := List.find?_eq_some_iff_append.mp hf
        have hnot : n ∉ before := fun hin => by simpa using hbefore n hin
        rcases List.mem_cons.mp ((List.mem_append.mp hn).resolve_left hnot) with rfl | hin
        · exact if_pos rfl
        · have hlt := (List.pairwise_cons.mp (List.pairwise_append.mp hs).2.1).1 n hin
          exact absurd hlt (not_lt.mpr hle)

/-- **`find_instance` finds the Instance with the id, exactly when there is one**, and caches it. -/
theorem findInstance_spec {ac : AccessControl} (h : Sound ac) (iid : Id) : ∃ found,
    findInstance iid ac = some (found, { ac with lastAccessedInstance := found.map Node.addr }) ∧
      ∀ n, found = some n ↔ n ∈ ac.current.instances ∧ n.inst.iid = iid := by
  have hsearch : ∀ n, searchInstance iid ac.current.instances = some n ↔ n ∈ ac.current.instances ∧ n.inst.iid = iid :=
    fun n => searchInstance_eq_some h.current.tidy.sorted
  unfold findInstance
  dsimp only
  cases hlast : ac.lastAccessedInstance with
  | none => exact ⟨_, rfl, hsearch⟩
  | some addr =>
  dsimp only
  split
  next hf =>
    obtain ⟨n, hn, haddr⟩ := h.cached addr hlast
    exact absurd (decide_eq_true haddr) (List.find?_eq_none.mp hf n hn)
  next n hf =>
  have hn := List.mem_of_find?_eq_some hf
  have haddr : n.addr = addr := of_decide_eq_true (List.find?_some hf :)
  by_cases heq : n.inst.iid = iid
  · refine ⟨some n, ?_, fun m => ?_⟩
    · rw [if_pos heq, Option.map_some, haddr, ← hlast]
    · rw [← hsearch, (hsearch n).mpr ⟨hn, heq⟩]
  · exact ⟨_, if_neg heq, hsearch⟩

theorem Sound.cache {ac : AccessControl} (h : Sound ac) {found : Option Node}
    (hfound : ∀ n, found = some n → n ∈ ac.current.instances) :
    Sound { ac with lastAccessedInstance := found.map Node.addr } := by
  refine ⟨h.current, h.saved, fun addr haddr => ?_, h.closed⟩
  obtain ⟨n, hn, heq⟩ := Option.map_eq_some_iff.mp haddr
  exact ⟨n, hfound n hn, heq⟩

/-- What the handlers keep that begin with `find_instance`. -/
theorem withInstance_sound {ρ : Type} {ac : AccessControl} (h : Sound ac) (iid : Id) (notFound : ρ)
    {f : Node → AccessControl → ρ × AccessControl}
    (hf : ∀ n ac', Sound ac' → n ∈ ac'.current.instances → Sound (f n ac').2) :
    ∃ r, withInstance iid notFound ac f = some r ∧ Sound r.2 := by
  obtain ⟨found, hfind, hspec⟩ := findInstance_spec h iid
  have hcached := h.cache fun n hn => ((hspec n).mp hn).1
  unfold withInstance
  rw [hfind]
  cases found with
  | none => exact ⟨_, rfl, hcached⟩
  | some n => exact ⟨_, rfl, hf n _ hcached ((hspec n).mp rfl).1⟩

/-! ## 4. What the functions keep -/

theorem Sound.markModified {ac : AccessControl} (h : Sound ac) : Sound ac.markModified :=
  ⟨h.current, h.saved, h.cached, h.closed⟩

theorem Sound.changed {ac : AccessControl} (h : Sound ac) : Sound ac.changed :=
  ⟨h.current, h.saved, h.cached, h.closed⟩

theorem Sound.clearModified {ac : AccessControl} (h : Sound ac) : Sound ac.clearModified :=
  ⟨h.current, h.saved, h.cached, h.closed⟩

theorem Sound.modifyAt {ac : AccessControl} (h : Sound ac) (addr : Nat) {f : Instance → Instance}
    (hiid : ∀ inst, (f inst).iid = inst.iid)
    (htidy : ∀ n ∈ ac.current.instances, n.addr = addr → (f n.inst).Tidy) : Sound (ac.modifyAt addr f) := by
  refine ⟨h.current.modifyAt hiid htidy, h.saved, fun a ha => ?_, h.closed⟩
  obtain ⟨n, hn, rfl⟩ := h.cached a ha
  refine ⟨_, List.mem_map_of_mem hn, ?_⟩
  split <;> rfl

/-- **An Instance is added, or nothing is**, and no assertion fails. -/
theorem Sound.addNew {ac : AccessControl} (h : Sound ac) (queued : Int) {inst : Instance} (hinst : inst.Tidy) :
    ∃ r, addNew queued inst ac = some r ∧ Sound r.2 := by
  obtain ⟨result, nodes', hadd, hadded⟩ := addInstance_spec queued ⟨ac.nextAddr, inst⟩ h.current.tidy.sorted
  unfold Ac.addNew
  rw [hadd]
  refine ⟨_, rfl, ?_⟩
  by_cases hresult : result = 0
  · obtain ⟨iid, hins, -, -⟩ := hadded.added hresult
    have hplaced : Placed (ac.nextAddr + 1) nodes' := Placed.inserted h.current
      (show Instance.Tidy { inst with iid := iid } from ⟨hinst.sorted, hinst.absent⟩) hins
    refine ⟨hplaced, h.saved.mono (Nat.le_succ _), fun a ha => ?_, h.closed⟩
    obtain ⟨n, hn, haddr⟩ := h.cached a ha
    exact ⟨n, hins.mem.mpr (Or.inr hn), haddr⟩
  · obtain rfl := hadded.failed hresult
    exact ⟨h.current.mono (Nat.le_succ _), h.saved.mono (Nat.le_succ _), h.cached, h.closed⟩

theorem instanceCreate_sound {ac : AccessControl} (h : Sound ac) (mem : Nat) (iid : Id) :
    ∃ r, instanceCreate mem iid ac = some r ∧ Sound r.2 := by
  unfold instanceCreate
  split
  · exact ⟨_, rfl, h⟩
  · have htidy : (Instance.created iid).Tidy := ⟨List.Pairwise.nil, fun _ => rfl⟩
    obtain ⟨r, hr, hsound⟩ := h.addNew 0 htidy
    rw [hr]
    exact ⟨_, rfl, hsound.changed⟩

/-- What is left without an Instance: all the others. -/
theorem removeNode_spec {iid : Id} : ∀ {nodes nodes' : List Node}, Sorted (fun n => n.inst.iid) nodes →
    removeNode iid nodes = some nodes' → nodes'.Sublist nodes ∧ ∀ n ∈ nodes, n.inst.iid ≠ iid → n ∈ nodes'
  | [], _, _, h => by cases h
  | n :: nodes, nodes', hs, h => by
      unfold removeNode at h
      split at h
      next heq =>
        cases h
        refine ⟨List.sublist_cons_self _ _, fun m hm hne => ?_⟩
        rcases List.mem_cons.mp hm with rfl | hm
        · exact absurd heq hne
        · exact hm
      split at h
      · cases h
      · obtain ⟨rest, hrest, rfl⟩ := Option.map_eq_some_iff.mp h
        obtain ⟨hsub, hmem⟩ := removeNode_spec (List.pairwise_cons.mp hs).2 hrest
        refine ⟨hsub.cons_cons n, fun m hm hne => ?_⟩
        rcases List.mem_cons.mp hm with rfl | hm
        · exact List.mem_cons_self
        · exact List.mem_cons_of_mem _ (hmem m hm hne)

/-- **The pointer that is cached does not survive the Instance.** -/
theorem instanceRemove_sound {ac : AccessControl} (h : Sound ac) (iid : Id) :
    ∃ r, instanceRemove iid ac = some r ∧ Sound r.2 := by
  unfold instanceRemove
  split
  · exact ⟨_, rfl, h⟩
  next nodes hnodes =>
  obtain ⟨hsub, hmem⟩ := removeNode_spec h.current.tidy.sorted hnodes
  have hplaced := h.current.sublist hsub
  split
  next hlast =>
    refine ⟨_, rfl, hplaced, h.saved, fun a ha => ?_, h.closed⟩
    have hcached : ac.lastAccessedInstance = some a := ha
    rw [hlast] at hcached
    cases hcached
  next addr hlast =>
  split
  next hf =>
    obtain ⟨n, hn, haddr⟩ := h.cached addr hlast
    exact absurd (decide_eq_true haddr) (List.find?_eq_none.mp hf n hn)
  next n hf =>
  have haddr : n.addr = addr := of_decide_eq_true (List.find?_some hf :)
  refine ⟨_, rfl, hplaced, h.saved, fun a ha => ?_, h.closed⟩
  have hcached : (if n.inst.iid = iid then none else some addr) = some a := ha
  split at hcached
  · cases hcached
  next hne => exact ⟨n, hmem n (List.mem_of_find?_eq_some hf) hne, haddr.trans (Option.some.inj hcached)⟩

theorem instanceReset_sound {ac : AccessControl} (h : Sound ac) (iid : Id) :
    ∃ r, instanceReset iid ac = some r ∧ Sound r.2 := by
  refine withInstance_sound h iid _ fun n ac' hac' _ => Sound.changed (hac'.modifyAt n.addr ?_ ?_)
  · exact fun _ => rfl
  · exact fun _ _ _ => ⟨List.Pairwise.nil, fun _ => rfl⟩

theorem resourceReset_sound {ac : AccessControl} (h : Sound ac) (iid : Id) :
    ∃ r, resourceReset iid ac = some r ∧ Sound r.2 := by
  refine withInstance_sound h iid _ fun n ac' hac' _ => Sound.changed (hac'.modifyAt n.addr ?_ ?_)
  · exact fun _ => rfl
  · exact fun _ _ _ => ⟨List.Pairwise.nil, nofun⟩

/-- A number is written to a field that has nothing to do with the order. -/
theorem writeNumber_sound {ac : AccessControl} (h : Sound ac) (n : Node) (input : Except Int Int)
    (valid : Int → Bool) {set : Id → Instance → Instance} (hiid : ∀ v inst, (set v inst).iid = inst.iid)
    (htidy : ∀ v inst, Instance.Tidy inst → (set v inst).Tidy) : Sound (writeNumber input valid set n ac).2 := by
  unfold writeNumber
  split
  · exact h
  · split
    · exact (h.modifyAt _ (hiid _) fun m hm _ => htidy _ _ (h.current.tidy.tidy m hm)).changed
    · exact h

theorem resourceWrite_sound {ac : AccessControl} (h : Sound ac) (mem : Bool) (iid rid riid : Id)
    (input : Except Int Int) : ∃ r, resourceWrite mem iid rid riid input ac = some r ∧ Sound r.2 := by
  refine withInstance_sound h iid _ fun n ac' hac' hn => ?_
  split
  · exact writeNumber_sound hac' n input _ (fun _ _ => rfl) fun _ _ ht => ⟨ht.sorted, ht.absent⟩
  split
  · exact writeNumber_sound hac' n input _ (fun _ _ => rfl) fun _ _ ht => ⟨ht.sorted, ht.absent⟩
  split
  · dsimp only
    split
    · have hacl := writeToAclArray_sorted (hac'.current.tidy.tidy n hn).sorted mem riid input
      refine Sound.changed (hac'.modifyAt n.addr ?_ ?_)
      · exact fun _ => rfl
      · exact fun _ _ _ => ⟨hacl, nofun⟩
    · exact hac'
  split
  · exact writeNumber_sound hac' n input _ (fun _ _ => rfl) fun _ _ ht => ⟨ht.sorted, ht.absent⟩
  · exact hac'

theorem createMissingAcInstance_tidy {mem left : Nat} {owner : Id} {target : AclTarget} {inst : Instance}
    (h : createMissingAcInstance mem owner target = some (inst, left)) : inst.Tidy := by
  unfold createMissingAcInstance at h
  split at h
  · cases h
  split at h
  · split at h
    · cases h
    · cases h
      exact ⟨List.pairwise_singleton _ _, nofun⟩
  · cases h
    exact ⟨List.Pairwise.nil, nofun⟩

theorem accessControlSetAcl_sound {ac : AccessControl} (h : Sound ac) (dm : DataModel σ) (mem : Nat)
    (notified queued : Int) (oid iid ssid : Id) (mask : Mask) :
    ∃ r, accessControlSetAcl dm mem notified queued oid iid ssid mask ac = some r ∧ Sound r.2 := by
  unfold accessControlSetAcl
  iterate 4
    split
    · exact ⟨_, rfl, h⟩
  unfold setAcl
  split
  next n hfind =>
    have hn : n ∈ ac.current.instances := List.mem_of_find?_eq_some hfind
    obtain ⟨htidy, hiid⟩ := setAclInInstance_tidy dm (h.current.tidy.tidy n hn) mem ssid mask
    dsimp only
    split
    · refine ⟨_, rfl, Sound.markModified ?_⟩
      -- the element at the address is the one that was found
      have hplaced : ac.modifyAt n.addr (fun _ => (setAclInInstance dm mem ssid mask n.inst).2) =
          ac.modifyAt n.addr fun inst => { (setAclInInstance dm mem ssid mask n.inst).2 with iid := inst.iid } := by
        refine congrArg ac.setInstances (List.map_congr_left fun m hm => ?_)
        split
        next haddr =>
          have hsame : m = n := List.inj_on_of_nodup_map h.current.distinct hm hn haddr
          rw [hsame]
          show Node.mk n.addr _ = Node.mk n.addr { (setAclInInstance dm mem ssid mask n.inst).2 with iid := n.inst.iid }
          rw [← hiid]
        · rfl
      rw [hplaced]
      exact h.modifyAt _ (fun _ => rfl) fun _ _ _ => ⟨htidy.sorted, htidy.absent⟩
    · exact ⟨_, rfl, h⟩
  · split
    · split
      · exact ⟨_, rfl, h⟩
      next inst left hcreate =>
      have hinst := (setAclInInstance_tidy dm (createMissingAcInstance_tidy hcreate) left ssid mask).1
      dsimp only
      split
      · exact ⟨_, rfl, h⟩
      split
      · exact ⟨_, rfl, h⟩
      · obtain ⟨r, hr, hsound⟩ := h.addNew queued hinst
        rw [hr]
        refine ⟨_, rfl, ?_⟩
        dsimp only
        split
        · exact hsound.markModified
        · exact hsound
    · exact ⟨_, rfl, h⟩

/-- The copies are the Instances, at the addresses from `addr` on. -/
theorem cloneInstances_eq_some : ∀ {mem addr addr' : Nat} {nodes nodes' : List Node},
    cloneInstances mem addr nodes = some (nodes', addr') →
      nodes' = place addr (nodes.map Node.inst) ∧ addr' = addr + (nodes.map Node.inst).length
  | _, _, _, [], _, h => by
      cases h
      exact ⟨rfl, rfl⟩
  | mem, addr, addr', n :: nodes, nodes', h => by
      unfold cloneInstances at h
      split at h
      · cases h
      · obtain ⟨r, hr, heq⟩ := Option.map_eq_some_iff.mp h
        cases heq
        obtain ⟨hnodes, haddr⟩ := cloneInstances_eq_some hr
        refine ⟨congrArg _ hnodes, haddr.trans ?_⟩
        rw [List.map_cons, List.length_cons]
        omega

theorem Placed.insts {next : Nat} {nodes : List Node} (h : Placed next nodes) :
    Sorted Instance.iid (nodes.map Node.inst) ∧ ∀ inst ∈ nodes.map Node.inst, inst.Tidy := by
  refine ⟨List.pairwise_map.mpr h.tidy.sorted, fun inst hinst => ?_⟩
  obtain ⟨n, hn, rfl⟩ := List.mem_map.mp hinst
  exact h.tidy.tidy n hn

theorem transactionBegin_sound {ac : AccessControl} (h : Sound ac) (hout : ac.inTransaction = false) (mem : Nat) :
    ∃ r, transactionBegin mem ac = some r ∧ Sound r.2 := by
  have hempty := h.closed hout
  unfold transactionBegin
  rw [if_neg (by rw [hout, hempty]; exact fun h => h.elim nofun fun h => h rfl)]
  split
  · exact ⟨_, rfl, h.current, .nil _, h.cached, fun _ => rfl⟩
  next nodes addr hclone =>
  obtain ⟨rfl, rfl⟩ := cloneInstances_eq_some hclone
  obtain ⟨hsorted, htidy⟩ := h.current.insts
  exact ⟨_, rfl, h.current.mono (Nat.le_add_right _ _), placed_place hsorted htidy ac.nextAddr, h.cached, nofun⟩

theorem transactionRollback_sound {ac : AccessControl} (h : Sound ac) (hin : ac.inTransaction = true) :
    ∃ r, transactionRollback ac = some r ∧ Sound r.2 := by
  unfold transactionRollback
  rw [if_pos hin]
  exact ⟨_, rfl, h.saved, .nil _, nofun, fun _ => rfl⟩

theorem transactionCommit_sound {ac : AccessControl} (h : Sound ac) (hin : ac.inTransaction = true) :
    ∃ r, transactionCommit ac = some r ∧ Sound r.2 := by
  unfold transactionCommit
  rw [if_pos hin]
  exact ⟨_, rfl, h.current, .nil _, h.cached, fun _ => rfl⟩

theorem transactionValidate_sound {ac : AccessControl} (h : Sound ac) (hin : ac.inTransaction = true)
    (dm : DataModel σ) (alloc : ValidateAlloc) : ∃ r, transactionValidate dm alloc ac = some r ∧ Sound r.2 := by
  unfold transactionValidate
  rw [if_pos hin]
  split
  · split
    · split
      · exact ⟨_, rfl, h⟩
      · split
        · exact ⟨_, rfl, h.current, h.saved, h.cached, h.closed⟩
        · exact ⟨_, rfl, h⟩
    · exact ⟨_, rfl, h⟩
  · exact ⟨_, rfl, h⟩

theorem accessControlPersist_sound {ac : AccessControl} (h : Sound ac) (failed : Option Errno) :
    Sound (accessControlPersist failed ac).2 := by
  unfold accessControlPersist
  split
  · exact h
  · exact h.clearModified
  · exact h
  · exact h

/-- The Instances of a stream that are put in come in order, and so do their ACLs. -/
def SortedStream (dm : DataModel σ) (stream : List UInt8) : Prop :=
  ∀ all, StreamHolds stream all →
    Sorted Instance.iid (all.filter fun inst => isObjectRegistered dm inst.target.oid) ∧
    ∀ inst ∈ all, isObjectRegistered dm inst.target.oid = true → Sorted AclEntry.ssid inst.acl

/-- What a restore brings is sorted, if it is not refused anyway. -/
def Event.RestoresSorted : Event σ → AccessControl → Prop
  | .restore dm stream, ac => ac.inTransaction = false → SortedStream dm stream
  | _, _ => True

theorem accessControlRestore_sound {ac : AccessControl} (h : Sound ac) {dm : DataModel σ} {stream : List UInt8}
    (hsorted : ac.inTransaction = false → SortedStream dm stream) : Sound (accessControlRestore dm stream ac).2 := by
  rcases accessControlRestore_cases dm stream ac with ⟨err, hr⟩ | ⟨hout, all, hall, hr⟩
  · rw [hr]
    exact h
  · obtain ⟨hs, hacl⟩ := hsorted hout all hall
    have htidy : ∀ inst ∈ all.filter fun inst => isObjectRegistered dm inst.target.oid, inst.Tidy := by
      intro inst hinst
      obtain ⟨hin, hreg⟩ := List.mem_filter.mp hinst
      exact ⟨hacl inst hin hreg, hall.absent inst hin⟩
    rw [hr]
    exact ⟨placed_place hs htidy _, h.saved.mono (Nat.le_add_right _ _), nofun, h.closed⟩

/-- **No assertion fails in a step, and the state stays sound**, if what is restored is sorted. -/
theorem perform_sound {ac : AccessControl} (h : Sound ac) {event : Event σ} (hen : event.Enabled ac)
    (hc : event.RestoresSorted ac) : ∃ ac', perform event ac = some ac' ∧ Sound ac' := by
  have hmap : ∀ {ρ : Type} {r : Option (ρ × AccessControl)}, (∃ x, r = some x ∧ Sound x.2) →
      ∃ ac', r.map Prod.snd = some ac' ∧ Sound ac' := by
    rintro ρ _ ⟨x, rfl, hx⟩
    exact ⟨x.2, rfl, hx⟩
  cases event with
  | create mem iid => exact hmap (instanceCreate_sound h mem iid)
  | remove iid => exact hmap (instanceRemove_sound h iid)
  | reset iid => exact hmap (instanceReset_sound h iid)
  | read iid =>
      obtain ⟨found, hfind, hspec⟩ := findInstance_spec h iid
      exact hmap ⟨_, hfind, h.cache fun n hn => ((hspec n).mp hn).1⟩
  | write mem iid rid riid input => exact hmap (resourceWrite_sound h mem iid rid riid input)
  | resourceReset iid => exact hmap (resourceReset_sound h iid)
  | setAcl dm mem notified queued oid iid ssid mask =>
      exact hmap (accessControlSetAcl_sound h dm mem notified queued oid iid ssid mask)
  | purge => exact ⟨_, rfl, .nil _, h.saved, nofun, h.closed⟩
  | begin mem => exact hmap (transactionBegin_sound h hen mem)
  | validate dm alloc => exact hmap (transactionValidate_sound h hen dm alloc)
  | commit => exact hmap (transactionCommit_sound h hen)
  | rollback => exact hmap (transactionRollback_sound h hen)
  | persist failed => exact ⟨_, rfl, accessControlPersist_sound h failed⟩
  | restore dm stream => exact ⟨_, rfl, accessControlRestore_sound h hc⟩

theorem reachable_invariant {C : Event σ → AccessControl → Prop} (hC : ∀ event ac, C event ac → event.RestoresSorted ac)
    {s : RunState} (h : ReachableWith C s) : Sound s.ac := by
  induction h with
  | init => exact sound_installed
  | step event _ hen hc hstep ih =>
      obtain ⟨ac', hperform, hsound⟩ := perform_sound ih hen (hC event _ hc)
      rw [hstep] at hperform
      cases hperform
      exact hsound

/-- **In every state that is reached where what is restored is sorted**, the Instances ascend in their ids
    and their ACLs in the SSIDs, an Instance without the ACL Resource has no entries, and the cached pointer
    is null or points to an Instance; so `find_instance` finds exactly what is there, an Instance without an
    id gets the least that is free, and no assertion fails. -/
theorem reachable_sound {s : RunState} (h : ReachableWith (σ := σ) Event.RestoresSorted s) :
    (Sorted Instance.iid s.ac.insts ∧ (∀ inst ∈ s.ac.insts, Sorted AclEntry.ssid inst.acl) ∧
      (∀ inst ∈ s.ac.insts, inst.hasAcl = false → inst.acl = []) ∧
      ∀ addr, s.ac.lastAccessedInstance = some addr → ∃ n ∈ s.ac.current.instances, n.addr = addr) ∧
    (∀ iid, ∃ found ac', findInstance iid s.ac = some (found, ac') ∧
      ∀ n, found = some n ↔ n ∈ s.ac.current.instances ∧ n.inst.iid = iid) ∧
    (∀ queued node, ∃ result nodes', addInstance queued node s.ac.current.instances = some (result, nodes') ∧
      Added node.inst node.addr s.ac.current.instances result nodes') ∧
    ∀ event : Event σ, event.Enabled s.ac → event.RestoresSorted s.ac → perform event s.ac ≠ none := by
  have hsound := reachable_invariant (fun _ _ hc => hc) h
  obtain ⟨hsorted, htidy⟩ := hsound.current.insts
  refine ⟨⟨hsorted, fun inst hi => (htidy inst hi).sorted, fun inst hi => (htidy inst hi).absent, hsound.cached⟩,
    fun iid => ?_, fun queued node => addInstance_spec queued node hsound.current.tidy.sorted, fun event hen hc => ?_⟩
  · obtain ⟨found, hfind, hspec⟩ := findInstance_spec hsound iid
    exact ⟨found, _, hfind, hspec⟩
  · obtain ⟨ac', hperform, -⟩ := perform_sound hsound hen hc
    rw [hperform]
    exact nofun

/-- The Instances 0 and 1, of the Instances 0 and 1 of Object 3. -/
def sortedStream : List UInt8 :=
  [65, 67, 79, 1, 0, 0, 0, 2, 0, 3, 0, 0, 0, 0, 255, 255, 0, 0, 3, 0, 1, 0, 1, 255, 255, 0]

theorem sortedStream_sorted : SortedStream (.single 3 [0, 1]) sortedStream := by
  have hholds : readInstances (fun _ => true) sortedStream =
      .ok [⟨0, ⟨3, some 0⟩, 65535, false, []⟩, ⟨1, ⟨3, some 1⟩, 65535, false, []⟩] := by decide +kernel
  intro all hall
  obtain rfl := Except.ok.inj (hall.symm.trans hholds)
  unfold Sorted
  exact ⟨by decide, by decide⟩

/-- Two Instances are restored, and a third one is created. -/
theorem reachable_sound_restored : ∃ s : RunState, ReachableWith (σ := Unit) Event.RestoresSorted s ∧
    s.ac.insts = [⟨0, ⟨3, some 0⟩, 65535, false, []⟩, ⟨1, ⟨3, some 1⟩, 65535, false, []⟩, .created 5] ∧
    Sorted Instance.iid s.ac.insts := by
  have hrestore : perform (.restore (.single 3 [0, 1]) sortedStream) RunState.init.ac = some
      (AccessControl.installed.restored
        [⟨0, ⟨3, some 0⟩, 65535, false, []⟩, ⟨1, ⟨3, some 1⟩, 65535, false, []⟩]) := by
    decide +kernel
  have hrestored : ReachableWith (σ := Unit) Event.RestoresSorted _ :=
    .step (.restore (.single 3 [0, 1]) sortedStream) .init trivial (fun _ => sortedStream_sorted) hrestore
  have hs := hrestored.step (.create 1 5) trivial trivial rfl
  exact ⟨_, hs, rfl, (reachable_sound hs).1.1⟩

/-- Two Instances that are both number 0. -/
def duplicateStream : List UInt8 :=
  [65, 67, 79, 1, 0, 0, 0, 2, 0, 3, 0, 0, 0, 0, 255, 255, 0, 0, 3, 0, 0, 0, 1, 255, 255, 0]

/-- **A stream that is not sorted is restored all the same**, and then an API call fails an assertion. -/
theorem sound_not_always : ∃ s : RunState, ReachableWith (σ := Unit) (fun _ _ => True) s ∧
    s.ac.insts = [⟨0, ⟨3, some 0⟩, 65535, false, []⟩, ⟨0, ⟨3, some 1⟩, 65535, false, []⟩] ∧
    ¬ Sorted Instance.iid s.ac.insts ∧
    perform (.setAcl (.single 3 [0, 1]) 2 0 0 3 65535 0 16) s.ac = none := by
  have hrestore : perform (.restore (.single 3 [0, 1]) duplicateStream) RunState.init.ac = some
      (AccessControl.installed.restored
        [⟨0, ⟨3, some 0⟩, 65535, false, []⟩, ⟨0, ⟨3, some 1⟩, 65535, false, []⟩]) := by
    decide +kernel
  refine ⟨_, .step (.restore (.single 3 [0, 1]) duplicateStream) .init trivial trivial hrestore, rfl, ?_, ?_⟩
  · intro hsorted
    exact absurd ((List.pairwise_cons.mp hsorted).1 _ List.mem_cons_self) (by decide)
  · decide +kernel

/-! ## 5. More Instances than are restored -/

section Full

/-- Instances with the ids from 1 on, whose targets are the Instances of Object 3. -/
def numbered (count : Nat) : List Instance :=
  (List.range count).map fun n => ⟨Fin.ofNat 65536 (n + 1), ⟨3, some (Fin.ofNat 65536 n)⟩, 65535, false, []⟩

theorem numbered_storable (count : Nat) : ∀ inst ∈ numbered count, inst.Storable ∧ inst.target.oid = 3 := by
  intro inst hinst
  obtain ⟨n, -, rfl⟩ := List.mem_map.mp hinst
  exact ⟨⟨nofun, fun _ => rfl, Nat.two_pow_pos 32⟩, rfl⟩

/-- The Instance of Object 3 itself, with an ACL for all Servers. -/
def objectInstance : Instance := ⟨0, ⟨3, some idInvalid⟩, ssidBootstrap, true, [⟨16, ssidAny⟩]⟩

/-- `anjay_access_control_set_acl` puts it in front of the Instances from 1 on. -/
theorem setAcl_numbered {count : Nat} (h : count < 65535) : ∃ ac', perform (σ := Unit)
    (.setAcl (.single 3 [0]) 2 0 0 3 idInvalid ssidAny 16) (AccessControl.installed.restored (numbered (count + 1))) =
      some ac' ∧ ac'.inTransaction = false ∧ ac'.insts = objectInstance :: numbered (count + 1) := by
  have hnone : findAcInstance 3 idInvalid (place 0 (numbered (count + 1))) = none := by
    refine List.find?_eq_none.mpr fun n hn => ?_
    obtain ⟨k, hk, hinst⟩ := List.mem_map.mp (mem_place hn).2.2
    have hlt : k < 65535 := Nat.lt_of_lt_of_le (List.mem_range.mp hk) h
    have hval : (Fin.ofNat 65536 k).val = k := Nat.mod_eq_of_lt (Nat.lt_succ_of_lt hlt)
    have hne : ¬(some (Fin.ofNat 65536 k) = some idInvalid) := by
      intro heq
      have hk' := congrArg Fin.val (Option.some.inj heq)
      rw [hval] at hk'
      exact absurd hk' hlt.ne
    rw [← hinst, Bool.and_eq_true, decide_eq_true_iff, decide_eq_true_iff]
    exact fun hand => hne hand.2
  -- the first Instance has the id 1, so that 0 is free
  obtain ⟨rest, hrest⟩ : ∃ rest, numbered (count + 1) = ⟨1, ⟨3, some 0⟩, 65535, false, []⟩ :: rest := by
    unfold numbered
    rw [List.range_succ_eq_map]
    exact ⟨_, rfl⟩
  have hset : perform (σ := Unit) (.setAcl (.single 3 [0]) 2 0 0 3 idInvalid ssidAny 16)
      (AccessControl.installed.restored (numbered (count + 1))) =
        (setAcl (.single 3 [0]) 2 0 0 3 idInvalid ssidAny 16
          (AccessControl.installed.restored (numbered (count + 1)))).map Prod.snd := rfl
  have hnone' : findAcInstance 3 idInvalid
      (AccessControl.installed.restored (numbered (count + 1))).current.instances = none := hnone
  rw [hset, setAcl, hnone', hrest]
  refine ⟨_, rfl, rfl, ?_⟩
  exact congrArg (objectInstance :: _ :: ·) (map_inst_place 1 rest)

/-- What was made of a list can be restored if it is not too long. -/
theorem restored_reachable {insts : List Instance} (hstorable : ∀ inst ∈ insts, inst.Storable ∧ inst.target.oid = 3)
    (hlength : insts.length ≤ 65535) : ∃ s : RunState, ReachableWith (σ := Unit) (fun _ _ => True) s ∧
      s.ac = AccessControl.installed.restored insts := by
  obtain ⟨bytes, -, hread⟩ := accessControlPersist_transfers (isObjectRegistered (.single 3 [0])) (.holding insts)
    (by rw [toPersist_holding]; exact fun inst hinst => (hstorable inst hinst).1)
    (by rw [toPersist_holding]; exact Nat.lt_of_le_of_lt hlength (by decide))
  have hbytes := hread []
  rw [List.append_nil, toPersist_holding, if_neg (Nat.not_lt.mpr hlength), List.filter_eq_self.mpr] at hbytes
  · have hrestore : perform (.restore (.single 3 [0]) bytes) RunState.init.ac =
        some (AccessControl.installed.restored insts) := by
      show some (accessControlRestore (.single 3 [0]) bytes .installed).2 = _
      rw [accessControlRestore, if_neg (show ¬AccessControl.installed.inTransaction = true from Bool.false_ne_true), hbytes]
    exact ⟨_, .step (.restore (.single 3 [0]) bytes) .init trivial trivial hrestore, rfl⟩
  · intro inst hinst
    rw [(hstorable inst hinst).2]
    rfl

/-- **Not every list comes back**: 65536 Instances can be had, with registered targets, and are stored, but not
    restored. -/
theorem restore_persist_not_always : ∃ s : RunState, ReachableWith (σ := Unit) (fun _ _ => True) s ∧
    s.ac.inTransaction = false ∧ s.ac.insts.length = 65536 ∧
    (∀ inst ∈ s.ac.insts, inst.Storable ∧ isObjectRegistered (.single 3 [0]) inst.target.oid = true) ∧
    ∃ bytes, (accessControlPersist none s.ac).1 = .ok bytes ∧
      (accessControlRestore (.single 3 [0]) bytes s.ac).1 = .error (.errno .EBADMSG) := by
  have hcount : (numbered (65534 + 1)).length = 65535 := by
    unfold numbered
    rw [List.length_map, List.length_range]
  obtain ⟨s, hs, hac⟩ := restored_reachable (numbered_storable (65534 + 1)) (le_of_eq hcount)
  obtain ⟨ac', hset, hclosed, hinsts⟩ := @setAcl_numbered 65534 (by decide)
  rw [← hac] at hset
  have hall : ∀ inst ∈ ac'.insts, inst.Storable ∧ inst.target.oid = 3 := by
    rw [hinsts]
    exact List.forall_mem_cons.mpr ⟨⟨⟨nofun, nofun, by decide⟩, rfl⟩, numbered_storable _⟩
  have hlength : ac'.insts.length = 65536 := by rw [hinsts, List.length_cons, hcount]
  have hpersisted : ac'.toPersist = ac'.insts := by
    unfold AccessControl.toPersist
    rw [hclosed]
    rfl
  obtain ⟨bytes, hpersist, hread⟩ := accessControlPersist_transfers (isObjectRegistered (.single 3 [0])) ac'
    (by rw [hpersisted]; exact fun inst hinst => (hall inst hinst).1) (by rw [hpersisted, hlength]; decide)
  have hbytes := hread []
  rw [List.append_nil, hpersisted, hlength, if_pos (by decide)] at hbytes
  refine ⟨_, hs.step (.setAcl (.single 3 [0]) 2 0 0 3 idInvalid ssidAny 16) trivial trivial hset, hclosed, hlength,
    fun inst hinst => ⟨(hall inst hinst).1, ?_⟩, bytes, by rw [hpersist], ?_⟩
  · rw [(hall inst hinst).2]
    rfl
  · show (accessControlRestore (.single 3 [0]) bytes ac').1 = _
    rw [accessControlRestore, hclosed, if_neg Bool.false_ne_true, hbytes]

end Full

/-! ## 6. The snapshot -/

/-- What may happen to the Object apart from its transaction, persist and restore functions: the snapshot is
    left alone, and changed Instances are marked as modified. -/
structure Touched (ac ac' : AccessControl) : Prop where
  saved : ac'.savedState = ac.savedState
  inTransaction : ac'.inTransaction = ac.inTransaction
  marked : ac'.current.modifiedSincePersist = true ∨ ac'.current.modifiedSincePersist = ac.current.modifiedSincePersist ∧
    ac'.insts = ac.insts

theorem Touched.refl (ac : AccessControl) : Touched ac ac := ⟨rfl, rfl, Or.inr ⟨rfl, rfl⟩⟩

theorem Touched.trans {ac ac' ac'' : AccessControl} (h : Touched ac ac') (h' : Touched ac' ac'') : Touched ac ac'' := by
  refine ⟨h'.saved.trans h.saved, h'.inTransaction.trans h.inTransaction, ?_⟩
  rcases h'.marked with hm | ⟨hm, hi⟩
  · exact Or.inl hm
  · rcases h.marked with hm' | ⟨hm', hi'⟩
    · exact Or.inl (hm.trans hm')
    · exact Or.inr ⟨hm.trans hm', hi.trans hi'⟩

theorem touched_changed (ac : AccessControl) (nodes : List Node) : Touched ac (ac.setInstances nodes).changed :=
  ⟨rfl, rfl, Or.inl rfl⟩

theorem touched_markModified (ac : AccessControl) (nodes : List Node) :
    Touched ac (ac.setInstances nodes).markModified := ⟨rfl, rfl, Or.inl rfl⟩

theorem findInstance_touched {iid : Id} {ac ac' : AccessControl} {found : Option Node}
    (h : findInstance iid ac = some (found, ac')) : Touched ac ac' := by
  have hcache : ∀ {cached : Option Nat} {r r' : Option Node}, some (r, { ac with lastAccessedInstance := cached }) =
      some (r', ac') → Touched ac ac' := by
    intro cached r r' heq
    cases heq
    exact ⟨rfl, rfl, Or.inr ⟨rfl, rfl⟩⟩
  unfold findInstance at h
  dsimp only at h
  split at h
  · exact hcache h
  split at h
  · cases h
  split at h
  · cases h
    exact .refl ac
  · exact hcache h

theorem withInstance_touched {ρ : Type} {iid : Id} {notFound : ρ} {ac : AccessControl}
    {f : Node → AccessControl → ρ × AccessControl} (hf : ∀ n ac', Touched ac' (f n ac').2) {r : ρ × AccessControl}
    (h : withInstance iid notFound ac f = some r) : Touched ac r.2 := by
  unfold withInstance at h
  split at h
  · cases h
  next ac' hfind =>
    cases h
    exact findInstance_touched hfind
  next n ac' hfind =>
    cases h
    exact (findInstance_touched hfind).trans (hf n ac')

theorem writeNumber_touched (input : Except Int Int) (valid : Int → Bool) (set : Id → Instance → Instance) (n : Node)
    (ac : AccessControl) : Touched ac (writeNumber input valid set n ac).2 := by
  unfold writeNumber
  split
  · exact .refl ac
  · split
    · exact touched_changed ac _
    · exact .refl ac

theorem resourceWrite_touched {mem : Bool} {iid rid riid : Id} {input : Except Int Int} {ac : AccessControl}
    {r : Int × AccessControl} (h : resourceWrite mem iid rid riid input ac = some r) : Touched ac r.2 := by
  refine withInstance_touched (fun n ac' => ?_) h
  split
  · exact writeNumber_touched _ _ _ _ _
  split
  · exact writeNumber_touched _ _ _ _ _
  split
  · dsimp only
    split
    · exact touched_changed ac' _
    · exact .refl ac'
  split
  · exact writeNumber_touched _ _ _ _ _
  · exact .refl ac'

theorem addInstance_failed {queued : Int} {node : Node} {nodes : List Node} {r : Int × List Node}
    (h : addInstance queued node nodes = some r) : r.1 ≠ 0 → r.2 = nodes := by
  have hwithout : ∀ {nodes : List Node} {proposed : Nat} {r : Int × List Node},
      insertWithoutIid queued node nodes proposed = some r → r.1 ≠ 0 → r.2 = nodes := by
    intro nodes
    induction nodes with
    | nil =>
        intro proposed r h hne
        unfold insertWithoutIid at h
        split at h
        · cases h; rfl
        split at h
        · cases h; rfl
        · cases h; exact absurd rfl hne
    | cons n nodes ih =>
        intro proposed r h hne
        unfold insertWithoutIid at h
        split at h
        · cases h; rfl
        split at h
        · split at h
          · cases h; rfl
          · cases h; exact absurd rfl hne
        split at h
        · obtain ⟨r', hr', rfl⟩ := Option.map_eq_some_iff.mp h
          exact congrArg (n :: ·) (ih hr' hne)
        · cases h
  have hwith : ∀ nodes : List Node, (insertWithIid queued node nodes).1 ≠ 0 → (insertWithIid queued node nodes).2 = nodes := by
    intro nodes
    induction nodes with
    | nil =>
        intro hne
        unfold insertWithIid at hne ⊢
        split
        next hq =>
          rw [if_pos hq] at hne
          exact absurd rfl hne
        · rfl
    | cons n nodes ih =>
        intro hne
        unfold insertWithIid at hne ⊢
        split
        · rfl
        next hiid =>
        rw [if_neg hiid] at hne
        split
        next hlt =>
          rw [if_pos hlt] at hne
          split
          next hq =>
            rw [if_pos hq] at hne
            exact absurd rfl hne
          · rfl
        next hlt =>
          rw [if_neg hlt] at hne
          exact congrArg (n :: ·) (ih hne)
  unfold addInstance at h
  split at h
  · exact hwithout h
  · cases h
    exact hwith nodes

theorem accessControlSetAcl_touched {dm : DataModel σ} {mem : Nat} {notified queued : Int} {oid iid ssid : Id}
    {mask : Mask} {ac : AccessControl} {r : Int × AccessControl}
    (h : accessControlSetAcl dm mem notified queued oid iid ssid mask ac = some r) : Touched ac r.2 := by
  unfold accessControlSetAcl at h
  iterate 4
    split at h
    · cases h
      exact .refl ac
  unfold setAcl at h
  split at h
  · dsimp only at h
    split at h
    · cases h
      exact touched_markModified ac _
    · cases h
      exact .refl ac
  · split at h
    · split at h
      · cases h
        exact .refl ac
      dsimp only at h
      split at h
      · cases h
        exact .refl ac
      split at h
      · cases h
        exact .refl ac
      · obtain ⟨r', hr', rfl⟩ := Option.map_eq_some_iff.mp h
        obtain ⟨added, hadded, rfl⟩ := Option.map_eq_some_iff.mp hr'
        dsimp only
        split
        · exact ⟨rfl, rfl, Or.inl rfl⟩
        next hne =>
          refine ⟨rfl, rfl, Or.inr ⟨rfl, ?_⟩⟩
          show added.2.map Node.inst = ac.current.instances.map Node.inst
          rw [addInstance_failed hadded hne]
    · cases h
      exact .refl ac

/-- The events apart from those of transactions, persisting and restoring. -/
def Event.Plain : Event σ → Prop
  | .begin _ | .commit | .rollback | .persist _ | .restore _ _ => False
  | _ => True

/-- **A plain event leaves the snapshot alone and marks what it changes.** -/
theorem perform_touched {event : Event σ} (hplain : event.Plain) {ac ac' : AccessControl}
    (h : perform event ac = some ac') : Touched ac ac' := by
  cases event with
  | create mem iid =>
      obtain ⟨r, hr, rfl⟩ := Option.map_eq_some_iff.mp h
      unfold instanceCreate at hr
      split at hr
      · cases hr
        exact .refl ac
      · obtain ⟨r', hr', rfl⟩ := Option.map_eq_some_iff.mp hr
        obtain ⟨added, -, rfl⟩ := Option.map_eq_some_iff.mp hr'
        exact ⟨rfl, rfl, Or.inl rfl⟩
  | remove iid =>
      obtain ⟨r, hr, rfl⟩ := Option.map_eq_some_iff.mp h
      unfold instanceRemove at hr
      split at hr
      · cases hr
        exact .refl ac
      split at hr
      · cases hr
        exact touched_markModified ac _
      split at hr
      · cases hr
      · cases hr
        exact ⟨rfl, rfl, Or.inl rfl⟩
  | reset iid =>
      obtain ⟨r, hr, rfl⟩ := Option.map_eq_some_iff.mp h
      exact withInstance_touched (fun n ac' => touched_changed ac' _) hr
  | read iid =>
      obtain ⟨⟨found, ac₁⟩, hr, rfl⟩ := Option.map_eq_some_iff.mp h
      exact findInstance_touched hr
  | write mem iid rid riid input =>
      obtain ⟨r, hr, rfl⟩ := Option.map_eq_some_iff.mp h
      exact resourceWrite_touched hr
  | resourceReset iid =>
      obtain ⟨r, hr, rfl⟩ := Option.map_eq_some_iff.mp h
      exact withInstance_touched (fun n ac' => touched_changed ac' _) hr
  | setAcl dm mem notified queued oid iid ssid mask =>
      obtain ⟨r, hr, rfl⟩ := Option.map_eq_some_iff.mp h
      exact accessControlSetAcl_touched hr
  | purge =>
      cases h
      exact ⟨rfl, rfl, Or.inl rfl⟩
  | validate dm alloc =>
      obtain ⟨r, hr, rfl⟩ := Option.map_eq_some_iff.mp h
      unfold transactionValidate at hr
      split at hr
      · split at hr
        · split at hr
          · split at hr
            · cases hr
              exact .refl ac
            · split at hr
              · cases hr
                exact ⟨rfl, rfl, Or.inr ⟨rfl, rfl⟩⟩
              · cases hr
                exact .refl ac
          · cases hr
            exact .refl ac
        · cases hr
          exact .refl ac
      · cases hr
  | begin => exact hplain.elim
  | commit => exact hplain.elim
  | rollback => exact hplain.elim
  | persist => exact hplain.elim
  | restore => exact hplain.elim

/-- The ways a begin can go, outside a transaction. -/
theorem transactionBegin_cases {mem : Nat} {ac ac' : AccessControl} (h : perform (σ := σ) (.begin mem) ac = some ac') :
    (ac'.inTransaction = ac.inTransaction ∧ ac'.current = ac.current) ∨
    ac'.inTransaction = true ∧ ac'.current = ac.current ∧ ac'.savedState.instances.map Node.inst = ac.insts ∧
      ac'.savedState.modifiedSincePersist = ac.current.modifiedSincePersist := by
  obtain ⟨r, hr, rfl⟩ := Option.map_eq_some_iff.mp h
  unfold transactionBegin at hr
  split at hr
  · cases hr
  split at hr
  · cases hr
    exact Or.inl ⟨rfl, rfl⟩
  next nodes addr hclone =>
    cases hr
    refine Or.inr ⟨rfl, rfl, ?_, rfl⟩
    show nodes.map Node.inst = _
    rw [(cloneInstances_eq_some hclone).1, map_inst_place]
    rfl

theorem transactionCommit_eq {ac ac' : AccessControl} (h : perform (σ := σ) .commit ac = some ac') :
    ac'.inTransaction = false ∧ ac'.current = ac.current := by
  obtain ⟨r, hr, rfl⟩ := Option.map_eq_some_iff.mp h
  unfold transactionCommit at hr
  split at hr
  · cases hr
    exact ⟨rfl, rfl⟩
  · cases hr

theorem transactionRollback_eq {ac ac' : AccessControl} (h : perform (σ := σ) .rollback ac = some ac') :
    ac.inTransaction = true ∧ ac'.inTransaction = false ∧ ac'.current = ac.savedState := by
  obtain ⟨r, hr, rfl⟩ := Option.map_eq_some_iff.mp h
  unfold transactionRollback at hr
  split at hr
  next hin =>
    cases hr
    exact ⟨hin, rfl, rfl⟩
  · cases hr

/-- The ways persisting can go. -/
theorem accessControlPersist_cases (failed : Option Errno) (ac : AccessControl) :
    (∃ err, accessControlPersist failed ac = (.error err, ac)) ∨
    ∃ bytes, accessControlPersist failed ac = (.ok bytes, ac.clearModified) := by
  unfold accessControlPersist
  split
  · exact Or.inl ⟨_, rfl⟩
  · exact Or.inr ⟨_, rfl⟩
  · exact Or.inl ⟨_, rfl⟩
  · exact Or.inl ⟨_, rfl⟩

/-- In a transaction, the snapshot holds the Instances of the begin. -/
def RunState.Begun (s : RunState) : Prop :=
  s.ac.inTransaction = true → s.ac.savedState.instances.map Node.inst = s.begun

theorem reachable_begun {C : Event σ → AccessControl → Prop} {s : RunState} (h : ReachableWith C s) : s.Begun := by
  induction h with
  | init => exact nofun
  | @step s ac' event _ hen hc hstep ih =>
      have hplain : event.Plain → begunAfter event s.ac s.begun = s.begun →
          RunState.Begun ⟨ac', begunAfter event s.ac s.begun, storedAfter event s.ac ac' s.stored⟩ := by
        intro hp hbegun hin
        have htouched := perform_touched hp hstep
        show ac'.savedState.instances.map Node.inst = begunAfter event s.ac s.begun
        rw [hbegun, htouched.saved]
        exact ih (htouched.inTransaction.symm.trans hin)
      cases event with
      | begin mem =>
          intro hin
          rcases transactionBegin_cases hstep with ⟨htrans, -⟩ | ⟨-, -, hsaved, -⟩
          · have hout : s.ac.inTransaction = false := hen
            rw [← htrans] at hout
            exact absurd hin (by show ¬ ac'.inTransaction = true; rw [hout]; exact nofun)
          · exact hsaved
      | commit =>
          intro hin
          exact absurd hin (by show ¬ ac'.inTransaction = true; rw [(transactionCommit_eq hstep).1]; exact nofun)
      | rollback =>
          intro hin
          exact absurd hin (by show ¬ ac'.inTransaction = true; rw [(transactionRollback_eq hstep).2.1]; exact nofun)
      | persist failed =>
          cases hstep
          intro hin
          show (accessControlPersist failed s.ac).2.savedState.instances.map Node.inst = s.begun
          rcases accessControlPersist_cases failed s.ac with ⟨err, heq⟩ | ⟨bytes, heq⟩
          · rw [heq] at hin ⊢
            exact ih hin
          · rw [heq] at hin ⊢
            exact ih hin
      | restore dm stream =>
          cases hstep
          intro hin
          show (accessControlRestore dm stream s.ac).2.savedState.instances.map Node.inst = s.begun
          rcases accessControlRestore_cases dm stream s.ac with ⟨err, heq⟩ | ⟨hout, all, -, heq⟩
          · rw [heq] at hin ⊢
            exact ih hin
          · rw [heq] at hin ⊢
            exact ih hin
      | create => exact hplain trivial rfl
      | remove => exact hplain trivial rfl
      | reset => exact hplain trivial rfl
      | read => exact hplain trivial rfl
      | write => exact hplain trivial rfl
      | resourceReset => exact hplain trivial rfl
      | setAcl => exact hplain trivial rfl
      | purge => exact hplain trivial rfl
      | validate => exact hplain trivial rfl

/-- Where the check is made, the tree of SSIDs is allocated and no Instance has the owner 0. -/
def Event.ChecksOwners : Event σ → AccessControl → Prop
  | .validate _ alloc, ac =>
      ac.needsValidation = true → alloc.tree = true ∧ ∀ n ∈ ac.current.instances, n.inst.owner ≠ 0
  | _, _ => True

/-- **In runs where no owner is 0 when the check is made**, and the tree of SSIDs is allocated, Instances
    that pass are valid; and in any such run a rollback brings the Instances of the begin back. -/
theorem reachable_validated {s : RunState} (h : ReachableWith (σ := σ) Event.ChecksOwners s) :
    (∀ (dm : DataModel σ) alloc ac', Event.ChecksOwners (.validate dm alloc) s.ac → s.ac.needsValidation = true →
      transactionValidate dm alloc s.ac = some (0, ac') → ac'.current = s.ac.current ∧ Valid dm s.ac.insts) ∧
    ∀ result ac', transactionRollback s.ac = some (result, ac') → result = 0 ∧ ac'.insts = s.begun := by
  constructor
  · intro dm alloc ac' hc hneeds hvalidate
    obtain ⟨htree, howner⟩ := hc hneeds
    exact transactionValidate_valid hvalidate hneeds htree howner
  · intro result ac' hrollback
    have hstep : perform (σ := σ) .rollback s.ac = some ac' := by
      show (transactionRollback s.ac).map Prod.snd = some ac'
      rw [hrollback]
      rfl
    obtain ⟨hin, -, hcurrent⟩ := transactionRollback_eq hstep
    refine ⟨?_, ?_⟩
    · unfold transactionRollback at hrollback
      rw [if_pos hin] at hrollback
      exact congrArg Prod.fst (Option.some.inj hrollback).symm
    · show ac'.current.instances.map Node.inst = s.begun
      rw [hcurrent]
      exact reachable_begun h hin

section Created

/-- The Object in a transaction that has created an Instance for Instance 0 of Object 3. -/
theorem reachable_created {C : Event Unit → AccessControl → Prop}
    (hC : ∀ event ac, (∀ dm alloc, event ≠ .validate dm alloc) → C event ac) : ∃ s : RunState, ReachableWith C s ∧
      s.ac = ⟨⟨[⟨0, ⟨0, ⟨3, some 0⟩, 65535, false, []⟩⟩], true⟩, .empty, true, some 0, true, 1⟩ ∧ s.begun = [] :=
  have hbegin := ReachableWith.step (.begin 0) .init rfl (hC _ _ nofun) rfl
  have hcreate := hbegin.step (.create 1 0) trivial (hC _ _ nofun) rfl
  have hoid := hcreate.step (.write true 0 ridOid idInvalid (.ok 3)) trivial (hC _ _ nofun) rfl
  ⟨_, hoid.step (.write true 0 ridOiid idInvalid (.ok 0)) trivial (hC _ _ nofun) rfl, rfl, rfl⟩

theorem checksOwners_of_ne (event : Event Unit) (ac : AccessControl)
    (h : ∀ dm alloc, event ≠ .validate dm alloc) : event.ChecksOwners ac := by
  cases event with
  | validate dm alloc => exact absurd rfl (h dm alloc)
  | _ => trivial

theorem reachable_validated_created : ∃ (s : RunState) (ac' : AccessControl),
    ReachableWith (σ := Unit) Event.ChecksOwners s ∧
    transactionValidate (.single 3 [0]) ⟨true, fun _ => true, fun _ => true⟩ s.ac = some (0, ac') ∧
    Valid (.single 3 [0]) s.ac.insts ∧ ∃ ac'', transactionRollback s.ac = some (0, ac'') ∧ ac''.insts = [] := by
  obtain ⟨s, hs, hac, hbegun⟩ := reachable_created checksOwners_of_ne
  obtain ⟨hvalid, hrollback⟩ := reachable_validated hs
  obtain ⟨ac', hvalidate⟩ : ∃ ac', transactionValidate (.single 3 [0]) ⟨true, fun _ => true, fun _ => true⟩ s.ac =
      some (0, ac') := by
    rw [hac]
    exact ⟨_, rfl⟩
  obtain ⟨ac'', hback⟩ : ∃ ac'', transactionRollback s.ac = some (0, ac'') := by
    rw [hac]
    exact ⟨_, rfl⟩
  refine ⟨s, ac', hs, hvalidate, (hvalid _ _ _ (fun _ => ⟨rfl, ?_⟩) ?_ hvalidate).2, ac'', hback,
    (hrollback _ _ hback).2.trans hbegun⟩
  · rw [hac]
    decide
  · rw [hac]

/-- **What passes need not be valid**: after a reset the owner is 0, which no Server need have; and where the
    tree of SSIDs cannot be allocated, nothing is looked at. -/
theorem validated_not_always :
    (∃ (s : RunState) (ac' : AccessControl), ReachableWith (σ := Unit) (fun _ _ => True) s ∧
      s.ac.needsValidation = true ∧
      transactionValidate (.single 3 [0]) ⟨true, fun _ => true, fun _ => true⟩ s.ac = some (0, ac') ∧
      ¬ Valid (.single 3 [0]) s.ac.insts) ∧
    ∃ (s : RunState) (ac' : AccessControl), ReachableWith (σ := Unit) (fun _ _ => True) s ∧
      s.ac.needsValidation = true ∧
      transactionValidate (.single 3 []) ⟨false, fun _ => true, fun _ => true⟩ s.ac = some (0, ac') ∧
      ¬ Valid (.single 3 []) s.ac.insts := by
  obtain ⟨s, hs, hac, -⟩ := reachable_created fun (_ : Event Unit) _ _ => trivial
  constructor
  · have hreset : perform (σ := Unit) (.reset 0) s.ac = some
        ⟨⟨[⟨0, ⟨0, ⟨3, some 0⟩, 0, false, []⟩⟩], true⟩, .empty, true, some 0, true, 1⟩ := by
      rw [hac]
      rfl
    refine ⟨_, _, hs.step (.reset 0) trivial trivial hreset, rfl, rfl, fun hvalid => ?_⟩
    rcases hvalid.owner _ List.mem_cons_self with h | ⟨obj, _, hobj, -⟩
    · exact absurd h (by decide)
    · have hnone : (DataModel.single 3 [0]).findObject oidServer = none := rfl
      rw [hnone] at hobj
      cases hobj
  · refine ⟨s, s.ac, hs, by rw [hac], by rw [hac]; rfl, fun hvalid => ?_⟩
    rw [hac] at hvalid
    obtain ⟨-, -, obj, iid, hobj, hiid, hin⟩ := hvalid.target _ List.mem_cons_self
    cases hobj
    cases hiid
    rcases hin with hin | hin
    · exact absurd hin (by decide)
    · exact absurd hin List.not_mem_nil

end Created

end Anjay.Ac
