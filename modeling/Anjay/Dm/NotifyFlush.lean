/-
  File:      Anjay/Dm/NotifyFlush.lean
  Subject:   The scheduled queue of changes (`anjay_notify.c`): reporting a change, the job that flushes
             the queue, and the consumers that may report changes while it does.

  * `forEachFrom_fuel`: the walks over the queue end, however the consumers extend it.
  * `notifyClb_kept`: what a flush keeps when nothing is reported while it runs.
  * `reachable_kept`: in runs with such flushes no change is lost.
-/
import Anjay.Dm.Notify

namespace Anjay.Dm

open Lib

/-! ## 1. Changes -/

/-- A change as it is reported: of a Resource, of the set of Instances, or of a created Instance. -/
inductive Change
  | resource (oid iid rid : Id)
  | instances (oid : Id)
  | instanceCreated (oid iid : Id)
  deriving DecidableEq, Repr

def Change.oid : Change → Id
  | resource oid _ _ | instances oid | instanceCreated oid _ => oid

/-- `add_entry_to_iid_set`. -/
def addEntryToIidSet (iid : Id) : List Id → List Id
  | [] => [iid]
  | a :: iids => if a = iid then a :: iids else if iid < a then iid :: a :: iids else a :: addEntryToIidSet iid iids

theorem mem_addEntryToIidSet {iid x : Id} : ∀ {iids : List Id},
    x ∈ addEntryToIidSet iid iids ↔ x = iid ∨ x ∈ iids
  | [] => by simp [addEntryToIidSet]
  | a :: iids => by
      rw [addEntryToIidSet]
      split
      · next h =>
        subst h
        simp
      split
      · simp
      · rw [List.mem_cons, mem_addEntryToIidSet, List.mem_cons]
        exact or_left_comm

/-- What a change does to the entry of its Object. -/
def Change.update : Change → NotifyObject → NotifyObject
  | resource _ iid rid, e => e.addResource ⟨iid, rid⟩
  | instances _, e => { e with instanceSetChanged := true }
  | instanceCreated _ iid, e =>
      { e with knownAddedIids := addEntryToIidSet iid e.knownAddedIids, instanceSetChanged := true }

theorem Change.oid_update (c : Change) (e : NotifyObject) : (c.update e).oid = e.oid := by
  cases c <;> rfl

/-- `_anjay_notify_queue_resource_change`, `_anjay_notify_queue_instance_set_unknown_change` and
    `_anjay_notify_queue_instance_created`, when memory is allocated. -/
def queueChange (q : NotifyQueue) (c : Change) : NotifyQueue :=
  { entries := upsert compareObjectEntries (.fresh c.oid) c.update q.entries
    sorted := upsert_sorted reflects_objectEntries (fun e => congrArg Fin.val (c.oid_update e)) q.sorted }

/-- On Resources it is the function that a Write queues its changes with. -/
theorem queueChange_resource (q : NotifyQueue) (oid iid rid : Id) :
    queueChange q (.resource oid iid rid) = queueResourceChange q oid iid rid := rfl

/-- The entry of an Object tells the change. -/
def Change.holds : Change → NotifyObject → Bool
  | resource _ iid rid, e => e.resourcesChanged.contains ⟨iid, rid⟩
  | instances _, e => e.instanceSetChanged
  | instanceCreated _ iid, e => e.instanceSetChanged && e.knownAddedIids.contains iid

/-- The queue tells the change. -/
def NotifyQueue.holds (q : NotifyQueue) (c : Change) : Bool :=
  q.entries.any fun e => decide (e.oid = c.oid) && c.holds e

theorem Change.holds_update (c : Change) (e : NotifyObject) : c.holds (c.update e) = true := by
  cases c with
  | resource oid iid rid =>
      exact List.contains_iff_mem.mpr ((mem_addResource _ _ _).mpr (Or.inr rfl))
  | instances oid => rfl
  | instanceCreated oid iid =>
      exact List.contains_iff_mem.mpr (mem_addEntryToIidSet.mpr (Or.inl rfl))

theorem Change.holds_update_of_holds {c : Change} {e : NotifyObject} (h : c.holds e = true) (d : Change) :
    c.holds (d.update e) = true := by
  cases c with
  | resource oid iid rid =>
      have hmem := List.contains_iff_mem.mp h
      cases d with
      | resource => exact List.contains_iff_mem.mpr ((mem_addResource _ _ _).mpr (Or.inl hmem))
      | instances | instanceCreated => exact h
  | instances oid =>
      cases d with
      | resource => exact h
      | instances | instanceCreated => rfl
  | instanceCreated oid iid =>
      obtain ⟨hset, hmem⟩ := Bool.and_eq_true_iff.mp h
      have hmem' := List.contains_iff_mem.mp hmem
      cases d with
      | resource => exact h
      | instances => exact hmem
      | instanceCreated _ iid' =>
          exact List.contains_iff_mem.mpr (mem_addEntryToIidSet.mpr (Or.inr hmem'))

theorem NotifyQueue.holds_iff {q : NotifyQueue} {c : Change} :
    q.holds c = true ↔ ∃ e ∈ q.entries, e.oid = c.oid ∧ c.holds e = true := by
  simp [holds, List.any_eq_true]

/-- **A queued change is told by the queue, and so is all that was.** -/
theorem holds_queueChange (q : NotifyQueue) (c d : Change) (h : q.holds c = true ∨ c = d) :
    (queueChange q d).holds c = true := by
  have hmem : ∀ {e : NotifyObject}, e ∈ (queueChange q d).entries ↔
      (e ∈ q.entries ∧ e.oid.val ≠ (NotifyObject.fresh d.oid).oid.val) ∨
      e = d.update ((q.entries.find? fun a =>
        decide (a.oid.val = (NotifyObject.fresh d.oid).oid.val)).getD (.fresh d.oid)) :=
    fun {e} => mem_upsert reflects_objectEntries q.sorted
  obtain ⟨old, hold⟩ : ∃ old, old = (q.entries.find? fun a =>
    decide (a.oid.val = (NotifyObject.fresh d.oid).oid.val)).getD (.fresh d.oid) := ⟨_, rfl⟩
  have holdoid : old.oid = d.oid := by
    rw [hold]
    cases hf : q.entries.find? fun a => decide (a.oid.val = (NotifyObject.fresh d.oid).oid.val) with
    | none => rfl
    | some a => exact Fin.ext (of_decide_eq_true (List.find?_some hf :))
  rw [← hold] at hmem
  rw [NotifyQueue.holds_iff] at h ⊢
  rcases h with ⟨e, he, hoid, hholds⟩ | rfl
  · by_cases hd : e.oid = d.oid
    · -- the entry is the one that is updated
      have hfound : (q.entries.find? fun a => decide (a.oid.val = (NotifyObject.fresh d.oid).oid.val)) =
          some e := by
        cases hf : q.entries.find? fun a => decide (a.oid.val = (NotifyObject.fresh d.oid).oid.val) with
        | none => exact absurd (decide_eq_true (congrArg Fin.val hd)) (List.find?_eq_none.mp hf e he)
        | some a =>
            have hkey : a.oid.val = d.oid.val := of_decide_eq_true (List.find?_some hf :)
            rw [sorted_eq q.sorted (List.mem_of_find?_eq_some hf) he (hkey.trans (congrArg Fin.val hd).symm)]
      have hold' : old = e := by rw [hold, hfound]; rfl
      refine ⟨d.update e, hmem.mpr (Or.inr (by rw [hold'])), ?_, Change.holds_update_of_holds hholds d⟩
      exact (d.oid_update e).trans hoid
    · exact ⟨e, hmem.mpr (Or.inl ⟨he, fun hk => hd (Fin.ext hk)⟩), hoid, hholds⟩
  · exact ⟨c.update old, hmem.mpr (Or.inr rfl), (c.oid_update old).trans holdoid, c.holds_update old⟩

/-! ## 2. Reporting a change -/

/-- One call of `anjay_notify_changed`, `anjay_notify_instances_changed` or
    `_anjay_notify_instance_created`: whether memory for the entry is allocated, and whether
    `AVS_SCHED_NOW` succeeds. -/
structure Report where
  change : Change
  allocated : Bool
  scheduled : Bool

/-- What a flush calls outside of `anjay_notify.c`. -/
inductive Call
  | socketUpdate (iid : Id)
  | reloadServers
  | readServerSsid (iid : Id)
  | registrationUpdate (ssid : Int)
  | observe (oid : Id) (resource : Option NotifyResource)
  | syncAccessControl (queueFrom : Nat)
  | moduleCallback (index queueFrom : Nat)
  deriving DecidableEq, Repr

/-- `anjay->scheduled_notify`; with it the calls made so far, and the changes that were reported and
    not yet passed to a flush that started later. -/
structure ScheduledNotify where
  queue : NotifyQueue
  handle : Bool
  calls : List Call
  unprocessed : List Change

def ScheduledNotify.init : ScheduledNotify := ⟨.empty, false, [], []⟩

/-- `reschedule_notify`. -/
def rescheduleNotify (scheduled : Bool) (s : ScheduledNotify) : Int × ScheduledNotify :=
  if s.handle then (0, s)
  else if scheduled then (0, { s with handle := true })
  else (-1, s)

/-- `anjay_notify_changed` and the two functions beside it. -/
def notifyChanged (r : Report) (s : ScheduledNotify) : Int × ScheduledNotify :=
  if r.allocated then
    rescheduleNotify r.scheduled
      { s with queue := queueChange s.queue r.change, unprocessed := s.unprocessed ++ [r.change] }
  else (-1, s)

/-! ## 3. The consumers of a flush -/

/-- How a call outside ends: its result, the SSID that it reads, and the changes reported meanwhile. -/
structure CallOutcome where
  ret : Int
  ssid : Int
  reports : List Report

/-- The rest of the client: how a call ends after those before it, the servers that
    `_anjay_servers_find_active` finds, and the number of modules with a `notify_callback`. -/
structure Env where
  respond : List Call → Call → CallOutcome
  activeServer : Int → Bool
  modules : Nat

/-- The call is made, and reports what it reports. -/
def invoke (env : Env) (call : Call) (s : ScheduledNotify) : CallOutcome × ScheduledNotify :=
  let out := env.respond s.calls call
  (out, out.reports.foldl (fun s r => (notifyChanged r s).2) { s with calls := s.calls ++ [call] })

/-- `_anjay_update_ret(&ret, f(...))`. -/
def updateRetCall (env : Env) (call : Call) (ret : Int) (s : ScheduledNotify) : Int × ScheduledNotify :=
  let r := invoke env call s
  (updateRet ret r.1.ret, r.2)

/-- `AVS_LIST_FOREACH` over a list in the order of its keys that the body may add to: the next element
    is the first one from the key `pos` on that is in the list by then. The body breaks with `none`. -/
def forEachFrom {σ ε α : Type} (get : σ → List ε) (key : ε → Nat) (body : ε → α → σ → Option (α × σ)) :
    Nat → Nat → α → σ → α × σ
  | 0, _, a, s => (a, s)
  | fuel + 1, pos, a, s =>
      match (get s).find? fun e => decide (pos ≤ key e) with
      | none => (a, s)
      | some e =>
          match body e a s with
          | none => (a, s)
          | some (a', s') => forEachFrom get key body fuel (key e + 1) a' s'

/-- The entries of the queue, and the changed Resources of one entry, as they are now. -/
def ScheduledNotify.objects (s : ScheduledNotify) : List NotifyObject := s.queue.entries
def ScheduledNotify.resources (oid : Id) (s : ScheduledNotify) : List NotifyResource :=
  ((s.queue.entries.find? fun e => decide (e.oid = oid)).map NotifyObject.resourcesChanged).getD []
def ScheduledNotify.instanceSetChanged (oid : Id) (s : ScheduledNotify) : Bool :=
  ((s.queue.entries.find? fun e => decide (e.oid = oid)).map NotifyObject.instanceSetChanged).getD false

/-- One more than the greatest key of an Object entry, and of a Resource entry. -/
def objectKeys : Nat := 65536
def resourceKeys : Nat := 65536 * 65536

def ridServerLifetime : Id := 1
def ridServerBinding : Id := 7

/-- `security_modified_notify`; the accumulator of the loop is `ret` and `last_iid`. -/
def securityModifiedNotify (env : Env) (s : ScheduledNotify) : Int × ScheduledNotify :=
  let body := fun (it : NotifyResource) (a : Int × Int) (s : ScheduledNotify) =>
    if (it.iid.val : Int) ≠ a.2 then
      let r := updateRetCall env (.socketUpdate it.iid) a.1 s
      some ((r.1, (it.iid.val : Int)), r.2)
    else some (a, s)
  let r := forEachFrom (ScheduledNotify.resources oidSecurity) NotifyResource.key body resourceKeys 0 (0, -1) s
  if r.2.instanceSetChanged oidSecurity then updateRetCall env .reloadServers r.1.1 r.2
  else (r.1.1, r.2)

/-- `server_modified_notify`. -/
def serverModifiedNotify (env : Env) (s : ScheduledNotify) : Int × ScheduledNotify :=
  if s.instanceSetChanged oidServer then updateRetCall env .reloadServers 0 s
  else
    let body := fun (it : NotifyResource) (ret : Int) (s : ScheduledNotify) =>
      if it.rid ≠ ridServerBinding ∧ it.rid ≠ ridServerLifetime then some (ret, s)
      else
        let r := invoke env (.readServerSsid it.iid) s
        if r.1.ret ≠ 0 ∨ r.1.ssid ≤ 0 ∨ 65535 ≤ r.1.ssid then some (updateRet ret (-1), r.2)
        else if env.activeServer r.1.ssid then
          some (updateRetCall env (.registrationUpdate r.1.ssid) ret r.2)
        else some (ret, r.2)
    forEachFrom (ScheduledNotify.resources oidServer) NotifyResource.key body resourceKeys 0 0 s

/-- `observe_notify`. -/
def observeNotify (env : Env) (queueFrom : Nat) (s : ScheduledNotify) : Int × ScheduledNotify :=
  let body := fun (it : NotifyObject) (ret : Int) (s : ScheduledNotify) =>
    if it.instanceSetChanged then some (updateRetCall env (.observe it.oid none) ret s)
    else
      let inner := fun (it2 : NotifyResource) (ret : Int) (s : ScheduledNotify) =>
        some (updateRetCall env (.observe it.oid (some it2)) ret s)
      some (forEachFrom (ScheduledNotify.resources it.oid) NotifyResource.key inner resourceKeys 0 ret s)
  forEachFrom ScheduledNotify.objects (fun e : NotifyObject => e.oid.val) body objectKeys queueFrom 0 s

/-- The loop over the modules in `anjay_notify_perform_impl`; `n` are left. -/
def notifyModules (env : Env) (queueFrom : Nat) : Nat → Int → ScheduledNotify → Int × ScheduledNotify
  | 0, ret, s => (ret, s)
  | n + 1, ret, s =>
      let r := updateRetCall env (.moduleCallback (env.modules - (n + 1)) queueFrom) ret s
      notifyModules env queueFrom n r.1 r.2

/-- `anjay_notify_perform_impl` on the scheduled queue. `queue` points to what is its first entry at the
    call: an entry that gets in front of it meanwhile is not walked over. -/
def notifyPerformImpl (env : Env) (serverNotify : Bool) (s : ScheduledNotify) : Int × ScheduledNotify :=
  match s.queue.entries with
  | [] => (0, s)
  | head :: _ =>
      let body := fun (it : NotifyObject) (ret : Int) (s : ScheduledNotify) =>
        if oidServer < it.oid then none
        else if it.oid = oidSecurity then
          let r := securityModifiedNotify env s
          some (updateRet ret r.1, r.2)
        else if serverNotify && decide (it.oid = oidServer) then
          let r := serverModifiedNotify env s
          some (updateRet ret r.1, r.2)
        else some (ret, s)
      let r1 := forEachFrom ScheduledNotify.objects (fun e : NotifyObject => e.oid.val) body objectKeys
        head.oid.val 0 s
      let r2 := observeNotify env head.oid.val r1.2
      let r3 := updateRetCall env (.syncAccessControl head.oid.val) (updateRet r1.1 r2.1) r2.2
      notifyModules env head.oid.val env.modules r3.1 r3.2

/-- `_anjay_notify_flush` on the scheduled queue: what the queue tells when it starts is passed on. -/
def notifyFlush (env : Env) (s : ScheduledNotify) : Int × ScheduledNotify :=
  let r := notifyPerformImpl env true
    { s with unprocessed := s.unprocessed.filter fun c => !s.queue.holds c }
  (r.1, { r.2 with queue := .empty })

/-- The scheduler runs `notify_clb`, if it is scheduled; it resets the handle of a job before. -/
def notifyClb (env : Env) (s : ScheduledNotify) : ScheduledNotify :=
  if s.handle then (notifyFlush env { s with handle := false }).2 else s

/-! ## 4. The walks -/

section ForEach

variable {σ ε α : Type} {get : σ → List ε} {key : ε → Nat} {body : ε → α → σ → Option (α × σ)}

/-- **The fuel of a walk is enough**: each step goes to a greater key. -/
theorem forEachFrom_fuel {bound : Nat} (hbound : ∀ s, ∀ e ∈ get s, key e < bound) (more : Nat) :
    ∀ (fuel pos : Nat) (a : α) (s : σ), bound ≤ fuel + pos →
      forEachFrom get key body (fuel + more) pos a s = forEachFrom get key body fuel pos a s
  | 0, pos, a, s, h => by
      have hnone : ((get s).find? fun e => decide (pos ≤ key e)) = none := by
        refine List.find?_eq_none.mpr fun e he => ?_
        have := hbound s e he
        simp only [decide_eq_true_eq]
        omega
      cases more with
      | zero => rfl
      | succ n =>
          simp only [forEachFrom, hnone]
  | fuel + 1, pos, a, s, h => by
      rw [Nat.add_right_comm, forEachFrom, forEachFrom]
      cases hf : (get s).find? fun e => decide (pos ≤ key e) with
      | none => rfl
      | some e =>
          have hpos : pos ≤ key e := of_decide_eq_true (List.find?_some hf :)
          cases hb : body e a s with
          | none => simp only [hb]
          | some r =>
              simp only [hb]
              exact forEachFrom_fuel hbound more fuel (key e + 1) r.1 r.2 (by omega)

/-- What every round of the body preserves, the walk preserves. -/
theorem forEachFrom_preserves (I : σ → Prop)
    (hbody : ∀ e a s r, I s → body e a s = some r → I r.2) :
    ∀ (fuel pos : Nat) (a : α) (s : σ), I s → I (forEachFrom get key body fuel pos a s).2
  | 0, _, _, _, h => h
  | fuel + 1, pos, a, s, h => by
      rw [forEachFrom]
      cases (get s).find? fun e => decide (pos ≤ key e) with
      | none => exact h
      | some e =>
          cases hb : body e a s with
          | none => simpa only [hb] using h
          | some r =>
              simp only [hb]
              exact forEachFrom_preserves I hbody fuel (key e + 1) r.1 r.2 (hbody e a s r h hb)

end ForEach

theorem objects_lt_objectKeys (s : ScheduledNotify) : ∀ e ∈ s.objects, e.oid.val < objectKeys :=
  fun e _ => e.oid.isLt

theorem resources_lt_resourceKeys (oid : Id) (s : ScheduledNotify) :
    ∀ e ∈ s.resources oid, e.key < resourceKeys := by
  intro e _
  have hi := e.iid.isLt
  have hr := e.rid.isLt
  simp only [NotifyResource.key, resourceKeys]
  omega

/-! ## 5. Flushes during which nothing is reported -/

/-- No change is put into the queue while a call outside runs. -/
def Env.Quiet (env : Env) : Prop := ∀ calls call, ∀ r ∈ (env.respond calls call).reports, r.allocated = false

/-- The states differ at most in the calls made. -/
structure SameQueue (s s' : ScheduledNotify) : Prop where
  queue : s'.queue = s.queue
  handle : s'.handle = s.handle
  unprocessed : s'.unprocessed = s.unprocessed

theorem SameQueue.rfl {s : ScheduledNotify} : SameQueue s s := ⟨Eq.refl _, Eq.refl _, Eq.refl _⟩

theorem SameQueue.trans {s t u : ScheduledNotify} (h : SameQueue s t) (h' : SameQueue t u) : SameQueue s u :=
  ⟨h'.queue.trans h.queue, h'.handle.trans h.handle, h'.unprocessed.trans h.unprocessed⟩

theorem reports_same : ∀ {rs : List Report} (s : ScheduledNotify), (∀ r ∈ rs, r.allocated = false) →
    rs.foldl (fun s r => (notifyChanged r s).2) s = s
  | [], _, _ => rfl
  | r :: rs, s, h => by
      have hr : (notifyChanged r s).2 = s := by
        rw [notifyChanged, if_neg (by rw [h r List.mem_cons_self]; exact Bool.false_ne_true)]
      rw [List.foldl_cons, hr]
      exact reports_same s fun r' hr' => h r' (List.mem_cons_of_mem r hr')

section Quiet

variable {env : Env} (hq : env.Quiet)

include hq

theorem invoke_same (call : Call) (s : ScheduledNotify) : SameQueue s (invoke env call s).2 := by
  have h : (invoke env call s).2 = { s with calls := s.calls ++ [call] } := reports_same _ (hq s.calls call)
  rw [h]
  exact ⟨rfl, rfl, rfl⟩

theorem updateRetCall_same (call : Call) (ret : Int) (s : ScheduledNotify) :
    SameQueue s (updateRetCall env call ret s).2 := invoke_same hq call s

theorem securityModifiedNotify_same (s : ScheduledNotify) : SameQueue s (securityModifiedNotify env s).2 := by
  have hloop : ∀ fuel pos a s₀, SameQueue s s₀ →
      SameQueue s (forEachFrom (ScheduledNotify.resources oidSecurity) NotifyResource.key
        (fun (it : NotifyResource) (a : Int × Int) (s : ScheduledNotify) =>
          if (it.iid.val : Int) ≠ a.2 then
            let r := updateRetCall env (.socketUpdate it.iid) a.1 s
            some ((r.1, (it.iid.val : Int)), r.2)
          else some (a, s)) fuel pos a s₀).2 := by
    refine forEachFrom_preserves (SameQueue s) fun e a s₁ r h hr => ?_
    split at hr
    · cases hr
      exact h.trans (updateRetCall_same hq (.socketUpdate e.iid) a.1 s₁)
    · cases hr
      exact h
  unfold securityModifiedNotify
  dsimp only
  split
  · exact (hloop _ _ _ _ .rfl).trans (updateRetCall_same hq _ _ _)
  · exact hloop _ _ _ _ .rfl

theorem serverModifiedNotify_same (s : ScheduledNotify) : SameQueue s (serverModifiedNotify env s).2 := by
  unfold serverModifiedNotify
  split
  · exact updateRetCall_same hq _ _ _
  refine forEachFrom_preserves (SameQueue s) (fun e ret s₁ r h hr => ?_) _ _ _ _ .rfl
  have hread := h.trans (invoke_same hq (.readServerSsid e.iid) s₁)
  dsimp only at hr
  split at hr
  · cases hr
    exact h
  split at hr
  · cases hr
    exact hread
  split at hr
  · cases hr
    exact hread.trans (updateRetCall_same hq _ _ _)
  · cases hr
    exact hread

theorem observeNotify_same (queueFrom : Nat) (s : ScheduledNotify) :
    SameQueue s (observeNotify env queueFrom s).2 := by
  refine forEachFrom_preserves (SameQueue s) (fun e ret s₁ r h hr => ?_) _ _ _ _ .rfl
  split at hr
  · cases hr
    exact h.trans (updateRetCall_same hq _ _ _)
  · cases hr
    refine forEachFrom_preserves (SameQueue s) (fun e₂ ret₂ s₂ r₂ h₂ hr₂ => ?_) _ _ _ _ h
    cases hr₂
    exact h₂.trans (updateRetCall_same hq _ _ _)

theorem notifyModules_same (queueFrom : Nat) : ∀ (n : Nat) (ret : Int) (s : ScheduledNotify),
    SameQueue s (notifyModules env queueFrom n ret s).2
  | 0, _, _ => .rfl
  | n + 1, ret, s => by
      have hstep := updateRetCall_same hq (.moduleCallback (env.modules - (n + 1)) queueFrom) ret s
      exact hstep.trans (notifyModules_same queueFrom n _ _)

/-- **Where nothing is reported, the consumers leave the queue as it is.** -/
theorem notifyPerformImpl_same (serverNotify : Bool) (s : ScheduledNotify) :
    SameQueue s (notifyPerformImpl env serverNotify s).2 := by
  unfold notifyPerformImpl
  split
  · exact .rfl
  next head _ _ =>
  refine SameQueue.trans ?_ (notifyModules_same hq _ _ _ _)
  refine SameQueue.trans ?_ (updateRetCall_same hq _ _ _)
  refine SameQueue.trans ?_ (observeNotify_same hq _ _)
  refine forEachFrom_preserves (SameQueue s) (fun e ret s₁ r h hr => ?_) _ _ _ _ .rfl
  split at hr
  · cases hr
  split at hr
  · cases hr
    exact h.trans (securityModifiedNotify_same hq _)
  split at hr
  · cases hr
    exact h.trans (serverModifiedNotify_same hq _)
  · cases hr
    exact h

end Quiet

/-! ## 6. Runs -/

/-- No change is lost: what was not passed on yet the queue tells, and where the queue is not empty a
    flush is scheduled. -/
structure Kept (s : ScheduledNotify) : Prop where
  pending : ∀ c ∈ s.unprocessed, s.queue.holds c = true
  scheduled : s.queue.entries ≠ [] → s.handle = true

theorem queueChange_entries_ne_nil (q : NotifyQueue) (c : Change) : (queueChange q c).entries ≠ [] := by
  obtain ⟨e, he, _⟩ := NotifyQueue.holds_iff.mp (holds_queueChange q c c (Or.inr rfl))
  exact List.ne_nil_of_mem he

/-- **A report keeps the changes exactly if it is refused or a flush is scheduled by the end of it.** -/
theorem notifyChanged_kept_iff {s : ScheduledNotify} (hs : Kept s) (r : Report) :
    Kept (notifyChanged r s).2 ↔ (r.allocated = true → s.handle = true ∨ r.scheduled = true) := by
  cases ha : r.allocated with
  | false =>
      rw [notifyChanged, if_neg (by rw [ha]; exact Bool.false_ne_true)]
      exact ⟨fun _ h => absurd h Bool.false_ne_true, fun _ => hs⟩
  | true =>
      rw [notifyChanged, if_pos ha]
      have hpending : ∀ c ∈ s.unprocessed ++ [r.change], (queueChange s.queue r.change).holds c = true := by
        intro c hc
        refine holds_queueChange s.queue c r.change ?_
        rcases List.mem_append.mp hc with hc | hc
        · exact Or.inl (hs.pending c hc)
        · exact Or.inr (List.mem_singleton.mp hc)
      have hne := queueChange_entries_ne_nil s.queue r.change
      unfold rescheduleNotify
      split
      next hh => exact ⟨fun _ _ => Or.inl hh, fun _ => ⟨hpending, fun _ => hh⟩⟩
      next hh =>
        split
        next hsch => exact ⟨fun _ _ => Or.inr hsch, fun _ => ⟨hpending, fun _ => rfl⟩⟩
        next hsch =>
          exact ⟨fun hk => absurd (hk.scheduled hne) hh, fun h => ((h rfl).elim hh hsch).elim⟩

/-- **A flush during which nothing is reported passes every change on.** -/
theorem notifyClb_kept {s : ScheduledNotify} (hs : Kept s) {env : Env} (hq : s.handle = true → env.Quiet) :
    Kept (notifyClb env s) := by
  unfold notifyClb
  split
  next hh =>
    have hdone : (s.unprocessed.filter fun c => !s.queue.holds c) = [] := by
      refine List.filter_eq_nil_iff.mpr fun c hc => ?_
      rw [hs.pending c hc]
      exact Bool.false_ne_true
    have hsame := notifyPerformImpl_same (hq hh) true
      { s with handle := false, unprocessed := s.unprocessed.filter fun c => !s.queue.holds c }
    have hnil := hsame.unprocessed.trans hdone
    refine ⟨fun c hc => ?_, fun h => absurd rfl h⟩
    rw [show (notifyFlush env { s with handle := false }).2.unprocessed = [] from hnil] at hc
    cases hc
  next => exact hs

/-- What happens to the scheduled queue: a report from outside of a flush, or the scheduler running the
    job. -/
inductive Event
  | report (r : Report)
  | flush (env : Env)

def step : Event → ScheduledNotify → ScheduledNotify
  | .report r, s => (notifyChanged r s).2
  | .flush env, s => notifyClb env s

/-- A flush is scheduled after each report, and nothing is reported while a flush is under way. -/
def Event.Undisturbed : Event → ScheduledNotify → Prop
  | report r, s => r.allocated = true → s.handle = true ∨ r.scheduled = true
  | flush env, s => s.handle = true → env.Quiet

/-- The states of the runs whose events meet the condition `C`. -/
inductive ReachableWith (C : Event → ScheduledNotify → Prop) : ScheduledNotify → Prop
  | init : ReachableWith C .init
  | step {s s' : ScheduledNotify} (event : Event) (h : ReachableWith C s) (hc : C event s)
      (hs' : Dm.step event s = s') : ReachableWith C s'

/-- **In every run of such reports and flushes no change is lost.** -/
theorem reachable_kept {s : ScheduledNotify} (h : ReachableWith Event.Undisturbed s) : Kept s := by
  induction h with
  | init => exact ⟨fun c hc => absurd hc List.not_mem_nil, fun h => absurd rfl h⟩
  | step event _ hc hs' ih =>
      subst hs'
      cases event with
      | report r => exact (notifyChanged_kept_iff ih r).mpr hc
      | flush env => exact notifyClb_kept ih hc

/-! ## 7. Runs that lose a change -/

/-- Resource 1 of Instance 0 of Object 3 is reported as changed. -/
def deviceChanged : Report := ⟨.resource 3 0 1, true, true⟩

/-- A module whose callback reports Resource 3 of Instance 0 of Object 5; all else is silent. -/
def reportingModule : Env where
  respond _ call :=
    match call with
    | .moduleCallback _ _ => ⟨0, 0, [⟨.resource 5 0 3, true, true⟩]⟩
    | _ => ⟨0, 0, []⟩
  activeServer _ := false
  modules := 1

/-- One module with a callback that reports nothing. -/
def silentModule : Env := ⟨fun _ _ => ⟨0, 0, []⟩, fun _ => false, 1⟩

theorem silentModule_quiet : silentModule.Quiet := fun _ _ _ hr => absurd hr List.not_mem_nil

/-- The change that the module reports during the flush is cleared away with the queue. -/
theorem kept_not_always : ∃ s, ReachableWith (fun _ _ => True) s ∧
    s.unprocessed = [.resource 5 0 3] ∧ s.queue.holds (.resource 5 0 3) = false ∧ ¬ Kept s := by
  obtain ⟨s, hs⟩ : ∃ s, s = step (.flush reportingModule) (step (.report deviceChanged) .init) := ⟨_, rfl⟩
  have hreach : ReachableWith (fun _ _ => True) s :=
    .step (.flush reportingModule) (.step (.report deviceChanged) .init trivial rfl) trivial hs.symm
  have hun : s.unprocessed = [.resource 5 0 3] := by
    rw [hs]
    decide +kernel
  have hq : s.queue.holds (.resource 5 0 3) = false := by
    rw [hs]
    decide +kernel
  refine ⟨s, hreach, hun, hq, fun hk => ?_⟩
  have := hk.pending (.resource 5 0 3) (by rw [hun]; exact List.mem_singleton.mpr rfl)
  rw [hq] at this
  exact Bool.false_ne_true this

theorem reachable_kept_silent : Kept (step (.flush silentModule) (step (.report deviceChanged) .init)) :=
  reachable_kept (.step (.flush silentModule)
    (.step (.report deviceChanged) .init (fun _ => Or.inr rfl) rfl) (fun _ => silentModule_quiet) rfl)

/-- The walk over the queue has reached the module by then, and the Resource was notified. -/
example : (step (.flush silentModule) (step (.report deviceChanged) .init)).calls =
    [.observe 3 (some ⟨0, 1⟩), .syncAccessControl 3, .moduleCallback 0 3] := by decide +kernel

end Anjay.Dm
