/-
  File:      Anjay/Dm/ObjectRegistry.lean
  Subject:   `anjay_register_object` and `anjay_unregister_object` (`anjay_dm_core.c`) over the lists that refer to
             an Object: the registered Objects, the open transaction, and the two queues of changes.

  * `run_touches`: calls in a transaction call the handlers of the Objects they include only.
  * `syncAccessControl_spec`: what the flush may do to an open transaction.
  * `unregisterObject_spec`: no list refers to an Object that was unregistered.
  * `registry_runs`: the same for every state that calls of the two functions and transactions lead to.
-/
import Anjay.Dm.NotifyFlush
import Anjay.Dm.Query
import Anjay.Dm.Registry
import Anjay.Dm.Transaction

namespace Anjay.Dm.ObjectRegistry

open Transaction (ObjPtr Action EndHandlers Extends)

variable {σ : Type}

/-! ## 1. The lists -/

/-- What stands behind the pointers that the functions are called with: `none` where the pointer, or what it
    points to, is `NULL`. It stays the same for as long as the client runs. -/
structure Definitions (σ : Type) where
  deref : ObjPtr → Option (RegisteredObject σ)
  ref_eq : ∀ {ptr obj}, deref ptr = some obj → obj.ref = ptr

/-- `dm.objects`, `transaction_state`, `scheduled_notify` and `bootstrap.notification_queue`. -/
structure Client (σ : Type) where
  objects : ObjectList σ
  transaction : Transaction.State
  scheduled : ScheduledNotify
  bootstrapQueue : NotifyQueue

def Client.init : Client σ := ⟨⟨[], .nil, nofun⟩, .initial, .init, .empty⟩

/-- The pointers in `dm.objects`. -/
def Client.refs (c : Client σ) : List ObjPtr := c.objects.objects.map RegisteredObject.ref

mutual

/-- The Objects that a call includes, those of begin handlers among them. -/
def includedBy : Action → List ObjPtr
  | .begin => []
  | .includeObject obj _ handler _ => obj :: allIncludedBy handler
  | .finish _ _ => []

def allIncludedBy : List Action → List ObjPtr
  | [] => []
  | a :: as => includedBy a ++ allIncludedBy as

end

/-- `_anjay_dm_find_object_by_oid`. -/
def Client.findObjectByOid (c : Client σ) (oid : Id) : Option ObjPtr :=
  (c.objects.objects.find? fun o => decide (o.oid = oid)).map RegisteredObject.ref

/-- What the synchronisation does to the transaction: a handler that changes an Object includes it, and each Object is
    found by its id. -/
inductive SyncAction
  | begin
  | includeObject (oid : Id) (allocated : Bool) (handler : List SyncAction) (ret : Int)
  | finish (result : Int) (handlers : EndHandlers)

mutual

/-- The call that is made; none for an Object that is not found. -/
def SyncAction.resolve (find : Id → Option ObjPtr) : SyncAction → List Action
  | .begin => [.begin]
  | .includeObject oid allocated handler ret =>
      match find oid with
      | none => []
      | some obj => [.includeObject obj allocated (resolveAll find handler) ret]
  | .finish result handlers => [.finish result handlers]

def resolveAll (find : Id → Option ObjPtr) : List SyncAction → List Action
  | [] => []
  | a :: as => a.resolve find ++ resolveAll find as

end

/-- What `_anjay_sync_access_control` does between its begin and its finish, as far as the transaction goes. -/
structure Sync where
  body : List SyncAction
  balanced : ∀ find, Transaction.Balanced (resolveAll find body)
  result : Int
  handlers : EndHandlers

/-- The rest of the client while an Object is unregistered: the rollback handler and what is reported from it,
    memory for the entry of the local queue, the consumers of the flush, the synchronisation, and whether one is going on
    already (`access_control_sync_in_progress`). -/
structure Env where
  rollback : Int
  rollbackReports : List Report
  queueMemory : Bool
  consumers : Dm.Env
  sync : Sync
  syncInProgress : Bool

/-- No handler reports a change. -/
def Env.Quiet (env : Env) : Prop := env.consumers.Quiet ∧ ∀ r ∈ env.rollbackReports, r.allocated = false

/-! ## 2. The functions -/

/-- `anjay_register_object`; `memory` is for the element of the list, `allocated` and `scheduled` are for
    `anjay_notify_instances_changed`. -/
def registerObject (defs : Definitions σ) (memory allocated scheduled : Bool) (ptr : ObjPtr) (c : Client σ) :
    Int × Client σ :=
  match defs.deref ptr with
  | none => (-1, c)
  | some new =>
      let r := c.objects.registerObject memory new
      if r.1 ≠ 0 then (r.1, { c with objects := r.2 })
      else
        (0, { c with objects := r.2
                     scheduled := (notifyChanged ⟨.instances new.oid, allocated, scheduled⟩ c.scheduled).2 })

/-- The walk over `objs_in_transaction` in `anjay_unregister_object`. -/
def rollbackIncluded (env : Env) (ptr : ObjPtr) (c : Client σ) : Client σ :=
  match c.transaction.objsInTransaction.find? fun e => decide (ptr ≤ e.obj) with
  | none => c
  | some found =>
      if found.obj = ptr then
        { c with
          transaction :=
            { c.transaction.log (.transactionRollback ptr env.rollback) with
              objsInTransaction := c.transaction.objsInTransaction.eraseP fun e => decide (ptr ≤ e.obj) }
          scheduled := env.rollbackReports.foldl (fun s r => (notifyChanged r s).2) c.scheduled }
      else c

/-- `_anjay_sync_access_control`, with `ret` updated from its result. -/
def syncAccessControl (env : Env) (queueFrom : Nat) (ret : Int) (c : Client σ) : Option (Int × Client σ) :=
  if env.syncInProgress then some (ret, c)
  else if c.objects.objects.any fun o => decide (o.oid = oidAccessControl) then
    let sync := env.sync
    let called := invoke env.consumers (.syncAccessControl queueFrom) c.scheduled
    (Transaction.run (resolveAll c.findObjectByOid sync.body) (Transaction.transactionBegin c.transaction)).map fun tr =>
      let finished := Transaction.transactionFinish sync.handlers sync.result tr
      (updateRet ret finished.1, { c with transaction := finished.2, scheduled := called.2 })
  else some (ret, c)

/-- `_anjay_notify_perform` on the queue of `anjay_unregister_object`: one entry, for the Object, saying that the
    set of its Instances changed. -/
def notifyPerform (env : Env) (oid : Id) (c : Client σ) : Option (Int × Client σ) :=
  let modified :=
    if oid = oidSecurity ∨ oid = oidServer then updateRetCall env.consumers .reloadServers 0 c.scheduled
    else (0, c.scheduled)
  let observed := updateRetCall env.consumers (.observe oid none) modified.1 modified.2
  (syncAccessControl env oid.val observed.1 { c with scheduled := observed.2 }).map fun r =>
    let called := notifyModules env.consumers oid.val env.consumers.modules r.1 r.2.scheduled
    (called.1, { r.2 with scheduled := called.2 })

/-- The loop of `remove_oid_from_notify_queue`. -/
def removeOid (oid : Id) : List NotifyObject → List NotifyObject
  | [] => []
  | e :: es => if oid ≤ e.oid then if e.oid = oid then es else e :: es else e :: removeOid oid es

theorem removeOid_sublist (oid : Id) : ∀ es : List NotifyObject, (removeOid oid es).Sublist es
  | [] => .slnil
  | e :: es => by
      unfold removeOid
      split
      · split
        · exact List.sublist_cons_self e es
        · exact .refl _
      · exact (removeOid_sublist oid es).cons_cons e

/-- `remove_oid_from_notify_queue`. -/
def removeOidFromNotifyQueue (oid : Id) (queue : NotifyQueue) : NotifyQueue where
  entries := removeOid oid queue.entries
  sorted := queue.sorted.sublist (removeOid_sublist oid queue.entries)

/-- The end of `anjay_unregister_object`: both queues lose the entry of the Object. -/
def removeFromQueues (oid : Id) (c : Client σ) : Client σ :=
  { c with scheduled := { c.scheduled with queue := removeOidFromNotifyQueue oid c.scheduled.queue }
           bootstrapQueue := removeOidFromNotifyQueue oid c.bootstrapQueue }

/-- `anjay_unregister_object`; `none` stands for a walk over the end of a list. The source asserts that no request is
    being handled (`current_connection.server`). -/
def unregisterObject (defs : Definitions σ) (env : Env) (ptr : ObjPtr) (c : Client σ) : Option (Int × Client σ) :=
  match defs.deref ptr with
  | none => some (-1, c)
  | some obj =>
      let r := c.objects.unregisterObject obj.oid ptr
      if r.1 ≠ 0 then some (r.1, { c with objects := r.2 })
      else
        let c := rollbackIncluded env ptr { c with objects := r.2 }
        (if env.queueMemory then notifyPerform env obj.oid c else some (-1, c)).map fun r =>
          (0, removeFromQueues obj.oid r.2)

/-! ## 3. What is reported -/

/-- Changes are queued, none of them where nothing reports. -/
def Reports (quiet : Prop) (s s' : ScheduledNotify) : Prop :=
  ∃ changes, s'.queue = changes.foldl queueChange s.queue ∧ (quiet → changes = [])

theorem Reports.of_eq {quiet : Prop} {s s' : ScheduledNotify} (h : s'.queue = s.queue) : Reports quiet s s' :=
  ⟨[], h, fun _ => rfl⟩

theorem Reports.trans {quiet : Prop} {s t u : ScheduledNotify} (h : Reports quiet s t) (h' : Reports quiet t u) :
    Reports quiet s u := by
  obtain ⟨cs, hcs, hq⟩ := h
  obtain ⟨ds, hds, hq'⟩ := h'
  refine ⟨cs ++ ds, by rw [hds, hcs, List.foldl_append], fun hquiet => ?_⟩
  rw [hq hquiet, hq' hquiet]
  rfl

theorem rescheduleNotify_queue (scheduled : Bool) (s : ScheduledNotify) :
    (rescheduleNotify scheduled s).2.queue = s.queue := by
  unfold rescheduleNotify
  split
  · rfl
  · split <;> rfl

theorem notifyChanged_reports {quiet : Prop} (r : Report) (hquiet : quiet → r.allocated = false) (s : ScheduledNotify) :
    Reports quiet s (notifyChanged r s).2 := by
  unfold notifyChanged
  split
  · next halloc =>
      refine ⟨[r.change], rescheduleNotify_queue _ _, fun h => ?_⟩
      rw [hquiet h] at halloc
      cases halloc
  · exact .of_eq rfl

theorem reports_reports {quiet : Prop} : ∀ (rs : List Report) (_ : quiet → ∀ r ∈ rs, r.allocated = false)
    (s : ScheduledNotify), Reports quiet s (rs.foldl (fun s r => (notifyChanged r s).2) s)
  | [], _, _ => .of_eq rfl
  | r :: rs, hquiet, s =>
      (notifyChanged_reports r (fun h => hquiet h r List.mem_cons_self) s).trans
        (reports_reports rs (fun h r' hr' => hquiet h r' (List.mem_cons_of_mem _ hr')) _)

theorem invoke_reports (env : Dm.Env) (call : Call) (s : ScheduledNotify) :
    Reports env.Quiet s (invoke env call s).2 := by
  have h := @reports_reports env.Quiet (env.respond s.calls call).reports (fun h => h s.calls call)
    { s with calls := s.calls ++ [call] }
  exact h

theorem notifyModules_reports (env : Dm.Env) (queueFrom : Nat) : ∀ (n : Nat) (ret : Int) (s : ScheduledNotify),
    Reports env.Quiet s (notifyModules env queueFrom n ret s).2
  | 0, _, _ => .of_eq rfl
  | n + 1, ret, s => by
      have hfirst := invoke_reports env (.moduleCallback (env.modules - (n + 1)) queueFrom) s
      exact hfirst.trans (notifyModules_reports env queueFrom n _ _)

/-! ## 4. What a transaction touches -/

/-- The handlers called are those of some Objects. -/
def Touches (objs : List ObjPtr) (tr tr' : Transaction.State) : Prop :=
  ∃ new, tr'.calls = tr.calls ++ new ∧ ∀ call ∈ new, call.obj ∈ objs

theorem Touches.of_eq {objs : List ObjPtr} {tr tr' : Transaction.State} (h : tr'.calls = tr.calls) :
    Touches objs tr tr' := ⟨[], by rw [h, List.append_nil], nofun⟩

theorem Touches.trans {objs : List ObjPtr} {tr tr1 tr2 : Transaction.State} (h : Touches objs tr tr1)
    (h' : Touches objs tr1 tr2) : Touches objs tr tr2 := by
  obtain ⟨new, hnew, hobjs⟩ := h
  obtain ⟨new', hnew', hobjs'⟩ := h'
  refine ⟨new ++ new', by rw [hnew', hnew, List.append_assoc], fun call hcall => ?_⟩
  exact (List.mem_append.mp hcall).elim (hobjs call) (hobjs' call)

theorem includeObject_touches {objs : List ObjPtr} {obj : ObjPtr} (hobj : obj ∈ objs) {allocated : Bool} {ret r : Int}
    {handler : Transaction.State → Option Transaction.State}
    (hhandler : ∀ tr tr', handler tr = some tr' → tr.depth ≠ 0 → Touches objs tr tr') {tr tr' : Transaction.State}
    (hdepth : tr.depth ≠ 0)
    (h : Transaction.includeObject obj allocated (fun tr => (handler tr).map fun tr => (ret, tr)) tr = some (r, tr')) :
    Touches objs tr tr' := by
  unfold Transaction.includeObject at h
  dsimp only at h
  split at h
  · cases h
    exact .of_eq rfl
  split at h
  · cases h
    exact .of_eq rfl
  split at h
  · cases h
  next result tr1 hrun =>
    obtain ⟨tr2, htr2, heq⟩ := Option.map_eq_some_iff.mp hrun
    obtain ⟨rfl, rfl⟩ := Prod.mk.inj heq
    have hfirst := hhandler _ _ htr2 hdepth
    have hlog : Touches objs tr2 (tr2.log (.transactionBegin obj ret)) :=
      ⟨_, rfl, fun call hcall => by rw [List.mem_singleton.mp hcall]; exact hobj⟩
    have hboth := hfirst.trans hlog
    split at h
    · obtain ⟨es, -, heq⟩ := Option.map_eq_some_iff.mp h
      cases heq
      exact hboth
    · cases h
      exact hboth

mutual

theorem step_touches {objs : List ObjPtr} : ∀ (a : Action) {depth depth' : Nat}, a.depthAfter depth = some depth' →
    (∀ obj ∈ includedBy a, obj ∈ objs) → ∀ {tr tr' : Transaction.State}, depth < tr.depth → a.step tr = some tr' →
      Touches objs tr tr'
  | .begin, _, _, _, _, tr, tr', _, h => by
      cases h
      exact .of_eq rfl
  | .includeObject obj allocated handler ret, depth, _, hd, hobjs, tr, tr', hlt, h => by
      rw [Action.depthAfter] at hd
      split at hd
      · next hbal =>
          rw [Action.step] at h
          obtain ⟨⟨r, tr1⟩, hrun, rfl⟩ := Option.map_eq_some_iff.mp h
          refine includeObject_touches (hobjs obj List.mem_cons_self) (fun tr1 tr2 hrun hdepth => ?_) (by omega) hrun
          exact run_touches handler hbal (fun o ho => hobjs o (List.mem_cons_of_mem _ ho)) (by omega) hrun
      · cases hd
  | .finish _ _, 0, _, hd, _, _, _, _, _ => by cases hd
  | .finish result handlers, depth + 1, _, _, _, tr, tr', hlt, h => by
      rw [Action.step, Transaction.transactionFinish_nested (by omega)] at h
      cases h
      exact .of_eq rfl

/-- **Calls inside a transaction call the handlers of the Objects they include only.** -/
theorem run_touches {objs : List ObjPtr} : ∀ (acts : List Action) {depth depth' : Nat},
    Transaction.depthAfter acts depth = some depth' → (∀ obj ∈ allIncludedBy acts, obj ∈ objs) →
      ∀ {tr tr' : Transaction.State}, depth < tr.depth → Transaction.run acts tr = some tr' → Touches objs tr tr'
  | [], _, _, _, _, tr, tr', _, h => by
      cases h
      exact .of_eq rfl
  | a :: as, depth, depth', hd, hobjs, tr, tr', hlt, h => by
      rw [Transaction.depthAfter] at hd
      obtain ⟨depth1, ha, has⟩ := Option.bind_eq_some_iff.mp hd
      rw [Transaction.run] at h
      obtain ⟨tr1, h1, h2⟩ := Option.bind_eq_some_iff.mp h
      have hdepth1 := Transaction.step_depth a ha (Nat.le_of_lt hlt) h1
      have hfirst := step_touches a ha (fun o ho => hobjs o (List.mem_append_left _ ho)) hlt h1
      exact hfirst.trans (run_touches as has (fun o ho => hobjs o (List.mem_append_right _ ho)) (by omega) h2)

end

theorem validateLoop_touches (h : EndHandlers) {objs : List ObjPtr} : ∀ {es : List Transaction.Entry}
    (_ : ∀ e ∈ es, e.obj ∈ objs) (tr : Transaction.State), Touches objs tr (Transaction.validateLoop h es tr).2
  | [], _, _ => .of_eq rfl
  | e :: es, hes, tr => by
      obtain ⟨he, hes⟩ := List.forall_mem_cons.mp hes
      have hlog : Touches objs tr (tr.log (.transactionValidate e.obj (h.validate e.obj))) :=
        ⟨_, rfl, fun call hcall => by rw [List.mem_singleton.mp hcall]; exact he⟩
      rw [Transaction.validateLoop]
      split
      · exact hlog
      · exact hlog.trans (validateLoop_touches h hes _)

theorem clearLoop_touches (h : EndHandlers) (result : Int) {objs : List ObjPtr} : ∀ {es : List Transaction.Entry}
    (_ : ∀ e ∈ es, e.obj ∈ objs) (finalResult : Int) (tr : Transaction.State),
      Touches objs tr (Transaction.clearLoop h result es finalResult tr).2
  | [], _, _, _ => .of_eq rfl
  | e :: es, hes, finalResult, tr => by
      obtain ⟨he, hes⟩ := List.forall_mem_cons.mp hes
      obtain ⟨r, hcall, -⟩ := Transaction.commitOrRollbackObject_eq h e.obj result tr
      have hobj : (Transaction.endCall h result e.obj).obj = e.obj := by
        unfold Transaction.endCall
        split <;> rfl
      have hlog : Touches objs tr { tr.log (Transaction.endCall h result e.obj) with objsInTransaction := es } :=
        ⟨_, rfl, fun call hcall => by rw [List.mem_singleton.mp hcall, hobj]; exact he⟩
      rw [Transaction.clearLoop, hcall]
      exact hlog.trans (clearLoop_touches h result hes _ _)

theorem transactionFinishWithoutValidation_touches (h : EndHandlers) (result : Int) {objs : List ObjPtr}
    {tr : Transaction.State} (htr : ∀ e ∈ tr.objsInTransaction, e.obj ∈ objs) :
    Touches objs tr (Transaction.transactionFinishWithoutValidation h result tr).2 := by
  unfold Transaction.transactionFinishWithoutValidation
  dsimp only
  split
  · exact .of_eq rfl
  · have hcleared := clearLoop_touches h result htr result { tr with depth := tr.depth - 1 }
    exact hcleared

/-- The end of a transaction calls the handlers of the Objects in it. -/
theorem transactionFinish_touches (h : EndHandlers) (result : Int) {objs : List ObjPtr} {tr : Transaction.State}
    (htr : ∀ e ∈ tr.objsInTransaction, e.obj ∈ objs) :
    Touches objs tr (Transaction.transactionFinish h result tr).2 := by
  unfold Transaction.transactionFinish
  split
  · have hvalidated : Touches objs tr (Transaction.transactionValidate h tr).2 := validateLoop_touches h htr tr
    refine hvalidated.trans (transactionFinishWithoutValidation_touches h _ ?_)
    intro e he
    change e ∈ (Transaction.transactionValidate h tr).2.objsInTransaction at he
    rw [Transaction.transactionValidate_objs] at he
    exact htr e he
  · exact transactionFinishWithoutValidation_touches h result htr

/-! ## 5. The synchronisation -/

/-- What holds of a transaction between the calls: it is in order, it is empty where none is open, and it has
    registered Objects only. -/
structure Consistent (objs : List ObjPtr) (tr : Transaction.State) : Prop where
  sound : Transaction.Sound tr
  idle : tr.depth = 0 → tr.objsInTransaction = []
  registered : ∀ e ∈ tr.objsInTransaction, e.obj ∈ objs

/-- A transaction goes on: what was in it stays. -/
structure Continues (objs : List ObjPtr) (tr tr' : Transaction.State) : Prop where
  consistent : Consistent objs tr'
  kept : tr.objsInTransaction.Sublist tr'.objsInTransaction
  touches : Touches objs tr tr'
  depth : tr'.depth = tr.depth

theorem Continues.refl {objs : List ObjPtr} {tr : Transaction.State} (h : Consistent objs tr) :
    Continues objs tr tr := ⟨h, .refl _, .of_eq rfl, rfl⟩

/-- What an extended transaction has in it. -/
theorem registered_of_extends {objs : List ObjPtr} {tr tr' : Transaction.State} {new : List Transaction.Call}
    (h : ∀ e ∈ tr.objsInTransaction, e.obj ∈ objs) (hext : Extends tr tr' new) (htouches : Touches objs tr tr') :
    ∀ e ∈ tr'.objsInTransaction, e.obj ∈ objs := by
  intro e he
  obtain ⟨new', hnew', hobjs⟩ := htouches
  have hmem := hext.objs.mem_iff.mp (List.mem_map_of_mem he)
  rcases List.mem_append.mp hmem with hold | hbegun
  · obtain ⟨e', he', heq⟩ := List.mem_map.mp hold
    rw [← heq]
    exact h e' he'
  · obtain ⟨call, hcall, heq⟩ := List.mem_map.mp hbegun
    have hsame : new = new' := List.append_cancel_left (hext.calls.symm.trans hnew')
    rw [← heq]
    exact hobjs call (hsame ▸ (List.mem_filter.mp hcall).1)

theorem allIncludedBy_append : ∀ as bs : List Action, allIncludedBy (as ++ bs) = allIncludedBy as ++ allIncludedBy bs
  | [], _ => rfl
  | a :: as, bs => by
      rw [List.cons_append, allIncludedBy, allIncludedBy_append as bs, allIncludedBy, List.append_assoc]

mutual

theorem resolve_found (find : Id → Option ObjPtr) : ∀ (a : SyncAction) (obj : ObjPtr),
    obj ∈ allIncludedBy (a.resolve find) → ∃ oid, find oid = some obj
  | .begin, obj, h => by cases h
  | .includeObject oid allocated handler ret, obj, h => by
      rw [SyncAction.resolve] at h
      split at h
      · cases h
      next found hfound =>
        rw [allIncludedBy, includedBy, allIncludedBy, List.append_nil] at h
        rcases List.mem_cons.mp h with rfl | hmem
        · exact ⟨oid, hfound⟩
        · exact resolveAll_found find handler obj hmem
  | .finish _ _, obj, h => by cases h

/-- **What is included was found.** -/
theorem resolveAll_found (find : Id → Option ObjPtr) : ∀ (as : List SyncAction) (obj : ObjPtr),
    obj ∈ allIncludedBy (resolveAll find as) → ∃ oid, find oid = some obj
  | [], obj, h => by cases h
  | a :: as, obj, h => by
      rw [resolveAll, allIncludedBy_append] at h
      exact (List.mem_append.mp h).elim (resolve_found find a obj) (resolveAll_found find as obj)

end

/-- An Object that is found is registered. -/
theorem mem_refs_of_find {c : Client σ} {oid : Id} {obj : ObjPtr} (h : c.findObjectByOid oid = some obj) :
    obj ∈ c.refs := by
  obtain ⟨o, ho, rfl⟩ := Option.map_eq_some_iff.mp h
  exact List.mem_map_of_mem (List.mem_of_find?_eq_some ho)

/-- **A synchronisation inside an open transaction keeps what is in it**; where none is open, it leaves none. -/
theorem sync_continues {objs : List ObjPtr} (sync : Sync) {find : Id → Option ObjPtr}
    (hfind : ∀ {oid obj}, find oid = some obj → obj ∈ objs) {tr : Transaction.State} (h : Consistent objs tr) :
    ∃ tr', Transaction.run (resolveAll find sync.body) (Transaction.transactionBegin tr) = some tr' ∧
      Continues objs tr (Transaction.transactionFinish sync.handlers sync.result tr').2 := by
  have hbegin : Transaction.Sound (Transaction.transactionBegin tr) := ⟨h.sound.sorted, h.sound.addrs, h.sound.fresh⟩
  obtain ⟨tr', new, hrun, hext, hdepth⟩ :=
    Transaction.run_extends (resolveAll find sync.body) (sync.balanced find) hbegin (Nat.succ_pos _)
  have hfound : ∀ obj ∈ allIncludedBy (resolveAll find sync.body), obj ∈ objs := by
    intro obj hobj
    obtain ⟨oid, hoid⟩ := resolveAll_found find sync.body obj hobj
    exact hfind hoid
  have htouches := run_touches (resolveAll find sync.body) (sync.balanced find) hfound (Nat.succ_pos _) hrun
  have hregistered : ∀ e ∈ tr'.objsInTransaction, e.obj ∈ objs :=
    @registered_of_extends objs (Transaction.transactionBegin tr) tr' new h.registered hext htouches
  have hfinish := transactionFinish_touches sync.handlers sync.result hregistered
  have hall : Touches objs tr (Transaction.transactionFinish sync.handlers sync.result tr').2 :=
    Touches.trans htouches hfinish
  have hdepth' : tr'.depth = tr.depth + 1 := hdepth
  refine ⟨tr', hrun, ?_⟩
  by_cases h0 : tr.depth = 0
  · obtain ⟨ret, tr2, checked, hfin, hidle, -⟩ :=
      Transaction.transactionFinish_outermost (by omega : tr'.depth = 1) sync.handlers sync.result
    rw [hfin] at hall ⊢
    refine ⟨⟨⟨?_, ?_, ?_⟩, fun _ => hidle.2, ?_⟩, ?_, hall, hidle.1.trans h0.symm⟩ <;> simp [hidle.2, h.idle h0]
  · rw [Transaction.transactionFinish_nested (by omega)] at hall ⊢
    refine ⟨⟨⟨hext.sound.sorted, hext.sound.addrs, hext.sound.fresh⟩, fun hd => ?_, hregistered⟩, hext.kept, hall, ?_⟩
    · exact absurd (show tr'.depth - 1 = 0 from hd) (by omega)
    · show tr'.depth - 1 = tr.depth
      omega

/-- What a step of the flush leaves: the Objects, the bootstrap queue, and a transaction that went on. -/
structure Flushed (env : Env) (c c' : Client σ) : Prop where
  objects : c'.objects = c.objects
  bootstrapQueue : c'.bootstrapQueue = c.bootstrapQueue
  transaction : Continues c.refs c.transaction c'.transaction
  unsynced : (∀ o ∈ c.objects.objects, o.oid ≠ oidAccessControl) → c'.transaction = c.transaction
  reports : Reports env.Quiet c.scheduled c'.scheduled

theorem Reports.mono {p q : Prop} {s s' : ScheduledNotify} (h : Reports p s s') (hpq : q → p) : Reports q s s' := by
  obtain ⟨changes, hqueue, hquiet⟩ := h
  exact ⟨changes, hqueue, fun hq => hquiet (hpq hq)⟩

theorem syncAccessControl_spec (env : Env) (queueFrom : Nat) (ret : Int) {c : Client σ}
    (h : Consistent c.refs c.transaction) :
    ∃ ret' c', syncAccessControl env queueFrom ret c = some (ret', c') ∧ Flushed env c c' := by
  unfold syncAccessControl
  split
  · exact ⟨ret, c, rfl, rfl, rfl, .refl h, fun _ => rfl, .of_eq rfl⟩
  split
  · next hany =>
      obtain ⟨tr', hrun, hcontinues⟩ := sync_continues env.sync mem_refs_of_find h
      dsimp only
      rw [hrun]
      refine ⟨_, _, rfl, rfl, rfl, hcontinues, fun hnone => ?_, ?_⟩
      · obtain ⟨o, ho, hoid⟩ := List.any_eq_true.mp hany
        exact absurd (of_decide_eq_true hoid) (hnone o ho)
      · exact (invoke_reports env.consumers _ c.scheduled).mono And.left
  · exact ⟨ret, c, rfl, rfl, rfl, .refl h, fun _ => rfl, .of_eq rfl⟩

theorem notifyPerform_spec (env : Env) (oid : Id) {c : Client σ} (h : Consistent c.refs c.transaction) :
    ∃ ret c', notifyPerform env oid c = some (ret, c') ∧ Flushed env c c' := by
  have hmodified : Reports env.Quiet c.scheduled
      (if oid = oidSecurity ∨ oid = oidServer then updateRetCall env.consumers .reloadServers 0 c.scheduled
        else (0, c.scheduled)).2 := by
    split
    · exact (invoke_reports env.consumers _ c.scheduled).mono And.left
    · exact .of_eq rfl
  unfold notifyPerform
  dsimp only
  obtain ⟨modified, hmod⟩ : ∃ modified, (if oid = oidSecurity ∨ oid = oidServer then
    updateRetCall env.consumers .reloadServers 0 c.scheduled else (0, c.scheduled)) = modified := ⟨_, rfl⟩
  rw [hmod] at hmodified ⊢
  have hobserved := (invoke_reports env.consumers (.observe oid none) modified.2).mono (q := env.Quiet) And.left
  obtain ⟨ret, c', hsync, hflushed⟩ := syncAccessControl_spec env oid.val
    (updateRetCall env.consumers (.observe oid none) modified.1 modified.2).1
    (c := { c with scheduled := (updateRetCall env.consumers (.observe oid none) modified.1 modified.2).2 }) h
  have hmodules := (notifyModules_reports env.consumers oid.val env.consumers.modules ret c'.scheduled).mono
    (q := env.Quiet) And.left
  rw [hsync]
  refine ⟨_, _, rfl, hflushed.objects, hflushed.bootstrapQueue, hflushed.transaction, hflushed.unsynced, ?_⟩
  exact hmodified.trans (Reports.trans hobserved (hflushed.reports.trans hmodules))

/-! ## 6. One call -/

/-- What holds of the lists between the calls. -/
structure Inv (defs : Definitions σ) (c : Client σ) : Prop where
  defined : ∀ o ∈ c.objects.objects, defs.deref o.ref = some o
  transaction : Consistent c.refs c.transaction

theorem mem_refs {c : Client σ} {ptr : ObjPtr} : ptr ∈ c.refs ↔ ∃ o ∈ c.objects.objects, o.ref = ptr := List.mem_map

/-- A pointer is registered once. -/
theorem Inv.refs_nodup {defs : Definitions σ} {c : Client σ} (h : Inv defs c) : c.refs.Nodup := by
  refine List.pairwise_map.mpr (c.objects.ascending.imp_of_mem fun {a b} ha hb hlt heq => ?_)
  have hdeq := h.defined a ha
  rw [heq, h.defined b hb] at hdeq
  rw [Option.some.inj hdeq] at hlt
  exact absurd hlt (lt_irrefl _)

/-- The Object is gone from the list, and the others are left. -/
theorem unregisterObject_objects {objects : ObjectList σ} {oid : Id} {ptr : ObjPtr} :
    ((objects.unregisterObject oid ptr).1 ≠ 0 ∧ (objects.unregisterObject oid ptr).2 = objects) ∨
      ((objects.unregisterObject oid ptr).1 = 0 ∧ (∃ o ∈ objects.objects, o.oid = oid ∧ o.ref = ptr) ∧
        (objects.unregisterObject oid ptr).2.objects = objects.objects.filter fun o => decide (o.oid ≠ oid)) := by
  unfold ObjectList.unregisterObject
  have hwalk := @Lib.find?_from _ _ _ (fun o : RegisteredObject σ => o.oid) oid (fun o => decide (oid ≤ o.oid))
    (fun o => decide (o.oid ≠ oid)) (fun _ => decide_eq_true_iff) (fun _ => decide_eq_true_iff) _ objects.ascending
  have hfail : (-1 : Int) ≠ 0 := by decide
  cases hfind : objects.objects.find? fun o => decide (oid ≤ o.oid) with
  | none => exact .inl ⟨hfail, rfl⟩
  | some found =>
      rw [hfind] at hwalk
      dsimp only
      by_cases hwrong : found.oid ≠ oid ∨ found.ref ≠ ptr
      · rw [if_pos hwrong]
        exact .inl ⟨hfail, rfl⟩
      · rw [if_neg hwrong]
        obtain ⟨hoid, href⟩ := not_or.mp hwrong
        refine .inr ⟨rfl, ⟨found, List.mem_of_find?_eq_some hfind, not_not.mp hoid, not_not.mp href⟩, ?_⟩
        rcases hwalk with ⟨found', hfound', -, herase⟩ | ⟨-, hne⟩
        · exact herase
        · exact absurd (not_not.mp hoid) (hne found rfl)

/-- A rollback, if there is one to be called. -/
def rollbacks (env : Env) (ptr : ObjPtr) (tr : Transaction.State) : List Transaction.Call :=
  if ptr ∈ tr.objsInTransaction.map Transaction.Entry.obj then [.transactionRollback ptr env.rollback] else []

/-- What the walk over the open transaction leaves. -/
structure RolledBack (env : Env) (ptr : ObjPtr) (c c' : Client σ) : Prop where
  objects : c'.objects = c.objects
  bootstrapQueue : c'.bootstrapQueue = c.bootstrapQueue
  objs : c'.transaction.objsInTransaction =
    c.transaction.objsInTransaction.filter fun e => decide (e.obj ≠ ptr)
  calls : c'.transaction.calls = c.transaction.calls ++ rollbacks env ptr c.transaction
  depth : c'.transaction.depth = c.transaction.depth
  nextEntry : c'.transaction.nextEntry = c.transaction.nextEntry
  reports : Reports env.Quiet c.scheduled c'.scheduled

theorem rollbackIncluded_spec (env : Env) (ptr : ObjPtr) {c : Client σ} (h : Transaction.Sound c.transaction) :
    RolledBack env ptr c (rollbackIncluded env ptr c) := by
  have hwalk := @Lib.find?_from _ _ _ (fun e : Transaction.Entry => e.obj) ptr (fun e => decide (ptr ≤ e.obj))
    (fun e => decide (e.obj ≠ ptr)) (fun _ => decide_eq_true_iff) (fun _ => decide_eq_true_iff) _ h.sorted
  have hnone : (∀ e ∈ c.transaction.objsInTransaction, e.obj ≠ ptr) → RolledBack env ptr c c := by
    intro hne
    have hnot : ptr ∉ c.transaction.objsInTransaction.map Transaction.Entry.obj := by
      intro hmem
      obtain ⟨e, he, heq⟩ := List.mem_map.mp hmem
      exact hne e he heq
    refine ⟨rfl, rfl, ?_, ?_, rfl, rfl, .of_eq rfl⟩
    · exact (List.filter_eq_self.mpr fun e he => decide_eq_true (hne e he)).symm
    · rw [rollbacks, if_neg hnot, List.append_nil]
  unfold rollbackIncluded
  rcases hwalk with ⟨found, hfound, hkey, herase⟩ | ⟨hne, hfound⟩
  · rw [hfound]
    dsimp only
    rw [if_pos hkey]
    have hmem : ptr ∈ c.transaction.objsInTransaction.map Transaction.Entry.obj :=
      List.mem_map.mpr ⟨found, List.mem_of_find?_eq_some hfound, hkey⟩
    refine ⟨rfl, rfl, herase, ?_, rfl, rfl, reports_reports env.rollbackReports And.right c.scheduled⟩
    rw [rollbacks, if_pos hmem]
    rfl
  · cases hfind : c.transaction.objsInTransaction.find? fun e => decide (ptr ≤ e.obj) with
    | none => exact hnone hne
    | some found =>
        dsimp only
        rw [if_neg (hfound found hfind)]
        exact hnone hne

theorem removeOid_eq {oid : Id} : ∀ {es : List NotifyObject}, Lib.Sorted (fun e : NotifyObject => e.oid.val) es →
    removeOid oid es = es.filter fun e => decide (e.oid ≠ oid)
  | [], _ => rfl
  | e :: es, hs => by
      obtain ⟨he, hes⟩ := List.pairwise_cons.mp hs
      unfold removeOid
      by_cases hle : oid ≤ e.oid
      · have hne : ∀ e' ∈ es, e'.oid ≠ oid := by
          rintro e' he' rfl
          exact absurd (he e' he') (not_lt.mpr hle)
        have hrest := List.filter_eq_self.mpr fun e' he' => decide_eq_true (hne e' he')
        rw [if_pos hle]
        by_cases heq : e.oid = oid
        · rw [if_pos heq, List.filter_cons_of_neg (p := fun e : NotifyObject => decide (e.oid ≠ oid))
            (fun h => of_decide_eq_true h heq), hrest]
        · rw [if_neg heq, List.filter_cons_of_pos (p := fun e : NotifyObject => decide (e.oid ≠ oid))
            (decide_eq_true heq), hrest]
      · have heq : e.oid ≠ oid := fun heq => hle (ge_of_eq heq)
        rw [if_neg hle, List.filter_cons_of_pos (p := fun e : NotifyObject => decide (e.oid ≠ oid))
          (decide_eq_true heq), removeOid_eq hes]

/-- What a call that unregisters an Object does to the lists. The open transaction and the scheduled queue may get
    new entries: the synchronisation includes the Objects it changes, and handlers report changes. -/
structure Unregistered (env : Env) (ptr : ObjPtr) (oid : Id) (c c' : Client σ) : Prop where
  objects : c'.objects.objects = c.objects.objects.filter fun o => decide (o.oid ≠ oid)
  notRegistered : ptr ∉ c'.refs
  notIncluded : ∀ e ∈ c'.transaction.objsInTransaction, e.obj ≠ ptr
  kept : (c.transaction.objsInTransaction.filter fun e => decide (e.obj ≠ ptr)).Sublist c'.transaction.objsInTransaction
  included : ∀ e ∈ c'.transaction.objsInTransaction, e.obj ∈ c'.refs
  unsynced : (∀ o ∈ c'.objects.objects, o.oid ≠ oidAccessControl) →
    c'.transaction.objsInTransaction = c.transaction.objsInTransaction.filter fun e => decide (e.obj ≠ ptr)
  depth : c'.transaction.depth = c.transaction.depth
  rolledBack : ∃ new, c'.transaction.calls = c.transaction.calls ++ new ∧
    new.filter (fun call => decide (call.obj = ptr)) = rollbacks env ptr c.transaction
  notScheduled : ∀ e ∈ c'.scheduled.queue.entries, e.oid ≠ oid
  scheduled : ∃ changes, c'.scheduled.queue.entries =
    (changes.foldl queueChange c.scheduled.queue).entries.filter (fun e => decide (e.oid ≠ oid)) ∧
      (env.Quiet → changes = [])
  bootstrapQueue : c'.bootstrapQueue.entries = c.bootstrapQueue.entries.filter fun e => decide (e.oid ≠ oid)

theorem Consistent.mono {objs objs' : List ObjPtr} {tr : Transaction.State} (h : Consistent objs tr)
    (hsub : ∀ obj ∈ objs, obj ∈ objs') : Consistent objs' tr :=
  ⟨h.sound, h.idle, fun e he => hsub e.obj (h.registered e he)⟩

/-- The transaction without the Object, before the flush. -/
theorem RolledBack.consistent {env : Env} {ptr : ObjPtr} {c c' : Client σ} {objs : List ObjPtr}
    (h : RolledBack env ptr c c') (hc : Consistent objs c.transaction) :
    Consistent (objs.filter fun obj => decide (obj ≠ ptr)) c'.transaction where
  sound := hc.sound.sublist (by rw [h.objs]; exact List.filter_sublist) (Nat.le_of_eq h.nextEntry.symm)
  idle := by
    intro hdepth
    rw [h.objs, hc.idle (h.depth.symm.trans hdepth)]
    rfl
  registered := by
    intro e he
    rw [h.objs] at he
    obtain ⟨hmem, hne⟩ := List.mem_filter.mp he
    exact List.mem_filter.mpr ⟨hc.registered e hmem, hne⟩

/-- Handlers of other Objects are not those of the Object. -/
theorem Touches.filter_eq {objs : List ObjPtr} {ptr : ObjPtr} {tr tr' : Transaction.State} (h : Touches objs tr tr')
    (hptr : ptr ∉ objs) : ∃ new, tr'.calls = tr.calls ++ new ∧ new.filter (fun call => decide (call.obj = ptr)) = [] := by
  obtain ⟨new, hnew, hobjs⟩ := h
  refine ⟨new, hnew, List.filter_eq_nil_iff.mpr fun call hcall heq => hptr ?_⟩
  rw [← of_decide_eq_true heq]
  exact hobjs call hcall

/-- The walk over the transaction, the flush and the walks over the queues, one after the other. -/
theorem unregistered_of_flushed {env : Env} {ptr : ObjPtr} {oid : Id} {c c1 c2 : Client σ}
    (hobjects : c1.objects.objects = c.objects.objects.filter fun o => decide (o.oid ≠ oid)) (hptr : ptr ∉ c1.refs)
    (hrolled : RolledBack env ptr { c with objects := c1.objects } c1) (hflushed : Flushed env c1 c2) :
    Unregistered env ptr oid c (removeFromQueues oid c2) := by
  have hrefs : (removeFromQueues oid c2).refs = c1.refs :=
    congrArg (fun objects => objects.objects.map RegisteredObject.ref) hflushed.objects
  have hcontinued := hflushed.transaction
  have hscheduled : (removeFromQueues oid c2).scheduled.queue.entries =
      c2.scheduled.queue.entries.filter fun e => decide (e.oid ≠ oid) := removeOid_eq c2.scheduled.queue.sorted
  refine ⟨?_, by rwa [hrefs], fun e he heq => ?_, ?_, fun e he => ?_, fun hnone => ?_, ?_, ?_, fun e he => ?_, ?_, ?_⟩
  · rw [← hobjects, ← hflushed.objects]
    rfl
  · exact hptr (heq ▸ hcontinued.consistent.registered e he)
  · have hkept := hcontinued.kept
    rw [hrolled.objs] at hkept
    exact hkept
  · rw [hrefs]
    exact hcontinued.consistent.registered e he
  · have hsame := hflushed.unsynced fun o ho => hnone o (by rw [← hflushed.objects] at ho; exact ho)
    have hobjs := hrolled.objs
    rw [← hsame] at hobjs
    exact hobjs
  · exact hcontinued.depth.trans hrolled.depth
  · obtain ⟨new, hnew, hothers⟩ := hcontinued.touches.filter_eq hptr
    refine ⟨rollbacks env ptr c.transaction ++ new, ?_, ?_⟩
    · rw [hrolled.calls, List.append_assoc] at hnew
      exact hnew
    · rw [List.filter_append, hothers, List.append_nil]
      refine List.filter_eq_self.mpr fun call hcall => ?_
      unfold rollbacks at hcall
      split at hcall
      · rw [List.mem_singleton.mp hcall]
        exact decide_eq_true rfl
      · cases hcall
  · rw [hscheduled] at he
    exact of_decide_eq_true (List.mem_filter.mp he).2
  · obtain ⟨changes, hqueue, hquiet⟩ := Reports.trans hrolled.reports hflushed.reports
    exact ⟨changes, by rw [hscheduled, hqueue], hquiet⟩
  · show removeOid oid c2.bootstrapQueue.entries = _
    rw [removeOid_eq c2.bootstrapQueue.sorted, hflushed.bootstrapQueue, hrolled.bootstrapQueue]

/-- **One call of `anjay_unregister_object`**: it fails and changes nothing, or no list refers to the Object. -/
theorem unregisterObject_spec {defs : Definitions σ} {c : Client σ} (h : Inv defs c) (env : Env) (ptr : ObjPtr) :
    ∃ ret c', unregisterObject defs env ptr c = some (ret, c') ∧ Inv defs c' ∧ (ret ≠ 0 → c' = c) ∧
      (ret = 0 → ∃ obj, defs.deref ptr = some obj ∧ ptr ∈ c.refs ∧ Unregistered env ptr obj.oid c c') := by
  unfold unregisterObject
  have hfail : (-1 : Int) ≠ 0 := by decide
  cases hobj : defs.deref ptr with
  | none => exact ⟨-1, c, rfl, h, fun _ => rfl, fun h0 => absurd h0 hfail⟩
  | some obj =>
      dsimp only
      rcases @unregisterObject_objects σ c.objects obj.oid ptr with ⟨hret, hsame⟩ | ⟨hret, ⟨found, hfound, hoid, href⟩, hobjects⟩
      · rw [if_pos hret, hsame]
        exact ⟨_, c, rfl, h, fun _ => rfl, fun h0 => absurd h0 hret⟩
      · rw [if_neg (not_not.mpr hret)]
        obtain ⟨objects, hlist⟩ : ∃ objects, (c.objects.unregisterObject obj.oid ptr).2 = objects := ⟨_, rfl⟩
        rw [hlist] at hobjects ⊢
        obtain ⟨c1, hc1⟩ : ∃ c1, rollbackIncluded env ptr { c with objects := objects } = c1 := ⟨_, rfl⟩
        have hrolled := rollbackIncluded_spec env ptr (c := { c with objects := objects }) h.transaction.sound
        rw [hc1] at hrolled ⊢
        -- the pointer is gone with the Object
        have hdefined : ∀ o ∈ c1.objects.objects, defs.deref o.ref = some o ∧ o.oid ≠ obj.oid := by
          intro o ho
          rw [hrolled.objects, hobjects] at ho
          obtain ⟨hmem, hne⟩ := List.mem_filter.mp ho
          exact ⟨h.defined o hmem, of_decide_eq_true hne⟩
        have hptr : ptr ∉ c1.refs := by
          rintro hmem
          obtain ⟨o, ho, heq⟩ := mem_refs.mp hmem
          obtain ⟨hderef, hne⟩ := hdefined o ho
          rw [heq, hobj] at hderef
          exact hne (congrArg (·.oid) (Option.some.inj hderef)).symm
        have hrefs : ∀ ref ∈ c.refs, ref ≠ ptr → ref ∈ c1.refs := by
          intro ref hmem hne
          obtain ⟨o, ho, rfl⟩ := mem_refs.mp hmem
          refine mem_refs.mpr ⟨o, ?_, rfl⟩
          rw [hrolled.objects, hobjects]
          refine List.mem_filter.mpr ⟨ho, decide_eq_true fun heq => hne ?_⟩
          have hsame := @Lib.sorted_eq _ _ _ (fun o : RegisteredObject σ => o.oid) _ c.objects.ascending _ _ ho hfound
            (heq.trans hoid.symm)
          rw [hsame, href]
        have hconsistent : Consistent c1.refs c1.transaction :=
          (hrolled.consistent (c := { c with objects := objects }) h.transaction).mono fun ref hmem =>
            hrefs ref (List.mem_filter.mp hmem).1 (of_decide_eq_true (List.mem_filter.mp hmem).2)
        obtain ⟨ret2, c2, hflush, hflushed⟩ : ∃ ret2 c2,
            (if env.queueMemory then notifyPerform env obj.oid c1 else some (-1, c1)) = some (ret2, c2) ∧
              Flushed env c1 c2 := by
          split
          · exact notifyPerform_spec env obj.oid hconsistent
          · exact ⟨-1, c1, rfl, rfl, rfl, .refl hconsistent, fun _ => rfl, .of_eq rfl⟩
        rw [hflush]
        have hrefs2 : c2.refs = c1.refs := congrArg (fun objects => objects.objects.map RegisteredObject.ref) hflushed.objects
        refine ⟨0, _, rfl, ⟨fun o ho => ?_, ?_⟩, fun h0 => absurd rfl h0, fun _ =>
          ⟨obj, rfl, mem_refs.mpr ⟨found, hfound, href⟩, ?_⟩⟩
        · exact (hdefined o (by rw [← hflushed.objects]; exact ho)).1
        · have hcontinued := hflushed.transaction.consistent
          rw [← hrefs2] at hcontinued
          exact hcontinued
        · have hc1objects : c1.objects = objects := hrolled.objects
          subst hc1objects
          exact unregistered_of_flushed hobjects hptr hrolled hflushed

/-- What a call that registers an Object does to the lists. -/
structure Registered (new : RegisteredObject σ) (c c' : Client σ) : Prop where
  objects : ∀ o, o ∈ c'.objects.objects ↔ o = new ∨ o ∈ c.objects.objects
  transaction : c'.transaction = c.transaction
  scheduled : c'.scheduled.queue = c.scheduled.queue ∨
    c'.scheduled.queue = queueChange c.scheduled.queue (.instances new.oid)
  bootstrapQueue : c'.bootstrapQueue = c.bootstrapQueue

theorem registerObject_objects {objects : ObjectList σ} {memory : Bool} {new : RegisteredObject σ} :
    ((objects.registerObject memory new).1 ≠ 0 ∧ (objects.registerObject memory new).2 = objects) ∨
      ((objects.registerObject memory new).1 = 0 ∧
        ∀ o, o ∈ (objects.registerObject memory new).2.objects ↔ o = new ∨ o ∈ objects.objects) := by
  unfold ObjectList.registerObject
  have hfail : (-1 : Int) ≠ 0 := by decide
  split
  · exact .inl ⟨hfail, rfl⟩
  split
  · exact .inl ⟨hfail, rfl⟩
  split
  · exact .inl ⟨hfail, rfl⟩
  next os hinsert =>
    split
    · exact .inr ⟨rfl, fun o => mem_insertObject hinsert⟩
    · exact .inl ⟨hfail, rfl⟩

/-- **One call of `anjay_register_object`**: it fails and changes nothing, or the Object is in the list. -/
theorem registerObject_spec {defs : Definitions σ} {c : Client σ} (h : Inv defs c) (memory allocated scheduled : Bool)
    (ptr : ObjPtr) :
    ∃ ret c', registerObject defs memory allocated scheduled ptr c = (ret, c') ∧ Inv defs c' ∧ (ret ≠ 0 → c' = c) ∧
      (ret = 0 → ∃ new, defs.deref ptr = some new ∧ Registered new c c') := by
  unfold registerObject
  have hfail : (-1 : Int) ≠ 0 := by decide
  cases hnew : defs.deref ptr with
  | none => exact ⟨-1, c, rfl, h, fun _ => rfl, fun h0 => absurd h0 hfail⟩
  | some new =>
      dsimp only
      rcases @registerObject_objects σ c.objects memory new with ⟨hret, hsame⟩ | ⟨hret, hobjects⟩
      · rw [if_pos hret, hsame]
        exact ⟨_, c, rfl, h, fun _ => rfl, fun h0 => absurd h0 hret⟩
      · rw [if_neg (not_not.mpr hret)]
        refine ⟨0, _, rfl, ⟨fun o ho => ?_, ?_⟩, fun h0 => absurd rfl h0, fun _ => ⟨new, rfl, hobjects, rfl, ?_, rfl⟩⟩
        · rcases (hobjects o).mp ho with rfl | ho
          · rw [defs.ref_eq hnew, hnew]
          · exact h.defined o ho
        · refine h.transaction.mono fun ref hmem => ?_
          obtain ⟨o, ho, heq⟩ := mem_refs.mp hmem
          exact mem_refs.mpr ⟨o, (hobjects o).mpr (.inr ho), heq⟩
        · show (notifyChanged _ _).2.queue = _ ∨ (notifyChanged _ _).2.queue = _
          unfold notifyChanged
          split
          · exact .inr (rescheduleNotify_queue _ _)
          · exact .inl rfl

/-! ## 7. Runs -/

/-- What else goes on in an open transaction: it begins, includes registered Objects, and ends. -/
structure Allowed (c : Client σ) (a : Action) : Prop where
  opened : a = .begin ∨ 0 < c.transaction.depth
  balanced : ∃ depth, a.depthAfter c.transaction.depth = some depth
  registered : ∀ obj ∈ includedBy a, obj ∈ c.refs

/-- Runs of calls of the two functions, with transactions and whatever happens to the queues between them. The
    list has the Objects that were registered and not unregistered since. -/
inductive Reachable (defs : Definitions σ) : List ObjPtr → Client σ → Prop
  | init : Reachable defs [] .init
  | register {live c} (h : Reachable defs live c) (memory allocated scheduled : Bool) (ptr : ObjPtr) {ret c'}
      (hrun : registerObject defs memory allocated scheduled ptr c = (ret, c')) :
      Reachable defs (if ret = 0 then ptr :: live else live) c'
  | unregister {live c} (h : Reachable defs live c) (env : Env) (ptr : ObjPtr) {ret c'}
      (hrun : unregisterObject defs env ptr c = some (ret, c')) :
      Reachable defs (if ret = 0 then live.filter fun obj => decide (obj ≠ ptr) else live) c'
  | transaction {live c} (h : Reachable defs live c) {a : Action} (ha : Allowed c a) {tr : Transaction.State}
      (hrun : a.step c.transaction = some tr) : Reachable defs live { c with transaction := tr }
  | queues {live c} (h : Reachable defs live c) (scheduled : ScheduledNotify) (bootstrapQueue : NotifyQueue) :
      Reachable defs live { c with scheduled := scheduled, bootstrapQueue := bootstrapQueue }

theorem consistent_step {objs : List ObjPtr} {tr tr' : Transaction.State} (h : Consistent objs tr) {a : Action}
    (hopened : a = .begin ∨ 0 < tr.depth) (hbalanced : ∃ depth, a.depthAfter tr.depth = some depth)
    (hobjs : ∀ obj ∈ includedBy a, obj ∈ objs) (hrun : a.step tr = some tr') : Consistent objs tr' := by
  obtain ⟨depth, hdepth⟩ := hbalanced
  cases a with
  | begin =>
      cases hrun
      exact ⟨⟨h.sound.sorted, h.sound.addrs, h.sound.fresh⟩, fun h0 => absurd h0 (Nat.succ_ne_zero _), h.registered⟩
  | includeObject obj allocated handler ret =>
      have hpos : 0 < tr.depth := hopened.resolve_left fun heq => by cases heq
      have hzero : (Action.includeObject obj allocated handler ret).depthAfter 0 = some 0 := by
        rw [Action.depthAfter] at hdepth ⊢
        split at hdepth
        · next hbal => rw [if_pos hbal]
        · cases hdepth
      obtain ⟨tr2, new, hstep, hext, hsame⟩ := Transaction.step_extends _ hzero h.sound hpos
      rw [hrun] at hstep
      obtain rfl := Option.some.inj hstep
      have htouches := step_touches _ hzero hobjs hpos hrun
      refine ⟨hext.sound, fun h0 => absurd h0 ?_, registered_of_extends h.registered hext htouches⟩
      omega
  | finish result handlers =>
      cases hrun
      have hpos : 0 < tr.depth := hopened.resolve_left fun heq => by cases heq
      by_cases hone : tr.depth = 1
      · obtain ⟨ret, tr2, checked, hfin, hidle, -⟩ := Transaction.transactionFinish_outermost hone handlers result
        rw [hfin]
        refine ⟨⟨?_, ?_, ?_⟩, fun _ => hidle.2, ?_⟩ <;> simp [hidle.2]
      · rw [Transaction.transactionFinish_nested ⟨Nat.pos_iff_ne_zero.mp hpos, hone⟩]
        refine ⟨⟨h.sound.sorted, h.sound.addrs, h.sound.fresh⟩, fun h0 => ?_, h.registered⟩
        exact absurd (show tr.depth - 1 = 0 from h0) (by omega)

theorem inv_init (defs : Definitions σ) : Inv defs .init :=
  ⟨nofun, ⟨⟨.nil, .nil, nofun⟩, fun _ => rfl, nofun⟩⟩

/-- **What holds in every state that is reached**: the invariant, and the list is that of the live Objects. -/
theorem reachable_inv {defs : Definitions σ} {live : List ObjPtr} {c : Client σ} (h : Reachable defs live c) :
    Inv defs c ∧ ∀ ptr, ptr ∈ c.refs ↔ ptr ∈ live := by
  induction h with
  | init => exact ⟨inv_init defs, fun _ => Iff.rfl⟩
  | @register live c _ memory allocated scheduled ptr ret c' hrun ih =>
      obtain ⟨hinv, hlive⟩ := ih
      obtain ⟨ret', c'', heq, hinv', hfail, hok⟩ := registerObject_spec hinv memory allocated scheduled ptr
      rw [hrun] at heq
      obtain ⟨rfl, rfl⟩ := Prod.mk.inj heq
      refine ⟨hinv', fun p => ?_⟩
      split
      · next h0 =>
          obtain ⟨new, hnew, hreg⟩ := hok h0
          rw [mem_refs, List.mem_cons, ← hlive, mem_refs]
          constructor
          · rintro ⟨o, ho, rfl⟩
            rcases (hreg.objects o).mp ho with rfl | ho
            · exact .inl (defs.ref_eq hnew)
            · exact .inr ⟨o, ho, rfl⟩
          · rintro (rfl | ⟨o, ho, heq⟩)
            · exact ⟨new, (hreg.objects new).mpr (.inl rfl), defs.ref_eq hnew⟩
            · exact ⟨o, (hreg.objects o).mpr (.inr ho), heq⟩
      · next h0 =>
          rw [hfail h0]
          exact hlive p
  | @unregister live c _ env ptr ret c' hrun ih =>
      obtain ⟨hinv, hlive⟩ := ih
      obtain ⟨ret', c'', heq, hinv', hfail, hok⟩ := unregisterObject_spec hinv env ptr
      rw [hrun] at heq
      obtain ⟨rfl, rfl⟩ := Prod.mk.inj (Option.some.inj heq)
      refine ⟨hinv', fun p => ?_⟩
      split
      · next h0 =>
          obtain ⟨obj, hobj, hmem, hun⟩ := hok h0
          rw [List.mem_filter, ← hlive, decide_eq_true_iff]
          constructor
          · intro hp
            obtain ⟨o, ho, heq⟩ := mem_refs.mp hp
            rw [hun.objects] at ho
            exact ⟨mem_refs.mpr ⟨o, (List.mem_filter.mp ho).1, heq⟩, fun hne => hun.notRegistered (hne ▸ hp)⟩
          · rintro ⟨hp, hne⟩
            obtain ⟨o, ho, heq⟩ := mem_refs.mp hp
            refine mem_refs.mpr ⟨o, ?_, heq⟩
            rw [hun.objects]
            refine List.mem_filter.mpr ⟨ho, decide_eq_true fun hoid => hne ?_⟩
            obtain ⟨found, hfound, href⟩ := mem_refs.mp hmem
            have hfound' := hinv.defined found hfound
            rw [href, hobj] at hfound'
            have hsame := @Lib.sorted_eq _ _ _ (fun o : RegisteredObject σ => o.oid) _ c.objects.ascending _ _ ho hfound
              (by rw [hoid, Option.some.inj hfound'])
            rw [← heq, hsame, href]
      · next h0 =>
          rw [hfail h0]
          exact hlive p
  | transaction _ ha hrun ih =>
      exact ⟨⟨ih.1.defined, consistent_step ih.1.transaction ha.opened ha.balanced ha.registered hrun⟩, ih.2⟩
  | queues _ scheduled bootstrapQueue ih => exact ⟨⟨ih.1.defined, ih.1.transaction⟩, ih.2⟩

/-- What the two functions guarantee in a state. -/
structure Guarantees (defs : Definitions σ) (live : List ObjPtr) (c : Client σ) : Prop where
  ascending : c.objects.objects.Pairwise fun a b => a.oid < b.oid
  nodup : c.refs.Nodup
  live : ∀ ptr, ptr ∈ c.refs ↔ ptr ∈ live
  included : ∀ e ∈ c.transaction.objsInTransaction, e.obj ∈ c.refs
  register : ∀ memory allocated scheduled ptr, ∃ ret c',
    registerObject defs memory allocated scheduled ptr c = (ret, c') ∧ (ret ≠ 0 → c' = c) ∧
      (ret = 0 → ∃ new, defs.deref ptr = some new ∧ Registered new c c')
  unregister : ∀ env ptr, ∃ ret c', unregisterObject defs env ptr c = some (ret, c') ∧ (ret ≠ 0 → c' = c) ∧
    (ret = 0 → ∃ obj, defs.deref ptr = some obj ∧ Unregistered env ptr obj.oid c c')

/-- **In every run the list of Objects is in order, with one entry for each that is registered; a call that fails
    changes nothing, and after one that unregisters an Object no list refers to it.** -/
theorem registry_runs {defs : Definitions σ} {live : List ObjPtr} {c : Client σ} (h : Reachable defs live c) :
    Guarantees defs live c := by
  obtain ⟨hinv, hlive⟩ := reachable_inv h
  refine ⟨c.objects.ascending, hinv.refs_nodup, hlive, hinv.transaction.registered, ?_, ?_⟩
  · intro memory allocated scheduled ptr
    obtain ⟨ret, c', hrun, -, hfail, hok⟩ := registerObject_spec hinv memory allocated scheduled ptr
    exact ⟨ret, c', hrun, hfail, hok⟩
  · intro env ptr
    obtain ⟨ret, c', hrun, -, hfail, hok⟩ := unregisterObject_spec hinv env ptr
    refine ⟨ret, c', hrun, hfail, fun h0 => ?_⟩
    obtain ⟨obj, hobj, -, hun⟩ := hok h0
    exact ⟨obj, hobj, hun⟩

/-- An Object without Instances, with the pointer to it. -/
def bareObject (oid : Id) (ref : ObjPtr) : RegisteredObject Unit where
  oid := oid
  listInstances := fun _ => ([], 0)
  listResources := fun _ _ => ([], 0)
  listResourceInstances := fun _ _ _ => ([], 0)
  ref := ref
  version := none

/-- The Access Control Object, and Object 5. -/
def bareObjects : Definitions Unit where
  deref ptr := if ptr = 10 then some (bareObject oidAccessControl 10) else if ptr = 20 then some (bareObject 5 20) else none
  ref_eq := by
    intro ptr obj h
    split at h
    · next heq => rw [← Option.some.inj h, heq]; rfl
    · split at h
      · next heq => rw [← Option.some.inj h, heq]; rfl
      · cases h

def withAccessControl : Client Unit := (registerObject bareObjects true true true 10 .init).2

def withBoth : Client Unit := (registerObject bareObjects true true true 20 withAccessControl).2

/-- Both Objects are registered, and the bootstrap transaction is open. -/
def inBootstrap : Client Unit := { withBoth with transaction := Transaction.transactionBegin withBoth.transaction }

theorem reachable_inBootstrap : Reachable bareObjects [20, 10] inBootstrap := by
  have h1 : registerObject bareObjects true true true 10 .init = (0, withAccessControl) :=
    Prod.ext (by decide +kernel) rfl
  have h2 : registerObject bareObjects true true true 20 withAccessControl = (0, withBoth) :=
    Prod.ext (by decide +kernel) rfl
  have hboth : Reachable bareObjects [20, 10] withBoth := .register (.register .init true true true 10 h1) true true true 20 h2
  exact hboth.transaction ⟨.inl rfl, ⟨_, rfl⟩, nofun⟩ rfl

/-- In that state the guarantees hold. -/
theorem registry_runs_inBootstrap : Guarantees bareObjects [20, 10] inBootstrap := registry_runs reachable_inBootstrap

/-- The synchronisation removes an Instance of the Access Control Object, which includes it. -/
def removal : List SyncAction := [.includeObject oidAccessControl true [] 0]

theorem removal_balanced (find : Id → Option ObjPtr) : Transaction.Balanced (resolveAll find removal) := by
  have hresolve : resolveAll find removal =
      ((find oidAccessControl).map fun obj => Action.includeObject obj true [] 0).toList := by
    show SyncAction.resolve find (.includeObject oidAccessControl true [] 0) ++ [] = _
    rw [SyncAction.resolve, List.append_nil]
    cases find oidAccessControl <;> rfl
  rw [hresolve]
  cases find oidAccessControl <;> rfl

def removeAccessControl : Sync := ⟨removal, removal_balanced, 0, ⟨fun _ => 0, fun _ => 0, fun _ => 0⟩⟩

def removingEnv : Env := ⟨0, [], true, silentModule, removeAccessControl, false⟩

/-- **The open transaction is not always the one before without the Object**: the flush has included the Access
    Control Object. -/
theorem unregister_extends_transaction : Reachable bareObjects [20, 10] inBootstrap ∧
    ∃ c', unregisterObject bareObjects removingEnv 20 inBootstrap = some (0, c') ∧
      c'.transaction.objsInTransaction ≠
        inBootstrap.transaction.objsInTransaction.filter fun e => decide (e.obj ≠ 20) := by
  refine ⟨reachable_inBootstrap, ?_⟩
  have hrun : (unregisterObject bareObjects removingEnv 20 inBootstrap).map
      (fun r => (r.1, r.2.transaction.objsInTransaction)) = some (0, [⟨0, 10⟩]) := by decide +kernel
  obtain ⟨⟨ret, c'⟩, heq, hr⟩ := Option.map_eq_some_iff.mp hrun
  obtain ⟨hret, hobjs⟩ := Prod.mk.inj hr
  obtain rfl : ret = 0 := hret
  refine ⟨c', heq, ?_⟩
  rw [show c'.transaction.objsInTransaction = [⟨0, 10⟩] from hobjs]
  decide +kernel

end Anjay.Dm.ObjectRegistry
