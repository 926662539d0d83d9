/-
  File:      Anjay/AttrStorage/CleanUp.lean
  Subject:   What the Attribute Storage does when it is notified of changes in the data model
             (`as_notify_callback`): entries of what is gone, and of servers that are gone, are removed.

  * `asNotifyCallback_tidy`: the tree stays tidy, also where handlers fail.
  * `asNotifyCallback_exact`: where none does, exactly the stale sets of attributes are removed.
-/
import Mathlib.Data.List.Sort
import Anjay.Dm.Object
import Anjay.Dm.Notify
import Anjay.AttrStorage.Tree

namespace Anjay.AttrStorage

open Lib

variable {σ : Type}

/-! ## 1. The data model -/

/-- The data model as the module sees it: the registered Objects, the reads of integer Resources, and
    whether there is memory for one more SSID after so many. -/
structure Client (σ : Type) where
  state : σ
  findObject : Id → Option (Dm.ObjectDef σ)
  oid_findObject : ∀ oid obj, findObject oid = some obj → obj.oid = oid
  readResourceI64 : Id → Id → Id → Option Int
  allocatesSsid : Nat → Bool

def oidSecurity : Id := 0
def oidServer : Id := 1
def ridSecuritySsid : Id := 10
def ridServerSsid : Id := 0

/-- `is_ssid_reference_object`. -/
def isSsidReferenceObject (oid : Id) : Bool := decide (oid = oidSecurity) || decide (oid = oidServer)

/-- `ssid_rid`, on the two Objects that it is called with. -/
def ssidRid (oid : Id) : Id := if oid = oidSecurity then ridSecuritySsid else ridServerSsid

/-- `query_ssid`. -/
def querySsid (client : Client σ) (oid iid : Id) : Id :=
  if !isSsidReferenceObject oid then 0
  else
    match client.readResourceI64 oid iid (ssidRid oid) with
    | none => 0
    | some ssid =>
        -- most likely a Bootstrap instance
        if ssid ≤ 0 ∨ 65535 ≤ ssid then 0 else Fin.ofNat 65536 ssid.toNat

/-! ## 2. Servers that are gone -/

/-- `remove_attrs_for_servers_not_on_list`: what is left of the list, and whether any set was removed.
    The two lists are walked at once; a set that is left behind by the SSIDs is removed. -/
def removeAttrsForServersNotOnList {α : Type} : List (SsidAttrs α) → List Id → List (SsidAttrs α) × Bool
  | [], _ => ([], false)
  | a :: as, ssids =>
      match ssids.dropWhile fun s => decide (s < a.ssid) with
      | [] => ((removeAttrsForServersNotOnList as []).1, true)
      | s :: rest =>
          if s = a.ssid then
            (a :: (removeAttrsForServersNotOnList as rest).1, (removeAttrsForServersNotOnList as rest).2)
          else ((removeAttrsForServersNotOnList as (s :: rest)).1, true)

/-- The body of the inner loops of `remove_servers_not_on_ssid_list`. -/
def ResourceEntry.removeServers (ssids : List Id) (r : ResourceEntry) : ResourceEntry × Bool :=
  let attrs := removeAttrsForServersNotOnList r.attrs ssids
  ({ r with attrs := attrs.1 }, attrs.2)

def InstanceEntry.removeServers (ssids : List Id) (i : InstanceEntry) : InstanceEntry × Bool :=
  let attrs := removeAttrsForServersNotOnList i.defaultAttrs ssids
  let resources := sweep ResourceEntry.empty (ResourceEntry.removeServers ssids) i.resources
  ({ i with defaultAttrs := attrs.1, resources := resources.1 }, attrs.2 || resources.2)

def ObjectEntry.removeServers (ssids : List Id) (o : ObjectEntry) : ObjectEntry × Bool :=
  let attrs := removeAttrsForServersNotOnList o.defaultAttrs ssids
  let instances := sweep InstanceEntry.empty (InstanceEntry.removeServers ssids) o.instances
  ({ o with defaultAttrs := attrs.1, instances := instances.1 }, attrs.2 || instances.2)

/-- `remove_servers_not_on_ssid_list`. -/
def removeServersNotOnSsidList (as : Storage) (ssids : List Id) : Storage :=
  let objects := sweep ObjectEntry.empty (ObjectEntry.removeServers ssids) as.objects
  { as with objects := objects.1, modifiedSincePersist := as.modifiedSincePersist || objects.2 }

/-! ## 3. Instances and Resources that are gone -/

/-- `_anjay_attr_storage_remove_absent_instances_clb`. -/
def removeAbsentInstancesClb (iid : Id) (instances : Walk InstanceEntry) : Walk InstanceEntry :=
  instances.visit InstanceEntry.iid iid true

/-- `remove_absent_resources_clb`. -/
def removeAbsentResourcesClb (e : Dm.ResourceEntry) (resources : Walk ResourceEntry) : Int × Walk ResourceEntry :=
  (0, resources.visit ResourceEntry.rid e.rid e.present)

/-- `_anjay_attr_storage_remove_absent_resources`: the result, whether anything was removed, and the
    entry, if it is not empty then. -/
def removeAbsentResources (client : Client σ) (obj : Option (Dm.ObjectDef σ)) (i : InstanceEntry) :
    (Int × Bool) × Option InstanceEntry :=
  let r := match obj with
    | none => (0, Walk.start i.resources)
    | some obj => obj.foreachResource client.state i.iid removeAbsentResourcesClb (Walk.start i.resources)
  let walk := if r.1 = 0 then r.2.finish else r.2
  ((r.1, walk.removed), removeIfEmpty InstanceEntry.empty { i with resources := walk.list })

/-- `remove_absent_instances_and_enumerate_ssids_clb`. -/
def removeAbsentInstancesAndEnumerateSsidsClb (client : Client σ) (obj : Dm.ObjectDef σ) (iid : Id)
    (args : Walk InstanceEntry × List Id) : Int × (Walk InstanceEntry × List Id) :=
  let instances := removeAbsentInstancesClb iid args.1
  let ssid := querySsid client obj.oid iid
  if isSsidReferenceObject obj.oid ∧ ssid ≠ 0 then
    if client.allocatesSsid args.2.length then (0, (instances, args.2 ++ [ssid]))
    else (errInternal, (instances, args.2))
  else (0, (instances, args.2))

/-- What `remove_absent_instances` does with the entry that `find_object` finds: the result, whether
    anything was removed, and the SSIDs to which the servers are then restricted, if they are. -/
def removeAbsentInstancesOf (client : Client σ) (oid : Id) (found : Option ObjectEntry) :
    (Int × Bool × Option (List Id)) × Option ObjectEntry :=
  if found.isNone ∧ isSsidReferenceObject oid = false then ((0, false, none), none)
  else
    match client.findObject oid, found with
    | none, some _ => ((0, true, none), none)
    -- an attempt to iterate through a NULL Object
    | none, none => ((-1, false, none), none)
    | some obj, found =>
        let r := obj.foreachInstance client.state (removeAbsentInstancesAndEnumerateSsidsClb client obj)
          (Walk.start (found.elim [] ObjectEntry.instances), [])
        let walk := if r.1 = 0 then r.2.1.finish else r.2.1
        ((r.1, walk.removed,
            if r.1 = 0 ∧ isSsidReferenceObject oid then some (r.2.2.insertionSort (· ≤ ·)) else none),
          found.bind fun o => removeIfEmpty ObjectEntry.empty { o with instances := walk.list })

/-- `remove_absent_instances`. -/
def removeAbsentInstances (client : Client σ) (as : Storage) (oid : Id) : Int × Storage :=
  let r := withEntry ObjectEntry.oid oid (removeAbsentInstancesOf client oid) as.objects
  let as := { as with
    objects := r.2
    modifiedSincePersist := as.modifiedSincePersist || r.1.2.1 }
  match r.1.2.2 with
  | none => (r.1.1, as)
  | some ssids => (r.1.1, removeServersNotOnSsidList as ssids)

/-- What `remove_absent_resources` does with the entry that `find_instance` finds. -/
def removeAbsentResourcesOf (client : Client σ) (obj : Option (Dm.ObjectDef σ)) (found : Option InstanceEntry) :
    (Int × Bool) × Option InstanceEntry :=
  match found, obj with
  | some i, some obj => removeAbsentResources client (some obj) i
  | found, _ => ((0, false), found)

/-- `remove_absent_resources`. -/
def ObjectEntry.removeAbsentResources (client : Client σ) (obj : Option (Dm.ObjectDef σ)) (iid : Id)
    (o : ObjectEntry) : (Int × Bool) × ObjectEntry :=
  let r := withEntry InstanceEntry.iid iid (removeAbsentResourcesOf client obj) o.instances
  (r.1, { o with instances := r.2 })

/-- The loop of `as_notify_callback` over `resources_changed`; `last` is `last_iid`. -/
def removeAbsentResourcesLoop (client : Client σ) (obj : Option (Dm.ObjectDef σ)) :
    List Dm.NotifyResource → Id → Int × Bool → ObjectEntry → (Int × Bool) × ObjectEntry
  | [], _, result, o => (result, o)
  | e :: es, last, result, o =>
      if e.iid ≠ last then
        let r := o.removeAbsentResources client obj e.iid
        removeAbsentResourcesLoop client obj es e.iid (updateRet result.1 r.1.1, result.2 || r.1.2) r.2
      else removeAbsentResourcesLoop client obj es e.iid result o

/-- One round of the loop of `as_notify_callback` over the queue. -/
def notifyObject (client : Client σ) (e : Dm.NotifyObject) (result : Int) (as : Storage) : Int × Storage :=
  let r := removeAbsentInstances client as e.oid
  let result := updateRet result r.1
  if r.1 ≠ 0 then (result, r.2)
  else
    r.2.replace <| withEntry ObjectEntry.oid e.oid (fun found =>
      match found with
      | none => ((result, false), none)
      | some o =>
          let r := removeAbsentResourcesLoop client (client.findObject e.oid) e.resourcesChanged idInvalid
            (result, false) o
          (r.1, removeIfEmpty ObjectEntry.empty r.2)) r.2.objects

/-- `as_notify_callback`. -/
def asNotifyCallback (client : Client σ) (queue : Dm.NotifyQueue) (as : Storage) : Int × Storage :=
  queue.entries.foldl (fun r e => notifyObject client e r.1 r.2) (0, as)

/-! ## 4. The tree stays tidy -/

theorem removeAttrs_sublist {α : Type} : ∀ (as : List (SsidAttrs α)) (ssids : List Id),
    (removeAttrsForServersNotOnList as ssids).1.Sublist as
  | [], _ => List.Sublist.refl _
  | a :: as, ssids => by
      rw [removeAttrsForServersNotOnList]
      split
      · exact (removeAttrs_sublist as []).cons a
      split
      · exact (removeAttrs_sublist as _).cons_cons a
      · exact (removeAttrs_sublist as _).cons a

section Tidy

variable {P : ResourceEntry → Prop}

theorem InstanceEntry.removeServers_sane (hP : ResourceRule P) (ssids : List Id) {i : InstanceEntry}
    (h : i.Sane P) : (i.removeServers ssids).1.Sane P :=
  ⟨h.defaultAttrs.sublist (removeAttrs_sublist _ _), h.resources.sweep hP.filled fun r hr =>
    ⟨rfl, (hP.sane r hr).sublist (removeAttrs_sublist _ _)⟩⟩

theorem ObjectEntry.removeServers_sane (hP : ResourceRule P) (ssids : List Id) {o : ObjectEntry}
    (h : o.Sane P) : (o.removeServers ssids).1.Sane P :=
  ⟨h.defaultAttrs.sublist (removeAttrs_sublist _ _), h.instances.sweep (fun _ => .mk) fun _ hi =>
    ⟨rfl, InstanceEntry.removeServers_sane hP ssids hi.toSane⟩⟩

theorem removeServersNotOnSsidList_tidy (hP : ResourceRule P) {as : Storage} (h : Tidy P as.objects)
    (ssids : List Id) : Tidy P (removeServersNotOnSsidList as ssids).objects :=
  Level.sweep h (fun _ => .mk) fun _ ho => ⟨rfl, ObjectEntry.removeServers_sane hP ssids ho.toSane⟩

theorem foreachResource_sublist (client : Client σ) (obj : Dm.ObjectDef σ) (iid : Id)
    (resources : List ResourceEntry) :
    (obj.foreachResource client.state iid removeAbsentResourcesClb (Walk.start resources)).2.list.Sublist
      resources :=
  Dm.foreach_preserves (fun w => w.list.Sublist resources)
    (fun e w hw => (Walk.visit_sublist e.rid e.present w).trans hw) _ (List.Sublist.refl _)

theorem removeAbsentResources_tidy {i i' : InstanceEntry} (h : i.Sane P) {client : Client σ}
    {obj : Option (Dm.ObjectDef σ)} (hi : (removeAbsentResources client obj i).2 = some i') :
    i'.iid = i.iid ∧ i'.Tidy P := by
  obtain ⟨hne, rfl⟩ := removeIfEmpty_eq_some.mp hi
  refine ⟨rfl, ⟨h.defaultAttrs, h.resources.sublist ?_⟩, hne⟩
  cases obj with
  | none => exact Walk.finish_sublist _
  | some obj =>
      have hwalk := foreachResource_sublist client obj i.iid i.resources
      dsimp only
      split
      · exact (Walk.finish_sublist _).trans hwalk
      · exact hwalk

theorem ObjectEntry.removeAbsentResources_sane {o : ObjectEntry} (h : o.Sane P) (client : Client σ)
    (obj : Option (Dm.ObjectDef σ)) (iid : Id) :
    (o.removeAbsentResources client obj iid).2.oid = o.oid ∧ (o.removeAbsentResources client obj iid).2.Sane P := by
  refine ⟨rfl, h.defaultAttrs, h.instances.withEntry fun e i he hi => ?_⟩
  unfold removeAbsentResourcesOf at hi
  split at hi
  · next i₀ obj₀ =>
    obtain ⟨htidy, hiid⟩ := he i₀ rfl
    obtain ⟨hiid', htidy'⟩ := removeAbsentResources_tidy htidy.toSane hi
    exact ⟨hiid'.trans hiid, htidy'⟩
  · obtain ⟨htidy, hiid⟩ := he i hi
    exact ⟨hiid, htidy⟩

theorem removeAbsentResourcesLoop_sane (client : Client σ) (obj : Option (Dm.ObjectDef σ)) :
    ∀ (es : List Dm.NotifyResource) (last : Id) (result : Int × Bool) {o : ObjectEntry}, o.Sane P →
      (removeAbsentResourcesLoop client obj es last result o).2.oid = o.oid ∧
        (removeAbsentResourcesLoop client obj es last result o).2.Sane P
  | [], _, _, _, h => ⟨rfl, h⟩
  | e :: es, last, result, o, h => by
      rw [removeAbsentResourcesLoop]
      split
      · exact removeAbsentResourcesLoop_sane client obj es e.iid _
          (ObjectEntry.removeAbsentResources_sane h client obj e.iid).2
      · exact removeAbsentResourcesLoop_sane client obj es e.iid result h

theorem foreachInstance_sublist (client : Client σ) (obj : Dm.ObjectDef σ) (instances : List InstanceEntry) :
    (obj.foreachInstance client.state (removeAbsentInstancesAndEnumerateSsidsClb client obj)
      (Walk.start instances, [])).2.1.list.Sublist instances := by
  refine Dm.foreach_preserves (fun args : Walk InstanceEntry × List Id => args.1.list.Sublist instances)
    (fun iid args hargs => ?_) _ (List.Sublist.refl _)
  have hstep : (removeAbsentInstancesClb iid args.1).list.Sublist instances :=
    (Walk.visit_sublist iid true args.1).trans hargs
  unfold removeAbsentInstancesAndEnumerateSsidsClb
  dsimp only
  split
  · split <;> exact hstep
  · exact hstep

theorem removeAbsentInstancesOf_tidy {client : Client σ} {oid : Id} {found : Option ObjectEntry}
    {o : ObjectEntry} (h : ∀ o, found = some o → o.Sane P)
    (ho : (removeAbsentInstancesOf client oid found).2 = some o) :
    ∃ o₀, found = some o₀ ∧ o.oid = o₀.oid ∧ o.Tidy P := by
  unfold removeAbsentInstancesOf at ho
  split at ho
  · cases ho
  split at ho
  · cases ho
  · cases ho
  next obj found hobj =>
  obtain ⟨o₀, rfl, ho⟩ := Option.bind_eq_some_iff.mp ho
  obtain ⟨hne, rfl⟩ := removeIfEmpty_eq_some.mp ho
  have hwalk := foreachInstance_sublist client obj o₀.instances
  have hsane := h o₀ rfl
  refine ⟨o₀, rfl, rfl, ⟨hsane.defaultAttrs, hsane.instances.sublist ?_⟩, hne⟩
  dsimp only
  split
  · exact (Walk.finish_sublist _).trans hwalk
  · exact hwalk

theorem withEntry_removeAbsentInstancesOf_tidy (client : Client σ) {objects : List ObjectEntry}
    (h : Tidy P objects) (oid : Id) :
    Tidy P (withEntry ObjectEntry.oid oid (removeAbsentInstancesOf client oid) objects).2 := by
  refine Level.withEntry h fun e b he hb => ?_
  obtain ⟨o, rfl, hoid, htidy⟩ := removeAbsentInstancesOf_tidy (fun o ho => (he o ho).1.toSane) hb
  exact ⟨hoid.trans (he o rfl).2, htidy⟩

theorem removeAbsentInstances_tidy (hP : ResourceRule P) (client : Client σ) {as : Storage}
    (h : Tidy P as.objects) (oid : Id) : Tidy P (removeAbsentInstances client as oid).2.objects := by
  have hobjects := withEntry_removeAbsentInstancesOf_tidy client h oid
  unfold removeAbsentInstances
  dsimp only
  split
  · exact hobjects
  · exact removeServersNotOnSsidList_tidy hP hobjects _

theorem notifyObject_tidy (hP : ResourceRule P) (client : Client σ) (e : Dm.NotifyObject) (result : Int)
    {as : Storage} (h : Tidy P as.objects) : Tidy P (notifyObject client e result as).2.objects := by
  have hinstances := removeAbsentInstances_tidy hP client h e.oid
  unfold notifyObject
  dsimp only
  split
  · exact hinstances
  refine Level.withEntry hinstances fun found b hfound hb => ?_
  split at hb
  · cases hb
  next o =>
  obtain ⟨hne, rfl⟩ := removeIfEmpty_eq_some.mp hb
  obtain ⟨htidy, hoid⟩ := hfound o rfl
  obtain ⟨hoid', hsane⟩ := removeAbsentResourcesLoop_sane client (client.findObject e.oid) e.resourcesChanged
    idInvalid (updateRet result (removeAbsentInstances client as e.oid).1, false) htidy.toSane
  exact ⟨hoid'.trans hoid, hsane, hne⟩

/-- **A clean-up keeps the tree tidy**, also where handlers of the data model fail. -/
theorem asNotifyCallback_tidy (hP : ResourceRule P) (client : Client σ) (queue : Dm.NotifyQueue)
    {as : Storage} (h : Tidy P as.objects) : Tidy P (asNotifyCallback client queue as).2.objects := by
  have hfold : ∀ (es : List Dm.NotifyObject) (r : Int × Storage), Tidy P r.2.objects →
      Tidy P (es.foldl (fun r e => notifyObject client e r.1 r.2) r).2.objects := by
    intro es
    induction es with
    | nil => exact fun r hr => hr
    | cons e es ih => exact fun r hr => ih _ (notifyObject_tidy hP client e r.1 hr)
  exact hfold queue.entries (0, as) h

end Tidy

/-! ## 5. Data models whose handlers succeed -/

/-- The list handlers return no error, and emit ids in strictly ascending order. -/
structure Client.Lists (client : Client σ) : Prop where
  instances : ∀ oid obj, client.findObject oid = some obj →
    Dm.Ascending id (-1) (obj.listInstances client.state).1 ∧ 0 ≤ (obj.listInstances client.state).2
  resources : ∀ oid obj, client.findObject oid = some obj → ∀ iid ∈ (obj.listInstances client.state).1,
    Dm.Ascending Dm.ResourceEntry.rid (-1) (obj.listResources client.state iid).1 ∧
      0 ≤ (obj.listResources client.state iid).2

/-- There is memory for the SSIDs too. -/
structure Client.Sound (client : Client σ) : Prop extends client.Lists where
  allocates : ∀ n, client.allocatesSsid n = true

/-- The Instances that the list handler of the Object emits, if it is registered. -/
def Client.instanceIds (client : Client σ) (oid : Id) : List Id :=
  (client.findObject oid).elim [] fun obj => (obj.listInstances client.state).1

/-- The list handler of the Object emits the Resource as present, if the Object is registered. -/
def Client.resourcePresent (client : Client σ) (oid iid rid : Id) : Bool :=
  (client.findObject oid).any fun obj =>
    (obj.listResources client.state iid).1.any fun e => decide (e.rid = rid) && e.present

/-- The SSIDs that the Instances of the Object stand for. -/
def Client.ssids (client : Client σ) (oid : Id) : List Id :=
  ((client.instanceIds oid).map (querySsid client oid)).filter fun s => decide (s ≠ 0)

/-- The server of the set is one of `ssids`. -/
def Stored.knownBy (ssids : List Id) (s : Stored) : Bool := ssids.contains s.ssid

/-- The Instance of the set, if it is one of an Instance or a Resource, is there. -/
def Stored.instanceIn (iids : List Id) : Stored → Bool
  | object _ _ _ => true
  | inst _ iid _ _ | resource _ iid _ _ _ => iids.contains iid

/-- The Resource of the set, if it is one of a Resource of this Instance, is there. -/
def Stored.resourceIn (present : Id → Bool) (iid : Id) : Stored → Bool
  | object _ _ _ | inst _ _ _ _ => true
  | resource _ iid' rid _ _ => decide (iid' ≠ iid) || present rid

/-- **The stale sets**: where the Object is in the queue, those of the Object if it is not registered,
    of its Instances that are gone, and of the Resources that are gone from an Instance with a change;
    where it is Security or Server and registered, those of servers it does not know. -/
def staleBy (client : Client σ) (e : Dm.NotifyObject) (s : Stored) : Bool :=
  (decide (s.oid = e.oid) &&
    ((client.findObject e.oid).isNone || !s.instanceIn (client.instanceIds e.oid) ||
      e.resourcesChanged.any fun r => !s.resourceIn (client.resourcePresent e.oid r.iid) r.iid)) ||
  (isSsidReferenceObject e.oid && (client.findObject e.oid).isSome && !s.knownBy (client.ssids e.oid))

/-! ## 6. Exactly the stale sets are removed -/

theorem removeAttrs_eq {α : Type} : ∀ {as : List (SsidAttrs α)} {ssids : List Id},
    Sorted SsidAttrs.ssid as → ssids.Pairwise (· ≤ ·) →
      (removeAttrsForServersNotOnList as ssids).1 = as.filter fun a => ssids.contains a.ssid
  | [], _, _, _ => rfl
  | a :: as, ssids, hs, hssids => by
      obtain ⟨hlt, htail⟩ := List.pairwise_cons.mp hs
      -- SSIDs before that of the set play no part from here on
      have hdrop : ∀ b ∈ a :: as, ssids.contains b.ssid =
          (ssids.dropWhile fun s => decide (s < a.ssid)).contains b.ssid := by
        intro b hb
        have hle : a.ssid ≤ b.ssid := by
          rcases List.mem_cons.mp hb with rfl | hb
          · exact le_refl _
          · exact (hlt b hb).le
        conv_lhs => rw [← List.takeWhile_append_dropWhile (p := fun s => decide (s < a.ssid)) (l := ssids)]
        rw [List.contains_append, Bool.or_eq_right_iff_imp.mpr]
        intro hbefore
        have hmem := List.contains_iff_mem.mp hbefore
        have : b.ssid < a.ssid :=
          of_decide_eq_true (List.mem_takeWhile_imp (p := fun s => decide (s < a.ssid)) hmem)
        exact absurd this (not_lt.mpr hle)
      have hdropped : (ssids.dropWhile fun s => decide (s < a.ssid)).Pairwise (· ≤ ·) :=
        hssids.sublist (List.dropWhile_sublist _)
      rw [List.filter_congr hdrop, removeAttrsForServersNotOnList]
      cases hss : ssids.dropWhile fun s => decide (s < a.ssid) with
      | nil =>
          dsimp only
          rw [removeAttrs_eq htail List.Pairwise.nil]
          rfl
      | cons s rest =>
          rw [hss] at hdropped
          have hge : a.ssid ≤ s := by
            have := List.head_dropWhile_not (fun s => decide (s < a.ssid)) (l := ssids)
              (by rw [hss]; exact List.cons_ne_nil s rest)
            simpa [hss] using this
          dsimp only
          split
          · next heq =>
            subst heq
            rw [List.filter_cons_of_pos (by simp), removeAttrs_eq htail (List.pairwise_cons.mp hdropped).2]
            refine congrArg (a :: ·) (List.filter_congr fun b hb => ?_)
            have hne : b.ssid ≠ a.ssid := (hlt b hb).ne'
            simp [hne]
          · next hne =>
            have hnot : (s :: rest).contains a.ssid = false := by
              have hbehind : ∀ t ∈ s :: rest, a.ssid ≠ t := by
                intro t ht
                have hst : s ≤ t := by
                  rcases List.mem_cons.mp ht with rfl | ht
                  · exact le_refl _
                  · exact (List.pairwise_cons.mp hdropped).1 t ht
                exact ((lt_of_le_of_ne hge (Ne.symm hne)).trans_le hst).ne
              exact Bool.eq_false_iff.mpr fun h => hbehind a.ssid (List.contains_iff_mem.mp h) rfl
            rw [List.filter_cons_of_neg (by rw [hnot]; exact Bool.false_ne_true), removeAttrs_eq htail hdropped]

section Servers

variable {ssids : List Id} (hssids : ssids.Pairwise (· ≤ ·))

include hssids

theorem map_removeAttrs {α : Type} {isEmpty : α → Bool} {as : List (SsidAttrs α)} (h : AttrsSane isEmpty as)
    {f : SsidAttrs α → Stored} (hf : ∀ a, (f a).ssid = a.ssid) :
    (removeAttrsForServersNotOnList as ssids).1.map f = (as.map f).filter (Stored.knownBy ssids) := by
  rw [removeAttrs_eq h.sorted hssids, List.filter_map]
  refine congrArg (List.map f) (List.filter_congr fun a _ => ?_)
  simp only [Function.comp, Stored.knownBy, hf]

theorem ResourceEntry.stored_removeServers (oid iid : Id) {r : ResourceEntry} (h : r.Sane) :
    (r.removeServers ssids).1.stored oid iid = (r.stored oid iid).filter (Stored.knownBy ssids) :=
  map_removeAttrs hssids h fun _ => rfl

variable {P : ResourceEntry → Prop} (hP : ResourceRule P)

include hP

theorem InstanceEntry.stored_removeServers (oid : Id) {i : InstanceEntry} (h : i.Sane P) :
    (i.removeServers ssids).1.stored oid = (i.stored oid).filter (Stored.knownBy ssids) := by
  have hattrs := map_removeAttrs hssids h.defaultAttrs
    (fun a => (rfl : (Stored.inst oid i.iid a.ssid a.attrs).ssid = a.ssid))
  have hresources := flatMap_filterMap_eq_filter (ResourceEntry.stored oid i.iid)
    (p := Stored.knownBy ssids) (g := fun r => removeIfEmpty ResourceEntry.empty (r.removeServers ssids).1)
    fun r (hr : r ∈ i.resources) => by
      rw [elim_removeIfEmpty (ResourceEntry.stored oid i.iid) ResourceEntry.stored_of_empty]
      exact ResourceEntry.stored_removeServers hssids oid i.iid (hP.sane r (h.resources.all r hr))
  rw [stored, stored, List.filter_append, ← hattrs, ← hresources]
  rfl

theorem ObjectEntry.stored_removeServers {o : ObjectEntry} (h : o.Sane P) :
    (o.removeServers ssids).1.stored = o.stored.filter (Stored.knownBy ssids) := by
  have hattrs := map_removeAttrs hssids h.defaultAttrs
    (fun a => (rfl : (Stored.object o.oid a.ssid a.attrs).ssid = a.ssid))
  have hinstances := flatMap_filterMap_eq_filter (InstanceEntry.stored o.oid)
    (p := Stored.knownBy ssids) (g := fun i => removeIfEmpty InstanceEntry.empty (i.removeServers ssids).1)
    fun i (hi : i ∈ o.instances) => by
      rw [elim_removeIfEmpty (InstanceEntry.stored o.oid) InstanceEntry.stored_of_empty]
      exact InstanceEntry.stored_removeServers hssids hP o.oid (h.instances.all i hi).toSane
  rw [stored, stored, List.filter_append, ← hattrs, ← hinstances]
  rfl

/-- **The sets of the servers that are not on the list are removed, at every level.** -/
theorem stored_removeServersNotOnSsidList {as : Storage} (h : Tidy P as.objects) :
    stored (removeServersNotOnSsidList as ssids).objects =
      (stored as.objects).filter (Stored.knownBy ssids) := by
  refine flatMap_filterMap_eq_filter ObjectEntry.stored fun o ho => ?_
  rw [elim_removeIfEmpty ObjectEntry.stored ObjectEntry.stored_of_empty]
  exact ObjectEntry.stored_removeServers hssids hP (h.all o ho).toSane

end Servers

section Sound

variable {client : Client σ} (hc : client.Sound) {P : ResourceEntry → Prop}

include hc

/-- What the enumeration of the Instances leaves: the walk over the entries, and the SSIDs. -/
theorem foreachInstance_eq {oid : Id} {obj : Dm.ObjectDef σ} (hobj : client.findObject oid = some obj)
    (instances : List InstanceEntry) :
    obj.foreachInstance client.state (removeAbsentInstancesAndEnumerateSsidsClb client obj)
        (Walk.start instances, []) =
      (0, (obj.listInstances client.state).1.foldl (fun w iid => w.visit InstanceEntry.iid iid true)
          (Walk.start instances),
        if isSsidReferenceObject oid then client.ssids oid else []) := by
  obtain ⟨hasc, hcode⟩ := hc.instances oid obj hobj
  have hoid := client.oid_findObject oid obj hobj
  -- the callback, when memory is allocated
  have hclb : ∀ iid args, removeAbsentInstancesAndEnumerateSsidsClb client obj iid args =
      (0, args.1.visit InstanceEntry.iid iid true, args.2 ++
        if isSsidReferenceObject oid then [querySsid client oid iid].filter fun s => decide (s ≠ 0) else []) := by
    intro iid args
    unfold removeAbsentInstancesAndEnumerateSsidsClb removeAbsentInstancesClb
    simp only [hoid, hc.allocates, if_true]
    by_cases href : isSsidReferenceObject oid = true
    · by_cases hz : querySsid client oid iid = 0 <;> simp [href, hz]
    · simp [href]
  have hfold : ∀ (iids : List Id) (w : Walk InstanceEntry) (acc : List Id),
      iids.foldl (fun t a => (removeAbsentInstancesAndEnumerateSsidsClb client obj a t).2) (w, acc) =
        (iids.foldl (fun w iid => w.visit InstanceEntry.iid iid true) w, acc ++
          if isSsidReferenceObject oid then
            (iids.map (querySsid client oid)).filter fun s => decide (s ≠ 0) else []) := by
    intro iids
    induction iids with
    | nil => intro w acc; simp
    | cons iid iids ih =>
        intro w acc
        rw [List.foldl_cons, hclb, ih, List.foldl_cons, List.append_assoc]
        by_cases href : isSsidReferenceObject oid = true
        · simp only [if_pos href]
          rw [← List.filter_append]
          rfl
        · simp only [if_neg href]
          rfl
  have h0 : ∀ iid args, (removeAbsentInstancesAndEnumerateSsidsClb client obj iid args).1 = 0 :=
    fun iid args => by rw [hclb]
  rw [Dm.ObjectDef.foreachInstance, Dm.foreach_foldl h0 hasc hcode, hfold, List.nil_append]
  rw [Client.ssids, Client.instanceIds, hobj]
  rfl

omit hc in
theorem Stored.instanceIn_of_mem {oid : Id} {i : InstanceEntry} {s : Stored} (h : s ∈ i.stored oid)
    (iids : List Id) : s.instanceIn iids = iids.contains i.iid := by
  rcases List.mem_append.mp h with h | h
  · obtain ⟨a, -, rfl⟩ := List.mem_map.mp h
    rfl
  · obtain ⟨r, -, h⟩ := List.mem_flatMap.mp h
    obtain ⟨a, -, rfl⟩ := List.mem_map.mp h
    rfl

/-- The entry with the Instances that are in the list. -/
def ObjectEntry.restrict (iids : List Id) (o : ObjectEntry) : ObjectEntry :=
  { o with instances := o.instances.filter fun i => iids.contains i.iid }

omit hc in
theorem ObjectEntry.stored_restrict (iids : List Id) (o : ObjectEntry) :
    (o.restrict iids).stored = o.stored.filter (Stored.instanceIn iids) := by
  rw [stored, stored, List.filter_append, filter_map_of_forall fun _ => rfl,
    ← flatMap_filter_eq_filter fun i _ s hs => Stored.instanceIn_of_mem hs iids]
  rfl

omit hc in
/-- The walk over the entries leaves those of the Instances that are met. -/
theorem foldl_visit_instances {iids : List Id} (hasc : iids.Pairwise fun a b => a < b)
    {instances : List InstanceEntry} (hs : Sorted InstanceEntry.iid instances) :
    (iids.foldl (fun w iid => w.visit InstanceEntry.iid iid true) (Walk.start instances)).finish.list =
      instances.filter fun i => iids.contains i.iid := by
  have hmet : ∀ iid, Walk.met id (fun _ => true) iids iid = iids.contains iid := by
    intro iid
    rw [Bool.eq_iff_iff, Walk.met_eq_true, List.contains_iff_mem]
    exact ⟨fun ⟨e, he, heq, _⟩ => heq ▸ he, fun h => ⟨iid, h, rfl, rfl⟩⟩
  have hkept := Walk.foldl_visit id (fun _ => true) (Walk.start instances) hs hasc
  rw [Walk.list, Walk.finish, List.append_nil]
  exact hkept.trans (List.filter_congr fun i _ => hmet i.iid)

theorem removeAbsentInstancesOf_eq {oid : Id} {obj : Dm.ObjectDef σ}
    (hobj : client.findObject oid = some obj) (found : Option ObjectEntry)
    (hfound : found.isNone = true → isSsidReferenceObject oid = true)
    (hsorted : ∀ o, found = some o → Sorted InstanceEntry.iid o.instances) :
    (removeAbsentInstancesOf client oid found).1.1 = 0 ∧
      (removeAbsentInstancesOf client oid found).1.2.2 =
        (if isSsidReferenceObject oid then some ((client.ssids oid).insertionSort (· ≤ ·)) else none) ∧
      (removeAbsentInstancesOf client oid found).2 = found.bind fun o =>
        removeIfEmpty ObjectEntry.empty (o.restrict (client.instanceIds oid)) := by
  obtain ⟨hasc, -⟩ := hc.instances oid obj hobj
  have hno : ¬ (found.isNone = true ∧ isSsidReferenceObject oid = false) := by
    intro ⟨hnone, href⟩
    rw [hfound hnone] at href
    cases href
  have hids : client.instanceIds oid = (obj.listInstances client.state).1 := by
    rw [Client.instanceIds, hobj]
    rfl
  have hasc' : (client.instanceIds oid).Pairwise fun a b => a < b := hids ▸ hasc.2
  unfold removeAbsentInstancesOf
  rw [if_neg hno, hobj]
  simp only [foreachInstance_eq hc hobj, if_true, ← hids]
  refine ⟨trivial, ?_, ?_⟩
  · by_cases href : isSsidReferenceObject oid = true <;> simp [href]
  · cases found with
    | none => rfl
    | some o =>
        exact congrArg (fun l => removeIfEmpty ObjectEntry.empty { o with instances := l })
          (foldl_visit_instances hasc' (hsorted o rfl))

/-- What `remove_absent_instances` keeps. -/
def keptInstances (client : Client σ) (oid : Id) (s : Stored) : Bool :=
  (decide (s.oid ≠ oid) || ((client.findObject oid).isSome && s.instanceIn (client.instanceIds oid))) &&
    (!(isSsidReferenceObject oid && (client.findObject oid).isSome) || s.knownBy (client.ssids oid))

/-- **The Instances that are gone are removed, or the whole Object, and the servers that are gone.** -/
theorem stored_removeAbsentInstances (hP : ResourceRule P) {as : Storage} (h : Tidy P as.objects) (oid : Id) :
    stored (removeAbsentInstances client as oid).2.objects =
      (stored as.objects).filter (keptInstances client oid) := by
  have hnone : (removeAbsentInstancesOf client oid none).2 = none := by
    unfold removeAbsentInstancesOf
    split
    · rfl
    split <;> rfl
  -- the walk over the Objects, as far as this one is concerned
  have hwalk : stored (withEntry ObjectEntry.oid oid (removeAbsentInstancesOf client oid) as.objects).2 =
      (stored as.objects).filter fun s => decide (s.oid ≠ oid) ||
        ((client.findObject oid).isSome && s.instanceIn (client.instanceIds oid)) := by
    rw [withEntry_filterMap hnone h.sorted]
    refine flatMap_filterMap_eq_filter ObjectEntry.stored fun o ho => ?_
    have hoid : ∀ s ∈ o.stored, s.oid = o.oid := fun s => ObjectEntry.oid_of_mem_stored
    by_cases heq : o.oid = oid
    · rw [if_pos heq]
      cases hobj : client.findObject oid with
      | none =>
          have hgone : (removeAbsentInstancesOf client oid (some o)).2 = none := by
            unfold removeAbsentInstancesOf
            rw [if_neg (fun h => absurd h.1 Bool.false_ne_true), hobj]
          rw [hgone]
          refine (List.filter_eq_nil_iff.mpr fun s hs => ?_).symm
          simp [hoid s hs, heq]
      | some obj =>
          obtain ⟨-, -, hkeep⟩ := removeAbsentInstancesOf_eq hc hobj (some o)
            (fun h => absurd h Bool.false_ne_true) fun o' ho' => by
              cases ho'
              exact (h.all o ho).instances.sorted
          rw [hkeep, Option.bind_some, elim_removeIfEmpty ObjectEntry.stored ObjectEntry.stored_of_empty,
            ObjectEntry.stored_restrict]
          refine List.filter_congr fun s hs => ?_
          simp [hoid s hs, heq]
    · rw [if_neg heq]
      refine (List.filter_eq_self.mpr fun s hs => ?_).symm
      simp [hoid s hs, heq]
  have htidy := withEntry_removeAbsentInstancesOf_tidy client h oid
  have hfst := withEntry_fst oid (removeAbsentInstancesOf client oid) h.sorted
  unfold removeAbsentInstances
  dsimp only
  rw [hfst]
  obtain ⟨found, hfound⟩ : ∃ found, found = as.objects.find? fun o => decide (o.oid = oid) := ⟨_, rfl⟩
  rw [← hfound]
  by_cases hpresent : found.isNone = true ∧ isSsidReferenceObject oid = false
  · rw [show removeAbsentInstancesOf client oid found = _ from if_pos hpresent]
    refine hwalk.trans (List.filter_congr fun s _ => ?_)
    simp [keptInstances, hpresent.2]
  cases hobj : client.findObject oid with
  | none =>
      have hssids : (removeAbsentInstancesOf client oid found).1.2.2 = none := by
        unfold removeAbsentInstancesOf
        rw [if_neg hpresent, hobj]
        cases found <;> rfl
      rw [hssids]
      refine hwalk.trans (List.filter_congr fun s _ => ?_)
      simp [keptInstances, hobj]
  | some obj =>
      obtain ⟨-, hssids, -⟩ := removeAbsentInstancesOf_eq hc hobj found
        (fun hn => by simpa [hn] using hpresent) fun o ho =>
          (h.all o (List.mem_of_find?_eq_some (hfound.symm.trans ho))).instances.sorted
      rw [hssids]
      by_cases href : isSsidReferenceObject oid = true
      · rw [if_pos href]
        dsimp only
        rw [stored_removeServersNotOnSsidList (List.pairwise_insertionSort _ _) hP htidy, hwalk,
          List.filter_filter]
        refine List.filter_congr fun s _ => ?_
        have hknown : s.knownBy ((client.ssids oid).insertionSort (· ≤ ·)) = s.knownBy (client.ssids oid) := by
          rw [Stored.knownBy, Stored.knownBy, Bool.eq_iff_iff, List.contains_iff_mem, List.contains_iff_mem]
          exact List.mem_insertionSort _
        rw [hknown]
        simp [keptInstances, hobj, href, Bool.and_comm]
      · rw [if_neg href]
        refine hwalk.trans (List.filter_congr fun s _ => ?_)
        simp [keptInstances, href]

end Sound

/-! ## 7. Resources that are gone -/

theorem Stored.resourceIn_of_mem {oid : Id} {i : InstanceEntry} {s : Stored} (h : s ∈ i.stored oid)
    (present : Id → Bool) {iid : Id} (hne : i.iid ≠ iid) : s.resourceIn present iid = true := by
  rcases List.mem_append.mp h with h | h
  · obtain ⟨a, -, rfl⟩ := List.mem_map.mp h
    rfl
  · obtain ⟨r, -, h⟩ := List.mem_flatMap.mp h
    obtain ⟨a, -, rfl⟩ := List.mem_map.mp h
    simp [resourceIn, hne]

/-- Something is stored in every Instance of a canonical tree. -/
theorem InstanceEntry.stored_ne_nil {i : InstanceEntry} (h : i.Tidy ResourceEntry.Canonical) (oid : Id) :
    i.stored oid ≠ [] := by
  intro hnil
  obtain ⟨hattrs, hresources⟩ := List.append_eq_nil_iff.mp hnil
  have hempty : i.empty = true := by
    rw [InstanceEntry.empty, List.map_eq_nil_iff.mp hattrs]
    cases hr : i.resources with
    | nil => rfl
    | cons r rs =>
        have hmem : r ∈ i.resources := hr ▸ List.mem_cons_self
        have hstored := List.flatMap_eq_nil_iff.mp hresources r hmem
        have hfilled := (h.resources.all r hmem).filled
        rw [ResourceEntry.empty, List.map_eq_nil_iff.mp hstored] at hfilled
        cases hfilled
  rw [h.filled] at hempty
  cases hempty

theorem InstanceEntry.stored_filter_resources (oid : Id) (present : Id → Bool) (i : InstanceEntry) :
    ({ i with resources := (i.resources.filter fun r => present r.rid) } : InstanceEntry).stored oid =
      (i.stored oid).filter (Stored.resourceIn present i.iid) := by
  have hres : ∀ r ∈ i.resources, ∀ s ∈ r.stored oid i.iid,
      s.resourceIn present i.iid = present r.rid := by
    intro r _ s hs
    obtain ⟨a, -, rfl⟩ := List.mem_map.mp hs
    simp [Stored.resourceIn]
  rw [stored, stored, List.filter_append, filter_map_of_forall fun _ => rfl, ← flatMap_filter_eq_filter hres]

/-- The entry without the Resources that are gone, if anything is left of it. -/
def InstanceEntry.prune (client : Client σ) (oid : Id) (i : InstanceEntry) : Option InstanceEntry :=
  removeIfEmpty InstanceEntry.empty
    { i with resources := (i.resources.filter fun r => client.resourcePresent oid i.iid r.rid) }

theorem InstanceEntry.elim_prune (client : Client σ) (oid : Id) (i : InstanceEntry) :
    (i.prune client oid).elim [] (InstanceEntry.stored oid) =
      (i.stored oid).filter (Stored.resourceIn (client.resourcePresent oid i.iid) i.iid) := by
  rw [prune, elim_removeIfEmpty (InstanceEntry.stored oid) InstanceEntry.stored_of_empty]
  exact InstanceEntry.stored_filter_resources oid _ i

/-- **Where the Resources of an Instance can be listed, exactly those that are gone are removed.** -/
theorem removeAbsentResources_prune {client : Client σ} {oid : Id} {obj : Dm.ObjectDef σ}
    (hobj : client.findObject oid = some obj) {i : InstanceEntry} (hi : Sorted ResourceEntry.rid i.resources)
    (hret : (removeAbsentResources client (some obj) i).1.1 = 0) :
    (removeAbsentResources client (some obj) i).2 = i.prune client oid := by
  obtain ⟨hasc, hcode⟩ := Dm.ascending_of_foreach (fun e w => (rfl : (removeAbsentResourcesClb e w).1 = 0)) hret
  have hforeach : obj.foreachResource client.state i.iid removeAbsentResourcesClb (Walk.start i.resources) =
      (0, (obj.listResources client.state i.iid).1.foldl
        (fun w e => w.visit ResourceEntry.rid e.rid e.present) (Walk.start i.resources)) :=
    Dm.foreach_foldl (fun _ _ => rfl) hasc hcode _
  have hkept := Walk.foldl_visit Dm.ResourceEntry.rid Dm.ResourceEntry.present
    (Walk.start i.resources) hi hasc.2
  have hmet : ∀ rid, Walk.met Dm.ResourceEntry.rid Dm.ResourceEntry.present
      (obj.listResources client.state i.iid).1 rid = client.resourcePresent oid i.iid rid := by
    intro rid
    rw [Client.resourcePresent, hobj]
    rfl
  have hlist : ((obj.listResources client.state i.iid).1.foldl
      (fun w e => w.visit ResourceEntry.rid e.rid e.present) (Walk.start i.resources)).finish.list =
      i.resources.filter fun r => client.resourcePresent oid i.iid r.rid := by
    rw [Walk.list, Walk.finish, List.append_nil]
    exact hkept.trans (List.filter_congr fun r _ => hmet r.rid)
  unfold removeAbsentResources
  simp only [hforeach, if_true]
  rw [hlist]
  rfl

theorem removeAbsentResources_ret {client : Client σ} (hc : client.Lists) {oid : Id} {obj : Dm.ObjectDef σ}
    (hobj : client.findObject oid = some obj) {i : InstanceEntry} (hpresent : i.iid ∈ client.instanceIds oid) :
    (removeAbsentResources client (some obj) i).1.1 = 0 := by
  rw [Client.instanceIds, hobj] at hpresent
  obtain ⟨hasc, hcode⟩ := hc.resources oid obj hobj i.iid hpresent
  exact congrArg Prod.fst (Dm.foreach_foldl (fun e w => (rfl : (removeAbsentResourcesClb e w).1 = 0)) hasc hcode
    (Walk.start i.resources))

section Sound

variable {client : Client σ} (hc : client.Sound) {oid : Id} {obj : Dm.ObjectDef σ}
  (hobj : client.findObject oid = some obj)

include hc hobj

theorem ObjectEntry.removeAbsentResources_eq {o : ObjectEntry} (ho : o.Sane ResourceEntry.Canonical)
    (hoid : o.oid = oid) (hpresent : ∀ s ∈ o.stored, s.instanceIn (client.instanceIds oid) = true) (iid : Id) :
    (o.removeAbsentResources client (some obj) iid).1.1 = 0 ∧
      (o.removeAbsentResources client (some obj) iid).2.stored =
        o.stored.filter (Stored.resourceIn (client.resourcePresent oid iid) iid) := by
  have hthere : ∀ i ∈ o.instances, i.iid ∈ client.instanceIds oid := by
    intro i hi
    obtain ⟨s, hs⟩ := List.exists_mem_of_ne_nil _ (InstanceEntry.stored_ne_nil (ho.instances.all i hi) o.oid)
    have hmem : s ∈ o.stored := List.mem_append_right _ (List.mem_flatMap.mpr ⟨i, hi, hs⟩)
    rw [← List.contains_iff_mem, ← Stored.instanceIn_of_mem hs]
    exact hpresent s hmem
  have hzero : ∀ i ∈ o.instances, (AttrStorage.removeAbsentResources client (some obj) i).1.1 = 0 :=
    fun i hi => removeAbsentResources_ret hc.toLists hobj (hthere i hi)
  constructor
  · rw [ObjectEntry.removeAbsentResources]
    dsimp only
    rw [withEntry_fst _ _ ho.instances.sorted]
    cases hf : o.instances.find? fun i => decide (i.iid = iid) with
    | none => rfl
    | some i => exact hzero i (List.mem_of_find?_eq_some hf)
  · have hinstances := flatMap_filterMap_eq_filter (InstanceEntry.stored o.oid)
      (p := Stored.resourceIn (client.resourcePresent oid iid) iid)
      (g := fun i => if i.iid = iid then (AttrStorage.removeAbsentResources client (some obj) i).2 else some i)
      fun i (hi : i ∈ o.instances) => by
        by_cases heq : i.iid = iid
        · rw [if_pos heq, removeAbsentResources_prune hobj (ho.instances.all i hi).resources.sorted (hzero i hi),
            hoid, InstanceEntry.elim_prune, heq]
        · rw [if_neg heq]
          exact (List.filter_eq_self.mpr fun s hs => Stored.resourceIn_of_mem hs _ heq).symm
    rw [ObjectEntry.removeAbsentResources, stored, stored, List.filter_append, filter_map_of_forall fun _ => rfl,
      ← hinstances]
    exact congrArg (fun l => _ ++ l.flatMap (InstanceEntry.stored o.oid))
      (withEntry_filterMap (f := removeAbsentResourcesOf client (some obj)) rfl ho.instances.sorted)

/-- The loop over the changed Resources; the Instance that comes last was done already. -/
theorem removeAbsentResourcesLoop_eq : ∀ (es : List Dm.NotifyResource) (last : Id) (result : Int × Bool)
    {o : ObjectEntry}, o.Sane ResourceEntry.Canonical → o.oid = oid →
    (∀ s ∈ o.stored, s.instanceIn (client.instanceIds oid) = true) →
    (∀ s ∈ o.stored, s.resourceIn (client.resourcePresent oid last) last = true) →
      (removeAbsentResourcesLoop client (some obj) es last result o).1.1 = result.1 ∧
        (removeAbsentResourcesLoop client (some obj) es last result o).2.stored =
          o.stored.filter fun s => es.all fun e => s.resourceIn (client.resourcePresent oid e.iid) e.iid
  | [], _, _, o, _, _, _, _ => ⟨rfl, (List.filter_eq_self.mpr fun _ _ => rfl).symm⟩
  | e :: es, last, result, o, ho, hoid, hpresent, hlast => by
      rw [removeAbsentResourcesLoop]
      split
      · obtain ⟨hzero, hstored⟩ := ObjectEntry.removeAbsentResources_eq hc hobj ho hoid hpresent e.iid
        obtain ⟨hoid', ho'⟩ := ObjectEntry.removeAbsentResources_sane ho client (some obj) e.iid
        have hsub : ∀ s ∈ (o.removeAbsentResources client (some obj) e.iid).2.stored,
            s ∈ o.stored ∧ s.resourceIn (client.resourcePresent oid e.iid) e.iid = true := fun s hs =>
          List.mem_filter.mp (hstored ▸ hs)
        obtain ⟨hresult, hloop⟩ := removeAbsentResourcesLoop_eq es e.iid (updateRet result.1
          (o.removeAbsentResources client (some obj) e.iid).1.1, result.2 ||
          (o.removeAbsentResources client (some obj) e.iid).1.2) ho' (hoid'.trans hoid)
          (fun s hs => hpresent s (hsub s hs).1) fun s hs => (hsub s hs).2
        refine ⟨by rw [hresult, hzero, updateRet_zero_right], ?_⟩
        rw [hloop, hstored, List.filter_filter]
        exact List.filter_congr fun s _ => by rw [List.all_cons, Bool.and_comm]
      · next heq =>
        have heq' : e.iid = last := not_not.mp heq
        rw [heq']
        obtain ⟨hresult, hloop⟩ := removeAbsentResourcesLoop_eq es last result ho hoid hpresent hlast
        refine ⟨hresult, hloop.trans (List.filter_congr fun s hs => ?_)⟩
        rw [List.all_cons, heq', hlast s hs, Bool.true_and]

end Sound

/-! ## 8. The whole callback -/

/-- Something is stored in every Object of a canonical tree. -/
theorem ObjectEntry.stored_ne_nil {o : ObjectEntry} (h : o.Tidy ResourceEntry.Canonical) : o.stored ≠ [] := by
  intro hnil
  obtain ⟨hattrs, hinstances⟩ := List.append_eq_nil_iff.mp hnil
  have hempty : o.empty = true := by
    rw [ObjectEntry.empty, List.map_eq_nil_iff.mp hattrs]
    cases hi : o.instances with
    | nil => rfl
    | cons i is =>
        have hmem : i ∈ o.instances := hi ▸ List.mem_cons_self
        exact absurd (List.flatMap_eq_nil_iff.mp hinstances i hmem)
          (InstanceEntry.stored_ne_nil (h.instances.all i hmem) o.oid)
  rw [h.filled] at hempty
  cases hempty

/-- What `notifyObject` keeps is what is not stale. -/
theorem keptInstances_and_resources (client : Client σ) (e : Dm.NotifyObject) (s : Stored) :
    (keptInstances client e.oid s && (decide (s.oid ≠ e.oid) || e.resourcesChanged.all fun r =>
        s.resourceIn (client.resourcePresent e.oid r.iid) r.iid)) = !staleBy client e s := by
  have hany : (e.resourcesChanged.all fun r => s.resourceIn (client.resourcePresent e.oid r.iid) r.iid) =
      !e.resourcesChanged.any fun r => !s.resourceIn (client.resourcePresent e.oid r.iid) r.iid := by
    rw [List.not_any_eq_all_not]
    simp only [Bool.not_not]
  rw [keptInstances, staleBy, hany, ← Option.not_isSome, decide_not]
  cases decide (s.oid = e.oid) <;> cases (client.findObject e.oid).isSome <;>
    cases s.instanceIn (client.instanceIds e.oid) <;> simp [Bool.and_comm]

section Sound

variable {client : Client σ} (hc : client.Sound)

include hc

theorem removeAbsentInstances_ret {oid : Id} {obj : Dm.ObjectDef σ} (hobj : client.findObject oid = some obj)
    {as : Storage} (h : Canonical as.objects) : (removeAbsentInstances client as oid).1 = 0 := by
  have hret : (removeAbsentInstances client as oid).1 =
      (withEntry ObjectEntry.oid oid (removeAbsentInstancesOf client oid) as.objects).1.1 := by
    unfold removeAbsentInstances
    dsimp only
    split <;> rfl
  rw [hret, withEntry_fst _ _ h.sorted]
  cases hfound : as.objects.find? fun o => decide (o.oid = oid) with
  | none =>
      by_cases href : isSsidReferenceObject oid = true
      · exact (removeAbsentInstancesOf_eq hc hobj none (fun _ => href) (fun _ ho => by cases ho)).1
      · unfold removeAbsentInstancesOf
        rw [if_pos ⟨rfl, by simpa using href⟩]
  | some o =>
      refine (removeAbsentInstancesOf_eq hc hobj (some _) (fun hn => by cases hn) fun o' ho' => ?_).1
      cases ho'
      exact (h.all o (List.mem_of_find?_eq_some hfound)).instances.sorted

/-- **One Object of the queue: exactly what it makes stale is removed.** -/
theorem stored_notifyObject (e : Dm.NotifyObject) (result : Int) {as : Storage} (h : Canonical as.objects) :
    stored (notifyObject client e result as).2.objects =
      (stored as.objects).filter fun s => !staleBy client e s := by
  have htidy := removeAbsentInstances_tidy resourceRule_canonical client h e.oid
  have hstored := stored_removeAbsentInstances hc resourceRule_canonical h e.oid
  -- what is left of the Object passed the first part
  have hkept : ∀ s ∈ stored (removeAbsentInstances client as e.oid).2.objects,
      keptInstances client e.oid s = true := fun s hs => (List.mem_filter.mp (hstored ▸ hs)).2
  have hresources : stored (notifyObject client e result as).2.objects =
      (stored (removeAbsentInstances client as e.oid).2.objects).filter fun s =>
        decide (s.oid ≠ e.oid) || e.resourcesChanged.all fun r =>
          s.resourceIn (client.resourcePresent e.oid r.iid) r.iid := by
    cases hobj : client.findObject e.oid with
    | none =>
        have hother : ∀ s ∈ stored (removeAbsentInstances client as e.oid).2.objects, s.oid ≠ e.oid := by
          intro s hs
          have := hkept s hs
          rw [keptInstances, hobj] at this
          simpa using this
        have hself : (stored (removeAbsentInstances client as e.oid).2.objects).filter (fun s =>
            decide (s.oid ≠ e.oid) || e.resourcesChanged.all fun r =>
              s.resourceIn (client.resourcePresent e.oid r.iid) r.iid) =
            stored (removeAbsentInstances client as e.oid).2.objects :=
          List.filter_eq_self.mpr fun s hs => by rw [decide_eq_true (hother s hs), Bool.true_or]
        rw [hself]
        unfold notifyObject
        dsimp only
        split
        · rfl
        · refine congrArg stored ((withEntry_filterMap rfl htidy.sorted).trans ?_)
          refine (List.filterMap_congr fun o ho => ?_).trans List.filterMap_some
          refine if_neg fun heq => ?_
          obtain ⟨s, hs⟩ := List.exists_mem_of_ne_nil _ (ObjectEntry.stored_ne_nil (htidy.all o ho))
          exact hother s (List.mem_flatMap.mpr ⟨o, ho, hs⟩) ((ObjectEntry.oid_of_mem_stored hs).trans heq)
    | some obj =>
        unfold notifyObject
        dsimp only
        rw [if_neg (not_not.mpr (removeAbsentInstances_ret hc hobj h))]
        refine (congrArg stored (withEntry_filterMap rfl htidy.sorted)).trans ?_
        refine flatMap_filterMap_eq_filter ObjectEntry.stored fun o ho => ?_
        have hmem : ∀ s ∈ o.stored, s ∈ stored (removeAbsentInstances client as e.oid).2.objects :=
          fun s hs => List.mem_flatMap.mpr ⟨o, ho, hs⟩
        by_cases heq : o.oid = e.oid
        · have hin : ∀ s ∈ o.stored, s.instanceIn (client.instanceIds e.oid) = true := by
            intro s hs
            have := hkept s (hmem s hs)
            rw [keptInstances, (ObjectEntry.oid_of_mem_stored hs).trans heq, hobj] at this
            simp only [ne_eq, not_true_eq_false, decide_false, Bool.false_or, Option.isSome_some,
              Bool.true_and, Bool.and_eq_true] at this
            exact this.1
          -- no Instance has the invalid id that `last_iid` starts with
          have hvalid : ∀ s ∈ o.stored,
              s.resourceIn (client.resourcePresent e.oid idInvalid) idInvalid = true := by
            intro s hs
            cases s with
            | object | inst => rfl
            | resource oid iid rid ssid attrs =>
                have hiid := List.contains_iff_mem.mp (hin _ hs)
                rw [Client.instanceIds, hobj] at hiid
                have hne := (((hc.instances e.oid obj hobj).1).1 iid hiid).1
                simp [Stored.resourceIn, show iid ≠ idInvalid from hne]
          obtain ⟨-, hloop⟩ := removeAbsentResourcesLoop_eq hc hobj e.resourcesChanged idInvalid
            (updateRet result (removeAbsentInstances client as e.oid).1, false) (htidy.all o ho).toSane heq hin
            hvalid
          rw [if_pos heq]
          dsimp only
          rw [elim_removeIfEmpty ObjectEntry.stored ObjectEntry.stored_of_empty, hobj, hloop]
          refine List.filter_congr fun s hs => ?_
          rw [(ObjectEntry.oid_of_mem_stored hs).trans heq]
          simp
        · rw [if_neg heq]
          refine (List.filter_eq_self.mpr fun s hs => ?_).symm
          rw [ObjectEntry.oid_of_mem_stored hs, decide_eq_true heq, Bool.true_or]
  rw [hresources, hstored, List.filter_filter]
  refine List.filter_congr fun s _ => ?_
  rw [Bool.and_comm]
  exact keptInstances_and_resources client e s

/-- **Where no handler fails, exactly the sets that the queue makes stale are removed.** -/
theorem asNotifyCallback_exact (queue : Dm.NotifyQueue) {as : Storage} (h : Canonical as.objects) :
    Canonical (asNotifyCallback client queue as).2.objects ∧
      stored (asNotifyCallback client queue as).2.objects =
        (stored as.objects).filter fun s => !queue.entries.any fun e => staleBy client e s := by
  refine ⟨asNotifyCallback_tidy resourceRule_canonical client queue h, ?_⟩
  have hfold : ∀ (es : List Dm.NotifyObject) (r : Int × Storage), Canonical r.2.objects →
      stored (es.foldl (fun r e => notifyObject client e r.1 r.2) r).2.objects =
        (stored r.2.objects).filter fun s => !es.any fun e => staleBy client e s := by
    intro es
    induction es with
    | nil => exact fun r _ => (List.filter_eq_self.mpr fun _ _ => rfl).symm
    | cons e es ih =>
        intro r hr
        rw [List.foldl_cons, ih _ (notifyObject_tidy resourceRule_canonical client e r.1 hr),
          stored_notifyObject hc e r.1 hr, List.filter_filter]
        refine List.filter_congr fun s _ => ?_
        rw [List.any_cons, Bool.not_or, Bool.and_comm]
  exact hfold queue.entries (0, as) h

end Sound

/-! ## 9. A device with two servers in the tree -/

/-- A minimum period of ten seconds, and nothing else. -/
def minPeriodTen : InternalOiAttrs := ⟨⟨10, periodNone, periodNone, periodNone⟩, .default⟩

/-- An Object with one Instance, that has Resource 1. -/
def objectWithResource (oid : Id) : Dm.ObjectDef Unit where
  oid := oid
  listInstances _ := ([0], 0)
  listResources _ _ := ([⟨1, .rw, true⟩], 0)
  listResourceInstances _ _ _ := ([], errMethodNotAllowed)

/-- The Objects of the list are registered, each with one Instance, which stands for the server 1 where
    it stands for one. -/
def clientWith (oids : List Id) : Client Unit where
  state := ()
  findObject oid := if oid ∈ oids then some (objectWithResource oid) else none
  oid_findObject oid obj h := by
    split at h
    · cases h
      rfl
    · cases h
  readResourceI64 _ _ _ := some 1
  allocatesSsid _ := true

theorem clientWith_sound (oids : List Id) : (clientWith oids).Sound := by
  have hfind : ∀ oid obj, (clientWith oids).findObject oid = some obj → obj = objectWithResource oid := by
    intro oid obj h
    unfold clientWith at h
    dsimp only at h
    split at h
    · exact (Option.some.inj h).symm
    · cases h
  refine ⟨⟨fun oid obj h => ?_, fun oid obj h iid _ => ?_⟩, fun _ => rfl⟩
  · rw [hfind oid obj h]
    exact ⟨(by decide : Dm.Ascending id (-1) [(0 : Id)]), le_refl 0⟩
  · rw [hfind oid obj h]
    exact ⟨(by decide : Dm.Ascending Dm.ResourceEntry.rid (-1) [⟨1, .rw, true⟩]), le_refl 0⟩

/-- Attributes of the servers 1 and 2 on Object 3, and of server 1 on two of its Instances. -/
def deviceTree : List ObjectEntry :=
  [⟨3, [⟨1, minPeriodTen⟩, ⟨2, minPeriodTen⟩],
    [⟨0, [⟨1, minPeriodTen⟩], []⟩, ⟨5, [⟨1, minPeriodTen⟩], []⟩]⟩]

/-- The Security Object and Object 3 are in the queue. -/
def securityAndDevice : Dm.NotifyQueue :=
  ⟨[{ Dm.NotifyObject.fresh 0 with instanceSetChanged := true },
    { Dm.NotifyObject.fresh 3 with instanceSetChanged := true }], List.pairwise_pair.mpr (Nat.succ_pos 2)⟩

/-- Server 2 and Instance 5 are gone. -/
theorem asNotifyCallback_exact_device :
    Canonical (asNotifyCallback (clientWith [0, 3]) securityAndDevice { Storage.install with
      objects := deviceTree }).2.objects ∧
    stored (asNotifyCallback (clientWith [0, 3]) securityAndDevice { Storage.install with
      objects := deviceTree }).2.objects = [.object 3 1 minPeriodTen, .inst 3 0 1 minPeriodTen] := by
  have htree : Canonical ({ Storage.install with objects := deviceTree } : Storage).objects := by decide +kernel
  obtain ⟨hcanonical, hstored⟩ := asNotifyCallback_exact (clientWith_sound [0, 3]) securityAndDevice htree
  exact ⟨hcanonical, hstored.trans (by decide +kernel)⟩

/-- The Security Object is in the queue and not registered: no SSID is enumerated from it, and the
    attributes of all servers stay. -/
theorem asNotifyCallback_unregistered_security :
    Canonical deviceTree ∧ (clientWith [3]).Sound ∧ (∃ e ∈ securityAndDevice.entries, e.oid = oidSecurity) ∧
      ∃ s ∈ stored (asNotifyCallback (clientWith [3]) securityAndDevice { Storage.install with
        objects := deviceTree }).2.objects, s.ssid ∉ (clientWith [3]).ssids oidSecurity :=
  ⟨by decide +kernel, clientWith_sound [3], ⟨_, List.mem_cons_self, rfl⟩,
    .object 3 2 minPeriodTen, by decide +kernel, by decide +kernel⟩

end Anjay.AttrStorage
