/-
  File:      Anjay/Observe/Tracking.lean
  Subject:   The observe module as a whole and its two trees: what the trees see of every step of the machine.

  * `State.view`: the observations of every connection, with their tokens and paths.
  * `perform_view`: a step of the machine leaves the view as it was, or changes it like a call on the trees.
  * `Reachable.tracked`: for every state that the machine reaches there are trees, reached by the same calls, which
    agree with it.
-/
import Anjay.Observe.ObservedPaths
import Anjay.Observe.Runs

namespace Anjay.Observe

open AttrStorage Dm Lib Paths

variable {β : Type}

/-! ## 1. Views -/

/-- What the trees know of an observation. -/
def Observation.tracked (o : Observation β) : Tracked := ⟨o.addr, o.token, o.paths⟩

/-- What the trees know of an entry. -/
def ConnectionEntry.view (c : ConnectionEntry β) : ConnectionRef × List Tracked :=
  (c.connRef, c.observations.map Observation.tracked)

/-- The observations of every connection. -/
abbrev View := List (ConnectionRef × List Tracked)

def State.view (s : State β) : View := s.connectionEntries.map ConnectionEntry.view

def Paths.Registry.view (r : Registry) : View := r.map fun c => (c.connRef, c.observations)

/-- An update that the trees do not see. -/
def Unseen (f : ConnectionEntry β → ConnectionEntry β) : Prop := ∀ c, (f c).view = c.view

theorem State.view_modify {f : ConnectionEntry β → ConnectionEntry β} (hf : Unseen f) (ref : ConnectionRef) (s : State β) :
    (s.modify ref f).view = s.view := by
  unfold State.view State.modify updateAt
  rw [List.map_map]
  refine List.map_congr_left fun c _ => ?_
  show (if c.connRef = ref then f c else c).view = c.view
  split
  · exact hf c
  · rfl

/-- An update of an observation that keeps what the trees know of it. -/
def Untracked (f : Observation β → Observation β) : Prop := ∀ o, (f o).tracked = o.tracked

namespace ConnectionEntry

variable {c : ConnectionEntry β}

theorem view_observations {os : List (Observation β)} (h : os.map Observation.tracked = c.observations.map Observation.tracked)
    {c' : ConnectionEntry β} (href : c'.connRef = c.connRef) (hobs : c'.observations = os) : c'.view = c.view := by
  unfold view
  rw [href, hobs, h]

@[simp] theorem view_updateObservation {f : Observation β → Observation β} (hf : Untracked f) (ptr : Nat)
    (c : ConnectionEntry β) : (c.updateObservation ptr f).view = c.view := by
  refine view_observations (?_ : (updateAt Observation.addr ptr f c.observations).map _ = _) rfl rfl
  unfold updateAt
  rw [List.map_map]
  refine List.map_congr_left fun o _ => ?_
  show (if o.addr = ptr then f o else o).tracked = o.tracked
  split
  · exact hf o
  · rfl

theorem forgetUnsent_tracked (value : Nat) : Untracked (forgetUnsent (β := β) value) := by
  intro o
  unfold forgetUnsent
  split <;> rfl

@[simp] theorem view_detachFirst (value : Value β) (rest : List (Value β)) (c : ConnectionEntry β) :
    (c.detachFirst value rest).view = c.view :=
  (show (c.detachFirst value rest).view = (c.updateObservation value.ref (forgetUnsent value.addr)).view from rfl).trans
    (view_updateObservation (forgetUnsent_tracked value.addr) value.ref c)

theorem view_dropFirst : Unseen (β := β) dropFirst := by
  intro c
  unfold dropFirst detachFirstUnsentValue
  cases c.unsent with
  | nil => rfl
  | cons value rest => exact view_detachFirst value rest c

theorem view_appendUnsent (value : Value β) : Unseen (β := β) (appendUnsent value) := by
  intro c
  have hf : Untracked fun o : Observation β => { o with lastUnsent := some value.addr } := fun _ => rfl
  exact view_updateObservation hf value.ref c

theorem view_removeLoop : ∀ (vs : List (Value β)) (c : ConnectionEntry β), (removeLoop vs c).view = c.view
  | [], _ => rfl
  | value :: rest, c => by
      unfold removeLoop
      split
      · rfl
      · rw [view_removeLoop rest, view_detachFirst]

theorem view_removeAllUnsentValues : Unseen (β := β) removeAllUnsentValues := fun c => view_removeLoop c.unsent c

theorem scheduleTrigger_tracked (env : ScheduleEnv) (newest : Duration) (period : Int) :
    Untracked fun o : Observation β => (scheduleTrigger env newest period o).2 := by
  intro o
  show (scheduleTrigger env newest period o).2.tracked = o.tracked
  unfold scheduleTrigger
  split
  · rfl
  · split
    · rfl
    · split <;> rfl

theorem schedulePmaxTrigger_tracked (env : ScheduleEnv) (attrs : List (Except Failure InternalRAttrs))
    (newest : Duration) : Untracked fun o : Observation β => (schedulePmaxTrigger env attrs newest o).2 := by
  intro o
  show (schedulePmaxTrigger env attrs newest o).2.tracked = o.tracked
  unfold schedulePmaxTrigger
  split
  · rfl
  · split
    · exact scheduleTrigger_tracked env newest _ o
    · rfl

theorem view_scheduleAllTriggers (env : Nat → PmaxEnv) : Unseen (β := β) (scheduleAllTriggers env) := by
  intro c
  refine view_observations (?_ : (c.observations.map fun o =>
    if o.notifyTask.isSome then o else (c.pmaxTrigger (env o.addr) o).2).map _ = _) rfl rfl
  rw [List.map_map]
  refine List.map_congr_left fun o _ => ?_
  show (if o.notifyTask.isSome then o else (c.pmaxTrigger (env o.addr) o).2).tracked = o.tracked
  split
  · rfl
  · unfold pmaxTrigger
    split
    · exact schedulePmaxTrigger_tracked _ _ _ o
    · rfl

theorem view_schedFlushSendQueue (scheduled : Bool) : Unseen (β := β) (schedFlushSendQueue scheduled) := by
  intro c
  unfold schedFlushSendQueue
  split <;> rfl

theorem view_onEntryFlushed (env : FlushedEnv) (err : AvsError) : Unseen (β := β) (onEntryFlushed env err) := by
  intro c
  unfold onEntryFlushed
  split
  · split
    · exact view_scheduleAllTriggers env.triggers c
    · exact view_schedFlushSendQueue env.scheduled c
  · split
    · rfl
    · rfl
    · split
      · rfl
      · exact view_removeAllUnsentValues c

@[simp] theorem view_valueSent (value : Value β) (rest : List (Value β)) (c : ConnectionEntry β) :
    (c.valueSent value rest).view = c.view := by
  have hf : Untracked fun o : Observation β => { o with lastSent := [value] } := fun _ => rfl
  exact (view_updateObservation hf value.ref _).trans (view_detachFirst value rest c)

@[simp] theorem view_confirmed (now : Duration) (value : Value β) (c : ConnectionEntry β) :
    (c.confirmed now value).view = c.view := by
  have hf : Untracked fun o : Observation β => { o with lastConfirmable := now } := fun _ => rfl
  unfold confirmed
  split
  · exact view_updateObservation hf value.ref c
  · rfl

theorem view_handleNotifyDelivery {env : DeliveryEnv} {err : AvsError} {c' : ConnectionEntry β}
    (h : handleNotifyDelivery env err c = some c') : c'.view = c.view := by
  unfold handleNotifyDelivery at h
  split at h
  · split at h
    · exact nomatch h
    · rw [← Option.some.inj h, view_onEntryFlushed, view_valueSent, view_confirmed]
      rfl
  · rw [← Option.some.inj h, view_onEntryFlushed]
    rfl

theorem view_writeNotifyPayload {written : Bool} {c' : ConnectionEntry β} (h : writeNotifyPayload written c = some c') :
    c'.view = c.view := by
  unfold writeNotifyPayload at h
  split at h
  · exact nomatch h
  · split at h
    · split at h
      · exact nomatch h
      · split at h
        · exact nomatch h
        · rw [← Option.some.inj h]
          rfl
    · rw [← Option.some.inj h]
      rfl

end ConnectionEntry


/-! ## 2. The calls on the trees, as changes of a view -/

namespace View

def find (ref : ConnectionRef) (v : View) : Option (ConnectionRef × List Tracked) := v.find? fun c => c.1 == ref

def dropEmpty (ref : ConnectionRef) (v : View) : View := v.filter fun c => !(c.1 == ref && c.2.isEmpty)

def deleteAt (ref : ConnectionRef) (v : View) : View := v.eraseP fun c => !decide (connectionRefCmp c.1 ref < 0)

def deleteAtIfEmpty (ref : ConnectionRef) (v : View) : View :=
  match v.find? fun c => !decide (connectionRefCmp c.1 ref < 0) with
  | none => v
  | some c => v.dropEmpty c.1

def cmp (a b : ConnectionRef × List Tracked) : Int := connectionRefCmp a.1 b.1

def findOrCreate (ref : ConnectionRef) (v : View) : View := upsert cmp (ref, []) id v

def change (ref : ConnectionRef) (f : List Tracked → List Tracked) (v : View) : View :=
  updateAt Prod.fst ref (fun c => (c.1, f c.2)) v

def remove (ref : ConnectionRef) (token : Token) (v : View) : View :=
  match v.find ref with
  | none => v
  | some c =>
      match c.2.find? fun o => tokenCmp o.token token == 0 with
      | none => v
      | some o => (v.change ref fun os => os.filter fun o' => !(o'.addr == o.addr)).dropEmpty ref

def insert (ref : ConnectionRef) (o : Tracked) (v : View) : View := v.change ref (upsert trackedCmp o id)

/-- A request, where `attached` says whether the observation could be put in both trees. -/
def observe (env : RequestEnv) (attached : Bool) (ref : ConnectionRef) (token : Token) (paths : List UriPath) (v : View) :
    View :=
  if (v.find ref).isNone && !env.elementAllocated then v.deleteAt ref
  else if (v.find ref).isNone && !env.treesAllocated then v
  else if env.readSucceeds then
    if attached then
      if env.completed then (v.findOrCreate ref).insert ref ⟨env.address, token, paths⟩
      else (((v.findOrCreate ref).insert ref ⟨env.address, token, paths⟩).remove ref token).deleteAtIfEmpty ref
    else ((v.findOrCreate ref).remove ref token).deleteAtIfEmpty ref
  else (v.findOrCreate ref).dropEmpty ref

def gcLoop : List Id → View → View
  | [], _ => []
  | ssid :: ssids, v =>
      (v.dropWhile fun c => decide (c.1.ssid < ssid)).takeWhile (fun c => decide (c.1.ssid = ssid)) ++
        gcLoop ssids ((v.dropWhile fun c => decide (c.1.ssid < ssid)).dropWhile fun c => decide (c.1.ssid = ssid))

end View

/-! ## 3. What the trees see of the machine -/

section Machine

variable {s s' : State β} {ref : ConnectionRef} {token : Token}

theorem State.find_view (ref : ConnectionRef) (s : State β) : s.view.find ref = (s.entry ref).map ConnectionEntry.view := by
  unfold State.view View.find State.entry
  rw [List.find?_map]
  rfl

theorem State.view_dropEmpty (ref : ConnectionRef) (s : State β) :
    (s.deleteConnectionIfEmpty ref).view = s.view.dropEmpty ref := by
  unfold State.view View.dropEmpty State.deleteConnectionIfEmpty
  rw [List.filter_map]
  refine congrArg (List.map ConnectionEntry.view) (List.filter_congr fun c _ => ?_)
  simp [ConnectionEntry.view]

theorem State.view_deleteAt (ref : ConnectionRef) (s : State β) : (s.deleteAt ref).view = s.view.deleteAt ref := by
  unfold State.view View.deleteAt State.deleteAt
  rw [List.eraseP_map]
  rfl

theorem State.view_deleteAtIfEmpty (ref : ConnectionRef) (s : State β) :
    (s.deleteAtIfEmpty ref).view = s.view.deleteAtIfEmpty ref := by
  have hfind : (s.view.find? fun c => !decide (connectionRefCmp c.1 ref < 0)) =
      (s.connectionEntries.find? fun c => !decide (connectionRefCmp c.connRef ref < 0)).map ConnectionEntry.view := by
    unfold State.view
    rw [List.find?_map]
    rfl
  unfold State.deleteAtIfEmpty View.deleteAtIfEmpty
  rw [hfind]
  cases s.connectionEntries.find? fun c => !decide (connectionRefCmp c.connRef ref < 0) with
  | none => rfl
  | some c => exact s.view_dropEmpty c.connRef

/-- A change of the observations of one connection. -/
theorem State.view_change {f : ConnectionEntry β → ConnectionEntry β} {g : List Tracked → List Tracked}
    (hf : ∀ c ∈ s.connectionEntries, c.connRef = ref → (f c).view = (c.connRef, g c.view.2)) :
    (s.modify ref f).view = s.view.change ref g := by
  unfold State.view State.modify View.change updateAt
  rw [List.map_map, List.map_map]
  refine List.map_congr_left fun c hc => ?_
  show (if c.connRef = ref then f c else c).view = if c.connRef = ref then (c.connRef, g c.view.2) else c.view
  split
  next heq => exact hf c hc heq
  · rfl

theorem upsert_map {α γ : Type} {cmp : α → α → Int} {cmp' : γ → γ → Int} {f : α → γ}
    (hcmp : ∀ a b, cmp' (f a) (f b) = cmp a b) (new : α) : ∀ as : List α,
      (upsert cmp new id as).map f = upsert cmp' (f new) id (as.map f)
  | [] => rfl
  | a :: as => by
      rw [List.map_cons, upsert, upsert, hcmp]
      split
      · rfl
      · split
        · rfl
        · rw [List.map_cons, upsert_map hcmp new as]

theorem State.view_findOrCreate (ref : ConnectionRef) (s : State β) :
    (s.findOrCreate ref).view = s.view.findOrCreate ref :=
  upsert_map (fun a b => show View.cmp a.view b.view = connectionEntryCmp a b from rfl) (newEntry ref) s.connectionEntries

theorem ConnectionEntry.find_view (token : Token) (c : ConnectionEntry β) :
    (c.view.2.find? fun o => tokenCmp o.token token == 0) = (c.findObservation token).map Observation.tracked := by
  unfold ConnectionEntry.view ConnectionEntry.findObservation
  rw [List.find?_map]
  rfl

/-- **Removing an entry.** -/
theorem view_observeRemoveEntry (ref : ConnectionRef) (token : Token) (s : State β) :
    (observeRemoveEntry ref token s).view = s.view.remove ref token := by
  have hend : Unseen (β := β) ConnectionEntry.endExchange := fun _ => rfl
  unfold observeRemoveEntry View.remove
  rw [s.find_view]
  cases hentry : s.entry ref with
  | none => rfl
  | some c =>
      dsimp only [Option.map_some]
      rw [c.find_view]
      cases hfind : c.findObservation token with
      | none => exact s.view_modify hend ref
      | some o =>
          dsimp only [Option.map_some]
          rw [State.view_dropEmpty]
          refine congrArg (View.dropEmpty ref) ((State.view_change fun d _ _ => ?_).trans
            (congrArg (fun v => View.change ref _ v) (s.view_modify hend ref)))
          unfold ConnectionEntry.view ConnectionEntry.removeObservation ConnectionEntry.detachObservation
          rw [ConnectionEntry.clearObservation_observations, ConnectionEntry.clearObservation_connRef, List.filter_map]
          rfl

theorem view_makeRoom (s : State β) : s.makeRoom.view = s.view := by
  unfold State.makeRoom State.dropOldestQueuedNotification
  split
  · split
    · exact s.view_modify ConnectionEntry.view_dropFirst _
    · rfl
  · rfl

theorem view_insertNewValue (env : InsertEnv) (ref : ConnectionRef) (observation : Nat) (hint : ReliabilityHint)
    (details : DetailsPtr) (values : List β) (s : State β) :
    (insertNewValue env ref observation hint details values s).2.view = s.view := by
  unfold insertNewValue
  split
  · exact (State.view_modify (ConnectionEntry.view_appendUnsent _) ref s.makeRoom).trans (view_makeRoom s)
  · exact view_makeRoom s

theorem view_updateObservation {f : Observation β → Observation β} (hf : Untracked f) (ref : ConnectionRef)
    (observation : Nat) (s : State β) : (s.modify ref (ConnectionEntry.updateObservation observation f)).view = s.view :=
  s.view_modify (fun c => ConnectionEntry.view_updateObservation hf observation c) ref

theorem view_insertError (env : InsertEnv) (ref : ConnectionRef) (observation : Nat) (outerResult : Int) (s : State β) :
    (insertError env ref observation outerResult s).2.view = s.view := by
  have hf : Untracked fun o : Observation β => { o with notifyTask := none } := fun _ => rfl
  exact (view_insertNewValue _ _ _ _ _ _ _).trans (view_updateObservation hf ref observation s)

theorem view_updateNotificationValue (ops : BatchOps β) (env : UpdateEnv β) (ref : ConnectionRef) (o : Observation β)
    (newest : Value β) (s : State β) : (updateNotificationValue ops env ref o newest s).2.view = s.view := by
  have hinsert : ∀ vars, (insertUpdate env ref o.addr newest vars s).2.view = s.view := by
    intro vars
    unfold insertUpdate
    split
    · exact view_insertNewValue _ _ _ _ _ _ _
    · rfl
  unfold updateNotificationValue
  split
  · rfl
  · split
    · rfl
    · split
      · rfl
      · rename_i vars _
        unfold scheduleUpdate
        split
        · split
          · exact (view_updateObservation (ConnectionEntry.scheduleTrigger_tracked _ _ _) ref o.addr _).trans (hinsert vars)
          · exact hinsert vars
        · exact hinsert vars

theorem view_triggerUpdate (ops : BatchOps β) (env : TriggerEnv β) (ref : ConnectionRef) (o : Observation β)
    (newest : Value β) (s : State β) : (triggerUpdate ops env ref o newest s).view = s.view := by
  unfold triggerUpdate
  split
  · split
    · exact view_updateNotificationValue _ _ _ _ _ _
    · exact (view_insertError _ _ _ _ _).trans (view_updateNotificationValue _ _ _ _ _ _)
  · rfl

/-- Nothing, or one removal. -/
def Removes (ref : ConnectionRef) (v v' : View) : Prop := v' = v ∨ ∃ token, v' = v.remove ref token

/-- Every connection has one entry. -/
def View.Single (v : View) : Prop := (v.map Prod.fst).Nodup

theorem View.Single.change {v : View} (h : v.Single) (ref : ConnectionRef) (f : List Tracked → List Tracked) :
    (View.change ref f v).Single := by
  have hsame : (View.change ref f v).map Prod.fst = v.map Prod.fst := by
    unfold View.change updateAt
    rw [List.map_map]
    refine List.map_congr_left fun c _ => ?_
    show (if c.1 = ref then (c.1, f c.2) else c).1 = c.1
    split <;> rfl
  unfold View.Single
  rw [hsame]
  exact h

theorem View.Single.dropEmpty {v : View} (h : v.Single) (ref : ConnectionRef) : (View.dropEmpty ref v).Single :=
  List.Nodup.sublist (List.filter_sublist.map Prod.fst) h

theorem View.Single.remove {v : View} (h : v.Single) (ref : ConnectionRef) (token : Token) : (v.remove ref token).Single := by
  unfold View.remove
  split
  · exact h
  · split
    · exact h
    · exact (h.change ref _).dropEmpty ref

theorem State.view_replace (h : s.view.Single) {c c' : ConnectionEntry β} (hc : s.entry ref = some c)
    (hview : c'.view = c.view) : (s.modify ref fun _ => c').view = s.view := by
  obtain ⟨hmem, hcref⟩ := State.entry_some hc
  have hnodup : (s.connectionEntries.map ConnectionEntry.connRef).Nodup := by
    have hmap : s.view.map Prod.fst = s.connectionEntries.map ConnectionEntry.connRef := List.map_map
    rw [← hmap]
    exact h
  unfold State.view State.modify updateAt
  rw [List.map_map]
  refine List.map_congr_left fun d hd => ?_
  show (if d.connRef = ref then c' else d).view = d.view
  split
  next heq => rw [hview, List.inj_on_of_nodup_map hnodup hd hmem (heq.trans hcref.symm)]
  · rfl

theorem notifyAsync_view {env : FlushEnv} {value : Value β} (hsingle : s.view.Single)
    (h : notifyAsync env ref value s = some s') : s'.view = s.view := by
  unfold notifyAsync at h
  split at h
  · exact Option.some.inj h ▸ rfl
  · exact nomatch h
  · exact Option.some.inj h ▸ s.view_modify (ConnectionEntry.view_onEntryFlushed _ _) ref
  next hentry _ =>
    split at h
    · exact nomatch h
    next c' hdeliver =>
      rw [← Option.some.inj h]
      have hstart : Unseen (β := β) (ConnectionEntry.startExchange env value) := fun _ => rfl
      exact State.view_replace hsingle hentry ((ConnectionEntry.view_handleNotifyDelivery hdeliver).trans (hstart _))
  · have hstart : Unseen (β := β) (ConnectionEntry.startExchange env value) := fun _ => rfl
    exact Option.some.inj h ▸ s.view_modify hstart ref

theorem flushValue_removes {env : FlushEnv} {value : Value β} (hsingle : s.view.Single) (h : flushValue env ref token value s = some s') :
    Removes ref s.view s'.view := by
  unfold flushValue at h
  split at h
  · exact .inl (Option.some.inj h ▸ s.view_modify (ConnectionEntry.view_onEntryFlushed _ _) ref)
  · split at h
    · exact .inl (Option.some.inj h ▸ s.view_modify (ConnectionEntry.view_onEntryFlushed _ _) ref)
    · have hcancel : Removes ref s.view (cancelNotificationOnError ref token value s).view := by
        unfold cancelNotificationOnError
        split
        · exact .inr ⟨token, view_observeRemoveEntry ref token s⟩
        · exact .inl rfl
      have hsingle' : (cancelNotificationOnError ref token value s).view.Single := by
        rcases hcancel with heq | ⟨token', heq⟩
        · rw [heq]
          exact hsingle
        · rw [heq]
          exact hsingle.remove ref token'
      rw [notifyAsync_view hsingle' h]
      exact hcancel

theorem flushNextUnsent_removes {env : FlushEnv} (hsingle : s.view.Single) (h : flushNextUnsent env ref s = some s') :
    Removes ref s.view s'.view := by
  unfold flushNextUnsent at h
  split at h
  · exact nomatch h
  · split at h
    · exact nomatch h
    · split at h
      · exact nomatch h
      next value _ _ _ o _ =>
        have hset : Unseen (β := β) (ConnectionEntry.setHead (sentHint env o value)) := fun _ => rfl
        have hview := s.view_modify hset ref
        rw [← hview] at hsingle ⊢
        exact flushValue_removes hsingle h

theorem view_deleteFlushTask (ref : ConnectionRef) (s : State β) :
    (s.modify ref ConnectionEntry.deleteFlushTask).view = s.view := by
  have hdelete : Unseen (β := β) ConnectionEntry.deleteFlushTask := fun _ => rfl
  exact s.view_modify hdelete ref

theorem triggerFlush_removes {env : TriggerEnv β} (hsingle : s.view.Single) (h : triggerFlush env ref s = some s') :
    Removes ref s.view s'.view := by
  unfold triggerFlush at h
  split at h
  · exact nomatch h
  · split at h
    · split at h
      · rw [← view_deleteFlushTask ref s] at hsingle ⊢
        exact flushNextUnsent_removes hsingle h
      · split at h
        · exact .inl (Option.some.inj h ▸ view_deleteFlushTask ref s)
        · refine .inl (Option.some.inj h ▸ s.view_modify (fun c => ?_) ref)
          exact ConnectionEntry.view_removeAllUnsentValues c.deleteFlushTask
    · exact .inl (Option.some.inj h ▸ rfl)

theorem triggerObserve_removes {ops : BatchOps β} {env : TriggerEnv β} {observation : Nat} (hsingle : s.view.Single)
    (h : triggerObserve ops env ref observation s = some s') : Removes ref s.view s'.view := by
  unfold triggerObserve at h
  split at h
  · exact nomatch h
  · split at h
    · rename_i o newest _ _
      have htake : Untracked fun o : Observation β => { o with notifyTask := none } := fun _ => rfl
      have hview : (triggerUpdate ops env ref o newest (s.takeNotifyTask ref observation)).view = s.view :=
        (view_triggerUpdate _ _ _ _ _ _).trans (view_updateObservation htake ref observation s)
      rw [← hview] at hsingle ⊢
      exact triggerFlush_removes hsingle h
    · exact nomatch h

theorem flushSendQueueJob_removes {env : FlushEnv} {online : OnlineEnv} (hsingle : s.view.Single)
    (h : flushSendQueueJob env online ref s = some s') : Removes ref s.view s'.view := by
  unfold flushSendQueueJob at h
  split at h
  · exact nomatch h
  · split at h
    · exact nomatch h
    · split at h
      · rw [← view_deleteFlushTask ref s] at hsingle ⊢
        exact flushNextUnsent_removes hsingle h
      · exact .inl (Option.some.inj h ▸ view_deleteFlushTask ref s)

/-! ## 4. A new observation -/

theorem view_putEntry (ref : ConnectionRef) (token : Token) (paths : List UriPath) (s : State β) :
    (s.putEntry ref token paths).view = s.view.insert ref ⟨s.next, token, paths⟩ := by
  refine State.view_change (s := s) fun c _ _ => ?_
  unfold ConnectionEntry.view ConnectionEntry.insertObservation
  refine congrArg (Prod.mk c.connRef) ?_
  exact upsert_map (fun a b => show trackedCmp a.tracked b.tracked = observationCmp a b from rfl)
    (newObservation token paths s.next) c.observations

theorem view_insertInitialValue (env : ObserveEnv β) (ref : ConnectionRef) (observation : Nat) (values : List β)
    (s : State β) : (s.insertInitialValue env ref observation values).view = s.view := by
  have hf : Untracked (initializedConfirmed env s.next values) := by
    intro o
    have htracked := ConnectionEntry.schedulePmaxTrigger_tracked env.pmax.schedule
      ((List.range o.paths.length).map env.pmax.attrs) env.now { o with lastSent := [initialValue env o.addr s.next values] }
    unfold initializedConfirmed
    split <;> exact htracked
  exact view_updateObservation hf ref observation s

/-- What the trees are told of a request. -/
def ObserveEnv.request (env : ObserveEnv β) (token : Token) (paths : List UriPath) (ref : ConnectionRef) (s : State β) :
    RequestEnv where
  address := s.next
  elementAllocated := env.elementAllocated
  treesAllocated := env.treesAllocated
  readSucceeds := env.read.isOk
  observationAllocated := env.attached
  pathAlloc := fun _ => ⟨true, true⟩
  completed := match env.read with
    | .error _ => false
    | .ok values => env.valueAllocated && observeSucceeds env token paths (s.findOrCreate ref) values

theorem view_observeFailed (ref : ConnectionRef) (token : Token) (s : State β) :
    (observeFailed ref token s).view = (s.view.remove ref token).deleteAtIfEmpty ref := by
  unfold observeFailed
  rw [State.view_deleteAtIfEmpty, view_observeRemoveEntry]

/-- **A request.** -/
theorem view_observeHandle {env : ObserveEnv β} {paths : List UriPath}
    (h : observeHandle env ref token paths s = some s') :
    s'.view = s.view.observe (env.request token paths ref s) env.attached ref token paths := by
  have hisNone : (s.view.find ref).isNone = (s.entry ref).isNone := by
    rw [s.find_view]
    cases s.entry ref <;> rfl
  unfold observeHandle at h
  unfold View.observe
  rw [hisNone]
  by_cases helement : ((s.entry ref).isNone && !env.elementAllocated) = true
  · rw [if_pos helement] at h
    rw [if_pos (show ((s.entry ref).isNone && !(env.request token paths ref s).elementAllocated) = true from helement),
      ← Option.some.inj h, State.view_deleteAt]
  · rw [if_neg helement] at h
    rw [if_neg (show ¬((s.entry ref).isNone && !(env.request token paths ref s).elementAllocated) = true from helement)]
    by_cases htrees : ((s.entry ref).isNone && !env.treesAllocated) = true
    · rw [if_pos htrees] at h
      rw [if_pos (show ((s.entry ref).isNone && !(env.request token paths ref s).treesAllocated) = true from htrees),
        Option.some.inj h]
    · rw [if_neg htrees] at h
      rw [if_neg (show ¬((s.entry ref).isNone && !(env.request token paths ref s).treesAllocated) = true from htrees)]
      split at h
      · exact nomatch h
      · cases hread : env.read with
        | error e =>
            rw [hread] at h
            rw [if_neg (by unfold ObserveEnv.request; rw [hread]; exact Bool.false_ne_true), ← Option.some.inj h, State.view_dropEmpty,
              State.view_findOrCreate]
        | ok values =>
            rw [hread] at h
            have hcompleted : (env.request token paths ref s).completed =
                (env.valueAllocated && observeSucceeds env token paths (s.findOrCreate ref) values) := by
              unfold ObserveEnv.request
              rw [hread]
            rw [if_pos (by unfold ObserveEnv.request; rw [hread]; rfl), hcompleted, ← Option.some.inj h]
            unfold observeRead
            cases env.attached with
            | false =>
                rw [if_neg (by decide), if_neg (by decide), view_observeFailed, State.view_findOrCreate]
            | true =>
                rw [if_pos rfl, if_pos rfl]
                cases env.valueAllocated with
                | false =>
                    rw [if_neg (by decide), if_neg (by simp), view_observeFailed, view_putEntry, State.view_findOrCreate]
                    rfl
                | true =>
                    rw [if_pos rfl, Bool.true_and]
                    split
                    · rw [view_insertInitialValue, view_putEntry, State.view_findOrCreate]
                      rfl
                    · rw [view_observeFailed, view_insertInitialValue, view_putEntry, State.view_findOrCreate]
                      rfl

end Machine


/-! ## 5. The same calls on the trees -/

section Trees

variable {r r' : Registry} {ref : ConnectionRef} {token : Token}

theorem Paths.Registry.find_view (ref : ConnectionRef) (r : Registry) :
    r.view.find ref = (r.entry ref).map fun c => (c.connRef, c.observations) := by
  unfold Registry.view View.find Registry.entry
  rw [List.find?_map]
  rfl

theorem Paths.view_dropEmpty (ref : ConnectionRef) (r : Registry) :
    (Paths.dropEmpty ref r).view = r.view.dropEmpty ref := by
  unfold Registry.view Paths.dropEmpty View.dropEmpty
  rw [List.filter_map]
  rfl

theorem Paths.Sound.view_modify (h : Paths.Sound r) {c c' : TrackedEntry} (hc : r.entry ref = some c)
    (href : c'.connRef = ref) {f : List Tracked → List Tracked} (hobs : c'.observations = f c.observations) :
    (r.modify ref fun _ => c').view = r.view.change ref f := by
  obtain ⟨hmem, hcref⟩ := Registry.entry_some hc
  unfold Registry.view Registry.modify View.change updateAt
  rw [List.map_map, List.map_map]
  refine List.map_congr_left fun d hd => ?_
  show ((if d.connRef = ref then c' else d).connRef, (if d.connRef = ref then c' else d).observations) =
    if d.connRef = ref then (d.connRef, f d.observations) else (d.connRef, d.observations)
  split
  next heq => rw [href, heq, hobs, h.eq_of_mem hd hmem (heq.trans hcref.symm)]
  · rfl

theorem Paths.Sound.remove_view (h : Paths.Sound r) (ref : ConnectionRef) (token : Token) :
    ∃ r', Paths.observeRemoveEntry ref token r = some r' ∧ Paths.Sound r' ∧ r'.view = r.view.remove ref token := by
  unfold View.remove
  rw [Registry.find_view]
  rcases h.removeEntry_cases ref token with ⟨hnone, heq⟩ | ⟨c, o, paths', hentry, hfind, -, hcrossed, heq⟩
  · refine ⟨r, heq, h, ?_⟩
    cases hentry : r.entry ref with
    | none => rfl
    | some c =>
        rw [hentry] at hnone
        dsimp only [Option.map_some]
        rw [show (c.observations.find? fun o => tokenCmp o.token token == 0) = none from hnone]
  · have hcref := (Registry.entry_some hentry).2
    have hsound : Paths.Sound (r.modify ref fun _ => c.deleteObservation o paths') := h.modify hcref hcrossed
    refine ⟨_, heq, hsound.sublist (Paths.dropEmpty_sublist ref _), ?_⟩
    rw [hentry]
    dsimp only [Option.map_some]
    rw [show (c.observations.find? fun o => tokenCmp o.token token == 0) = some o from hfind, Paths.view_dropEmpty]
    have hview : (r.modify ref fun _ => c.deleteObservation o paths').view =
        r.view.change ref fun os => os.filter fun o' => !(o'.addr == o.addr) :=
      h.view_modify hentry (show (c.deleteObservation o paths').connRef = ref from hcref) rfl
    rw [hview]

theorem Paths.Sound.deleteAtIfEmpty_view (h : Paths.Sound r) (ref : ConnectionRef) :
    ∃ r', r.deleteAtIfEmpty ref = some r' ∧ r'.view = r.view.deleteAtIfEmpty ref := by
  have hfind : (r.view.find? fun c => !decide (connectionRefCmp c.1 ref < 0)) =
      (r.find? fun c => !decide (connectionRefCmp c.connRef ref < 0)).map fun c => (c.connRef, c.observations) := by
    unfold Registry.view
    rw [List.find?_map]
    rfl
  unfold Registry.deleteAtIfEmpty View.deleteAtIfEmpty
  rw [hfind]
  cases r.find? fun c => !decide (connectionRefCmp c.connRef ref < 0) with
  | none => exact ⟨r, rfl, rfl⟩
  | some c => exact ⟨_, h.deleteConnectionIfEmpty c.connRef, Paths.view_dropEmpty c.connRef r⟩

theorem Paths.view_findOrCreate (ref : ConnectionRef) (r : Registry) :
    (r.findOrCreate ref).view = r.view.findOrCreate ref :=
  upsert_map (fun a b => show View.cmp (a.connRef, a.observations) (b.connRef, b.observations) = Registry.entryCmp a b
    from rfl) _ r

/-- A failed request, seen from outside. -/
theorem Paths.Sound.failed_view (h : Paths.Sound r) (ref : ConnectionRef) (token : Token) :
    ∃ r', ((Paths.observeRemoveEntry ref token r).bind fun r' => r'.deleteAtIfEmpty ref) = some r' ∧
      r'.view = (r.view.remove ref token).deleteAtIfEmpty ref := by
  obtain ⟨r₁, hrun, hsound, hview⟩ := h.remove_view ref token
  obtain ⟨r₂, hrun', hview'⟩ := hsound.deleteAtIfEmpty_view ref
  exact ⟨r₂, by rw [hrun, Option.bind_some, hrun'], by rw [hview', hview]⟩

/-- **A request**: with memory for everything, the observation is put in both trees. -/
theorem Paths.Inv.request_view (h : Paths.Inv r) {env : RequestEnv} {paths : List UriPath}
    (he : Enabled r (.observe env ref token paths)) (hmemory : env.pathAlloc = fun _ => ⟨true, true⟩) :
    ∃ r', Paths.observeHandle env ref token paths r = some r' ∧
      r'.view = r.view.observe env env.observationAllocated ref token paths := by
  have hisNone : (r.view.find ref).isNone = (r.entry ref).isNone := by
    rw [Registry.find_view]
    cases r.entry ref <;> rfl
  have hsound := h.findOrCreate ref
  unfold Paths.observeHandle View.observe
  rw [hisNone]
  split
  · refine ⟨_, rfl, ?_⟩
    unfold Registry.view Registry.deleteAt View.deleteAt
    rw [List.eraseP_map]
    rfl
  split
  · exact ⟨r, rfl, rfl⟩
  split
  · rw [observeRead_eq]
    obtain ⟨c, hentry, hc⟩ := h.toSound.entry_findOrCreate ref
    obtain ⟨hmem, hcref⟩ := Registry.entry_some hentry
    have hnew : ∀ o ∈ c.observations, o.addr ≠ env.address ∧ tokenCmp o.token token ≠ 0 := by
      rcases hc with hc | ⟨-, rfl⟩
      · exact he c (Registry.entry_some hc).1 hcref
      · exact fun o ho => nomatch ho
    have hnone : c.find token = none := find_eq_none fun o ho => (hnew o ho).2
    unfold putEntry
    cases halloc : env.observationAllocated with
    | false =>
        rw [if_neg (by decide), Option.bind_some, if_neg (by simp), if_neg (by decide), ← Paths.view_findOrCreate]
        exact hsound.failed_view ref token
    | true =>
        rw [if_pos rfl, hentry, if_pos rfl]
        dsimp only
        rw [if_neg (by rw [hnone]; decide)]
        rcases attachNewObservation_cases (hsound.crossed c hmem) (o := ⟨env.address, token, paths⟩) hnew env.pathAlloc with
          ⟨c', hattach, -⟩ | ⟨c', hattach, href, hobs, -, hcrossed, -⟩
        · have hgood : ∀ c', c.attachNewObservation env.pathAlloc ⟨env.address, token, paths⟩ ≠ some (false, c') := by
            intro c' hfalse
            unfold TrackedEntry.attachNewObservation at hfalse
            rw [hmemory] at hfalse
            split at hfalse
            · exact nomatch hfalse
            · exact nomatch hfalse
            next hadd => exact absurd (RefShape.addFrom_of_memory hadd) (by decide)
          exact absurd hattach (hgood c')
        · have href' : c'.connRef = ref := href.trans hcref
          have hview : ((r.findOrCreate ref).modify ref fun _ => c').view =
              (r.view.findOrCreate ref).insert ref ⟨env.address, token, paths⟩ := by
            rw [hsound.view_modify hentry href' hobs, Paths.view_findOrCreate]
            rfl
          rw [hattach, Option.bind_some, ← hview]
          cases env.completed with
          | true => exact ⟨_, if_pos rfl, (if_pos rfl).symm⟩
          | false =>
              rw [if_neg (by simp), if_neg (by decide)]
              have hsound' : Paths.Sound ((r.findOrCreate ref).modify ref fun _ => c') := hsound.modify href' hcrossed
              exact hsound'.failed_view ref token
  · exact ⟨_, hsound.deleteConnectionIfEmpty ref, by rw [Paths.view_dropEmpty, Paths.view_findOrCreate]⟩

theorem Paths.gcLoop_view : ∀ (ssids : List Id) {r r' : Registry}, Paths.gcLoop ssids r = some r' →
    r'.view = View.gcLoop ssids r.view
  | [], r, r', h => by
      unfold Paths.gcLoop at h
      split at h
      · rw [← Option.some.inj h]
        rfl
      · cases h
  | ssid :: ssids, r, r', h => by
      unfold Paths.gcLoop at h
      split at h
      · obtain ⟨r₁, hrun, rfl⟩ := Option.map_eq_some_iff.mp h
        have ih := Paths.gcLoop_view ssids hrun
        unfold Registry.view at ih ⊢
        unfold View.gcLoop
        rw [List.map_append, ih, List.dropWhile_map, List.dropWhile_map, List.takeWhile_map]
        rfl
      · cases h

end Trees

theorem gcLoop_view : ∀ (ssids : List Id) (cs : List (ConnectionEntry β)),
    (gcLoop ssids cs).map ConnectionEntry.view = View.gcLoop ssids (cs.map ConnectionEntry.view)
  | [], _ => rfl
  | ssid :: ssids, cs => by
      unfold gcLoop View.gcLoop
      dsimp only
      rw [List.map_append, gcLoop_view ssids, List.dropWhile_map, List.dropWhile_map, List.takeWhile_map]
      rfl


/-! ## 6. Both together -/

section Simulation

variable {ops : BatchOps β} {s s' : State β}

theorem Inv.single (h : Inv s) : s.view.Single := by
  have hmap : s.view.map Prod.fst = s.connectionEntries.map ConnectionEntry.connRef := List.map_map
  unfold View.Single
  rw [hmap]
  exact h.toSound.nodup

/-- What a step of the machine does to its view: nothing, or what a call does that the trees are told of. -/
def Follows (v v' : View) : Prop :=
  v' = v ∨ (∃ ref token, v' = v.remove ref token) ∨ (∃ ssids, v' = View.gcLoop ssids v) ∨ v' = [] ∨
    ∃ (env : RequestEnv) (ref : ConnectionRef) (token : Token) (paths : List UriPath),
      env.pathAlloc = (fun _ => ⟨true, true⟩) ∧ v' = v.observe env env.observationAllocated ref token paths ∧
      ∀ c ∈ v, c.1 = ref → ∀ o ∈ c.2, o.addr ≠ env.address ∧ tokenCmp o.token token ≠ 0

/-- The fourth alternative but one: a request that the code accepts. -/
theorem Inv.view_fresh (h : Inv s) {env : ObserveEnv β} {ref : ConnectionRef} {token : Token} {paths : List UriPath}
    (hnone : ((s.entry ref).bind (ConnectionEntry.findObservation token)).isSome = false) :
    ∀ c ∈ s.view, c.1 = ref → ∀ o ∈ c.2, o.addr ≠ (env.request token paths ref s).address ∧ tokenCmp o.token token ≠ 0 := by
  intro c hc hcref o ho
  obtain ⟨d, hd, rfl⟩ := List.mem_map.mp hc
  obtain ⟨o', ho', rfl⟩ := List.mem_map.mp ho
  have hentry : s.entry ref = some d := hcref ▸ h.toSound.entry_eq hd
  rw [hentry] at hnone
  refine ⟨(h.observations d hd o' ho').ne, fun htoken => ?_⟩
  have hfind : d.findObservation token = none :=
    Option.isNone_iff_eq_none.mp (Option.isSome_eq_false_iff.mp hnone)
  exact List.find?_eq_none.mp hfind o' ho' (beq_iff_eq.mpr htoken)

/-- **Every step of the machine is followed by the trees.** -/
theorem Inv.perform_view (h : Inv s) {event : Event β} (hs : perform ops event s = some s') :
    Follows s.view s'.view := by
  have hremoves : ∀ {ref}, Removes ref s.view s'.view → Follows s.view s'.view := by
    intro ref hr
    rcases hr with heq | ⟨token, heq⟩
    · exact .inl heq
    · exact .inr (.inl ⟨ref, token, heq⟩)
  have hmodify : ∀ {ref} {f : ConnectionEntry β → Option (ConnectionEntry β)},
      (∀ c c', f c = some c' → c'.view = c.view) → s.modify? ref f = some s' → s'.view = s.view := by
    intro ref f hf hm
    unfold State.modify? at hm
    split at hm
    · cases hm
    next hentry =>
      split at hm
      · cases hm
      next hc' => exact Option.some.inj hm ▸ State.view_replace h.single hentry (hf _ _ hc')
  cases event with
  | observe env ref token paths =>
      have hview := view_observeHandle hs
      by_cases hnone : ((s.entry ref).bind (ConnectionEntry.findObservation token)).isSome = true
      · -- without memory for the entry there is none, otherwise the assertion fails
        have hentry : (s.entry ref).isNone = false := by
          cases hentry : s.entry ref with
          | none =>
              rw [hentry] at hnone
              cases hnone
          | some c => rfl
        change Observe.observeHandle env ref token paths s = some s' at hs
        unfold Observe.observeHandle at hs
        rw [hentry, Bool.false_and, if_neg Bool.false_ne_true, Bool.false_and, if_neg Bool.false_ne_true,
          if_pos hnone] at hs
        cases hs
      · exact .inr (.inr (.inr (.inr ⟨env.request token paths ref s, ref, token, paths, rfl, hview,
          h.view_fresh (Bool.eq_false_iff.mpr hnone)⟩)))
  | remove ref token => exact .inr (.inl ⟨ref, token, Option.some.inj hs ▸ view_observeRemoveEntry ref token s⟩)
  | pathChanged env period ref observation =>
      simp only [perform] at hs
      split at hs
      · cases hs
      · exact .inl (Option.some.inj hs ▸
          view_updateObservation (ConnectionEntry.scheduleTrigger_tracked _ _ _) ref observation s)
  | trigger env ref observation => exact hremoves (triggerObserve_removes h.single hs)
  | flush env online ref => exact hremoves (flushSendQueueJob_removes h.single hs)
  | writePayload written ref => exact .inl (hmodify (fun _ _ => ConnectionEntry.view_writeNotifyPayload) hs)
  | deliver env err ref =>
      refine .inl (hmodify (fun c c' hd => ?_) hs)
      split at hd
      · exact ConnectionEntry.view_handleNotifyDelivery hd
      · cases hd
  | interrupt ref =>
      have hf : Unseen (β := β) fun c => c.endExchange.deleteFlushTask := fun _ => rfl
      exact .inl (Option.some.inj hs ▸ s.view_modify hf ref)
  | schedFlush scheduled ref =>
      exact .inl (Option.some.inj hs ▸ s.view_modify (ConnectionEntry.view_schedFlushSendQueue scheduled) ref)
  | gc ssids => exact .inr (.inr (.inl ⟨ssids, Option.some.inj hs ▸ gcLoop_view ssids s.connectionEntries⟩))
  | cleanup => exact .inr (.inr (.inr (.inl (Option.some.inj hs ▸ rfl))))

/-- **The trees can follow**: from trees that agree with a view, a call leads to trees that agree with the next. -/
theorem Paths.Reachable.follow {r : Registry} (h : Paths.Reachable r) {v : View} (hf : Follows r.view v) :
    ∃ r', Paths.Reachable r' ∧ r'.view = v := by
  have hinv := h.inv
  rcases hf with rfl | ⟨ref, token, rfl⟩ | ⟨ssids, rfl⟩ | rfl | ⟨env, ref, token, paths, hmemory, rfl, hfresh⟩
  · exact ⟨r, h, rfl⟩
  · obtain ⟨r', hrun, -, hview⟩ := hinv.toSound.remove_view ref token
    exact ⟨r', .step (.remove ref token) h trivial hrun, hview⟩
  · obtain ⟨r', hrun, -⟩ := hinv.gcLoop ssids
    exact ⟨r', .step (.gc ssids) h trivial hrun, Paths.gcLoop_view ssids hrun⟩
  · exact ⟨[], .init, rfl⟩
  · have he : Enabled r (.observe env ref token paths) := by
      intro c hc hcref
      exact hfresh (c.connRef, c.observations) (List.mem_map_of_mem hc) hcref
    obtain ⟨r', hrun, hview⟩ := hinv.request_view he hmemory
    exact ⟨r', .step (.observe env ref token paths) h he hrun, hview⟩

/-- **For every state that the module reaches there are trees that agree with it**, reached by the same calls. -/
theorem Reachable.tracked (h : Reachable ops s) : ∃ r, Paths.Reachable r ∧ r.view = s.view := by
  induction h with
  | init => exact ⟨[], .init, rfl⟩
  | step event hreach hs ih =>
      obtain ⟨r, hr, hview⟩ := ih
      exact hr.follow (hview ▸ hreach.inv.perform_view hs)

end Simulation

end Anjay.Observe
