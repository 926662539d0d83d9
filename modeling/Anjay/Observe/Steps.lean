/-
  File:      Anjay/Observe/Steps.lean
  Subject:   What the operations of the observe module on one entry, and its updates, keep.

  * `Steps`: an operation that adds nothing, and keeps the observations with what they have sent.
  * `handleNotifyDelivery_steps`, `writeNotifyPayload_steps` and their siblings are of this kind.
  * `Inv.updateNotificationValue`, `Inv.triggerUpdate`: updating an observation keeps the invariant.
-/
import Anjay.Observe.Machine

namespace Anjay.Observe

open AttrStorage Dm Lib

variable {β : Type}

/-! ## 1. Operations on one entry -/

/-- An operation that adds nothing, and keeps the observations with what they have sent. -/
structure ConnectionEntry.Steps (c c' : ConnectionEntry β) : Prop extends c.Keeps c' where
  allSent : c'.AllSent
  sameObservations : c'.observations.map Observation.addr = c.observations.map Observation.addr

/-- An update of an observation that leaves its values alone. -/
def FramesValues (f : Observation β → Observation β) : Prop :=
  ∀ o, (f o).addr = o.addr ∧ (f o).lastUnsent = o.lastUnsent ∧ (f o).lastSent = o.lastSent

theorem scheduleTrigger_frames (env : ScheduleEnv) (newest : Duration) (period : Int) :
    FramesValues fun o : Observation β => (scheduleTrigger env newest period o).2 := by
  intro o
  show (scheduleTrigger env newest period o).2.addr = _ ∧ (scheduleTrigger env newest period o).2.lastUnsent = _ ∧
    (scheduleTrigger env newest period o).2.lastSent = _
  unfold scheduleTrigger
  split
  · exact ⟨rfl, rfl, rfl⟩
  · split
    · exact ⟨rfl, rfl, rfl⟩
    · split <;> exact ⟨rfl, rfl, rfl⟩

theorem schedulePmaxTrigger_frames (env : ScheduleEnv) (attrs : List (Except Failure InternalRAttrs))
    (newest : Duration) : FramesValues fun o : Observation β => (schedulePmaxTrigger env attrs newest o).2 := by
  intro o
  show (schedulePmaxTrigger env attrs newest o).2.addr = _ ∧ (schedulePmaxTrigger env attrs newest o).2.lastUnsent = _ ∧
    (schedulePmaxTrigger env attrs newest o).2.lastSent = _
  unfold schedulePmaxTrigger
  split
  · exact ⟨rfl, rfl, rfl⟩
  · split
    · exact scheduleTrigger_frames env newest _ o
    · exact ⟨rfl, rfl, rfl⟩

namespace ConnectionEntry

variable {c c' c'' : ConnectionEntry β} {value : Value β} {rest : List (Value β)}

theorem Steps.trans (h : c.Steps c') (h' : c'.Steps c'') : c.Steps c'' where
  toKeeps := h.toKeeps.trans h'.toKeeps
  allSent := h'.allSent
  sameObservations := h'.sameObservations.trans h.sameObservations

/-- An operation that leaves the queue and the observations alone. -/
theorem Steps.of_eq (h : c.Linked) (hs : c.AllSent) (href : c'.connRef = c.connRef)
    (hobs : c'.observations = c.observations) (hunsent : c'.unsent = c.unsent)
    (hlast : c'.unsentLast = c.unsentLast) : c.Steps c' := by
  obtain ⟨ref', obs', flush', exchange', unsent', last', recorded'⟩ := c'
  cases href
  cases hobs
  cases hunsent
  cases hlast
  exact ⟨⟨rfl, ⟨h.unsentLast, h.refs, h.lastUnsent, h.observations, h.values⟩, List.Subset.refl _,
    fun _ => Nat.le_refl _, Nat.le_refl _⟩, hs, rfl⟩

theorem Steps.refl (h : c.Linked) (hs : c.AllSent) : c.Steps c := Steps.of_eq h hs rfl rfl rfl rfl

theorem Steps.updateObservation (h : c.Linked) (hs : c.AllSent) {f : Observation β → Observation β}
    (hf : FramesValues f) (ptr : Nat) : c.Steps (c.updateObservation ptr f) where
  toKeeps := h.keeps_updateObservation hf
  allSent := hs.updateObservation fun o ho => by
    rw [(hf o).2.2]
    exact hs o ho
  sameObservations := updateObservation_addrs fun o => (hf o).1

theorem Steps.detachFirst (h : c.Linked) (hs : c.AllSent) (hc : c.unsent = value :: rest) :
    c.Steps (c.detachFirst value rest) where
  toKeeps := h.keeps_detachFirst hc
  allSent := hs.detachFirst
  sameObservations := updateObservation_addrs fun o => forgetUnsent_addr value.addr o

theorem Steps.removeAllUnsentValues (h : c.Linked) (hs : c.AllSent) : c.Steps c.removeAllUnsentValues where
  toKeeps := removeLoop_keeps c.unsent rfl h
  allSent := removeLoop_allSent c.unsent hs
  sameObservations := removeLoop_observations c.unsent c

/-- `value_sent`: the value moves from the queue to its observation. -/
theorem Steps.valueSent (h : c.Linked) (hs : c.AllSent) (hc : c.unsent = value :: rest) :
    c.Steps (c.valueSent value rest) := by
  have hdetach := Steps.detachFirst h hs hc
  have hcount := fun a => holds_detachFirst hc a
  have haddrs : (c.valueSent value rest).observations.map Observation.addr = c.observations.map Observation.addr := by
    unfold ConnectionEntry.valueSent
    rw [updateObservation_addrs]
    · exact hdetach.sameObservations
    · exact fun _ => rfl
  refine ⟨⟨rfl, hdetach.linked.updateObservation fun _ => ⟨rfl, rfl⟩, ?_, fun a => ?_, hdetach.unsent⟩, ?_, haddrs⟩
  · rw [haddrs]
    exact List.Subset.refl _
  · have hle : total (Observation.holds a) (c.valueSent value rest).observations ≤
        (if value.addr = a then 1 else 0) + total (Observation.holds a) (c.detachFirst value rest).observations :=
      total_updateAt_le hdetach.linked.observations fun o _ _ => by
        show [value.addr].count a ≤ _
        rw [List.count_singleton]
        by_cases heq : value.addr = a
        · simp [heq]
        · simp [heq]
    have := hcount a
    rw [holds_eq] at this ⊢
    have hunsent : (c.valueSent value rest).unsent = (c.detachFirst value rest).unsent := rfl
    rw [hunsent]
    omega
  · exact hdetach.allSent.updateObservation fun _ _ => ⟨value, rfl⟩

/-- A head with the address and the observation of the old one. -/
theorem Steps.setHead (h : c.Linked) (hs : c.AllSent) (hc : c.unsent = value :: rest) {head : Value β}
    (haddr : head.addr = value.addr) (href : head.ref = value.ref) : c.Steps (c.setHead head) := by
  have hunsent : (c.setHead head).unsent = head :: rest := by
    show head :: c.unsent.tail = _
    rw [hc]
    rfl
  have hmap : (c.setHead head).unsent.map Value.addr = c.unsent.map Value.addr := by
    rw [hunsent, hc, List.map_cons, List.map_cons, haddr]
  have hlast : ∀ vs : List (Value β), lastAddr (head :: vs) = lastAddr (value :: vs) := fun vs => by
    rw [lastAddr_cons, lastAddr_cons, haddr]
  refine ⟨⟨rfl, ⟨?_, fun v hv => ?_, fun o ho => ?_, h.observations, ?_⟩, List.Subset.refl _, fun a => ?_, ?_⟩, hs, rfl⟩
  · rw [hunsent, hlast, ← hc]
    exact h.unsentLast
  · rw [hunsent] at hv
    rcases List.mem_cons.mp hv with rfl | hv
    · exact href ▸ h.refs value (hc ▸ List.mem_cons_self)
    · exact h.refs v (hc ▸ List.mem_cons_of_mem _ hv)
  · have hold := h.lastUnsent o ho
    rw [hc, refersTo_cons] at hold
    rw [hunsent, refersTo_cons, href]
    split
    · rw [hlast]
      rwa [if_pos ‹_›] at hold
    · rwa [if_neg ‹_›] at hold
  · rw [hmap]
    exact h.values
  · rw [holds_eq, holds_eq, hmap]
    exact Nat.le_refl _
  · rw [hunsent, hc]
    exact Nat.le_refl _

theorem Steps.confirmed (h : c.Linked) (hs : c.AllSent) (now : Duration) (value : Value β) :
    c.Steps (c.confirmed now value) := by
  unfold ConnectionEntry.confirmed
  split
  · refine Steps.updateObservation h hs ?_ _
    exact fun _ => ⟨rfl, rfl, rfl⟩
  · exact Steps.refl h hs

theorem Steps.schedFlushSendQueue (h : c.Linked) (hs : c.AllSent) (scheduled : Bool) :
    c.Steps (c.schedFlushSendQueue scheduled) := by
  unfold ConnectionEntry.schedFlushSendQueue
  split
  · exact Steps.refl h hs
  · exact Steps.of_eq h hs rfl rfl rfl rfl

/-- A change of all observations that leaves their values alone. -/
theorem Steps.mapObservations (h : c.Linked) (hs : c.AllSent) {f : Observation β → Observation β}
    (hf : FramesValues f) : c.Steps { c with observations := c.observations.map f } := by
  have haddrs : (c.observations.map f).map Observation.addr = c.observations.map Observation.addr := by
    rw [List.map_map]
    exact List.map_congr_left fun o _ => (hf o).1
  refine ⟨⟨rfl, ⟨h.unsentLast, fun v hv => ?_, fun o ho => ?_, ?_, h.values⟩, ?_, fun a => ?_, Nat.le_refl _⟩,
    fun o ho => ?_, haddrs⟩
  · exact haddrs ▸ h.refs v hv
  · obtain ⟨o', ho', rfl⟩ := List.mem_map.mp ho
    rw [(hf o').1, (hf o').2.1]
    exact h.lastUnsent o' ho'
  · exact haddrs ▸ h.observations
  · exact haddrs ▸ List.Subset.refl _
  · rw [holds_eq, holds_eq]
    refine Nat.le_of_eq (congrArg ((c.unsent.map Value.addr).count a + ·) ?_)
    show total (Observation.holds a) (c.observations.map f) = _
    rw [total_map]
    refine congrArg (total · c.observations) (funext fun o => ?_)
    unfold Observation.holds
    rw [(hf o).2.2]
  · obtain ⟨o', ho', rfl⟩ := List.mem_map.mp ho
    rw [(hf o').2.2]
    exact hs o' ho'

theorem pmaxTrigger_frames (env : Nat → PmaxEnv) (c : ConnectionEntry β) :
    FramesValues fun o => if o.notifyTask.isSome then o else (c.pmaxTrigger (env o.addr) o).2 := by
  intro o
  dsimp only
  split
  · exact ⟨rfl, rfl, rfl⟩
  · unfold pmaxTrigger
    split
    · exact schedulePmaxTrigger_frames _ _ _ o
    · exact ⟨rfl, rfl, rfl⟩

theorem Steps.scheduleAllTriggers (h : c.Linked) (hs : c.AllSent) (env : Nat → PmaxEnv) :
    c.Steps (c.scheduleAllTriggers env) :=
  Steps.mapObservations h hs (pmaxTrigger_frames env c)

theorem Steps.onEntryFlushed (h : c.Linked) (hs : c.AllSent) (env : FlushedEnv) (err : AvsError) :
    c.Steps (c.onEntryFlushed env err) := by
  unfold ConnectionEntry.onEntryFlushed
  split
  · split
    · exact Steps.scheduleAllTriggers h hs _
    · exact Steps.schedFlushSendQueue h hs _
  · split
    · exact Steps.refl h hs
    · exact Steps.refl h hs
    · split
      · exact Steps.refl h hs
      · exact Steps.removeAllUnsentValues h hs

theorem Steps.endExchange (h : c.Linked) (hs : c.AllSent) : c.Steps c.endExchange := Steps.of_eq h hs rfl rfl rfl rfl

theorem Steps.deleteFlushTask (h : c.Linked) (hs : c.AllSent) : c.Steps c.deleteFlushTask :=
  Steps.of_eq h hs rfl rfl rfl rfl

end ConnectionEntry

open ConnectionEntry

variable {c c' : ConnectionEntry β}

/-- **A delivered or failed notification.** -/
theorem handleNotifyDelivery_steps (h : c.Linked) (hs : c.AllSent) {env : DeliveryEnv} {err : AvsError}
    (hd : handleNotifyDelivery env err c = some c') : c.Steps c' := by
  unfold handleNotifyDelivery at hd
  have hend := Steps.endExchange h hs
  split at hd
  · split at hd
    · exact nomatch hd
    · rename_i value rest hunsent
      have hrecord : c.Steps (c.endExchange.record c.notifyExchange value) := Steps.of_eq h hs rfl rfl rfl rfl
      have hconfirmed := Steps.confirmed hrecord.linked hrecord.allSent env.now value
      have hqueue : ((c.endExchange.record c.notifyExchange value).confirmed env.now value).unsent = value :: rest := by
        unfold ConnectionEntry.confirmed
        split <;> exact hunsent
      have hsent := Steps.valueSent hconfirmed.linked hconfirmed.allSent hqueue
      have hflushed := Steps.onEntryFlushed hsent.linked hsent.allSent env.flushed err
      exact Option.some.inj hd ▸ ((hrecord.trans hconfirmed).trans hsent).trans hflushed
  · exact Option.some.inj hd ▸ hend.trans (Steps.onEntryFlushed hend.linked hend.allSent env.flushed err)

theorem writeNotifyPayload_steps (h : c.Linked) (hs : c.AllSent) {written : Bool}
    (hw : writeNotifyPayload written c = some c') : c.Steps c' := by
  unfold writeNotifyPayload at hw
  split at hw
  · exact nomatch hw
  · split at hw
    · split at hw
      · exact nomatch hw
      · split at hw
        · exact nomatch hw
        · exact Option.some.inj hw ▸ Steps.of_eq h hs rfl rfl rfl rfl
    · exact Option.some.inj hw ▸ Steps.of_eq h hs rfl rfl rfl rfl

/-! ## 2. Operations on the state -/

section States

variable {s s' : State β} {ref : ConnectionRef} {f : ConnectionEntry β → ConnectionEntry β}

/-- The observation at an address belongs to a connection. -/
def State.Observes (ref : ConnectionRef) (observation : Nat) (s : State β) : Prop :=
  ∃ c, s.entry ref = some c ∧ observation ∈ c.observations.map Observation.addr

namespace Inv

theorem entry_eq_of_mem (h : Inv s) (hc : s.entry ref = some c) {d : ConnectionEntry β} (hd : d ∈ s.connectionEntries)
    (hr : d.connRef = ref) : d = c :=
  h.toSound.eq_of_mem hd (State.entry_some hc).1 (hr.trans (State.entry_some hc).2.symm)

theorem steps (h : Inv s)
    (hf : ∀ c ∈ s.connectionEntries, c.connRef = ref → c.Linked → c.AllSent → c.Steps (f c)) : Inv (s.modify ref f) :=
  have hsteps := fun c hc hr => hf c hc hr (h.linked c hc) (h.allSent c hc)
  h.modify (fun c hc hr => (hsteps c hc hr).toKeeps) (fun c hc hr => (hsteps c hc hr).allSent)
    fun c hc hr => observations_ne_nil (hsteps c hc hr).sameObservations (h.occupied c hc)

/-- An operation on the entry of a connection that is there. -/
theorem steps_entry (h : Inv s) (hc : s.entry ref = some c) (hf : c.Steps (f c)) : Inv (s.modify ref f) :=
  h.steps fun d hd hr _ _ => by
    rw [h.entry_eq_of_mem hc hd hr]
    exact hf

theorem observes_steps (h : Inv s) {observation : Nat} (ho : s.Observes ref observation)
    (hf : ∀ c : ConnectionEntry β, c.Linked → c.AllSent → c.Steps (f c)) : (s.modify ref f).Observes ref observation := by
  obtain ⟨c, hc, hmem⟩ := ho
  obtain ⟨hcs, hr⟩ := State.entry_some hc
  have hsteps := hf c (h.linked c hcs) (h.allSent c hcs)
  exact ⟨f c, h.toSound.entry_modify hc (hsteps.connRef.trans hr), hsteps.sameObservations ▸ hmem⟩

theorem modify? (h : Inv s) {g : ConnectionEntry β → Option (ConnectionEntry β)}
    (hg : ∀ c c' : ConnectionEntry β, c.Linked → c.AllSent → g c = some c' → c.Steps c') (hs : s.modify? ref g = some s') : Inv s' := by
  unfold State.modify? at hs
  split at hs
  · exact nomatch hs
  · rename_i c hc
    split at hs
    · exact nomatch hs
    · rename_i c' hc'
      obtain ⟨hmem, _⟩ := State.entry_some hc
      exact Option.some.inj hs ▸ h.steps_entry hc (hg c c' (h.linked c hmem) (h.allSent c hmem) hc')

theorem insertNewValue_observes (h : Inv s) {observation : Nat} (ho : s.Observes ref observation) (env : InsertEnv)
    (ptr : Nat) (hint : ReliabilityHint) (details : DetailsPtr) (values : List β) :
    (Observe.insertNewValue env ref ptr hint details values s).2.Observes ref observation := by
  obtain ⟨c, hc, hmem⟩ := ho
  obtain ⟨c', hc', haddrs, _⟩ := h.entry_makeRoom hc
  unfold Observe.insertNewValue
  split
  · refine ⟨_, h.makeRoom.toSound.entry_modify hc' (State.entry_some hc').2, ?_⟩
    rw [show (c'.appendUnsent _).observations.map Observation.addr = c'.observations.map Observation.addr from
      updateObservation_addrs fun _ => rfl, haddrs]
    exact hmem
  · exact ⟨c', hc', haddrs ▸ hmem⟩

/-! ## 3. Updating and flushing -/

theorem frames (h : Inv s) {g : Observation β → Observation β} (hg : FramesValues g) (ptr : Nat) :
    Inv (s.modify ref (ConnectionEntry.updateObservation ptr g)) :=
  h.steps fun _ _ _ hl hs => Steps.updateObservation hl hs hg ptr

theorem noNotifyTask_frames : FramesValues fun o : Observation β => { o with notifyTask := none } :=
  fun _ => ⟨rfl, rfl, rfl⟩

theorem takeNotifyTask (h : Inv s) (ref : ConnectionRef) (observation : Nat) : Inv (s.takeNotifyTask ref observation) :=
  h.frames noNotifyTask_frames observation

theorem insertError (h : Inv s) {observation : Nat} (ho : s.Observes ref observation) (env : InsertEnv)
    (outerResult : Int) : Inv (insertError env ref observation outerResult s).2 := by
  obtain ⟨c, hc, hmem⟩ := h.observes_steps ho fun _ hl hs =>
    Steps.updateObservation hl hs noNotifyTask_frames observation
  exact (h.frames noNotifyTask_frames observation).insertNewValue env hc hmem _ _ _

/-- **`update_notification_value` keeps the invariant, and the observation.** -/
theorem updateNotificationValue (h : Inv s) (ops : BatchOps β) (env : UpdateEnv β) {o : Observation β}
    (ho : s.Observes ref o.addr) (newest : Value β) :
    Inv (updateNotificationValue ops env ref o newest s).2 ∧
      (updateNotificationValue ops env ref o newest s).2.Observes ref o.addr := by
  have hinsert : ∀ vars, Inv (insertUpdate env ref o.addr newest vars s).2 ∧
      (insertUpdate env ref o.addr newest vars s).2.Observes ref o.addr := fun vars => by
    unfold insertUpdate
    split
    · obtain ⟨c, hc, hmem⟩ := ho
      exact ⟨h.insertNewValue _ hc hmem _ _ _, h.insertNewValue_observes ⟨c, hc, hmem⟩ _ _ _ _ _⟩
    · exact ⟨h, ho⟩
  unfold Observe.updateNotificationValue
  split
  · exact ⟨h, ho⟩
  · split
    · exact ⟨h, ho⟩
    · split
      · exact ⟨h, ho⟩
      · rename_i vars _
        obtain ⟨hinv, hobs⟩ := hinsert vars
        unfold scheduleUpdate
        split
        · split
          · exact ⟨hinv.frames (scheduleTrigger_frames _ _ _) _, hinv.observes_steps hobs fun _ hl hs =>
              Steps.updateObservation hl hs (scheduleTrigger_frames _ _ _) _⟩
          · exact ⟨hinv, hobs⟩
        · exact ⟨hinv, hobs⟩

theorem triggerUpdate (h : Inv s) (ops : BatchOps β) (env : TriggerEnv β) {o : Observation β}
    (ho : s.Observes ref o.addr) (newest : Value β) : Inv (triggerUpdate ops env ref o newest s) := by
  unfold Observe.triggerUpdate
  split
  · obtain ⟨hinv, hobs⟩ := h.updateNotificationValue ops env.update ho newest
    split
    · exact hinv
    · exact hinv.insertError hobs _ _
  · exact h

/-- What remains after entries without observations are deleted. -/
theorem deleteConnectionIfEmpty (h : Inv s) (ref : ConnectionRef) : Inv (s.deleteConnectionIfEmpty ref) :=
  h.sublist List.filter_sublist

end Inv

end States

end Anjay.Observe
