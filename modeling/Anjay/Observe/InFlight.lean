/-
  File:      Anjay/Observe/InFlight.lean
  Subject:   Notification exchanges under way, while the queues change and observations go.

  * `Carries`, `InFlight`: the exchange of a connection carries the value at the head of its queue, and whatever was
    taken for sent was carried by its exchange.
  * `Undisturbed`: no insertion drops a head that is under way or the newest value it copies from, and no payload
    writer fails; `reachable_inFlight`: **in every run of such events it stays so.**
  * `removeOther_iff`: removing an observation leaves the values of another one in place, with something to send them
    iff a flush was scheduled already.
-/
import Anjay.Observe.Runs

namespace Anjay.Observe

open AttrStorage Dm Lib ConnectionEntry

variable {β : Type}

/-! ## 1. What an exchange carries -/

/-- The exchange was started for the value, all its chunks are of the value, and the payload writer never failed. -/
structure Exchange.Carries (e : Exchange) (v : Value β) : Prop where
  startedFor : e.startedFor = v.addr
  chunks : ∀ a ∈ e.chunks, a = v.addr
  succeeded : e.failed = false
  serialized : v.isError = false → e.chunks ≠ []

/-- The exchange of a connection carries the head of the queue, and so did those that are over. Errors are confirmable,
    so that avs_coap does not cancel their observation before they are sent. -/
structure ConnectionEntry.InFlight (c : ConnectionEntry β) : Prop where
  head : ∀ e, c.notifyExchange = some e → ∃ v rest, c.unsent = v :: rest ∧ e.Carries v
  recorded : ∀ r ∈ c.recorded, ∃ e, r.1 = some e ∧ e.Carries r.2
  errors : ∀ v ∈ c.unsent, v.isError = true → v.reliabilityHint = .preferConfirmable

/-- An operation on a queue without an exchange, or one that keeps the head. -/
structure ConnectionEntry.KeepsHead (c c' : ConnectionEntry β) : Prop where
  exchange : c'.notifyExchange = none ∨ (c'.notifyExchange = c.notifyExchange ∧ c'.unsent.head? = c.unsent.head?)
  recorded : c'.recorded = c.recorded
  unsent : c'.unsent ⊆ c.unsent

section Entry

variable {c c' c'' : ConnectionEntry β} {value : Value β} {rest : List (Value β)}

theorem ConnectionEntry.KeepsHead.trans (h : c.KeepsHead c') (h' : c'.KeepsHead c'') : c.KeepsHead c'' where
  exchange := h'.exchange.elim .inl fun h'' =>
    h.exchange.elim (fun hnone => .inl (h''.1.trans hnone)) fun h''' => .inr ⟨h''.1.trans h'''.1, h''.2.trans h'''.2⟩
  recorded := h'.recorded.trans h.recorded
  unsent := List.Subset.trans h'.unsent h.unsent

/-- An operation that leaves the queue, the exchange and the record alone. -/
theorem ConnectionEntry.KeepsHead.of_eq (hexchange : c'.notifyExchange = none ∨ c'.notifyExchange = c.notifyExchange)
    (hrecorded : c'.recorded = c.recorded) (hunsent : c'.unsent = c.unsent) : c.KeepsHead c' where
  exchange := hexchange.imp_right fun h => ⟨h, by rw [hunsent]⟩
  recorded := hrecorded
  unsent := hunsent ▸ List.Subset.refl _

theorem ConnectionEntry.InFlight.keepsHead (h : c.InFlight) (hk : c.KeepsHead c') : c'.InFlight where
  head e he := by
    rcases hk.exchange with hnone | ⟨hsame, hhead⟩
    · exact nomatch hnone.symm.trans he
    · obtain ⟨v, rest, hunsent, hcarries⟩ := h.head e (hsame.symm.trans he)
      rw [hunsent] at hhead
      obtain ⟨rest', hrest⟩ := List.head?_eq_some_iff.mp hhead
      exact ⟨v, rest', hrest, hcarries⟩
  recorded := hk.recorded ▸ h.recorded
  errors v hv := h.errors v (hk.unsent hv)

theorem removeLoop_keepsHead : ∀ (vs : List (Value β)) {c : ConnectionEntry β}, c.notifyExchange = none →
    c.unsent = vs → c.KeepsHead (removeLoop vs c)
  | [], _, hnone, _ => .of_eq (.inl hnone) rfl rfl
  | value :: rest, c, hnone, hc => by
      unfold removeLoop
      split
      · exact .of_eq (.inl hnone) rfl rfl
      · have hdetach : c.KeepsHead (c.detachFirst value rest) :=
          ⟨.inl hnone, rfl, hc ▸ List.subset_cons_self value rest⟩
        exact hdetach.trans (removeLoop_keepsHead rest hnone rfl)

/-- `on_entry_flushed` comes after the exchange. -/
theorem onEntryFlushed_keepsHead (hnone : c.notifyExchange = none) (env : FlushedEnv) (err : AvsError) :
    c.KeepsHead (c.onEntryFlushed env err) := by
  unfold ConnectionEntry.onEntryFlushed
  split
  · split
    · exact .of_eq (.inl hnone) rfl rfl
    · unfold ConnectionEntry.schedFlushSendQueue
      split
      · exact .of_eq (.inl hnone) rfl rfl
      · exact .of_eq (.inl hnone) rfl rfl
  · split
    · exact .of_eq (.inl hnone) rfl rfl
    · exact .of_eq (.inl hnone) rfl rfl
    · split
      · exact .of_eq (.inl hnone) rfl rfl
      · exact removeLoop_keepsHead c.unsent hnone rfl

@[simp] theorem confirmed_exchange (now : Duration) (value : Value β) (c : ConnectionEntry β) :
    (c.confirmed now value).notifyExchange = c.notifyExchange := by
  unfold ConnectionEntry.confirmed
  split <;> rfl

@[simp] theorem confirmed_recorded (now : Duration) (value : Value β) (c : ConnectionEntry β) :
    (c.confirmed now value).recorded = c.recorded := by
  unfold ConnectionEntry.confirmed
  split <;> rfl

/-- **A delivery takes the value that the exchange carries for sent**; there is one. -/
theorem ConnectionEntry.InFlight.handleNotifyDelivery (h : c.InFlight) (hflight : c.notifyExchange.isSome = true)
    (env : DeliveryEnv) (err : AvsError) : ∃ c', handleNotifyDelivery env err c = some c' ∧ c'.InFlight := by
  obtain ⟨e, he⟩ := Option.isSome_iff_exists.mp hflight
  obtain ⟨v, rest, hunsent, hcarries⟩ := h.head e he
  unfold Observe.handleNotifyDelivery
  split
  · rw [hunsent]
    refine ⟨_, rfl, ?_⟩
    have hexchange : (((c.endExchange.record c.notifyExchange v).confirmed env.now v).valueSent v rest).notifyExchange =
        none := confirmed_exchange env.now v (c.endExchange.record c.notifyExchange v)
    have hrecorded : (((c.endExchange.record c.notifyExchange v).confirmed env.now v).valueSent v rest).recorded =
        c.recorded ++ [(c.notifyExchange, v)] := confirmed_recorded env.now v (c.endExchange.record c.notifyExchange v)
    refine InFlight.keepsHead ?_ (onEntryFlushed_keepsHead hexchange env.flushed err)
    refine ⟨fun e' he' => (nomatch hexchange.symm.trans he'), fun r hr => ?_, fun v' hv' =>
      h.errors v' (hunsent ▸ List.mem_cons_of_mem _ hv')⟩
    rw [hrecorded] at hr
    rcases List.mem_append.mp hr with hr | hr
    · exact h.recorded r hr
    · rw [List.mem_singleton.mp hr]
      exact ⟨e, he, hcarries⟩
  · refine ⟨_, rfl, ?_⟩
    have hend : c.KeepsHead c.endExchange := .of_eq (.inl rfl) rfl rfl
    exact (h.keepsHead hend).keepsHead (onEntryFlushed_keepsHead rfl env.flushed err)

/-- **A chunk is of the value that the exchange carries.** -/
theorem ConnectionEntry.InFlight.writeNotifyPayload (h : c.InFlight)
    (hw : writeNotifyPayload true c = some c') : c'.InFlight := by
  unfold Observe.writeNotifyPayload at hw
  cases he : c.notifyExchange with
  | none =>
      rw [he] at hw
      exact nomatch hw
  | some e =>
      obtain ⟨v, rest, hunsent, hcarries⟩ := h.head e he
      simp only [he, hunsent, if_true] at hw
      by_cases herror : v.isError = true
      · rw [if_pos herror] at hw
        exact nomatch hw
      rw [if_neg herror] at hw
      cases hw
      refine ⟨fun e' he' => ⟨v, rest, rfl, ?_⟩, h.recorded, fun w hw => h.errors w (hunsent ▸ hw)⟩
      cases he'
      refine ⟨hcarries.startedFor, fun a ha => ?_, hcarries.succeeded, fun _ => by simp⟩
      rcases List.mem_append.mp ha with ha | ha
      · exact hcarries.chunks a ha
      · exact List.mem_singleton.mp ha

/-- The first message of an exchange carries the head. -/
theorem startedExchange_carries {env : FlushEnv} (hwritten : env.chunkWritten = true) (value : Value β) :
    (startedExchange env value).Carries value := by
  unfold startedExchange
  by_cases herror : value.isError = true
  · rw [if_pos herror]
    refine ⟨rfl, fun a ha => (nomatch ha), rfl, fun hno => ?_⟩
    exact nomatch herror.symm.trans hno
  · rw [if_neg herror, if_pos hwritten]
    exact ⟨rfl, fun a ha => List.mem_singleton.mp ha, rfl, fun _ => List.cons_ne_nil _ _⟩

theorem ConnectionEntry.InFlight.startExchange (h : c.InFlight) (hc : c.unsent = value :: rest) {env : FlushEnv}
    (hwritten : env.chunkWritten = true) : (c.startExchange env value).InFlight where
  head e he := by
    cases he
    exact ⟨value, rest, hc, startedExchange_carries hwritten value⟩
  recorded := h.recorded
  errors := h.errors

end Entry

/-! ## 2. The whole state -/

/-- Every entry is as it should be. -/
def Flights (s : State β) : Prop := ∀ c ∈ s.connectionEntries, c.InFlight

section States

variable {s s' : State β} {ref : ConnectionRef} {c : ConnectionEntry β} {f : ConnectionEntry β → ConnectionEntry β}

namespace Flights

theorem modify' (h : Flights s) (hf : ∀ c ∈ s.connectionEntries, c.connRef = ref → (f c).InFlight) :
    Flights (s.modify ref f) := by
  intro c' hc'
  obtain ⟨c, hc, rfl⟩ := State.mem_modify.mp hc'
  split
  · exact hf c hc ‹_›
  · exact h c hc

theorem modify (h : Flights s) (hf : ∀ c ∈ s.connectionEntries, c.connRef = ref → c.KeepsHead (f c)) :
    Flights (s.modify ref f) :=
  h.modify' fun c hc hr => (h c hc).keepsHead (hf c hc hr)

theorem sublist (h : Flights s) {cs : List (ConnectionEntry β)} (hsub : cs.Sublist s.connectionEntries) :
    Flights { s with connectionEntries := cs } := fun c hc => h c (hsub.subset hc)

theorem updateObservation (h : Flights s) (ptr : Nat) (g : Observation β → Observation β) :
    Flights (s.modify ref (ConnectionEntry.updateObservation ptr g)) :=
  h.modify fun _ _ _ => .of_eq (.inr rfl) rfl rfl

theorem deleteFlushTask (h : Flights s) : Flights (s.modify ref ConnectionEntry.deleteFlushTask) :=
  h.modify fun _ _ _ => .of_eq (.inr rfl) rfl rfl

/-! ## 3. Adding and removing observations -/

theorem removeObservation_unsent (o : Observation β) (c : ConnectionEntry β) :
    (c.removeObservation o).unsent ⊆ c.unsent ∧ (c.removeObservation o).notifyExchange = c.notifyExchange ∧
      (c.removeObservation o).recorded = c.recorded := by
  unfold ConnectionEntry.removeObservation ConnectionEntry.clearObservation
  split
  · exact ⟨List.filter_subset_self _, rfl, rfl⟩
  · exact ⟨List.Subset.refl _, rfl, rfl⟩

theorem observeRemoveEntry (h : Flights s) (token : Token) : Flights (observeRemoveEntry ref token s) := by
  have hend : Flights (s.modify ref ConnectionEntry.endExchange) := h.modify fun _ _ _ => .of_eq (.inl rfl) rfl rfl
  unfold Observe.observeRemoveEntry
  split
  · exact h
  · split
    · exact hend
    · refine (hend.modify fun c hc hr => ?_).sublist List.filter_sublist
      rename_i o _
      obtain ⟨d, _, rfl⟩ := State.mem_modify.mp hc
      obtain ⟨hunsent, hexchange, hrecorded⟩ := removeObservation_unsent o (if d.connRef = ref then d.endExchange else d)
      have hd : d.connRef = ref := by
        by_cases hd : d.connRef = ref
        · exact hd
        · rwa [if_neg hd] at hr
      rw [if_pos hd] at hunsent hexchange hrecorded ⊢
      exact ⟨.inl hexchange, hrecorded, hunsent⟩

theorem deleteAtIfEmpty (h : Flights s) : Flights (s.deleteAtIfEmpty ref) := by
  unfold State.deleteAtIfEmpty
  split
  · exact h
  · exact h.sublist List.filter_sublist

theorem observeFailed (h : Flights s) (token : Token) : Flights (observeFailed ref token s) :=
  (h.observeRemoveEntry token).deleteAtIfEmpty

theorem findOrCreate (h : Flights s) : Flights (s.findOrCreate ref) := by
  intro c hc
  rcases mem_findOrCreate hc with hc | rfl
  · exact h c hc
  · exact ⟨fun e he => (nomatch he), fun r hr => (nomatch hr), fun v hv => (nomatch hv)⟩

theorem observeHandle (h : Flights s) {env : ObserveEnv β} {token : Token} {paths : List UriPath}
    (hs : observeHandle env ref token paths s = some s') : Flights s' := by
  have hput : Flights ((s.findOrCreate ref).putEntry ref token paths) := by
    intro c hc
    refine Flights.modify (f := ConnectionEntry.insertObservation (newObservation token paths _)) h.findOrCreate ?_ c hc
    exact fun _ _ _ => .of_eq (.inr rfl) rfl rfl
  have hinitial : ∀ values, Flights (((s.findOrCreate ref).putEntry ref token paths).insertInitialValue env ref
      (s.findOrCreate ref).next values) := fun values c hc => hput.updateObservation _ _ c hc
  unfold Observe.observeHandle at hs
  split at hs
  · exact Option.some.inj hs ▸ h.sublist List.eraseP_sublist
  split at hs
  · exact Option.some.inj hs ▸ h
  · split at hs
    · exact nomatch hs
    · split at hs
      · exact Option.some.inj hs ▸ h.findOrCreate.sublist List.filter_sublist
      · rw [← Option.some.inj hs]
        unfold observeRead
        split
        · split
          · split
            · exact hinitial _
            · exact (hinitial _).observeFailed token
          · exact hput.observeFailed token
        · exact h.findOrCreate.observeFailed token

end Flights

/-! ## 4. Flushing -/

/-- No exchange is under way on the connection. -/
def State.Idle (ref : ConnectionRef) (s : State β) : Prop :=
  ∀ c ∈ s.connectionEntries, c.connRef = ref → c.notifyExchange = none

theorem Inv.idle (h : Inv s) (hc : s.entry ref = some c) (hnone : c.notifyExchange = none) : s.Idle ref :=
  fun d hd hr => by rw [h.entry_eq_of_mem hc hd hr, hnone]

theorem State.Idle.modify (h : s.Idle ref) (hf : ∀ c, (f c).notifyExchange = c.notifyExchange) :
    (s.modify ref f).Idle ref := by
  intro c' hc' href
  obtain ⟨c, hc, rfl⟩ := State.mem_modify.mp hc'
  by_cases hcr : c.connRef = ref
  · rw [if_pos hcr, hf]
    exact h c hc hcr
  · rw [if_neg hcr] at href
    exact absurd href hcr

namespace Flights

theorem onEntryFlushed (h : Flights s) (hidle : s.Idle ref) (env : FlushedEnv) (err : AvsError) :
    Flights (s.modify ref (ConnectionEntry.onEntryFlushed env err)) :=
  h.modify fun c hc hr => onEntryFlushed_keepsHead (hidle c hc hr) env err

/-- `avs_coap_notify_async` for the head of the queue. -/
theorem notifyAsync (h : Flights s) (hinv : Inv s) (hc : s.entry ref = some c) (hidle : s.Idle ref) {value : Value β}
    {rest : List (Value β)} (hunsent : c.unsent = value :: rest) {env : FlushEnv} (hwritten : env.chunkWritten = true)
    (hs : notifyAsync env ref value s = some s') : Flights s' := by
  have hstart : (c.startExchange env value).InFlight := (h c (State.entry_some hc).1).startExchange hunsent hwritten
  unfold Observe.notifyAsync at hs
  rw [hc] at hs
  cases hnotify : env.notify with
  | refused err =>
      rw [hnotify] at hs
      exact Option.some.inj hs ▸ h.onEntryFlushed hidle _ _
  | completed =>
      obtain ⟨c', hdeliver, hc'⟩ := hstart.handleNotifyDelivery rfl env.delivery .ok
      simp only [hnotify, hdeliver] at hs
      exact Option.some.inj hs ▸ h.modify' fun _ _ _ => hc'
  | pending =>
      rw [hnotify] at hs
      exact Option.some.inj hs ▸ h.modify' fun d hd hr => by
        rw [hinv.entry_eq_of_mem hc hd hr]
        exact hstart

/-- The head gets the hint with which it is sent. -/
theorem setHead (h : Flights s) (hinv : Inv s) (hc : s.entry ref = some c) (hidle : s.Idle ref) {value : Value β}
    {rest : List (Value β)} (hunsent : c.unsent = value :: rest) (env : FlushEnv) (o : Observation β) :
    Flights (s.modify ref (ConnectionEntry.setHead (sentHint env o value))) := by
  refine h.modify' fun d hd hr => ?_
  have hflight := h d hd
  refine ⟨fun e he => (nomatch (hidle d hd hr).symm.trans he), hflight.recorded, fun v hv herror => ?_⟩
  rw [hinv.entry_eq_of_mem hc hd hr] at hv hflight
  rcases List.mem_cons.mp hv with rfl | hv
  · unfold sentHint at herror ⊢
    split
    · rfl
    · rename_i hrequired
      rw [if_neg hrequired] at herror
      exact hflight.errors value (hunsent ▸ List.mem_cons_self) herror
  · exact hflight.errors v (List.mem_of_mem_tail hv) herror

/-- **`flush_next_unsent` starts an exchange for the head of the queue**, or leaves the connection without one. -/
theorem flushNextUnsent (h : Flights s) (hinv : Inv s) (hidle : s.Idle ref) {env : FlushEnv}
    (hwritten : env.chunkWritten = true) (hs : flushNextUnsent env ref s = some s') : Flights s' := by
  unfold Observe.flushNextUnsent at hs
  split at hs
  · exact nomatch hs
  · rename_i c hc
    split at hs
    · exact nomatch hs
    · rename_i value rest hunsent
      split at hs
      · exact nomatch hs
      · rename_i o _
        obtain ⟨hmem, hr⟩ := State.entry_some hc
        have hhead : Flights (s.modify ref (ConnectionEntry.setHead (sentHint env o value))) :=
          h.setHead hinv hc hidle hunsent env o
        have hidle' : (s.modify ref (ConnectionEntry.setHead (sentHint env o value))).Idle ref :=
          hidle.modify fun _ => rfl
        obtain ⟨haddr, href⟩ := sentHint_addr env o value
        have hinv' := hinv.steps_entry hc
          (Steps.setHead (hinv.linked c hmem) (hinv.allSent c hmem) hunsent haddr href)
        have hc' : (s.modify ref (ConnectionEntry.setHead (sentHint env o value))).entry ref =
            some (c.setHead (sentHint env o value)) := hinv.toSound.entry_modify hc hr
        have hunsent' : (c.setHead (sentHint env o value)).unsent = sentHint env o value :: rest := by
          show sentHint env o value :: c.unsent.tail = _
          rw [hunsent]
          rfl
        unfold flushValue at hs
        split at hs
        · exact Option.some.inj hs ▸ hhead.onEntryFlushed hidle' _ _
        · split at hs
          · exact Option.some.inj hs ▸ hhead.onEntryFlushed hidle' _ _
          · unfold cancelNotificationOnError at hs
            -- an error is confirmable, so that its observation is not cancelled first
            have hconfirmable := (hhead _ (State.entry_some hc').1).errors (sentHint env o value)
              (hunsent' ▸ List.mem_cons_self)
            rw [if_neg fun hcancel => ?_] at hs
            · exact hhead.notifyAsync hinv' hc' hidle' hunsent' hwritten hs
            · rw [Bool.and_eq_true] at hcancel
              rw [hconfirmable hcancel.1] at hcancel
              exact nomatch hcancel.2

theorem triggerFlush (h : Flights s) (hinv : Inv s) {env : TriggerEnv β} (hwritten : env.flush.chunkWritten = true)
    (hs : triggerFlush env ref s = some s') : Flights s' := by
  unfold Observe.triggerFlush at hs
  split at hs
  · exact nomatch hs
  · rename_i c hc
    split at hs
    · rename_i hready
      rw [Bool.and_eq_true, Option.isNone_iff_eq_none] at hready
      have hidle := hinv.idle hc hready.2
      split at hs
      · exact h.deleteFlushTask.flushNextUnsent hinv.deleteFlushTask (hidle.modify fun _ => rfl) hwritten hs
      · split at hs
        · exact Option.some.inj hs ▸ h.deleteFlushTask
        · refine Option.some.inj hs ▸ h.modify fun d hd hr => ?_
          have hflush : d.KeepsHead d.deleteFlushTask := .of_eq (.inr rfl) rfl rfl
          exact hflush.trans (removeLoop_keepsHead d.deleteFlushTask.unsent (hidle d hd hr) rfl)
    · exact Option.some.inj hs ▸ h

end Flights

/-! ## 5. Inserting values -/

/-- Whether making room deletes a value that is under way: the queue is full, and there is an exchange on the connection
    with the oldest head. -/
def State.dropsInFlight (s : State β) : Bool :=
  s.isObserveQueueFull &&
    match s.findOldestQueuedNotification with
    | some oldest => oldest.notifyExchange.isSome
    | none => false

theorem State.dropsInFlight_modify (hunsent : ∀ c, (f c).unsent = c.unsent)
    (hexchange : ∀ c, (f c).notifyExchange = c.notifyExchange) : (s.modify ref f).dropsInFlight = s.dropsInFlight := by
  obtain ⟨hfull, hold⟩ : (s.modify ref f).isObserveQueueFull = s.isObserveQueueFull ∧ _ := State.oldest_modify hunsent
  unfold State.dropsInFlight
  rw [hfull, hold]
  cases s.findOldestQueuedNotification with
  | none => rfl
  | some oldest =>
      show (s.isObserveQueueFull && (if oldest.connRef = ref then f oldest else oldest).notifyExchange.isSome) = _
      split
      · rw [hexchange]
      · rfl

/-- Once there is room, nothing is deleted for more. -/
theorem Inv.dropsInFlight_makeRoom (h : Inv s) : s.makeRoom.dropsInFlight = false := by
  unfold State.dropsInFlight State.isObserveQueueFull
  split
  · exact Bool.false_and _
  · rename_i hmode
    have hmode' : s.notifyQueueLimitMode = .dropOldest := by
      rw [← makeRoom_mode s]
      exact hmode
    have hroom := h.makeRoom_fits hmode'
    rw [makeRoom_limit, decide_eq_false (Nat.not_le_of_lt hroom), Bool.false_and]

namespace Flights

theorem dropFirst_keepsHead (hnone : c.notifyExchange = none) : c.KeepsHead c.dropFirst := by
  cases hc : c.unsent with
  | nil =>
      rw [ConnectionEntry.dropFirst_nil hc]
      exact .of_eq (.inl hnone) rfl rfl
  | cons value rest =>
      rw [ConnectionEntry.dropFirst_cons hc]
      exact ⟨.inl hnone, rfl, hc ▸ List.subset_cons_self value rest⟩

/-- Making room, where the oldest head is not under way. -/
theorem makeRoom (h : Flights s) (hinv : Inv s) (hdrop : s.dropsInFlight = false) : Flights s.makeRoom := by
  unfold State.makeRoom
  split
  · rename_i hfull
    cases hold : s.findOldestQueuedNotification with
    | none =>
        unfold State.dropOldestQueuedNotification
        rwa [hold]
    | some oldest =>
        have hmem := (State.findOldestQueuedNotification_some hold).1
        have hnone : oldest.notifyExchange = none := by
          unfold State.dropsInFlight at hdrop
          rw [hfull, hold, Bool.true_and] at hdrop
          simpa using hdrop
        rw [State.dropOldest_eq hold]
        refine h.modify fun d hd hr => ?_
        rw [hinv.toSound.eq_of_mem hd hmem hr]
        exact dropFirst_keepsHead hnone
  · exact h

/-- A value at the end of the queue; where there is an exchange, the queue has a head already. -/
theorem append (h : Flights s) {value : Value β}
    (herror : value.isError = true → value.reliabilityHint = .preferConfirmable) : Flights (s.append ref value) := by
  have happend : ∀ c : ConnectionEntry β, c.InFlight → (c.appendUnsent value).InFlight := fun c hc => by
    have hunsent : (c.appendUnsent value).unsent = c.unsent ++ [value] ∨ (c.appendUnsent value).unsent = c.unsent := by
      show (if _ then c.unsent ++ [value] else c.unsent) = _ ∨ (if _ then c.unsent ++ [value] else c.unsent) = _
      split
      · exact .inl rfl
      · exact .inr rfl
    refine ⟨fun e he => ?_, hc.recorded, fun v hv hv' => ?_⟩
    · obtain ⟨v, rest, hqueue, hcarries⟩ := hc.head e he
      rcases hunsent with hunsent | hunsent
      · exact ⟨v, rest ++ [value], by rw [hunsent, hqueue]; rfl, hcarries⟩
      · exact ⟨v, rest, hunsent.trans hqueue, hcarries⟩
    · rcases hunsent with hunsent | hunsent
      · rw [hunsent] at hv
        rcases List.mem_append.mp hv with hv | hv
        · exact hc.errors v hv hv'
        · rw [List.mem_singleton.mp hv] at hv' ⊢
          exact herror hv'
      · exact hc.errors v (hunsent ▸ hv) hv'
  intro c hc
  exact Flights.modify' (f := ConnectionEntry.appendUnsent value) h (fun c hc _ => happend c (h c hc)) c hc

theorem insertNewValue (h : Flights s) (hinv : Inv s) (hdrop : s.dropsInFlight = false) {env : InsertEnv}
    {observation : Nat} {hint : ReliabilityHint} {details : DetailsPtr} {values : List β}
    (herror : env.allocated = true → (s.makeRoom.loadDetails env.junk details).isError = true →
      hint = .preferConfirmable) :
    Flights (insertNewValue env ref observation hint details values s).2 := by
  have hroom := h.makeRoom hinv hdrop
  unfold Observe.insertNewValue
  split
  · rename_i halloc
    exact hroom.append fun hv => herror halloc hv
  · exact hroom

theorem insertError (h : Flights s) (hinv : Inv s) (hdrop : s.dropsInFlight = false) (env : InsertEnv)
    (observation : Nat) (outerResult : Int) : Flights (insertError env ref observation outerResult s).2 := by
  unfold Observe.insertError
  refine (h.updateObservation observation _).insertNewValue (hinv.frames Inv.noNotifyTask_frames _) ?_ fun _ _ => rfl
  refine Eq.trans (State.dropsInFlight_modify ?_ ?_) hdrop
  · exact fun _ => rfl
  · exact fun _ => rfl

end Flights

/-- Whether `trigger_observe` gets as far as inserting a value or an error, once an update is due: the newest value is
    not an error, and the update fails or has something to insert. -/
def UpdateEnv.makesRoom (ops : BatchOps β) (env : UpdateEnv β) (o : Observation β) (newest : Value β) : Bool :=
  !newest.isError && ((!o.paths.isEmpty && !env.batchesAllocated) ||
    match updateLoop ops env.path newest 0 updateStart (o.paths.zip newest.values) with
    | .ok vars => vars.shouldUpdateBatch
    | .error _ => true)

section Update

variable {ops : BatchOps β} {o : Observation β} {newest : Value β}

/-- The record that an update copies is not that of an error, unless the newest value is deleted first. -/
theorem Inv.loadDetails_newest (h : Inv s) (hheld : newest ∈ s.held) (hok : newest.isError = false)
    (hdrops : s.dropsValue newest.addr = false) (junk : MsgDetails) :
    (s.makeRoom.loadDetails junk (.ofValue newest.addr)).isError = false := by
  rw [h.loadDetails_makeRoom hheld, hdrops, if_neg Bool.false_ne_true]
  exact hok

/-- **An update inserts at most one value**; where it fails with one to insert, there is room for the error. -/
theorem Flights.updateNotificationValue (h : Flights s) (hinv : Inv s) {env : UpdateEnv β} (hheld : newest ∈ s.held)
    (hdrop : env.makesRoom ops o newest = true → s.dropsInFlight = false)
    (hvalue : env.inserts ops o newest = true → s.dropsValue newest.addr = false) :
    Flights (updateNotificationValue ops env ref o newest s).2 ∧
      ((updateNotificationValue ops env ref o newest s).1 ≠ 0 →
        (updateNotificationValue ops env ref o newest s).2.dropsInFlight = false) := by
  unfold Observe.updateNotificationValue
  by_cases herror : newest.isError = true
  · rw [if_pos herror]
    exact ⟨h, fun hne => absurd rfl hne⟩
  rw [if_neg herror]
  have hok : newest.isError = false := by simpa using herror
  by_cases hbatches : (!o.paths.isEmpty && !env.batchesAllocated) = true
  · rw [if_pos hbatches]
    refine ⟨h, fun _ => hdrop ?_⟩
    unfold UpdateEnv.makesRoom
    rw [hok, hbatches]
    rfl
  rw [if_neg hbatches]
  have hmakes : env.makesRoom ops o newest =
      match updateLoop ops env.path newest 0 updateStart (o.paths.zip newest.values) with
      | .ok vars => vars.shouldUpdateBatch
      | .error _ => true := by
    unfold UpdateEnv.makesRoom
    rw [hok, Bool.eq_false_iff.mpr hbatches]
    rfl
  have hinserts : env.inserts ops o newest =
      (env.insert.allocated && match updateLoop ops env.path newest 0 updateStart (o.paths.zip newest.values) with
        | .ok vars => vars.shouldUpdateBatch
        | .error _ => false) := by
    unfold UpdateEnv.inserts
    have hbatches' : (o.paths.isEmpty || env.batchesAllocated) = true := by
      rw [← Bool.not_not (o.paths.isEmpty || env.batchesAllocated), Bool.not_or, Bool.eq_false_iff.mpr hbatches]
      rfl
    rw [hok, hbatches']
    rfl
  cases hloop : updateLoop ops env.path newest 0 updateStart (o.paths.zip newest.values) with
  | error e =>
      rw [hloop] at hmakes
      exact ⟨h, fun _ => hdrop hmakes⟩
  | ok vars =>
      rw [hloop] at hmakes hinserts
      have hinsert : Flights (insertUpdate env ref o.addr newest vars s).2 ∧
          ((insertUpdate env ref o.addr newest vars s).1 ≠ 0 →
            (insertUpdate env ref o.addr newest vars s).2.dropsInFlight = false) := by
        unfold insertUpdate
        split
        · rename_i hupdate
          have hroom := hdrop (hmakes.trans hupdate)
          refine ⟨h.insertNewValue hinv hroom fun halloc hjunk => ?_, fun hne => ?_⟩
          · have hdrops := hvalue (by rw [hinserts, halloc, Bool.true_and]; exact hupdate)
            rw [hinv.loadDetails_newest hheld hok hdrops] at hjunk
            exact nomatch hjunk
          · unfold Observe.insertNewValue at hne ⊢
            split at hne
            · exact absurd rfl hne
            · rename_i halloc
              rw [if_neg halloc]
              exact hinv.dropsInFlight_makeRoom
        · exact ⟨h, fun hne => absurd rfl hne⟩
      dsimp only
      unfold scheduleUpdate
      split
      · rename_i hzero
        split
        · exact ⟨hinsert.1.updateObservation _ _, fun hne => absurd hzero.1 hne⟩
        · exact hinsert
      · exact hinsert

end Update

/-! ## 6. Every run of undisturbed events -/

/-- The events that leave the exchanges undisturbed: an insertion does not delete a value that is under way to make
    room, nor the newest value from which it copies the record, and the payload writer does not fail. -/
def Undisturbed (ops : BatchOps β) : Event β → State β → Prop
  | .trigger env ref observation, s =>
      (∀ o newest, s.findNewest ref observation = some (o, newest) →
        (env.readyForNotifying || env.storingEnabled) = true →
          (env.update.makesRoom ops o newest = true → s.dropsInFlight = false) ∧
            (env.update.inserts ops o newest = true → s.dropsValue newest.addr = false)) ∧
        env.flush.chunkWritten = true
  | .flush env _ _, _ => env.chunkWritten = true
  | .writePayload written _, _ => written = true
  | _, _ => True

/-- The states that runs reach in which every event meets a condition. -/
inductive ReachableIf (ops : BatchOps β) (cond : Event β → State β → Prop) : State β → Prop
  | init (confirmableNotifications : Bool) (storedNotificationLimit : Nat) :
      ReachableIf ops cond (observeInit confirmableNotifications storedNotificationLimit)
  | step {s s' : State β} (event : Event β) (h : ReachableIf ops cond s) (hcond : cond event s)
      (hs : perform ops event s = some s') : ReachableIf ops cond s'

section Runs

variable {ops : BatchOps β} {cond : Event β → State β → Prop}

theorem ReachableIf.reachable (h : ReachableIf ops cond s) : Reachable ops s := by
  induction h with
  | init confirmableNotifications storedNotificationLimit => exact .init _ _
  | step event _ _ hs ih => exact ih.step event hs

theorem Flights.triggerObserve (h : Flights s) (hinv : Inv s) {env : TriggerEnv β} {observation : Nat}
    (hcond : Undisturbed ops (.trigger env ref observation) s)
    (hs : triggerObserve ops env ref observation s = some s') : Flights s' := by
  unfold Observe.triggerObserve at hs
  split at hs
  · exact nomatch hs
  · rename_i o newest hfind
    split at hs
    · obtain ⟨c, hc, ho, rfl, hnewest⟩ := findNewest_some hfind
      have hframes : FramesValues fun o : Observation β => { o with notifyTask := none } := Inv.noNotifyTask_frames
      have hobserves := hinv.observes_steps ⟨c, hc, List.mem_map_of_mem ho⟩ fun _ hl hs =>
        Steps.updateObservation hl hs hframes o.addr
      have htaken := hinv.takeNotifyTask ref o.addr
      have hflights : Flights (s.takeNotifyTask ref o.addr) := h.updateObservation o.addr _
      have hentry : (s.takeNotifyTask ref o.addr).entry ref = some _ :=
        hinv.toSound.entry_modify hc (State.entry_some hc).2
      have hheld : newest ∈ (s.takeNotifyTask ref o.addr).held := State.mem_held.mpr
        ⟨_, (State.entry_some hentry).1, ConnectionEntry.mem_held_update hframes o.addr
          (ConnectionEntry.newestValue_held ho hnewest)⟩
      refine Flights.triggerFlush ?_ (htaken.triggerUpdate ops env hobserves newest) hcond.2 hs
      unfold triggerUpdate
      split
      · rename_i hdue
        obtain ⟨hdrop, hvalue⟩ := hcond.1 o newest hfind hdue
        have hsame : (s.takeNotifyTask ref o.addr).dropsInFlight = s.dropsInFlight := by
          refine State.dropsInFlight_modify ?_ ?_
          · exact fun _ => rfl
          · exact fun _ => rfl
        have hsame' : (s.takeNotifyTask ref o.addr).dropsValue newest.addr = s.dropsValue newest.addr := by
          refine State.dropsValue_modify ?_ newest.addr
          exact fun _ => rfl
        obtain ⟨hupdate, hroom⟩ := @Flights.updateNotificationValue _ _ ref ops o newest hflights htaken env.update
          hheld (fun hmakes => hsame.trans (hdrop hmakes)) fun hins => hsame'.trans (hvalue hins)
        split
        · exact hupdate
        · rename_i hne
          exact hupdate.insertError (htaken.updateNotificationValue ops env.update hobserves newest).1 (hroom hne) _ _ _
      · exact hflights
    · exact nomatch hs

theorem Flights.modify? (h : Flights s) {g : ConnectionEntry β → Option (ConnectionEntry β)}
    (hg : ∀ c c' : ConnectionEntry β, c.InFlight → g c = some c' → c'.InFlight) (hs : s.modify? ref g = some s') :
    Flights s' := by
  unfold State.modify? at hs
  split at hs
  · exact nomatch hs
  · rename_i c hc
    split at hs
    · exact nomatch hs
    · rename_i c' hc'
      exact Option.some.inj hs ▸ h.modify' fun _ _ _ => hg c c' (h c (State.entry_some hc).1) hc'

/-- **An undisturbed event keeps the exchanges with their values.** -/
theorem perform_flights {event : Event β} (hinv : Inv s) (h : Flights s) (hcond : Undisturbed ops event s)
    (hs : perform ops event s = some s') : Flights s' := by
  cases event with
  | observe env ref token paths => exact h.observeHandle hs
  | remove ref token => exact Option.some.inj hs ▸ h.observeRemoveEntry token
  | pathChanged env period ref observation =>
      simp only [perform] at hs
      split at hs
      · cases hs
      · exact Option.some.inj hs ▸ h.updateObservation _ _
  | trigger env ref observation => exact h.triggerObserve hinv hcond hs
  | flush env online ref =>
      change flushSendQueueJob env online ref s = some s' at hs
      unfold flushSendQueueJob at hs
      split at hs
      · cases hs
      · rename_i c hc
        split at hs
        · cases hs
        · split at hs
          · rename_i hready
            rw [Bool.and_eq_true, Bool.and_eq_true, Bool.and_eq_true, Option.isNone_iff_eq_none] at hready
            exact h.deleteFlushTask.flushNextUnsent hinv.deleteFlushTask
              ((hinv.idle hc hready.1.1.2).modify fun _ => rfl) hcond hs
          · exact Option.some.inj hs ▸ h.deleteFlushTask
  | writePayload written ref =>
      refine h.modify? (fun c c' hc hw => ?_) hs
      rw [show written = true from hcond] at hw
      exact hc.writeNotifyPayload hw
  | deliver env err ref =>
      refine h.modify? (fun c c' hc hd => ?_) hs
      split at hd
      · rename_i hflight
        obtain ⟨c'', hc'', hok⟩ := hc.handleNotifyDelivery hflight env err
        rw [hc''] at hd
        exact Option.some.inj hd ▸ hok
      · cases hd
  | interrupt ref => exact Option.some.inj hs ▸ h.modify fun _ _ _ => .of_eq (.inl rfl) rfl rfl
  | schedFlush scheduled ref =>
      refine Option.some.inj hs ▸ h.modify fun c _ _ => ?_
      unfold ConnectionEntry.schedFlushSendQueue
      split
      · exact .of_eq (.inr rfl) rfl rfl
      · exact .of_eq (.inr rfl) rfl rfl
  | gc ssids => exact Option.some.inj hs ▸ h.sublist (gcLoop_sublist ssids _)
  | cleanup => exact Option.some.inj hs ▸ h.sublist (List.nil_sublist _)

theorem ReachableIf.flights (h : ReachableIf ops (Undisturbed ops) s) : Flights s := by
  induction h with
  | init confirmableNotifications storedNotificationLimit => exact fun _ hc => nomatch hc
  | step event h hcond hs ih => exact perform_flights h.reachable.inv ih hcond hs

/-- **In every run of undisturbed events**, while an exchange is under way, the head of the queue is the value for which
    it was started, and all its chunks are of that value; every exchange that was reported as delivered carried the
    value that was taken for sent; and a delivery never meets an empty queue. -/
theorem reachable_inFlight (h : ReachableIf ops (Undisturbed ops) s) : ∀ c ∈ s.connectionEntries,
    (∀ e, c.notifyExchange = some e →
      ∃ v rest, c.unsent = v :: rest ∧ e.startedFor = v.addr ∧ ∀ a ∈ e.chunks, a = v.addr) ∧
    (∀ r ∈ c.recorded, ∃ e, r.1 = some e ∧ e.startedFor = r.2.addr ∧ (∀ a ∈ e.chunks, a = r.2.addr) ∧
      (r.2.isError = false → e.chunks ≠ [])) ∧
    (c.notifyExchange.isSome = true → ∀ env err, (handleNotifyDelivery env err c).isSome = true) := by
  intro c hc
  have hflight := h.flights c hc
  refine ⟨fun e he => ?_, fun r hr => ?_, fun hsome env err => ?_⟩
  · obtain ⟨v, rest, hunsent, hcarries⟩ := hflight.head e he
    exact ⟨v, rest, hunsent, hcarries.startedFor, hcarries.chunks⟩
  · obtain ⟨e, he, hcarries⟩ := hflight.recorded r hr
    exact ⟨e, he, hcarries.startedFor, hcarries.chunks, hcarries.serialized⟩
  · obtain ⟨c', hc', _⟩ := hflight.handleNotifyDelivery hsome env err
    rw [hc']
    rfl

/-- Where the queue is not full, nothing is deleted. -/
theorem undisturbed_trigger {env : TriggerEnv β} {observation : Nat} (hroom : s.isObserveQueueFull = false)
    (hwritten : env.flush.chunkWritten = true) : Undisturbed ops (.trigger env ref observation) s := by
  refine ⟨fun o newest _ _ => ⟨fun _ => ?_, fun _ => ?_⟩, hwritten⟩
  · unfold State.dropsInFlight
    rw [hroom, Bool.false_and]
  · unfold State.dropsValue
    rw [hroom, Bool.false_and]

end Runs

end States

/-- The same trigger while the server is online. -/
def exampleOnline (batch : Nat) : TriggerEnv Nat :=
  { exampleTrigger batch with online := ⟨true, true⟩, transportOnline := true }

/-- One notification under way. -/
theorem reachable_inFlight_one : ∃ (s : State Nat) (c : ConnectionEntry Nat) (e : Exchange) (v : Value Nat)
    (rest : List (Value Nat)), ReachableIf exampleOps (Undisturbed exampleOps) s ∧ s.entry exampleRef = some c ∧
      c.notifyExchange = some e ∧ c.unsent = v :: rest ∧ e.startedFor = v.addr := by
  have hrun : ((perform exampleOps (.observe exampleObserve exampleRef [7] [.resource 3 0 9])
      (observeInit false 1)).bind fun s₁ => (perform exampleOps (.pathChanged exampleSchedule 0 exampleRef 0) s₁).bind
      fun s₂ => (perform exampleOps (.trigger (exampleOnline 2) exampleRef 0) s₂).bind fun s₃ =>
      (s₃.entry exampleRef).map fun c => (s₂.isObserveQueueFull, c.notifyExchange)) =
        some (false, some ⟨2, [2], false⟩) := by decide +kernel
  obtain ⟨s₁, h₁, hrun⟩ := Option.bind_eq_some_iff.mp hrun
  obtain ⟨s₂, h₂, hrun⟩ := Option.bind_eq_some_iff.mp hrun
  obtain ⟨s₃, h₃, hrun⟩ := Option.bind_eq_some_iff.mp hrun
  obtain ⟨c, hc, hpair⟩ := Option.map_eq_some_iff.mp hrun
  obtain ⟨hroom, hexchange⟩ := Prod.mk.inj hpair
  have hreach : ReachableIf exampleOps (Undisturbed exampleOps) s₃ :=
    (((ReachableIf.init false 1).step _ trivial h₁).step _ trivial h₂).step _ (undisturbed_trigger hroom rfl) h₃
  obtain ⟨v, rest, hunsent, hstarted, _⟩ := (reachable_inFlight hreach c (State.entry_some hc).1).1 _ hexchange
  exact ⟨s₃, c, _, v, rest, hreach, hc, hexchange, hunsent, hstarted⟩

/-- The value of one connection is under way when a change on another one deletes it. -/
def droppedEvents : List (Event Nat) :=
  [.observe exampleObserve exampleRef [7] [.resource 3 0 9],
    .observe exampleObserve ⟨2, .primary⟩ [7] [.resource 3 0 9],
    .pathChanged exampleSchedule 0 exampleRef 0, .trigger (exampleOnline 2) exampleRef 0,
    .pathChanged exampleSchedule 0 ⟨2, .primary⟩ 2, .trigger (exampleTrigger 2) ⟨2, .primary⟩ 2]

/-- With room for one value, neither is the head then what the exchange was started for, nor does the delivery find a
    value: the queue of the connection is empty. -/
theorem inFlight_not_always : ¬ ∀ s : State Nat, Reachable exampleOps s → ∀ c ∈ s.connectionEntries,
    (∀ e, c.notifyExchange = some e → ∃ v rest, c.unsent = v :: rest ∧ e.startedFor = v.addr) ∨
      (c.notifyExchange.isSome = true → ∀ env, (handleNotifyDelivery env .ok c).isSome = true) := by
  intro hall
  have hrun : ((run exampleOps droppedEvents (observeInit false 1)).bind (State.entry exampleRef)).map
      (fun c => (c.notifyExchange, c.unsent.map Value.addr, (handleNotifyDelivery exampleDelivery .ok c).isSome)) =
        some (some ⟨4, [4], false⟩, [], false) := by decide +kernel
  obtain ⟨c, hc, hempty⟩ := Option.map_eq_some_iff.mp hrun
  obtain ⟨s, hs, hc⟩ := Option.bind_eq_some_iff.mp hc
  obtain ⟨hexchange, hqueue⟩ := Prod.mk.inj hempty
  obtain ⟨hunsent, hnone⟩ := Prod.mk.inj hqueue
  rcases hall s ((Reachable.init false 1).run hs) c (State.entry_some hc).1 with hhead | hdeliver
  · obtain ⟨v, rest, hcons, _⟩ := hhead _ hexchange
    rw [hcons] at hunsent
    exact nomatch hunsent
  · have hsome := hdeliver (by rw [hexchange]; rfl) exampleDelivery
    rw [hnone] at hsome
    exact nomatch hsome

end Anjay.Observe
