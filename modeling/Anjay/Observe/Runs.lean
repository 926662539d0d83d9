/-
  File:      Anjay/Observe/Runs.lean
  Subject:   The invariant of the observe module over its runs.

  * `perform_inv`, `Reachable.inv`: **every reachable state meets the invariant.**
  * `reachable_pointers`: what that says about the pointers, the values and the limit.
  * `reachable_updateDetails`: an update copies the record of the newest value iff making room does not delete it.
-/
import Anjay.Observe.Requests

namespace Anjay.Observe

open AttrStorage Dm Lib ConnectionEntry

variable {β : Type} {c c' : ConnectionEntry β}

/-! ## 1. Every run -/

section Runs

variable {s s' : State β} {ref : ConnectionRef}

theorem Inv.modifyFlushed (h : Inv s) (env : FlushedEnv) (err : AvsError) :
    Inv (s.modify ref (ConnectionEntry.onEntryFlushed env err)) :=
  h.steps fun _ _ _ hl hs => Steps.onEntryFlushed hl hs env err

theorem Inv.notifyAsync (h : Inv s) {env : FlushEnv} {value : Value β} (hs : notifyAsync env ref value s = some s') :
    Inv s' := by
  unfold Observe.notifyAsync at hs
  split at hs
  · exact Option.some.inj hs ▸ h
  · exact nomatch hs
  · exact Option.some.inj hs ▸ h.modifyFlushed _ _
  · rename_i c hc _
    split at hs
    · exact nomatch hs
    · rename_i c' hc'
      obtain ⟨hmem, _⟩ := State.entry_some hc
      have hstart : c.Steps (c.startExchange env value) := Steps.of_eq (h.linked c hmem) (h.allSent c hmem) rfl rfl rfl rfl
      exact Option.some.inj hs ▸
        h.steps_entry hc (hstart.trans (handleNotifyDelivery_steps hstart.linked hstart.allSent hc'))
  · exact Option.some.inj hs ▸ h.steps fun _ _ _ hl hs => Steps.of_eq hl hs rfl rfl rfl rfl

theorem Inv.flushValue (h : Inv s) {env : FlushEnv} {token : Token} {value : Value β}
    (hs : flushValue env ref token value s = some s') : Inv s' := by
  unfold Observe.flushValue at hs
  split at hs
  · exact Option.some.inj hs ▸ h.modifyFlushed _ _
  · split at hs
    · exact Option.some.inj hs ▸ h.modifyFlushed _ _
    · refine Inv.notifyAsync (s := cancelNotificationOnError ref token value s) ?_ hs
      unfold cancelNotificationOnError
      split
      · exact h.observeRemoveEntry ref token
      · exact h

theorem sentHint_addr (env : FlushEnv) (o : Observation β) (value : Value β) :
    (sentHint env o value).addr = value.addr ∧ (sentHint env o value).ref = value.ref := by
  unfold sentHint
  split <;> exact ⟨rfl, rfl⟩

/-- **`flush_next_unsent` keeps the invariant.** -/
theorem Inv.flushNextUnsent (h : Inv s) {env : FlushEnv} (hs : flushNextUnsent env ref s = some s') : Inv s' := by
  unfold Observe.flushNextUnsent at hs
  split at hs
  · exact nomatch hs
  · rename_i c hc
    split at hs
    · exact nomatch hs
    · rename_i value rest hunsent
      split at hs
      · exact nomatch hs
      · rename_i o _
        obtain ⟨hmem, _⟩ := State.entry_some hc
        obtain ⟨haddr, href⟩ := sentHint_addr env o value
        have hhead := Steps.setHead (h.linked c hmem) (h.allSent c hmem) hunsent haddr href
        exact Inv.flushValue (h.steps_entry hc hhead) hs

theorem Inv.deleteFlushTask (h : Inv s) : Inv (s.modify ref ConnectionEntry.deleteFlushTask) :=
  h.steps fun _ _ _ hl hs => Steps.deleteFlushTask hl hs

theorem Inv.triggerFlush (h : Inv s) {env : TriggerEnv β} (hs : triggerFlush env ref s = some s') : Inv s' := by
  unfold Observe.triggerFlush at hs
  split at hs
  · exact nomatch hs
  · split at hs
    · split at hs
      · exact h.deleteFlushTask.flushNextUnsent hs
      · split at hs
        · exact Option.some.inj hs ▸ h.deleteFlushTask
        · refine Option.some.inj hs ▸ h.steps fun c _ _ hl hs => ?_
          have hflush := Steps.deleteFlushTask hl hs
          exact hflush.trans (Steps.removeAllUnsentValues hflush.linked hflush.allSent)
    · exact Option.some.inj hs ▸ h

theorem findNewest_some {observation : Nat} {o : Observation β} {newest : Value β}
    (h : s.findNewest ref observation = some (o, newest)) :
    ∃ c, s.entry ref = some c ∧ o ∈ c.observations ∧ o.addr = observation ∧ c.newestValue o = some newest := by
  unfold State.findNewest at h
  split at h
  · exact nomatch h
  · rename_i c hc
    split at h
    · exact nomatch h
    · rename_i o' ho'
      obtain ⟨v, hv, heq⟩ := Option.map_eq_some_iff.mp h
      cases heq
      exact ⟨c, hc, List.mem_of_find?_eq_some ho', by simpa using List.find?_some ho', hv⟩

theorem Inv.triggerObserve (h : Inv s) {ops : BatchOps β} {env : TriggerEnv β} {observation : Nat}
    (hs : triggerObserve ops env ref observation s = some s') : Inv s' := by
  unfold Observe.triggerObserve at hs
  split at hs
  · exact nomatch hs
  · rename_i o newest hfind
    split at hs
    · obtain ⟨c, hc, ho, rfl, _⟩ := findNewest_some hfind
      have hobserves := h.observes_steps ⟨c, hc, List.mem_map_of_mem ho⟩ fun _ hl hs =>
        Steps.updateObservation hl hs Inv.noNotifyTask_frames o.addr
      exact ((h.takeNotifyTask ref o.addr).triggerUpdate ops env hobserves newest).triggerFlush hs
    · exact nomatch hs

theorem gcLoop_sublist : ∀ (ssids : List Id) (cs : List (ConnectionEntry β)), (gcLoop ssids cs).Sublist cs
  | [], cs => List.nil_sublist cs
  | ssid :: ssids, cs => by
      have hrest := List.dropWhile_sublist (l := cs) fun c => decide (c.connRef.ssid < ssid)
      refine List.Sublist.trans ?_ hrest
      unfold gcLoop
      conv => rhs; rw [← List.takeWhile_append_dropWhile (p := fun c => decide (c.connRef.ssid = ssid))
        (l := cs.dropWhile fun c => decide (c.connRef.ssid < ssid))]
      exact List.Sublist.append (List.Sublist.refl _) (gcLoop_sublist ssids _)

/-- **Every event keeps the invariant.** -/
theorem perform_inv {ops : BatchOps β} {event : Event β} (h : Inv s) (hs : perform ops event s = some s') : Inv s' := by
  cases event with
  | observe env ref token paths => exact h.observeHandle hs
  | remove ref token => exact Option.some.inj hs ▸ h.observeRemoveEntry ref token
  | pathChanged env period ref observation =>
      simp only [perform] at hs
      split at hs
      · exact nomatch hs
      · exact Option.some.inj hs ▸ h.frames (scheduleTrigger_frames _ _ _) _
  | trigger env ref observation => exact h.triggerObserve hs
  | flush env online ref =>
      change flushSendQueueJob env online ref s = some s' at hs
      unfold flushSendQueueJob at hs
      split at hs
      · exact nomatch hs
      · split at hs
        · exact nomatch hs
        · split at hs
          · exact h.deleteFlushTask.flushNextUnsent hs
          · exact Option.some.inj hs ▸ h.deleteFlushTask
  | writePayload written ref => exact h.modify? (fun _ _ hl hs hw => writeNotifyPayload_steps hl hs hw) hs
  | deliver env err ref =>
      refine h.modify? (fun c c' hl hs hd => ?_) hs
      split at hd
      · exact handleNotifyDelivery_steps hl hs hd
      · exact nomatch hd
  | interrupt ref =>
      refine Option.some.inj hs ▸ h.steps fun _ _ _ hl hs => ?_
      have hend := Steps.endExchange hl hs
      exact hend.trans (Steps.deleteFlushTask hend.linked hend.allSent)
  | schedFlush scheduled ref =>
      exact Option.some.inj hs ▸ h.steps fun _ _ _ hl hs => Steps.schedFlushSendQueue hl hs scheduled
  | gc ssids => exact Option.some.inj hs ▸ h.sublist (gcLoop_sublist ssids _)
  | cleanup => exact Option.some.inj hs ▸ h.sublist (List.nil_sublist _)

theorem observeInit_inv (confirmableNotifications : Bool) (storedNotificationLimit : Nat) :
    Inv (observeInit confirmableNotifications storedNotificationLimit : State β) where
  sorted := List.Pairwise.nil
  linked _ hc := nomatch hc
  observations _ hc := nomatch hc
  unique _ := Nat.zero_le _
  positive hmode := by
    by_cases hzero : storedNotificationLimit = 0
    · unfold observeInit at hmode
      rw [if_pos hzero] at hmode
      exact nomatch hmode
    · exact Nat.pos_of_ne_zero hzero
  limit _ := Nat.zero_le _
  allSent _ hc := nomatch hc
  occupied _ hc := nomatch hc

/-- **Every reachable state meets the invariant.** -/
theorem Reachable.inv {ops : BatchOps β} (h : Reachable ops s) : Inv s := by
  induction h with
  | init confirmableNotifications storedNotificationLimit => exact observeInit_inv _ _
  | step event _ hs ih => exact perform_inv ih hs

/-- **In every reachable state** `unsent_last` is the last value of the queue, every value refers to an observation of
    the connection, `last_unsent` is the last value that refers to the observation, every observation has exactly one
    `last_sent` value, and the limit is kept. -/
theorem reachable_pointers {ops : BatchOps β} (h : Reachable ops s) :
    (∀ c ∈ s.connectionEntries,
      (c.unsentLast = c.unsent.getLast?.map Value.addr ∧ (c.unsentLast = none ↔ c.unsent = [])) ∧
      (∀ v ∈ c.unsent, ∃ o ∈ c.observations, o.addr = v.ref) ∧
      ∀ o ∈ c.observations,
        o.lastUnsent = (c.unsent.filter fun v => v.ref == o.addr).getLast?.map Value.addr ∧
        (o.lastUnsent = none ↔ ∀ v ∈ c.unsent, v.ref ≠ o.addr) ∧ ∃ v, o.lastSent = [v]) ∧
    (s.notifyQueueLimitMode = .dropOldest → total (fun c => c.unsent.length) s.connectionEntries ≤ s.notifyQueueLimit) := by
  have hinv := h.inv
  refine ⟨fun c hc => ?_, hinv.limit⟩
  have hlinked := hinv.linked c hc
  refine ⟨⟨hlinked.unsentLast, ?_⟩, fun v hv => ?_, fun o ho => ⟨hlinked.lastUnsent o ho, ?_, hinv.allSent c hc o ho⟩⟩
  · rw [hlinked.unsentLast]
    exact lastAddr_eq_none
  · exact List.mem_map.mp (hlinked.refs v hv)
  · rw [hlinked.lastUnsent o ho, lastAddr_eq_none, refersTo, List.filter_eq_nil_iff]
    exact forall₂_congr fun v _ => by simp

end Runs

/-! ## 2. The record that an update copies -/

/-- Whether `update_notification_value` gets as far as inserting a value. -/
def UpdateEnv.inserts (ops : BatchOps β) (env : UpdateEnv β) (o : Observation β) (newest : Value β) : Bool :=
  !newest.isError && (o.paths.isEmpty || env.batchesAllocated) && env.insert.allocated &&
    match updateLoop ops env.path newest 0 updateStart (o.paths.zip newest.values) with
    | .ok vars => vars.shouldUpdateBatch
    | .error _ => false

/-- The same environment, with other contents of deleted memory. -/
def UpdateEnv.withJunk (junk : MsgDetails) (env : UpdateEnv β) : UpdateEnv β :=
  { env with insert := { env.insert with junk := junk } }

section Details

variable {s : State β} {ref : ConnectionRef} {ops : BatchOps β} {env : UpdateEnv β} {o : Observation β}
  {newest : Value β}

theorem ConnectionEntry.mem_held_update {v : Value β} {f : Observation β → Observation β} (hf : FramesValues f)
    (ptr : Nat) (hv : v ∈ c.held) : v ∈ (c.updateObservation ptr f).held := by
  rcases List.mem_append.mp hv with hv | hv
  · exact List.mem_append_left _ hv
  · obtain ⟨o, ho, hvo⟩ := List.mem_flatMap.mp hv
    refine List.mem_append_right _ (List.mem_flatMap.mpr ⟨_, mem_updateObservation.mpr ⟨o, ho, rfl⟩, ?_⟩)
    split
    · rwa [(hf o).2.2]
    · exact hvo

/-- The newest value of an observation is one of those that the connection owns. -/
theorem ConnectionEntry.newestValue_held (ho : o ∈ c.observations) (h : c.newestValue o = some newest) :
    newest ∈ c.held := by
  unfold newestValue at h
  split at h
  · exact List.mem_append_left _ (List.mem_of_find?_eq_some h)
  · exact List.mem_append_right _ (List.mem_flatMap.mpr ⟨o, ho, List.mem_of_head? h⟩)

theorem findOldest_map {f : ConnectionEntry β → ConnectionEntry β} (hf : ∀ c, (f c).unsent = c.unsent) :
    ∀ (cs : List (ConnectionEntry β)) (oldest : Option (ConnectionEntry β)),
      State.findOldest (oldest.map f) (cs.map f) = (State.findOldest oldest cs).map f
  | [], _ => rfl
  | c :: cs, oldest => by
      show State.findOldest (oldest.map f) (f c :: cs.map f) = _
      unfold State.findOldest
      rw [hf c]
      split
      · exact findOldest_map hf cs oldest
      · cases oldest with
        | none => exact findOldest_map hf cs (some c)
        | some old =>
            have hbefore : State.headBefore (f c) (f old) = State.headBefore c old := by
              unfold State.headBefore
              rw [hf c, hf old]
            show State.findOldest (some (if State.headBefore (f c) (f old) then f c else f old)) (cs.map f) = _
            rw [hbefore, ← apply_ite f]
            exact findOldest_map hf cs (some _)

/-- What does not touch the queues changes neither whether they are full nor which one has the oldest head. -/
theorem State.oldest_modify {f : ConnectionEntry β → ConnectionEntry β} (hf : ∀ c, (f c).unsent = c.unsent) :
    (s.modify ref f).isObserveQueueFull = s.isObserveQueueFull ∧
      (s.modify ref f).findOldestQueuedNotification =
        s.findOldestQueuedNotification.map fun c => if c.connRef = ref then f c else c := by
  have hg : ∀ c : ConnectionEntry β, (if c.connRef = ref then f c else c).unsent = c.unsent := fun c => by
    split
    · exact hf c
    · rfl
  have hcount : (s.modify ref f).countQueuedNotifications = s.countQueuedNotifications := by
    show total _ (s.connectionEntries.map fun c => if c.connRef = ref then f c else c) = _
    rw [total_map]
    exact congrArg (total · s.connectionEntries) (funext fun c => congrArg List.length (hg c))
  refine ⟨?_, findOldest_map hg s.connectionEntries none⟩
  unfold State.isObserveQueueFull
  rw [hcount]
  rfl

/-- Nor does it change which value is dropped. -/
theorem State.dropsValue_modify {f : ConnectionEntry β → ConnectionEntry β} (hf : ∀ c, (f c).unsent = c.unsent)
    (ptr : Nat) : (s.modify ref f).dropsValue ptr = s.dropsValue ptr := by
  obtain ⟨hfull, hold⟩ : (s.modify ref f).isObserveQueueFull = s.isObserveQueueFull ∧ _ := State.oldest_modify hf
  unfold State.dropsValue
  rw [hfull, hold]
  cases s.findOldestQueuedNotification with
  | none => rfl
  | some oldest =>
      show (s.isObserveQueueFull && ((if oldest.connRef = ref then f oldest else oldest).unsent.head?.map _ == _)) = _
      split
      · rw [hf]
      · rfl

/-- The value that `insert_new_value` puts at the end of the queue. -/
theorem Inv.insertNewValue_last (h : Inv s) {observation : Nat} (ho : s.Observes ref observation) {insert : InsertEnv}
    (halloc : insert.allocated = true) (hint : ReliabilityHint) (details : DetailsPtr) (values : List β) :
    ∃ c, (Observe.insertNewValue insert ref observation hint details values s).2.entry ref = some c ∧
      c.unsent.getLast? =
        some (createObservationValue insert details hint observation values s.makeRoom) := by
  obtain ⟨c, hc, hmem⟩ := ho
  obtain ⟨c', hc', haddrs, _⟩ := h.entry_makeRoom hc
  unfold Observe.insertNewValue
  rw [if_pos halloc]
  refine ⟨_, h.makeRoom.toSound.entry_modify hc' (State.entry_some hc').2, ?_⟩
  obtain ⟨hc's, _⟩ := State.entry_some hc'
  have hunsent : (c'.appendUnsent (createObservationValue insert details hint observation values s.makeRoom)).unsent =
      c'.unsent ++ [createObservationValue insert details hint observation values s.makeRoom] :=
    ((h.makeRoom.linked c' hc's).appendUnsent (haddrs ▸ hmem) (h.makeRoom.toSound.fresh hc's)).2
  rw [hunsent, List.getLast?_append]
  rfl

/-- Scheduling the next trigger leaves the queue alone. -/
theorem scheduleUpdate_entry {observation : Nat} {pmax : Int} {result : Int × State β} (h : Inv result.2)
    (hc : result.2.entry ref = some c) :
    ∃ c', (scheduleUpdate env ref observation pmax result).2.entry ref = some c' ∧ c'.unsent = c.unsent := by
  unfold scheduleUpdate
  split
  · split
    · exact ⟨_, h.toSound.entry_modify hc (State.entry_some hc).2, rfl⟩
    · exact ⟨c, hc, rfl⟩
  · exact ⟨c, hc, rfl⟩

/-- **What an update that inserts a value puts at the end of the queue.** -/
theorem Inv.updateNotificationValue_last (h : Inv s) (env : UpdateEnv β) (ho : s.Observes ref o.addr)
    (hins : env.inserts ops o newest = true) :
    ∃ c v, (Observe.updateNotificationValue ops env ref o newest s).2.entry ref = some c ∧ c.unsent.getLast? = some v ∧
      v.details = s.makeRoom.loadDetails env.insert.junk (.ofValue newest.addr) := by
  unfold UpdateEnv.inserts at hins
  rw [Bool.and_eq_true, Bool.and_eq_true, Bool.and_eq_true] at hins
  obtain ⟨⟨⟨herror, hbatches⟩, halloc⟩, hloop⟩ := hins
  unfold Observe.updateNotificationValue
  have hbatches' : ¬(!o.paths.isEmpty && !env.batchesAllocated) = true := fun hmissing => by
    rw [← Bool.not_or, hbatches] at hmissing
    exact nomatch hmissing
  rw [if_neg (by simpa using herror), if_neg hbatches']
  cases hvars : updateLoop ops env.path newest 0 updateStart (o.paths.zip newest.values) with
  | error e =>
      rw [hvars] at hloop
      exact nomatch hloop
  | ok vars =>
      rw [hvars] at hloop
      obtain ⟨cs, hcs, hmem⟩ := ho
      obtain ⟨c, hc, hlast⟩ := h.insertNewValue_last ⟨cs, hcs, hmem⟩ halloc
        (reliabilityHint s.confirmableNotifications vars.con) (.ofValue newest.addr) vars.batches
      have hinsert : insertUpdate env ref o.addr newest vars s = Observe.insertNewValue env.insert ref o.addr
          (reliabilityHint s.confirmableNotifications vars.con) (.ofValue newest.addr) vars.batches s := if_pos hloop
      have hinv : Inv (insertUpdate env ref o.addr newest vars s).2 := by
        rw [hinsert]
        exact h.insertNewValue _ hcs hmem _ _ _
      rw [← hinsert] at hc
      obtain ⟨c', hc', hunsent⟩ : ∃ c', (scheduleUpdate env ref o.addr vars.pmax
          (insertUpdate env ref o.addr newest vars s)).2.entry ref = some c' ∧ c'.unsent = c.unsent :=
        scheduleUpdate_entry hinv hc
      exact ⟨c', _, hc', hunsent ▸ hlast, rfl⟩

/-- **In every reachable state, an update copies the record of the newest value, whatever deleted memory contains, iff
    making room does not delete that value.** -/
theorem reachable_updateDetails {observation : Nat} (h : Reachable ops s)
    (hfind : s.findNewest ref observation = some (o, newest)) (hins : env.inserts ops o newest = true) :
    (∀ junk, ∃ c v,
      (updateNotificationValue ops (env.withJunk junk) ref o newest (s.takeNotifyTask ref observation)).2.entry ref =
        some c ∧ c.unsent.getLast? = some v ∧ v.details = newest.details) ↔ s.dropsValue newest.addr = false := by
  obtain ⟨c, hc, ho, rfl, hnewest⟩ := findNewest_some hfind
  have hframes : FramesValues fun o : Observation β => { o with notifyTask := none } := Inv.noNotifyTask_frames
  have hinv := h.inv.takeNotifyTask ref o.addr
  have hobs : (s.takeNotifyTask ref o.addr).Observes ref o.addr :=
    h.inv.observes_steps ⟨c, hc, List.mem_map_of_mem ho⟩ fun _ hl hs => Steps.updateObservation hl hs hframes o.addr
  have hentry : (s.takeNotifyTask ref o.addr).entry ref = some _ :=
    h.inv.toSound.entry_modify hc (State.entry_some hc).2
  have hheld : newest ∈ (s.takeNotifyTask ref o.addr).held := State.mem_held.mpr
    ⟨_, (State.entry_some hentry).1, mem_held_update hframes o.addr (newestValue_held ho hnewest)⟩
  have hdrops : (s.takeNotifyTask ref o.addr).dropsValue newest.addr = s.dropsValue newest.addr := by
    unfold State.takeNotifyTask
    refine State.dropsValue_modify ?_ newest.addr
    exact fun _ => rfl
  have hlast := fun junk => hinv.updateNotificationValue_last (env.withJunk junk) hobs hins
  have hload := fun junk => hinv.loadDetails_makeRoom hheld junk
  rw [hdrops] at hload
  constructor
  · intro hall
    by_contra hdrop
    have hdrop' : s.dropsValue newest.addr = true := by simpa using hdrop
    obtain ⟨junk, hjunk⟩ : ∃ junk : MsgDetails, junk ≠ newest.details :=
      ⟨⟨newest.details.msgCode + 1, newest.details.format⟩, fun heq => by
        have hcode := congrArg MsgDetails.msgCode heq
        exact absurd hcode (by simp)⟩
    obtain ⟨c₁, v₁, hc₁, hv₁, hd₁⟩ := hall junk
    obtain ⟨c₂, v₂, hc₂, hv₂, hd₂⟩ := hlast junk
    rw [hc₁] at hc₂
    cases hc₂
    rw [hv₁] at hv₂
    cases hv₂
    have hjunk' := hload junk
    rw [hdrop', if_pos rfl] at hjunk'
    exact hjunk (hjunk'.symm.trans (hd₂.symm.trans hd₁))
  · intro hdrop junk
    obtain ⟨c', v, hc', hv, hd⟩ := hlast junk
    have hsame := hload junk
    rw [hdrop, if_neg Bool.false_ne_true] at hsame
    exact ⟨c', v, hc', hv, hd.trans hsame⟩

end Details

/-! ## 3. A run -/

/-- The events one after the other. -/
def run (ops : BatchOps β) : List (Event β) → State β → Option (State β)
  | [], s => some s
  | event :: events, s => (perform ops event s).bind (run ops events)

theorem Reachable.run {ops : BatchOps β} : ∀ {events : List (Event β)} {s s' : State β}, Reachable ops s →
    run ops events s = some s' → Reachable ops s'
  | [], _, _, h, hs => Option.some.inj hs ▸ h
  | event :: _, _, _, h, hs => by
      obtain ⟨t, ht, hrest⟩ := Option.bind_eq_some_iff.mp hs
      exact (h.step event ht).run hrest

/-- Batches that are numbers. -/
def exampleOps : BatchOps Nat := ⟨fun a b => a == b, fun _ => .nan, fun _ => .zero, fun _ _ _ => false⟩

def exampleRef : ConnectionRef := ⟨1, .primary⟩

def exampleSchedule : ScheduleEnv := ⟨.zero, .zero, true⟩

def examplePmax : PmaxEnv := ⟨fun _ => .ok internalRAttrsEmpty, exampleSchedule⟩

def exampleObserve : ObserveEnv Nat where
  elementAllocated := true
  treesAllocated := true
  read := .ok [1]
  responseDetails := ⟨0x45, 0⟩
  attached := true
  valueAllocated := true
  started := .zero
  now := .zero
  pmax := examplePmax
  coapStarted := true
  responseSent := true

/-- The Resource reads as `batch`, and deleted memory as zeros. -/
def exampleUpdate (batch : Nat) : UpdateEnv Nat where
  batchesAllocated := true
  path _ := ⟨.ok internalRAttrsEmpty, .zero, .ok batch, .zero⟩
  insert := ⟨true, .zero, ⟨0, 0⟩⟩
  schedule := exampleSchedule

def exampleDelivery : DeliveryEnv := ⟨.zero, ⟨true, true, fun _ => examplePmax⟩⟩

def exampleFlush : FlushEnv := ⟨.zero, .zero, none, true, true, .pending, exampleDelivery⟩

/-- A trigger while the server is offline, with notification storing. -/
def exampleTrigger (batch : Nat) : TriggerEnv Nat where
  online := ⟨false, false⟩
  transportOnline := false
  storingEnabled := true
  storingEnabledLater := true
  queueMode := false
  update := exampleUpdate batch
  insertError := ⟨true, .zero, ⟨0, 0⟩⟩
  flush := exampleFlush

/-- An observation, and one change of its Resource, of which the value is queued. -/
def exampleEvents : List (Event Nat) :=
  [.observe exampleObserve exampleRef [7] [.resource 3 0 9], .pathChanged exampleSchedule 0 exampleRef 0,
    .trigger (exampleTrigger 2) exampleRef 0]

/-- What an update with the batch 3 copies, beside what it should. -/
def copiedDetails (s : State Nat) : Option (MsgDetails × MsgDetails × Bool × Bool) := do
  let (o, newest) ← s.findNewest exampleRef 0
  let c ← (updateNotificationValue exampleOps (exampleUpdate 3) exampleRef o newest
    (s.takeNotifyTask exampleRef 0)).2.entry exampleRef
  let v ← c.unsent.getLast?
  return (newest.details, v.details, (exampleUpdate 3).inserts exampleOps o newest, s.dropsValue newest.addr)

theorem reachable_pointers_queued : ∃ s : State Nat, s.countQueuedNotifications = 1 ∧
    ∀ c ∈ s.connectionEntries, c.unsentLast = c.unsent.getLast?.map Value.addr := by
  have hrun : ((run exampleOps exampleEvents (observeInit false 1)).map State.countQueuedNotifications) = some 1 := by
    decide +kernel
  obtain ⟨s, hs, hcount⟩ := Option.map_eq_some_iff.mp hrun
  exact ⟨s, hcount, fun c hc => ((reachable_pointers ((Reachable.init false 1).run hs)).1 c hc).1.1⟩

/-- What `copiedDetails` has computed. -/
theorem copiedDetails_some {s : State Nat} {expected copied : MsgDetails} {inserts drops : Bool}
    (h : copiedDetails s = some (expected, copied, inserts, drops)) :
    ∃ o newest c v, s.findNewest exampleRef 0 = some (o, newest) ∧
      (updateNotificationValue exampleOps (exampleUpdate 3) exampleRef o newest
        (s.takeNotifyTask exampleRef 0)).2.entry exampleRef = some c ∧ c.unsent.getLast? = some v ∧
      newest.details = expected ∧ v.details = copied ∧ (exampleUpdate 3).inserts exampleOps o newest = inserts ∧
      s.dropsValue newest.addr = drops := by
  unfold copiedDetails at h
  obtain ⟨⟨o, newest⟩, hfind, h⟩ := Option.bind_eq_some_iff.mp h
  obtain ⟨c, hc, h⟩ := Option.bind_eq_some_iff.mp h
  obtain ⟨v, hv, h⟩ := Option.bind_eq_some_iff.mp h
  cases h
  exact ⟨o, newest, c, v, hfind, hc, hv, rfl, rfl, rfl, rfl⟩

/-- With room for two values, the update copies the record. -/
theorem reachable_updateDetails_two : ∃ (s : State Nat) (o : Observation Nat) (newest : Value Nat),
    Reachable exampleOps s ∧ s.findNewest exampleRef 0 = some (o, newest) ∧ ∀ junk, ∃ c v,
      (updateNotificationValue exampleOps ((exampleUpdate 3).withJunk junk) exampleRef o newest
        (s.takeNotifyTask exampleRef 0)).2.entry exampleRef = some c ∧ c.unsent.getLast? = some v ∧
        v.details = newest.details := by
  have hrun : (run exampleOps exampleEvents (observeInit false 2)).bind copiedDetails =
      some (⟨0x45, 0⟩, ⟨0x45, 0⟩, true, false) := by decide +kernel
  obtain ⟨s, hs, hcopied⟩ := Option.bind_eq_some_iff.mp hrun
  obtain ⟨o, newest, c, v, hfind, _, _, _, _, hins, hdrop⟩ := copiedDetails_some hcopied
  have hreach := (Reachable.init false 2).run hs
  exact ⟨s, o, newest, hreach, hfind, (reachable_updateDetails hreach hfind hins).mpr hdrop⟩

/-- With room for one, it deletes the newest value first, and copies what the memory contains then. -/
theorem updateDetails_not_always : ¬ ∀ (s : State Nat) (o : Observation Nat) (newest : Value Nat) (env : UpdateEnv Nat),
    Reachable exampleOps s → s.findNewest exampleRef 0 = some (o, newest) → env.inserts exampleOps o newest = true →
    ∃ c v, (updateNotificationValue exampleOps env exampleRef o newest (s.takeNotifyTask exampleRef 0)).2.entry
      exampleRef = some c ∧ c.unsent.getLast? = some v ∧ v.details = newest.details := by
  intro hall
  have hrun : (run exampleOps exampleEvents (observeInit false 1)).bind copiedDetails =
      some (⟨0x45, 0⟩, ⟨0, 0⟩, true, true) := by decide +kernel
  obtain ⟨s, hs, hcopied⟩ := Option.bind_eq_some_iff.mp hrun
  obtain ⟨o, newest, c, v, hfind, hc, hv, hexpected, hjunk, hins, _⟩ := copiedDetails_some hcopied
  obtain ⟨c', v', hc', hv', hdetails⟩ := hall s o newest _ ((Reachable.init false 1).run hs) hfind hins
  rw [hc] at hc'
  cases hc'
  rw [hv] at hv'
  cases hv'
  rw [hexpected, hjunk] at hdetails
  exact absurd hdetails (by decide)

end Anjay.Observe
