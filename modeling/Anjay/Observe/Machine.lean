/-
  File:      Anjay/Observe/Machine.lean
  Subject:   The observe module as a machine: requests, triggers, flushing, notification exchanges and garbage
             collection (`anjay_observe_core.c`).

  * `observeHandle`, `observeRemoveEntry`, `triggerObserve`, `flushNextUnsent`, `handleNotifyDelivery`,
    `writeNotifyPayload`, `observeGc`: the entry points; `none` where the code follows a null or dangling pointer.
  * `Event`, `perform`, `Reachable`: their runs, in any order and with any answers of the environment.
-/
import Anjay.Observe.Update

namespace Anjay.Observe

open AttrStorage Dm Lib

variable {β : Type}

/-! ## 1. After a notification -/

/-- An error that is one. -/
abbrev AvsFailure := { err : AvsError // err.isOk = false }

/-- AVS_COAP_ERR_CATEGORY. -/
def coapErrCategory : Nat := 22627

/-- AVS_COAP_ERR_UDP_RESET_RECEIVED. -/
def coapErrUdpResetReceived : Nat := 0x1000

/-- AVS_COAP_ERR_EXCHANGE_CANCELED. -/
def coapErrExchangeCanceled : Nat := 0x3000

def exchangeCanceled : AvsError := ⟨coapErrCategory, coapErrExchangeCanceled⟩

/-- AVS_EMSGSIZE. -/
def emsgsize : AvsError := ⟨AvsError.errnoCategory, 31⟩

/-- Where the error ladder of `on_entry_flushed` leads. -/
inductive FlushFailure
  | networkError
  | handledByCoap
  | nonFatal
  deriving DecidableEq, Repr

/-- The error ladder of `on_entry_flushed`; the recovery action is in the bits 12 to 15 of the code. -/
def flushFailure (err : AvsError) : FlushFailure :=
  if err.category = coapErrCategory then
    if err.code / 4096 % 16 = 2 then .networkError
    else if err.code = coapErrUdpResetReceived ∨ err.code = coapErrExchangeCanceled then .handledByCoap
    else .nonFatal
  else if err = .errno .EINVAL ∨ err = emsgsize ∨ err = .errno .ENOMEM then .nonFatal
  else .networkError

/-- The answers to `_anjay_observe_schedule_pmax_trigger` for one observation: the attributes of its paths, and the
    scheduler. -/
structure PmaxEnv where
  attrs : Nat → Except Failure InternalRAttrs
  schedule : ScheduleEnv

/-- What the environment decides about `on_entry_flushed`. -/
structure FlushedEnv where
  scheduled : Bool
  storingEnabled : Bool
  triggers : Nat → PmaxEnv

namespace ConnectionEntry

/-- `sched_flush_send_queue`. -/
def schedFlushSendQueue (scheduled : Bool) (c : ConnectionEntry β) : ConnectionEntry β :=
  if c.flushTask || c.notifyExchange.isSome then c else { c with flushTask := scheduled }

/-- `_anjay_observe_schedule_pmax_trigger` on an observation of a connection. -/
def pmaxTrigger (env : PmaxEnv) (c : ConnectionEntry β) (o : Observation β) : Int × Observation β :=
  match c.newestValue o with
  | some newest =>
      schedulePmaxTrigger env.schedule ((List.range o.paths.length).map env.attrs) newest.timestamp o
  | none => (0, o)

/-- `schedule_all_triggers`. -/
def scheduleAllTriggers (env : Nat → PmaxEnv) (c : ConnectionEntry β) : ConnectionEntry β :=
  { c with observations := c.observations.map fun o =>
      if o.notifyTask.isSome then o else (c.pmaxTrigger (env o.addr) o).2 }

/-- `on_entry_flushed`. -/
def onEntryFlushed (env : FlushedEnv) (err : AvsError) (c : ConnectionEntry β) : ConnectionEntry β :=
  if err.isOk then
    if c.unsent.isEmpty then c.scheduleAllTriggers env.triggers else c.schedFlushSendQueue env.scheduled
  else
    match flushFailure err with
    | .networkError => c
    | .handledByCoap => c
    | .nonFatal => if env.storingEnabled then c else c.removeAllUnsentValues

/-- `value_sent`, where the queue is `value :: rest`. -/
def valueSent (value : Value β) (rest : List (Value β)) (c : ConnectionEntry β) : ConnectionEntry β :=
  (c.detachFirst value rest).updateObservation value.ref fun o => { o with lastSent := [value] }

/-- What `handle_notify_delivery` does to `last_confirmable`. -/
def confirmed (now : Duration) (value : Value β) (c : ConnectionEntry β) : ConnectionEntry β :=
  if value.reliabilityHint = .preferConfirmable then
    c.updateObservation value.ref fun o => { o with lastConfirmable := now }
  else c

/-- The end of the exchange: `notify_exchange_id` is no longer valid. -/
def endExchange (c : ConnectionEntry β) : ConnectionEntry β := { c with notifyExchange := none }

/-- The record of an exchange that is reported as delivered. -/
def record (exchange : Option Exchange) (value : Value β) (c : ConnectionEntry β) : ConnectionEntry β :=
  { c with recorded := c.recorded ++ [(exchange, value)] }

/-- `avs_sched_del(&conn->flush_task)`. -/
def deleteFlushTask (c : ConnectionEntry β) : ConnectionEntry β := { c with flushTask := false }

/-- Another reliability hint for the head of the queue. -/
def setHead (value : Value β) (c : ConnectionEntry β) : ConnectionEntry β :=
  { c with unsent := value :: c.unsent.tail }

end ConnectionEntry

/-- What the environment decides about `handle_notify_delivery`. -/
structure DeliveryEnv where
  now : Duration
  flushed : FlushedEnv

/-- `handle_notify_delivery`. -/
def handleNotifyDelivery (env : DeliveryEnv) (err : AvsError) (c : ConnectionEntry β) : Option (ConnectionEntry β) :=
  if err.isOk then
    match c.unsent with
    | [] => none
    | value :: rest =>
        some ((((c.endExchange.record c.notifyExchange value).confirmed env.now value).valueSent value
          rest).onEntryFlushed env.flushed err)
  else some (c.endExchange.onEntryFlushed env.flushed err)

/-- `avs_coap_exchange_cancel` of the exchange of a connection: the delivery handler only ends it. -/
theorem handleNotifyDelivery_canceled (env : DeliveryEnv) (c : ConnectionEntry β) :
    handleNotifyDelivery env exchangeCanceled c = some c.endExchange := rfl

/-! ## 2. Removing observations and connections -/

/-- `delete_connection_if_empty`. -/
def State.deleteConnectionIfEmpty (ref : ConnectionRef) (s : State β) : State β :=
  { s with connectionEntries := s.connectionEntries.filter fun c => !(c.connRef == ref && c.observations.isEmpty) }

/-- `clear_observation` and `detach_observation`. -/
def ConnectionEntry.removeObservation (o : Observation β) (c : ConnectionEntry β) : ConnectionEntry β :=
  (c.clearObservation o).detachObservation o

/-- `observe_remove_entry`; an exchange under way is cancelled. -/
def observeRemoveEntry (ref : ConnectionRef) (token : Token) (s : State β) : State β :=
  match s.entry ref with
  | none => s
  | some c =>
      match c.findObservation token with
      | none => s.modify ref ConnectionEntry.endExchange
      | some o =>
          ((s.modify ref ConnectionEntry.endExchange).modify ref
            (ConnectionEntry.removeObservation o)).deleteConnectionIfEmpty ref

/-- `_anjay_observe_interrupt`. -/
def observeInterrupt (ref : ConnectionRef) (s : State β) : State β :=
  s.modify ref fun c => c.endExchange.deleteFlushTask

/-- `observe_gc_ssid_iterate` for the SSIDs of the servers, and the end of `_anjay_observe_gc`. -/
def gcLoop : List Id → List (ConnectionEntry β) → List (ConnectionEntry β)
  | [], _ => []
  | ssid :: ssids, cs =>
      let rest := cs.dropWhile fun c => decide (c.connRef.ssid < ssid)
      rest.takeWhile (fun c => decide (c.connRef.ssid = ssid)) ++
        gcLoop ssids (rest.dropWhile fun c => decide (c.connRef.ssid = ssid))

/-- `_anjay_observe_gc`. -/
def observeGc (ssids : List Id) (s : State β) : State β :=
  { s with connectionEntries := gcLoop ssids s.connectionEntries }

/-! ## 3. Flushing -/

/-- What `avs_coap_notify_async` does: it fails, or it sends everything and reports the delivery at once, or the
    exchange is under way when it returns. -/
inductive NotifyOutcome
  | refused (err : AvsFailure)
  | completed
  | pending

/-- What the environment decides about `flush_next_unsent`. -/
structure FlushEnv where
  now : Duration
  maxTransmitWait : Duration
  headerError : Option AvsFailure
  serializationInitialized : Bool
  chunkWritten : Bool
  notify : NotifyOutcome
  delivery : DeliveryEnv

/-- `avs_time_duration_from_scalar(1, AVS_TIME_DAY)`. -/
def oneDay : Duration := ⟨86400, 0⟩

/-- `confirmable_required`. -/
def confirmableRequired (env : FlushEnv) (o : Observation β) : Bool :=
  !env.now.less (o.lastConfirmable.add (oneDay.diff env.maxTransmitWait))

/-- The hint that the head of the queue has when it is sent. -/
def sentHint (env : FlushEnv) (o : Observation β) (value : Value β) : Value β :=
  if confirmableRequired env o then { value with reliabilityHint := .preferConfirmable } else value

/-- What avs_coap does first with a notification that carries an error code and is not confirmable: it cancels the
    observation. -/
def cancelNotificationOnError (ref : ConnectionRef) (token : Token) (value : Value β) (s : State β) : State β :=
  if value.isError && value.reliabilityHint == .preferNonConfirmable then observeRemoveEntry ref token s else s

/-- The exchange started for a value, after the payload writer was called for the first message. -/
def startedExchange (env : FlushEnv) (value : Value β) : Exchange :=
  if value.isError then ⟨value.addr, [], false⟩
  else if env.chunkWritten then ⟨value.addr, [value.addr], false⟩
  else ⟨value.addr, [], true⟩

/-- An exchange that `avs_coap_notify_async` starts. -/
def ConnectionEntry.startExchange (env : FlushEnv) (value : Value β) (c : ConnectionEntry β) : ConnectionEntry β :=
  { c with notifyExchange := some (startedExchange env value) }

/-- `avs_coap_notify_async`, and what `flush_next_unsent` does with its result. -/
def notifyAsync (env : FlushEnv) (ref : ConnectionRef) (value : Value β) (s : State β) : Option (State β) :=
  match s.entry ref, env.notify with
  | none, .refused _ => some s
  | none, _ => none
  | some _, .refused err => some (s.modify ref (ConnectionEntry.onEntryFlushed env.delivery.flushed err.val))
  | some c, .completed =>
      match handleNotifyDelivery env.delivery .ok (c.startExchange env value) with
      | none => none
      | some c' => some (s.modify ref fun _ => c')
  | some _, .pending => some (s.modify ref (ConnectionEntry.startExchange env value))

/-- `flush_next_unsent` with the head of the queue, an observation's value. -/
def flushValue (env : FlushEnv) (ref : ConnectionRef) (token : Token) (value : Value β) (s : State β) :
    Option (State β) :=
  match env.headerError with
  | some err => some (s.modify ref (ConnectionEntry.onEntryFlushed env.delivery.flushed err.val))
  | none =>
      if !value.isError && !env.serializationInitialized then
        some (s.modify ref (ConnectionEntry.onEntryFlushed env.delivery.flushed (.errno .ENOMEM)))
      else notifyAsync env ref value (cancelNotificationOnError ref token value s)

/-- `flush_next_unsent`. -/
def flushNextUnsent (env : FlushEnv) (ref : ConnectionRef) (s : State β) : Option (State β) :=
  match s.entry ref with
  | none => none
  | some c =>
      match c.unsent with
      | [] => none
      | value :: _ =>
          match c.observations.find? fun o => o.addr == value.ref with
          | none => none
          | some o =>
              flushValue env ref o.token (sentHint env o value)
                (s.modify ref (ConnectionEntry.setHead (sentHint env o value)))

/-- Whether a message can be sent: `_anjay_connection_ready_for_outgoing_message`, and the socket of
    `_anjay_connection_get_online_socket`. -/
structure OnlineEnv where
  readyForOutgoing : Bool
  onlineSocket : Bool

/-- `flush_send_queue_job`. -/
def flushSendQueueJob (env : FlushEnv) (online : OnlineEnv) (ref : ConnectionRef) (s : State β) : Option (State β) :=
  match s.entry ref with
  | none => none
  | some c =>
      if !c.flushTask then none
      else if !c.unsent.isEmpty && c.notifyExchange.isNone && online.readyForOutgoing && online.onlineSocket then
        flushNextUnsent env ref (s.modify ref ConnectionEntry.deleteFlushTask)
      else some (s.modify ref ConnectionEntry.deleteFlushTask)

/-- `write_notify_payload`; a chunk that it produces is of the value at the head of the queue, whatever that is. -/
def writeNotifyPayload (written : Bool) (c : ConnectionEntry β) : Option (ConnectionEntry β) :=
  match c.notifyExchange, c.unsent with
  | none, _ => none
  | some exchange, unsent =>
      if written then
        match unsent with
        | [] => none
        | value :: _ =>
            if value.isError then none
            else some { c with notifyExchange := some { exchange with chunks := exchange.chunks ++ [value.addr] } }
      else some { c with notifyExchange := some { exchange with failed := true } }

/-! ## 4. The trigger of an observation -/

/-- What the environment decides about `trigger_observe`. -/
structure TriggerEnv (β : Type) where
  online : OnlineEnv
  transportOnline : Bool
  storingEnabled : Bool
  storingEnabledLater : Bool
  queueMode : Bool
  update : UpdateEnv β
  insertError : InsertEnv
  flush : FlushEnv

/-- Both conditions of `ready_for_notifying`. -/
def TriggerEnv.readyForNotifying (env : TriggerEnv β) : Bool := env.online.readyForOutgoing && env.transportOnline

/-- The first half of `trigger_observe`. -/
def triggerUpdate (ops : BatchOps β) (env : TriggerEnv β) (ref : ConnectionRef) (o : Observation β) (newest : Value β)
    (s : State β) : State β :=
  if env.readyForNotifying || env.storingEnabled then
    if (updateNotificationValue ops env.update ref o newest s).1 = 0 then
      (updateNotificationValue ops env.update ref o newest s).2
    else
      (insertError env.insertError ref o.addr (updateNotificationValue ops env.update ref o newest s).1
        (updateNotificationValue ops env.update ref o newest s).2).2
  else s

/-- The second half of `trigger_observe`. -/
def triggerFlush (env : TriggerEnv β) (ref : ConnectionRef) (s : State β) : Option (State β) :=
  match s.entry ref with
  | none => none
  | some c =>
      if env.readyForNotifying && !c.unsent.isEmpty && c.notifyExchange.isNone then
        if env.online.onlineSocket then
          flushNextUnsent env.flush ref (s.modify ref ConnectionEntry.deleteFlushTask)
        else if env.queueMode || env.storingEnabledLater then some (s.modify ref ConnectionEntry.deleteFlushTask)
        else some (s.modify ref fun c => c.deleteFlushTask.removeAllUnsentValues)
      else some s

/-- The job of a trigger was taken off its handle. -/
def State.takeNotifyTask (ref : ConnectionRef) (observation : Nat) (s : State β) : State β :=
  s.modify ref (ConnectionEntry.updateObservation observation fun o => { o with notifyTask := none })

/-- An observation and its newest value, through pointers. -/
def State.findNewest (ref : ConnectionRef) (observation : Nat) (s : State β) : Option (Observation β × Value β) :=
  match s.entry ref with
  | none => none
  | some c =>
      match c.observations.find? fun o => o.addr == observation with
      | none => none
      | some o => (c.newestValue o).map fun newest => (o, newest)

/-- `trigger_observe`, run by the scheduler. -/
def triggerObserve (ops : BatchOps β) (env : TriggerEnv β) (ref : ConnectionRef) (observation : Nat) (s : State β) :
    Option (State β) :=
  match s.findNewest ref observation with
  | none => none
  | some (o, newest) =>
      if o.notifyTask.isSome then
        triggerFlush env ref (triggerUpdate ops env ref o newest (s.takeNotifyTask ref observation))
      else none

/-! ## 5. A new observation -/

/-- What the environment decides about `observe_handle`; `attached` is whether the observation could be created and
    added to the observed paths. -/
structure ObserveEnv (β : Type) where
  elementAllocated : Bool
  treesAllocated : Bool
  read : Except Failure (List β)
  responseDetails : MsgDetails
  attached : Bool
  valueAllocated : Bool
  started : Duration
  now : Duration
  pmax : PmaxEnv
  coapStarted : Bool
  responseSent : Bool

/-- A connection entry that was just allocated. -/
def newEntry (ref : ConnectionRef) : ConnectionEntry β := ⟨ref, [], false, none, [], none, []⟩

/-- The order of the entries. -/
def connectionEntryCmp (a b : ConnectionEntry β) : Int := connectionRefCmp a.connRef b.connRef

/-- What `find_or_create_connection_state` does where it has no memory for a list element: it deletes the entry that
    is at the place of the new one, the next entry, as if that were the new one. -/
def State.deleteAt (ref : ConnectionRef) (s : State β) : State β :=
  { s with connectionEntries := s.connectionEntries.eraseP fun c => !decide (connectionRefCmp c.connRef ref < 0) }

/-- `find_or_create_connection_state`; there is memory, or the entry exists. -/
def State.findOrCreate (ref : ConnectionRef) (s : State β) : State β :=
  { s with connectionEntries := upsert connectionEntryCmp (newEntry ref) id s.connectionEntries }

/-- The observation that `create_detached_observation` makes. -/
def newObservation (token : Token) (paths : List UriPath) (addr : Nat) : Observation β :=
  ⟨addr, token, paths, none, .zero, [], none⟩

/-- AVS_RBTREE_INSERT of an observation. -/
def ConnectionEntry.insertObservation (o : Observation β) (c : ConnectionEntry β) : ConnectionEntry β :=
  { c with observations := upsert observationCmp o id c.observations }

/-- `put_entry_into_connection_state`. -/
def State.putEntry (ref : ConnectionRef) (token : Token) (paths : List UriPath) (s : State β) : State β :=
  { s.modify ref (ConnectionEntry.insertObservation (newObservation token paths s.next)) with next := s.next + 1 }

/-- The initial value of an observation. -/
def initialValue (env : ObserveEnv β) (observation addr : Nat) (values : List β) : Value β :=
  ⟨addr, observation, env.responseDetails, .preferNonConfirmable, env.now,
    if env.responseDetails.isError then [] else values⟩

/-- `insert_initial_value` on the new observation, with memory for the value. -/
def initialized (env : ObserveEnv β) (addr : Nat) (values : List β) (o : Observation β) : Int × Observation β :=
  schedulePmaxTrigger env.pmax.schedule ((List.range o.paths.length).map env.pmax.attrs) env.now
    { o with lastSent := [initialValue env o.addr addr values] }

/-- `insert_initial_value`, after which the time of the last confirmable notification is set. -/
def initializedConfirmed (env : ObserveEnv β) (addr : Nat) (values : List β) (o : Observation β) : Observation β :=
  if (initialized env addr values o).1 = 0 then
    { (initialized env addr values o).2 with lastConfirmable := env.started }
  else (initialized env addr values o).2

/-- `insert_initial_value` on the state. -/
def State.insertInitialValue (env : ObserveEnv β) (ref : ConnectionRef) (observation : Nat) (values : List β)
    (s : State β) : State β :=
  { s.modify ref (ConnectionEntry.updateObservation observation (initializedConfirmed env s.next values)) with
    next := s.next + 1 }

/-- The entry at the place of a connection: its own, or the next one. -/
def State.deleteAtIfEmpty (ref : ConnectionRef) (s : State β) : State β :=
  match s.connectionEntries.find? fun c => !decide (connectionRefCmp c.connRef ref < 0) with
  | none => s
  | some c => s.deleteConnectionIfEmpty c.connRef

/-- The cleanup of `observe_handle` after something failed. -/
def observeFailed (ref : ConnectionRef) (token : Token) (s : State β) : State β :=
  (observeRemoveEntry ref token s).deleteAtIfEmpty ref

/-- Whether everything succeeds that `observe_handle` does once the values are read. -/
def observeSucceeds (env : ObserveEnv β) (token : Token) (paths : List UriPath) (s : State β) (values : List β) :
    Bool :=
  decide ((initialized env (s.next + 1) values (newObservation token paths s.next)).1 = 0) && env.coapStarted &&
    env.responseSent

/-- `observe_handle`, once the values are read. -/
def observeRead (env : ObserveEnv β) (ref : ConnectionRef) (token : Token) (paths : List UriPath) (values : List β)
    (s : State β) : State β :=
  if env.attached then
    if env.valueAllocated then
      if observeSucceeds env token paths s values then
        (s.putEntry ref token paths).insertInitialValue env ref s.next values
      else observeFailed ref token ((s.putEntry ref token paths).insertInitialValue env ref s.next values)
    else observeFailed ref token (s.putEntry ref token paths)
  else observeFailed ref token s

/-- `observe_handle`; avs_coap has cancelled an observation with the same token before. -/
def observeHandle (env : ObserveEnv β) (ref : ConnectionRef) (token : Token) (paths : List UriPath) (s : State β) :
    Option (State β) :=
  if (s.entry ref).isNone && !env.elementAllocated then some (s.deleteAt ref)
  else if (s.entry ref).isNone && !env.treesAllocated then some s
  else if ((s.entry ref).bind (ConnectionEntry.findObservation token)).isSome then none
  else
    match env.read with
    | .error _ => some ((s.findOrCreate ref).deleteConnectionIfEmpty ref)
    | .ok values => some (observeRead env ref token paths values (s.findOrCreate ref))

/-! ## 6. Runs -/

/-- The calls into the observe module, with the answers of the environment. -/
inductive Event (β : Type)
  | observe (env : ObserveEnv β) (ref : ConnectionRef) (token : Token) (paths : List UriPath)
  | remove (ref : ConnectionRef) (token : Token)
  | pathChanged (env : ScheduleEnv) (period : Int) (ref : ConnectionRef) (observation : Nat)
  | trigger (env : TriggerEnv β) (ref : ConnectionRef) (observation : Nat)
  | flush (env : FlushEnv) (online : OnlineEnv) (ref : ConnectionRef)
  | writePayload (written : Bool) (ref : ConnectionRef)
  | deliver (env : DeliveryEnv) (err : AvsError) (ref : ConnectionRef)
  | interrupt (ref : ConnectionRef)
  | schedFlush (scheduled : Bool) (ref : ConnectionRef)
  | gc (ssids : List Id)
  | cleanup

/-- A step on the entry of a connection that may go wrong. -/
def State.modify? (ref : ConnectionRef) (f : ConnectionEntry β → Option (ConnectionEntry β)) (s : State β) :
    Option (State β) :=
  match s.entry ref with
  | none => none
  | some c =>
      match f c with
      | none => none
      | some c' => some (s.modify ref fun _ => c')

/-- What an event does; `none` if it cannot happen, or the code goes wrong there. -/
def perform (ops : BatchOps β) : Event β → State β → Option (State β)
  | .observe env ref token paths, s => observeHandle env ref token paths s
  | .remove ref token, s => some (observeRemoveEntry ref token s)
  | .pathChanged env period ref observation, s =>
      match s.newestTimestamp ref observation with
      | none => none
      | some newest => some (s.scheduleTrigger env newest (max period 0) ref observation)
  | .trigger env ref observation, s => triggerObserve ops env ref observation s
  | .flush env online ref, s => flushSendQueueJob env online ref s
  | .writePayload written ref, s => s.modify? ref (writeNotifyPayload written)
  | .deliver env err ref, s =>
      s.modify? ref fun c => if c.notifyExchange.isSome then handleNotifyDelivery env err c else none
  | .interrupt ref, s => some (observeInterrupt ref s)
  | .schedFlush scheduled ref, s => some (s.modify ref (ConnectionEntry.schedFlushSendQueue scheduled))
  | .gc ssids, s => some (observeGc ssids s)
  | .cleanup, s => some { s with connectionEntries := [] }

/-- The states that runs of the observe module reach. -/
inductive Reachable (ops : BatchOps β) : State β → Prop
  | init (confirmableNotifications : Bool) (storedNotificationLimit : Nat) :
      Reachable ops (observeInit confirmableNotifications storedNotificationLimit)
  | step {s s' : State β} (event : Event β) (h : Reachable ops s) (hs : perform ops event s = some s') :
      Reachable ops s'

end Anjay.Observe
