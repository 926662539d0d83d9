/-
  File:      Anjay/Registration/Runs.lean
  Subject:   A client and a server that keep a registration: messages and answers that get lost, exchanges that
             are cancelled, and what the server holds in the end.

  * `perform_steps`: every event takes the steps of a `Lib.Replica`.
  * `reachable_synchronized`: the server holds what was acknowledged, in runs in which every Update carries what
    the messages without an answer may have changed; `synchronized_not_always`: not in all runs.
-/
import Mathlib.Data.List.InsertIdx
import Anjay.Lib.Replica
import Anjay.Registration.Register

namespace Anjay.Reg

open Lib

/-! ## 1. The parameters as fields -/

inductive Param
  | lifetime
  | bindingMode
  | dm

def Param.Value : Param → Type
  | lifetime => Int
  | bindingMode | dm => CString

instance instDecidableEqParamValue : (p : Param) → DecidableEq p.Value
  | .lifetime => inferInstanceAs (DecidableEq Int)
  | .bindingMode | .dm => inferInstanceAs (DecidableEq CString)

def UpdateParameters.view (params : UpdateParameters) : (p : Param) → p.Value
  | .lifetime => params.lifetimeS
  | .bindingMode => params.bindingMode
  | .dm => params.dmString

/-- What a server holds of a registration. -/
structure ServerParams where
  lifetime : Int
  bindingMode : CString
  dm : CString
  deriving DecidableEq, Repr

def ServerParams.view (held : ServerParams) : (p : Param) → p.Value
  | .lifetime => held.lifetime
  | .bindingMode => held.bindingMode
  | .dm => held.dm

namespace Message

/-- A Register replaces all parameters, an Update those that it carries. -/
def appliedTo : Message → Option ServerParams → Option ServerParams
  | register lifetime bindingMode dm, _ => some ⟨lifetime, bindingMode.getD bindingModeUdp, dm⟩
  | update _ lifetime bindingMode dm, held =>
      held.map fun held => ⟨lifetime.getD held.lifetime, bindingMode.getD held.bindingMode, dm.getD held.dm⟩

def carried : Message → Delta Param.Value
  | register lifetime bindingMode dm => .full (ServerParams.view ⟨lifetime, bindingMode.getD bindingModeUdp, dm⟩)
  | update _ lifetime bindingMode dm => fun
    | .lifetime => lifetime
    | .bindingMode => bindingMode
    | .dm => dm

def replacement : Message → Replacement Param.Value
  | register lifetime bindingMode dm => .full (ServerParams.view ⟨lifetime, bindingMode.getD bindingModeUdp, dm⟩)
  | update path lifetime bindingMode dm => .delta (carried (.update path lifetime bindingMode dm))

theorem carried_replacement (m : Message) : m.replacement.carried = m.carried := by
  cases m <;> rfl

theorem apply_replacement (m : Message) (held : Option ServerParams) :
    m.replacement.apply (held.map ServerParams.view) = (m.appliedTo held).map ServerParams.view := by
  cases m with
  | register lifetime bindingMode dm => rfl
  | update path lifetime bindingMode dm =>
      cases held with
      | none => rfl
      | some held =>
          refine congrArg some (funext fun p => ?_)
          cases p <;> rfl

end Message

theorem replacement_registerMessageFor (params : UpdateParameters) :
    (ServerInfo.registerMessageFor params).replacement = .full params.view := by
  refine congrArg Replacement.full (funext fun p => ?_)
  cases p with
  | lifetime => rfl
  | bindingMode =>
      show Option.getD (if params.bindingMode = bindingModeUdp then none else some params.bindingMode) _ = _
      split
      next h => exact h.symm
      next => rfl
  | dm => rfl

theorem replacement_updateMessageFor (info : RegistrationInfo) (params : UpdateParameters) :
    (ServerInfo.updateMessageFor info params).replacement = .delta (Delta.diff info.lastUpdateParams.view params.view) := by
  refine congrArg Replacement.delta (funext fun p => ?_)
  cases p with
  | lifetime =>
      by_cases h : params.view .lifetime = info.lastUpdateParams.view .lifetime
      · exact (if_neg (not_not.mpr h)).trans (Delta.diff_eq_none h).symm
      · exact (if_pos h).trans (Delta.diff_eq_some h).symm
  | bindingMode =>
      by_cases h : params.view .bindingMode = info.lastUpdateParams.view .bindingMode
      · exact (if_pos h.symm).trans (Delta.diff_eq_none h).symm
      · exact (if_neg fun h' => h (Eq.symm h')).trans (Delta.diff_eq_some h).symm
  | dm =>
      by_cases h : params.view .dm = info.lastUpdateParams.view .dm
      · exact (if_pos (decide_eq_true h.symm)).trans (Delta.diff_eq_none h).symm
      · exact (if_neg fun h' => h (of_decide_eq_true h').symm).trans (Delta.diff_eq_some h).symm

/-! ## 2. Events -/

/-- The client; the messages that were sent and not yet received, the oldest first; the responses of the server;
    what it holds; the messages since the last answer that the client took for a success; and whether this was
    the last event. -/
structure RunState where
  client : ServerInfo
  channel : List (Exchange × Message)
  responses : List (Exchange × Response)
  server : Option ServerParams
  unacked : List Message
  acknowledged : Bool

def RunState.init : RunState := ⟨.created, [], [], none, [], false⟩

inductive Event
  | ensureValid (env : Env)
  /-- `send_update_sched_job` and `reschedule_update_for_server` set `update_forced`. -/
  | force
  /-- The exchange is cancelled with its connection. -/
  | cancel
  | cleanup
  /-- `_anjay_server_deactivate`. -/
  | deactivate
  | answer (env : Env) (partialContent : Bool) (response : Response)
  | failure (env : Env) (err : AvsError)
  | lose (n : Nat)
  /-- The server applies the oldest message and answers it. -/
  | receive (response : Response)
  /-- The server answers the oldest message and does not apply it. -/
  | refuse (response : Response)

/-- An answer is a response of the server to the exchange that is under way; only what is registered is updated;
    what is not applied is not answered as a success. -/
def Event.Enabled : Event → RunState → Prop
  | .answer _ _ response, s => ∃ e, s.client.exchange = some e ∧ (e, response) ∈ s.responses
  | .failure _ _, s => s.client.exchange ≠ none
  | .receive _, s => ∃ p rest, s.channel = p :: rest ∧ (p.2.appliedTo s.server).isSome
  | .refuse response, s => ∃ p rest, s.channel = p :: rest ∧ p.1.handler.accepts response = false
  | _, _ => True

namespace RunState

/-- The client goes on, and what it sends joins the channel. -/
def dispatch (s : RunState) (client : ServerInfo) : RunState :=
  { s with
    client := { client with outbox := [] }, channel := s.channel ++ client.outbox
    unacked := s.unacked ++ client.outbox.map Prod.snd, acknowledged := false }

/-- The handler of the exchange gets the response. -/
def answered (s : RunState) (e : Exchange) (env : Env) (partialContent : Bool) (response : Response) : RunState :=
  let requestState := if partialContent then RequestState.partialContent response else .ok response
  let s' := s.dispatch (s.client.receiveResponse e.handler env requestState)
  if e.handler.accepts response then { s' with unacked := [], acknowledged := true } else s'

/-- The server applies the message `p`. -/
def received (s : RunState) (p : Exchange × Message) (rest : List (Exchange × Message)) (response : Response) :
    RunState :=
  { s with
    channel := rest, responses := (p.1, response) :: s.responses, server := p.2.appliedTo s.server
    acknowledged := false }

/-- The server does not apply the message `p`. -/
def refused (s : RunState) (p : Exchange × Message) (rest : List (Exchange × Message)) (response : Response) :
    RunState :=
  { s with channel := rest, responses := (p.1, response) :: s.responses, acknowledged := false }

end RunState

def perform : Event → RunState → RunState
  | .ensureValid env, s => s.dispatch (s.client.ensureValidRegistration env)
  | .force, s =>
      s.dispatch { s.client with registrationInfo := { s.client.registrationInfo with updateForced := true } }
  | .cancel, s => s.dispatch s.client.cancelExchange
  | .cleanup, s => s.dispatch s.client.exchangeStateCleanup
  | .deactivate, s => s.dispatch s.client.exchangeStateCleanup.invalidateRegistration
  | .answer env partialContent response, s =>
      match s.client.exchange with
      | none => s
      | some e => s.answered e env partialContent response
  | .failure env err, s =>
      match s.client.exchange with
      | none => s
      | some e => s.dispatch (s.client.receiveResponse e.handler env (.fail err))
  | .lose n, s => { s with channel := s.channel.eraseIdx n, acknowledged := false }
  | .receive response, s =>
      match s.channel with
      | [] => s
      | p :: rest => s.received p rest response
  | .refuse response, s =>
      match s.channel with
      | [] => s
      | p :: rest => s.refused p rest response

/-- The states of the runs whose events meet the condition `C`. -/
inductive ReachableWith (C : Event → RunState → Prop) : RunState → Prop
  | init : ReachableWith C .init
  | step {s : RunState} (event : Event) (h : ReachableWith C s) (hen : event.Enabled s) (hc : C event s) :
      ReachableWith C (perform event s)

/-- An Update that is sent has all parameters that a message without an answer carried with another value than
    the acknowledged one. -/
def Event.Covers : Event → RunState → Prop
  | .ensureValid env, s => ∀ new, s.client.SendsUpdate env new →
      Delta.Covered s.client.registrationInfo.lastUpdateParams.view (s.unacked.map Message.carried) new.view
  | _, _ => True

/-! ## 3. The run as a replica -/

/-- The exchanges that were answered by a success. -/
def answeredIds (responses : List (Exchange × Response)) : List Nat :=
  (responses.filter fun p => p.1.handler.accepts p.2).map fun p => p.1.id

theorem answeredIds_accepted {e : Exchange} {response : Response} (h : e.handler.accepts response = true)
    (responses : List (Exchange × Response)) : answeredIds ((e, response) :: responses) = e.id :: answeredIds responses := by
  unfold answeredIds
  rw [List.filter_cons, if_pos h]
  rfl

theorem answeredIds_refused {e : Exchange} {response : Response} (h : e.handler.accepts response = false)
    (responses : List (Exchange × Response)) : answeredIds ((e, response) :: responses) = answeredIds responses := by
  unfold answeredIds
  rw [List.filter_cons, if_neg (ne_true_of_eq_false h)]

def RunState.replica (s : RunState) : Replica Param.Value where
  base := s.client.registrationInfo.lastUpdateParams.view
  pending := s.client.exchange.map fun e => (e.id, s.client.newParams.view)
  channel := s.channel.map fun p => (p.1.id, p.2.replacement)
  next := s.client.nextExchangeId
  answered := answeredIds s.responses
  held := s.server.map ServerParams.view
  unacked := s.unacked.map Message.carried

/-- What was sent is in the channel, and an exchange that is under way has an object list. -/
structure RunState.Tidy (s : RunState) : Prop where
  outbox : s.client.outbox = []
  dm : s.client.exchange ≠ none → s.client.newParams.dm.isSome

theorem tidy_quiet {s : RunState} {client : ServerInfo} (h : s.Tidy) (hq : s.client.Quiet client) :
    (s.dispatch client).Tidy := by
  refine ⟨rfl, fun hexchange => ?_⟩
  rcases hq.exchange with hnone | ⟨hsame, hparams⟩
  · exact absurd hnone hexchange
  · have hdm := h.dm fun hnone => hexchange (hsame.trans hnone)
    rw [← hparams] at hdm
    exact hdm

theorem steps_quiet {s : RunState} {client : ServerInfo} (h : s.Tidy) (hq : s.client.Quiet client) :
    Replica.Steps s.replica (s.dispatch client).replica := by
  have hrest : (s.dispatch client).replica =
      { s.replica with pending := client.exchange.map fun e => (e.id, client.newParams.view) } := by
    unfold RunState.replica RunState.dispatch
    dsimp only
    rw [hq.last, hq.next, hq.outbox, h.outbox, List.append_nil, List.map_nil, List.append_nil]
  rw [hrest]
  rcases hq.exchange with hnone | ⟨hsame, hparams⟩
  · rw [hnone]
    exact Replica.Step.cancel.steps
  · rw [hsame, hparams]
    exact .refl

theorem replica_sent {s : RunState} {client : ServerInfo} {handler : ResponseHandler} {m : UpdateParameters → Message}
    (h : s.Tidy) (hs : s.client.Sent handler m client) :
    (s.dispatch client).replica = s.replica.send client.newParams.view (m client.newParams).replacement := by
  unfold RunState.replica RunState.dispatch Replica.send
  dsimp only
  rw [hs.last, hs.next, hs.exchange, hs.outbox, h.outbox, List.nil_append, List.map_append, List.map_append,
    Message.carried_replacement]
  rfl

theorem tidy_sent {s : RunState} {client : ServerInfo} {handler : ResponseHandler} {m : UpdateParameters → Message}
    (hs : s.client.Sent handler m client) : (s.dispatch client).Tidy := ⟨rfl, fun _ => hs.dm⟩

/-- Nothing is sent, or a Register. -/
theorem steps_register {s : RunState} {client : ServerInfo} (h : s.Tidy)
    (hs : s.client.Quiet client ∨ s.client.Sent .receiveRegisterResponse ServerInfo.registerMessageFor client) :
    Replica.Steps s.replica (s.dispatch client).replica ∧ (s.dispatch client).Tidy := by
  rcases hs with hq | hs
  · exact ⟨steps_quiet h hq, tidy_quiet h hq⟩
  · rw [replica_sent h hs, replacement_registerMessageFor]
    exact ⟨(Replica.Step.sendFull _).steps, tidy_sent hs⟩

/-- A success: what the exchange was sent for is acknowledged. -/
theorem replica_answered {s : RunState} {e : Exchange} {response : Response} (h : s.Tidy)
    (he : s.client.exchange = some e) (haccepts : e.handler.accepts response = true) (env : Env) (partialContent : Bool) :
    (s.answered e env partialContent response).replica =
      { s.replica with base := s.client.newParams.view, pending := none, unacked := [] } ∧
    (s.answered e env partialContent response).Tidy := by
  have hdm : s.client.newParams.dm.isSome := h.dm fun hnone => nomatch hnone.symm.trans he
  have hack : s.client.Acknowledged (s.client.receiveResponse e.handler env
      (if partialContent then .partialContent response else .ok response)) := by
    refine ServerInfo.receiveResponse_accepted ?_ hdm
    cases partialContent with
    | false => exact haccepts
    | true => exact haccepts
  unfold RunState.answered
  dsimp only
  rw [if_pos haccepts]
  refine ⟨?_, rfl, fun hexchange => absurd hack.exchange hexchange⟩
  unfold RunState.replica RunState.dispatch
  dsimp only
  rw [hack.last, hack.next, hack.outbox, hack.exchange, h.outbox, List.append_nil]
  rfl

theorem mem_answered {s : RunState} {e : Exchange} {response : Response} (hmem : (e, response) ∈ s.responses)
    (haccepts : e.handler.accepts response = true) : e.id ∈ s.replica.answered :=
  List.mem_map.mpr ⟨(e, response), List.mem_filter.mpr ⟨hmem, haccepts⟩, rfl⟩

theorem pending_replica {s : RunState} {e : Exchange} (he : s.client.exchange = some e) :
    s.replica.pending = some (e.id, s.client.newParams.view) := by
  unfold RunState.replica
  rw [he]
  rfl

theorem channel_replica {s : RunState} {p : Exchange × Message} {rest : List (Exchange × Message)}
    (h : s.channel = p :: rest) :
    s.replica.channel = (p.1.id, p.2.replacement) :: rest.map fun p => (p.1.id, p.2.replacement) := by
  unfold RunState.replica
  rw [h]
  rfl

theorem perform_answer {s : RunState} {e : Exchange} (he : s.client.exchange = some e) (env : Env)
    (partialContent : Bool) (response : Response) :
    perform (.answer env partialContent response) s = s.answered e env partialContent response := by
  rw [perform, he]

theorem perform_failure {s : RunState} {e : Exchange} (he : s.client.exchange = some e) (env : Env) (err : AvsError) :
    perform (.failure env err) s = s.dispatch (s.client.receiveResponse e.handler env (.fail err)) := by
  rw [perform, he]

theorem perform_receive {s : RunState} {p : Exchange × Message} {rest : List (Exchange × Message)}
    (h : s.channel = p :: rest) (response : Response) : perform (.receive response) s = s.received p rest response := by
  rw [perform, h]

theorem perform_refuse {s : RunState} {p : Exchange × Message} {rest : List (Exchange × Message)}
    (h : s.channel = p :: rest) (response : Response) : perform (.refuse response) s = s.refused p rest response := by
  rw [perform, h]

/-- **Every event takes the steps of a replica**, if an Update covers what was not answered. -/
theorem perform_steps {s : RunState} {event : Event} (h : s.Tidy) (hen : event.Enabled s) (hc : event.Covers s) :
    Replica.Steps s.replica (perform event s).replica ∧ (perform event s).Tidy := by
  cases event with
  | ensureValid env =>
      show Replica.Steps _ (s.dispatch _).replica ∧ (s.dispatch _).Tidy
      rcases s.client.ensureValidRegistration_cases env with hq | hs | ⟨hsends, hs⟩
      · exact steps_register h (Or.inl hq)
      · exact steps_register h (Or.inr hs)
      · rw [replica_sent h hs, replacement_updateMessageFor]
        exact ⟨(Replica.Step.sendDiff _ (hc _ hsends)).steps, tidy_sent hs⟩
  | force =>
      have hq : s.client.Quiet
          { s.client with registrationInfo := { s.client.registrationInfo with updateForced := true } } :=
        ⟨Or.inr ⟨rfl, rfl⟩, rfl, rfl, rfl⟩
      exact ⟨steps_quiet h hq, tidy_quiet h hq⟩
  | cancel => exact steps_register h (Or.inl s.client.quiet_cancelExchange)
  | cleanup => exact steps_register h (Or.inl ⟨Or.inl rfl, rfl, rfl, rfl⟩)
  | deactivate => exact steps_register h (Or.inl ⟨Or.inl rfl, rfl, rfl, rfl⟩)
  | answer env partialContent response =>
      obtain ⟨e, he, hmem⟩ := hen
      rw [perform_answer he]
      cases haccepts : e.handler.accepts response with
      | true =>
          obtain ⟨heq, htidy⟩ := replica_answered h he haccepts env partialContent
          rw [heq]
          exact ⟨(Replica.Step.acknowledge (pending_replica he) (mem_answered hmem haccepts)).steps, htidy⟩
      | false =>
          have hdm : s.client.newParams.dm.isSome := h.dm fun hnone => nomatch hnone.symm.trans he
          have hrejected : (if partialContent then RequestState.partialContent response else .ok response).accepted
              e.handler = false := by
            cases partialContent with
            | false => exact haccepts
            | true => exact haccepts
          unfold RunState.answered
          dsimp only
          rw [haccepts, if_neg Bool.false_ne_true]
          exact steps_register h (ServerInfo.receiveResponse_cases hrejected hdm)
  | failure env err =>
      obtain ⟨e, he⟩ := Option.ne_none_iff_exists'.mp hen
      have hdm : s.client.newParams.dm.isSome := h.dm hen
      rw [perform_failure he]
      exact steps_register h (ServerInfo.receiveResponse_cases rfl hdm)
  | lose n =>
      refine ⟨?_, h.outbox, h.dm⟩
      have heq : (perform (.lose n) s).replica = { s.replica with channel := s.replica.channel.eraseIdx n } := by
        unfold perform RunState.replica
        dsimp only
        rw [List.eraseIdx_map]
      rw [heq]
      exact (Replica.Step.lose n).steps
  | receive response =>
      obtain ⟨p, rest, hchannel, happlied⟩ := hen
      rw [perform_receive hchannel]
      refine ⟨?_, h.outbox, h.dm⟩
      have hheld : (p.2.replacement.apply s.replica.held).isSome := by
        rw [show s.replica.held = s.server.map ServerParams.view from rfl, p.2.apply_replacement, Option.isSome_map]
        exact happlied
      cases haccepts : p.1.handler.accepts response with
      | true =>
          have heq : (s.received p rest response).replica = { s.replica with
              channel := rest.map fun p => (p.1.id, p.2.replacement), held := p.2.replacement.apply s.replica.held
              answered := p.1.id :: s.replica.answered } := by
            unfold RunState.replica RunState.received
            dsimp only
            rw [answeredIds_accepted haccepts, p.2.apply_replacement]
          rw [heq]
          exact (Replica.Step.receive (channel_replica hchannel) hheld).steps
      | false =>
          have heq : (s.received p rest response).replica = { s.replica with
              channel := rest.map fun p => (p.1.id, p.2.replacement)
              held := p.2.replacement.apply s.replica.held } := by
            unfold RunState.replica RunState.received
            dsimp only
            rw [answeredIds_refused haccepts, p.2.apply_replacement]
          rw [heq]
          exact (Replica.Step.receiveSilently (channel_replica hchannel)).steps
  | refuse response =>
      obtain ⟨p, rest, hchannel, hrefuses⟩ := hen
      rw [perform_refuse hchannel]
      refine ⟨?_, h.outbox, h.dm⟩
      have heq : (s.refused p rest response).replica = { s.replica with channel := s.replica.channel.eraseIdx 0 } := by
        rw [channel_replica hchannel]
        unfold RunState.replica RunState.refused
        dsimp only
        rw [answeredIds_refused hrefuses]
        rfl
      rw [heq]
      exact (Replica.Step.lose 0).steps

/-! ## 4. What the server holds -/

/-- **The invariant of the runs in which every Update covers what was not answered.** -/
theorem reachable_replica {s : RunState} (h : ReachableWith Event.Covers s) : s.replica.Sound ∧ s.Tidy := by
  induction h with
  | init => exact ⟨⟨nofun, nofun, .nil, nofun, nofun, nofun, nofun, nofun⟩, rfl, fun h => absurd rfl h⟩
  | step event _ hen hc ih =>
      obtain ⟨hsteps, htidy⟩ := perform_steps ih.2 hen hc
      exact ⟨ih.1.steps hsteps, htidy⟩

/-- Only an answer that is a success leaves the mark. -/
theorem acknowledged_cases {event : Event} {s : RunState} (hen : event.Enabled s)
    (hack : (perform event s).acknowledged = true) :
    ∃ e env partialContent response, s.client.exchange = some e ∧ (e, response) ∈ s.responses ∧
      e.handler.accepts response = true ∧ perform event s = s.answered e env partialContent response := by
  cases event with
  | ensureValid env => cases hack
  | force => cases hack
  | cancel => cases hack
  | cleanup => cases hack
  | deactivate => cases hack
  | lose n => cases hack
  | answer env partialContent response =>
      obtain ⟨e, he, hmem⟩ := hen
      refine ⟨e, env, partialContent, response, he, hmem, ?_, perform_answer he env partialContent response⟩
      rw [perform_answer he] at hack
      by_contra hrefuses
      unfold RunState.answered at hack
      dsimp only at hack
      rw [if_neg hrefuses] at hack
      cases hack
  | failure env err =>
      obtain ⟨e, he⟩ := Option.ne_none_iff_exists'.mp hen
      rw [perform_failure he] at hack
      cases hack
  | receive response =>
      obtain ⟨p, rest, hchannel, -⟩ := hen
      rw [perform_receive hchannel] at hack
      cases hack
  | refuse response =>
      obtain ⟨p, rest, hchannel, -⟩ := hen
      rw [perform_refuse hchannel] at hack
      cases hack

def UpdateParameters.held (params : UpdateParameters) : ServerParams :=
  ⟨params.lifetimeS, params.bindingMode, params.dmString⟩

theorem eq_held_of_view {held : ServerParams} {params : UpdateParameters} (h : held.view = params.view) :
    held = params.held := by
  have hlifetime : held.lifetime = params.lifetimeS := congrFun h .lifetime
  have hbindingMode : held.bindingMode = params.bindingMode := congrFun h .bindingMode
  have hdm : held.dm = params.dmString := congrFun h .dm
  unfold UpdateParameters.held
  rw [← hlifetime, ← hbindingMode, ← hdm]

/-- **After an answer that is a success nothing is under way, and the server holds what was acknowledged.** -/
theorem reachable_synchronized {s : RunState} (h : ReachableWith Event.Covers s) (hack : s.acknowledged = true) :
    s.client.exchange = none ∧ s.channel = [] ∧
      s.server = some s.client.registrationInfo.lastUpdateParams.held := by
  cases h with
  | init => cases hack
  | step event h hen hc =>
      rename_i s
      obtain ⟨hsound, htidy⟩ := reachable_replica h
      obtain ⟨e, env, partialContent, response, he, hmem, haccepts, hperform⟩ := acknowledged_cases hen hack
      obtain ⟨hempty, hheld⟩ := hsound.acknowledge (pending_replica he) (mem_answered hmem haccepts)
      obtain ⟨hreplica, -⟩ := replica_answered htidy he haccepts env partialContent
      rw [hperform]
      have hexchange : (s.answered e env partialContent response).replica.pending = none := by rw [hreplica]
      have hchannel : (s.answered e env partialContent response).replica.channel = [] := by
        rw [hreplica]
        exact hempty
      have hserver : (s.answered e env partialContent response).replica.held =
          some (s.answered e env partialContent response).replica.base := by
        rw [hreplica]
        exact hheld
      obtain ⟨held, hsome, hview⟩ := Option.map_eq_some_iff.mp hserver
      exact ⟨Option.map_eq_none_iff.mp hexchange, List.map_eq_nil_iff.mp hchannel,
        hsome.trans (congrArg some (eq_held_of_view hview))⟩

/-- A client that is online, with an object list and a lifetime. -/
def onlineEnv (dm : List UInt8) (lifetime : Int) : Env where
  now := ⟨1000, 0⟩
  sessionToken := ⟨1, 0⟩
  online := true
  bindingMode := bindingModeUdp
  dm := some (.ofBytes dm)
  lifetime := some lifetime
  registerOptions := none
  updateOptions := none
  sendRegister := none
  sendUpdate := none

/-- "2.01 Created" and "2.04 Changed". -/
def created : Response := ⟨65, some []⟩

def changed : Response := ⟨68, some []⟩

/-- A registration: the lifetime is a day, and the object list is "</1>". -/
def registered : RunState :=
  perform (.answer (onlineEnv [60, 47, 49, 62] 86400) false created)
    (perform (.receive created) (perform (.ensureValid (onlineEnv [60, 47, 49, 62] 86400)) .init))

theorem enabled_receive {s : RunState} {response : Response}
    (h : (s.channel.head?.any fun p => (p.2.appliedTo s.server).isSome) = true) :
    Event.Enabled (.receive response) s := by
  obtain ⟨p, hhead, happlied⟩ := (Option.any_eq_true _ _).mp h
  obtain ⟨rest, hrest⟩ := List.head?_eq_some_iff.mp hhead
  exact ⟨p, rest, hrest, happlied⟩

theorem enabled_answer {s : RunState} {env : Env} {partialContent : Bool} {response : Response}
    (h : (s.client.exchange.any fun e => decide ((e, response) ∈ s.responses)) = true) :
    Event.Enabled (.answer env partialContent response) s := by
  obtain ⟨e, he, hmem⟩ := (Option.any_eq_true _ _).mp h
  exact ⟨e, he, of_decide_eq_true hmem⟩

theorem reachable_registered {C : Event → RunState → Prop}
    (hregister : C (.ensureValid (onlineEnv [60, 47, 49, 62] 86400)) .init)
    (hother : ∀ event s, (∀ env, event ≠ .ensureValid env) → C event s) : ReachableWith C registered := by
  have hsent : ReachableWith C (perform (.ensureValid (onlineEnv [60, 47, 49, 62] 86400)) .init) :=
    .step _ .init trivial hregister
  have hreceived := hsent.step (.receive created) (enabled_receive (by decide +kernel))
    (hother _ _ fun _ h => nomatch h)
  have hanswered := hreceived.step (.answer (onlineEnv [60, 47, 49, 62] 86400) false created)
    (enabled_answer (by decide +kernel)) (hother _ _ fun _ h => nomatch h)
  unfold registered
  exact hanswered

/-- An Update with the lifetime of a minute is lost. -/
def minuteLost : RunState :=
  perform (.lose 0) (perform (.ensureValid (onlineEnv [60, 47, 49, 62] 60)) registered)

/-- The next one, with that of an hour, takes its place and is answered. -/
def updated : RunState :=
  perform (.answer (onlineEnv [60, 47, 49, 62] 3600) false changed)
    (perform (.receive changed) (perform (.ensureValid (onlineEnv [60, 47, 49, 62] 3600)) minuteLost))

theorem registered_unacked : registered.unacked.isEmpty = true := by decide +kernel

/-- All that is not answered yet is a lifetime, and the acknowledged one is a day. -/
theorem minuteLost_unacked : (minuteLost.unacked.map Message.carried).all (fun m =>
      (m .bindingMode).isNone && (m .dm).isNone) = true ∧
    minuteLost.client.registrationInfo.lastUpdateParams.lifetimeS = 86400 := by decide +kernel

theorem minuteLost_covers : Event.Covers (.ensureValid (onlineEnv [60, 47, 49, 62] 3600)) minuteLost := by
  obtain ⟨hlifetimes, hday⟩ := minuteLost_unacked
  intro new hsends m hm i v hcarried hchanged
  have hnew : new.lifetimeS = 3600 := by
    rw [← Option.some.inj (hsends.1 : updateParametersInit (onlineEnv [60, 47, 49, 62] 3600) = some new)]
  obtain ⟨hbindingMode, hdm⟩ := Bool.and_eq_true_iff.mp (List.all_eq_true.mp hlifetimes m hm)
  cases i with
  | lifetime =>
      show new.lifetimeS ≠ minuteLost.client.registrationInfo.lastUpdateParams.lifetimeS
      rw [hnew, hday]
      decide
  | bindingMode =>
      rw [hcarried] at hbindingMode
      cases hbindingMode
  | dm =>
      rw [hcarried] at hdm
      cases hdm

theorem reachable_synchronized_updated : updated.client.exchange = none ∧ updated.channel = [] ∧
    updated.server = some updated.client.registrationInfo.lastUpdateParams.held := by
  have hregistered : ReachableWith Event.Covers registered := by
    refine reachable_registered (fun new _ m hm => absurd hm List.not_mem_nil) fun event s hother => ?_
    cases event with
    | ensureValid env => exact absurd rfl (hother env)
    | _ => trivial
  have hminute := hregistered.step (.ensureValid (onlineEnv [60, 47, 49, 62] 60)) trivial fun new _ m hm => by
    rw [List.isEmpty_iff.mp registered_unacked] at hm
    cases hm
  have hlost : ReachableWith Event.Covers minuteLost := hminute.step (.lose 0) trivial trivial
  have hsent := hlost.step (.ensureValid (onlineEnv [60, 47, 49, 62] 3600)) trivial minuteLost_covers
  have happlied := hsent.step (.receive changed) (enabled_receive (by decide +kernel)) trivial
  have hanswered : ReachableWith Event.Covers updated :=
    happlied.step (.answer (onlineEnv [60, 47, 49, 62] 3600) false changed) (enabled_answer (by decide +kernel)) trivial
  exact reachable_synchronized hanswered (by decide +kernel)

/-- **A value that changes and changes back around a cancelled Update is lost**: the answer to an Update with the
    lifetime of a minute does not arrive; then the lifetime is a day again and the object list is "</2>", so that
    the next Update has the list only. -/
theorem synchronized_not_always : ∃ s : RunState, ReachableWith (fun _ _ => True) s ∧ s.acknowledged = true ∧
    s.client.exchange = none ∧ s.channel = [] ∧
    s.server ≠ some s.client.registrationInfo.lastUpdateParams.held := by
  have hregistered : ReachableWith (fun _ _ => True) registered := reachable_registered trivial fun _ _ _ => trivial
  have hminute := hregistered.step (.ensureValid (onlineEnv [60, 47, 49, 62] 60)) trivial trivial
  have happlied := hminute.step (.receive changed) (enabled_receive (by decide +kernel)) trivial
  have hback := happlied.step (.ensureValid (onlineEnv [60, 47, 50, 62] 86400)) trivial trivial
  have happlied' := hback.step (.receive changed) (enabled_receive (by decide +kernel)) trivial
  have hanswered := happlied'.step (.answer (onlineEnv [60, 47, 50, 62] 86400) false changed)
    (enabled_answer (by decide +kernel)) trivial
  refine ⟨_, hanswered, ?_, ?_, ?_, ?_⟩
  · decide +kernel
  · decide +kernel
  · decide +kernel
  · decide +kernel

end Anjay.Reg
