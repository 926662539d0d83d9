/-
  File:      Anjay/Bootstrap/Phase.lean
  Subject:   The bootstrap phase (`anjay_bootstrap_core.c`): how it is entered, finished and aborted, and the
             decision to ask for a bootstrap (`anjay_activate.c`).

  * `Bracketed`: the phase is the time between a begin and the end of its transaction level.
  * `bootstrapFinishImpl_cases`: the three ways out of a finish.
-/
import Anjay.Commons.Time
import Anjay.Dm.Notify
import Anjay.Dm.Query
import Anjay.Dm.Transaction

namespace Anjay.Bootstrap

open Dm Dm.Transaction

/-! ## 1. Data -/

/-- `anjay_conn_session_token_t`: a time that the monotonic clock has shown. -/
abbrev SessionToken := { t : Duration // t.valid = true }

/-- `_anjay_conn_session_tokens_equal`. -/
def sessionTokensEqual (left right : SessionToken) : Bool := left.1.equal right.1

/-- What is looked at of an `anjay_server_info_t`; the token and the CoAP context are those of its primary
    connection. -/
structure ServerInfo where
  ssid : Id
  active : Bool
  refreshFailed : Bool
  online : Bool
  sessionToken : SessionToken
  coapCtx : Nat
  deriving DecidableEq, Repr

def ServerInfo.isBootstrap (s : ServerInfo) : Bool := s.ssid == ssidBootstrap

/-- `anjay_bootstrap_t`. The handles tell whether the job is scheduled; a request that has been sent stands with the
    CoAP context that it was sent on. -/
structure BootstrapState where
  allowLegacyServerInitiatedBootstrap : Bool
  bootstrapTrigger : Bool
  outgoingRequestExchange : Option Nat
  inProgress : Bool
  bootstrapSessionToken : SessionToken
  notificationQueue : NotifyQueue
  purgeBootstrapHandle : Bool
  clientInitiatedBootstrapHandle : Bool
  finishTimeoutHandle : Bool
  clientInitiatedBootstrapLastAttempt : Duration
  clientInitiatedBootstrapHoldoff : Duration

/-- Where the bootstrap session token comes from: a reset, or a server. -/
inductive TokenSource
  | unset
  | server (s : ServerInfo)
  deriving DecidableEq, Repr

/-- A transaction level that the bootstrap module opens or closes. -/
inductive Bracket
  | opened
  | closed
  deriving DecidableEq, Repr

/-- An exchange that was cancelled: the context it was sent on, and the server on whose context it was cancelled. -/
structure Cancelled where
  sentOn : Nat
  server : ServerInfo
  deriving DecidableEq, Repr

/-- The client. The last five fields only record: where the token comes from, the levels opened and closed, the
    exchanges cancelled, the Bootstrap Server as it was when its requests and answers were handled, and whether its
    token is still the one that it had when the phase was entered. -/
structure Client where
  bootstrap : BootstrapState
  transaction : Dm.Transaction.State
  servers : List ServerInfo
  reloadServersJob : Bool
  tokenSource : TokenSource
  brackets : List Bracket
  cancelled : List Cancelled
  processed : List ServerInfo
  unchanged : Bool

/-- What the functions find around them: the time, the results of the handlers that end a transaction and of
    `_anjay_notify_perform_without_servers`, the Bootstrap Timeout of the account of the Bootstrap Server, if there
    is one, and which jobs can be scheduled. -/
structure Env where
  now : SessionToken
  handlers : EndHandlers
  notifyPerform : Int
  bootstrapTimeout : Option Int
  schedulePurge : Bool
  scheduleDisable : Bool
  scheduleReload : Bool
  scheduleFinishTimeout : Bool

/-- Changes of the data model, as far as the transaction sees them. -/
abbrev Work := { acts : List Action // Balanced acts }

def errNotAcceptable : Int := -134

/-- `INT_MIN`, with which `_anjay_dm_transaction_rollback` finishes. -/
def rollbackResult : Int := -2147483648

namespace Client

/-- The entry of the Bootstrap Server. -/
def bootstrapServer (c : Client) : Option ServerInfo := c.servers.find? ServerInfo.isBootstrap

/-- `_anjay_servers_find_active(anjay, ANJAY_SSID_BOOTSTRAP)`. -/
def activeBootstrapServer (c : Client) : Option ServerInfo := c.bootstrapServer.filter ServerInfo.active

/-! ## 2. Into the phase and out of it -/

/-- `_anjay_conn_session_token_reset` of the bootstrap session token. -/
def resetToken (now : SessionToken) (c : Client) : Client :=
  { c with bootstrap := { c.bootstrap with bootstrapSessionToken := now }, tokenSource := .unset }

/-- The bootstrap session token becomes that of a server. -/
def takeToken (server : ServerInfo) (c : Client) : Client :=
  { c with bootstrap := { c.bootstrap with bootstrapSessionToken := server.sessionToken }, tokenSource := .server server }

/-- `bootstrap_request_response_handler` on `AVS_COAP_CLIENT_REQUEST_CANCEL`. -/
def requestCancelled (c : Client) : Client :=
  { c with bootstrap := { c.bootstrap with outgoingRequestExchange := none } }

/-- `avs_coap_exchange_cancel` on the context of a server, which calls the handler of an exchange that it finds. -/
def exchangeCancel (server : ServerInfo) (sentOn : Nat) (c : Client) : Client :=
  let c := { c with cancelled := c.cancelled ++ [⟨sentOn, server⟩] }
  if sentOn = server.coapCtx then c.requestCancelled else c

/-- The part of `start_bootstrap_if_not_already_started` that looks at the connection. -/
def takeConnection (bootstrapConnection : Option ServerInfo) (c : Client) : Client :=
  match bootstrapConnection with
  | none => c
  | some server =>
      match c.bootstrap.outgoingRequestExchange with
      | none => c.takeToken server
      | some sentOn => (c.takeToken server).exchangeCancel server sentOn

/-- `_anjay_dm_transaction_begin`, called by this module. -/
def openLevel (c : Client) : Client :=
  { c with transaction := transactionBegin c.transaction, brackets := c.brackets ++ [.opened] }

/-- One of the functions that end a transaction, called by this module. -/
def closeLevel (finish : State → Int × State) (c : Client) : Int × Client :=
  ((finish c.transaction).1,
    { c with transaction := (finish c.transaction).2, brackets := c.brackets ++ [.closed] })

/-- The part of `start_bootstrap_if_not_already_started` that is skipped in the phase, with
    `_anjay_servers_cleanup_inactive`. -/
def enterPhase (c : Client) : Client :=
  openLevel
    { c with
      servers := c.servers.filter ServerInfo.active, unchanged := true
      bootstrap := { c.bootstrap with inProgress := true, purgeBootstrapHandle := false } }

/-- `start_bootstrap_if_not_already_started`. -/
def startBootstrap (bootstrapConnection : Option ServerInfo) (c : Client) : Client :=
  let c := c.takeConnection bootstrapConnection
  if c.bootstrap.inProgress then c else c.enterPhase

/-- `_anjay_schedule_reload_servers`; a job that is scheduled already stays where no other can be scheduled. -/
def scheduleReloadServers (env : Env) (c : Client) : Client :=
  { c with reloadServersJob := c.reloadServersJob || env.scheduleReload }

/-- The end of the phase: the token is reset, and the level is closed. -/
def leavePhase (env : Env) (finish : State → Int × State) (c : Client) : Int × Client :=
  closeLevel finish (resetToken env.now { c with bootstrap := { c.bootstrap with inProgress := false } })

/-- `abort_bootstrap`. -/
def abortBootstrap (env : Env) (c : Client) : Client :=
  if c.bootstrap.inProgress then
    (c.leavePhase env (transactionFinish env.handlers rollbackResult)).2.scheduleReloadServers env
  else c

/-- `cancel_client_initiated_bootstrap`. -/
def cancelClientInitiatedBootstrap (c : Client) : Client :=
  { c with bootstrap := { c.bootstrap with clientInitiatedBootstrapHandle := false } }

/-- `reset_client_initiated_bootstrap_backoff`. -/
def resetBackoff (c : Client) : Client :=
  { c with
    bootstrap := { c.bootstrap with
      clientInitiatedBootstrapLastAttempt := .invalid, clientInitiatedBootstrapHoldoff := .invalid } }

/-! ## 3. Bootstrap Finish -/

/-- `validate_bootstrap_configuration`. -/
def validateBootstrapConfiguration (env : Env) (current : Option ServerInfo) (c : Client) : Int × Client :=
  let c := c.cancelClientInitiatedBootstrap.startBootstrap current
  let validated := transactionValidate env.handlers c.transaction
  (if validated.1 ≠ 0 then errNotAcceptable else 0, { c with transaction := validated.2 })

/-- `schedule_bootstrap_timeout`. -/
def scheduleBootstrapTimeout (env : Env) (c : Client) : Int × Client :=
  match env.bootstrapTimeout with
  | none => (0, c)
  | some timeout =>
      if timeout > 0 then
        if env.schedulePurge then (0, { c with bootstrap := { c.bootstrap with purgeBootstrapHandle := true } })
        else (-1, c)
      else (0, c)

/-- `anjay_disable_server_with_timeout` of the Bootstrap Server. -/
def disableBootstrapServer (env : Env) (c : Client) : Int :=
  if c.activeBootstrapServer.isSome && env.scheduleDisable then 0 else -1

/-- The part of `bootstrap_finish_impl` between the commit and the last branch; both flags are parameters. -/
def postProcess (env : Env) (performTimeout disableServer : Bool) (c : Client) : Int × Client :=
  let performed :=
    if env.notifyPerform ≠ 0 then (env.notifyPerform, c)
    else
      let c := { c with bootstrap := { c.bootstrap with notificationQueue := .empty } }
      if performTimeout then c.scheduleBootstrapTimeout env else (0, c)
  if disableServer ∧ performed.1 = 0 ∧ performed.2.bootstrap.allowLegacyServerInitiatedBootstrap = false then
    (performed.2.disableBootstrapServer env, performed.2)
  else performed

/-- `bootstrap_finish_impl`. -/
def bootstrapFinishImpl (env : Env) (current : Option ServerInfo) (performTimeout disableServer : Bool) (c : Client) :
    Int × Client :=
  let finished := c.leavePhase env (transactionFinishWithoutValidation env.handlers 0)
  if finished.1 ≠ 0 then finished
  else
    let processed := finished.2.postProcess env performTimeout disableServer
    (processed.1,
      if processed.1 ≠ 0 then processed.2.startBootstrap current else processed.2.scheduleReloadServers env)

/-- The validation, and the finish of what is valid, with `BOOTSTRAP_FINISH_DISABLE_SERVER`. -/
def validateAndFinish (env : Env) (current : Option ServerInfo) (performTimeout : Bool) (c : Client) : Int × Client :=
  let validated := c.validateBootstrapConfiguration env current
  if validated.1 ≠ 0 then validated else validated.2.bootstrapFinishImpl env current performTimeout true

/-- `bootstrap_finish`. -/
def bootstrapFinish (env : Env) (current : Option ServerInfo) (c : Client) : Int × Client :=
  c.validateAndFinish env current true

/-- `_anjay_bootstrap_notify_regular_connection_available`. -/
def notifyRegularConnectionAvailable (env : Env) (current : Option ServerInfo) (c : Client) : Int × Client :=
  if c.bootstrap.outgoingRequestExchange.isSome then (0, c)
  else
    let done :=
      if c.bootstrap.inProgress then c.validateAndFinish env current false else (0, c.cancelClientInitiatedBootstrap)
    (done.1, if done.1 = 0 then done.2.resetBackoff else done.2)

/-- `_anjay_bootstrap_cleanup`. -/
def bootstrapCleanup (env : Env) (c : Client) : Client :=
  let c := c.cancelClientInitiatedBootstrap.resetBackoff.abortBootstrap env
  { c with
    bootstrap := { c.bootstrap with
      purgeBootstrapHandle := false, finishTimeoutHandle := false, notificationQueue := .empty } }

/-! ## 4. Asking for a bootstrap -/

/-- The loop of `should_retry_bootstrap` over the servers. -/
def shouldRetryLoop (b : BootstrapState) : List ServerInfo → Bool → Bool → Bool
  | [], bootstrapServerExists, possiblyActiveServerExists => bootstrapServerExists && !possiblyActiveServerExists
  | s :: ss, bootstrapServerExists, possiblyActiveServerExists =>
      if s.isBootstrap then
        if b.inProgress then !sessionTokensEqual b.bootstrapSessionToken s.sessionToken
        else shouldRetryLoop b ss true possiblyActiveServerExists
      else shouldRetryLoop b ss bootstrapServerExists (possiblyActiveServerExists || !s.refreshFailed || s.active)

/-- `should_retry_bootstrap`. -/
def shouldRetryBootstrap (c : Client) : Bool :=
  if c.bootstrap.bootstrapTrigger then true else shouldRetryLoop c.bootstrap c.servers false false

/-- `_anjay_requested_bootstrap_action`: whether it is `ANJAY_BOOTSTRAP_ACTION_REQUEST`. -/
def requestedBootstrapAction (c : Client) : Bool :=
  !c.bootstrap.outgoingRequestExchange.isSome && c.shouldRetryBootstrap

end Client

/-! ## 5. The level of the phase -/

/-- Whether a level is open after these brackets; `none` where two begins or two ends follow each other. -/
def openAfter : Bool → List Bracket → Option Bool
  | isOpen, [] => some isOpen
  | false, .opened :: bs => openAfter true bs
  | true, .closed :: bs => openAfter false bs
  | true, .opened :: _ => none
  | false, .closed :: _ => none

theorem openAfter_append : ∀ (isOpen : Bool) (bs bs' : List Bracket),
    openAfter isOpen (bs ++ bs') = (openAfter isOpen bs).bind fun isOpen => openAfter isOpen bs'
  | _, [], _ => rfl
  | false, .opened :: bs, bs' => openAfter_append true bs bs'
  | true, .closed :: bs, bs' => openAfter_append false bs bs'
  | true, .opened :: _, _ => rfl
  | false, .closed :: _, _ => rfl

/-- The bootstrap module has one level open in the phase and none outside of it, and opens and closes its levels in
    turn. The job that purges the account is not scheduled in the phase. -/
structure Bracketed (c : Client) : Prop where
  depth : c.transaction.depth = if c.bootstrap.inProgress = true then 1 else 0
  brackets : openAfter false c.brackets = some c.bootstrap.inProgress
  purge : c.bootstrap.inProgress = true → c.bootstrap.purgeBootstrapHandle = false

/-- Nothing of what `Bracketed` looks at changes, except that the purge may be scheduled outside of the phase. -/
structure SamePhase (c c' : Client) : Prop where
  depth : c'.transaction.depth = c.transaction.depth
  brackets : c'.brackets = c.brackets
  inProgress : c'.bootstrap.inProgress = c.bootstrap.inProgress
  purge : c'.bootstrap.inProgress = true → c'.bootstrap.purgeBootstrapHandle = c.bootstrap.purgeBootstrapHandle

theorem SamePhase.refl (c : Client) : SamePhase c c := ⟨rfl, rfl, rfl, fun _ => rfl⟩

theorem SamePhase.trans {c c1 c2 : Client} (h1 : SamePhase c c1) (h2 : SamePhase c1 c2) : SamePhase c c2 where
  depth := h2.depth.trans h1.depth
  brackets := h2.brackets.trans h1.brackets
  inProgress := h2.inProgress.trans h1.inProgress
  purge := fun h => (h2.purge h).trans (h1.purge (h2.inProgress ▸ h))

theorem Bracketed.same {c c' : Client} (h : Bracketed c) (hsame : SamePhase c c') : Bracketed c' where
  depth := by rw [hsame.depth, hsame.inProgress]; exact h.depth
  brackets := by rw [hsame.brackets, hsame.inProgress]; exact h.brackets
  purge := fun hp => (hsame.purge hp).trans (h.purge (hsame.inProgress ▸ hp))

namespace Client

theorem exchangeCancel_same (server : ServerInfo) (sentOn : Nat) (c : Client) :
    SamePhase c (c.exchangeCancel server sentOn) := by
  unfold exchangeCancel
  dsimp only
  split <;> exact ⟨rfl, rfl, rfl, fun _ => rfl⟩

theorem takeConnection_same (connection : Option ServerInfo) (c : Client) :
    SamePhase c (c.takeConnection connection) := by
  cases connection with
  | none => exact .refl c
  | some server =>
      have htaken : SamePhase c (c.takeToken server) := ⟨rfl, rfl, rfl, fun _ => rfl⟩
      unfold takeConnection
      cases c.bootstrap.outgoingRequestExchange with
      | none => exact htaken
      | some sentOn => exact htaken.trans (exchangeCancel_same server sentOn _)

theorem takeConnection_transaction (connection : Option ServerInfo) (c : Client) :
    (c.takeConnection connection).transaction = c.transaction := by
  unfold takeConnection
  split
  · rfl
  · split
    · rfl
    · unfold exchangeCancel
      dsimp only
      split <;> rfl

theorem takeConnection_reload (connection : Option ServerInfo) (c : Client) :
    (c.takeConnection connection).reloadServersJob = c.reloadServersJob := by
  unfold takeConnection
  split
  · rfl
  · split
    · rfl
    · unfold exchangeCancel
      dsimp only
      split <;> rfl

theorem enterPhase_bracketed {c : Client} (h : Bracketed c) (hout : c.bootstrap.inProgress = false) :
    Bracketed c.enterPhase where
  depth := by
    have hdepth : c.transaction.depth = 0 := by rw [h.depth, hout]; rfl
    show c.transaction.depth + 1 = 1
    rw [hdepth]
  brackets := by
    show openAfter false (c.brackets ++ [.opened]) = some true
    rw [openAfter_append, h.brackets, hout]
    rfl
  purge := fun _ => rfl

/-- **The phase is entered, or goes on.** -/
theorem startBootstrap_bracketed (connection : Option ServerInfo) {c : Client} (h : Bracketed c) :
    Bracketed (c.startBootstrap connection) ∧ (c.startBootstrap connection).bootstrap.inProgress = true := by
  have htaken := h.same (takeConnection_same connection c)
  unfold startBootstrap
  dsimp only
  by_cases hin : (c.takeConnection connection).bootstrap.inProgress = true
  · rw [if_pos hin]
    exact ⟨htaken, hin⟩
  · rw [if_neg hin]
    exact ⟨enterPhase_bracketed htaken (Bool.eq_false_iff.mpr hin), rfl⟩

/-- In the phase, only the token and the exchange change. -/
theorem startBootstrap_of_inProgress (connection : Option ServerInfo) {c : Client}
    (hin : c.bootstrap.inProgress = true) : c.startBootstrap connection = c.takeConnection connection :=
  if_pos ((takeConnection_same connection c).inProgress.trans hin)

theorem leavePhase_bracketed (env : Env) {finish : State → Int × State}
    (hfinish : ∀ st : State, (finish st).2.depth = st.depth - 1) {c : Client} (h : Bracketed c)
    (hin : c.bootstrap.inProgress = true) : Bracketed (c.leavePhase env finish).2 where
  depth := by
    have hdepth : c.transaction.depth = 1 := by rw [h.depth, hin]; rfl
    show (finish c.transaction).2.depth = 0
    rw [hfinish, hdepth]
  brackets := by
    show openAfter false (c.brackets ++ [.closed]) = some false
    rw [openAfter_append, h.brackets, hin]
    rfl
  purge := nofun

theorem abortBootstrap_bracketed (env : Env) {c : Client} (h : Bracketed c) :
    Bracketed (c.abortBootstrap env) ∧ (c.abortBootstrap env).bootstrap.inProgress = false := by
  unfold abortBootstrap
  by_cases hin : c.bootstrap.inProgress = true
  · rw [if_pos hin]
    have hleft := leavePhase_bracketed env (transactionFinish_depth env.handlers rollbackResult) h hin
    exact ⟨hleft.same ⟨rfl, rfl, rfl, fun _ => rfl⟩, rfl⟩
  · rw [if_neg hin]
    exact ⟨h, Bool.eq_false_iff.mpr hin⟩

theorem abortBootstrap_reload {env : Env} {c : Client} (hin : c.bootstrap.inProgress = true) :
    (c.abortBootstrap env).reloadServersJob = (c.reloadServersJob || env.scheduleReload) := by
  unfold abortBootstrap
  rw [if_pos hin]
  rfl

theorem bootstrapCleanup_bracketed (env : Env) {c : Client} (h : Bracketed c) :
    Bracketed (c.bootstrapCleanup env) ∧ (c.bootstrapCleanup env).bootstrap.inProgress = false := by
  have hsame : SamePhase c c.cancelClientInitiatedBootstrap.resetBackoff := ⟨rfl, rfl, rfl, fun _ => rfl⟩
  obtain ⟨haborted, hout⟩ := abortBootstrap_bracketed env (h.same hsame)
  refine ⟨haborted.same ⟨rfl, rfl, rfl, fun hp => ?_⟩, hout⟩
  exact absurd (hout.symm.trans hp) Bool.false_ne_true

theorem bootstrapCleanup_reload {env : Env} {c : Client} (hin : c.bootstrap.inProgress = true) :
    (c.bootstrapCleanup env).reloadServersJob = (c.reloadServersJob || env.scheduleReload) :=
  abortBootstrap_reload (c := c.cancelClientInitiatedBootstrap.resetBackoff) hin

/-! ## 6. The finish -/

/-- Every object in the transaction is valid. -/
def Valid (env : Env) (c : Client) : Prop := ∀ e ∈ c.transaction.objsInTransaction, env.handlers.validate e.obj = 0

/-- Every object in the transaction can be committed. -/
def Commits (env : Env) (c : Client) : Prop := ∀ e ∈ c.transaction.objsInTransaction, env.handlers.commit e.obj = 0

instance (env : Env) (c : Client) : Decidable (c.Valid env) := inferInstanceAs (Decidable (∀ _ ∈ _, _))
instance (env : Env) (c : Client) : Decidable (c.Commits env) := inferInstanceAs (Decidable (∀ _ ∈ _, _))

theorem validate_fst_eq_zero_iff {env : Env} {current : Option ServerInfo} {c : Client} :
    (c.validateBootstrapConfiguration env current).1 = 0 ↔
      (c.cancelClientInitiatedBootstrap.startBootstrap current).Valid env := by
  rw [Valid, ← transactionValidate_eq_zero_iff]
  unfold validateBootstrapConfiguration
  dsimp only
  split
  · next h => exact iff_of_false (by decide) h
  · next h => exact iff_of_true rfl (not_not.mp h)

theorem validate_same (env : Env) (current : Option ServerInfo) (c : Client) :
    SamePhase (c.cancelClientInitiatedBootstrap.startBootstrap current)
      (c.validateBootstrapConfiguration env current).2 :=
  ⟨transactionValidate_depth _ _, rfl, rfl, fun _ => rfl⟩

/-- In the phase, the validation leaves what is in the transaction and the reload as they are. -/
theorem validate_of_inProgress (env : Env) (current : Option ServerInfo) {c : Client}
    (hin : c.bootstrap.inProgress = true) :
    (c.validateBootstrapConfiguration env current).2.transaction.objsInTransaction =
        c.transaction.objsInTransaction ∧
      (c.validateBootstrapConfiguration env current).2.reloadServersJob = c.reloadServersJob ∧
      ((c.validateBootstrapConfiguration env current).1 = 0 ↔ c.Valid env) := by
  have hstarted : c.cancelClientInitiatedBootstrap.startBootstrap current =
      c.cancelClientInitiatedBootstrap.takeConnection current :=
    startBootstrap_of_inProgress current (c := c.cancelClientInitiatedBootstrap) hin
  have htransaction : (c.cancelClientInitiatedBootstrap.startBootstrap current).transaction = c.transaction := by
    rw [hstarted]
    exact takeConnection_transaction current _
  refine ⟨?_, ?_, ?_⟩
  · show (transactionValidate env.handlers _).2.objsInTransaction = _
    rw [transactionValidate_objs, htransaction]
  · show (c.cancelClientInitiatedBootstrap.startBootstrap current).reloadServersJob = _
    rw [hstarted]
    exact takeConnection_reload current _
  · rw [validate_fst_eq_zero_iff, Valid, Valid, htransaction]

theorem validate_bracketed (env : Env) (current : Option ServerInfo) {c : Client} (h : Bracketed c) :
    Bracketed (c.validateBootstrapConfiguration env current).2 ∧
      (c.validateBootstrapConfiguration env current).2.bootstrap.inProgress = true := by
  have hcancelled : SamePhase c c.cancelClientInitiatedBootstrap := ⟨rfl, rfl, rfl, fun _ => rfl⟩
  obtain ⟨hstarted, hin⟩ := startBootstrap_bracketed current (h.same hcancelled)
  exact ⟨hstarted.same (validate_same env current c), hin⟩

/-- What is done after the commit succeeds. -/
def PostProcesses (env : Env) (performTimeout disableServer : Bool) (c : Client) : Prop :=
  (c.postProcess env performTimeout disableServer).1 = 0

theorem postProcess_same (env : Env) (performTimeout disableServer : Bool) {c : Client}
    (hout : c.bootstrap.inProgress = false) : SamePhase c (c.postProcess env performTimeout disableServer).2 := by
  have hany : ∀ {c' : Client}, c'.transaction.depth = c.transaction.depth → c'.brackets = c.brackets →
      c'.bootstrap.inProgress = c.bootstrap.inProgress → SamePhase c c' := fun hd hb hp =>
    ⟨hd, hb, hp, fun h => absurd (hp.symm.trans h) (by rw [hout]; exact Bool.false_ne_true)⟩
  have htimeout : ∀ c' : Client, SamePhase c c' → SamePhase c (c'.scheduleBootstrapTimeout env).2 := by
    intro c' h
    unfold scheduleBootstrapTimeout
    split
    · exact h
    · split
      · split
        · exact hany h.depth h.brackets h.inProgress
        · exact h
      · exact h
  unfold postProcess
  dsimp only
  have hperformed : ∀ r : Int × Client, SamePhase c r.2 → ∀ {p : Prop} [Decidable p],
      SamePhase c (if p then (r.2.disableBootstrapServer env, r.2) else r).2 := by
    intro r h p _
    split <;> exact h
  refine hperformed _ ?_
  split
  · exact .refl c
  · split
    · exact htimeout _ (hany rfl rfl rfl)
    · exact hany rfl rfl rfl

/-- **The three ways out of a finish**: the commit fails, and the phase is left without more; what follows it fails,
    and the phase is entered again; or the phase is left and a reload asked for. -/
theorem bootstrapFinishImpl_cases (env : Env) (current : Option ServerInfo) (performTimeout disableServer : Bool)
    {c : Client} (h : Bracketed c) (hin : c.bootstrap.inProgress = true) :
    let left := (c.leavePhase env (transactionFinishWithoutValidation env.handlers 0)).2
    let processed := (left.postProcess env performTimeout disableServer).2
    let finished := (c.bootstrapFinishImpl env current performTimeout disableServer).2
    ¬c.Commits env ∧ finished = left ∨
      c.Commits env ∧ ¬left.PostProcesses env performTimeout disableServer ∧
        finished = processed.startBootstrap current ∨
      c.Commits env ∧ left.PostProcesses env performTimeout disableServer ∧
        finished = processed.scheduleReloadServers env := by
  intro left processed finished
  have hdepth : c.transaction.depth = 1 := by rw [h.depth, hin]; rfl
  have hcommits : (c.leavePhase env (transactionFinishWithoutValidation env.handlers 0)).1 = 0 ↔ c.Commits env :=
    transactionFinishWithoutValidation_eq_zero_iff hdepth env.handlers
  have hfinished : finished = (c.bootstrapFinishImpl env current performTimeout disableServer).2 := rfl
  unfold bootstrapFinishImpl at hfinished
  dsimp only at hfinished
  by_cases hc : c.Commits env
  · rw [if_neg (not_not.mpr (hcommits.mpr hc))] at hfinished
    by_cases hp : left.PostProcesses env performTimeout disableServer
    · exact .inr (.inr ⟨hc, hp, hfinished.trans (if_neg (not_not.mpr hp))⟩)
    · exact .inr (.inl ⟨hc, hp, hfinished.trans (if_pos hp)⟩)
  · rw [if_pos fun h => hc (hcommits.mp h)] at hfinished
    exact .inl ⟨hc, hfinished⟩

theorem bootstrapFinishImpl_bracketed (env : Env) (current : Option ServerInfo) (performTimeout disableServer : Bool)
    {c : Client} (h : Bracketed c) (hin : c.bootstrap.inProgress = true) :
    Bracketed (c.bootstrapFinishImpl env current performTimeout disableServer).2 := by
  have hleft := leavePhase_bracketed env (transactionFinishWithoutValidation_depth env.handlers 0) h hin
  have hprocessed := hleft.same (postProcess_same env performTimeout disableServer rfl)
  rcases bootstrapFinishImpl_cases env current performTimeout disableServer h hin with
    ⟨-, heq⟩ | ⟨-, -, heq⟩ | ⟨-, -, heq⟩
  · rw [heq]
    exact hleft
  · rw [heq]
    exact (startBootstrap_bracketed current hprocessed).1
  · rw [heq]
    exact hprocessed.same ⟨rfl, rfl, rfl, fun _ => rfl⟩

theorem validateAndFinish_bracketed (env : Env) (current : Option ServerInfo) (performTimeout : Bool) {c : Client}
    (h : Bracketed c) : Bracketed (c.validateAndFinish env current performTimeout).2 := by
  obtain ⟨hvalidated, hin⟩ := validate_bracketed env current h
  unfold validateAndFinish
  dsimp only
  split
  · exact hvalidated
  · exact bootstrapFinishImpl_bracketed env current performTimeout true hvalidated hin

theorem notifyRegularConnectionAvailable_bracketed (env : Env) (current : Option ServerInfo) {c : Client}
    (h : Bracketed c) : Bracketed (c.notifyRegularConnectionAvailable env current).2 := by
  have hreset : ∀ {r : Int × Client}, Bracketed r.2 → Bracketed (if r.1 = 0 then r.2.resetBackoff else r.2) := by
    intro r h
    split
    · exact h.same ⟨rfl, rfl, rfl, fun _ => rfl⟩
    · exact h
  unfold notifyRegularConnectionAvailable
  split
  · exact h
  · refine hreset ?_
    split
    · exact validateAndFinish_bracketed env current false h
    · exact h.same ⟨rfl, rfl, rfl, fun _ => rfl⟩

end Client

end Anjay.Bootstrap
