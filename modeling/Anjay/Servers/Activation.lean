/-
  File:      Anjay/Servers/Activation.lean
  Subject:   A server with the job that its `next_action_handle` holds (`anjay_activate.c`, `anjay_reload.c`, and
             the scheduling in `anjay_register.c`): refreshes, what follows a registration, deactivation.

  * `onUpdatedRegistration_same`: what follows a registration leaves the registration as it is.
  * `refresh_unusable`, `refresh_usable`: how a refresh ends, in terms of the transport of the URI.
-/
import Anjay.Registration.Results
import Anjay.Servers.Connection

namespace Anjay.Servers

open Download

/-! ## 1. Data -/

/-- The jobs that a server's `next_action_handle` can hold. -/
inductive Job
  | sendUpdate (delay : Duration)
  | refreshServer (delay : Duration)
  | serverCommunicationError
  | disableServer
  | disableServerWithTimeout (timeout : Duration)
  deriving DecidableEq, Repr

/-- `anjay_server_info_t` of a regular server. -/
structure Server where
  info : Reg.ServerInfo
  connection : Connection
  nextAction : Option Job
  refreshFailed : Bool
  reactivateTime : Duration

/-- What the functions find around them: the URI that `select_security_instance` looks at, the time until the next
    Update is due, the Disable Timeout of the Server Object, `_anjay_bootstrap_legacy_server_initiated_allowed`, and
    whether jobs can be scheduled: the first one, that of `_anjay_server_on_server_communication_error`, and the next
    reload. -/
structure ServerEnv where
  connection : Env
  registration : Reg.Env
  config : Option AvsUrl
  untilUpdate : Duration
  disableTimeout : Option Duration
  legacyServerInitiatedAllowed : Bool
  schedule : Bool
  scheduleError : Bool
  scheduleReload : Bool

/-- The registration as it is seen over this connection. -/
def ServerEnv.registrationEnv (env : ServerEnv) (c : Connection) : Reg.Env :=
  { env.registration with online := c.isOnline, sessionToken := c.sessionToken }

def ServerEnv.connectionEnv (env : ServerEnv) (onlineTransports : Transport → Bool) : Env :=
  { env.connection with transportOnline := onlineTransports }

/-- The least delay of an Update that is scheduled for later: `ANJAY_MIN_UPDATE_INTERVAL_S`. -/
def nextUpdateDelay (untilUpdate : Duration) : Duration :=
  if untilUpdate.seconds < 1 then .fromSeconds 1 else untilUpdate

/-- The part of `rank_uri` that can refuse a URI of `select_security_instance`: "U" is always allowed. -/
def rankUri (uri : AvsUrl) : Bool :=
  match uri.protocol.bind Sec.schemeInfoByUri with
  | none => false
  | some info => Connection.socketTransportSupported info.transport

namespace Server

/-- `_anjay_servers_create_inactive`. -/
def created : Server := ⟨.created, .unused, none, false, .invalid⟩

/-- `_anjay_server_active`. -/
def active (s : Server) : Bool := s.connection.socket.isSome

/-! ## 2. Registration -/

/-- `_anjay_server_on_server_communication_error`. -/
def onCommunicationError (env : ServerEnv) (s : Server) : Server :=
  if env.scheduleError then { s with nextAction := some .serverCommunicationError }
  else { s with nextAction := none, refreshFailed := true }

/-- `anjay_disable_server_with_timeout` of a server that is active. -/
def disableWithTimeout (env : ServerEnv) (timeout : Duration) (s : Server) : Server :=
  { s with nextAction := if env.schedule then some (.disableServerWithTimeout timeout) else none }

/-- `_anjay_server_on_server_communication_timeout`. -/
def onCommunicationTimeout (env : ServerEnv) (s : Server) : Server :=
  if s.connection.state = .stable ∧ s.connection.stateful = true then
    if s.active && env.schedule then { s.disableWithTimeout env .zero with refreshFailed := true }
    else s.onCommunicationError env
  else s.onCommunicationError env

/-- `_anjay_server_on_updated_registration`. What it tells the bootstrap module and the notifications is left to
    them. -/
def onUpdatedRegistration (env : ServerEnv) (result : Reg.RegistrationResult) (s : Server) : Server :=
  match result with
  | .success =>
      if env.schedule then
        { s with
          nextAction := some (.sendUpdate (nextUpdateDelay env.untilUpdate))
          reactivateTime := .invalid, refreshFailed := false }
      else s.onCommunicationError env
  | .errorTimeout => s.onCommunicationTimeout env
  | _ => s.onCommunicationError env

/-- The result of an exchange or of a check is passed on, if there is one. -/
def report (env : ServerEnv) (result : Option Reg.RegistrationResult) (s : Server) : Server :=
  match result with
  | none => s
  | some result => s.onUpdatedRegistration env result

/-- `_anjay_server_ensure_valid_registration`. -/
def ensureValidRegistration (env : ServerEnv) (s : Server) : Server :=
  let renv := env.registrationEnv s.connection
  report env (Reg.ensureValidResult renv s.info.registrationInfo)
    { s with info := s.info.ensureValidRegistration renv }

/-- An exchange ends. -/
def receiveResponse (env : ServerEnv) (handler : Reg.ResponseHandler) (requestState : Reg.RequestState) (s : Server) :
    Server :=
  let renv := env.registrationEnv s.connection
  report env (Reg.responseResult handler renv requestState)
    { s with info := s.info.receiveResponse handler renv requestState }

/-! ## 3. Refresh -/

/-- `_anjay_server_on_refreshed`. -/
def onRefreshed (env : ServerEnv) (state : ConnectionState) (err : AvsError) (s : Server) : Server :=
  if state = .offline then
    if !err.isOk then s.onCommunicationError env
    else { s with reactivateTime := if s.reactivateTime.valid then s.reactivateTime else env.registration.now }
  else s.ensureValidRegistration env

/-- The connection is another one; a registration over another transport is void. -/
def withConnection (c : Connection) (s : Server) : Server :=
  { s with
    info := if s.connection.transport = c.transport then s.info else s.info.invalidateRegistration
    connection := c }

/-- The exchange is cancelled, where its CoAP context is dropped or the connection is suspended. -/
def dropExchange (dropped : Bool) (s : Server) : Server :=
  if dropped then { s with info := s.info.cancelExchange } else s

/-- `_anjay_active_server_refresh`. -/
def activeServerRefresh (env : ServerEnv) (onlineTransports : Transport → Bool) (s : Server) : Server :=
  match env.config.filter rankUri with
  | none => s.onRefreshed env .offline (.errno .EPROTO)
  | some uri =>
      let refreshed := s.connection.serverConnectionsRefresh (env.connectionEnv onlineTransports) (some uri)
      let dropped := s.connection.dropsExchange (env.connectionEnv onlineTransports) (some uri)
      ((s.dropExchange dropped).withConnection refreshed.2).onRefreshed env refreshed.2.state refreshed.1

/-- `_anjay_connection_bring_online`. There is a socket, and it is not online. -/
def bringOnline (env : ServerEnv) (onlineTransports : Transport → Bool) (s : Server) : Server :=
  if !onlineTransports s.connection.transport then s
  else
    let brought := s.connection.internalBringOnline (env.connectionEnv onlineTransports)
    onRefreshed env brought.2.state brought.1 { s.dropExchange (!brought.2.coapCtx) with connection := brought.2 }

/-- `_anjay_server_on_fatal_coap_error`. -/
def onFatalCoapError (env : ServerEnv) (onlineTransports : Transport → Bool) (s : Server) : Server :=
  let s := { s with connection := s.connection.internalCleanSocket }
  (s.dropExchange true).activeServerRefresh env onlineTransports

/-! ## 4. Deactivation -/

/-- `_anjay_server_clean_active_data`. -/
def cleanActiveData (s : Server) : Server :=
  { s with nextAction := none, info := s.info.exchangeStateCleanup, connection := s.connection.cleanup }

/-- `_anjay_server_on_failure`, without the request for a bootstrap. -/
def onFailure (s : Server) : Server := { s.cleanActiveData with refreshFailed := true, reactivateTime := .invalid }

/-- `_anjay_server_sched_activate`: whether it succeeds, and the server. -/
def schedActivate (env : ServerEnv) (reactivateDelay : Duration) (s : Server) : Bool × Server :=
  let s := { s with reactivateTime := env.registration.now.add reactivateDelay, refreshFailed := false }
  if env.schedule then (true, { s with nextAction := some (.refreshServer reactivateDelay) }) else (false, s)

/-- `_anjay_server_deactivate`, without the De-register; the server is dropped where it cannot be scheduled. -/
def deactivate (env : ServerEnv) (reactivateDelay : Duration) (s : Server) : Option Server :=
  let s := { s.cleanActiveData with info := s.cleanActiveData.info.invalidateRegistration }
  if reactivateDelay.valid then
    let activated := s.schedActivate env reactivateDelay
    if activated.1 then some activated.2 else none
  else some s

/-- `update_forced` is set. -/
def force (s : Server) : Server :=
  { s with info := { s.info with registrationInfo := { s.info.registrationInfo with updateForced := true } } }

/-- The scheduler runs the job: `send_update_sched_job`, `refresh_server_job`, `server_communication_error_job`,
    `disable_server_job` or `disable_server_with_timeout_job`. -/
def runJob (env : ServerEnv) (onlineTransports : Transport → Bool) (inProgress : Bool) (job : Job) (s : Server) :
    Option Server :=
  match job with
  | .sendUpdate _ => if s.active then some (s.force.activeServerRefresh env onlineTransports) else some s
  | .refreshServer _ => if inProgress then some s else some (s.activeServerRefresh env onlineTransports)
  | .serverCommunicationError => some s.onFailure
  | .disableServer =>
      match env.disableTimeout with
      | none => some s
      | some timeout => s.deactivate env timeout
  | .disableServerWithTimeout timeout => s.deactivate env timeout

/-- What a result leads to leaves the registration and the connection as they are. -/
def SameRegistration (s s' : Server) : Prop := s'.info = s.info ∧ s'.connection = s.connection

theorem onCommunicationError_same (env : ServerEnv) (s : Server) : s.SameRegistration (s.onCommunicationError env) := by
  unfold onCommunicationError
  split <;> exact ⟨rfl, rfl⟩

theorem onCommunicationTimeout_same (env : ServerEnv) (s : Server) :
    s.SameRegistration (s.onCommunicationTimeout env) := by
  unfold onCommunicationTimeout
  split
  · split
    · exact ⟨rfl, rfl⟩
    · exact s.onCommunicationError_same env
  · exact s.onCommunicationError_same env

theorem onUpdatedRegistration_same (env : ServerEnv) (result : Reg.RegistrationResult) (s : Server) :
    s.SameRegistration (s.onUpdatedRegistration env result) := by
  cases result with
  | success =>
      unfold onUpdatedRegistration
      dsimp only
      split
      · exact ⟨rfl, rfl⟩
      · exact s.onCommunicationError_same env
  | errorTimeout => exact s.onCommunicationTimeout_same env
  | errorNetwork => exact s.onCommunicationError_same env
  | errorRejected => exact s.onCommunicationError_same env
  | errorFallbackRequested => exact s.onCommunicationError_same env
  | errorOther => exact s.onCommunicationError_same env

theorem report_same (env : ServerEnv) (result : Option Reg.RegistrationResult) (s : Server) :
    s.SameRegistration (s.report env result) := by
  cases result with
  | none => exact ⟨rfl, rfl⟩
  | some result => exact s.onUpdatedRegistration_same env result

/-- An exchange that is cancelled leaves the registration as it is. -/
theorem dropExchange_registrationInfo (dropped : Bool) (s : Server) :
    (s.dropExchange dropped).info.registrationInfo = s.info.registrationInfo := by
  cases dropped with
  | false => rfl
  | true => rfl

theorem withConnection_dropExchange (dropped : Bool) (c : Connection) (s : Server) :
    ((s.dropExchange dropped).withConnection c).info.registrationInfo = (s.withConnection c).info.registrationInfo := by
  cases dropped with
  | false => rfl
  | true =>
      show (if s.connection.transport = c.transport then s.info.cancelExchange
        else s.info.cancelExchange.invalidateRegistration).registrationInfo =
          (if s.connection.transport = c.transport then s.info else s.info.invalidateRegistration).registrationInfo
      split
      · rfl
      · rfl

theorem onRefreshed_connection (env : ServerEnv) (state : ConnectionState) (err : AvsError) (s : Server) :
    (s.onRefreshed env state err).connection = s.connection := by
  unfold onRefreshed
  split
  · split
    · exact (s.onCommunicationError_same env).2
    · rfl
  · exact (report_same env _ _).2

end Server

/-! ## 5. How a refresh ends -/

namespace Connection

theorem internalBringOnline_ok {env : Env} {c : Connection} (h : (c.internalBringOnline env).1.isOk = true) :
    (c.internalBringOnline env).2.state ≠ .offline := by
  unfold internalBringOnline at h ⊢
  by_cases honline : c.isOnline = true
  · rw [if_pos honline]
    exact nofun
  rw [if_neg honline] at h ⊢
  by_cases hctx : (!(c.coapCtx || env.coapCtxCreate)) = true
  · rw [if_pos hctx] at h
    cases h
  rw [if_neg hctx] at h ⊢
  by_cases hconnect : (!env.connect.isOk) = true
  · rw [if_pos hconnect] at h
    rw [Bool.not_eq_true'] at hconnect
    rw [hconnect] at h
    cases h
  · rw [if_neg hconnect]
    exact nofun

theorem ensureSocketConnected_ok {env : Env} {info : ConnectionInfo} {c : Connection}
    (h : (c.ensureSocketConnected env info).1.isOk = true) : (c.ensureSocketConnected env info).2.state ≠ .offline := by
  unfold ensureSocketConnected at h ⊢
  by_cases hnone : c.socket.isNone = true
  · rw [if_pos hnone] at h ⊢
    dsimp only at h ⊢
    by_cases hfailed : (!(c.recreateSocket env info).1.isOk) = true
    · rw [if_pos hfailed] at h
      rw [Bool.not_eq_true'] at hfailed
      rw [hfailed] at h
      cases h
    · rw [if_neg hfailed] at h ⊢
      exact internalBringOnline_ok h
  · rw [if_neg hnone] at h ⊢
    exact internalBringOnline_ok h

/-- The transport of the URI cannot be used: the connection goes offline. -/
theorem refresh_unusable {env : Env} {moveUri : Option AvsUrl} (h : moveUri.bind (usableTransport env) = none)
    (c : Connection) :
    (c.serverConnectionsRefresh env moveUri).1 = .ok ∧ (c.serverConnectionsRefresh env moveUri).2.state = .offline := by
  unfold serverConnectionsRefresh
  rw [h]
  exact ⟨rfl, rfl⟩

/-- The transport of the URI can be used: the connection goes offline only with an error. -/
theorem refresh_usable {env : Env} {moveUri : Option AvsUrl} {info : Sec.SchemeInfo}
    (h : moveUri.bind (usableTransport env) = some info) {c : Connection}
    (hok : (c.serverConnectionsRefresh env moveUri).1.isOk = true) :
    (c.serverConnectionsRefresh env moveUri).2.state ≠ .offline := by
  unfold serverConnectionsRefresh at hok ⊢
  rw [h] at hok ⊢
  exact ensureSocketConnected_ok hok

end Connection

end Anjay.Servers
