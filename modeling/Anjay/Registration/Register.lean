/-
  File:      Anjay/Registration/Register.lean
  Subject:   `anjay_register.c`: when a Register or an Update message is sent to a server, what it carries, and
             what the client makes of the answer.

  * `ensureValidRegistration_cases`: what is sent, and what is remembered of it.
  * `receiveResponse_accepted`, `receiveResponse_cases`: what an answer changes.
-/
import Anjay.Commons.Time

namespace Anjay.Reg

/-! ## 1. Data -/

/-- `anjay_lwm2m_version_t`. -/
inductive Lwm2mVersion
  | v1_0
  deriving DecidableEq, Repr

/-- `anjay_update_parameters_t`; `dm` can be a null pointer. -/
structure UpdateParameters where
  lifetimeS : Int
  dm : Option CString
  bindingMode : CString
  deriving DecidableEq, Repr

/-- `anjay_registration_info_t`. -/
structure RegistrationInfo where
  sessionToken : Duration
  endpointPath : List CString
  lwm2mVersion : Lwm2mVersion
  queueMode : Bool
  expireTime : Duration
  updateForced : Bool
  lastUpdateParams : UpdateParameters
  deriving DecidableEq, Repr

/-- The function that the CoAP layer calls with the answer. -/
inductive ResponseHandler
  | receiveRegisterResponse
  | receiveUpdateResponse
  deriving DecidableEq, Repr

/-- A Register or an Update message: what it says of the parameters, and the path that an Update goes to. A
    Register also has the version, of which there is one, and the name of the client. -/
inductive Message
  | register (lifetime : Int) (bindingMode : Option CString) (dm : CString)
  | update (path : List CString) (lifetime : Option Int) (bindingMode dm : Option CString)
  deriving DecidableEq, Repr

/-- An exchange that is under way: the value of `exchange_id`, and the handler of its answer. -/
structure Exchange where
  id : Nat
  handler : ResponseHandler
  deriving DecidableEq, Repr

/-- `anjay_server_info_t`, with `exchange_id`, `attempted_version` and `new_params` of its
    `registration_exchange_state`, the number of the next exchange of the CoAP context, and what has been
    handed to it. -/
structure ServerInfo where
  registrationInfo : RegistrationInfo
  exchange : Option Exchange
  attemptedVersion : Lwm2mVersion
  newParams : UpdateParameters
  nextExchangeId : Nat
  outbox : List (Exchange × Message)
  deriving DecidableEq, Repr

/-- `anjay_registration_result_t`. -/
inductive RegistrationResult
  | success
  | errorTimeout
  | errorNetwork
  | errorRejected
  | errorFallbackRequested
  | errorOther
  deriving DecidableEq, Repr

/-- What the functions find around them: the clock, the connection, the binding mode that was read from the
    Server Object, the object list and the Lifetime Resource, and the calls that fail. -/
structure Env where
  now : Duration
  sessionToken : Duration
  online : Bool
  bindingMode : CString
  dm : Option CString
  lifetime : Option Int
  registerOptions : Option AvsError
  updateOptions : Option AvsError
  sendRegister : Option AvsError
  sendUpdate : Option AvsError

/-- A response: its code, and the Location-Path that it has, unless that cannot be stored. -/
structure Response where
  code : Nat
  locationPath : Option (List CString)
  deriving DecidableEq, Repr

/-- `avs_coap_client_request_state_t`, with what the handler gets for it. -/
inductive RequestState
  | ok (response : Response)
  | partialContent (response : Response)
  | fail (err : AvsError)
  | cancel

/-- The parameters that a function gets to move from: its own `new_params`, or those of the caller. -/
inductive MoveParams
  | newParams
  | other (params : UpdateParameters)

def emptyString : CString := .ofBytes []

/-- A server as `_anjay_servers_create_inactive` makes it. -/
def ServerInfo.created : ServerInfo where
  registrationInfo := ⟨.zero, [], .v1_0, false, .zero, false, ⟨0, none, emptyString⟩⟩
  exchange := none
  attemptedVersion := .v1_0
  newParams := ⟨0, none, emptyString⟩
  nextExchangeId := 0
  outbox := []

/-! ## 2. Parameters -/

theorem overlay_noNul (new old : CString) : 0 ∉ new.bytes ++ old.bytes.drop new.bytes.length := by
  intro h
  rcases List.mem_append.mp h with h | h
  · exact new.noNul h
  · exact old.noNul (List.mem_of_mem_drop h)

/-- `get_binding_mode_for_version`: the characters are copied, and no null byte after them. -/
def getBindingModeForVersion (serverBindingMode out : CString) : CString :=
  ⟨serverBindingMode.bytes ++ out.bytes.drop serverBindingMode.bytes.length, overlay_noNul serverBindingMode out⟩

/-- `get_server_lifetime`. -/
def getServerLifetime (lifetime : Option Int) : Option Int :=
  match lifetime with
  | none => none
  | some lifetime => if lifetime ≤ 0 then none else some lifetime

/-- `update_parameters_init`. -/
def updateParametersInit (env : Env) : Option UpdateParameters :=
  match env.dm with
  | none => none
  | some dm =>
      match getServerLifetime env.lifetime with
      | none => none
      | some lifetime => some ⟨lifetime, some dm, getBindingModeForVersion env.bindingMode emptyString⟩

/-- `move_assign_update_params`: both structures. -/
def moveAssignUpdateParams (out moveIn : UpdateParameters) : UpdateParameters × UpdateParameters :=
  match moveIn.dm with
  | some dm => (⟨moveIn.lifetimeS, some dm, moveIn.bindingMode⟩, { moveIn with dm := none })
  | none => (⟨moveIn.lifetimeS, out.dm, moveIn.bindingMode⟩, moveIn)

/-- The string, where a null pointer counts as an empty one. -/
def UpdateParameters.dmString (params : UpdateParameters) : CString := params.dm.getD emptyString

/-- `dm_caches_equal`. -/
def dmCachesEqual (left right : Option CString) : Bool := decide (left.getD emptyString = right.getD emptyString)

/-- `map_coap_error`, with `AVS_COAP_ERR_CATEGORY` and `AVS_COAP_ERR_TIMEOUT`. -/
def mapCoapError (err : AvsError) : RegistrationResult :=
  if err.category = 22627 ∧ err.code = 4104 then .errorTimeout else .errorNetwork

/-- `should_use_queue_mode`. -/
def shouldUseQueueMode (env : Env) : Bool := env.bindingMode.bytes.contains 81

/-- `_anjay_server_registration_expired`. -/
def registrationExpired (env : Env) (info : RegistrationInfo) : Bool :=
  !env.sessionToken.equal info.sessionToken || !Duration.zero.less (info.expireTime.diff env.now)

/-- `needs_registration_update`. -/
def needsRegistrationUpdate (info : RegistrationInfo) (newParams : UpdateParameters) : Bool :=
  info.updateForced || decide (info.lastUpdateParams.lifetimeS ≠ newParams.lifetimeS) ||
    decide (info.lastUpdateParams.bindingMode ≠ newParams.bindingMode) ||
    !dmCachesEqual info.lastUpdateParams.dm newParams.dm

/-! ## 3. Sending -/

/-- `"U"`. -/
def bindingModeUdp : CString := .ofBytes [85]

/-- What `setup_register_request_options` puts in, with the payload. -/
def registerMessage (params : UpdateParameters) (payload : CString) : Message :=
  .register params.lifetimeS (if params.bindingMode = bindingModeUdp then none else some params.bindingMode) payload

/-- What `setup_update_request_options` puts in, with the payload. -/
def updateMessage (path : List CString) (oldParams newParams : UpdateParameters) (payload : CString) : Message :=
  .update path (if newParams.lifetimeS ≠ oldParams.lifetimeS then some newParams.lifetimeS else none)
    (if oldParams.bindingMode = newParams.bindingMode then none else some newParams.bindingMode)
    (if dmCachesEqual oldParams.dm newParams.dm then none else some payload)

namespace ServerInfo

/-- `avs_coap_exchange_cancel`, if the exchange is valid: the handler marks it as not. -/
def cancelExchange (s : ServerInfo) : ServerInfo := { s with exchange := none }

/-- `avs_coap_client_send_async_request`, where it succeeds. -/
def sendAsyncRequest (handler : ResponseHandler) (m : Message) (s : ServerInfo) : ServerInfo :=
  { s with
    exchange := some ⟨s.nextExchangeId, handler⟩, nextExchangeId := s.nextExchangeId + 1
    outbox := s.outbox ++ [(⟨s.nextExchangeId, handler⟩, m)] }

def params (s : ServerInfo) : MoveParams → UpdateParameters
  | .newParams => s.newParams
  | .other params => params

/-- `update_parameters_cleanup`. -/
def parametersCleanup (s : ServerInfo) : MoveParams → ServerInfo
  | .newParams => { s with newParams := { s.newParams with dm := none } }
  | .other _ => s

/-- What is left of the parameters after the move is written back. -/
def putParams (s : ServerInfo) (left : UpdateParameters) : MoveParams → ServerInfo
  | .newParams => { s with newParams := left }
  | .other _ => s

/-- `_anjay_server_update_registration_info`. -/
def updateRegistrationInfo (env : Env) (movePath : Option (List CString)) (version : Lwm2mVersion) (queueMode : Bool)
    (move : MoveParams) (s : ServerInfo) : ServerInfo :=
  let moved := moveAssignUpdateParams s.registrationInfo.lastUpdateParams (s.params move)
  let info : RegistrationInfo :=
    { sessionToken := env.sessionToken
      endpointPath := movePath.getD s.registrationInfo.endpointPath
      lwm2mVersion := version
      queueMode := queueMode
      expireTime := env.now.add (.fromSeconds moved.1.lifetimeS)
      updateForced := false
      lastUpdateParams := moved.1 }
  putParams { s with registrationInfo := info } moved.2 move

/-- `send_register`. What `_anjay_server_on_updated_registration` does is to plan what comes next. -/
def sendRegister (env : Env) (version : Lwm2mVersion) (move : MoveParams) (s : ServerInfo) : ServerInfo :=
  let params := { s.params move with bindingMode := getBindingModeForVersion env.bindingMode (s.params move).bindingMode }
  let s := s.putParams params move
  match env.registerOptions with
  | some _ => s
  | none =>
      let newParams := match move with
        | .newParams => params
        | .other _ => (moveAssignUpdateParams s.newParams params).1
      let s := { s.cancelExchange with attemptedVersion := version, newParams := newParams }
      match env.sendRegister with
      | some _ => s
      | none => s.sendAsyncRequest .receiveRegisterResponse (registerMessage params newParams.dmString)

/-- `do_register`, with `register_with_version`. -/
def doRegister (env : Env) (move : MoveParams) (s : ServerInfo) : ServerInfo :=
  if env.online then s.sendRegister env .v1_0 move else s

/-- `expire_time` becomes `AVS_TIME_REAL_INVALID`. -/
def invalidateRegistration (s : ServerInfo) : ServerInfo :=
  { s with registrationInfo := { s.registrationInfo with expireTime := .invalid } }

/-- `on_registration_update_result`. -/
def onRegistrationUpdateResult (env : Env) (move : MoveParams) (result : RegistrationResult) (s : ServerInfo) :
    ServerInfo :=
  match result with
  | .errorTimeout | .errorRejected =>
      doRegister env move s.invalidateRegistration
  | .success =>
      (s.updateRegistrationInfo env none s.registrationInfo.lwm2mVersion (shouldUseQueueMode env) move).parametersCleanup
        move
  | _ => s.parametersCleanup move

/-- `send_update`. -/
def sendUpdate (env : Env) (moveParams : UpdateParameters) (s : ServerInfo) : ServerInfo :=
  match env.updateOptions with
  | some _ => s.onRegistrationUpdateResult env (.other moveParams) .errorOther
  | none =>
      let moved := moveAssignUpdateParams s.newParams moveParams
      let message := updateMessage s.registrationInfo.endpointPath s.registrationInfo.lastUpdateParams moveParams
        moved.1.dmString
      let s := { s.cancelExchange with attemptedVersion := s.registrationInfo.lwm2mVersion, newParams := moved.1 }
      match env.sendUpdate with
      | some err => s.onRegistrationUpdateResult env (.other moved.2) (mapCoapError err)
      | none => s.sendAsyncRequest .receiveUpdateResponse message

/-- `update_registration`. -/
def updateRegistration (env : Env) (moveParams : UpdateParameters) (s : ServerInfo) : ServerInfo :=
  if env.online then s.sendUpdate env moveParams else s.onRegistrationUpdateResult env (.other moveParams) .errorOther

/-- `_anjay_server_ensure_valid_registration`. -/
def ensureValidRegistration (env : Env) (s : ServerInfo) : ServerInfo :=
  match updateParametersInit env with
  | none => s.onRegistrationUpdateResult env (.other ⟨0, none, emptyString⟩) .errorOther
  | some newParams =>
      if env.online = false then s.onRegistrationUpdateResult env (.other newParams) .errorOther
      else if registrationExpired env s.registrationInfo then
        s.onRegistrationUpdateResult env (.other newParams) .errorRejected
      else if needsRegistrationUpdate s.registrationInfo newParams = false then s
      else s.updateRegistration env newParams

end ServerInfo

/-! ## 4. Answers -/

/-- `check_register_response`: the result, and the path. -/
def checkRegisterResponse (response : Response) : RegistrationResult × List CString :=
  if response.code ≠ 65 then
    (if response.code = 140 then .errorFallbackRequested else .errorRejected, [])
  else
    match response.locationPath with
    | none => (.errorOther, [])
    | some path => (.success, path)

/-- `check_update_response`. -/
def checkUpdateResponse (response : Response) : RegistrationResult :=
  if response.code = 68 then .success else .errorRejected

/-- Whether the handler takes the answer for a success. -/
def ResponseHandler.accepts : ResponseHandler → Response → Bool
  | receiveRegisterResponse, response => decide ((checkRegisterResponse response).1 = .success)
  | receiveUpdateResponse, response => decide (checkUpdateResponse response = .success)

/-- The handler takes what it gets for a success. -/
def RequestState.accepted (handler : ResponseHandler) : RequestState → Bool
  | .ok response | .partialContent response => handler.accepts response
  | .fail _ | .cancel => false

namespace ServerInfo

/-- `handle_register_response`; what is not a success is left to `_anjay_server_on_updated_registration`. -/
def handleRegisterResponse (env : Env) (attemptedVersion : Lwm2mVersion) (path : List CString)
    (result : RegistrationResult) (s : ServerInfo) : ServerInfo :=
  if result = .success then s.updateRegistrationInfo env (some path) attemptedVersion (shouldUseQueueMode env) .newParams
  else s

/-- `receive_register_response`. -/
def receiveRegisterResponse (env : Env) (requestState : RequestState) (s : ServerInfo) : ServerInfo :=
  let s := s.cancelExchange
  match requestState with
  | .ok response | .partialContent response =>
      s.handleRegisterResponse env s.attemptedVersion (checkRegisterResponse response).2
        (checkRegisterResponse response).1
  | .fail err => s.handleRegisterResponse env s.attemptedVersion [] (mapCoapError err)
  | .cancel => s

/-- `receive_update_response`. -/
def receiveUpdateResponse (env : Env) (requestState : RequestState) (s : ServerInfo) : ServerInfo :=
  let s := s.cancelExchange
  match requestState with
  | .ok response | .partialContent response =>
      s.onRegistrationUpdateResult env .newParams (checkUpdateResponse response)
  | .fail err => s.onRegistrationUpdateResult env .newParams (mapCoapError err)
  | .cancel => s

def receiveResponse (handler : ResponseHandler) (env : Env) (requestState : RequestState) (s : ServerInfo) :
    ServerInfo :=
  match handler with
  | .receiveRegisterResponse => s.receiveRegisterResponse env requestState
  | .receiveUpdateResponse => s.receiveUpdateResponse env requestState

/-- `_anjay_registration_exchange_state_cleanup`. -/
def exchangeStateCleanup (s : ServerInfo) : ServerInfo := s.cancelExchange.parametersCleanup .newParams

/-! ## 5. What is sent, and what is remembered of it -/

/-- Nothing is sent: an exchange that was under way goes on, or is cancelled. -/
structure Quiet (s s' : ServerInfo) : Prop where
  exchange : s'.exchange = none ∨ s'.exchange = s.exchange ∧ s'.newParams = s.newParams
  next : s'.nextExchangeId = s.nextExchangeId
  outbox : s'.outbox = s.outbox
  last : s'.registrationInfo.lastUpdateParams = s.registrationInfo.lastUpdateParams

/-- A message is sent for the parameters that are then in `new_params`. -/
structure Sent (handler : ResponseHandler) (m : UpdateParameters → Message) (s s' : ServerInfo) : Prop where
  exchange : s'.exchange = some ⟨s.nextExchangeId, handler⟩
  next : s'.nextExchangeId = s.nextExchangeId + 1
  outbox : s'.outbox = s.outbox ++ [(⟨s.nextExchangeId, handler⟩, m s'.newParams)]
  last : s'.registrationInfo.lastUpdateParams = s.registrationInfo.lastUpdateParams
  dm : s'.newParams.dm.isSome

/-- The Register message for these parameters. -/
def registerMessageFor (params : UpdateParameters) : Message := registerMessage params params.dmString

/-- The Update message for these parameters. -/
def updateMessageFor (info : RegistrationInfo) (params : UpdateParameters) : Message :=
  updateMessage info.endpointPath info.lastUpdateParams params params.dmString

theorem Quiet.refl (s : ServerInfo) : Quiet s s := ⟨Or.inr ⟨rfl, rfl⟩, rfl, rfl, rfl⟩

theorem Quiet.trans {s s' s'' : ServerInfo} (h : Quiet s s') (h' : Quiet s' s'') : Quiet s s'' := by
  refine ⟨?_, h'.next.trans h.next, h'.outbox.trans h.outbox, h'.last.trans h.last⟩
  rcases h'.exchange with hnone | ⟨hsame, hparams⟩
  · exact Or.inl hnone
  · rcases h.exchange with hnone | ⟨hsame', hparams'⟩
    · exact Or.inl (hsame.trans hnone)
    · exact Or.inr ⟨hsame.trans hsame', hparams.trans hparams'⟩

theorem Sent.of_quiet {handler : ResponseHandler} {m : UpdateParameters → Message} {s s' s'' : ServerInfo}
    (h : Quiet s s') (h' : Sent handler m s' s'') : Sent handler m s s'' := by
  refine ⟨?_, ?_, ?_, h'.last.trans h.last, h'.dm⟩
  · rw [h'.exchange, h.next]
  · rw [h'.next, h.next]
  · rw [h'.outbox, h.outbox, h.next]

theorem quiet_cancelExchange (s : ServerInfo) : Quiet s s.cancelExchange := ⟨Or.inl rfl, rfl, rfl, rfl⟩

/-- What is written to the parameters while no exchange needs them. -/
theorem quiet_putParams {s : ServerInfo} {move : MoveParams} (hidle : move = .newParams → s.exchange = none)
    (left : UpdateParameters) : Quiet s (s.putParams left move) := by
  cases move with
  | newParams => exact ⟨Or.inl (hidle rfl), rfl, rfl, rfl⟩
  | other params => exact .refl s

theorem quiet_parametersCleanup {s : ServerInfo} {move : MoveParams} (hidle : move = .newParams → s.exchange = none) :
    Quiet s (s.parametersCleanup move) := by
  cases move with
  | newParams => exact ⟨Or.inl (hidle rfl), rfl, rfl, rfl⟩
  | other params => exact .refl s

theorem quiet_invalidateRegistration (s : ServerInfo) : Quiet s s.invalidateRegistration :=
  ⟨Or.inr ⟨rfl, rfl⟩, rfl, rfl, rfl⟩

/-- What `move_assign_update_params` gives for parameters, or with the list that was moved before. -/
theorem moveAssignUpdateParams_isSome {out moveIn : UpdateParameters} (h : moveIn.dm.isSome ∨ out.dm.isSome) :
    (moveAssignUpdateParams out moveIn).1.dm.isSome := by
  unfold moveAssignUpdateParams
  split
  · rfl
  next hnone =>
    rcases h with h | h
    · rw [hnone] at h
      cases h
    · exact h

theorem moveAssignUpdateParams_eq {out moveIn : UpdateParameters} (h : moveIn.dm.isSome) :
    (moveAssignUpdateParams out moveIn).1 = moveIn := by
  obtain ⟨dm, hdm⟩ := Option.isSome_iff_exists.mp h
  unfold moveAssignUpdateParams
  rw [hdm]
  dsimp only
  rw [← hdm]

theorem registerMessage_moved (out moveIn : UpdateParameters) (payload : CString) :
    registerMessage (moveAssignUpdateParams out moveIn).1 payload = registerMessage moveIn payload := by
  unfold moveAssignUpdateParams
  split <;> rfl

theorem sendRegister_cases {env : Env} {version : Lwm2mVersion} {move : MoveParams} {s : ServerInfo}
    (hidle : move = .newParams → s.exchange = none) (hdm : (s.params move).dm.isSome ∨ s.newParams.dm.isSome) :
    Quiet s (s.sendRegister env version move) ∨
      Sent .receiveRegisterResponse registerMessageFor s (s.sendRegister env version move) := by
  unfold sendRegister
  dsimp only
  generalize hparams : ({ s.params move with
    bindingMode := getBindingModeForVersion env.bindingMode (s.params move).bindingMode } : UpdateParameters) = params
  have hquiet := quiet_putParams hidle params
  cases env.registerOptions with
  | some err => exact Or.inl hquiet
  | none =>
      cases env.sendRegister with
      | some err => exact Or.inl ⟨Or.inl rfl, hquiet.next, hquiet.outbox, hquiet.last⟩
      | none =>
          refine Or.inr (.of_quiet hquiet ⟨rfl, rfl, ?_, rfl, ?_⟩)
          · cases move with
            | newParams => rfl
            | other p =>
                dsimp only [sendAsyncRequest, registerMessageFor]
                rw [registerMessage_moved]
                rfl
          · have hsame : params.dm = (s.params move).dm := by rw [← hparams]
            cases move with
            | newParams =>
                show params.dm.isSome = true
                rw [hsame]
                exact hdm.elim id id
            | other p => exact moveAssignUpdateParams_isSome (hdm.imp_left fun h => hsame ▸ h)

theorem doRegister_cases {env : Env} {move : MoveParams} {s : ServerInfo}
    (hidle : move = .newParams → s.exchange = none) (hdm : (s.params move).dm.isSome ∨ s.newParams.dm.isSome) :
    Quiet s (s.doRegister env move) ∨ Sent .receiveRegisterResponse registerMessageFor s (s.doRegister env move) := by
  unfold doRegister
  split
  · exact sendRegister_cases hidle hdm
  · exact Or.inl (.refl s)

theorem onRegistrationUpdateResult_cases {env : Env} {move : MoveParams} {result : RegistrationResult} {s : ServerInfo}
    (hresult : result ≠ .success) (hidle : move = .newParams → s.exchange = none)
    (hdm : (s.params move).dm.isSome ∨ s.newParams.dm.isSome) :
    Quiet s (s.onRegistrationUpdateResult env move result) ∨
      Sent .receiveRegisterResponse registerMessageFor s (s.onRegistrationUpdateResult env move result) := by
  have hregister : Quiet s (doRegister env move s.invalidateRegistration) ∨
      Sent .receiveRegisterResponse registerMessageFor s (doRegister env move s.invalidateRegistration) := by
    have hinvalid := quiet_invalidateRegistration s
    have hdm' : (s.invalidateRegistration.params move).dm.isSome ∨ s.invalidateRegistration.newParams.dm.isSome := by
      cases move with
      | newParams => exact hdm
      | other params => exact hdm
    exact (doRegister_cases (s := s.invalidateRegistration) hidle hdm').imp hinvalid.trans (Sent.of_quiet hinvalid)
  cases result with
  | success => exact absurd rfl hresult
  | errorTimeout => exact hregister
  | errorRejected => exact hregister
  | errorNetwork => exact Or.inl (quiet_parametersCleanup hidle)
  | errorFallbackRequested => exact Or.inl (quiet_parametersCleanup hidle)
  | errorOther => exact Or.inl (quiet_parametersCleanup hidle)

theorem onRegistrationUpdateResult_other {env : Env} {params : UpdateParameters} {result : RegistrationResult}
    {s : ServerInfo} (hresult : result ≠ .success) (hdm : params.dm.isSome ∨ s.newParams.dm.isSome) :
    Quiet s (s.onRegistrationUpdateResult env (.other params) result) ∨
      Sent .receiveRegisterResponse registerMessageFor s (s.onRegistrationUpdateResult env (.other params) result) :=
  onRegistrationUpdateResult_cases hresult nofun hdm

theorem mapCoapError_ne_success (err : AvsError) : mapCoapError err ≠ .success := by
  unfold mapCoapError
  split <;> exact nofun

theorem sendUpdate_cases {env : Env} {params : UpdateParameters} {s : ServerInfo} (hdm : params.dm.isSome) :
    Quiet s (s.sendUpdate env params) ∨
      Sent .receiveRegisterResponse registerMessageFor s (s.sendUpdate env params) ∨
      (env.updateOptions = none ∧ env.sendUpdate = none ∧ (s.sendUpdate env params).newParams = params ∧
        Sent .receiveUpdateResponse (updateMessageFor s.registrationInfo) s (s.sendUpdate env params)) := by
  unfold sendUpdate
  dsimp only
  cases env.updateOptions with
  | some err =>
      exact (onRegistrationUpdateResult_other (by decide) (Or.inl hdm)).imp_right Or.inl
  | none =>
      have hmoved : (moveAssignUpdateParams s.newParams params).1 = params := moveAssignUpdateParams_eq hdm
      have hquiet : Quiet s { s.cancelExchange with
          attemptedVersion := s.registrationInfo.lwm2mVersion
          newParams := (moveAssignUpdateParams s.newParams params).1 } := ⟨Or.inl rfl, rfl, rfl, rfl⟩
      cases env.sendUpdate with
      | some err =>
          have hsome : (moveAssignUpdateParams s.newParams params).1.dm.isSome :=
            moveAssignUpdateParams_isSome (Or.inl hdm)
          exact (onRegistrationUpdateResult_other (mapCoapError_ne_success err) (Or.inr hsome)).imp hquiet.trans
            fun h => Or.inl (.of_quiet hquiet h)
      | none =>
          refine Or.inr (Or.inr ⟨rfl, rfl, hmoved, rfl, rfl, ?_, rfl, ?_⟩)
          · dsimp only [sendAsyncRequest, cancelExchange, updateMessageFor]
            rw [hmoved]
          · exact moveAssignUpdateParams_isSome (Or.inl hdm)

theorem updateParametersInit_isSome {env : Env} {params : UpdateParameters} (h : updateParametersInit env = some params) :
    params.dm.isSome := by
  unfold updateParametersInit at h
  split at h
  · cases h
  split at h
  · cases h
  · cases h
    rfl

/-- An Update is sent for the parameters `new`. -/
def SendsUpdate (env : Env) (new : UpdateParameters) (s : ServerInfo) : Prop :=
  updateParametersInit env = some new ∧ env.online = true ∧ registrationExpired env s.registrationInfo = false ∧
    needsRegistrationUpdate s.registrationInfo new = true ∧ env.updateOptions = none ∧ env.sendUpdate = none

/-- **Nothing is sent, or a Register, or an Update that has the differences.** -/
theorem ensureValidRegistration_cases (env : Env) (s : ServerInfo) :
    Quiet s (s.ensureValidRegistration env) ∨
      Sent .receiveRegisterResponse registerMessageFor s (s.ensureValidRegistration env) ∨
      (SendsUpdate env (s.ensureValidRegistration env).newParams s ∧
        Sent .receiveUpdateResponse (updateMessageFor s.registrationInfo) s (s.ensureValidRegistration env)) := by
  unfold ensureValidRegistration
  cases hinit : updateParametersInit env with
  | none => exact Or.inl (.refl s)
  | some params =>
      have hdm := updateParametersInit_isSome hinit
      dsimp only
      by_cases hoffline : env.online = false
      · rw [if_pos hoffline]
        exact (onRegistrationUpdateResult_other (by decide) (Or.inl hdm)).imp_right Or.inl
      rw [if_neg hoffline]
      have honline : env.online = true := eq_true_of_ne_false hoffline
      cases hexpired : registrationExpired env s.registrationInfo with
      | true =>
          rw [if_pos rfl]
          exact (onRegistrationUpdateResult_other (by decide) (Or.inl hdm)).imp_right Or.inl
      | false =>
          rw [if_neg Bool.false_ne_true]
          by_cases hneeded : needsRegistrationUpdate s.registrationInfo params = false
          · rw [if_pos hneeded]
            exact Or.inl (.refl s)
          rw [if_neg hneeded]
          unfold updateRegistration
          rw [if_pos honline]
          refine (sendUpdate_cases hdm).imp_right fun h => h.imp_right fun ⟨hoptions, hsend, hparams, hsent⟩ => ⟨?_, hsent⟩
          rw [hparams]
          exact ⟨hinit, honline, hexpired, eq_true_of_ne_false hneeded, hoptions, hsend⟩

/-- The parameters of the exchange become those that were acknowledged last. -/
structure Acknowledged (s s' : ServerInfo) : Prop where
  exchange : s'.exchange = none
  next : s'.nextExchangeId = s.nextExchangeId
  outbox : s'.outbox = s.outbox
  last : s'.registrationInfo.lastUpdateParams = s.newParams

theorem acknowledged_updateRegistrationInfo {env : Env} {path : Option (List CString)} {version : Lwm2mVersion}
    {queueMode : Bool} {s : ServerInfo} (hdm : s.newParams.dm.isSome) :
    Acknowledged s (s.cancelExchange.updateRegistrationInfo env path version queueMode .newParams) :=
  ⟨rfl, rfl, rfl, moveAssignUpdateParams_eq hdm⟩

/-- **A success makes the parameters that were sent those that were acknowledged.** -/
theorem receiveResponse_accepted {handler : ResponseHandler} {env : Env} {requestState : RequestState} {s : ServerInfo}
    (h : requestState.accepted handler = true) (hdm : s.newParams.dm.isSome) :
    Acknowledged s (s.receiveResponse handler env requestState) := by
  cases handler with
  | receiveRegisterResponse =>
      have hregister : ∀ response, ResponseHandler.receiveRegisterResponse.accepts response = true →
          Acknowledged s (s.cancelExchange.handleRegisterResponse env s.attemptedVersion
            (checkRegisterResponse response).2 (checkRegisterResponse response).1) := by
        intro response haccepts
        unfold handleRegisterResponse
        rw [if_pos (of_decide_eq_true haccepts)]
        exact acknowledged_updateRegistrationInfo hdm
      cases requestState with
      | ok response => exact hregister response h
      | partialContent response => exact hregister response h
      | fail err => cases h
      | cancel => cases h
  | receiveUpdateResponse =>
      have hupdate : ∀ response, ResponseHandler.receiveUpdateResponse.accepts response = true →
          Acknowledged s (s.cancelExchange.onRegistrationUpdateResult env .newParams (checkUpdateResponse response)) := by
        intro response haccepts
        rw [of_decide_eq_true haccepts]
        have hupdated : Acknowledged s (s.cancelExchange.updateRegistrationInfo env none s.registrationInfo.lwm2mVersion
            (shouldUseQueueMode env) .newParams) := acknowledged_updateRegistrationInfo hdm
        exact ⟨rfl, hupdated.next, hupdated.outbox, hupdated.last⟩
      cases requestState with
      | ok response => exact hupdate response h
      | partialContent response => exact hupdate response h
      | fail err => cases h
      | cancel => cases h

/-- What is no success ends the exchange; an Update may be followed by a Register. -/
theorem receiveResponse_cases {handler : ResponseHandler} {env : Env} {requestState : RequestState} {s : ServerInfo}
    (h : requestState.accepted handler = false) (hdm : s.newParams.dm.isSome) :
    Quiet s (s.receiveResponse handler env requestState) ∨
      Sent .receiveRegisterResponse registerMessageFor s (s.receiveResponse handler env requestState) := by
  have hcancel := quiet_cancelExchange s
  cases handler with
  | receiveRegisterResponse =>
      have hregister : ∀ path result, result ≠ .success →
          Quiet s (s.cancelExchange.handleRegisterResponse env s.attemptedVersion path result) := by
        intro path result hresult
        unfold handleRegisterResponse
        rw [if_neg hresult]
        exact hcancel
      cases requestState with
      | ok response => exact Or.inl (hregister _ _ (of_decide_eq_false h))
      | partialContent response => exact Or.inl (hregister _ _ (of_decide_eq_false h))
      | fail err => exact Or.inl (hregister _ _ (mapCoapError_ne_success err))
      | cancel => exact Or.inl hcancel
  | receiveUpdateResponse =>
      have hupdate : ∀ result, result ≠ .success →
          Quiet s (s.cancelExchange.onRegistrationUpdateResult env .newParams result) ∨
            Sent .receiveRegisterResponse registerMessageFor s
              (s.cancelExchange.onRegistrationUpdateResult env .newParams result) := by
        intro result hresult
        exact (onRegistrationUpdateResult_cases (s := s.cancelExchange) hresult (fun _ => rfl) (Or.inr hdm)).imp hcancel.trans
          (Sent.of_quiet hcancel)
      cases requestState with
      | ok response => exact hupdate _ (of_decide_eq_false h)
      | partialContent response => exact hupdate _ (of_decide_eq_false h)
      | fail err => exact hupdate _ (mapCoapError_ne_success err)
      | cancel => exact Or.inl hcancel

end ServerInfo

end Anjay.Reg
