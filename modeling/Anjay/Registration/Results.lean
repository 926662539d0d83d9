/-
  File:      Anjay/Registration/Results.lean
  Subject:   What `anjay_register.c` reports to `_anjay_server_on_updated_registration`, and when it reports nothing.

  * `ensureValidRegistration_reported`, `receiveResponse_reported`: nothing is reported only where a message was
    sent, and an error leaves `update_forced` as it was.
  * `ensureValidResult_eq_none_iff`: when a message is sent.
-/
import Anjay.Registration.Register

namespace Anjay.Reg

/-! ## 1. Results -/

/-- What `do_register` reports; nothing where the Register is sent. -/
def registerResult (env : Env) : Option RegistrationResult :=
  if env.online = false then some .errorOther
  else
    match env.registerOptions with
    | some _ => some .errorOther
    | none => env.sendRegister.map mapCoapError

/-- What `on_registration_update_result` reports. -/
def registrationUpdateResult (env : Env) : RegistrationResult → Option RegistrationResult
  | .errorTimeout | .errorRejected => registerResult env
  | result => some result

/-- What `update_registration` reports. -/
def updateResult (env : Env) : Option RegistrationResult :=
  if env.online = false then registrationUpdateResult env .errorOther
  else
    match env.updateOptions with
    | some _ => registrationUpdateResult env .errorOther
    | none => env.sendUpdate.bind fun err => registrationUpdateResult env (mapCoapError err)

/-- What `_anjay_server_ensure_valid_registration` reports. -/
def ensureValidResult (env : Env) (info : RegistrationInfo) : Option RegistrationResult :=
  match updateParametersInit env with
  | none => registrationUpdateResult env .errorOther
  | some newParams =>
      if env.online = false then registrationUpdateResult env .errorOther
      else if registrationExpired env info then registrationUpdateResult env .errorRejected
      else if needsRegistrationUpdate info newParams = false then some .success
      else updateResult env

/-- What `handle_register_response` reports. -/
def registerResponseResult : RegistrationResult → RegistrationResult
  | .errorFallbackRequested => .errorRejected
  | result => result

/-- What the handler of an exchange reports; nothing where the exchange is cancelled. -/
def responseResult (handler : ResponseHandler) (env : Env) (requestState : RequestState) : Option RegistrationResult :=
  match handler, requestState with
  | _, .cancel => none
  | .receiveRegisterResponse, .ok response | .receiveRegisterResponse, .partialContent response =>
      some (registerResponseResult (checkRegisterResponse response).1)
  | .receiveRegisterResponse, .fail err => some (registerResponseResult (mapCoapError err))
  | .receiveUpdateResponse, .ok response | .receiveUpdateResponse, .partialContent response =>
      registrationUpdateResult env (checkUpdateResponse response)
  | .receiveUpdateResponse, .fail err => registrationUpdateResult env (mapCoapError err)

/-! ## 2. What is reported is what was done -/

namespace ServerInfo

/-- Nothing is reported of a message that was sent; an error leaves `update_forced`, and sends nothing. -/
def Reported (s s' : ServerInfo) : Option RegistrationResult → Prop
  | none => ∃ p, s'.outbox = s.outbox ++ [p]
  | some result => s'.outbox = s.outbox ∧
      (result ≠ .success → s'.registrationInfo.updateForced = s.registrationInfo.updateForced)

theorem Reported.of_eq {s₀ s s' : ServerInfo} {result : Option RegistrationResult} (h : Reported s s' result)
    (houtbox : s.outbox = s₀.outbox) (hforced : s.registrationInfo.updateForced = s₀.registrationInfo.updateForced) :
    Reported s₀ s' result := by
  cases result with
  | none =>
      obtain ⟨p, hp⟩ := h
      exact ⟨p, hp.trans (congrArg (· ++ [p]) houtbox)⟩
  | some result => exact ⟨h.1.trans houtbox, fun hresult => (h.2 hresult).trans hforced⟩

theorem putParams_outbox (s : ServerInfo) (left : UpdateParameters) (move : MoveParams) :
    (s.putParams left move).outbox = s.outbox := by
  cases move <;> rfl

theorem putParams_info (s : ServerInfo) (left : UpdateParameters) (move : MoveParams) :
    (s.putParams left move).registrationInfo = s.registrationInfo := by
  cases move <;> rfl

theorem parametersCleanup_outbox (s : ServerInfo) (move : MoveParams) : (s.parametersCleanup move).outbox = s.outbox := by
  cases move <;> rfl

theorem parametersCleanup_info (s : ServerInfo) (move : MoveParams) :
    (s.parametersCleanup move).registrationInfo = s.registrationInfo := by
  cases move <;> rfl

theorem doRegister_reported (env : Env) (move : MoveParams) (s : ServerInfo) :
    Reported s (s.doRegister env move) (registerResult env) := by
  unfold doRegister registerResult
  cases env.online with
  | false => exact ⟨rfl, fun _ => rfl⟩
  | true =>
      rw [if_pos rfl, if_neg nofun]
      unfold sendRegister
      dsimp only
      generalize hparams : ({ s.params move with
        bindingMode := getBindingModeForVersion env.bindingMode (s.params move).bindingMode } : UpdateParameters) = params
      have hout := putParams_outbox s params move
      have hinfo := congrArg RegistrationInfo.updateForced (putParams_info s params move)
      cases env.registerOptions with
      | some err => exact ⟨hout, fun _ => hinfo⟩
      | none =>
          cases env.sendRegister with
          | some err => exact ⟨hout, fun _ => hinfo⟩
          | none => exact ⟨_, congrArg (· ++ _) hout⟩

theorem onRegistrationUpdateResult_reported (env : Env) (move : MoveParams) (result : RegistrationResult)
    (s : ServerInfo) : Reported s (s.onRegistrationUpdateResult env move result) (registrationUpdateResult env result) := by
  have hregister : Reported s (doRegister env move s.invalidateRegistration) (registerResult env) :=
    (doRegister_reported env move s.invalidateRegistration).of_eq rfl rfl
  have hcleanup : ∀ result, Reported s (s.parametersCleanup move) (some result) := fun result =>
    ⟨parametersCleanup_outbox s move, fun _ => congrArg RegistrationInfo.updateForced (parametersCleanup_info s move)⟩
  cases result with
  | success =>
      refine ⟨?_, fun h => absurd rfl h⟩
      exact (parametersCleanup_outbox _ move).trans (putParams_outbox _ _ move)
  | errorTimeout => exact hregister
  | errorRejected => exact hregister
  | errorNetwork => exact hcleanup _
  | errorFallbackRequested => exact hcleanup _
  | errorOther => exact hcleanup _

theorem updateRegistration_reported (env : Env) (params : UpdateParameters) (s : ServerInfo) :
    Reported s (s.updateRegistration env params) (updateResult env) := by
  unfold updateRegistration updateResult
  cases env.online with
  | false =>
      rw [if_neg Bool.false_ne_true, if_pos rfl]
      exact onRegistrationUpdateResult_reported env _ _ s
  | true =>
      rw [if_pos rfl, if_neg nofun]
      unfold sendUpdate
      dsimp only
      cases env.updateOptions with
      | some err => exact onRegistrationUpdateResult_reported env _ _ s
      | none =>
          cases env.sendUpdate with
          | some err => exact (onRegistrationUpdateResult_reported env _ _ _).of_eq rfl rfl
          | none => exact ⟨_, rfl⟩

/-- **A registration that is made sure of**: what is reported of it. -/
theorem ensureValidRegistration_reported (env : Env) (s : ServerInfo) :
    Reported s (s.ensureValidRegistration env) (ensureValidResult env s.registrationInfo) := by
  unfold ensureValidRegistration ensureValidResult
  cases updateParametersInit env with
  | none => exact onRegistrationUpdateResult_reported env _ _ s
  | some params =>
      dsimp only
      split
      · exact onRegistrationUpdateResult_reported env _ _ s
      split
      · exact onRegistrationUpdateResult_reported env _ _ s
      split
      · exact ⟨rfl, fun h => absurd rfl h⟩
      · exact updateRegistration_reported env params s

theorem registerResponseResult_success {result : RegistrationResult} :
    registerResponseResult result = .success ↔ result = .success := by
  cases result <;> simp [registerResponseResult]

theorem handleRegisterResponse_reported (env : Env) (version : Lwm2mVersion) (path : List CString)
    (result : RegistrationResult) (s : ServerInfo) :
    Reported s (s.handleRegisterResponse env version path result) (some (registerResponseResult result)) := by
  unfold handleRegisterResponse
  split
  next h => exact ⟨putParams_outbox _ _ _, fun hne => absurd (registerResponseResult_success.mpr h) hne⟩
  next => exact ⟨rfl, fun _ => rfl⟩

/-- **An answer, or a failure of the exchange**: what is reported of it. -/
theorem receiveResponse_reported {handler : ResponseHandler} {env : Env} {requestState : RequestState}
    (h : requestState ≠ .cancel) (s : ServerInfo) :
    Reported s (s.receiveResponse handler env requestState) (responseResult handler env requestState) := by
  cases handler with
  | receiveRegisterResponse =>
      cases requestState with
      | ok response => exact (handleRegisterResponse_reported env _ _ _ s.cancelExchange).of_eq rfl rfl
      | partialContent response => exact (handleRegisterResponse_reported env _ _ _ s.cancelExchange).of_eq rfl rfl
      | fail err => exact (handleRegisterResponse_reported env _ _ _ s.cancelExchange).of_eq rfl rfl
      | cancel => exact absurd rfl h
  | receiveUpdateResponse =>
      cases requestState with
      | ok response => exact (onRegistrationUpdateResult_reported env _ _ s.cancelExchange).of_eq rfl rfl
      | partialContent response => exact (onRegistrationUpdateResult_reported env _ _ s.cancelExchange).of_eq rfl rfl
      | fail err => exact (onRegistrationUpdateResult_reported env _ _ s.cancelExchange).of_eq rfl rfl
      | cancel => exact absurd rfl h

end ServerInfo

/-! ## 3. When a message is sent -/

/-- A Register can be sent. -/
def Env.Registers (env : Env) : Prop := env.online = true ∧ env.registerOptions = none ∧ env.sendRegister = none

/-- An Update can be sent, or a Register after it timed out at once. -/
def Env.Updates (env : Env) : Prop :=
  env.updateOptions = none ∧
    (env.sendUpdate = none ∨ ∃ err, env.sendUpdate = some err ∧ mapCoapError err = .errorTimeout ∧ env.Registers)

/-- There is something to say to the server, and it can be said. -/
def Env.Sends (env : Env) (info : RegistrationInfo) : Prop :=
  ∃ params, updateParametersInit env = some params ∧ env.online = true ∧
    (registrationExpired env info = true ∧ env.Registers ∨
      registrationExpired env info = false ∧ needsRegistrationUpdate info params = true ∧ env.Updates)

theorem registerResult_eq_none_iff (env : Env) : registerResult env = none ↔ env.Registers := by
  unfold registerResult Env.Registers
  cases env.online with
  | false => exact ⟨nofun, nofun⟩
  | true =>
      rw [if_neg nofun]
      cases env.registerOptions with
      | some err => exact ⟨nofun, nofun⟩
      | none =>
          cases env.sendRegister with
          | some err => exact ⟨nofun, nofun⟩
          | none => exact ⟨fun _ => ⟨rfl, rfl, rfl⟩, fun _ => rfl⟩

theorem registrationUpdateResult_eq_none_iff (env : Env) (result : RegistrationResult) :
    registrationUpdateResult env result = none ↔ (result = .errorTimeout ∨ result = .errorRejected) ∧ env.Registers := by
  have hregister := registerResult_eq_none_iff env
  cases result with
  | success => exact ⟨nofun, fun h => h.1.elim nofun nofun⟩
  | errorTimeout => exact hregister.trans ⟨fun h => ⟨.inl rfl, h⟩, And.right⟩
  | errorNetwork => exact ⟨nofun, fun h => h.1.elim nofun nofun⟩
  | errorRejected => exact hregister.trans ⟨fun h => ⟨.inr rfl, h⟩, And.right⟩
  | errorFallbackRequested => exact ⟨nofun, fun h => h.1.elim nofun nofun⟩
  | errorOther => exact ⟨nofun, fun h => h.1.elim nofun nofun⟩

theorem mapCoapError_ne_rejected (err : AvsError) : mapCoapError err ≠ .errorRejected := by
  unfold mapCoapError
  split <;> exact nofun

theorem updateResult_eq_none_iff (env : Env) : updateResult env = none ↔ env.online = true ∧ env.Updates := by
  unfold updateResult Env.Updates
  cases env.online with
  | false => exact ⟨nofun, nofun⟩
  | true =>
      rw [if_neg nofun]
      cases env.updateOptions with
      | some err => exact ⟨nofun, nofun⟩
      | none =>
          cases env.sendUpdate with
          | none => exact ⟨fun _ => ⟨rfl, rfl, .inl rfl⟩, fun _ => rfl⟩
          | some err =>
              refine (registrationUpdateResult_eq_none_iff env _).trans ⟨?_, ?_⟩
              · rintro ⟨htimeout | hrejected, hregisters⟩
                · exact ⟨rfl, rfl, .inr ⟨err, rfl, htimeout, hregisters⟩⟩
                · exact absurd hrejected (mapCoapError_ne_rejected err)
              · rintro ⟨-, -, hnone | ⟨err', herr, htimeout, hregisters⟩⟩
                · cases hnone
                · obtain rfl := Option.some.inj herr
                  exact ⟨.inl htimeout, hregisters⟩

/-- **When the registration is made sure of by a message.** -/
theorem ensureValidResult_eq_none_iff (env : Env) (info : RegistrationInfo) :
    ensureValidResult env info = none ↔ env.Sends info := by
  unfold ensureValidResult Env.Sends
  cases updateParametersInit env with
  | none => exact ⟨nofun, fun ⟨_, h, _⟩ => nomatch h⟩
  | some params =>
      dsimp only
      by_cases hoffline : env.online = false
      · rw [if_pos hoffline, hoffline]
        exact ⟨nofun, fun ⟨_, _, h, _⟩ => nomatch h⟩
      rw [if_neg hoffline]
      have honline : env.online = true := eq_true_of_ne_false hoffline
      cases hexpired : registrationExpired env info with
      | true =>
          rw [if_pos rfl]
          refine (registrationUpdateResult_eq_none_iff env _).trans ⟨fun h => ?_, ?_⟩
          · exact ⟨params, rfl, honline, .inl ⟨rfl, h.2⟩⟩
          · rintro ⟨_, -, -, ⟨-, hregisters⟩ | ⟨h, -⟩⟩
            · exact ⟨.inr rfl, hregisters⟩
            · cases h
      | false =>
          rw [if_neg Bool.false_ne_true]
          by_cases hneeded : needsRegistrationUpdate info params = false
          · rw [if_pos hneeded]
            refine ⟨nofun, ?_⟩
            rintro ⟨_, hparams, -, ⟨h, -⟩ | ⟨-, h, -⟩⟩
            · cases h
            · obtain rfl := Option.some.inj hparams
              rw [hneeded] at h
              cases h
          · rw [if_neg hneeded]
            refine (updateResult_eq_none_iff env).trans ⟨fun h => ?_, ?_⟩
            · exact ⟨params, rfl, h.1, .inr ⟨rfl, eq_true_of_ne_false hneeded, h.2⟩⟩
            · rintro ⟨_, -, -, ⟨h, -⟩ | ⟨-, -, hupdates⟩⟩
              · cases h
              · exact ⟨honline, hupdates⟩

theorem registrationUpdateResult_ne_success {env : Env} {result : RegistrationResult} (h : result ≠ .success) :
    registrationUpdateResult env result ≠ some .success := by
  have hregister : registerResult env ≠ some .success := by
    unfold registerResult
    split
    · exact nofun
    split
    · exact nofun
    · cases env.sendRegister with
      | none => exact nofun
      | some err => exact fun h => ServerInfo.mapCoapError_ne_success err (Option.some.inj h)
  cases result with
  | success => exact absurd rfl h
  | errorTimeout => exact hregister
  | errorRejected => exact hregister
  | errorNetwork => exact nofun
  | errorFallbackRequested => exact nofun
  | errorOther => exact nofun

/-- A registration that has to be updated is never found to be in order. -/
theorem ensureValidResult_forced {env : Env} {info : RegistrationInfo} (h : info.updateForced = true) :
    ensureValidResult env info ≠ some .success := by
  unfold ensureValidResult
  split
  · exact registrationUpdateResult_ne_success nofun
  next params _ =>
    have hneeded : needsRegistrationUpdate info params = true := by
      unfold needsRegistrationUpdate
      rw [h]
      rfl
    split
    · exact registrationUpdateResult_ne_success nofun
    split
    · exact registrationUpdateResult_ne_success nofun
    rw [hneeded, if_neg nofun]
    unfold updateResult
    split
    · exact registrationUpdateResult_ne_success nofun
    split
    · exact registrationUpdateResult_ne_success nofun
    · cases env.sendUpdate with
      | none => exact nofun
      | some err => exact registrationUpdateResult_ne_success (ServerInfo.mapCoapError_ne_success err)

end Anjay.Reg
