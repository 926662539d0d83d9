/-
  File:      Anjay/Servers/UpdateRequests.lean
  Subject:   What becomes of a call of `anjay_schedule_registration_update`, among answers, reloads, refreshes,
             bootstraps and offline periods.

  * `served_step`: one event, while an Update is asked for.
  * `reachable_served`: an Update that was asked for is sent or still owed, in runs in which nothing takes the
    place of the job; `served_not_always`: not in all runs.
-/
import Anjay.Servers.Activation

namespace Anjay.Servers

open Download

/-! ## 1. The client -/

/-- The server, the transports that are online, `bootstrap.in_progress`, and whether a reload is scheduled. -/
structure State where
  server : Option Server
  onlineTransports : Transport → Bool
  inProgress : Bool
  reloadJob : Bool

/-- The client, and whether an Update was asked for, and since then no message was sent and the server not
    deactivated. -/
structure UpdateRun where
  state : State
  requested : Bool

def UpdateRun.init : UpdateRun := ⟨⟨none, fun _ => true, false, true⟩, false⟩

inductive UpdateEvent
  /-- `anjay_schedule_registration_update`, for this server or all. -/
  | scheduleRegistrationUpdate (env : ServerEnv)
  /-- The scheduler runs the job of `next_action_handle`. -/
  | runAction (env : ServerEnv)
  | answer (env : ServerEnv) (partialContent : Bool) (response : Reg.Response)
  | failure (env : ServerEnv) (err : AvsError)
  /-- `reload_servers_sched_job`: whether the server is found in the data model, and whether another one fails. -/
  | reload (env : ServerEnv) (found otherFailed : Bool)
  /-- `_anjay_schedule_reload_servers`. -/
  | scheduleReload
  /-- `anjay_transport_set_online`. -/
  | setOnline (onlineTransports : Transport → Bool)
  /-- `start_bootstrap_if_not_already_started`. -/
  | startBootstrap
  /-- The end of a bootstrap, with or without a reload. -/
  | endBootstrap (reload : Bool)
  /-- `anjay_disable_server`, `anjay_disable_server_with_timeout`. -/
  | disable (env : ServerEnv) (timeout : Option Duration)
  /-- `_anjay_connection_bring_online`. -/
  | bringOnline (env : ServerEnv)
  | fatalCoapError (env : ServerEnv)
  /-- `_anjay_connection_suspend`. -/
  | suspend

namespace State

/-- The server goes on, if there is one. -/
def update (st : State) (f : Server → Option Server) : State := { st with server := st.server.bind f }

/-- The messages are on their way. -/
def handOver (st : State) : State := st.update fun s => some { s with info := { s.info with outbox := [] } }

/-- `reload_server_by_ssid`: whether it succeeds, and the server. -/
def reloadServer (st : State) (env : ServerEnv) : Bool × Server :=
  match st.server with
  | some s =>
      if st.inProgress then (true, s)
      else if s.active then
        if env.schedule then (true, { s with nextAction := some (.refreshServer .zero) }) else (false, s)
      else if s.nextAction = none ∧ s.reactivateTime.valid = true then
        s.schedActivate env (s.reactivateTime.diff env.registration.now)
      else (true, s)
  | none =>
      if st.inProgress && !env.legacyServerInitiatedAllowed then (true, .created)
      else Server.created.schedActivate env .zero

/-- `reload_servers_sched_job`. -/
def reload (st : State) (env : ServerEnv) (found otherFailed : Bool) : State :=
  if found then
    let reloaded := st.reloadServer env
    { st with server := some reloaded.2, reloadJob := (!reloaded.1 || otherFailed) && env.scheduleReload }
  else if otherFailed then { st with server := st.server.filter Server.active, reloadJob := env.scheduleReload }
  else { st with server := none, reloadJob := false }

end State

namespace Server

/-- `anjay_schedule_registration_update`, for one server. -/
def rescheduleUpdate (env : ServerEnv) (inProgress : Bool) (s : Server) : Server :=
  if !s.active then s
  else if inProgress then s.force
  else if env.schedule then { s with nextAction := some (.sendUpdate .zero) }
  else s

/-- Whether that call returns 0. -/
def updateScheduled (env : ServerEnv) (inProgress : Bool) (s : Server) : Bool := s.active && (inProgress || env.schedule)

/-- The scheduler takes the job from its handle, and runs it. -/
def runAction (env : ServerEnv) (st : State) (s : Server) : Option Server :=
  match s.nextAction with
  | none => some s
  | some job => runJob env st.onlineTransports st.inProgress job { s with nextAction := none }

/-- The exchange under way ends. -/
def endExchange (env : ServerEnv) (requestState : Reg.RequestState) (s : Server) : Server :=
  match s.info.exchange with
  | none => s
  | some e => s.receiveResponse env e.handler requestState

/-- `_anjay_connection_suspend`. -/
def suspend (s : Server) : Server := { s with info := s.info.cancelExchange, connection := s.connection.suspend }

/-- `_anjay_servers_interrupt_offline`. -/
def interruptOffline (onlineTransports : Transport → Bool) (s : Server) : Server :=
  if s.active && !onlineTransports s.connection.transport then
    { s with nextAction := none, info := s.info.cancelExchange }
  else s

/-- `anjay_disable_server`, `anjay_disable_server_with_timeout`. -/
def disable (env : ServerEnv) (timeout : Option Duration) (s : Server) : Server :=
  if !s.active then s
  else
    match timeout with
    | none => { s with nextAction := if env.schedule then some .disableServer else none }
    | some timeout => s.disableWithTimeout env timeout

end Server

/-- `start_bootstrap_if_not_already_started`: inactive servers go, active ones are suspended. -/
def State.startBootstrap (st : State) : State :=
  if st.inProgress then st
  else { st.update fun s => if s.active then some s.suspend else none with inProgress := true }

def UpdateEvent.act : UpdateEvent → State → State
  | scheduleRegistrationUpdate env, st => st.update fun s => some (s.rescheduleUpdate env st.inProgress)
  | runAction env, st => st.update (Server.runAction env st)
  | answer env partialContent response, st =>
      st.update fun s => some (s.endExchange env (if partialContent then .partialContent response else .ok response))
  | failure env err, st => st.update fun s => some (s.endExchange env (.fail err))
  | reload env found otherFailed, st => st.reload env found otherFailed
  | scheduleReload, st => { st with reloadJob := true }
  | setOnline onlineTransports, st =>
      { st.update fun s => some (s.interruptOffline onlineTransports) with
        onlineTransports := onlineTransports, reloadJob := true }
  | startBootstrap, st => st.startBootstrap
  | endBootstrap withReload, st => { st with inProgress := false, reloadJob := st.reloadJob || withReload }
  | disable env timeout, st => st.update fun s => some (s.disable env timeout)
  | bringOnline env, st => st.update fun s => some (s.bringOnline env st.onlineTransports)
  | fatalCoapError env, st => st.update fun s => some (s.onFatalCoapError env st.onlineTransports)
  | suspend, st => st.update fun s => some s.suspend

/-- The event is a call that asks for an Update and returns 0. -/
def UpdateEvent.asks : UpdateEvent → State → Bool
  | scheduleRegistrationUpdate env, st => st.server.any (Server.updateScheduled env st.inProgress)
  | _, _ => false

/-- A server that is active and sent nothing. -/
def State.waits (st : State) : Bool := st.server.any fun s => s.active && s.info.outbox.isEmpty

def UpdateRun.perform (event : UpdateEvent) (r : UpdateRun) : UpdateRun :=
  ⟨(event.act r.state).handOver, (r.requested || event.asks r.state) && (event.act r.state).waits⟩

/-! ## 2. What is owed -/

namespace State

/-- A reload is scheduled or follows from the end of a bootstrap or of an offline period. -/
def ReloadToCome (st : State) : Prop :=
  st.reloadJob = true ∨ st.inProgress = true ∨
    ∀ transport, Connection.socketTransportSupported transport = true → st.onlineTransports transport = false

end State

namespace Server

def updateForced (s : Server) : Bool := s.info.registrationInfo.updateForced

/-- The handle holds the job that sends the Update, or one that sends it because of `update_forced`. -/
def HeldByAction (s : Server) : Prop :=
  s.nextAction = some (.sendUpdate .zero) ∨
    s.updateForced = true ∧ ∃ delay, s.nextAction = some (.refreshServer delay)

/-- `update_forced` is there for the reload to come. -/
def HeldByReload (st : State) (s : Server) : Prop := s.updateForced = true ∧ st.ReloadToCome

/-- The Update is owed. -/
def Owed (st : State) (s : Server) : Prop := s.HeldByAction ∨ s.HeldByReload st

/-- A message was sent, the server is deactivated, or the Update is owed. -/
def Served (st : State) (s : Server) : Prop := s.info.outbox ≠ [] ∨ s.active = false ∨ s.Owed st

/-- A refresh that leaves no socket, that sends a message, or that finds the transport offline and leaves
    `update_forced`. -/
def RefreshServes (env : ServerEnv) (onlineTransports : Transport → Bool) (s : Server) : Prop :=
  match env.config.filter rankUri with
  | none => s.active = false
  | some uri =>
      let refreshed := s.connection.serverConnectionsRefresh (env.connectionEnv onlineTransports) (some uri)
      match Connection.usableTransport (env.connectionEnv onlineTransports) uri with
      | none => s.updateForced = true
      | some _ =>
          refreshed.2.socket = none ∨ refreshed.1.isOk = true ∧
            (env.registrationEnv refreshed.2).Sends (s.withConnection refreshed.2).info.registrationInfo

/-- The job in the handle serves the Update. -/
def ActionServes (env : ServerEnv) (st : State) (s : Server) : Prop :=
  match s.nextAction with
  | some (.sendUpdate _) => st.ReloadToCome ∨ s.force.RefreshServes env st.onlineTransports
  | some (.refreshServer _) => st.inProgress = true ∨ s.RefreshServes env st.onlineTransports
  | _ => True

/-- An Update that is answered so is followed by a Register. -/
def needsRegister : Reg.RequestState → Prop
  | .ok response | .partialContent response => Reg.checkUpdateResponse response ≠ .success
  | .fail err => Reg.mapCoapError err = .errorTimeout
  | .cancel => False

/-- A Register follows the exchange `e`. -/
def AnswerServes (env : ServerEnv) (e : Reg.Exchange) (requestState : Reg.RequestState) (s : Server) : Prop :=
  e.handler = .receiveUpdateResponse ∧ needsRegister requestState ∧ (env.registrationEnv s.connection).Registers

end Server

/-- While an Update is owed, the event neither takes its place nor fails to send it. -/
def UpdateEvent.Keeps : UpdateEvent → State → Server → Prop
  | runAction env, st, s => s.HeldByReload st ∨ s.ActionServes env st
  | answer env partialContent response, st, s => ∀ e, s.info.exchange = some e →
      e.handler.accepts response = false ∧ s.HeldByReload st ∨
        s.AnswerServes env e (if partialContent then .partialContent response else .ok response)
  | failure env err, st, s => ∀ e, s.info.exchange = some e → s.HeldByReload st ∨ s.AnswerServes env e (.fail err)
  | reload env found otherFailed, st, s =>
      (found = true → st.inProgress = false → env.schedule = true → s.updateForced = true) ∧
        (found = true ∧ env.schedule = false ∨ found = false ∧ otherFailed = true →
          env.scheduleReload = true ∨ s.HeldByAction ∨ { st with reloadJob := false }.ReloadToCome)
  | setOnline onlineTransports, _, s => onlineTransports s.connection.transport = false → s.updateForced = true
  | endBootstrap withReload, st, s =>
      withReload = true ∨ s.HeldByAction ∨ { st with inProgress := false }.ReloadToCome
  | disable _ _, st, s => s.HeldByReload st
  | bringOnline env, st, s => st.onlineTransports s.connection.transport = true → s.HeldByReload st ∨
      let brought := s.connection.internalBringOnline (env.connectionEnv st.onlineTransports)
      brought.1.isOk = true ∧ (env.registrationEnv brought.2).Sends s.info.registrationInfo
  | fatalCoapError env, st, s => s.HeldByReload st ∨
      Server.RefreshServes env st.onlineTransports { s with connection := s.connection.internalCleanSocket }
  | _, _, _ => True

/-- The states of the runs whose events meet the condition `C`. -/
inductive UpdateRun.ReachableWith (C : UpdateEvent → UpdateRun → Prop) : UpdateRun → Prop
  | init : ReachableWith C .init
  | step {r : UpdateRun} (event : UpdateEvent) (h : ReachableWith C r) (hc : C event r) : ReachableWith C (r.perform event)

/-! ## 3. Functions -/

namespace Server

theorem HeldByReload.served {st : State} {s : Server} (h : s.HeldByReload st) : s.Served st := .inr (.inr (.inr h))

theorem HeldByReload.of_info {st : State} {s s' : Server} (h : s.HeldByReload st)
    (hinfo : s'.info.registrationInfo.updateForced = s.info.registrationInfo.updateForced) : s'.HeldByReload st :=
  ⟨hinfo.trans h.1, h.2⟩

/-- Nothing is reported of a message that was sent; an error leaves `update_forced`. -/
theorem report_served {env : ServerEnv} {st : State} {s : Server} {info : Reg.ServerInfo}
    {result : Option Reg.RegistrationResult} (hreported : s.info.Reported info result)
    (hresult : result ≠ some .success) (h : result = none ∨ s.HeldByReload st) :
    (report env result { s with info := info }).Served st := by
  cases result with
  | none =>
      obtain ⟨p, hp⟩ := hreported
      refine .inl fun hnil => ?_
      have hinfo : info.outbox = [] := hnil
      rw [hp] at hinfo
      exact absurd hinfo (List.append_ne_nil_of_right_ne_nil _ (List.cons_ne_nil p []))
  | some result =>
      rcases h with h | h
      · cases h
      refine HeldByReload.served (h.of_info ?_)
      show (onUpdatedRegistration env result _).info.registrationInfo.updateForced = _
      rw [(onUpdatedRegistration_same env result _).1]
      exact hreported.2 fun h => hresult (congrArg some h)

theorem ensureValidRegistration_served {env : ServerEnv} {st : State} {s : Server}
    (h : s.HeldByReload st ∨ (env.registrationEnv s.connection).Sends s.info.registrationInfo) :
    (s.ensureValidRegistration env).Served st := by
  have hreported := s.info.ensureValidRegistration_reported (env.registrationEnv s.connection)
  rcases h with h | h
  · exact report_served hreported (Reg.ensureValidResult_forced h.1) (.inr h)
  · have hnone := (Reg.ensureValidResult_eq_none_iff _ _).mpr h
    refine report_served hreported (fun hsome => ?_) (.inl hnone)
    rw [hnone] at hsome
    cases hsome

theorem onRefreshed_served {env : ServerEnv} {st : State} {s : Server} {state : ConnectionState} {err : AvsError}
    (h : s.HeldByReload st ∨ state ≠ .offline ∧ (env.registrationEnv s.connection).Sends s.info.registrationInfo) :
    (s.onRefreshed env state err).Served st := by
  unfold onRefreshed
  split
  next hoffline =>
    rcases h with h | ⟨hstate, -⟩
    · split
      · exact (h.of_info (congrArg (fun i => i.registrationInfo.updateForced) (onCommunicationError_same env s).1)).served
      · exact HeldByReload.served h
    · exact absurd hoffline hstate
  next => exact ensureValidRegistration_served (h.imp_right And.right)

theorem withConnection_forced (c : Connection) (s : Server) : (s.withConnection c).updateForced = s.updateForced := by
  unfold updateForced withConnection
  dsimp only
  split <;> rfl

/-- The transport of a URI that was selected is offline: no transport is left. -/
theorem offline_of_unusable {env : ServerEnv} {onlineTransports : Transport → Bool} {uri : AvsUrl}
    (hrank : rankUri uri = true)
    (h : Connection.usableTransport (env.connectionEnv onlineTransports) uri = none) :
    ∀ transport, Connection.socketTransportSupported transport = true → onlineTransports transport = false := by
  unfold rankUri at hrank
  unfold Connection.usableTransport at h
  cases hinfo : uri.protocol.bind Sec.schemeInfoByUri with
  | none =>
      rw [hinfo] at hrank
      cases hrank
  | some info =>
      rw [hinfo] at hrank h
      dsimp only at hrank h
      have hoffline : onlineTransports info.transport = false := by
        cases honline : onlineTransports info.transport with
        | false => rfl
        | true =>
            have hboth : (Connection.socketTransportSupported info.transport &&
                (env.connectionEnv onlineTransports).transportOnline info.transport) = true :=
              Bool.and_eq_true_iff.mpr ⟨hrank, honline⟩
            rw [if_pos hboth] at h
            cases h
      intro transport hsupported
      have hudp : ∀ t, Connection.socketTransportSupported t = true → t = .udp := by
        intro t ht
        cases t with
        | udp => rfl
        | tcp => cases ht
      rw [hudp transport hsupported, ← hudp info.transport hrank]
      exact hoffline

theorem RefreshServes.dropExchange {env : ServerEnv} {onlineTransports : Transport → Bool} {s : Server}
    (h : s.RefreshServes env onlineTransports) : (s.dropExchange true).RefreshServes env onlineTransports := by
  have hinfo := fun c => s.withConnection_dropExchange true c
  unfold RefreshServes at h ⊢
  cases hconfig : env.config.filter rankUri with
  | none =>
      rw [hconfig] at h
      exact h
  | some uri =>
      rw [hconfig] at h
      dsimp only at h ⊢
      rw [hinfo]
      exact h

theorem activeServerRefresh_served {env : ServerEnv} {st : State} {s : Server}
    (h : s.HeldByReload st ∨ s.RefreshServes env st.onlineTransports) :
    (s.activeServerRefresh env st.onlineTransports).Served st := by
  unfold activeServerRefresh
  unfold RefreshServes at h
  cases hconfig : env.config.filter rankUri with
  | none =>
      rw [hconfig] at h
      dsimp only at h ⊢
      rcases h with h | hinactive
      · exact onRefreshed_served (.inl h)
      · refine .inr (.inl ?_)
        unfold active
        rw [onRefreshed_connection]
        exact hinactive
  | some uri =>
      have hrank : rankUri uri = true := (Option.filter_eq_some_iff.mp hconfig).2
      rw [hconfig] at h
      dsimp only at h ⊢
      generalize hrefreshed : s.connection.serverConnectionsRefresh (env.connectionEnv st.onlineTransports) (some uri) =
        refreshed at h ⊢
      generalize s.connection.dropsExchange (env.connectionEnv st.onlineTransports) (some uri) = dropped
      have hinfo := withConnection_dropExchange dropped refreshed.2 s
      have hforced : ((s.dropExchange dropped).withConnection refreshed.2).updateForced = s.updateForced :=
        (congrArg Reg.RegistrationInfo.updateForced hinfo).trans (withConnection_forced refreshed.2 s)
      rcases h with h | h
      · exact onRefreshed_served (.inl (h.of_info hforced))
      cases husable : Connection.usableTransport (env.connectionEnv st.onlineTransports) uri with
      | none =>
          rw [husable] at h
          have hheld : ((s.dropExchange dropped).withConnection refreshed.2).HeldByReload st :=
            ⟨hforced.trans h, .inr (.inr (offline_of_unusable hrank husable))⟩
          exact onRefreshed_served (.inl hheld)
      | some info =>
          rw [husable] at h
          rcases h with hsocket | ⟨hok, hsends⟩
          · refine .inr (.inl ?_)
            unfold active
            rw [onRefreshed_connection]
            show refreshed.2.socket.isSome = false
            rw [hsocket]
            rfl
          · rw [← hinfo] at hsends
            refine onRefreshed_served (.inr ⟨?_, hsends⟩)
            have hbind : (some uri).bind (Connection.usableTransport (env.connectionEnv st.onlineTransports)) = some info :=
              husable
            rw [← hrefreshed] at hok ⊢
            exact Connection.refresh_usable hbind hok

theorem rescheduleUpdate_owed {env : ServerEnv} {st : State} {s : Server}
    (h : s.Owed st ∨ s.updateScheduled env st.inProgress = true) : (s.rescheduleUpdate env st.inProgress).Owed st := by
  have hasked : ∀ {b : Bool}, s.updateScheduled env st.inProgress = b → s.active = true →
      b = (st.inProgress || env.schedule) := by
    intro b hb hactive
    rw [← hb, updateScheduled, hactive, Bool.true_and]
  unfold rescheduleUpdate
  cases hactive : s.active with
  | false =>
      rcases h with h | h
      · exact h
      · rw [updateScheduled, hactive] at h
        cases h
  | true =>
      cases hprogress : st.inProgress with
      | true => exact .inr ⟨rfl, .inr (.inl hprogress)⟩
      | false =>
          cases hschedule : env.schedule with
          | true => exact .inl (.inl rfl)
          | false =>
              rcases h with h | h
              · exact h
              · have := hasked h hactive
                rw [hprogress, hschedule] at this
                cases this

/-- While a job is taken from its handle, what was owed because of it is not. -/
theorem Owed.cases {st : State} {s : Server} (h : s.Owed st) :
    s.HeldByReload st ∨ s.nextAction = some (.sendUpdate .zero) ∨
      s.updateForced = true ∧ ∃ delay, s.nextAction = some (.refreshServer delay) := by
  rcases h with (h | h) | h
  · exact .inr (.inl h)
  · exact .inr (.inr h)
  · exact .inl h

theorem deactivate_inactive {env : ServerEnv} {delay : Duration} {s s' : Server} (h : s.deactivate env delay = some s') :
    s'.active = false := by
  unfold deactivate schedActivate at h
  dsimp only at h
  by_cases hvalid : delay.valid = true
  · rw [if_pos hvalid] at h
    cases hschedule : env.schedule with
    | true =>
        rw [hschedule] at h
        obtain rfl := Option.some.inj h
        rfl
    | false =>
        rw [hschedule] at h
        cases h
  · rw [if_neg hvalid] at h
    obtain rfl := Option.some.inj h
    rfl

theorem runAction_served {env : ServerEnv} {st : State} {s s' : Server} (howed : s.Owed st)
    (hkeeps : s.HeldByReload st ∨ s.ActionServes env st) (h : s.runAction env st = some s') : s'.Served st := by
  unfold runAction at h
  unfold ActionServes at hkeeps
  cases hjob : s.nextAction with
  | none =>
      rw [hjob] at h
      obtain rfl := Option.some.inj h
      exact .inr (.inr howed)
  | some job =>
      rw [hjob] at h hkeeps
      -- without the job, what is left is owed for the reload to come
      have hheld : (∀ delay, job ≠ .sendUpdate delay) → (∀ delay, job ≠ .refreshServer delay) → s.HeldByReload st := by
        intro hupdate hrefresh
        rcases howed.cases with h | h | ⟨-, delay, h⟩
        · exact h
        · exact absurd (Option.some.inj (hjob.symm.trans h)) (hupdate _)
        · exact absurd (Option.some.inj (hjob.symm.trans h)) (hrefresh _)
      cases job with
      | sendUpdate delay =>
          change (if s.active = true then _ else _) = _ at h
          by_cases hactive : s.active = true
          · rw [if_pos hactive] at h
            obtain rfl := Option.some.inj h
            refine activeServerRefresh_served ?_
            rcases hkeeps with hreload | htocome | hserves
            · exact .inl ⟨rfl, hreload.2⟩
            · exact .inl ⟨rfl, htocome⟩
            · exact .inr hserves
          · rw [if_neg hactive] at h
            obtain rfl := Option.some.inj h
            exact .inr (.inl (eq_false_of_ne_true hactive))
      | refreshServer delay =>
          change (if st.inProgress = true then _ else _) = _ at h
          by_cases hprogress : st.inProgress = true
          · rw [if_pos hprogress] at h
            obtain rfl := Option.some.inj h
            rcases howed.cases with h | h | ⟨hforced, -⟩
            · exact HeldByReload.served h
            · exact nomatch hjob.symm.trans h
            · exact HeldByReload.served ⟨hforced, .inr (.inl hprogress)⟩
          · rw [if_neg hprogress] at h
            obtain rfl := Option.some.inj h
            refine activeServerRefresh_served ?_
            rcases hkeeps with hreload | h | hserves
            · exact .inl hreload
            · exact absurd h hprogress
            · exact .inr hserves
      | serverCommunicationError =>
          obtain rfl := Option.some.inj h
          exact .inr (.inl rfl)
      | disableServer =>
          change (match env.disableTimeout with | none => _ | some timeout => _) = _ at h
          cases htimeout : env.disableTimeout with
          | none =>
              rw [htimeout] at h
              obtain rfl := Option.some.inj h
              exact HeldByReload.served (hheld nofun nofun)
          | some timeout =>
              rw [htimeout] at h
              exact .inr (.inl (deactivate_inactive h))
      | disableServerWithTimeout timeout => exact .inr (.inl (deactivate_inactive h))

theorem responseResult_needsRegister {env : Reg.Env} {requestState : Reg.RequestState} (h : needsRegister requestState)
    (hregisters : env.Registers) : Reg.responseResult .receiveUpdateResponse env requestState = none := by
  have hrejected : ∀ response, Reg.checkUpdateResponse response ≠ .success →
      Reg.registrationUpdateResult env (Reg.checkUpdateResponse response) = none := by
    intro response hresponse
    refine (Reg.registrationUpdateResult_eq_none_iff env _).mpr ⟨.inr ?_, hregisters⟩
    unfold Reg.checkUpdateResponse at hresponse ⊢
    split at hresponse
    · exact absurd rfl hresponse
    next hcode => rw [if_neg hcode]
  cases requestState with
  | ok response => exact hrejected response h
  | partialContent response => exact hrejected response h
  | fail err => exact (Reg.registrationUpdateResult_eq_none_iff env _).mpr ⟨.inl h, hregisters⟩
  | cancel => exact h.elim

theorem responseResult_refused {handler : Reg.ResponseHandler} {env : Reg.Env} {requestState : Reg.RequestState}
    (h : requestState.accepted handler = false) : Reg.responseResult handler env requestState ≠ some .success := by
  have hregister : ∀ result, result ≠ Reg.RegistrationResult.success →
      some (Reg.registerResponseResult result) ≠ some .success :=
    fun result hresult hsome => hresult (Reg.ServerInfo.registerResponseResult_success.mp (Option.some.inj hsome))
  have hupdate : ∀ result, result ≠ Reg.RegistrationResult.success →
      Reg.registrationUpdateResult env result ≠ some .success :=
    fun result hresult => Reg.registrationUpdateResult_ne_success hresult
  cases handler with
  | receiveRegisterResponse =>
      cases requestState with
      | ok response => exact hregister _ (of_decide_eq_false h)
      | partialContent response => exact hregister _ (of_decide_eq_false h)
      | fail err => exact hregister _ (Reg.ServerInfo.mapCoapError_ne_success err)
      | cancel => exact nofun
  | receiveUpdateResponse =>
      cases requestState with
      | ok response => exact hupdate _ (of_decide_eq_false h)
      | partialContent response => exact hupdate _ (of_decide_eq_false h)
      | fail err => exact hupdate _ (Reg.ServerInfo.mapCoapError_ne_success err)
      | cancel => exact nofun

theorem endExchange_served {env : ServerEnv} {st : State} {requestState : Reg.RequestState} {s : Server}
    (hcancel : requestState ≠ .cancel) (howed : s.Owed st)
    (hkeeps : ∀ e, s.info.exchange = some e →
      requestState.accepted e.handler = false ∧ s.HeldByReload st ∨ s.AnswerServes env e requestState) :
    (s.endExchange env requestState).Served st := by
  unfold endExchange
  cases he : s.info.exchange with
  | none => exact .inr (.inr howed)
  | some e =>
      have hreported : s.info.Reported (s.info.receiveResponse e.handler (env.registrationEnv s.connection) requestState)
          (Reg.responseResult e.handler (env.registrationEnv s.connection) requestState) :=
        Reg.ServerInfo.receiveResponse_reported hcancel s.info
      rcases hkeeps e he with ⟨haccepts, hheld⟩ | ⟨hhandler, hneeds, hregisters⟩
      · exact report_served hreported (responseResult_refused haccepts) (.inr hheld)
      · have hnone := responseResult_needsRegister hneeds hregisters
        rw [← hhandler] at hnone
        refine report_served hreported (fun hsome => ?_) (.inl hnone)
        rw [hnone] at hsome
        cases hsome

theorem bringOnline_served {env : ServerEnv} {st : State} {s : Server} (howed : s.Owed st)
    (hkeeps : (UpdateEvent.bringOnline env).Keeps st s) : (s.bringOnline env st.onlineTransports).Served st := by
  unfold bringOnline
  cases honline : st.onlineTransports s.connection.transport with
  | false => exact .inr (.inr howed)
  | true =>
      have hinfo := s.dropExchange_registrationInfo
        (!(s.connection.internalBringOnline (env.connectionEnv st.onlineTransports)).2.coapCtx)
      refine onRefreshed_served ?_
      rcases hkeeps honline with hheld | ⟨hok, hsends⟩
      · exact .inl (hheld.of_info (congrArg Reg.RegistrationInfo.updateForced hinfo))
      · rw [← hinfo] at hsends
        exact .inr ⟨Connection.internalBringOnline_ok hok, hsends⟩

theorem interruptOffline_owed {onlineTransports : Transport → Bool} {st : State} {s : Server} (howed : s.Owed st)
    (hkeeps : onlineTransports s.connection.transport = false → s.updateForced = true) (hreload : st.reloadJob = true) :
    (s.interruptOffline onlineTransports).Owed st := by
  unfold interruptOffline
  split
  next h =>
    have hoffline := (Bool.and_eq_true_iff.mp h).2
    rw [Bool.not_eq_true'] at hoffline
    exact .inr ⟨hkeeps hoffline, .inl hreload⟩
  next => exact howed

end Server

/-- What is owed when nothing changes but what is to come. -/
theorem Server.Owed.of_reload {st st' : State} {s : Server} (h : s.Owed st)
    (hreload : s.HeldByAction ∨ st'.ReloadToCome) : s.Owed st' := by
  rcases h with h | h
  · exact .inl h
  · exact hreload.imp_right fun hcome => ⟨h.1, hcome⟩

theorem State.ReloadToCome.of_eq {st st' : State} (h : { st with reloadJob := false }.ReloadToCome)
    (hprogress : st'.inProgress = st.inProgress) (honline : st'.onlineTransports = st.onlineTransports) :
    st'.ReloadToCome := by
  rcases h with h | h | h
  · cases h
  · exact .inr (.inl (hprogress.trans h))
  · exact .inr (.inr fun transport ht => honline ▸ h transport ht)

/-- The reload of a server that is active: it stays as it is, or is refreshed soon. -/
theorem reloadServer_active {env : ServerEnv} {st : State} {s : Server} (hserver : st.server = some s)
    (hactive : s.active = true) :
    st.inProgress = true ∧ st.reloadServer env = (true, s) ∨
      st.inProgress = false ∧ env.schedule = true ∧
        st.reloadServer env = (true, { s with nextAction := some (.refreshServer .zero) }) ∨
      st.inProgress = false ∧ env.schedule = false ∧ st.reloadServer env = (false, s) := by
  unfold State.reloadServer
  rw [hserver]
  dsimp only
  cases st.inProgress with
  | true => exact .inl ⟨rfl, rfl⟩
  | false =>
      rw [if_neg Bool.false_ne_true, if_pos hactive]
      cases env.schedule with
      | true => exact .inr (.inl ⟨rfl, rfl, rfl⟩)
      | false => exact .inr (.inr ⟨rfl, rfl, rfl⟩)

theorem reload_owed {env : ServerEnv} {found otherFailed : Bool} {st : State} {s s' : Server}
    (hserver : st.server = some s) (hactive : s.active = true) (howed : s.Owed st)
    (hkeeps : (UpdateEvent.reload env found otherFailed).Keeps st s)
    (h : (st.reload env found otherFailed).server = some s') : s'.Owed (st.reload env found otherFailed) := by
  obtain ⟨hforced, hfailed⟩ := hkeeps
  have hlate : env.scheduleReload = true ∨ s.HeldByAction ∨ { st with reloadJob := false }.ReloadToCome →
      ∀ st' : State, st'.inProgress = st.inProgress → st'.onlineTransports = st.onlineTransports →
        (env.scheduleReload = true → st'.reloadJob = true) → s.Owed st' := by
    intro hcases st' hprogress honline hjob
    refine howed.of_reload ?_
    rcases hcases with h | h | h
    · exact .inr (.inl (hjob h))
    · exact .inl h
    · exact .inr (h.of_eq hprogress honline)
  unfold State.reload at h ⊢
  cases found with
  | true =>
      rw [if_pos rfl] at h ⊢
      dsimp only at h ⊢
      rcases reloadServer_active hserver hactive with ⟨hprogress, hr⟩ | ⟨hprogress, hschedule, hr⟩ | ⟨hprogress, hschedule, hr⟩
      · rw [hr] at h ⊢
        obtain rfl := Option.some.inj h
        exact howed.of_reload (.inr (.inr (.inl hprogress)))
      · rw [hr] at h ⊢
        obtain rfl := Option.some.inj h
        exact .inl (.inr ⟨hforced rfl hprogress hschedule, .zero, rfl⟩)
      · rw [hr] at h ⊢
        obtain rfl := Option.some.inj h
        exact hlate (hfailed (.inl ⟨rfl, hschedule⟩)) _ rfl rfl fun h => h
  | false =>
      rw [if_neg Bool.false_ne_true] at h ⊢
      cases otherFailed with
      | true =>
          rw [if_pos rfl] at h ⊢
          have hsame : s' = s := by
            change st.server.filter Server.active = some s' at h
            rw [hserver, Option.filter_some_pos hactive] at h
            exact (Option.some.inj h).symm
          rw [hsame]
          exact hlate (hfailed (.inr ⟨rfl, rfl⟩)) _ rfl rfl fun h => h
      | false =>
          rw [if_neg Bool.false_ne_true] at h
          cases h

/-- The server after an event that is about it alone. -/
theorem update_server {st : State} {s s' : Server} {f : Server → Option Server} (hserver : st.server = some s)
    (h : (st.update f).server = some s') : f s = some s' := by
  change st.server.bind f = some s' at h
  rw [hserver] at h
  exact h

theorem updated_server {st : State} {s s' : Server} {f : Server → Server} (hserver : st.server = some s)
    (h : (st.update fun s => some (f s)).server = some s') : f s = s' :=
  Option.some.inj (update_server (f := fun s => some (f s)) hserver h)

theorem startBootstrap_owed {st : State} {s s' : Server} (hserver : st.server = some s) (hactive : s.active = true)
    (howed : s.Owed st) (h : st.startBootstrap.server = some s') : s'.Owed st.startBootstrap := by
  unfold State.startBootstrap at h ⊢
  by_cases hprogress : st.inProgress = true
  · rw [if_pos hprogress] at h ⊢
    obtain rfl := Option.some.inj (hserver.symm.trans h)
    exact howed
  · rw [if_neg hprogress] at h ⊢
    have hs := update_server (f := fun s => if s.active then some s.suspend else none) hserver h
    rw [if_pos hactive] at hs
    obtain rfl := Option.some.inj hs
    exact howed.of_reload (.inr (.inr (.inl rfl)))

/-- **One event, while an Update is owed**: a message is sent, the server is deactivated, or it is still owed. -/
theorem served_step {st : State} {s s' : Server} (event : UpdateEvent) (hserver : st.server = some s)
    (hactive : s.active = true) (howed : s.Owed st) (hkeeps : event.Keeps st s)
    (h : (event.act st).server = some s') : s'.Served (event.act st) := by
  cases event with
  | scheduleRegistrationUpdate env =>
      obtain rfl := updated_server (f := Server.rescheduleUpdate env st.inProgress) hserver h
      exact .inr (.inr (Server.rescheduleUpdate_owed (.inl howed)))
  | runAction env => exact Server.runAction_served howed hkeeps (update_server (f := Server.runAction env st) hserver h)
  | answer env partialContent response =>
      obtain rfl := updated_server
        (f := Server.endExchange env (if partialContent then .partialContent response else .ok response)) hserver h
      cases partialContent with
      | true => exact Server.endExchange_served nofun howed hkeeps
      | false => exact Server.endExchange_served nofun howed hkeeps
  | failure env err =>
      obtain rfl := updated_server (f := Server.endExchange env (.fail err)) hserver h
      exact Server.endExchange_served nofun howed fun e he => (hkeeps e he).imp_left fun h => ⟨rfl, h⟩
  | reload env found otherFailed => exact .inr (.inr (reload_owed hserver hactive howed hkeeps h))
  | scheduleReload =>
      obtain rfl := Option.some.inj (hserver.symm.trans h)
      exact .inr (.inr (howed.of_reload (.inr (.inl rfl))))
  | setOnline onlineTransports =>
      obtain rfl := updated_server (f := Server.interruptOffline onlineTransports) hserver h
      have hreload : s.Owed (UpdateEvent.act (.setOnline onlineTransports) st) := howed.of_reload (.inr (.inl rfl))
      exact .inr (.inr (Server.interruptOffline_owed hreload hkeeps rfl))
  | startBootstrap => exact .inr (.inr (startBootstrap_owed hserver hactive howed h))
  | endBootstrap withReload =>
      obtain rfl := Option.some.inj (hserver.symm.trans h)
      refine .inr (.inr (howed.of_reload ?_))
      rcases hkeeps with hreload | hheld | hcome
      · exact .inr (.inl (Bool.or_eq_true_iff.mpr (.inr hreload)))
      · exact .inl hheld
      · refine .inr (hcome.imp (fun h => ?_) id)
        exact Bool.or_eq_true_iff.mpr (.inl h)
  | disable env timeout =>
      obtain rfl := updated_server (f := Server.disable env timeout) hserver h
      refine Server.HeldByReload.served (Server.HeldByReload.of_info hkeeps ?_)
      unfold Server.disable
      rw [hactive]
      cases timeout with
      | none => rfl
      | some timeout => rfl
  | bringOnline env =>
      obtain rfl := updated_server (f := fun s => s.bringOnline env st.onlineTransports) hserver h
      exact Server.bringOnline_served howed hkeeps
  | fatalCoapError env =>
      obtain rfl := updated_server (f := fun s => s.onFatalCoapError env st.onlineTransports) hserver h
      exact Server.activeServerRefresh_served (hkeeps.imp_right Server.RefreshServes.dropExchange)
  | suspend =>
      obtain rfl := updated_server (f := Server.suspend) hserver h
      exact .inr (.inr howed)

/-! ## 4. Runs -/

/-- While an Update is owed to the server, the event keeps it. -/
def UpdateEvent.KeepsOwed (event : UpdateEvent) (r : UpdateRun) : Prop :=
  r.requested = true → ∀ s, r.state.server = some s → event.Keeps r.state s

/-- An Update that was asked for is owed. -/
def UpdateRun.Kept (r : UpdateRun) : Prop :=
  r.requested = true → ∃ s, r.state.server = some s ∧ s.active = true ∧ s.Owed r.state

theorem waits_server {st : State} (h : st.waits = true) :
    ∃ s, st.server = some s ∧ s.active = true ∧ s.info.outbox = [] := by
  obtain ⟨s, hs, hboth⟩ := (Option.any_eq_true _ _).mp h
  obtain ⟨hactive, hempty⟩ := Bool.and_eq_true_iff.mp hboth
  exact ⟨s, hs, hactive, List.isEmpty_iff.mp hempty⟩

theorem asks_owed {event : UpdateEvent} {st : State} {s' : Server} (h : event.asks st = true)
    (hs' : (event.act st).server = some s') : s'.Owed (event.act st) := by
  cases event with
  | scheduleRegistrationUpdate env =>
      obtain ⟨s, hserver, hscheduled⟩ := (Option.any_eq_true _ _).mp h
      obtain rfl := updated_server (f := Server.rescheduleUpdate env st.inProgress) hserver hs'
      exact Server.rescheduleUpdate_owed (.inr hscheduled)
  | runAction env => cases h
  | answer env partialContent response => cases h
  | failure env err => cases h
  | reload env found otherFailed => cases h
  | scheduleReload => cases h
  | setOnline onlineTransports => cases h
  | startBootstrap => cases h
  | endBootstrap withReload => cases h
  | disable env timeout => cases h
  | bringOnline env => cases h
  | fatalCoapError env => cases h
  | suspend => cases h

theorem kept_step {r : UpdateRun} {event : UpdateEvent} (h : r.Kept) (hkeeps : event.KeepsOwed r) :
    (r.perform event).Kept := by
  intro hrequested
  obtain ⟨hasked, hwaits⟩ := Bool.and_eq_true_iff.mp hrequested
  obtain ⟨s', hs', hactive', hempty⟩ := waits_server hwaits
  have howed : s'.Owed (event.act r.state) := by
    rcases Bool.or_eq_true_iff.mp hasked with hbefore | hasks
    · obtain ⟨s, hserver, hactive, howed⟩ := h hbefore
      rcases served_step event hserver hactive howed (hkeeps hbefore s hserver) hs' with hsent | hinactive | howed'
      · exact absurd hempty hsent
      · rw [hactive'] at hinactive
        cases hinactive
      · exact howed'
    · exact asks_owed hasks hs'
  refine ⟨{ s' with info := { s'.info with outbox := [] } }, ?_, hactive', howed⟩
  show (event.act r.state).server.bind _ = _
  rw [hs']
  rfl

/-- **An Update that was asked for**: until a message is sent or the server is deactivated, it is owed, in the
    runs in which nothing takes its place. -/
theorem reachable_served {r : UpdateRun} (h : r.ReachableWith UpdateEvent.KeepsOwed) (hrequested : r.requested = true) :
    ∃ s, r.state.server = some s ∧ s.active = true ∧ s.Owed r.state := by
  have hkept : ∀ {r : UpdateRun}, r.ReachableWith UpdateEvent.KeepsOwed → r.Kept := by
    intro r h
    induction h with
    | init => exact nofun
    | step event _ hc ih => exact kept_step ih hc
  exact hkept h hrequested

/-! ## 5. A run in which the Update is lost -/

/-- Everything succeeds, with "coap://h/p" and the object list "</1>". -/
def regularEnv : ServerEnv where
  connection := { plainEnv with now := ⟨1, 0⟩ }
  registration := ⟨⟨1, 0⟩, .zero, true, Reg.bindingModeUdp, some (.ofBytes [60, 47, 49, 62]), some 86400, none, none, none, none⟩
  config := some uriWithPath
  untilUpdate := ⟨86000, 0⟩
  disableTimeout := none
  legacyServerInitiatedAllowed := false
  schedule := true
  scheduleError := true
  scheduleReload := true

/-- A Register was sent. -/
def registering : UpdateRun :=
  (UpdateRun.init.perform (.reload regularEnv true false)).perform (.runAction regularEnv)

/-- An Update is asked for, before the answer to the Register. -/
def updateAsked : UpdateRun := registering.perform (.scheduleRegistrationUpdate regularEnv)

/-- "2.01 Created". -/
def createdResponse : Reg.Response := ⟨65, some [.ofBytes [114, 100]]⟩

def answered : UpdateRun := updateAsked.perform (.answer regularEnv false createdResponse)

theorem answered_state : answered.requested = true ∧ answered.state.reloadJob = false ∧ answered.state.inProgress = false ∧
    (answered.state.server.any fun s => s.active && !s.updateForced &&
      decide (s.nextAction = some (.sendUpdate ⟨86000, 0⟩))) = true := by decide +kernel

/-- The answer to the Register puts the next Update in the place of the one that was asked for. -/
theorem served_not_always :
    ∃ r : UpdateRun, r.ReachableWith (fun _ _ => True) ∧ r.requested = true ∧
      ∃ s, r.state.server = some s ∧ s.active = true ∧ ¬s.Owed r.state := by
  obtain ⟨hrequested, hreload, hprogress, hserver⟩ := answered_state
  obtain ⟨s, hs, hboth⟩ := (Option.any_eq_true _ _).mp hserver
  obtain ⟨hleft, hjob⟩ := Bool.and_eq_true_iff.mp hboth
  obtain ⟨hactive, hforced⟩ := Bool.and_eq_true_iff.mp hleft
  rw [Bool.not_eq_true'] at hforced
  have hjob : s.nextAction = some (.sendUpdate ⟨86000, 0⟩) := of_decide_eq_true hjob
  have hreach : answered.ReachableWith (fun _ _ => True) :=
    .step _ (.step _ (.step _ (.step _ .init trivial) trivial) trivial) trivial
  refine ⟨answered, hreach, hrequested, s, hs, hactive, ?_⟩
  rintro ((h | ⟨h, -⟩) | ⟨h, -⟩)
  · rw [hjob] at h
    exact absurd h (by decide)
  · rw [hforced] at h
    cases h
  · rw [hforced] at h
    cases h

/-- A bootstrap begins after the call, and the Update cannot be sent while it lasts. -/
def unsent : UpdateRun :=
  (updateAsked.perform .startBootstrap).perform (.runAction { regularEnv with config := none })

/-- The bootstrap ends, and the servers are reloaded. -/
def reloaded : UpdateRun := (unsent.perform (.endBootstrap true)).perform (.reload regularEnv true false)

theorem unsent_forced : (unsent.perform (.endBootstrap true)).state.server.all Server.updateForced = true := by
  decide +kernel

theorem reachable_served_reloaded :
    reloaded.requested = true ∧ ∃ s, reloaded.state.server = some s ∧ s.active = true ∧ s.Owed reloaded.state := by
  have hrequested : reloaded.requested = true := by decide +kernel
  have hquiet : ∀ event r, r.requested = false → UpdateEvent.KeepsOwed event r := by
    intro event r hno hyes
    rw [hno] at hyes
    cases hyes
  have hregistering : registering.ReachableWith UpdateEvent.KeepsOwed :=
    .step _ (.step _ .init (hquiet _ _ rfl)) (hquiet _ _ (by decide +kernel))
  have hasked : updateAsked.ReachableWith UpdateEvent.KeepsOwed :=
    .step _ hregistering (hquiet _ _ (by decide +kernel))
  have hunsent : unsent.ReachableWith UpdateEvent.KeepsOwed := by
    refine .step _ (.step .startBootstrap hasked fun _ _ _ => trivial) fun _ s _ => Or.inr ?_
    unfold Server.ActionServes
    split
    · exact Or.inl (Or.inr (Or.inl rfl))
    · exact Or.inl rfl
    · trivial
  have hreloaded : reloaded.ReachableWith UpdateEvent.KeepsOwed := by
    refine .step _ (.step (.endBootstrap true) hunsent fun _ _ _ => Or.inl rfl) fun _ s hs => ⟨fun _ _ _ => ?_, ?_⟩
    · have hforced := unsent_forced
      rw [hs] at hforced
      exact hforced
    · rintro (⟨-, hschedule⟩ | ⟨hfound, -⟩)
      · cases hschedule
      · cases hfound
  exact ⟨hrequested, reachable_served hreloaded hrequested⟩

end Anjay.Servers
