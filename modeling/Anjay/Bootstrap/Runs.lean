/-
  File:      Anjay/Bootstrap/Runs.lean
  Subject:   Runs of the bootstrap module: the requests of the Bootstrap Server, the answers to Request Bootstrap,
             regular connections that become available, failures and the jobs, in any order.

  * `reachable_bracketed`: the phase is entered and left in turn, and one transaction level is open in it.
  * `phase_end_reloads`: if the configuration can be committed, the end of the phase has a reload scheduled.
-/
import Anjay.Bootstrap.Phase

namespace Anjay.Bootstrap

open Dm Dm.Transaction

/-! ## 1. Events -/

/-- `AVS_COAP_CODE_CHANGED`. -/
def codeChanged : Nat := 68

/-- A request of the Bootstrap Server, with what it does to the data model and what that returns. -/
inductive Request
  | write (inputCtx : Int) (uri : UriPath) (work : Work) (ret : Int)
  | delete (isBsUri : Bool) (uri : UriPath) (work : Work) (ret : Int)
  | discover (ret : Int)
  | finish
  | other

/-- How the exchange of a Request Bootstrap goes on: `avs_coap_client_request_state_t`. -/
inductive Answer
  | partialContent (code : Nat)
  | ok (code : Nat)
  | fail
  | cancel

/-- A server that is not the Bootstrap Server. -/
abbrev RegularServer := { s : ServerInfo // s.ssid ≠ ssidBootstrap }

/-- What happens to the bootstrap module and around it. A regular connection becomes available while the answer of its
    server is handled, or out of a job, when no connection is served. -/
inductive Event
  | request (env : Env) (request : Request)
  | answer (env : Env) (answer : Answer)
  | regularAvailable (env : Env) (current : Option RegularServer)
  | serverFailed (env : Env)
  | cleanup (env : Env)
  | purgeBootstrap (env : Env) (work : Work) (ret : Int)
  | requestBootstrap (sent : Bool)
  | clientInitiatedScheduled
  | triggered
  | dataModel (work : Work)
  | reloadScheduled
  | reload (servers : List ServerInfo)
  | serversChange (servers : List ServerInfo)

namespace Client

/-- The data model is changed. -/
def work (w : Work) (c : Client) : Option Client :=
  (run w.1 c.transaction).map fun transaction => { c with transaction := transaction }

/-- `bootstrap_write`, `bootstrap_write_impl`. -/
def bootstrapWrite (inputCtx : Int) (uri : UriPath) (w : Work) (ret : Int) (current : Option ServerInfo) (c : Client) :
    Option (Int × Client) :=
  if inputCtx ≠ 0 then some (inputCtx, c)
  else if !uri.has .oid || uri.has .riid then some (errMethodNotAllowed, c)
  else ((c.cancelClientInitiatedBootstrap.startBootstrap current).work w).map fun c => (ret, c)

/-- `bootstrap_delete`. -/
def bootstrapDelete (isBsUri : Bool) (uri : UriPath) (w : Work) (ret : Int) (current : Option ServerInfo)
    (c : Client) : Option (Int × Client) :=
  let c := c.cancelClientInitiatedBootstrap.startBootstrap current
  if isBsUri || uri.has .rid then some (errBadRequest, c) else (c.work w).map fun c => (ret, c)

/-- `schedule_finish_timeout`. -/
def scheduleFinishTimeout (env : Env) (c : Client) : Client :=
  { c with
    bootstrap := { c.bootstrap with finishTimeoutHandle := c.bootstrap.finishTimeoutHandle || env.scheduleFinishTimeout } }

def deleteFinishTimeout (c : Client) : Client :=
  { c with bootstrap := { c.bootstrap with finishTimeoutHandle := false } }

/-- `invoke_action`. -/
def invokeAction (env : Env) (current : Option ServerInfo) (request : Request) (c : Client) : Option Client :=
  let c := c.deleteFinishTimeout
  match request with
  | .write inputCtx uri w ret =>
      (c.bootstrapWrite inputCtx uri w ret current).map fun r => r.2.scheduleFinishTimeout env
  | .delete isBsUri uri w ret =>
      (c.bootstrapDelete isBsUri uri w ret current).map fun r => r.2.scheduleFinishTimeout env
  | .discover _ | .other => some (c.scheduleFinishTimeout env)
  | .finish =>
      let finished := c.bootstrapFinish env current
      some (if finished.1 ≠ 0 then finished.2.scheduleFinishTimeout env else finished.2)

/-- The part of `bootstrap_request_response_handler` that looks at the code of the response. -/
def bootstrapStarted (env : Env) (code : Nat) (server : ServerInfo) (c : Client) : Client :=
  if code ≠ codeChanged then c else (c.startBootstrap (some server)).scheduleFinishTimeout env

def clearTrigger (c : Client) : Client := { c with bootstrap := { c.bootstrap with bootstrapTrigger := false } }

/-- `bootstrap_request_response_handler`. -/
def responseHandler (env : Env) (answer : Answer) (sentOn : Nat) (server : ServerInfo) (c : Client) : Client :=
  match answer with
  | .partialContent code => (c.clearTrigger.exchangeCancel server sentOn).bootstrapStarted env code server
  | .ok code => c.requestCancelled.clearTrigger.bootstrapStarted env code server
  | .fail => c.requestCancelled.clearTrigger
  | .cancel => c.requestCancelled

/-- A request or an answer of the Bootstrap Server is handled. -/
def recordProcessed (server : ServerInfo) (c : Client) : Client := { c with processed := c.processed ++ [server] }

/-- The servers are others now. An exchange ends with the CoAP context that it was sent on. -/
def changeServers (servers : List ServerInfo) (c : Client) : Client :=
  let changed := { c with servers := servers }
  { changed with
    bootstrap := { c.bootstrap with
      outgoingRequestExchange := c.bootstrap.outgoingRequestExchange.filter fun sentOn =>
        changed.activeBootstrapServer.any fun server => server.coapCtx == sentOn }
    unchanged := c.unchanged &&
      c.bootstrapServer.map ServerInfo.sessionToken == changed.bootstrapServer.map ServerInfo.sessionToken }

/-- `_anjay_server_clean_active_data` of the Bootstrap Server, and `refresh_failed` is set. -/
def failBootstrapServer (c : Client) : Client :=
  c.changeServers
    (c.servers.map fun s => if s.isBootstrap then { s with active := false, refreshFailed := true } else s)

/-- `purge_bootstrap`, where the account is found. -/
def purgeBootstrap (env : Env) (w : Work) (ret : Int) (c : Client) : Option Client :=
  (openLevel { c with bootstrap := { c.bootstrap with purgeBootstrapHandle := false } } |>.work w).map fun c =>
    (c.closeLevel (transactionFinish env.handlers ret)).2

/-- `request_bootstrap_job` with `send_request_bootstrap`. -/
def requestBootstrapJob (sent : Bool) (c : Client) : Client :=
  let c := c.cancelClientInitiatedBootstrap
  match c.activeBootstrapServer with
  | none => c.clearTrigger
  | some server =>
      if sessionTokensEqual c.bootstrap.bootstrapSessionToken server.sessionToken then c.clearTrigger
      else if !server.online then c.clearTrigger
      else if sent then { c with bootstrap := { c.bootstrap with outgoingRequestExchange := some server.coapCtx } }
      else c.clearTrigger

/-- An event. Requests and answers come over the connection of the Bootstrap Server, jobs run if they are scheduled. -/
def perform (event : Event) (c : Client) : Option Client :=
  match event with
  | .request env request =>
      match c.activeBootstrapServer with
      | none => some c
      | some server => (c.recordProcessed server).invokeAction env (some server) request
  | .answer env answer =>
      match c.bootstrap.outgoingRequestExchange, c.activeBootstrapServer with
      | some sentOn, some server => some ((c.recordProcessed server).responseHandler env answer sentOn server)
      | _, _ => some c
  | .regularAvailable env current => some (c.notifyRegularConnectionAvailable env (current.map Subtype.val)).2
  | .serverFailed env => some (c.failBootstrapServer.bootstrapCleanup env)
  | .cleanup env => some ((c.changeServers []).bootstrapCleanup env)
  | .purgeBootstrap env w ret => if c.bootstrap.purgeBootstrapHandle then c.purgeBootstrap env w ret else some c
  | .requestBootstrap sent =>
      some (if c.bootstrap.clientInitiatedBootstrapHandle then c.requestBootstrapJob sent else c)
  | .clientInitiatedScheduled =>
      some (if c.requestedBootstrapAction then
        { c with bootstrap := { c.bootstrap with clientInitiatedBootstrapHandle := true } } else c)
  | .triggered => some { c with bootstrap := { c.bootstrap with bootstrapTrigger := true } }
  | .dataModel w => c.work w
  | .reloadScheduled => some { c with reloadServersJob := true }
  | .reload servers =>
      some (if c.reloadServersJob then ({ c with reloadServersJob := false } : Client).changeServers servers else c)
  | .serversChange servers => some (c.changeServers servers)

/-! ## 2. The level of the phase in a run -/

theorem work_same {w : Work} {c c' : Client} (h : c.work w = some c') : SamePhase c c' := by
  obtain ⟨transaction, hrun, rfl⟩ := Option.map_eq_some_iff.mp h
  exact ⟨run_depth w.1 w.2 (Nat.zero_le _) hrun, rfl, rfl, fun _ => rfl⟩

theorem bootstrapWrite_bracketed {inputCtx : Int} {uri : UriPath} {w : Work} {ret : Int}
    {current : Option ServerInfo} {c : Client} {r : Int × Client} (h : Bracketed c)
    (hrun : c.bootstrapWrite inputCtx uri w ret current = some r) :
    Bracketed r.2 ∧ (c.bootstrap.inProgress = true → r.2.bootstrap.inProgress = true) := by
  unfold bootstrapWrite at hrun
  split at hrun
  · cases hrun
    exact ⟨h, id⟩
  split at hrun
  · cases hrun
    exact ⟨h, id⟩
  obtain ⟨c', hwork, rfl⟩ := Option.map_eq_some_iff.mp hrun
  have hcancelled : SamePhase c c.cancelClientInitiatedBootstrap := ⟨rfl, rfl, rfl, fun _ => rfl⟩
  obtain ⟨hstarted, hin⟩ := startBootstrap_bracketed current (h.same hcancelled)
  exact ⟨hstarted.same (work_same hwork), fun _ => (work_same hwork).inProgress.trans hin⟩

theorem bootstrapDelete_bracketed {isBsUri : Bool} {uri : UriPath} {w : Work} {ret : Int}
    {current : Option ServerInfo} {c : Client} {r : Int × Client} (h : Bracketed c)
    (hrun : c.bootstrapDelete isBsUri uri w ret current = some r) :
    Bracketed r.2 ∧ r.2.bootstrap.inProgress = true := by
  have hcancelled : SamePhase c c.cancelClientInitiatedBootstrap := ⟨rfl, rfl, rfl, fun _ => rfl⟩
  obtain ⟨hstarted, hin⟩ := startBootstrap_bracketed current (h.same hcancelled)
  unfold bootstrapDelete at hrun
  dsimp only at hrun
  split at hrun
  · cases hrun
    exact ⟨hstarted, hin⟩
  · obtain ⟨c', hwork, rfl⟩ := Option.map_eq_some_iff.mp hrun
    exact ⟨hstarted.same (work_same hwork), (work_same hwork).inProgress.trans hin⟩

/-- What a finish needs so that its end does not go wrong: once the configuration is valid, it can be committed. -/
def FinishCommits (env : Env) (c : Client) : Prop := c.Valid env → c.Commits env

/-- A reload is scheduled already, or can be. -/
def CanReload (env : Env) (c : Client) : Prop := c.reloadServersJob = true ∨ env.scheduleReload = true

/-- The end of the phase, if this is one, has a reload scheduled. -/
def EndReloads (c c' : Client) : Prop :=
  c.bootstrap.inProgress = true → c'.bootstrap.inProgress = false → c'.reloadServersJob = true

theorem EndReloads.of_inProgress {c c' : Client} (h : c.bootstrap.inProgress = true → c'.bootstrap.inProgress = true) :
    EndReloads c c' := fun hin hout => absurd (hout.symm.trans (h hin)) Bool.false_ne_true

theorem postProcess_reload (env : Env) (performTimeout disableServer : Bool) (c : Client) :
    (c.postProcess env performTimeout disableServer).2.reloadServersJob = c.reloadServersJob := by
  have htimeout : ∀ c' : Client, (c'.scheduleBootstrapTimeout env).2.reloadServersJob = c'.reloadServersJob := by
    intro c'
    unfold scheduleBootstrapTimeout
    split
    · rfl
    · split
      · split <;> rfl
      · rfl
  unfold postProcess
  dsimp only
  have hperformed : ∀ r : Int × Client, r.2.reloadServersJob = c.reloadServersJob → ∀ {p : Prop} [Decidable p],
      (if p then (r.2.disableBootstrapServer env, r.2) else r).2.reloadServersJob = c.reloadServersJob := by
    intro r h p _
    split <;> exact h
  refine hperformed _ ?_
  split
  · rfl
  · split
    · exact htimeout _
    · rfl

/-- A finish that finds the configuration valid leaves the phase with a reload, or is in it again. -/
theorem bootstrapFinishImpl_reloads {env : Env} {current : Option ServerInfo} {performTimeout disableServer : Bool}
    {c : Client} (h : Bracketed c) (hin : c.bootstrap.inProgress = true) (hcommits : c.Commits env)
    (hreload : c.CanReload env) :
    EndReloads c (c.bootstrapFinishImpl env current performTimeout disableServer).2 := by
  intro _ hout
  have hleft := leavePhase_bracketed env (transactionFinishWithoutValidation_depth env.handlers 0) h hin
  have hprocessed := hleft.same (postProcess_same env performTimeout disableServer rfl)
  rcases bootstrapFinishImpl_cases env current performTimeout disableServer h hin with
    ⟨hno, -⟩ | ⟨-, -, heq⟩ | ⟨-, -, heq⟩
  · exact absurd hcommits hno
  · rw [heq, (startBootstrap_bracketed current hprocessed).2] at hout
    cases hout
  · rw [heq]
    show (_ || env.scheduleReload) = true
    rw [postProcess_reload]
    exact Bool.or_eq_true_iff.mpr hreload

theorem validateAndFinish_reloads {env : Env} {current : Option ServerInfo} {performTimeout : Bool} {c : Client}
    (h : Bracketed c) (hcommits : c.bootstrap.inProgress = true → c.FinishCommits env)
    (hreload : c.bootstrap.inProgress = true → c.CanReload env) :
    EndReloads c (c.validateAndFinish env current performTimeout).2 := by
  intro hin
  obtain ⟨hvalidated, hstill⟩ := validate_bracketed env current h
  obtain ⟨hobjs, hjob, hvalid⟩ := validate_of_inProgress env current hin
  unfold validateAndFinish
  dsimp only
  split
  · exact EndReloads.of_inProgress (fun _ => hstill) hin
  · next hzero =>
    refine bootstrapFinishImpl_reloads hvalidated hstill ?_ ?_ hstill
    · have hc : c.Commits env := hcommits hin (hvalid.mp (not_not.mp hzero))
      rw [Commits, hobjs]
      exact hc
    · rw [CanReload, hjob]
      exact hreload hin

/-- What an event that may end the phase needs, so that it does not end without a reload. -/
def EndsCleanly (event : Event) (c : Client) : Prop :=
  match event with
  | .request env .finish => c.FinishCommits env ∧ c.CanReload env
  | .regularAvailable env _ =>
      c.bootstrap.outgoingRequestExchange = none → c.FinishCommits env ∧ c.CanReload env
  | .serverFailed env | .cleanup env => c.CanReload env
  | _ => True

theorem changeServers_same (servers : List ServerInfo) (c : Client) : SamePhase c (c.changeServers servers) :=
  ⟨rfl, rfl, rfl, fun _ => rfl⟩

theorem scheduleFinishTimeout_same (env : Env) (c : Client) : SamePhase c (c.scheduleFinishTimeout env) :=
  ⟨rfl, rfl, rfl, fun _ => rfl⟩

/-- What an event does to the level of the phase: it stays right, and the phase ends with a reload. -/
def StepOk (clean : Prop) (c c' : Client) : Prop := Bracketed c' ∧ (clean → EndReloads c c')

theorem StepOk.of_same {clean : Prop} {c c' : Client} (h : Bracketed c) (hsame : SamePhase c c') : StepOk clean c c' :=
  ⟨h.same hsame, fun _ => .of_inProgress fun hin => hsame.inProgress.trans hin⟩

theorem invokeAction_ok {env : Env} {current : Option ServerInfo} {request : Request} {c c' : Client}
    (h : Bracketed c) (hrun : c.invokeAction env current request = some c') :
    StepOk (EndsCleanly (.request env request) c) c c' := by
  have hdeleted : SamePhase c c.deleteFinishTimeout := ⟨rfl, rfl, rfl, fun _ => rfl⟩
  cases request with
  | write inputCtx uri w ret =>
      obtain ⟨r, hwrite, rfl⟩ := Option.map_eq_some_iff.mp hrun
      obtain ⟨hr, hin⟩ := bootstrapWrite_bracketed (h.same hdeleted) hwrite
      exact ⟨hr.same (scheduleFinishTimeout_same env r.2), fun _ => .of_inProgress hin⟩
  | delete isBsUri uri w ret =>
      obtain ⟨r, hdelete, rfl⟩ := Option.map_eq_some_iff.mp hrun
      obtain ⟨hr, hin⟩ := bootstrapDelete_bracketed (h.same hdeleted) hdelete
      exact ⟨hr.same (scheduleFinishTimeout_same env r.2), fun _ => .of_inProgress fun _ => hin⟩
  | discover ret =>
      cases hrun
      exact .of_same h (hdeleted.trans (scheduleFinishTimeout_same env _))
  | other =>
      cases hrun
      exact .of_same h (hdeleted.trans (scheduleFinishTimeout_same env _))
  | finish =>
      cases hrun
      have hfinished : StepOk (EndsCleanly (.request env .finish) c) c
          (c.deleteFinishTimeout.bootstrapFinish env current).2 :=
        ⟨validateAndFinish_bracketed env current true (h.same hdeleted), fun hclean =>
          validateAndFinish_reloads (c := c.deleteFinishTimeout) (h.same hdeleted) (fun _ => hclean.1)
            fun _ => hclean.2⟩
      split
      · exact ⟨hfinished.1.same (scheduleFinishTimeout_same env _), hfinished.2⟩
      · exact hfinished

theorem bootstrapStarted_bracketed (env : Env) (code : Nat) (server : ServerInfo) {c : Client} (h : Bracketed c) :
    Bracketed (c.bootstrapStarted env code server) ∧
      (c.bootstrap.inProgress = true → (c.bootstrapStarted env code server).bootstrap.inProgress = true) := by
  unfold bootstrapStarted
  split
  · exact ⟨h, id⟩
  · obtain ⟨hstarted, hin⟩ := startBootstrap_bracketed (some server) h
    exact ⟨hstarted.same (scheduleFinishTimeout_same env _), fun _ => hin⟩

theorem responseHandler_ok {clean : Prop} (env : Env) (answer : Answer) (sentOn : Nat) (server : ServerInfo)
    {c : Client} (h : Bracketed c) : StepOk clean c (c.responseHandler env answer sentOn server) := by
  have hok : ∀ code : Nat, ∀ {c1 : Client}, SamePhase c c1 → StepOk clean c (c1.bootstrapStarted env code server) :=
    fun code c1 hsame =>
      have hstarted := bootstrapStarted_bracketed env code server (h.same hsame)
      ⟨hstarted.1, fun _ => .of_inProgress fun hin => hstarted.2 (hsame.inProgress.trans hin)⟩
  have htrigger : SamePhase c c.clearTrigger := ⟨rfl, rfl, rfl, fun _ => rfl⟩
  cases answer with
  | partialContent code => exact hok code (htrigger.trans (exchangeCancel_same server sentOn _))
  | ok code => exact hok code ⟨rfl, rfl, rfl, fun _ => rfl⟩
  | fail => exact .of_same h ⟨rfl, rfl, rfl, fun _ => rfl⟩
  | cancel => exact .of_same h ⟨rfl, rfl, rfl, fun _ => rfl⟩

theorem purgeBootstrap_ok {clean : Prop} {env : Env} {w : Work} {ret : Int} {c c' : Client} (h : Bracketed c)
    (hpurge : c.bootstrap.purgeBootstrapHandle = true) (hrun : c.purgeBootstrap env w ret = some c') :
    StepOk clean c c' := by
  have hout : c.bootstrap.inProgress = false := Bool.eq_false_iff.mpr fun hin => by
    rw [h.purge hin] at hpurge
    cases hpurge
  obtain ⟨c1, hwork, rfl⟩ := Option.map_eq_some_iff.mp hrun
  have hsame := work_same hwork
  refine ⟨⟨?_, ?_, ?_⟩, fun _ hin => absurd (hout.symm.trans hin) Bool.false_ne_true⟩
  · have hdepth : c.transaction.depth = 0 := by rw [h.depth, hout]; rfl
    have hopen : c1.transaction.depth = 1 := by
      rw [hsame.depth]
      show c.transaction.depth + 1 = 1
      rw [hdepth]
    show (transactionFinish env.handlers ret c1.transaction).2.depth = if c1.bootstrap.inProgress = true then 1 else 0
    rw [transactionFinish_depth, hopen, hsame.inProgress]
    exact (if_neg (Bool.eq_false_iff.mp hout)).symm
  · show openAfter false (c1.brackets ++ [.closed]) = some c1.bootstrap.inProgress
    rw [hsame.brackets, hsame.inProgress]
    show openAfter false ((c.brackets ++ [.opened]) ++ [.closed]) = some c.bootstrap.inProgress
    rw [openAfter_append, openAfter_append, h.brackets, hout]
    rfl
  · intro hin
    exact absurd ((hsame.inProgress.trans hout).symm.trans hin) Bool.false_ne_true

theorem notifyRegularConnectionAvailable_ok {clean : Prop} (env : Env) (current : Option ServerInfo) {c : Client}
    (h : Bracketed c)
    (hclean : clean → c.bootstrap.outgoingRequestExchange = none → c.FinishCommits env ∧ c.CanReload env) :
    StepOk clean c (c.notifyRegularConnectionAvailable env current).2 := by
  refine ⟨notifyRegularConnectionAvailable_bracketed env current h, fun hc => ?_⟩
  have hreset : ∀ {r : Int × Client}, EndReloads c r.2 → EndReloads c (if r.1 = 0 then r.2.resetBackoff else r.2) := by
    intro r h
    split
    · exact h
    · exact h
  unfold notifyRegularConnectionAvailable
  split
  · exact .of_inProgress id
  · next hnone =>
    have hclean := hclean hc (Option.not_isSome_iff_eq_none.mp hnone)
    refine hreset ?_
    split
    · exact validateAndFinish_reloads h (fun _ => hclean.1) fun _ => hclean.2
    · exact .of_inProgress id

/-- **One event.** -/
theorem perform_ok {event : Event} {c c' : Client} (h : Bracketed c) (hrun : c.perform event = some c') :
    StepOk (EndsCleanly event c) c c' := by
  cases event with
  | request env request =>
      unfold perform at hrun
      dsimp only at hrun
      split at hrun
      · cases hrun
        exact .of_same h (.refl c)
      · next server _ =>
        have hrecorded : SamePhase c (c.recordProcessed server) := ⟨rfl, rfl, rfl, fun _ => rfl⟩
        obtain ⟨hb, hr⟩ := invokeAction_ok (h.same hrecorded) hrun
        refine ⟨hb, fun hclean => hr ?_⟩
        cases request <;> exact hclean
  | answer env answer =>
      unfold perform at hrun
      dsimp only at hrun
      split at hrun
      · next sentOn server _ _ =>
        cases hrun
        have hrecorded : SamePhase c (c.recordProcessed server) := ⟨rfl, rfl, rfl, fun _ => rfl⟩
        exact responseHandler_ok env answer sentOn server (h.same hrecorded)
      · cases hrun
        exact .of_same h (.refl c)
  | regularAvailable env current =>
      cases hrun
      exact notifyRegularConnectionAvailable_ok env _ h id
  | serverFailed env =>
      cases hrun
      have hfailed : SamePhase c c.failBootstrapServer := changeServers_same _ c
      obtain ⟨hclean, hout⟩ := bootstrapCleanup_bracketed env (h.same hfailed)
      refine ⟨hclean, fun hreload hin _ => ?_⟩
      rw [bootstrapCleanup_reload (hfailed.inProgress.trans hin)]
      exact Bool.or_eq_true_iff.mpr hreload
  | cleanup env =>
      cases hrun
      have hfailed : SamePhase c (c.changeServers []) := changeServers_same _ c
      obtain ⟨hclean, hout⟩ := bootstrapCleanup_bracketed env (h.same hfailed)
      refine ⟨hclean, fun hreload hin _ => ?_⟩
      rw [bootstrapCleanup_reload (hfailed.inProgress.trans hin)]
      exact Bool.or_eq_true_iff.mpr hreload
  | purgeBootstrap env w ret =>
      unfold perform at hrun
      dsimp only at hrun
      split at hrun
      · next hpurge => exact purgeBootstrap_ok h hpurge hrun
      · cases hrun
        exact .of_same h (.refl c)
  | requestBootstrap sent =>
      cases hrun
      have hjob : SamePhase c (c.requestBootstrapJob sent) := by
        unfold requestBootstrapJob
        dsimp only
        split
        · exact ⟨rfl, rfl, rfl, fun _ => rfl⟩
        · repeat' split
          all_goals exact ⟨rfl, rfl, rfl, fun _ => rfl⟩
      split
      · exact .of_same h hjob
      · exact .of_same h (.refl c)
  | clientInitiatedScheduled =>
      cases hrun
      split
      · exact .of_same h ⟨rfl, rfl, rfl, fun _ => rfl⟩
      · exact .of_same h (.refl c)
  | triggered =>
      cases hrun
      exact .of_same h ⟨rfl, rfl, rfl, fun _ => rfl⟩
  | dataModel w => exact .of_same h (work_same hrun)
  | reloadScheduled =>
      cases hrun
      exact .of_same h ⟨rfl, rfl, rfl, fun _ => rfl⟩
  | reload servers =>
      cases hrun
      split
      · exact .of_same h ⟨rfl, rfl, rfl, fun _ => rfl⟩
      · exact .of_same h (.refl c)
  | serversChange servers =>
      cases hrun
      exact .of_same h (changeServers_same servers c)

/-! ## 3. Runs -/

/-- `_anjay_bootstrap_init`. -/
def initial (allowLegacyServerInitiatedBootstrap : Bool) (now : SessionToken) : Client where
  bootstrap := ⟨allowLegacyServerInitiatedBootstrap, false, none, false, now, .empty, false, false, false, .invalid,
    .invalid⟩
  transaction := .initial
  servers := []
  reloadServersJob := false
  tokenSource := .unset
  brackets := []
  cancelled := []
  processed := []
  unchanged := true

end Client

/-- The states of the runs in which every event is one of these. -/
inductive Reachable (ok : Event → Client → Prop) : Client → Prop
  | init (allowLegacyServerInitiatedBootstrap : Bool) (now : SessionToken) :
      Reachable ok (.initial allowLegacyServerInitiatedBootstrap now)
  | step {c c' : Client} (event : Event) (h : Reachable ok c) (hok : ok event c) (hrun : c.perform event = some c') :
      Reachable ok c'

/-- **In every run, one level is open exactly in the phase**, and begins and ends follow each other in turn. -/
theorem reachable_bracketed {ok : Event → Client → Prop} {c : Client} (h : Reachable ok c) : Bracketed c := by
  induction h with
  | init allow now => exact ⟨rfl, rfl, fun _ => rfl⟩
  | step event h hok hrun ih => exact (Client.perform_ok ih hrun).1

/-- **The phase in every run**: one level is open exactly in it, begins and ends follow each other in turn, and an
    event that can commit what is valid, and schedule a reload, ends the phase only with a reload scheduled. -/
theorem phase_end_reloads {ok : Event → Client → Prop} {c : Client} (h : Reachable ok c) :
    c.transaction.depth = (if c.bootstrap.inProgress = true then 1 else 0) ∧
      openAfter false c.brackets = some c.bootstrap.inProgress ∧
      ∀ (event : Event) (c' : Client), c.EndsCleanly event → c.perform event = some c' → c.EndReloads c' :=
  have hb := reachable_bracketed h
  ⟨hb.depth, hb.brackets, fun _ _ hclean hrun => (Client.perform_ok hb hrun).2 hclean⟩

theorem Reachable.next {ok : Event → Client → Prop} {c : Client} (h : Reachable ok c) (event : Event)
    (hok : ok event c) (hrun : (c.perform event).isSome = true) : Reachable ok ((c.perform event).get hrun) :=
  .step event h hok (Option.some_get hrun).symm

/-! ## 4. A commit that fails -/

/-- Everything succeeds. -/
def envFine : Env :=
  ⟨⟨⟨9, 0⟩, rfl⟩, ⟨fun _ => 0, fun _ => 0, fun _ => 0⟩, 0, none, true, true, true, true⟩

/-- No object can be committed. -/
def envNoCommit : Env := { envFine with handlers := ⟨fun _ => 0, fun _ => -1, fun _ => 0⟩ }

def bootstrapServerInfo : ServerInfo := ⟨ssidBootstrap, true, false, true, ⟨⟨1, 0⟩, rfl⟩, 7⟩

theorem include_balanced : Balanced [.includeObject 30 true [] 0] := by decide

/-- A write that includes one object. -/
def writeRequest : Event :=
  .request envFine (.write 0 (.object 3) ⟨[.includeObject 30 true [] 0], include_balanced⟩ 0)

/-- These servers are connected, and the Bootstrap Server writes an object. -/
def writtenWith (servers : List ServerInfo) : Option Client :=
  ((Client.initial false ⟨⟨0, 0⟩, rfl⟩).perform (.serversChange servers)).bind (Client.perform writeRequest)

theorem writtenWith_reachable {ok : Event → Client → Prop} {servers : List ServerInfo}
    (hwritten : (writtenWith servers).isSome = true) (hservers : ∀ c, ok (.serversChange servers) c)
    (hwrite : ∀ c, ok writeRequest c) : Reachable ok ((writtenWith servers).get hwritten) := by
  have hrun : writtenWith servers = some ((writtenWith servers).get hwritten) := (Option.some_get hwritten).symm
  obtain ⟨c, hc, hw⟩ := Option.bind_eq_some_iff.mp hrun
  exact .step writeRequest (.step _ (.init false _) (hservers _) hc) (hwrite c) hw

def written : Option Client := writtenWith [bootstrapServerInfo]

theorem written_isSome : written.isSome = true := by decide +kernel

theorem written_reachable {ok : Event → Client → Prop}
    (hservers : ∀ c, ok (.serversChange [bootstrapServerInfo]) c) (hwrite : ∀ c, ok writeRequest c) :
    Reachable ok (written.get written_isSome) := writtenWith_reachable written_isSome hservers hwrite

theorem finish_isSome : ((written.get written_isSome).perform (.request envFine .finish)).isSome = true := by
  decide +kernel

/-- The Bootstrap Server's Finish is valid and is committed. -/
theorem phase_end_reloads_finish :
    (written.get written_isSome).EndReloads
      (((written.get written_isSome).perform (.request envFine .finish)).get finish_isSome) :=
  have hreach : Reachable (fun _ _ => True) (written.get written_isSome) :=
    written_reachable (fun _ => trivial) fun _ => trivial
  (phase_end_reloads hreach).2.2 (.request envFine .finish) _ ⟨fun _ _ _ => rfl, .inr rfl⟩
    (Option.some_get finish_isSome).symm

theorem finishNoCommit_isSome :
    ((written.get written_isSome).perform (.request envNoCommit .finish)).isSome = true := by decide +kernel

/-- The Finish is valid and cannot be committed: the phase ends, and no reload is scheduled. -/
theorem phase_end_reloads_not_always :
    ∃ c c' : Client, Reachable (fun _ _ => True) c ∧ c.perform (.request envNoCommit .finish) = some c' ∧
      c.bootstrap.inProgress = true ∧ c'.bootstrap.inProgress = false ∧ c'.reloadServersJob = false := by
  refine ⟨written.get written_isSome,
    ((written.get written_isSome).perform (.request envNoCommit .finish)).get finishNoCommit_isSome,
    written_reachable (fun _ => trivial) fun _ => trivial, (Option.some_get finishNoCommit_isSome).symm, ?_, ?_, ?_⟩
  · decide +kernel
  · decide +kernel
  · decide +kernel

end Anjay.Bootstrap
