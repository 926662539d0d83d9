/-
  File:      Anjay/Bootstrap/Token.lean
  Subject:   The bootstrap session token, and the exchanges of Request Bootstrap, in the runs of the bootstrap module.

  * `reachable_exchanges`: an exchange is cancelled on the CoAP context of the Bootstrap Server, always.
  * `reachable_token`: in the phase the token is the Bootstrap Server's, unless a regular connection that becomes
    available could not end the phase; so the phase itself never makes the client ask for another bootstrap.
-/
import Anjay.Bootstrap.Runs

namespace Anjay.Bootstrap

open Dm Dm.Transaction

/-! ## 1. The exchanges -/

/-- Requests and answers come from the Bootstrap Server; exchanges were cancelled on its context, which is the one
    that they were sent on; and a request that waits for its answer was sent on the context that it has now. -/
structure Exchanges (c : Client) : Prop where
  processed : ∀ s ∈ c.processed, s.ssid = ssidBootstrap
  cancelled : ∀ x ∈ c.cancelled, x.server.ssid = ssidBootstrap ∧ x.sentOn = x.server.coapCtx
  outgoing : ∀ sentOn, c.bootstrap.outgoingRequestExchange = some sentOn →
    ∃ s, c.activeBootstrapServer = some s ∧ s.coapCtx = sentOn

/-- The servers, the records and the exchange are the same. -/
structure SameExchanges (c c' : Client) : Prop where
  servers : c'.servers = c.servers
  processed : c'.processed = c.processed
  cancelled : c'.cancelled = c.cancelled
  outgoing : c'.bootstrap.outgoingRequestExchange = c.bootstrap.outgoingRequestExchange

namespace SameExchanges

theorem refl (c : Client) : SameExchanges c c := ⟨rfl, rfl, rfl, rfl⟩

theorem trans {c c1 c2 : Client} (h1 : SameExchanges c c1) (h2 : SameExchanges c1 c2) : SameExchanges c c2 :=
  ⟨h2.servers.trans h1.servers, h2.processed.trans h1.processed, h2.cancelled.trans h1.cancelled,
    h2.outgoing.trans h1.outgoing⟩

theorem bootstrapServer {c c' : Client} (h : SameExchanges c c') : c'.bootstrapServer = c.bootstrapServer := by
  unfold Client.bootstrapServer
  rw [h.servers]

theorem activeBootstrapServer {c c' : Client} (h : SameExchanges c c') :
    c'.activeBootstrapServer = c.activeBootstrapServer := by
  unfold Client.activeBootstrapServer
  rw [h.bootstrapServer]

end SameExchanges

theorem Exchanges.same {c c' : Client} (h : Exchanges c) (hsame : SameExchanges c c') : Exchanges c' where
  processed := by rw [hsame.processed]; exact h.processed
  cancelled := by rw [hsame.cancelled]; exact h.cancelled
  outgoing := by rw [hsame.outgoing, hsame.activeBootstrapServer]; exact h.outgoing

namespace Client

theorem activeBootstrapServer_eq {c : Client} {s : ServerInfo} (h : c.activeBootstrapServer = some s) :
    c.bootstrapServer = some s ∧ s.active = true ∧ s.ssid = ssidBootstrap := by
  obtain ⟨hfound, hactive⟩ := Option.filter_eq_some_iff.mp h
  have hssid : s.isBootstrap = true := List.find?_some (p := ServerInfo.isBootstrap) hfound
  exact ⟨hfound, hactive, eq_of_beq hssid⟩

/-- The clean-up of inactive servers keeps an active Bootstrap Server. -/
theorem find?_filter_active : ∀ (servers : List ServerInfo) {s : ServerInfo},
    servers.find? ServerInfo.isBootstrap = some s → s.active = true →
    (servers.filter ServerInfo.active).find? ServerInfo.isBootstrap = some s
  | [], _, h, _ => by cases h
  | x :: xs, s, h, hactive => by
      by_cases hx : x.isBootstrap = true
      · rw [List.find?_cons_of_pos hx] at h
        cases h
        rw [List.filter_cons_of_pos hactive, List.find?_cons_of_pos hx]
      · rw [List.find?_cons_of_neg hx] at h
        have ih := find?_filter_active xs h hactive
        by_cases hxa : x.active = true
        · rw [List.filter_cons_of_pos hxa, List.find?_cons_of_neg hx]
          exact ih
        · rw [List.filter_cons_of_neg hxa]
          exact ih

theorem enterPhase_bootstrapServer {c : Client} {s : ServerInfo} (h : c.activeBootstrapServer = some s) :
    c.enterPhase.bootstrapServer = some s ∧ c.enterPhase.activeBootstrapServer = some s := by
  obtain ⟨hfound, hactive, -⟩ := activeBootstrapServer_eq h
  have hentered : c.enterPhase.bootstrapServer = some s := find?_filter_active c.servers hfound hactive
  refine ⟨hentered, ?_⟩
  rw [activeBootstrapServer, hentered]
  exact Option.filter_eq_some_iff.mpr ⟨rfl, hactive⟩

theorem enterPhase_exchanges {c : Client} (h : Exchanges c) : Exchanges c.enterPhase where
  processed := h.processed
  cancelled := h.cancelled
  outgoing := fun sentOn hsent => by
    obtain ⟨s, hs, hctx⟩ := h.outgoing sentOn hsent
    exact ⟨s, (enterPhase_bootstrapServer hs).2, hctx⟩

/-- The connection that `start_bootstrap_if_not_already_started` is given where it may cancel an exchange. -/
def Serves (connection : Option ServerInfo) (c : Client) : Prop :=
  c.bootstrap.outgoingRequestExchange = none ∨ connection = c.activeBootstrapServer

theorem exchangeCancel_exchanges {server : ServerInfo} {sentOn : Nat} {c : Client} (h : Exchanges c)
    (hssid : server.ssid = ssidBootstrap) (hctx : sentOn = server.coapCtx) :
    Exchanges (c.exchangeCancel server sentOn) := by
  have hcancelled : ∀ x ∈ c.cancelled ++ [⟨sentOn, server⟩],
      x.server.ssid = ssidBootstrap ∧ x.sentOn = x.server.coapCtx := by
    intro x hx
    rcases List.mem_append.mp hx with hx | hx
    · exact h.cancelled x hx
    · cases List.mem_singleton.mp hx
      exact ⟨hssid, hctx⟩
  unfold exchangeCancel
  dsimp only
  rw [if_pos hctx]
  exact ⟨h.processed, hcancelled, nofun⟩

/-- What taking the connection does apart from the exchange. -/
theorem takeConnection_frame (connection : Option ServerInfo) (c : Client) :
    (c.takeConnection connection).servers = c.servers ∧ (c.takeConnection connection).processed = c.processed ∧
      (c.takeConnection connection).unchanged = c.unchanged := by
  unfold takeConnection
  split
  · exact ⟨rfl, rfl, rfl⟩
  · split
    · exact ⟨rfl, rfl, rfl⟩
    · unfold exchangeCancel
      dsimp only
      split <;> exact ⟨rfl, rfl, rfl⟩

theorem takeConnection_exchanges {connection : Option ServerInfo} {c : Client} (h : Exchanges c)
    (hserves : c.Serves connection) :
    Exchanges (c.takeConnection connection) ∧
      (c.bootstrap.outgoingRequestExchange = none →
        (c.takeConnection connection).bootstrap.outgoingRequestExchange = none) := by
  unfold takeConnection
  cases connection with
  | none => exact ⟨h, id⟩
  | some server =>
      have htaken : Exchanges (c.takeToken server) := h.same ⟨rfl, rfl, rfl, rfl⟩
      cases hout : c.bootstrap.outgoingRequestExchange with
      | none => exact ⟨htaken, fun _ => hout⟩
      | some sentOn =>
          have hactive : c.activeBootstrapServer = some server :=
            (hserves.resolve_left (by rw [hout]; exact nofun)).symm
          obtain ⟨s, hs, hctx⟩ := h.outgoing sentOn hout
          rw [hactive] at hs
          cases hs
          exact ⟨exchangeCancel_exchanges htaken (activeBootstrapServer_eq hactive).2.2 hctx.symm, nofun⟩

theorem startBootstrap_exchanges {connection : Option ServerInfo} {c : Client} (h : Exchanges c)
    (hserves : c.Serves connection) :
    Exchanges (c.startBootstrap connection) ∧
      (c.bootstrap.outgoingRequestExchange = none →
        (c.startBootstrap connection).bootstrap.outgoingRequestExchange = none) := by
  obtain ⟨htaken, hout⟩ := takeConnection_exchanges h hserves
  unfold startBootstrap
  dsimp only
  split
  · exact ⟨htaken, hout⟩
  · exact ⟨enterPhase_exchanges htaken, hout⟩

theorem startBootstrap_activeBootstrapServer {connection : Option ServerInfo} {c : Client} {s : ServerInfo}
    (h : c.activeBootstrapServer = some s) : (c.startBootstrap connection).activeBootstrapServer = some s := by
  have htaken : (c.takeConnection connection).activeBootstrapServer = some s := by
    unfold activeBootstrapServer bootstrapServer
    rw [(takeConnection_frame connection c).1]
    exact h
  unfold startBootstrap
  dsimp only
  split
  · exact htaken
  · exact (enterPhase_bootstrapServer htaken).2

theorem startBootstrap_processed (connection : Option ServerInfo) (c : Client) :
    (c.startBootstrap connection).processed = c.processed := by
  have h := (takeConnection_frame connection c).2.1
  unfold startBootstrap
  dsimp only
  split <;> exact h

/-- The connection that may be asked to cancel stays the one to ask. -/
theorem startBootstrap_serves {connection : Option ServerInfo} {c : Client} (h : Exchanges c)
    (hserves : c.Serves connection) : (c.startBootstrap connection).Serves connection := by
  rcases hserves with hnone | hactive
  · exact .inl ((startBootstrap_exchanges h (.inl hnone)).2 hnone)
  · cases hfound : c.activeBootstrapServer with
    | some s => exact .inr (hactive.trans (hfound.trans (startBootstrap_activeBootstrapServer hfound).symm))
    | none =>
        have hnone : c.bootstrap.outgoingRequestExchange = none :=
          Option.eq_none_iff_forall_not_mem.mpr fun sentOn hsent => by
            obtain ⟨s, hs, -⟩ := h.outgoing sentOn hsent
            rw [hfound] at hs
            cases hs
        exact .inl ((startBootstrap_exchanges h (.inl hnone)).2 hnone)

theorem Serves.same {connection : Option ServerInfo} {c c' : Client} (h : c.Serves connection)
    (hsame : SameExchanges c c') : c'.Serves connection := by
  unfold Serves
  rw [hsame.outgoing, hsame.activeBootstrapServer]
  exact h

theorem leavePhase_sameExchanges (env : Env) (finish : State → Int × State) (c : Client) :
    SameExchanges c (c.leavePhase env finish).2 := ⟨rfl, rfl, rfl, rfl⟩

theorem postProcess_sameExchanges (env : Env) (performTimeout disableServer : Bool) (c : Client) :
    SameExchanges c (c.postProcess env performTimeout disableServer).2 := by
  have htimeout : ∀ c' : Client, SameExchanges c c' → SameExchanges c (c'.scheduleBootstrapTimeout env).2 := by
    intro c' h
    unfold scheduleBootstrapTimeout
    split
    · exact h
    · split
      · split
        · exact ⟨h.servers, h.processed, h.cancelled, h.outgoing⟩
        · exact h
      · exact h
  have hperformed : ∀ r : Int × Client, SameExchanges c r.2 → ∀ {p : Prop} [Decidable p],
      SameExchanges c (if p then (r.2.disableBootstrapServer env, r.2) else r).2 := by
    intro r h p _
    split <;> exact h
  unfold postProcess
  refine hperformed _ ?_
  split
  · exact .refl c
  · dsimp only
    split
    · exact htimeout _ ⟨rfl, rfl, rfl, rfl⟩
    · exact ⟨rfl, rfl, rfl, rfl⟩

theorem validate_exchanges (env : Env) {current : Option ServerInfo} {c : Client} (h : Exchanges c)
    (hserves : c.Serves current) :
    Exchanges (c.validateBootstrapConfiguration env current).2 ∧
      (c.validateBootstrapConfiguration env current).2.Serves current := by
  have hcancelled : SameExchanges c c.cancelClientInitiatedBootstrap := ⟨rfl, rfl, rfl, rfl⟩
  have hvalidated : SameExchanges (c.cancelClientInitiatedBootstrap.startBootstrap current)
      (c.validateBootstrapConfiguration env current).2 := ⟨rfl, rfl, rfl, rfl⟩
  have hstarted := startBootstrap_exchanges (h.same hcancelled) (hserves.same hcancelled)
  exact ⟨hstarted.1.same hvalidated,
    (startBootstrap_serves (h.same hcancelled) (hserves.same hcancelled)).same hvalidated⟩

theorem bootstrapFinishImpl_exchanges {env : Env} {current : Option ServerInfo} {performTimeout disableServer : Bool}
    {c : Client} (h : Exchanges c) (hserves : c.Serves current) :
    Exchanges (c.bootstrapFinishImpl env current performTimeout disableServer).2 := by
  have hleft := leavePhase_sameExchanges env (transactionFinishWithoutValidation env.handlers 0) c
  have hprocessed := hleft.trans (postProcess_sameExchanges env performTimeout disableServer _)
  unfold bootstrapFinishImpl
  dsimp only
  split
  · exact h.same hleft
  · dsimp only
    split
    · exact (startBootstrap_exchanges (h.same hprocessed) (hserves.same hprocessed)).1
    · exact h.same (hprocessed.trans ⟨rfl, rfl, rfl, rfl⟩)

theorem validateAndFinish_exchanges {env : Env} {current : Option ServerInfo} {performTimeout : Bool} {c : Client}
    (h : Exchanges c) (hserves : c.Serves current) :
    Exchanges (c.validateAndFinish env current performTimeout).2 := by
  obtain ⟨hvalidated, hstill⟩ := validate_exchanges env h hserves
  unfold validateAndFinish
  dsimp only
  split
  · exact hvalidated
  · exact bootstrapFinishImpl_exchanges hvalidated hstill

theorem abortBootstrap_sameExchanges (env : Env) (c : Client) : SameExchanges c (c.abortBootstrap env) := by
  unfold abortBootstrap
  split
  · exact ⟨rfl, rfl, rfl, rfl⟩
  · exact .refl c

theorem bootstrapCleanup_sameExchanges (env : Env) (c : Client) : SameExchanges c (c.bootstrapCleanup env) :=
  have hreset : SameExchanges c c.cancelClientInitiatedBootstrap.resetBackoff := ⟨rfl, rfl, rfl, rfl⟩
  (hreset.trans (abortBootstrap_sameExchanges env _)).trans ⟨rfl, rfl, rfl, rfl⟩

theorem changeServers_exchanges (servers : List ServerInfo) {c : Client} (h : Exchanges c) :
    Exchanges (c.changeServers servers) where
  processed := h.processed
  cancelled := h.cancelled
  outgoing := fun sentOn hsent => by
    obtain ⟨-, hany⟩ := Option.filter_eq_some_iff.mp hsent
    obtain ⟨s, hs, hctx⟩ := (Option.any_eq_true _ _).mp hany
    exact ⟨s, hs, eq_of_beq hctx⟩

theorem work_sameExchanges {w : Work} {c c' : Client} (h : c.work w = some c') : SameExchanges c c' := by
  obtain ⟨transaction, -, rfl⟩ := Option.map_eq_some_iff.mp h
  exact ⟨rfl, rfl, rfl, rfl⟩

theorem invokeAction_exchanges {env : Env} {current : Option ServerInfo} {request : Request} {c c' : Client}
    (h : Exchanges c) (hserves : c.Serves current) (hrun : c.invokeAction env current request = some c') :
    Exchanges c' := by
  have hdeleted : SameExchanges c c.deleteFinishTimeout.cancelClientInitiatedBootstrap := ⟨rfl, rfl, rfl, rfl⟩
  obtain ⟨hstarted, -⟩ := startBootstrap_exchanges (h.same hdeleted) (hserves.same hdeleted)
  cases request with
  | write inputCtx uri w ret =>
      obtain ⟨r, hwrite, rfl⟩ := Option.map_eq_some_iff.mp hrun
      refine Exchanges.same (c := r.2) ?_ ⟨rfl, rfl, rfl, rfl⟩
      unfold bootstrapWrite at hwrite
      split at hwrite
      · cases hwrite
        exact h.same ⟨rfl, rfl, rfl, rfl⟩
      split at hwrite
      · cases hwrite
        exact h.same ⟨rfl, rfl, rfl, rfl⟩
      · obtain ⟨c1, hwork, rfl⟩ := Option.map_eq_some_iff.mp hwrite
        exact hstarted.same (work_sameExchanges hwork)
  | delete isBsUri uri w ret =>
      obtain ⟨r, hdelete, rfl⟩ := Option.map_eq_some_iff.mp hrun
      refine Exchanges.same (c := r.2) ?_ ⟨rfl, rfl, rfl, rfl⟩
      unfold bootstrapDelete at hdelete
      dsimp only at hdelete
      split at hdelete
      · cases hdelete
        exact hstarted
      · obtain ⟨c1, hwork, rfl⟩ := Option.map_eq_some_iff.mp hdelete
        exact hstarted.same (work_sameExchanges hwork)
  | discover ret =>
      cases hrun
      exact h.same ⟨rfl, rfl, rfl, rfl⟩
  | other =>
      cases hrun
      exact h.same ⟨rfl, rfl, rfl, rfl⟩
  | finish =>
      cases hrun
      have hdel : SameExchanges c c.deleteFinishTimeout := ⟨rfl, rfl, rfl, rfl⟩
      have hfinished : Exchanges (c.deleteFinishTimeout.bootstrapFinish env current).2 :=
        validateAndFinish_exchanges (h.same hdel) (hserves.same hdel)
      split
      · exact hfinished.same ⟨rfl, rfl, rfl, rfl⟩
      · exact hfinished

theorem bootstrapStarted_exchanges (env : Env) (code : Nat) {server : ServerInfo} {c : Client} (h : Exchanges c)
    (hserves : c.Serves (some server)) : Exchanges (c.bootstrapStarted env code server) := by
  unfold bootstrapStarted
  split
  · exact h
  · exact (startBootstrap_exchanges h hserves).1.same ⟨rfl, rfl, rfl, rfl⟩

theorem requestCancelled_exchanges {c : Client} (h : Exchanges c) : Exchanges c.requestCancelled :=
  ⟨h.processed, h.cancelled, nofun⟩

theorem responseHandler_exchanges (env : Env) (answer : Answer) {sentOn : Nat} {server : ServerInfo} {c : Client}
    (h : Exchanges c) (hsent : c.bootstrap.outgoingRequestExchange = some sentOn)
    (hactive : c.activeBootstrapServer = some server) :
    Exchanges (c.responseHandler env answer sentOn server) := by
  have hcleared : Exchanges c.requestCancelled.clearTrigger :=
    (requestCancelled_exchanges h).same ⟨rfl, rfl, rfl, rfl⟩
  cases answer with
  | partialContent code =>
      obtain ⟨s, hs, hctx⟩ := h.outgoing sentOn hsent
      rw [hactive] at hs
      cases hs
      have hcancelled := exchangeCancel_exchanges (c := c.clearTrigger) (h.same ⟨rfl, rfl, rfl, rfl⟩)
        (activeBootstrapServer_eq hactive).2.2 hctx.symm
      refine bootstrapStarted_exchanges env code hcancelled (.inl ?_)
      unfold exchangeCancel
      dsimp only
      rw [if_pos hctx.symm]
      rfl
  | ok code => exact bootstrapStarted_exchanges env code hcleared (.inl rfl)
  | fail => exact hcleared
  | cancel => exact requestCancelled_exchanges h

theorem notifyRegularConnectionAvailable_exchanges (env : Env) (current : Option ServerInfo) {c : Client}
    (h : Exchanges c) : Exchanges (c.notifyRegularConnectionAvailable env current).2 := by
  have hreset : ∀ {r : Int × Client}, Exchanges r.2 → Exchanges (if r.1 = 0 then r.2.resetBackoff else r.2) := by
    intro r h
    split
    · exact h.same ⟨rfl, rfl, rfl, rfl⟩
    · exact h
  unfold notifyRegularConnectionAvailable
  split
  · exact h
  · next hnone =>
    refine hreset ?_
    split
    · exact validateAndFinish_exchanges h (.inl (Option.not_isSome_iff_eq_none.mp hnone))
    · exact h.same ⟨rfl, rfl, rfl, rfl⟩

theorem requestBootstrapJob_exchanges (sent : Bool) {c : Client} (h : Exchanges c) :
    Exchanges (c.requestBootstrapJob sent) := by
  unfold requestBootstrapJob
  dsimp only
  split
  · exact h.same ⟨rfl, rfl, rfl, rfl⟩
  · next server hactive =>
    repeat' split
    · exact h.same ⟨rfl, rfl, rfl, rfl⟩
    · exact h.same ⟨rfl, rfl, rfl, rfl⟩
    · refine ⟨h.processed, h.cancelled, fun sentOn hsent => ?_⟩
      cases hsent
      exact ⟨server, hactive, rfl⟩
    · exact h.same ⟨rfl, rfl, rfl, rfl⟩

theorem recordProcessed_exchanges {server : ServerInfo} {c : Client} (h : Exchanges c)
    (hactive : c.activeBootstrapServer = some server) : Exchanges (c.recordProcessed server) := by
  refine ⟨fun s hs => ?_, h.cancelled, h.outgoing⟩
  rcases List.mem_append.mp hs with hs | hs
  · exact h.processed s hs
  · rw [List.mem_singleton.mp hs]
    exact (activeBootstrapServer_eq hactive).2.2

/-- **One event keeps the exchanges right.** -/
theorem perform_exchanges {event : Event} {c c' : Client} (h : Exchanges c) (hrun : c.perform event = some c') :
    Exchanges c' := by
  cases event with
  | request env request =>
      unfold perform at hrun
      dsimp only at hrun
      split at hrun
      · cases hrun
        exact h
      · next server hactive =>
        exact invokeAction_exchanges (recordProcessed_exchanges h hactive) (.inr hactive.symm) hrun
  | answer env answer =>
      unfold perform at hrun
      dsimp only at hrun
      split at hrun
      · next sentOn server hsent hactive =>
        cases hrun
        exact responseHandler_exchanges env answer (recordProcessed_exchanges h hactive) hsent hactive
      · cases hrun
        exact h
  | regularAvailable env current =>
      cases hrun
      exact notifyRegularConnectionAvailable_exchanges env _ h
  | serverFailed env =>
      cases hrun
      exact (changeServers_exchanges _ h).same (bootstrapCleanup_sameExchanges env _)
  | cleanup env =>
      cases hrun
      exact (changeServers_exchanges _ h).same (bootstrapCleanup_sameExchanges env _)
  | purgeBootstrap env w ret =>
      unfold perform at hrun
      dsimp only at hrun
      split at hrun
      · obtain ⟨c1, hwork, rfl⟩ := Option.map_eq_some_iff.mp hrun
        have hsame := work_sameExchanges hwork
        exact h.same ⟨hsame.servers, hsame.processed, hsame.cancelled, hsame.outgoing⟩
      · cases hrun
        exact h
  | requestBootstrap sent =>
      cases hrun
      split
      · exact requestBootstrapJob_exchanges sent h
      · exact h
  | clientInitiatedScheduled =>
      cases hrun
      split
      · exact h.same ⟨rfl, rfl, rfl, rfl⟩
      · exact h
  | triggered =>
      cases hrun
      exact h.same ⟨rfl, rfl, rfl, rfl⟩
  | dataModel w => exact h.same (work_sameExchanges hrun)
  | reloadScheduled =>
      cases hrun
      exact h.same ⟨rfl, rfl, rfl, rfl⟩
  | reload servers =>
      cases hrun
      split
      · exact changeServers_exchanges servers (c := { c with reloadServersJob := false }) (h.same ⟨rfl, rfl, rfl, rfl⟩)
      · exact h
  | serversChange servers =>
      cases hrun
      exact changeServers_exchanges servers h

end Client

/-- **In every run**, an exchange is cancelled on the context of the Bootstrap Server, on which it was sent. -/
theorem reachable_exchanges {ok : Event → Client → Prop} {c : Client} (h : Reachable ok c) : Exchanges c := by
  induction h with
  | init allow now =>
      exact ⟨fun _ hs => absurd hs List.not_mem_nil, fun _ hx => absurd hx List.not_mem_nil, fun _ h => by cases h⟩
  | step event h hok hrun ih => exact Client.perform_exchanges ih hrun

/-! ## 2. The token -/

/-- In the phase, the token is one that the connection of the Bootstrap Server had when a request or an answer of it
    was handled, and still is the token of that connection as long as the connection is not another one. -/
structure Owned (c : Client) : Prop where
  token : c.bootstrap.inProgress = true →
    ∃ s ∈ c.processed, c.tokenSource = .server s ∧ c.bootstrap.bootstrapSessionToken = s.sessionToken
  unchanged : c.bootstrap.inProgress = true → c.unchanged = true →
    ∀ s, c.bootstrapServer = some s → c.bootstrap.bootstrapSessionToken = s.sessionToken

/-- The token, the phase, the servers and the record of what was handled are the same. -/
structure SameToken (c c' : Client) : Prop where
  servers : c'.servers = c.servers
  processed : c'.processed = c.processed
  tokenSource : c'.tokenSource = c.tokenSource
  token : c'.bootstrap.bootstrapSessionToken = c.bootstrap.bootstrapSessionToken
  inProgress : c'.bootstrap.inProgress = c.bootstrap.inProgress
  unchanged : c'.unchanged = c.unchanged

theorem Owned.same {c c' : Client} (h : Owned c) (hsame : SameToken c c') : Owned c' where
  token := by
    rw [hsame.inProgress, hsame.processed, hsame.tokenSource, hsame.token]
    exact h.token
  unchanged := by
    have hserver : c'.bootstrapServer = c.bootstrapServer := by
      unfold Client.bootstrapServer
      rw [hsame.servers]
    rw [hsame.inProgress, hsame.unchanged, hsame.token, hserver]
    exact h.unchanged

theorem Owned.out {c : Client} (h : c.bootstrap.inProgress = false) : Owned c :=
  ⟨fun hin => absurd (h.symm.trans hin) Bool.false_ne_true, fun hin => absurd (h.symm.trans hin) Bool.false_ne_true⟩

namespace Client

theorem takeConnection_token (server : ServerInfo) (c : Client) :
    (c.takeConnection (some server)).tokenSource = .server server ∧
      (c.takeConnection (some server)).bootstrap.bootstrapSessionToken = server.sessionToken := by
  unfold takeConnection
  dsimp only
  split
  · exact ⟨rfl, rfl⟩
  · unfold exchangeCancel
    dsimp only
    split <;> exact ⟨rfl, rfl⟩

/-- **The phase is entered, or goes on, with the token of the Bootstrap Server** whose request or answer is handled. -/
theorem startBootstrap_owned {server : ServerInfo} {c : Client} (hactive : c.activeBootstrapServer = some server)
    (hprocessed : server ∈ c.processed) : Owned (c.startBootstrap (some server)) := by
  have hsource : (c.startBootstrap (some server)).tokenSource = .server server ∧
      (c.startBootstrap (some server)).bootstrap.bootstrapSessionToken = server.sessionToken := by
    have htaken := takeConnection_token server c
    unfold startBootstrap
    dsimp only
    split <;> exact htaken
  have hserver : (c.startBootstrap (some server)).bootstrapServer = some server :=
    (activeBootstrapServer_eq (startBootstrap_activeBootstrapServer hactive)).1
  refine ⟨fun _ => ⟨server, ?_, hsource⟩, fun _ _ s hs => ?_⟩
  · rw [startBootstrap_processed]
    exact hprocessed
  · rw [hserver] at hs
    cases hs
    exact hsource.2

theorem bootstrapFinishImpl_owned {env : Env} {server : ServerInfo} {performTimeout disableServer : Bool} {c : Client}
    (h : Bracketed c) (hin : c.bootstrap.inProgress = true) (hactive : c.activeBootstrapServer = some server)
    (hprocessed : server ∈ c.processed) :
    Owned (c.bootstrapFinishImpl env (some server) performTimeout disableServer).2 := by
  have hsame := (leavePhase_sameExchanges env (transactionFinishWithoutValidation env.handlers 0) c).trans
    (postProcess_sameExchanges env performTimeout disableServer _)
  rcases bootstrapFinishImpl_cases env (some server) performTimeout disableServer h hin with
    ⟨-, heq⟩ | ⟨-, -, heq⟩ | ⟨-, -, heq⟩
  · rw [heq]
    exact .out rfl
  · rw [heq]
    refine startBootstrap_owned (hsame.activeBootstrapServer.trans hactive) ?_
    rw [hsame.processed]
    exact hprocessed
  · rw [heq]
    exact .out (postProcess_same env performTimeout disableServer rfl).inProgress

theorem bootstrapFinish_owned {env : Env} {server : ServerInfo} {c : Client} (h : Bracketed c)
    (hactive : c.activeBootstrapServer = some server) (hprocessed : server ∈ c.processed) :
    Owned (c.bootstrapFinish env (some server)).2 := by
  obtain ⟨hvalidated, hin⟩ := validate_bracketed env (some server) h
  have hstarted : Owned (c.validateBootstrapConfiguration env (some server)).2 :=
    (startBootstrap_owned (c := c.cancelClientInitiatedBootstrap) hactive hprocessed).same
      ⟨rfl, rfl, rfl, rfl, rfl, rfl⟩
  have hactive' : (c.validateBootstrapConfiguration env (some server)).2.activeBootstrapServer = some server :=
    startBootstrap_activeBootstrapServer (c := c.cancelClientInitiatedBootstrap) hactive
  have hprocessed' : server ∈ (c.validateBootstrapConfiguration env (some server)).2.processed := by
    show server ∈ (c.cancelClientInitiatedBootstrap.startBootstrap (some server)).processed
    rw [startBootstrap_processed]
    exact hprocessed
  unfold bootstrapFinish validateAndFinish
  dsimp only
  split
  · exact hstarted
  · exact bootstrapFinishImpl_owned hvalidated hin hactive' hprocessed'

theorem work_sameToken {w : Work} {c c' : Client} (h : c.work w = some c') : SameToken c c' := by
  obtain ⟨transaction, -, rfl⟩ := Option.map_eq_some_iff.mp h
  exact ⟨rfl, rfl, rfl, rfl, rfl, rfl⟩

theorem invokeAction_owned {env : Env} {server : ServerInfo} {request : Request} {c c' : Client} (h : Bracketed c)
    (howned : Owned c) (hactive : c.activeBootstrapServer = some server) (hprocessed : server ∈ c.processed)
    (hrun : c.invokeAction env (some server) request = some c') : Owned c' := by
  have hstarted : Owned (c.deleteFinishTimeout.cancelClientInitiatedBootstrap.startBootstrap (some server)) :=
    startBootstrap_owned (c := c.deleteFinishTimeout.cancelClientInitiatedBootstrap) hactive hprocessed
  cases request with
  | write inputCtx uri w ret =>
      obtain ⟨r, hwrite, rfl⟩ := Option.map_eq_some_iff.mp hrun
      refine Owned.same (c := r.2) ?_ ⟨rfl, rfl, rfl, rfl, rfl, rfl⟩
      unfold bootstrapWrite at hwrite
      split at hwrite
      · cases hwrite
        exact howned.same ⟨rfl, rfl, rfl, rfl, rfl, rfl⟩
      split at hwrite
      · cases hwrite
        exact howned.same ⟨rfl, rfl, rfl, rfl, rfl, rfl⟩
      · obtain ⟨c1, hwork, rfl⟩ := Option.map_eq_some_iff.mp hwrite
        exact hstarted.same (work_sameToken hwork)
  | delete isBsUri uri w ret =>
      obtain ⟨r, hdelete, rfl⟩ := Option.map_eq_some_iff.mp hrun
      refine Owned.same (c := r.2) ?_ ⟨rfl, rfl, rfl, rfl, rfl, rfl⟩
      unfold bootstrapDelete at hdelete
      dsimp only at hdelete
      split at hdelete
      · cases hdelete
        exact hstarted
      · obtain ⟨c1, hwork, rfl⟩ := Option.map_eq_some_iff.mp hdelete
        exact hstarted.same (work_sameToken hwork)
  | discover ret =>
      cases hrun
      exact howned.same ⟨rfl, rfl, rfl, rfl, rfl, rfl⟩
  | other =>
      cases hrun
      exact howned.same ⟨rfl, rfl, rfl, rfl, rfl, rfl⟩
  | finish =>
      cases hrun
      have hfinished : Owned (c.deleteFinishTimeout.bootstrapFinish env (some server)).2 :=
        bootstrapFinish_owned (c := c.deleteFinishTimeout) (h.same ⟨rfl, rfl, rfl, fun _ => rfl⟩) hactive hprocessed
      split
      · exact hfinished.same ⟨rfl, rfl, rfl, rfl, rfl, rfl⟩
      · exact hfinished

theorem bootstrapStarted_owned (env : Env) (code : Nat) {server : ServerInfo} {c : Client} (h : Owned c)
    (hactive : c.activeBootstrapServer = some server) (hprocessed : server ∈ c.processed) :
    Owned (c.bootstrapStarted env code server) := by
  unfold bootstrapStarted
  split
  · exact h
  · exact (startBootstrap_owned hactive hprocessed).same ⟨rfl, rfl, rfl, rfl, rfl, rfl⟩

theorem responseHandler_owned (env : Env) (answer : Answer) (sentOn : Nat) {server : ServerInfo} {c : Client}
    (h : Owned c) (hactive : c.activeBootstrapServer = some server) (hprocessed : server ∈ c.processed) :
    Owned (c.responseHandler env answer sentOn server) := by
  cases answer with
  | partialContent code =>
      have hcancelled : SameToken c (c.clearTrigger.exchangeCancel server sentOn) := by
        unfold exchangeCancel
        dsimp only
        split <;> exact ⟨rfl, rfl, rfl, rfl, rfl, rfl⟩
      refine bootstrapStarted_owned env code (h.same hcancelled) ?_ ?_
      · unfold activeBootstrapServer bootstrapServer
        rw [hcancelled.servers]
        exact hactive
      · rw [hcancelled.processed]
        exact hprocessed
  | ok code =>
      exact bootstrapStarted_owned env code (c := c.requestCancelled.clearTrigger)
        (h.same ⟨rfl, rfl, rfl, rfl, rfl, rfl⟩) hactive hprocessed
  | fail => exact h.same ⟨rfl, rfl, rfl, rfl, rfl, rfl⟩
  | cancel => exact h.same ⟨rfl, rfl, rfl, rfl, rfl, rfl⟩

/-- What follows the commit succeeds when a regular connection has ended the phase. -/
def RegularPostProcesses (env : Env) (c : Client) : Prop :=
  env.notifyPerform = 0 ∧ (c.bootstrap.allowLegacyServerInitiatedBootstrap = true ∨
    (c.activeBootstrapServer.isSome && env.scheduleDisable) = true)

theorem RegularPostProcesses.same {env : Env} {c c' : Client} (h : c.RegularPostProcesses env)
    (hlegacy : c'.bootstrap.allowLegacyServerInitiatedBootstrap = c.bootstrap.allowLegacyServerInitiatedBootstrap)
    (hservers : c'.servers = c.servers) : c'.RegularPostProcesses env := by
  unfold RegularPostProcesses activeBootstrapServer bootstrapServer
  rw [hlegacy, hservers]
  exact h

theorem postProcess_regular {env : Env} {c : Client} (h : c.RegularPostProcesses env) :
    c.PostProcesses env false true := by
  unfold PostProcesses postProcess
  rw [if_neg (not_not.mpr h.1)]
  dsimp only
  rw [if_neg Bool.false_ne_true]
  split
  · next hflag =>
    rcases h.2 with hlegacy | hdisable
    · exact absurd (hlegacy.symm.trans hflag.2.2) Bool.false_ne_true.symm
    · exact if_pos hdisable
  · rfl

/-- What the token needs of an event: a regular connection that becomes available in the phase does not find the
    configuration invalid while it is served itself, and if it can commit, the phase is over. -/
def KeepsToken (event : Event) (c : Client) : Prop :=
  match event with
  | .regularAvailable env current =>
      c.bootstrap.outgoingRequestExchange = none → c.bootstrap.inProgress = true →
        (¬c.Valid env → current = none) ∧ (c.Valid env → c.Commits env → c.RegularPostProcesses env)
  | _ => True

theorem takeConnection_allowLegacy (connection : Option ServerInfo) (c : Client) :
    (c.takeConnection connection).bootstrap.allowLegacyServerInitiatedBootstrap =
      c.bootstrap.allowLegacyServerInitiatedBootstrap := by
  unfold takeConnection
  split
  · rfl
  · split
    · rfl
    · unfold exchangeCancel
      dsimp only
      split <;> rfl

/-- **A regular connection becomes available in the phase.** -/
theorem validateAndFinish_owned {env : Env} {current : Option RegularServer} {c : Client} (h : Bracketed c)
    (howned : Owned c) (hin : c.bootstrap.inProgress = true)
    (hkeeps : (¬c.Valid env → current = none) ∧ (c.Valid env → c.Commits env → c.RegularPostProcesses env)) :
    Owned (c.validateAndFinish env (current.map Subtype.val) false).2 := by
  obtain ⟨hvalidated, hstill⟩ := validate_bracketed env (current.map Subtype.val) h
  obtain ⟨hobjs, -, hvalid⟩ := validate_of_inProgress env (current.map Subtype.val) hin
  have hstarted : c.cancelClientInitiatedBootstrap.startBootstrap (current.map Subtype.val) =
      c.cancelClientInitiatedBootstrap.takeConnection (current.map Subtype.val) :=
    startBootstrap_of_inProgress _ (c := c.cancelClientInitiatedBootstrap) hin
  unfold validateAndFinish
  dsimp only
  split
  · next hne =>
    -- without a connection to take the token from, the token stays
    have hnone : current = none := hkeeps.1 fun hv => hne (hvalid.mpr hv)
    subst hnone
    refine Owned.same (c := c.cancelClientInitiatedBootstrap.startBootstrap none) ?_ ⟨rfl, rfl, rfl, rfl, rfl, rfl⟩
    have hkept : c.cancelClientInitiatedBootstrap.startBootstrap none = c.cancelClientInitiatedBootstrap := hstarted
    rw [hkept]
    exact howned.same ⟨rfl, rfl, rfl, rfl, rfl, rfl⟩
  · next hzero =>
    have hv : c.Valid env := hvalid.mp (not_not.mp hzero)
    rcases bootstrapFinishImpl_cases env (current.map Subtype.val) false true hvalidated hstill with
      ⟨-, heq⟩ | ⟨hcommits, hfails, -⟩ | ⟨-, -, heq⟩
    · rw [heq]
      exact .out rfl
    · have hc : c.Commits env := by
        rw [Commits, hobjs] at hcommits
        exact hcommits
      refine absurd (postProcess_regular ((hkeeps.2 hv hc).same ?_ ?_)) hfails
      · exact (congrArg (fun c => c.bootstrap.allowLegacyServerInitiatedBootstrap) hstarted).trans
          (takeConnection_allowLegacy _ _)
      · exact (congrArg Client.servers hstarted).trans (takeConnection_frame _ _).1
    · rw [heq]
      exact .out (postProcess_same env false true rfl).inProgress

theorem changeServers_owned (servers : List ServerInfo) {c : Client} (h : Owned c) :
    Owned (c.changeServers servers) where
  token := h.token
  unchanged := fun hin hunchanged s hs => by
    obtain ⟨hbefore, hequal⟩ := Bool.and_eq_true_iff.mp hunchanged
    have hmap : c.bootstrapServer.map ServerInfo.sessionToken = some s.sessionToken := by
      rw [eq_of_beq hequal]
      exact congrArg (Option.map ServerInfo.sessionToken) hs
    obtain ⟨s0, hs0, htoken⟩ := Option.map_eq_some_iff.mp hmap
    exact (h.unchanged hin hbefore s0 hs0).trans htoken

/-- **One event keeps the token the Bootstrap Server's.** -/
theorem perform_owned {event : Event} {c c' : Client} (h : Bracketed c) (howned : Owned c)
    (hkeeps : c.KeepsToken event) (hrun : c.perform event = some c') : Owned c' := by
  have hrecorded : ∀ server : ServerInfo, Owned (c.recordProcessed server) := fun server =>
    ⟨fun hin => by
      obtain ⟨s, hs, htoken⟩ := howned.token hin
      exact ⟨s, List.mem_append_left _ hs, htoken⟩, howned.unchanged⟩
  have hmem : ∀ server : ServerInfo, server ∈ (c.recordProcessed server).processed := fun server =>
    List.mem_append_right _ (List.mem_singleton.mpr rfl)
  cases event with
  | request env request =>
      unfold perform at hrun
      dsimp only at hrun
      split at hrun
      · cases hrun
        exact howned
      · next server hactive =>
        exact invokeAction_owned (c := c.recordProcessed server) (h.same ⟨rfl, rfl, rfl, fun _ => rfl⟩)
          (hrecorded server) hactive (hmem server) hrun
  | answer env answer =>
      unfold perform at hrun
      dsimp only at hrun
      split at hrun
      · next sentOn server hsent hactive =>
        cases hrun
        exact responseHandler_owned env answer sentOn (hrecorded server) hactive (hmem server)
      · cases hrun
        exact howned
  | regularAvailable env current =>
      cases hrun
      have hreset : ∀ {r : Int × Client}, Owned r.2 → Owned (if r.1 = 0 then r.2.resetBackoff else r.2) := by
        intro r h
        split
        · exact h.same ⟨rfl, rfl, rfl, rfl, rfl, rfl⟩
        · exact h
      unfold notifyRegularConnectionAvailable
      split
      · exact howned
      · next hnone =>
        refine hreset ?_
        split
        · next hin =>
          exact validateAndFinish_owned h howned hin (hkeeps (Option.not_isSome_iff_eq_none.mp hnone) hin)
        · exact howned.same ⟨rfl, rfl, rfl, rfl, rfl, rfl⟩
  | serverFailed env =>
      cases hrun
      exact .out (bootstrapCleanup_bracketed env (h.same (changeServers_same _ c))).2
  | cleanup env =>
      cases hrun
      exact .out (bootstrapCleanup_bracketed env (h.same (changeServers_same _ c))).2
  | purgeBootstrap env w ret =>
      unfold perform at hrun
      dsimp only at hrun
      split at hrun
      · obtain ⟨c1, hwork, rfl⟩ := Option.map_eq_some_iff.mp hrun
        have hsame := work_sameToken hwork
        exact howned.same
          ⟨hsame.servers, hsame.processed, hsame.tokenSource, hsame.token, hsame.inProgress, hsame.unchanged⟩
      · cases hrun
        exact howned
  | requestBootstrap sent =>
      cases hrun
      have hjob : SameToken c (c.requestBootstrapJob sent) := by
        unfold requestBootstrapJob
        dsimp only
        split
        · exact ⟨rfl, rfl, rfl, rfl, rfl, rfl⟩
        · repeat' split
          all_goals exact ⟨rfl, rfl, rfl, rfl, rfl, rfl⟩
      split
      · exact howned.same hjob
      · exact howned
  | clientInitiatedScheduled =>
      cases hrun
      split
      · exact howned.same ⟨rfl, rfl, rfl, rfl, rfl, rfl⟩
      · exact howned
  | triggered =>
      cases hrun
      exact howned.same ⟨rfl, rfl, rfl, rfl, rfl, rfl⟩
  | dataModel w => exact howned.same (work_sameToken hrun)
  | reloadScheduled =>
      cases hrun
      exact howned.same ⟨rfl, rfl, rfl, rfl, rfl, rfl⟩
  | reload servers =>
      cases hrun
      split
      · exact changeServers_owned servers (c := { c with reloadServersJob := false })
          (howned.same ⟨rfl, rfl, rfl, rfl, rfl, rfl⟩)
      · exact howned
  | serversChange servers =>
      cases hrun
      exact changeServers_owned servers howned

/-! ## 3. Asking again -/

theorem sessionTokensEqual_refl (t : SessionToken) : sessionTokensEqual t t = true := by
  unfold sessionTokensEqual Duration.equal
  rw [t.2]
  simp

/-- In the phase, only the token of the Bootstrap Server decides. -/
theorem shouldRetryLoop_of_inProgress {b : BootstrapState} (hin : b.inProgress = true) :
    ∀ (servers : List ServerInfo) (active : Bool),
    shouldRetryLoop b servers false active =
      (servers.find? ServerInfo.isBootstrap).any fun s => !sessionTokensEqual b.bootstrapSessionToken s.sessionToken
  | [], _ => rfl
  | s :: ss, active => by
      rw [shouldRetryLoop]
      by_cases hs : s.isBootstrap = true
      · rw [if_pos hs, if_pos hin, List.find?_cons_of_pos hs]
        rfl
      · rw [if_neg hs, List.find?_cons_of_neg hs]
        exact shouldRetryLoop_of_inProgress hin ss _

theorem Owned.not_shouldRetry {c : Client} (h : Owned c) (hin : c.bootstrap.inProgress = true)
    (htrigger : c.bootstrap.bootstrapTrigger = false) (hunchanged : c.unchanged = true) :
    c.shouldRetryBootstrap = false := by
  unfold shouldRetryBootstrap
  rw [htrigger, if_neg Bool.false_ne_true, shouldRetryLoop_of_inProgress hin]
  cases hs : c.servers.find? ServerInfo.isBootstrap with
  | none => rfl
  | some s =>
      show (!sessionTokensEqual c.bootstrap.bootstrapSessionToken s.sessionToken) = false
      rw [h.unchanged hin hunchanged s hs, sessionTokensEqual_refl]
      rfl

end Client

/-- **The token in every run** in which no regular connection becomes available and fails to end the phase: in the
    phase it is one that the Bootstrap Server had when a request or an answer of it was handled, exchanges were
    cancelled on the Bootstrap Server's context only, and the phase alone never asks for another bootstrap. -/
theorem reachable_token {c : Client} (h : Reachable (fun event c => c.KeepsToken event) c) :
    (c.bootstrap.inProgress = true → ∃ s ∈ c.processed, s.ssid = ssidBootstrap ∧ c.tokenSource = .server s ∧
        c.bootstrap.bootstrapSessionToken = s.sessionToken) ∧
      (∀ x ∈ c.cancelled, x.server.ssid = ssidBootstrap ∧ x.sentOn = x.server.coapCtx) ∧
      (c.bootstrap.inProgress = true → c.bootstrap.bootstrapTrigger = false → c.unchanged = true →
        c.shouldRetryBootstrap = false) := by
  have hexchanges := reachable_exchanges h
  have howned : Owned c := by
    induction h with
    | init allow now => exact .out rfl
    | step event h hok hrun ih =>
        exact Client.perform_owned (reachable_bracketed h) (ih (reachable_exchanges h)) hok hrun
  refine ⟨fun hin => ?_, hexchanges.cancelled, Client.Owned.not_shouldRetry howned⟩
  obtain ⟨s, hs, htoken⟩ := howned.token hin
  exact ⟨s, hs, hexchanges.processed s hs, htoken⟩

/-! ## 4. A regular connection in the phase -/

/-- No object is valid. -/
def envInvalid : Env := { envFine with handlers := ⟨fun _ => -1, fun _ => 0, fun _ => 0⟩ }

/-- A regular server, over a connection with a token of its own. -/
def regularServerInfo : ServerInfo := ⟨1, true, false, true, ⟨⟨2, 0⟩, rfl⟩, 8⟩

theorem regularServerInfo_ssid : regularServerInfo.ssid ≠ ssidBootstrap := by decide

/-- A regular connection becomes available, out of a job or while the answer of its server is handled. -/
def available (current : Option RegularServer) : Event := .regularAvailable envInvalid current

theorem available_isSome (current : Option RegularServer) :
    ((written.get written_isSome).perform (available current)).isSome = true := rfl

theorem written_invalid : ¬(written.get written_isSome).Valid envInvalid := by decide +kernel

/-- The configuration is not valid when a regular connection becomes available out of a job. -/
theorem reachable_token_job :
    let c := ((written.get written_isSome).perform (available none)).get (available_isSome none)
    (c.bootstrap.inProgress = true → ∃ s ∈ c.processed, s.ssid = ssidBootstrap ∧ c.tokenSource = .server s ∧
        c.bootstrap.bootstrapSessionToken = s.sessionToken) ∧
      (∀ x ∈ c.cancelled, x.server.ssid = ssidBootstrap ∧ x.sentOn = x.server.coapCtx) ∧
      (c.bootstrap.inProgress = true → c.bootstrap.bootstrapTrigger = false → c.unchanged = true →
        c.shouldRetryBootstrap = false) :=
  reachable_token ((written_reachable (fun _ => trivial) fun _ => trivial).next (available none)
    (fun _ _ => ⟨fun _ => rfl, fun hv => absurd hv written_invalid⟩) (available_isSome none))

/-- Both servers are connected. -/
theorem writtenBoth_isSome : (writtenWith [regularServerInfo, bootstrapServerInfo]).isSome = true := by decide +kernel

/-- The client in the phase, with both servers. -/
def writtenBoth : Client := (writtenWith [regularServerInfo, bootstrapServerInfo]).get writtenBoth_isSome

/-- An answer of the regular server is handled. -/
def availableRegular : Event := available (some ⟨regularServerInfo, regularServerInfo_ssid⟩)

theorem availableRegular_isSome : (writtenBoth.perform availableRegular).isSome = true := rfl

/-- The configuration is not valid when the answer of a regular server is handled: the phase goes on with the token of
    that server, and the client asks for another bootstrap. -/
theorem token_not_always :
    ∃ c : Client, Reachable (fun _ _ => True) c ∧ c.bootstrap.inProgress = true ∧ regularServerInfo ∈ c.servers ∧
      c.tokenSource = .server regularServerInfo ∧
      c.bootstrap.bootstrapSessionToken = regularServerInfo.sessionToken ∧
      (∀ s ∈ c.processed, c.bootstrap.bootstrapSessionToken ≠ s.sessionToken) ∧
      c.bootstrap.bootstrapTrigger = false ∧ c.unchanged = true ∧ c.shouldRetryBootstrap = true := by
  refine ⟨(writtenBoth.perform availableRegular).get availableRegular_isSome,
    (writtenWith_reachable writtenBoth_isSome (fun _ => trivial) fun _ => trivial).next availableRegular trivial
      availableRegular_isSome, ?_, ?_, ?_, ?_, ?_, ?_, ?_, ?_⟩
  all_goals decide +kernel

end Anjay.Bootstrap
