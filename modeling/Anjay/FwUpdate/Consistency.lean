/-
  File:      Anjay/FwUpdate/Consistency.lean
  Subject:   The two states of the Firmware Update object agree, and the handlers are called in order.

  * `setResults_cases`: a call of `anjay_fw_update_set_result` inside a handler does nothing, or sends
    both states to Idle.
  * `step_consistent`: what an event keeps, when it meets the condition `Meets`.
  * `reachable_agrees`: after every run whose events meet the condition the states agree.
-/
import Anjay.FwUpdate.Object

namespace Anjay.FwUpdate

/-! ## 1. The order of the handlers -/

/-- Where the user of the handlers is. -/
inductive Phase
  | idle
  | opening (source : Source)
  | opened (source : Source)
  | finishing
  | finished
  | upgrading
  | upgraded
  deriving DecidableEq, Repr

namespace Phase

/-- The phase after a call or a return, if it is in order: `stream_open`, `stream_write`s of the same
    source, `stream_finish`, `perform_upgrade`, and `reset` anywhere. -/
def next : Phase → Entry → Option Phase
  | _, .reset => some .idle
  | .idle, .streamOpen source => some (.opening source)
  | .opening source, .streamOpened ret => some (if ret = 0 then .opened source else .idle)
  | .opened source, .streamWrite source' _ => if source = source' then some (.opened source) else none
  | .opened source, .streamWritten _ => some (.opened source)
  | .opened _, .streamFinish => some .finishing
  | .finishing, .streamFinished ret => some (if ret = 0 then .finished else .idle)
  | .finished, .performUpgrade => some .upgrading
  | .upgrading, .upgradePerformed ret => some (if ret = 0 then .upgraded else .finished)
  -- the handler that returns was interrupted by `reset`
  | .idle, .streamOpened _ => some .idle
  | .idle, .streamWritten _ => some .idle
  | .idle, .streamFinished _ => some .idle
  | .idle, .upgradePerformed _ => some .idle
  | _, _ => none

/-- The phase after a sequence of calls and returns, if they are in order. -/
def after : Phase → List Entry → Option Phase
  | p, [] => some p
  | p, entry :: entries => (p.next entry).bind fun p => p.after entries

theorem after_concat (entry : Entry) : ∀ (entries : List Entry) (p : Phase),
    p.after (entries ++ [entry]) = (p.after entries).bind fun p => p.next entry
  | [], p => by simp [after]
  | e :: entries, p => by
      rw [List.cons_append, after, after]
      cases p.next e with
      | none => rfl
      | some p => exact after_concat entry entries p

end Phase

/-- The phase the handlers are in when the object is installed; the download that is resumed is the
    first one. -/
def InitialState.phase : Option InitialState → Phase
  | none => .idle
  | some initial =>
      match initial.result with
      | .updating => .upgraded
      | .downloaded => .finished
      | .downloading => .opened (.download 0)
      | .neutral | .success | .integrityFailure | .failed => .idle

/-- **What is to hold after every event.** -/
structure Agrees (init : Phase) (fw : FwRepr) : Prop where
  handle_iff : fw.state = .downloading ↔ fw.downloadHandle ≠ none
  live_iff : fw.live = fw.downloadHandle.toList
  idle : fw.state = .idle → fw.userState = .idle
  downloading : fw.state = .downloading → fw.userState = .idle ∨ fw.userState = .downloading
  downloaded : fw.state = .downloaded → fw.userState = .downloaded
  updating : fw.state = .updating → fw.userState = .downloaded ∨ fw.userState = .updating
  ordered : init.after fw.log ≠ none

/-! ## 2. What the functions do to the states -/

/-- What the properties speak of. -/
structure View where
  state : UpdateState
  user : UpdateState
  handle : Option Nat
  live : List Nat
  job : Bool
  phase : Phase

/-- Both states Idle, and the stream of the handlers closed. -/
def View.reset (v : View) : View := { v with state := .idle, user := .idle, phase := .idle }

structure At (init : Phase) (fw : FwRepr) (v : View) : Prop where
  state : fw.state = v.state
  user : fw.userState = v.user
  handle : fw.downloadHandle = v.handle
  live : fw.live = v.live
  job : fw.updateJob = v.job
  phase : init.after fw.log = some v.phase

section Functions

variable {init : Phase} {fw : FwRepr} {v : View}

theorem At.logged (h : At init fw v) {entry : Entry} {p : Phase} (hp : v.phase.next entry = some p) :
    At init (fw.logged entry) { v with phase := p } := by
  refine ⟨h.state, h.user, h.handle, h.live, h.job, ?_⟩
  show init.after (fw.log ++ [entry]) = some p
  rw [Phase.after_concat, h.phase]
  exact hp

theorem At.setUpdateResult (h : At init fw v) (result : UpdateResult) :
    At init (setUpdateResult fw result) v := by
  unfold FwUpdate.setUpdateResult
  split
  · exact ⟨h.state, h.user, h.handle, h.live, h.job, h.phase⟩
  · exact h

theorem At.setState (h : At init fw v) (state : UpdateState) :
    At init (setState fw state) { v with state := state } := by
  unfold FwUpdate.setState
  split
  · exact ⟨rfl, h.user, h.handle, h.live, h.job, h.phase⟩
  · next hs => exact ⟨not_not.mp hs, h.user, h.handle, h.live, h.job, h.phase⟩

theorem At.update (h : At init fw v) (state : UpdateState) (result : UpdateResult) :
    At init (updateStateAndUpdateResult fw state result) { v with state := state } :=
  (h.setUpdateResult result).setState state

theorem At.handleErrResult (h : At init fw v) (state : UpdateState) (ret : Int) (result : UpdateResult) :
    At init (handleErrResult fw state ret result) { v with state := state } := h.update state _

theorem At.setUserState (h : At init fw v) (user : UpdateState) :
    At init (setUserState fw user) { v with user := user } :=
  ⟨h.state, rfl, h.handle, h.live, h.job, h.phase⟩

/-- In the state Idle every call is refused. -/
theorem setResults_of_idle (hs : fw.state = .idle) : ∀ calls : List SetResultCall, setResults calls fw = fw
  | [] => rfl
  | .mk result inReset :: calls => by
      have hone : (setResult (.mk result inReset) fw).2 = fw := by
        rw [setResult, hs]
        simp [isResultChangeAllowed]
      rw [setResults, hone]
      exact setResults_of_idle hs calls

mutual

theorem setResult_cases : ∀ (call : SetResultCall) {fw : FwRepr} {v : View}, At init fw v →
    (setResult call fw).2 = fw ∨
    (isResultChangeAllowed v.state call.result = true ∧ At init (setResult call fw).2 v.reset)
  | .mk result inReset, fw, v, h => by
      rw [setResult]
      by_cases hinst : fw.installed = false
      · exact Or.inl (by rw [if_pos hinst])
      by_cases hallowed : isResultChangeAllowed fw.state result = false
      · exact Or.inl (by rw [if_neg hinst, if_pos hallowed])
      rw [if_neg hinst, if_neg hallowed, ← h.state]
      have hlogged : At init (fw.logged .reset) { v with phase := .idle } := h.logged rfl
      refine Or.inr ⟨(by simpa using hallowed : isResultChangeAllowed fw.state result = true), ?_⟩
      rcases setResults_cases inReset hlogged with heq | ⟨-, hreset⟩
      · dsimp only
        rw [heq]
        exact (hlogged.setUserState .idle).update .idle result
      · exact (hreset.setUserState .idle).update .idle result

/-- **The calls of a handler** change nothing, or send both states to Idle. -/
theorem setResults_cases : ∀ (calls : List SetResultCall) {fw : FwRepr} {v : View}, At init fw v →
    setResults calls fw = fw ∨
    ((∃ call ∈ calls, isResultChangeAllowed v.state call.result = true) ∧
      At init (setResults calls fw) v.reset)
  | [], _, _, _ => Or.inl rfl
  | call :: calls, fw, v, h => by
      rw [setResults]
      rcases setResult_cases call h with heq | ⟨hallowed, hreset⟩
      · rw [heq]
        refine (setResults_cases calls h).imp_right ?_
        rintro ⟨⟨c, hc, hallowed⟩, hreset⟩
        exact ⟨⟨c, List.mem_cons_of_mem _ hc, hallowed⟩, hreset⟩
      · rw [setResults_of_idle hreset.state]
        exact Or.inr ⟨⟨call, List.mem_cons_self, hallowed⟩, hreset⟩

end

theorem At.resetUserState (h : At init fw v) (calls : List SetResultCall) :
    ∃ s, (s = v.state ∨ s = .idle) ∧
      At init (resetUserState calls fw) { v with state := s, user := .idle, phase := .idle } := by
  have hlogged : At init (fw.logged .reset) { v with phase := .idle } := h.logged rfl
  unfold FwUpdate.resetUserState
  rcases setResults_cases calls hlogged with heq | ⟨-, hreset⟩
  · rw [heq]
    exact ⟨v.state, Or.inl rfl, hlogged.setUserState .idle⟩
  · exact ⟨.idle, Or.inr rfl, hreset.setUserState .idle⟩

theorem At.resetUserState_idle (h : At init fw v) (hstate : v.state = .idle) (calls : List SetResultCall) :
    At init (FwUpdate.resetUserState calls fw) { v with state := .idle, user := .idle, phase := .idle } := by
  obtain ⟨s, hs, hreset⟩ := h.resetUserState calls
  obtain rfl : s = .idle := hs.elim (·.trans hstate) id
  exact hreset

theorem At.reset (h : At init fw v) (calls : List SetResultCall) : At init (reset calls fw) v.reset := by
  obtain ⟨s, -, h⟩ := h.resetUserState calls
  exact h.update .idle .initial

/-- A handler is called in order, and is not interrupted by `reset` unless it calls for it. -/
theorem At.callHandler (h : At init fw v) (call : Entry) (done : Int → Entry) (callback : Callback)
    {p p' : Phase} (hcall : v.phase.next call = some p) (hdone : p.next (done callback.ret) = some p')
    (hidle : Phase.idle.next (done callback.ret) = some .idle) :
    At init (callHandler call done callback fw).2 { v with phase := p' } ∨
    (callback.Changes v.state ∧ At init (callHandler call done callback fw).2 v.reset) := by
  have hlogged := h.logged hcall
  unfold FwUpdate.callHandler
  rcases setResults_cases callback.calls hlogged with heq | ⟨hchanges, hreset⟩
  · dsimp only
    rw [heq]
    exact Or.inl (hlogged.logged hdone)
  · exact Or.inr ⟨hchanges, hreset.logged hidle⟩

/-- A handler that ends the update with `anjay_fw_update_set_result` returns an error. -/
def Callback.Fails (callback : Callback) (state : UpdateState) : Prop :=
  callback.Changes state → callback.ret ≠ 0

theorem Callback.fails_idle (callback : Callback) : callback.Fails .idle := by
  rintro ⟨call, -, hallowed⟩
  cases hallowed

theorem At.ensureStreamOpen (h : At init fw v) (hphase : v.phase = .idle) (huser : v.user = .idle)
    (source : Source) {streamOpen : Callback} (hfails : streamOpen.Fails v.state) :
    ∃ ret fw', userStateEnsureStreamOpen source streamOpen fw = (ret, fw') ∧
      ((ret = 0 ∧ At init fw' { v with user := .downloading, phase := .opened source }) ∨
        (ret ≠ 0 ∧ ∃ s, (s = v.state ∨ s = .idle) ∧ At init fw' { v with state := s })) := by
  have huser' : fw.userState ≠ .downloading := by
    rw [h.user, huser]
    decide
  have hcases := h.callHandler (.streamOpen source) .streamOpened streamOpen
    (by rw [hphase]; rfl) rfl rfl
  rw [userStateEnsureStreamOpen, if_neg huser']
  by_cases hret : streamOpen.ret = 0
  · rcases hcases with hopened | ⟨hchanges, -⟩
    · refine ⟨0, _, if_pos hret, Or.inl ⟨rfl, ?_⟩⟩
      rw [if_pos hret] at hopened
      exact hopened.setUserState .downloading
    · exact absurd hret (hfails hchanges)
  · refine ⟨_, _, if_neg hret, Or.inr ⟨hret, ?_⟩⟩
    rw [if_neg hret] at hcases
    obtain ⟨s, u, hd, l, j, p⟩ := v
    cases hphase
    cases huser
    rcases hcases with hclosed | ⟨-, hreset⟩
    · exact ⟨s, Or.inl rfl, hclosed⟩
    · exact ⟨.idle, Or.inr rfl, hreset⟩

theorem At.streamWrite {source : Source} (h : At init fw v) (hphase : v.phase = .opened source)
    (data : List UInt8) {streamWrite : Callback} (hfails : streamWrite.Fails v.state) :
    ∃ ret fw', userStateStreamWrite source streamWrite data fw = (ret, fw') ∧
      ((ret = 0 ∧ At init fw' v) ∨
        (ret ≠ 0 ∧ ∃ s u p, At init fw' { v with state := s, user := u, phase := p })) := by
  have hcases := h.callHandler (.streamWrite source data) .streamWritten streamWrite
    (p := .opened source) (by rw [hphase]; exact if_pos rfl) rfl rfl
  refine ⟨streamWrite.ret, _, rfl, ?_⟩
  rw [← hphase] at hcases
  by_cases hret : streamWrite.ret = 0
  · rcases hcases with hwritten | ⟨hchanges, -⟩
    · exact Or.inl ⟨hret, hwritten⟩
    · exact absurd hret (hfails hchanges)
  · rcases hcases with hwritten | ⟨-, hreset⟩
    · exact Or.inr ⟨hret, _, _, _, hwritten⟩
    · exact Or.inr ⟨hret, _, _, _, hreset⟩

theorem At.finishUserStream {source : Source} (h : At init fw v) (hphase : v.phase = .opened source)
    {streamFinish : Callback} (hfails : streamFinish.Fails v.state) :
    ∃ ret fw', finishUserStream streamFinish fw = (ret, fw') ∧
      ((ret = 0 ∧ At init fw' { v with user := .downloaded, phase := .finished }) ∨
        (ret ≠ 0 ∧ ∃ s, At init fw' { v with state := s, user := .idle, phase := .idle })) := by
  have hcases := h.callHandler .streamFinish .streamFinished streamFinish (by rw [hphase]; rfl) rfl rfl
  rw [FwUpdate.finishUserStream]
  by_cases hret : streamFinish.ret = 0
  · refine ⟨_, _, if_neg (not_not.mpr hret), Or.inl ⟨hret, ?_⟩⟩
    rcases hcases with hfinished | ⟨hchanges, -⟩
    · rw [if_pos hret] at hfinished
      exact hfinished.setUserState .downloaded
    · exact absurd hret (hfails hchanges)
  · refine ⟨_, _, if_pos hret, Or.inr ⟨hret, ?_⟩⟩
    rcases hcases with hfinished | ⟨-, hreset⟩
    · rw [if_neg hret] at hfinished
      exact ⟨_, hfinished.setUserState .idle⟩
    · exact ⟨_, hreset.setUserState .idle⟩

theorem At.setResults (h : At init fw v) (calls : List SetResultCall) :
    ∃ w, (w = v ∨ w = v.reset) ∧ At init (setResults calls fw) w := by
  rcases setResults_cases calls h with heq | ⟨-, hreset⟩
  · exact ⟨v, Or.inl rfl, by rw [heq]; exact h⟩
  · exact ⟨v.reset, Or.inr rfl, hreset⟩

theorem sources_update (fw : FwRepr) (state : UpdateState) (result : UpdateResult) :
    (updateStateAndUpdateResult fw state result).sources = fw.sources := by
  have hresult : (FwUpdate.setUpdateResult fw result).sources = fw.sources := by
    unfold FwUpdate.setUpdateResult
    split <;> rfl
  unfold updateStateAndUpdateResult FwUpdate.setState
  split <;> exact hresult

mutual

theorem sources_setResult : ∀ (call : SetResultCall) (fw : FwRepr), (setResult call fw).2.sources = fw.sources
  | .mk result inReset, fw => by
      rw [setResult]
      split
      · rfl
      split
      · rfl
      · exact (sources_update _ _ _).trans (sources_setResults inReset _)

theorem sources_setResults : ∀ (calls : List SetResultCall) (fw : FwRepr),
    (setResults calls fw).sources = fw.sources
  | [], _ => rfl
  | call :: calls, fw => by rw [FwUpdate.setResults, sources_setResults calls, sources_setResult call]

end

/-- **Scheduling a download** when none is live: it is live afterwards, or the states are where they
    were, or both Idle. -/
theorem At.scheduleDownload (h : At init fw v) (hhandle : v.handle = none)
    (transportSecurityFromUri : Option String → TransportSecurity) (start : DownloadStart)
    (calls : List SetResultCall) (etag : Bool) :
    ∃ ret fw', scheduleDownload transportSecurityFromUri start calls etag fw = (ret, fw') ∧
      ((ret = 0 ∧ ∃ w, (w = v ∨ w = v.reset) ∧ At init fw' { w with
          state := .downloading, handle := some fw.sources, live := v.live ++ [fw.sources] }) ∨
        (ret ≠ 0 ∧ ∃ s u p, (s = v.state ∨ s = .idle) ∧ ((u = v.user ∧ p = v.phase) ∨ (u = .idle ∧ p = .idle)) ∧
          At init fw' { v with state := s, user := u, phase := p })) := by
  have hsecurity : ∃ ret fw1 w, (if transportSecurityFromUri fw.packageUri = .encrypted then
      getSecurityConfig start fw else (0, fw)) = (ret, fw1) ∧ (w = v ∨ w = v.reset) ∧ At init fw1 w ∧
      fw1.sources = fw.sources := by
    split
    · unfold getSecurityConfig
      split
      · next callback _ =>
        obtain ⟨w, hw, hat⟩ := h.setResults callback.calls
        exact ⟨_, _, w, rfl, hw, hat, sources_setResults _ _⟩
      · exact ⟨_, _, v, rfl, Or.inl rfl, h, rfl⟩
    · exact ⟨_, _, v, rfl, Or.inl rfl, h, rfl⟩
  obtain ⟨ret, fw1, w, hret, hw, hat, hsources⟩ := hsecurity
  rw [FwUpdate.scheduleDownload, hret]
  dsimp only
  split
  · refine ⟨_, _, rfl, Or.inr ⟨by decide, .idle, w.user, w.phase, Or.inr rfl, ?_, ?_⟩⟩
    · rcases hw with rfl | rfl
      · exact Or.inl ⟨rfl, rfl⟩
      · exact Or.inr ⟨rfl, rfl⟩
    · rcases hw with rfl | rfl <;> exact hat.handleErrResult .idle ret .unsupportedProtocol
  have hparams : ∃ w', (w' = v ∨ w' = v.reset) ∧ At init (getCoapTxParams start fw1) w' ∧
      (getCoapTxParams start fw1).sources = fw.sources := by
    unfold getCoapTxParams
    split
    · next calls _ =>
      obtain ⟨w', hw', hat'⟩ := hat.setResults calls
      refine ⟨w', ?_, hat', (sources_setResults _ _).trans hsources⟩
      rcases hw' with rfl | rfl <;> rcases hw with rfl | rfl
      · exact Or.inl rfl
      · exact Or.inr rfl
      · exact Or.inr rfl
      · exact Or.inr rfl
    · exact ⟨w, hw, hat, hsources⟩
  obtain ⟨w', hw', hat', hsources'⟩ := hparams
  have hhandle' : w'.handle = none := by rcases hw' with rfl | rfl <;> exact hhandle
  have hlive' : w'.live = v.live := by rcases hw' with rfl | rfl <;> rfl
  by_cases hstart : start.download = none
  · rw [if_pos hstart, hsources']
    refine ⟨_, _, rfl, Or.inl ⟨rfl, w', hw', ?_⟩⟩
    refine At.update (v := { w' with handle := some fw.sources, live := v.live ++ [fw.sources] }) ?_ .downloading
      .initial
    exact ⟨hat'.state, hat'.user, rfl, by rw [← hlive', ← hat'.live], hat'.job, hat'.phase⟩
  · rw [if_neg hstart]
    have hnone : (getCoapTxParams start fw1).downloadHandle = none := hat'.handle.trans hhandle'
    simp only [hnone]
    obtain ⟨s, hs, hreset⟩ := hat'.resetUserState calls
    refine ⟨_, _, rfl, Or.inr ⟨by decide, s, .idle, .idle, ?_, Or.inr ⟨rfl, rfl⟩, ?_⟩⟩
    · rcases hw' with rfl | rfl
      · exact hs
      · exact Or.inr (hs.elim id id)
    · rcases hw' with rfl | rfl <;> exact hreset.setUpdateResult _

end Functions

/-! ## 3. The invariant -/

/-- Where the object can be between two events. -/
inductive Shape : View → Prop
  | idle (job : Bool) : Shape ⟨.idle, .idle, none, [], job, .idle⟩
  | waiting (id : Nat) (job : Bool) : Shape ⟨.downloading, .idle, some id, [id], job, .idle⟩
  | streaming (id : Nat) (job : Bool) :
      Shape ⟨.downloading, .downloading, some id, [id], job, .opened (.download id)⟩
  | downloaded (job : Bool) : Shape ⟨.downloaded, .downloaded, none, [], job, .finished⟩
  | requested (job : Bool) : Shape ⟨.updating, .downloaded, none, [], job, .finished⟩
  | updating : Shape ⟨.updating, .updating, none, [], false, .upgraded⟩

def Consistent (init : Phase) (fw : FwRepr) : Prop := ∃ v, Shape v ∧ At init fw v

theorem Consistent.agrees {init : Phase} {fw : FwRepr} (h : Consistent init fw) : Agrees init fw := by
  obtain ⟨v, hshape, hat⟩ := h
  have hordered : init.after fw.log ≠ none := by rw [hat.phase]; simp
  cases hshape <;>
    exact ⟨by simp [hat.state, hat.handle], by rw [hat.live, hat.handle]; rfl, by simp [hat.state, hat.user],
      by simp [hat.state, hat.user], by simp [hat.state, hat.user], by simp [hat.state, hat.user], hordered⟩

section Events

variable {init : Phase} {fw : FwRepr} {v : View}
variable (transportSecurityFromUri : Option String → TransportSecurity)

theorem At.freed (h : At init fw v) (id : Nat) :
    At init { fw with live := fw.live.erase id } { v with live := v.live.erase id } :=
  ⟨h.state, h.user, h.handle, by rw [h.live], h.job, h.phase⟩

theorem At.freed_head {s u : UpdateState} {hd : Option Nat} {id : Nat} {l : List Nat} {j : Bool} {p : Phase}
    (h : At init fw ⟨s, u, hd, id :: l, j, p⟩) :
    At init { fw with live := fw.live.erase id } ⟨s, u, hd, l, j, p⟩ := by
  have hfreed := h.freed id
  rwa [List.erase_cons_head] at hfreed

theorem At.unhandled (h : At init fw v) :
    At init { fw with downloadHandle := none } { v with handle := none } :=
  ⟨h.state, h.user, rfl, h.live, h.job, h.phase⟩

/-- The end of a download of which a block was not taken. -/
theorem endDownload_idle {u : UpdateState} {hd : Option Nat} {id : Nat} {j : Bool} {p : Phase}
    (h : At init fw ⟨.idle, u, hd, [id], j, p⟩) (status : DownloadStatus) (handlers : Handlers) :
    At init (endDownload transportSecurityFromUri id status handlers fw)
      ⟨.idle, .idle, none, [], j, .idle⟩ := by
  have hstate : fw.state ≠ .downloading := by rw [h.state]; simp
  rw [endDownload, downloadFinished, if_pos hstate]
  exact (h.unhandled.resetUserState_idle rfl (handlers.resets 0)).freed_head

/-- The end of a download that failed: both states Idle, or the download is tried once more. -/
theorem endDownload_failed {u : UpdateState} {hd : Option Nat} {id : Nat} {j : Bool} {p : Phase}
    (h : At init fw ⟨.downloading, u, hd, [id], j, p⟩) {status : DownloadStatus} (hstatus : status ≠ .finished)
    (handlers : Handlers) :
    At init (endDownload transportSecurityFromUri id status handlers fw) ⟨.idle, .idle, none, [], j, .idle⟩ ∨
    (status = .expired ∧ Consistent init (endDownload transportSecurityFromUri id status handlers fw)) := by
  obtain ⟨s, hs, hreset⟩ := h.unhandled.resetUserState (handlers.resets 0)
  rw [endDownload, downloadFinished, if_neg (not_not.mpr h.state), if_pos hstatus]
  dsimp only
  split
  · next hretry =>
    refine Or.inr ⟨hretry.2, ?_⟩
    obtain ⟨ret, fw', hsched, ⟨rfl, w, hw, hat⟩ | ⟨hne, s', u', p', -, hup, hat⟩⟩ :=
      hreset.scheduleDownload rfl transportSecurityFromUri handlers.start (handlers.resets 1) false
    · simp only [hsched, ne_eq, not_true_eq_false, if_false]
      refine ⟨_, ?_, hat.freed_head (l := [_])⟩
      rcases hw with rfl | rfl <;> exact .waiting _ j
    · simp only [hsched, ne_eq, hne, not_false_eq_true, if_true]
      refine ⟨_, ?_, (hat.setState .idle).freed_head⟩
      rcases hup with ⟨rfl, rfl⟩ | ⟨rfl, rfl⟩ <;> exact .idle j
  · exact Or.inl (hreset.update .idle (downloadUpdateResult status)).freed_head

/-- After this the stream of the live download is open, or the client refused it. -/
theorem At.ensureDownloadOpen {id : Nat} {hd : Option Nat} {u : UpdateState} {j : Bool} {p : Phase}
    (h : At init fw ⟨.downloading, u, hd, [id], j, p⟩)
    (hup : (u = .idle ∧ p = .idle) ∨ (u = .downloading ∧ p = .opened (.download id)))
    {streamOpen : Callback} (hopen : streamOpen.Fails .downloading) :
    ∃ ret fw', userStateEnsureStreamOpen (.download id) streamOpen fw = (ret, fw') ∧
      ((ret = 0 ∧ At init fw' ⟨.downloading, .downloading, hd, [id], j, .opened (.download id)⟩) ∨
        (ret ≠ 0 ∧ ∃ s, At init fw' ⟨s, .idle, hd, [id], j, .idle⟩)) := by
  rcases hup with ⟨rfl, rfl⟩ | ⟨rfl, rfl⟩
  · obtain ⟨ret, fw', hret, hcases⟩ := h.ensureStreamOpen rfl rfl (.download id) hopen
    refine ⟨ret, fw', hret, hcases.imp_right ?_⟩
    rintro ⟨hne, s, -, hat⟩
    exact ⟨hne, s, hat⟩
  · refine ⟨0, _, ?_, Or.inl ⟨rfl, h⟩⟩
    rw [userStateEnsureStreamOpen, if_pos h.user]

/-- The end of a download whose last byte came. -/
theorem endDownload_finished {id : Nat} {hd : Option Nat} {u : UpdateState} {j : Bool} {p : Phase}
    (h : At init fw ⟨.downloading, u, hd, [id], j, p⟩)
    (hup : (u = .idle ∧ p = .idle) ∨ (u = .downloading ∧ p = .opened (.download id)))
    {handlers : Handlers} (hopen : handlers.streamOpen.Fails .downloading)
    (hfinish : handlers.streamFinish.Fails .downloading) :
    Consistent init (endDownload transportSecurityFromUri id .finished handlers fw) := by
  have hopened := h.unhandled.ensureDownloadOpen hup hopen
  rw [endDownload, downloadFinished, if_neg (not_not.mpr h.state), if_neg (not_not.mpr rfl)]
  obtain ⟨ret, fw1, hret, ⟨rfl, hat⟩ | ⟨hne, s, hat⟩⟩ := hopened
  · simp only [hret, ne_eq, not_true_eq_false, if_false]
    obtain ⟨ret, fw2, hret, ⟨rfl, hat⟩ | ⟨hne, s, hat⟩⟩ := hat.finishUserStream rfl hfinish
    · simp only [hret, not_true_eq_false, if_false]
      exact ⟨_, .downloaded j, (hat.update .downloaded .initial).freed_head⟩
    · simp only [hret, hne, not_false_eq_true, if_true]
      exact ⟨_, .idle j, (hat.handleErrResult .idle ret .notEnoughSpace).freed_head⟩
  · simp only [hret, ne_eq, hne, not_false_eq_true, if_true]
    exact ⟨_, .idle j, (hat.handleErrResult .idle ret .notEnoughSpace).freed_head⟩

/-- **A block of the live download.** -/
theorem receiveBlock_consistent {id : Nat} {u : UpdateState} {j : Bool} {p : Phase}
    (h : At init fw ⟨.downloading, u, some id, [id], j, p⟩)
    (hup : (u = .idle ∧ p = .idle) ∨ (u = .downloading ∧ p = .opened (.download id)))
    (data : List UInt8) {handlers : Handlers} (hopen : handlers.streamOpen.Fails .downloading)
    (hwrite : handlers.streamWrite.Fails .downloading) :
    Consistent init (receiveBlock transportSecurityFromUri id data handlers fw) := by
  have hopened := h.ensureDownloadOpen hup hopen
  have hrejected : ∀ {ret : Int} {fw1 : FwRepr} {s u : UpdateState} {p : Phase},
      At init fw1 ⟨s, u, some id, [id], j, p⟩ → Consistent init (endDownload transportSecurityFromUri id
        (.failed (.errno .UNKNOWN_ERROR)) handlers (handleErrResult fw1 .idle ret .notEnoughSpace)) :=
    fun hat => ⟨_, .idle j, endDownload_idle transportSecurityFromUri (hat.handleErrResult .idle _ _) _ _⟩
  rw [receiveBlock, downloadWriteBlock]
  obtain ⟨ret, fw1, hret, ⟨rfl, hat⟩ | ⟨hne, s, hat⟩⟩ := hopened
  · rw [hret]
    by_cases hdata : 0 < data.length
    · obtain ⟨ret, fw2, hret, ⟨rfl, hat'⟩ | ⟨hne, s, u, p, hat'⟩⟩ := hat.streamWrite rfl data hwrite
      · simp only [hdata, hret, ne_eq, not_true_eq_false, and_self, if_true, if_false, AvsError.isOk_ok]
        exact ⟨_, .streaming id j, hat'⟩
      · simp only [hdata, hret, ne_eq, hne, not_false_eq_true, and_self, if_true, AvsError.isOk_errno]
        exact hrejected hat'
    · simp only [hdata, ne_eq, not_true_eq_false, and_false, if_false, AvsError.isOk_ok]
      exact ⟨_, .streaming id j, hat⟩
  · simp only [hret, hne, ne_eq, not_false_eq_true, false_and, if_true, if_false, AvsError.isOk_errno]
    exact hrejected hat

/-- The loop over the payload: it fails, or all of it was written to the stream. -/
theorem writeFirmwareToStream_at {source : Source} {hd : Option Nat} {l : List Nat} {j : Bool}
    (failure : Option { result : Int // result ≠ 0 }) :
    ∀ (reads : List (List UInt8 × Callback)) (firstByte : Option UInt8) (written : Nat) {fw : FwRepr},
      At init fw ⟨.idle, .downloading, hd, l, j, .opened source⟩ →
      ∃ ret isReset fw', writeFirmwareToStream source failure reads firstByte written fw = (ret, isReset, fw') ∧
        ((ret = 0 ∧ At init fw' ⟨.idle, .downloading, hd, l, j, .opened source⟩) ∨
          (ret ≠ 0 ∧ ∃ u p, At init fw' ⟨.idle, u, hd, l, j, p⟩))
  | [], firstByte, written, fw, h => by
      cases failure with
      | none => exact ⟨_, _, _, rfl, Or.inl ⟨rfl, h⟩⟩
      | some result => exact ⟨_, _, _, rfl, Or.inr ⟨result.property, _, _, h.update .idle .connectionLost⟩⟩
  | (data, callback) :: reads, firstByte, written, fw, h => by
      rw [writeFirmwareToStream]
      dsimp only
      by_cases hdata : 0 < data.length
      · rw [if_pos hdata]
        obtain ⟨ret, fw1, hret, ⟨rfl, hat⟩ | ⟨hne, s, u, p, hat⟩⟩ := h.streamWrite rfl data callback.fails_idle
        · simp only [hret, ne_eq, not_true_eq_false, if_false]
          exact writeFirmwareToStream_at failure reads _ _ hat
        · simp only [hret, ne_eq, hne, not_false_eq_true, if_true]
          exact ⟨_, _, _, rfl, Or.inr ⟨by decide, u, p, hat.handleErrResult .idle _ _⟩⟩
      · simp only [hdata, if_false, ne_eq, not_true_eq_false]
        exact writeFirmwareToStream_at failure reads _ _ h

/-- **A Write to Package in the state Idle.** -/
theorem writeFirmware_at {j : Bool} (h : At init fw ⟨.idle, .idle, none, [], j, .idle⟩)
    (input : PackageInput) (handlers : Handlers) :
    ∃ ret isReset fw', writeFirmware input handlers fw = (ret, isReset, fw') ∧
      ((¬(ret = 0 ∧ isReset = true) ∧ Consistent init fw') ∨
        (ret = 0 ∧ isReset = true ∧ ∃ p, At init fw' ⟨.idle, .downloading, none, [], j, p⟩)) := by
  have hnew : At init { fw with sources := fw.sources + 1 } ⟨.idle, .idle, none, [], j, .idle⟩ :=
    ⟨h.state, h.user, h.handle, h.live, h.job, h.phase⟩
  rw [writeFirmware]
  dsimp only
  obtain ⟨ret, fw1, hret, ⟨rfl, hat⟩ | ⟨hne, s, hs, hat⟩⟩ :=
    hnew.ensureStreamOpen rfl rfl (.package fw.sources) handlers.streamOpen.fails_idle
  case inr =>
    obtain rfl : s = .idle := or_self_iff.mp hs
    simp only [hret, ne_eq, hne, not_false_eq_true, if_true]
    exact ⟨_, _, _, rfl, Or.inl ⟨by simp, _, .idle j, hat⟩⟩
  simp only [hret, ne_eq, not_true_eq_false, if_false]
  obtain ⟨ret, isReset, fw2, hret, ⟨rfl, hat⟩ | ⟨hne, u, p, hat⟩⟩ :=
    writeFirmwareToStream_at input.failure input.reads none 0 hat
  case inr =>
    simp only [hret, hne, not_false_eq_true, if_true]
    have hreset := hat.resetUserState_idle rfl (handlers.resets 0)
    exact ⟨_, _, _, rfl, Or.inl ⟨fun hc => hne hc.1, _, .idle j, hreset⟩⟩
  simp only [hret, not_true_eq_false, if_false]
  cases isReset with
  | true => exact ⟨_, _, _, rfl, Or.inr ⟨rfl, rfl, _, hat⟩⟩
  | false =>
      obtain ⟨ret, fw3, hret, ⟨rfl, hat⟩ | ⟨hne, s, hat⟩⟩ :=
        hat.finishUserStream rfl handlers.streamFinish.fails_idle
      · simp only [hret, not_true_eq_false, if_false, if_true]
        exact ⟨_, _, _, rfl, Or.inl ⟨by simp, _, .downloaded j, hat.update .downloaded .initial⟩⟩
      · simp only [hret, hne, not_false_eq_true, if_true]
        exact ⟨_, _, _, rfl, Or.inl ⟨by simp, _, .idle j, hat.handleErrResult .idle _ _⟩⟩

/-- Cancelling leaves no download, in every state but Updating. -/
theorem cancelExistingDownloadIfInProgress_at (hshape : Shape v) (h : At init fw v)
    (handlers : Handlers) :
    ∃ w, At init (cancelExistingDownloadIfInProgress transportSecurityFromUri handlers fw) w ∧
      w.handle = none ∧ w.live = [] := by
  have hdownload : ∀ {id u j p}, v = ⟨.downloading, u, some id, [id], j, p⟩ →
      ∃ w, At init (cancelExistingDownloadIfInProgress transportSecurityFromUri handlers fw) w ∧
        w.handle = none ∧ w.live = [] := by
    rintro id u j p rfl
    have haborted := (endDownload_failed transportSecurityFromUri h (by simp : DownloadStatus.aborted ≠ .finished)
      handlers).resolve_right (by simp)
    have hlive : id ∈ fw.live := by rw [h.live]; exact List.mem_cons_self
    rw [cancelExistingDownloadIfInProgress, if_pos h.state, h.handle]
    simp only [if_pos hlive]
    exact ⟨_, haborted, rfl, rfl⟩
  cases hshape with
  | waiting id job => exact hdownload rfl
  | streaming id job => exact hdownload rfl
  | idle | downloaded | requested | updating =>
      rw [cancelExistingDownloadIfInProgress, if_neg (by rw [h.state]; simp)]
      exact ⟨_, h, rfl, rfl⟩

/-- **The upgrade job**, in the state Updating. -/
theorem performUpgrade_consistent {j : Bool} (h : At init fw ⟨.updating, .downloaded, none, [], j, .finished⟩)
    {callback : Callback} (hcallback : callback.Changes .updating → callback.ret = 0) :
    Consistent init (performUpgrade callback fw) := by
  have hjob : At init { fw with updateJob := false } ⟨.updating, .downloaded, none, [], false, .finished⟩ :=
    ⟨h.state, h.user, h.handle, h.live, rfl, h.phase⟩
  have hcases := hjob.callHandler .performUpgrade .upgradePerformed callback rfl rfl rfl
  rw [performUpgrade, userStatePerformUpgrade, if_neg (not_not.mpr hjob.user)]
  by_cases hret : callback.ret = 0
  · have hfst : (callHandler .performUpgrade .upgradePerformed callback
        { fw with updateJob := false }).1 = 0 := hret
    rcases hcases with hat | ⟨-, hreset⟩
    · rw [if_pos hret] at hat
      simp only [hfst, hat.user, and_self, if_true, ne_eq, not_true_eq_false, if_false]
      exact ⟨_, .updating, hat.setUserState .updating⟩
    · -- the handler reported the result itself
      have huser : (callHandler .performUpgrade .upgradePerformed callback
          { fw with updateJob := false }).2.userState ≠ .downloaded := by
        rw [hreset.user]
        simp [View.reset]
      simp only [hfst, huser, and_false, if_false, ne_eq, not_true_eq_false]
      exact ⟨_, .idle false, hreset⟩
  · have hfst : (callHandler .performUpgrade .upgradePerformed callback
        { fw with updateJob := false }).1 ≠ 0 := hret
    rcases hcases with hat | ⟨hchanges, -⟩
    · rw [if_neg hret] at hat
      simp only [hfst, false_and, if_false, ne_eq, not_false_eq_true, if_true]
      exact ⟨_, .downloaded false, hat.handleErrResult .downloaded _ _⟩
    · exact absurd (hcallback hchanges) hret

theorem fwWritePackage_consistent (hshape : Shape v) (h : At init fw v) (input : PackageInput)
    (handlers : Handlers) :
    Consistent init (fwWritePackage transportSecurityFromUri input handlers fw).2 := by
  have hother : fw.state ≠ .updating → fw.state ≠ .idle →
      Consistent init (fwWritePackage transportSecurityFromUri input handlers fw).2 := by
    intro hupdating hidle
    rw [fwWritePackage, if_neg hupdating, if_neg hidle]
    dsimp only
    split
    · obtain ⟨w, hat, hhandle, hlive⟩ :=
        cancelExistingDownloadIfInProgress_at transportSecurityFromUri hshape h handlers
      obtain ⟨s, u, hd, l, j, p⟩ := w
      cases hhandle
      cases hlive
      exact ⟨_, .idle j, hat.reset (handlers.resets 2)⟩
    · exact ⟨v, hshape, h⟩
  cases hshape with
  | requested job => rw [fwWritePackage, if_pos h.state]; exact ⟨_, .requested job, h⟩
  | updating => rw [fwWritePackage, if_pos h.state]; exact ⟨_, .updating, h⟩
  | waiting id job => exact hother (by rw [h.state]; simp) (by rw [h.state]; simp)
  | streaming id job => exact hother (by rw [h.state]; simp) (by rw [h.state]; simp)
  | downloaded job => exact hother (by rw [h.state]; simp) (by rw [h.state]; simp)
  | idle job =>
      obtain ⟨ret, isReset, fw', hwrite, hcases⟩ := writeFirmware_at h input handlers
      rw [fwWritePackage, if_neg (by rw [h.state]; simp), if_pos h.state, hwrite]
      dsimp only
      rcases hcases with ⟨hne, hcons⟩ | ⟨rfl, rfl, p, hat⟩
      · rw [if_neg hne]
        exact hcons
      · rw [if_pos ⟨rfl, rfl⟩]
        exact ⟨_, .idle job, hat.reset (handlers.resets 0)⟩

theorem fwWritePackageUri_consistent (hshape : Shape v) (h : At init fw v) (newUri : Except Int String)
    (handlers : Handlers) :
    Consistent init (fwWritePackageUri transportSecurityFromUri newUri handlers fw).2 := by
  cases newUri with
  | error result => exact ⟨v, hshape, h⟩
  | ok newUri =>
      rw [fwWritePackageUri]
      dsimp only
      split
      · split
        · exact ⟨v, hshape, h⟩
        · obtain ⟨w, hat, hhandle, hlive⟩ :=
            cancelExistingDownloadIfInProgress_at transportSecurityFromUri hshape h handlers
          obtain ⟨s, u, hd, l, j, p⟩ := w
          cases hhandle
          cases hlive
          have hnone : At init { cancelExistingDownloadIfInProgress transportSecurityFromUri handlers fw with
              packageUri := none } ⟨s, u, none, [], j, p⟩ :=
            ⟨hat.state, hat.user, hat.handle, hat.live, hat.job, hat.phase⟩
          exact ⟨_, .idle j, hnone.reset (handlers.resets 2)⟩
      split
      · exact ⟨v, hshape, h⟩
      · next hidle =>
        split
        · exact ⟨v, hshape, h.setUpdateResult _⟩
        · rw [not_not, h.state] at hidle
          cases hshape with
          | waiting | streaming | downloaded | requested | updating => cases hidle
          | idle job =>
              have huri : At init { fw with packageUri := some newUri } ⟨.idle, .idle, none, [], job, .idle⟩ :=
                ⟨h.state, h.user, h.handle, h.live, h.job, h.phase⟩
              obtain ⟨ret, fw', hsched, ⟨rfl, w, hw, hat⟩ | ⟨hne, s, u, p, hs, hup, hat⟩⟩ :=
                huri.scheduleDownload rfl transportSecurityFromUri handlers.start (handlers.resets 0) false
              · rw [hsched]
                refine ⟨_, ?_, hat⟩
                rcases hw with rfl | rfl <;> exact .waiting _ job
              · rw [hsched]
                refine ⟨_, ?_, hat⟩
                rcases hs with rfl | rfl <;> rcases hup with ⟨rfl, rfl⟩ | ⟨rfl, rfl⟩ <;> exact .idle job

theorem setResult_consistent (hshape : Shape v) (h : At init fw v) (call : SetResultCall)
    (hcall : v.state = .downloading → isErrorResult call.result = false) :
    Consistent init (setResult call fw).2 := by
  rcases setResult_cases call h with heq | ⟨hallowed, hreset⟩
  · rw [heq]
    exact ⟨v, hshape, h⟩
  · cases hshape with
    | waiting id job | streaming id job =>
        exact absurd (hcall rfl) (by rw [show isErrorResult call.result = true from hallowed]; simp)
    | idle job => exact ⟨_, .idle job, hreset⟩
    | downloaded job => exact ⟨_, .idle job, hreset⟩
    | requested job => exact ⟨_, .idle job, hreset⟩
    | updating => exact ⟨_, .idle false, hreset⟩

theorem fwExecute_consistent (hshape : Shape v) (h : At init fw v) : Consistent init (fwExecute fw).2 := by
  rw [fwExecute]
  split
  · exact ⟨v, hshape, h⟩
  · next hstate =>
    rw [not_not, h.state] at hstate
    cases hshape with
    | idle | waiting | streaming | requested | updating => cases hstate
    | downloaded job => exact ⟨_, .requested job, h.update .updating .initial⟩

theorem fwOnNotify_consistent (hshape : Shape v) (h : At init fw v) (scheduled : Bool) :
    Consistent init (fwOnNotify scheduled fw) := by
  rw [fwOnNotify]
  split
  · next hc =>
    rw [h.job, h.state, h.user] at hc
    obtain ⟨hjob, hstate, huser⟩ := hc
    cases hshape with
    | idle | waiting | streaming | downloaded => cases hstate
    | updating => exact absurd rfl huser
    | requested job =>
        cases scheduled with
        | true => exact ⟨_, .requested true, h.state, h.user, h.handle, h.live, rfl, h.phase⟩
        | false => exact ⟨_, .downloaded job, rfl, h.user, h.handle, h.live, h.job, h.phase⟩
  · exact ⟨v, hshape, h⟩

end Events

/-! ## 4. Runs -/

/-- The events under which the states keep in step: no result is set while a download is under way, be
    it from a handler that then returns 0; the upgrade job does not find that the state was left; and
    the handler that performs the upgrade does not both set a result and fail. -/
def Meets (fw : FwRepr) : Event → Prop
  | .setResult call => fw.state = .downloading → isErrorResult call.result = false
  | .upgradeJob callback => fw.state = .updating ∧ (callback.Changes .updating → callback.ret = 0)
  | .block _ _ handlers => handlers.streamOpen.Fails .downloading ∧ handlers.streamWrite.Fails .downloading
  | .downloadEnd _ status handlers => status = .finished →
      handlers.streamOpen.Fails .downloading ∧ handlers.streamFinish.Fails .downloading
  | .writePackage _ _ | .writePackageUri _ _ | .execute | .notify _ => True

section Runs

variable (transportSecurityFromUri : Option String → TransportSecurity)

/-- **What one event keeps.** -/
theorem step_consistent {init : Phase} {fw fw' : FwRepr} {event : Event} (h : Consistent init fw)
    (hmeets : Meets fw event) (hstep : step transportSecurityFromUri fw event = some fw') :
    Consistent init fw' := by
  obtain ⟨v, hshape, hat⟩ := h
  cases event with
  | writePackage input handlers =>
      cases hstep
      exact fwWritePackage_consistent transportSecurityFromUri hshape hat input handlers
  | writePackageUri newUri handlers =>
      cases hstep
      exact fwWritePackageUri_consistent transportSecurityFromUri hshape hat newUri handlers
  | execute =>
      cases hstep
      exact fwExecute_consistent hshape hat
  | notify scheduled =>
      cases hstep
      exact fwOnNotify_consistent hshape hat scheduled
  | setResult call =>
      cases hstep
      exact setResult_consistent hshape hat call (by rw [← hat.state]; exact hmeets)
  | upgradeJob callback =>
      rw [step] at hstep
      split at hstep
      case isFalse => cases hstep
      next hjob =>
      cases hstep
      obtain ⟨hstate, hcallback⟩ := hmeets
      rw [hat.state] at hstate
      cases hshape with
      | idle | waiting | streaming | downloaded => cases hstate
      | updating => exact absurd (hat.job.symm.trans hjob) (by simp)
      | requested job => exact performUpgrade_consistent hat hcallback
  | block id data handlers =>
      rw [step] at hstep
      split at hstep
      case isFalse => cases hstep
      next hlive =>
      cases hstep
      rw [hat.live] at hlive
      cases hshape with
      | idle | downloaded | requested | updating => cases hlive
      | waiting id' job =>
          obtain rfl := List.mem_singleton.mp hlive
          exact receiveBlock_consistent transportSecurityFromUri hat (Or.inl ⟨rfl, rfl⟩) data hmeets.1 hmeets.2
      | streaming id' job =>
          obtain rfl := List.mem_singleton.mp hlive
          exact receiveBlock_consistent transportSecurityFromUri hat (Or.inr ⟨rfl, rfl⟩) data hmeets.1 hmeets.2
  | downloadEnd id status handlers =>
      rw [step] at hstep
      split at hstep
      case isFalse => cases hstep
      next hlive =>
      cases hstep
      rw [hat.live] at hlive
      have hend : ∀ {u hd j p}, At init fw ⟨.downloading, u, hd, [id], j, p⟩ →
          ((u = .idle ∧ p = .idle) ∨ (u = .downloading ∧ p = .opened (.download id))) →
          Consistent init (endDownload transportSecurityFromUri id status handlers fw) := by
        intro u hd j p hat hup
        by_cases hstatus : status = .finished
        · subst hstatus
          exact endDownload_finished transportSecurityFromUri hat hup (hmeets rfl).1 (hmeets rfl).2
        · rcases endDownload_failed transportSecurityFromUri hat hstatus handlers with hidle | ⟨-, hcons⟩
          · exact ⟨_, .idle j, hidle⟩
          · exact hcons
      cases hshape with
      | idle | downloaded | requested | updating => cases hlive
      | waiting id' job =>
          obtain rfl := List.mem_singleton.mp hlive
          exact hend hat (Or.inl ⟨rfl, rfl⟩)
      | streaming id' job =>
          obtain rfl := List.mem_singleton.mp hlive
          exact hend hat (Or.inr ⟨rfl, rfl⟩)

/-- The download of an earlier installation is resumed, if it can be. -/
theorem resume_consistent (resumeOffset : Nat) (resumeEtag : Bool) (persistedUri : Option String)
    (copied : Bool) (starts : DownloadStart × DownloadStart) (resets : Nat → List SetResultCall) :
    Consistent (.opened (.download 0)) (initializeFwRepr transportSecurityFromUri
      (some ⟨.downloading, persistedUri, resumeOffset, resumeEtag⟩) copied starts resets .zero) := by
  have hfirst : At (.opened (.download 0)) (setUserState .zero .downloading)
      ⟨.idle, .downloading, none, [], false, .opened (.download 0)⟩ := ⟨rfl, rfl, rfl, rfl, rfl, rfl⟩
  have hrestart : ∃ repr w, (if (decide (0 < resumeOffset) && !resumeEtag) = true then
        resetUserState (resets 0) (setUserState .zero .downloading)
      else setUserState .zero .downloading) = repr ∧ repr.sources = 0 ∧
      At (.opened (.download 0)) repr w ∧ (w = ⟨.idle, .downloading, none, [], false, .opened (.download 0)⟩ ∨
        w = ⟨.idle, .idle, none, [], false, .idle⟩) := by
    split
    · exact ⟨_, _, rfl, sources_setResults _ _, hfirst.resetUserState_idle rfl (resets 0), Or.inr rfl⟩
    · exact ⟨_, _, rfl, rfl, hfirst, Or.inl rfl⟩
  obtain ⟨repr, w, hrepr, hsources, hat, hw⟩ := hrestart
  have hshape : ∀ {w' : View}, (w' = w ∨ w' = w.reset) →
      Shape { w' with state := .downloading, handle := some 0, live := w.live ++ [0] } := by
    intro w' hw'
    rcases hw' with rfl | rfl <;> rcases hw with rfl | rfl
    · exact .streaming 0 false
    · exact .waiting 0 false
    · exact .waiting 0 false
    · exact .waiting 0 false
  have hidle : w.state = .idle ∧ w.handle = none ∧ w.live = [] ∧ w.job = false := by
    rcases hw with rfl | rfl <;> exact ⟨rfl, rfl, rfl, rfl⟩
  obtain ⟨state, user, handle, live, job, phase⟩ := w
  obtain ⟨rfl, rfl, rfl, rfl⟩ := hidle
  rw [initializeFwRepr]
  simp only [hrepr]
  split
  · exact ⟨_, .idle false, hat.resetUserState_idle rfl (resets 1)⟩
  · next uri huri =>
    have hat' : At (.opened (.download 0)) { repr with packageUri := some uri }
        ⟨.idle, user, none, [], false, phase⟩ := ⟨hat.state, hat.user, hat.handle, hat.live, hat.job, hat.phase⟩
    obtain ⟨ret, fw', hsched, ⟨rfl, w', hw', hat'⟩ | ⟨hne, s, u, p, hs, -, hat'⟩⟩ :=
      hat'.scheduleDownload rfl transportSecurityFromUri starts.1 (resets 1) resumeEtag
    · simp only [hsched, ne_eq, not_true_eq_false, if_false]
      rw [show ({ repr with packageUri := some uri } : FwRepr).sources = 0 from hsources] at hat'
      exact ⟨_, hshape hw', hat'⟩
    · obtain rfl : s = .idle := or_self_iff.mp hs
      simp only [hsched, ne_eq, hne, not_false_eq_true, if_true]
      have hclosed := hat'.resetUserState_idle rfl (resets 2)
      split
      · obtain ⟨ret, fw'', hsched', ⟨-, w'', hw'', hat''⟩ | ⟨-, s, u, p, hs, hup, hat''⟩⟩ :=
          hclosed.scheduleDownload rfl transportSecurityFromUri starts.2 (resets 3) false
        · rw [hsched']
          refine ⟨_, ?_, hat''⟩
          rcases hw'' with rfl | rfl <;> exact .waiting _ false
        · rw [hsched']
          refine ⟨_, ?_, hat''⟩
          rcases hs with rfl | rfl <;> rcases hup with ⟨rfl, rfl⟩ | ⟨rfl, rfl⟩ <;> exact .idle false
      · exact ⟨_, .idle false, hclosed⟩

theorem install_consistent (initialState : Option InitialState) (copied : Bool)
    (starts : DownloadStart × DownloadStart) (resets : Nat → List SetResultCall) :
    Consistent (InitialState.phase initialState)
      (install transportSecurityFromUri initialState copied starts resets) := by
  suffices h : Consistent (InitialState.phase initialState)
      (initializeFwRepr transportSecurityFromUri initialState copied starts resets .zero) by
    obtain ⟨v, hshape, hat⟩ := h
    exact ⟨v, hshape, hat.state, hat.user, hat.handle, hat.live, hat.job, hat.phase⟩
  cases initialState with
  | none => exact ⟨_, .idle false, rfl, rfl, rfl, rfl, rfl, rfl⟩
  | some initial =>
      obtain ⟨result, persistedUri, resumeOffset, resumeEtag⟩ := initial
      cases result with
      | downloading =>
          exact resume_consistent transportSecurityFromUri resumeOffset resumeEtag persistedUri copied starts resets
      | updating => exact ⟨_, .updating, rfl, rfl, rfl, rfl, rfl, rfl⟩
      | downloaded => exact ⟨_, .downloaded false, rfl, rfl, rfl, rfl, rfl, rfl⟩
      | neutral | success | integrityFailure | failed =>
          exact ⟨_, .idle false, rfl, rfl, rfl, rfl, rfl, rfl⟩

/-- The states of the object in the runs whose events meet a condition. -/
inductive Reachable (cond : FwRepr → Event → Prop) (initialState : Option InitialState) : FwRepr → Prop
  | install (copied : Bool) (starts : DownloadStart × DownloadStart) (resets : Nat → List SetResultCall) :
      Reachable cond initialState (install transportSecurityFromUri initialState copied starts resets)
  | step {fw fw' : FwRepr} (event : Event) (h : Reachable cond initialState fw) (hcond : cond fw event)
      (hstep : step transportSecurityFromUri fw event = some fw') : Reachable cond initialState fw'

theorem reachable_consistent {initialState : Option InitialState} {fw : FwRepr}
    (h : Reachable transportSecurityFromUri Meets initialState fw) :
    Consistent (InitialState.phase initialState) fw := by
  induction h with
  | install copied starts resets => exact install_consistent transportSecurityFromUri initialState copied starts resets
  | step _ _ hcond hstep ih => exact step_consistent transportSecurityFromUri ih hcond hstep

/-- **After every run whose events meet the condition** the states agree and the handlers were called in
    order. -/
theorem reachable_agrees {initialState : Option InitialState} {fw : FwRepr}
    (h : Reachable transportSecurityFromUri Meets initialState fw) :
    Agrees (InitialState.phase initialState) fw :=
  (reachable_consistent transportSecurityFromUri h).agrees

end Runs

/-- Handlers that succeed, and a downloader that starts every download. -/
def Handlers.quiet : Handlers :=
  ⟨⟨[], 0⟩, ⟨[], 0⟩, ⟨[], 0⟩, fun _ => [], ⟨none, true, none, none⟩⟩

theorem Callback.quiet_fails (ret : Int) (state : UpdateState) : (⟨[], ret⟩ : Callback).Fails state :=
  fun ⟨_, hmem, _⟩ => absurd hmem List.not_mem_nil

/-- A download in one block, and an upgrade whose handler reports the success itself. -/
theorem reachable_agrees_upgrade :
    ∃ fw, fw.result = .success ∧ fw.state = .idle ∧ Agrees (InitialState.phase none) fw := by
  have hquiet : (⟨[], 0⟩ : Callback).Fails .downloading := Callback.quiet_fails 0 .downloading
  have hinstall : Reachable (fun _ => .nosec) Meets none
      (install (fun _ => .nosec) none true (Handlers.quiet.start, Handlers.quiet.start) fun _ => []) :=
    .install true _ _
  have huri := hinstall.step (.writePackageUri (.ok "coap://h/f") .quiet) trivial rfl
  have hblock := huri.step (.block 0 [1, 2] .quiet) ⟨hquiet, hquiet⟩ rfl
  have hend := hblock.step (.downloadEnd 0 .finished .quiet) (fun _ => ⟨hquiet, hquiet⟩) rfl
  have hexecute := hend.step .execute trivial rfl
  have hnotify := hexecute.step (.notify true) trivial rfl
  have hjob := hnotify.step (.upgradeJob ⟨[.mk .success []], 0⟩) ⟨by decide +kernel, fun _ => rfl⟩ rfl
  exact ⟨_, by decide +kernel, by decide +kernel, reachable_agrees _ hjob⟩

/-- A result is set while the download is under way: the state is Idle, and the download goes on. -/
theorem agrees_not_always : ¬∀ (transportSecurityFromUri : Option String → TransportSecurity)
    (initialState : Option InitialState) (fw : FwRepr),
    Reachable transportSecurityFromUri (fun _ _ => True) initialState fw →
      Agrees (InitialState.phase initialState) fw := by
  intro h
  have hinstall : Reachable (fun _ => .nosec) (fun _ _ => True) none
      (install (fun _ => .nosec) none true (Handlers.quiet.start, Handlers.quiet.start) fun _ => []) :=
    .install true _ _
  have huri := hinstall.step (.writePackageUri (.ok "coap://h/f") .quiet) trivial rfl
  have hset := huri.step (.setResult (.mk .failed [])) trivial rfl
  exact absurd (h _ _ _ hset).handle_iff (by decide +kernel)

/-- The result is set while the job waits: the job brings the state Downloaded back. -/
example : (List.foldlM (step fun _ => .nosec)
    (install (fun _ => .nosec) (some ⟨.downloaded, none, 0, false⟩) true
      (Handlers.quiet.start, Handlers.quiet.start) fun _ => [])
    [.execute, .notify true, .setResult (.mk .failed []), .upgradeJob ⟨[], 0⟩]).map
      (fun fw => (fw.state, fw.userState)) = some (.downloaded, .idle) := by decide +kernel

/-- The handler that performs the upgrade sets the result, and fails. -/
example : (List.foldlM (step fun _ => .nosec)
    (install (fun _ => .nosec) (some ⟨.downloaded, none, 0, false⟩) true
      (Handlers.quiet.start, Handlers.quiet.start) fun _ => [])
    [.execute, .notify true, .upgradeJob ⟨[.mk .failed []], -1⟩]).map
      (fun fw => (fw.state, fw.userState)) = some (.downloaded, .idle) := by decide +kernel

end Anjay.FwUpdate
