/-
  File:      Anjay/Observe/Notifying.lean
  Subject:   What a change of the data model does to the observations (`_anjay_observe_notify`).

  * `observeNotify`: every matching entry of the observed paths of every matching connection schedules a trigger of
    each of its observations.
  * `reachable_notify`: in every reachable state of the module, the trigger of an observation is scheduled once for
    every path of it that is a prefix of the changed one or has it as a prefix, with the period of that path, and no
    other observation changes.
-/
import Anjay.Observe.Tracking

namespace Anjay.Observe

open AttrStorage Dm Lib Paths

variable {β : Type}

/-! ## 1. Notifying -/

/-- What the environment decides about `_anjay_observe_notify`: the effective attributes of a path for a server, and
    what `schedule_trigger` meets in each of its calls, by their number. -/
structure NotifyEnv where
  attrs : ConnectionRef → List Id → Except Failure InternalRAttrs
  schedule : Nat → ScheduleEnv

/-- ANJAY_DM_OI_ATTRIBUTES_EMPTY. -/
def oiAttributesEmpty : OiAttributes := ⟨periodNone, periodNone, periodNone, periodNone⟩

/-- `get_oi_attributes`. -/
def getOiAttributes (attrs : ConnectionRef → List Id → Except Failure InternalRAttrs) (ref : ConnectionRef)
    (path : UriPath) : OiAttributes :=
  match attrs ref path.validIds with
  | .error _ => oiAttributesEmpty
  | .ok attrs => attrs.standard.common

/-- The period with which a change of a path is notified. -/
def notifyPeriod (env : NotifyEnv) (ref : ConnectionRef) (path : UriPath) : Int :=
  max (getOiAttributes env.attrs ref path).minPeriod.toInt 0

/-- The state of `_anjay_observe_notify`, with the number of calls of `schedule_trigger` so far. -/
structure Notifying (β : Type) where
  result : Int
  calls : Nat
  state : State β

/-- The loop of `notify_path_changed` over the references; `none` where one does not lead to an observation. -/
def notifyRefs (env : NotifyEnv) (ref : ConnectionRef) (period : Int) : List Nat → Notifying β → Option (Notifying β)
  | [], n => some n
  | a :: as, n =>
      match n.state.findNewest ref a with
      | none => none
      | some (o, newest) =>
          notifyRefs env ref period as
            ⟨updateRet n.result (scheduleTrigger (env.schedule n.calls) newest.timestamp period o).1, n.calls + 1,
              n.state.scheduleTrigger (env.schedule n.calls) newest.timestamp period ref a⟩

/-- `notify_path_changed`. -/
def notifyPathChanged (env : NotifyEnv) (ref : ConnectionRef) : MatchingClb Nat (Option (Notifying β)) := fun e n =>
  (0, n.bind (notifyRefs env ref (notifyPeriod env ref e.path) e.refs))

/-- The loop of `observe_notify_impl`, with the trees of the observed paths. -/
def observeNotifyImpl (env : NotifyEnv) (trees : ConnectionRef → ObservedPaths Nat) (path : UriPath) (ssid : Id)
    (invertServerMatch : Bool) : List ConnectionRef → Option (Notifying β) → Option (Notifying β)
  | [], n => n
  | ref :: refs, n =>
      if (ref.ssid == ssid) == invertServerMatch then observeNotifyImpl env trees path ssid invertServerMatch refs n
      else
        match observeForEachMatching (trees ref) path (notifyPathChanged env ref) n with
        | none => none
        | some (_, n) => observeNotifyImpl env trees path ssid invertServerMatch refs n

/-- `_anjay_observe_notify`. -/
def observeNotify (env : NotifyEnv) (trees : ConnectionRef → ObservedPaths Nat) (path : UriPath) (ssid : Id)
    (invertSsidMatch : Bool) (s : State β) : Option (Notifying β) :=
  observeNotifyImpl env trees path ssid invertSsidMatch (s.connectionEntries.map ConnectionEntry.connRef)
    (some ⟨0, 0, s⟩)

/-! ## 2. Scheduling several triggers -/

/-- A call of `schedule_trigger`: what it meets, and the period it is given. -/
abbrev TriggerCall := ScheduleEnv × Int

/-- Some calls of `schedule_trigger` on one observation, one after the other. -/
def triggered (newest : Duration) (calls : List TriggerCall) (o : Observation β) : Observation β :=
  calls.foldl (fun o call => (scheduleTrigger call.1 newest call.2 o).2) o

theorem triggered_append (newest : Duration) (as bs : List TriggerCall) (o : Observation β) :
    triggered newest (as ++ bs) o = triggered newest bs (triggered newest as o) := List.foldl_append

theorem triggered_frames (newest : Duration) : ∀ (calls : List TriggerCall) (o : Observation β),
    (triggered newest calls o).addr = o.addr ∧ (triggered newest calls o).lastUnsent = o.lastUnsent ∧
      (triggered newest calls o).lastSent = o.lastSent ∧ (triggered newest calls o).tracked = o.tracked
  | [], _ => ⟨rfl, rfl, rfl, rfl⟩
  | call :: calls, o => by
      obtain ⟨haddr, hunsent, hsent, htracked⟩ := triggered_frames newest calls (scheduleTrigger call.1 newest call.2 o).2
      obtain ⟨haddr', hunsent', hsent'⟩ := scheduleTrigger_frames call.1 newest call.2 o
      have htracked' := ConnectionEntry.scheduleTrigger_tracked call.1 newest call.2 o
      exact ⟨haddr.trans haddr', hunsent.trans hunsent', hsent.trans hsent', htracked.trans htracked'⟩

/-- The time stamp of the newest value of an observation. -/
def ConnectionEntry.newestStamp (c : ConnectionEntry β) (o : Observation β) : Duration :=
  ((c.newestValue o).map Value.timestamp).getD .zero

/-- All observations of a connection, after some calls of `schedule_trigger` for each. -/
def ConnectionEntry.triggered (calls : Nat → List TriggerCall) (c : ConnectionEntry β) : ConnectionEntry β :=
  { c with observations := c.observations.map fun o => Observe.triggered (c.newestStamp o) (calls o.addr) o }

/-- All observations of all connections. -/
def State.triggered (calls : ConnectionRef → Nat → List TriggerCall) (s : State β) : State β :=
  { s with connectionEntries := s.connectionEntries.map fun c => c.triggered (calls c.connRef) }

section Triggered

variable {s : State β} {c : ConnectionEntry β} {o : Observation β} {ref : ConnectionRef} {a : Nat}

theorem newestStamp_triggered (calls : Nat → List TriggerCall) (c : ConnectionEntry β) (newest : Duration)
    (cs : List TriggerCall) (o : Observation β) :
    (c.triggered calls).newestStamp (triggered newest cs o) = c.newestStamp o := by
  obtain ⟨-, hunsent, hsent, -⟩ := triggered_frames newest cs o
  unfold ConnectionEntry.newestStamp ConnectionEntry.newestValue
  rw [hunsent, hsent]
  rfl

theorem State.triggered_triggered (as bs : ConnectionRef → Nat → List TriggerCall) (s : State β) :
    (s.triggered as).triggered bs = s.triggered fun ref a => as ref a ++ bs ref a := by
  unfold State.triggered
  dsimp only
  rw [List.map_map]
  refine congrArg (fun cs => ({ s with connectionEntries := cs } : State β)) (List.map_congr_left fun c _ => ?_)
  show (c.triggered (as c.connRef)).triggered (bs c.connRef) = c.triggered fun a => as c.connRef a ++ bs c.connRef a
  unfold ConnectionEntry.triggered
  dsimp only
  rw [List.map_map]
  refine congrArg (fun os => ({ c with observations := os } : ConnectionEntry β)) (List.map_congr_left fun o _ => ?_)
  have hstamp := newestStamp_triggered (as c.connRef) c (c.newestStamp o) (as c.connRef o.addr) o
  have haddr := (triggered_frames (c.newestStamp o) (as c.connRef o.addr) o).1
  unfold ConnectionEntry.triggered at hstamp
  show Observe.triggered _ (bs c.connRef (Observe.triggered (c.newestStamp o) (as c.connRef o.addr) o).addr) _ = _
  rw [haddr, triggered_append]
  exact congrArg (fun stamp => Observe.triggered stamp (bs c.connRef o.addr) _) hstamp

theorem State.triggered_nil (s : State β) : s.triggered (fun _ _ => []) = s := by
  have hentry : ∀ c : ConnectionEntry β, c.triggered (fun _ => []) = c := by
    intro c
    have hobs : (c.observations.map fun o => Observe.triggered (c.newestStamp o) [] o) = c.observations := List.map_id _
    unfold ConnectionEntry.triggered
    rw [hobs]
  have hentries : (s.connectionEntries.map fun c => c.triggered (fun _ => [])) = s.connectionEntries := by
    rw [List.map_congr_left fun c _ => hentry c]
    exact List.map_id _
  unfold State.triggered
  rw [hentries]

end Triggered

/-! ## 3. One path of one connection -/

section OnePath

variable {s : State β} {c : ConnectionEntry β} {o : Observation β} {ref : ConnectionRef} {a : Nat}

/-- Where the pointers are right, every observation has a newest value. -/
theorem ConnectionEntry.Linked.newestValue_isSome (h : c.Linked) (hs : c.AllSent) (ho : o ∈ c.observations) :
    ∃ newest, c.newestValue o = some newest := by
  unfold newestValue
  cases hlast : o.lastUnsent with
  | none =>
      obtain ⟨v, hv⟩ := hs o ho
      exact ⟨v, by rw [hv]; rfl⟩
  | some ptr =>
      have hmem : ptr ∈ c.unsent.map Value.addr :=
        refersTo_subset (lastAddr_mem ((h.lastUnsent o ho).symm.trans hlast))
      obtain ⟨v, hv, haddr⟩ := List.mem_map.mp hmem
      have hsome : (c.unsent.find? fun v => v.addr == ptr).isSome = true :=
        List.find?_isSome.mpr ⟨v, hv, beq_iff_eq.mpr haddr⟩
      exact Option.isSome_iff_exists.mp hsome

theorem Inv.findNewest_isSome (h : Inv s) (ho : s.Observes ref a) :
    ∃ c o newest, s.entry ref = some c ∧ o ∈ c.observations ∧ o.addr = a ∧ c.newestValue o = some newest ∧
      s.findNewest ref a = some (o, newest) := by
  obtain ⟨c, hc, hmem⟩ := ho
  obtain ⟨hcs, -⟩ := State.entry_some hc
  obtain ⟨o', ho', haddr'⟩ := List.mem_map.mp hmem
  have hsome : (c.observations.find? fun o => o.addr == a).isSome = true :=
    List.find?_isSome.mpr ⟨o', ho', beq_iff_eq.mpr haddr'⟩
  obtain ⟨o, hfind⟩ := Option.isSome_iff_exists.mp hsome
  have hoc := List.mem_of_find?_eq_some hfind
  have haddr : o.addr = a := by simpa using List.find?_some hfind
  obtain ⟨newest, hnewest⟩ := (h.linked c hcs).newestValue_isSome (h.allSent c hcs) hoc
  refine ⟨c, o, newest, hc, hoc, haddr, hnewest, ?_⟩
  unfold State.findNewest
  rw [hc]
  dsimp only
  rw [hfind]
  dsimp only
  rw [hnewest]
  rfl

theorem ConnectionEntry.view_addrs (c : ConnectionEntry β) :
    c.view.2.map Tracked.addr = c.observations.map Observation.addr := List.map_map

/-- Whether there is an observation can be seen in the view. -/
theorem State.Observes.of_view {s' : State β} (ho : s.Observes ref a) (hview : s'.view = s.view) : s'.Observes ref a := by
  obtain ⟨c, hc, hmem⟩ := ho
  have hfind := s'.find_view ref
  rw [hview, s.find_view, hc] at hfind
  cases hc' : s'.entry ref with
  | none =>
      rw [hc'] at hfind
      cases hfind
  | some c' =>
      rw [hc'] at hfind
      have haddrs := congrArg (fun v : ConnectionRef × List Tracked => v.2.map Tracked.addr) (Option.some.inj hfind)
      refine ⟨c', hc', ?_⟩
      rw [← c'.view_addrs, ← show c.view.2.map Tracked.addr = c'.view.2.map Tracked.addr from haddrs, c.view_addrs]
      exact hmem

/-- A list for each observation, of one connection only. -/
def only {α : Type} (ref : ConnectionRef) (f : Nat → List α) (r : ConnectionRef) (b : Nat) : List α :=
  if r = ref then f b else []

/-- A call for one observation. -/
def callFor (a : Nat) (call : TriggerCall) (b : Nat) : List TriggerCall := if b = a then [call] else []

/-- **One call of `schedule_trigger`.** -/
theorem Inv.scheduleTrigger_eq (h : Inv s) (hc : s.entry ref = some c) (ho : o ∈ c.observations) {newest : Value β}
    (hnewest : c.newestValue o = some newest) (call : TriggerCall) :
    s.scheduleTrigger call.1 newest.timestamp call.2 ref o.addr = s.triggered (only ref (callFor o.addr call)) := by
  obtain ⟨hmem, hcref⟩ := State.entry_some hc
  have hentries : (s.scheduleTrigger call.1 newest.timestamp call.2 ref o.addr).connectionEntries =
      (s.triggered (only ref (callFor o.addr call))).connectionEntries := by
    refine List.map_congr_left fun d hd => ?_
    show (if d.connRef = ref then _ else d) = d.triggered (only ref (callFor o.addr call) d.connRef)
    unfold ConnectionEntry.triggered
    split
    next heq =>
      obtain rfl := h.toSound.eq_of_mem hd hmem (heq.trans hcref.symm)
      refine congrArg (fun os => ({ d with observations := os } : ConnectionEntry β))
        (List.map_congr_left fun o' ho' => ?_)
      unfold only callFor
      rw [if_pos heq]
      by_cases haddr : o'.addr = o.addr
      · obtain rfl := List.inj_on_of_nodup_map (h.linked d hd).observations ho' ho haddr
        have hstamp : d.newestStamp o' = newest.timestamp := by
          unfold ConnectionEntry.newestStamp
          rw [hnewest]
          rfl
        rw [if_pos rfl, if_pos rfl, hstamp]
        rfl
      · rw [if_neg haddr, if_neg haddr]
        rfl
    next hne =>
      have hsame : (d.observations.map fun o' => Observe.triggered (d.newestStamp o')
          (only ref (callFor o.addr call) d.connRef o'.addr) o') = d.observations := by
        refine (List.map_congr_left fun o' _ => ?_).trans (List.map_id _)
        unfold only
        rw [if_neg hne]
        rfl
      rw [hsame]
  unfold State.scheduleTrigger State.modify State.triggered at hentries ⊢
  exact congrArg (fun cs => ({ s with connectionEntries := cs } : State β)) hentries

/-- What a part of `_anjay_observe_notify` does: some calls of `schedule_trigger`, with the periods `periods r b` for the
    observation at `b` of the connection `r`. -/
def Notifies (periods : ConnectionRef → Nat → List Int) (s : State β) (n : Option (Notifying β)) : Prop :=
  ∃ n', n = some n' ∧ Inv n'.state ∧ (∀ r b, s.Observes r b → n'.state.Observes r b) ∧ ∃ calls,
    n'.state = s.triggered calls ∧ ∀ r b, (calls r b).map Prod.snd = periods r b

theorem Inv.notifies_nil (h : Inv s) {n : Notifying β} (hn : n.state = s) : Notifies (fun _ _ => []) s (some n) :=
  ⟨n, rfl, hn ▸ h, fun _ _ ho => hn ▸ ho, fun _ _ => [], by rw [State.triggered_nil, hn], fun _ _ => rfl⟩

theorem Notifies.trans {ps qs : ConnectionRef → Nat → List Int} {n : Option (Notifying β)}
    {f : Option (Notifying β) → Option (Notifying β)} (h : Notifies ps s n)
    (hf : ∀ n', n = some n' → Inv n'.state → (∀ r b, s.Observes r b → n'.state.Observes r b) →
      Notifies qs n'.state (f n)) :
    Notifies (fun r b => ps r b ++ qs r b) s (f n) := by
  obtain ⟨n', hrun, hinv, hkeeps, calls, hstate, hperiods⟩ := h
  obtain ⟨n'', hrun', hinv', hkeeps', calls', hstate', hperiods'⟩ := hf n' hrun hinv hkeeps
  refine ⟨n'', hrun', hinv', fun r b hb => hkeeps' r b (hkeeps r b hb), fun r b => calls r b ++ calls' r b, ?_,
    fun r b => ?_⟩
  · rw [hstate', hstate, State.triggered_triggered]
  · show (calls r b ++ calls' r b).map Prod.snd = ps r b ++ qs r b
    rw [List.map_append, hperiods, hperiods']

theorem Notifies.congr {ps qs : ConnectionRef → Nat → List Int} {n : Option (Notifying β)} (h : Notifies ps s n)
    (heq : ∀ r b, ps r b = qs r b) : Notifies qs s n :=
  funext (fun r => funext fun b => heq r b) ▸ h

/-- One call of `schedule_trigger`, for an observation that is there. -/
theorem Inv.notifies_one (h : Inv s) (ho : s.Observes ref a) (env : NotifyEnv) (period : Int) {n : Notifying β}
    (hn : n.state = s) : ∃ n', Notifies (only ref fun b => if b = a then [period] else []) s (some n') ∧
      ∀ as, notifyRefs env ref period (a :: as) n = notifyRefs env ref period as n' := by
  obtain ⟨c, o, newest, hc, hoc, rfl, hnewest, hfind⟩ := h.findNewest_isSome ho
  refine ⟨⟨updateRet n.result (scheduleTrigger (env.schedule n.calls) newest.timestamp period o).1, n.calls + 1,
    s.scheduleTrigger (env.schedule n.calls) newest.timestamp period ref o.addr⟩,
    ⟨_, rfl, h.frames (scheduleTrigger_frames _ _ _) _, fun r b hb => ?_, _,
      h.scheduleTrigger_eq hc hoc hnewest (env.schedule n.calls, period), fun r b => ?_⟩, fun as => ?_⟩
  · have hf : Untracked fun o : Observation β => (scheduleTrigger (env.schedule n.calls) newest.timestamp period o).2 :=
      ConnectionEntry.scheduleTrigger_tracked _ _ _
    exact hb.of_view (view_updateObservation hf ref o.addr s)
  · unfold only callFor
    by_cases hr : r = ref
    · by_cases hb : b = o.addr <;> simp [hr, hb]
    · simp [hr]
  · rw [notifyRefs, hn, hfind]

/-- **The references of one path**: each gets a trigger. -/
theorem notifyRefs_spec (env : NotifyEnv) (ref : ConnectionRef) (period : Int) : ∀ (as : List Nat) {n : Notifying β},
    Inv n.state → (∀ a ∈ as, n.state.Observes ref a) →
    Notifies (only ref fun b => List.replicate (as.count b) period) n.state (notifyRefs env ref period as n)
  | [], n, h, _ => (h.notifies_nil rfl).congr fun r b => (ite_self []).symm
  | a :: as, n, h, hobs => by
      obtain ⟨n', hone, hrun⟩ := h.notifies_one (hobs a List.mem_cons_self) env period rfl
      rw [hrun]
      have hrest := hone.trans (f := fun m => m.bind (notifyRefs env ref period as)) fun m hm hinv hkeeps => by
        cases hm
        exact notifyRefs_spec env ref period as hinv fun b hb => hkeeps ref b (hobs b (List.mem_cons_of_mem _ hb))
      refine hrest.congr fun r b => ?_
      unfold only
      split
      · dsimp only
        rw [List.count_cons]
        by_cases hb : b = a
        · rw [if_pos hb, if_pos (by simp [hb]), Nat.add_comm, List.replicate_add]
          rfl
        · rw [if_neg hb, if_neg (by simp [Ne.symm hb])]
          rfl
      · rfl

end OnePath

/-! ## 4. All matching paths of one connection -/

section Matching

variable {s : State β} {ref : ConnectionRef}

/-- The periods that the entries `es` give the observation at `b`. -/
def entryPeriods (env : NotifyEnv) (ref : ConnectionRef) (es : List (PathEntry Nat)) (b : Nat) : List Int :=
  es.flatMap fun e => List.replicate (e.refs.count b) (notifyPeriod env ref e.path)

/-- **The entries of several paths.** -/
theorem callAll_notifies (env : NotifyEnv) (ref : ConnectionRef) : ∀ (es : List (PathEntry Nat)) {n : Notifying β},
    Inv n.state → (∀ e ∈ es, ∀ a ∈ e.refs, n.state.Observes ref a) →
    Notifies (only ref (entryPeriods env ref es)) n.state (callAll (notifyPathChanged env ref) es (some n))
  | [], n, h, _ => (h.notifies_nil rfl).congr fun r b => (ite_self []).symm
  | e :: es, n, h, hobs => by
      have hfirst := notifyRefs_spec env ref (notifyPeriod env ref e.path) e.refs h (hobs e List.mem_cons_self)
      have hall := hfirst.trans (f := callAll (notifyPathChanged env ref) es) fun m hm hinv hkeeps => by
        rw [hm]
        exact callAll_notifies env ref es hinv fun e' he' a ha =>
          hkeeps ref a (hobs e' (List.mem_cons_of_mem _ he') a ha)
      refine hall.congr fun r b => ?_
      unfold only
      split <;> rfl

/-- Whether one path is a prefix of the other. -/
def related (path : UriPath) (ids : List Id) : Bool := ids.isPrefixOf path.validIds || path.validIds.isPrefixOf ids

theorem related_iff (path : UriPath) (ids : List Id) :
    related path ids = true ↔ ids <+: path.validIds ∨ path.validIds <+: ids := by
  unfold related
  rw [Bool.or_eq_true, List.isPrefixOf_iff_prefix, List.isPrefixOf_iff_prefix]

/-- The entries that `observe_for_each_matching` visits. -/
def matchingVisits (paths : ObservedPaths Nat) (path : UriPath) : List (PathEntry Nat) :=
  wildcardVisits paths path (List.range path.length) ++
    paths.range (pathEntryQuery (fillFrom path path.length 0)) (pathEntryQuery (fillFrom path path.length idInvalid))

theorem forEachMatching_eq {σ : Type} {clb : MatchingClb Nat σ} (hclb : ∀ e s, (clb e s).1 = 0)
    (paths : ObservedPaths Nat) (path : UriPath) (s : σ) :
    observeForEachMatching paths path clb s = some (0, callAll clb (matchingVisits paths path) s) := by
  unfold observeForEachMatching matchingVisits
  rw [wildcardLoop_eq hclb]
  simp only [ne_eq, not_true_eq_false, if_false, inBounds_eq hclb paths (lower_le_upper path), Option.map_some]
  rw [if_neg (by decide), callAll, callAll, callAll, List.foldl_append]

theorem mem_matchingVisits (paths : ObservedPaths Nat) (path : UriPath) (e : PathEntry Nat) :
    e ∈ matchingVisits paths path ↔ e ∈ paths.toList ∧ related path e.path.validIds = true := by
  unfold matchingVisits
  rw [List.mem_append, mem_wildcardVisits, mem_below, related_iff, ← and_or_left]
  refine and_congr_right fun _ => ⟨fun h => h.imp_left fun ⟨n, _, htake⟩ => htake ▸ List.take_prefix _ _, fun h => ?_⟩
  rcases h with hprefix | hprefix
  · have htake := List.prefix_iff_eq_take.mp hprefix
    rcases Nat.lt_or_ge e.path.validIds.length path.length with hlt | hge
    · exact Or.inl ⟨_, hlt, htake⟩
    · rw [List.take_of_length_le (by rw [UriPath.length_validIds]; exact hge)] at htake
      exact Or.inr (htake ▸ List.prefix_refl _)
  · exact Or.inr hprefix

/-- A path that the first searches find is shorter than the changed one. -/
theorem matchingVisits_nodup (paths : ObservedPaths Nat) (path : UriPath) : (matchingVisits paths path).Nodup := by
  refine List.nodup_append.mpr ⟨wildcardVisits_nodup paths path, range_nodup paths _ _, fun e he e' he' heq => ?_⟩
  obtain ⟨-, n, hn, hids⟩ := mem_wildcardVisits.mp he
  have hlength := ((mem_below paths path e').mp he').2.length_le
  rw [← heq, hids, List.length_take, UriPath.length_validIds] at hlength
  omega

theorem matchingVisits_perm (paths : ObservedPaths Nat) (path : UriPath) :
    (matchingVisits paths path).Perm (paths.toList.filter fun e => related path e.path.validIds) := by
  refine (List.perm_ext_iff_of_nodup (matchingVisits_nodup paths path) ((observedPaths_nodup paths).filter _)).mpr
    fun e => ?_
  rw [mem_matchingVisits, List.mem_filter]

/-- The ids of a path, from its key. -/
theorem keyFrom_takeWhile (p : UriPath) : ∀ ts, (p.keyFrom ts).takeWhile (· != idInvalid) = p.validFrom ts
  | [] => rfl
  | t :: ts => by
      have ih := keyFrom_takeWhile p ts
      unfold UriPath.keyFrom UriPath.validFrom
      by_cases hid : p.ids t = idInvalid
      · simp [hid]
      · simp [hid, ih]

/-- The ids that a key stands for. -/
def idsOfKey (key : List Id) : List Id := key.takeWhile (· != idInvalid)

theorem idsOfKey_key (p : UriPath) : idsOfKey p.key = p.validIds := keyFrom_takeWhile p IdType.all

/-- The attributes for the ids of a path. -/
def idsAttributes (attrs : ConnectionRef → List Id → Except Failure InternalRAttrs) (ref : ConnectionRef) (ids : List Id) :
    OiAttributes :=
  match attrs ref ids with
  | .error _ => oiAttributesEmpty
  | .ok attrs => attrs.standard.common

/-- The period for the ids of a path. -/
def idsPeriod (env : NotifyEnv) (ref : ConnectionRef) (ids : List Id) : Int :=
  max (idsAttributes env.attrs ref ids).minPeriod.toInt 0

theorem notifyPeriod_eq (env : NotifyEnv) (ref : ConnectionRef) (path : UriPath) :
    notifyPeriod env ref path = idsPeriod env ref path.validIds := rfl

/-- The periods for an observation, by the paths of it that match. -/
def matchingPeriods (env : NotifyEnv) (ref : ConnectionRef) (path : UriPath) (paths : List UriPath) : List Int :=
  (paths.filter fun p => related path p.validIds).map (notifyPeriod env ref)

/-- **From entries to observations**: the entries that are visited give an observation the periods of its own paths. -/
theorem entryPeriods_perm (env : NotifyEnv) (ref : ConnectionRef) (path : UriPath) {os : List Tracked}
    {tree : ObservedPaths Nat} (h : Crossed os tree.toList) {o : Tracked} (ho : o ∈ os) :
    (entryPeriods env ref (matchingVisits tree path) o.addr).Perm (matchingPeriods env ref path o.paths) := by
  have hrefs : ∀ id, (pathShape.refsAt id tree.toList).count o.addr = pathShape.uses id o.paths := by
    intro id
    rw [h.refs, pathsOf_eq h.addrs ho]
  have hkeys := RefShape.referring_perm h.index hrefs
  have hentries : ∀ es : List (PathEntry Nat), entryPeriods env ref es o.addr =
      (pathShape.referring o.addr es).map fun key => idsPeriod env ref (idsOfKey key) := by
    intro es
    unfold entryPeriods RefShape.referring
    rw [List.map_flatMap]
    refine congrArg (fun f => es.flatMap f) (funext fun e => ?_)
    rw [List.map_replicate, notifyPeriod_eq]
    show _ = List.replicate _ (idsPeriod env ref (idsOfKey e.path.key))
    rw [idsOfKey_key]
    rfl
  have hpaths : matchingPeriods env ref path o.paths =
      ((o.paths.map pathShape.keyOf).filter fun key => related path (idsOfKey key)).map
        fun key => idsPeriod env ref (idsOfKey key) := by
    unfold matchingPeriods
    rw [List.filter_map, List.map_map]
    refine congr (congrArg List.map (funext fun p => ?_)) (congrArg (fun q => o.paths.filter q) (funext fun p => ?_))
    · show _ = idsPeriod env ref (idsOfKey p.key)
      rw [idsOfKey_key, notifyPeriod_eq]
    · show _ = related path (idsOfKey p.key)
      rw [idsOfKey_key]
  have hfilter : (tree.toList.filter fun e => related path e.path.validIds) =
      tree.toList.filter fun e => related path (idsOfKey (pathShape.key e)) := by
    refine congrArg (fun q => tree.toList.filter q) (funext fun e => ?_)
    show _ = related path (idsOfKey e.path.key)
    rw [idsOfKey_key]
  have hvisits : (entryPeriods env ref (matchingVisits tree path) o.addr).Perm
      (entryPeriods env ref (tree.toList.filter fun e => related path e.path.validIds) o.addr) :=
    (matchingVisits_perm tree path).flatMap_right _
  refine hvisits.trans ?_
  rw [hentries, hpaths, hfilter, RefShape.referring_filter o.addr fun key => related path (idsOfKey key)]
  exact (hkeys.filter _).map _

end Matching

/-! ## 5. All connections -/

section Connections

variable {s : State β} {ops : BatchOps β}

/-- Whether the observations of a connection are notified. -/
def notified (ssid : Id) (invert : Bool) (ref : ConnectionRef) : Bool := (ref.ssid == ssid) != invert

/-- The periods for all observations, from the entries of the trees. -/
def treePeriods (env : NotifyEnv) (trees : ConnectionRef → ObservedPaths Nat) (path : UriPath) (ssid : Id) (invert : Bool)
    (refs : List ConnectionRef) (r : ConnectionRef) (b : Nat) : List Int :=
  if r ∈ refs ∧ notified ssid invert r = true then entryPeriods env r (matchingVisits (trees r) path) b else []

theorem observeNotifyImpl_spec (env : NotifyEnv) (trees : ConnectionRef → ObservedPaths Nat) (path : UriPath) (ssid : Id)
    (invert : Bool) : ∀ {refs : List ConnectionRef} {n : Notifying β}, refs.Nodup → Inv n.state →
    (∀ ref ∈ refs, ∀ e ∈ (trees ref).toList, ∀ a ∈ e.refs, n.state.Observes ref a) →
    Notifies (treePeriods env trees path ssid invert refs) n.state
      (observeNotifyImpl env trees path ssid invert refs (some n))
  | [], n, _, h, _ => (h.notifies_nil rfl).congr fun r b => by simp [treePeriods]
  | ref :: refs, n, hnodup, h, hobs => by
      obtain ⟨hnotMem, hrest⟩ := List.nodup_cons.mp hnodup
      unfold observeNotifyImpl
      split
      next hskip =>
        have hnot : notified ssid invert ref = false := bne_eq_false_iff_eq.mpr (beq_iff_eq.mp hskip)
        refine (observeNotifyImpl_spec env trees path ssid invert hrest h fun r hr => hobs r (List.mem_cons_of_mem _ hr)).congr
          fun r b => ?_
        unfold treePeriods
        by_cases hr : r = ref
        · rw [if_neg fun hand => hnotMem (hr ▸ hand.1), if_neg fun hand => by simp [hr, hnot] at hand]
        · simp [hr]
      next hvisit =>
        have hnot : notified ssid invert ref = true := bne_iff_ne.mpr fun heq => hvisit (beq_iff_eq.mpr heq)
        rw [forEachMatching_eq fun _ _ => rfl]
        have hfirst := callAll_notifies env ref (matchingVisits (trees ref) path) h fun e he =>
          hobs ref List.mem_cons_self e ((mem_matchingVisits _ _ _).mp he).1
        have hall := hfirst.trans (f := observeNotifyImpl env trees path ssid invert refs) fun m hm hinv hkeeps => by
          rw [hm]
          exact observeNotifyImpl_spec env trees path ssid invert hrest hinv fun r hr e he a ha =>
            hkeeps r a (hobs r (List.mem_cons_of_mem _ hr) e he a ha)
        refine hall.congr fun r b => ?_
        unfold only treePeriods
        by_cases hr : r = ref
        · have hnone : ¬ (r ∈ refs ∧ notified ssid invert r = true) := fun hand => hnotMem (hr ▸ hand.1)
          rw [if_pos hr, if_neg hnone, List.append_nil, if_pos ⟨List.mem_cons.mpr (Or.inl hr), hr ▸ hnot⟩, hr]
        · simp [hr]

/-- The trees of a registry, and what they are for the state that agrees with it. -/
structure Agrees (r : Registry) (s : State β) (trees : ConnectionRef → ObservedPaths Nat) : Prop where
  reachable : Paths.Reachable r
  view : r.view = s.view
  trees : ∀ c ∈ r, (trees c.connRef).toList = c.observedPaths

theorem Agrees.crossed {r : Registry} {trees : ConnectionRef → ObservedPaths Nat} (h : Agrees r s trees)
    {c : ConnectionEntry β} (hc : c ∈ s.connectionEntries) :
    Crossed (c.observations.map Observation.tracked) (trees c.connRef).toList := by
  have hmem : c.view ∈ r.view := h.view ▸ List.mem_map_of_mem hc
  obtain ⟨d, hd, heq⟩ := List.mem_map.mp hmem
  have href : d.connRef = c.connRef := congrArg Prod.fst heq
  have hobs : d.observations = c.observations.map Observation.tracked := congrArg Prod.snd heq
  rw [← hobs, ← href, h.trees d hd]
  exact h.reachable.inv.crossed d hd

theorem Agrees.observes {r : Registry} {trees : ConnectionRef → ObservedPaths Nat} (h : Agrees r s trees) (hinv : Inv s)
    {c : ConnectionEntry β} (hc : c ∈ s.connectionEntries) :
    ∀ e ∈ (trees c.connRef).toList, ∀ a ∈ e.refs, s.Observes c.connRef a := by
  intro e he a ha
  have hcrossed := h.crossed hc
  refine ⟨c, hinv.toSound.entry_eq hc, ?_⟩
  obtain ⟨t, ht, rfl⟩ := (hcrossed.consistent (c := ⟨c.connRef, _, _⟩)).refs e he a ha
  obtain ⟨o, ho, rfl⟩ := List.mem_map.mp ht
  exact List.mem_map_of_mem ho

end Connections

/-! ## 6. Deadlines -/

section Deadlines

theorem less_iff (a b : Duration) : a.less b = true ↔ a.valid = true ∧ b.valid = true ∧
    (a.seconds < b.seconds ∨ a.seconds = b.seconds ∧ a.nanoseconds < b.nanoseconds) := by
  simp [Duration.less, and_assoc]

theorem not_less_iff (a b : Duration) (ha : a.valid = true) (hb : b.valid = true) : a.less b = false ↔
    b.seconds < a.seconds ∨ b.seconds = a.seconds ∧ b.nanoseconds ≤ a.nanoseconds := by
  rw [← Bool.not_eq_true, less_iff]
  simp only [ha, hb, true_and]
  omega

/-- An instant that is not before one that is not before a third. -/
theorem not_less_trans {a b c : Duration} (hb : b.valid = true) (hab : b.less a = false) (hbc : c.less b = false) :
    c.less a = false := by
  by_cases ha : a.valid = true
  · by_cases hc : c.valid = true
    · rw [not_less_iff _ _ hb ha] at hab
      rw [not_less_iff _ _ hc hb] at hbc
      rw [not_less_iff _ _ hc ha]
      omega
    · simp [Duration.less, hc]
  · simp [Duration.less, ha]

/-- The trigger of an observation is scheduled, for no later than an instant. -/
def DueBy (o : Observation β) (instant : Duration) : Prop :=
  ∃ t, o.notifyTask = some t ∧ t.valid = true ∧ instant.less t = false

/-- A call of `schedule_trigger` that succeeds, and computes an instant. -/
def Schedules (newest : Duration) (call : TriggerCall) : Prop :=
  call.1.scheduled = true ∧ 0 ≤ call.2 ∧ (triggerInstant call.1 newest call.2).valid = true

/-- **One call**: the trigger is due by the instant of the call, and by every one that it was due by. -/
theorem scheduleTrigger_due {newest : Duration} {call : TriggerCall} (h : Schedules newest call) (o : Observation β) :
    DueBy (scheduleTrigger call.1 newest call.2 o).2 (triggerInstant call.1 newest call.2) ∧
      ∀ instant, DueBy o instant → DueBy (scheduleTrigger call.1 newest call.2 o).2 instant := by
  obtain ⟨hscheduled, hperiod, hvalid⟩ := h
  unfold scheduleTrigger
  rw [if_neg (Int.not_lt.mpr hperiod)]
  split
  next hearlier =>
    refine ⟨?_, fun _ hdue => hdue⟩
    cases htask : o.notifyTask with
    | none =>
        rw [htask] at hearlier
        exact absurd hearlier (by simp [Duration.less, Duration.valid, Duration.invalid])
    | some t =>
        rw [htask, Option.getD_some] at hearlier
        obtain ⟨ht, -, hlt⟩ := (less_iff _ _).mp hearlier
        refine ⟨t, htask, ht, (not_less_iff _ _ hvalid ht).mpr ?_⟩
        omega
  next hlater =>
    have hirrefl : (triggerInstant call.1 newest call.2).less (triggerInstant call.1 newest call.2) = false :=
      (not_less_iff _ _ hvalid hvalid).mpr (Or.inr ⟨rfl, Int.le_refl _⟩)
    refine ⟨⟨_, rfl, hvalid, hirrefl⟩, fun instant hdue => ?_⟩
    obtain ⟨t, htask, ht, hnot⟩ := hdue
    rw [htask, Bool.not_eq_true] at hlater
    exact ⟨_, rfl, hvalid, not_less_trans ht hlater hnot⟩

theorem triggered_keeps_due {newest : Duration} {instant : Duration} : ∀ (calls : List TriggerCall) {o : Observation β},
    (∀ call ∈ calls, Schedules newest call) → DueBy o instant → DueBy (triggered newest calls o) instant
  | [], _, _, hdue => hdue
  | call :: calls, o, h, hdue =>
      triggered_keeps_due calls (fun c hc => h c (List.mem_cons_of_mem _ hc))
        ((scheduleTrigger_due (h call List.mem_cons_self) o).2 instant hdue)

/-- **Several calls**: the trigger is due by the instant of each. -/
theorem triggered_due {newest : Duration} (calls : List TriggerCall) {o : Observation β}
    (h : ∀ call ∈ calls, Schedules newest call) (call : TriggerCall) (hcall : call ∈ calls) :
    DueBy (triggered newest calls o) (triggerInstant call.1 newest call.2) := by
  induction calls generalizing o with
  | nil => exact absurd hcall List.not_mem_nil
  | cons first calls ih =>
      have hrest : ∀ c ∈ calls, Schedules newest c := fun c hc => h c (List.mem_cons_of_mem _ hc)
      rcases List.mem_cons.mp hcall with rfl | hmem
      · exact triggered_keeps_due calls hrest (scheduleTrigger_due (h call List.mem_cons_self) o).1
      · exact ih hrest hmem

end Deadlines

/-! ## 7. Every reachable state -/

section Reachable

variable {s : State β} {ops : BatchOps β}

/-- A state with one observation, of `/3/0/9`. -/
theorem reachable_one : ∃ s : State Nat, Reachable exampleOps s ∧
    s.view = [(exampleRef, [⟨0, [7], [.resource 3 0 9]⟩])] := by
  have hrun : (run exampleOps (exampleEvents.take 1) (observeInit false 1)).map State.view =
      some [(exampleRef, [⟨0, [7], [.resource 3 0 9]⟩])] := by decide
  obtain ⟨s, hs, hview⟩ := Option.map_eq_some_iff.mp hrun
  exact ⟨s, (Reachable.init false 1).run hs, hview⟩

/-- What `_anjay_observe_notify` may have changed: `calls r b` are its calls of `schedule_trigger` for the observation at
    `b` of the connection `r`. -/
structure Notified (env : NotifyEnv) (path : UriPath) (ssid : Id) (invert : Bool) (s : State β)
    (calls : ConnectionRef → Nat → List TriggerCall) : Prop where
  periods : ∀ c ∈ s.connectionEntries, ∀ o ∈ c.observations, ((calls c.connRef o.addr).map Prod.snd).Perm
    (if notified ssid invert c.connRef then matchingPeriods env c.connRef path o.paths else [])
  due : ∀ c ∈ s.connectionEntries, ∀ o ∈ c.observations,
    (∀ call ∈ calls c.connRef o.addr, Schedules (c.newestStamp o) call) → ∀ call ∈ calls c.connRef o.addr,
      DueBy (triggered (c.newestStamp o) (calls c.connRef o.addr) o) (triggerInstant call.1 (c.newestStamp o) call.2)

/-- **A change of the data model reaches exactly the observations it concerns.** For every state that the module reaches
    there are trees, reached by the same calls. With all such trees, `_anjay_observe_notify` succeeds in every
    environment, calls `schedule_trigger` for each observation of the servers that are meant once for every path of it
    that is a prefix of the changed one or has it as a prefix, with the period of that path, and changes nothing else. -/
theorem reachable_notify (h : Reachable ops s) : (∃ r : Registry, Paths.Reachable r ∧ r.view = s.view) ∧
    ∀ r : Registry, Paths.Reachable r → r.view = s.view →
      ∀ trees : ConnectionRef → ObservedPaths Nat, (∀ c ∈ r, (trees c.connRef).toList = c.observedPaths) →
        ∀ env path ssid invert, ∃ n calls, observeNotify env trees path ssid invert s = some n ∧
          n.state = s.triggered calls ∧ Notified env path ssid invert s calls := by
  refine ⟨h.tracked, fun r hr hview trees htrees env path ssid invert => ?_⟩
  have hagrees : Agrees r s trees := ⟨hr, hview, htrees⟩
  have hinv := h.inv
  have hobs : ∀ ref ∈ s.connectionEntries.map ConnectionEntry.connRef, ∀ e ∈ (trees ref).toList, ∀ a ∈ e.refs,
      s.Observes ref a := by
    intro ref href
    obtain ⟨c, hc, rfl⟩ := List.mem_map.mp href
    exact hagrees.observes hinv hc
  obtain ⟨n, hrun, -, -, calls, hstate, hperiods⟩ :=
    observeNotifyImpl_spec (n := ⟨0, 0, s⟩) env trees path ssid invert hinv.toSound.nodup hinv hobs
  refine ⟨n, calls, hrun, hstate, fun c hc o ho => ?_, fun c _ o _ hall => triggered_due _ hall⟩
  rw [hperiods]
  unfold treePeriods
  by_cases hnot : notified ssid invert c.connRef = true
  · rw [if_pos ⟨List.mem_map_of_mem hc, hnot⟩, if_pos hnot]
    exact entryPeriods_perm env c.connRef path (hagrees.crossed hc) (List.mem_map_of_mem ho)
  · rw [if_neg fun hand => hnot hand.2, if_neg hnot]

/-- The entry of that state with its path, reached by the same call. -/
def trackedOne : Registry := [⟨exampleRef, [⟨0, [7], [.resource 3 0 9]⟩], [⟨.resource 3 0 9, [0]⟩]⟩]

theorem trackedOne_reachable : Paths.Reachable trackedOne :=
  .step (.observe Paths.exampleRequest exampleRef [7] [.resource 3 0 9]) .init (fun _ h => nomatch h) (by decide)

/-- Its tree. -/
def treesOne : ConnectionRef → ObservedPaths Nat :=
  fun _ => ⟨.node .leaf ⟨.resource 3 0 9, [0]⟩ .leaf, List.pairwise_singleton _ _⟩

theorem reachable_notify_one : ∃ s : State Nat, s.view = [(exampleRef, [⟨0, [7], [.resource 3 0 9]⟩])] ∧
    ∀ env, ∃ n calls, observeNotify env treesOne (.instancePath 3 0) 1 false s = some n ∧ n.state = s.triggered calls ∧
      Notified env (.instancePath 3 0) 1 false s calls := by
  obtain ⟨s, hs, hview⟩ := reachable_one
  have htrees : ∀ c ∈ trackedOne, (treesOne c.connRef).toList = c.observedPaths := List.forall_mem_singleton.mpr rfl
  exact ⟨s, hview, fun env =>
    (reachable_notify hs).2 trackedOne trackedOne_reachable hview.symm treesOne htrees env _ _ _⟩

end Reachable

end Anjay.Observe
