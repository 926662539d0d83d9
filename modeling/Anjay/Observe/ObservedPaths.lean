/-
  File:      Anjay/Observe/ObservedPaths.lean
  Subject:   The two trees of a connection entry (`anjay_observe_core.c`): the observations by token, and the observed
             paths, each with the observations that name it.

  * `addPathToObservedPaths`, `removePathFromObservedPaths`, `observeAddToObservedPaths`: the cross references and
    their roll-back, for any pattern of allocation failures.
  * `observeHandle`, `observeRemoveEntry`, `observeGc`: what the entry points do to the trees; `none` where an
    assertion fails or a null pointer is followed.
  * `reachable_trees`: no assertion ever fails, and a path refers to an observation exactly as often as the
    observation names the path.
  * `reachable_request_iff`: a request that adds no observation leaves every tree as it was, save where the defect of
    `find_or_create_connection_state` deletes another connection's entry.
-/
import Anjay.Lib.RefIndex
import Anjay.Observe.Matching
import Anjay.Observe.Requests

namespace Anjay.Observe.Paths

open Lib

/-! ## 1. The trees -/

/-- `anjay_observation_t` at the address `addr`, as far as the trees go. -/
structure Tracked where
  addr : Nat
  token : Token
  paths : List UriPath
  deriving DecidableEq, Repr

/-- `_anjay_observation_cmp`. -/
def trackedCmp (left right : Tracked) : Int := tokenCmp left.token right.token

/-- `anjay_observe_connection_entry_t`, as far as the trees go; a reference is the address of an observation. -/
structure TrackedEntry where
  connRef : ConnectionRef
  observations : List Tracked
  observedPaths : List (PathEntry Nat)
  deriving DecidableEq

/-- `connection_entries`. -/
abbrev Registry := List TrackedEntry

/-- The observed paths as an index of references. -/
def pathShape : RefShape UriPath (PathEntry Nat) (List Id) Nat where
  fresh path := ⟨path, []⟩
  key e := e.path.key
  refs := PathEntry.refs
  set refs e := { e with refs := refs }

/-- `find_or_create_observe_path_entry` and `add_path_to_observed_paths`. -/
def addPathToObservedPaths (alloc : RefAlloc) (path : UriPath) (observation : Nat) (paths : List (PathEntry Nat)) :
    Bool × List (PathEntry Nat) := pathShape.addRef alloc path observation paths

/-- `remove_path_from_observed_paths`; `false` where it finds no entry, or the observation not attached. -/
def removePathFromObservedPaths (path : UriPath) (observation : Nat) (paths : List (PathEntry Nat)) :
    Bool × List (PathEntry Nat) := pathShape.dropRef path observation paths

/-- `_anjay_observe_add_to_observed_paths`; `alloc i` is the memory for the path of index `i`. -/
def observeAddToObservedPaths (alloc : Nat → RefAlloc) (o : Tracked) (paths : List (PathEntry Nat)) :
    Option (Bool × List (PathEntry Nat)) := pathShape.addFrom alloc o.addr [] o.paths paths

/-- `remove_from_observed_paths`. -/
def removeFromObservedPaths (o : Tracked) (paths : List (PathEntry Nat)) : Option (List (PathEntry Nat)) :=
  pathShape.dropAll o.addr o.paths paths

/-- AVS_RBTREE_FIND of a token. -/
def TrackedEntry.find (token : Token) (c : TrackedEntry) : Option Tracked :=
  c.observations.find? fun o => tokenCmp o.token token == 0

/-- AVS_RBTREE_DELETE over the observations, in `_anjay_observe_cleanup_connection`. -/
def cleanupLoop : List Tracked → List (PathEntry Nat) → Option (List (PathEntry Nat))
  | [], paths => some paths
  | o :: os, paths =>
      match removeFromObservedPaths o paths with
      | some paths => cleanupLoop os paths
      | none => none

/-- `_anjay_observe_cleanup_connection`: whether its assertions hold. -/
def cleanupConnection (c : TrackedEntry) : Bool := cleanupLoop c.observations c.observedPaths == some []

namespace Registry

/-- `find_connection_state`. -/
def entry (ref : ConnectionRef) (r : Registry) : Option TrackedEntry := r.find? fun c => c.connRef == ref

/-- A change of the entry of a connection. -/
def modify (ref : ConnectionRef) (f : TrackedEntry → TrackedEntry) (r : Registry) : Registry :=
  updateAt TrackedEntry.connRef ref f r

/-- `delete_connection_if_empty`. -/
def deleteConnectionIfEmpty (ref : ConnectionRef) (r : Registry) : Option Registry :=
  match r.entry ref with
  | none => some r
  | some c =>
      if c.observations.isEmpty then
        if cleanupConnection c then some (r.filter fun c => !(c.connRef == ref)) else none
      else some r

/-- `delete_connection_if_empty` on the entry at the place of a connection, its own or the next one. -/
def deleteAtIfEmpty (ref : ConnectionRef) (r : Registry) : Option Registry :=
  match r.find? fun c => !decide (connectionRefCmp c.connRef ref < 0) with
  | none => some r
  | some c => r.deleteConnectionIfEmpty c.connRef

/-- What `find_or_create_connection_state` does without memory for a list element: it deletes the entry at the place
    of the new one. -/
def deleteAt (ref : ConnectionRef) (r : Registry) : Registry :=
  r.eraseP fun c => !decide (connectionRefCmp c.connRef ref < 0)

/-- The order of the entries. -/
def entryCmp (a b : TrackedEntry) : Int := connectionRefCmp a.connRef b.connRef

/-- `find_or_create_connection_state`; there is memory, or the entry exists. -/
def findOrCreate (ref : ConnectionRef) (r : Registry) : Registry := upsert entryCmp ⟨ref, [], []⟩ id r

end Registry

/-! ## 2. The entry points -/

/-- `delete_observation`, with the paths that `remove_from_observed_paths` leaves. -/
def TrackedEntry.deleteObservation (o : Tracked) (paths : List (PathEntry Nat)) (c : TrackedEntry) : TrackedEntry :=
  { c with observations := c.observations.filter fun o' => !(o'.addr == o.addr), observedPaths := paths }

/-- `observe_remove_entry`. -/
def observeRemoveEntry (ref : ConnectionRef) (token : Token) (r : Registry) : Option Registry :=
  match r.entry ref with
  | none => some r
  | some c =>
      match c.find token with
      | none => some r
      | some o =>
          match removeFromObservedPaths o c.observedPaths with
          | none => none
          | some paths => (r.modify ref (TrackedEntry.deleteObservation o paths)).deleteConnectionIfEmpty ref

/-- `attach_new_observation`; where the paths cannot be added, the observation is detached again. -/
def TrackedEntry.attachNewObservation (alloc : Nat → RefAlloc) (o : Tracked) (c : TrackedEntry) :
    Option (Bool × TrackedEntry) :=
  match observeAddToObservedPaths alloc o c.observedPaths with
  | none => none
  | some (true, paths) =>
      some (true, { c with observations := upsert trackedCmp o id c.observations, observedPaths := paths })
  | some (false, paths) => some (false, { c with observedPaths := paths })

/-- What the environment decides about `observe_handle`: the address of a new observation, what can be allocated,
    whether the values could be read, and whether everything after `put_entry_into_connection_state` succeeds. -/
structure RequestEnv where
  address : Nat
  elementAllocated : Bool
  treesAllocated : Bool
  readSucceeds : Bool
  observationAllocated : Bool
  pathAlloc : Nat → RefAlloc
  completed : Bool

/-- `put_entry_into_connection_state`; `none` if an observation has the token, which it asserts not to be so. -/
def putEntry (env : RequestEnv) (ref : ConnectionRef) (token : Token) (paths : List UriPath) (r : Registry) :
    Option (Bool × Registry) :=
  if env.observationAllocated then
    match r.entry ref with
    | none => none
    | some c =>
        if (c.find token).isSome then none
        else
          match c.attachNewObservation env.pathAlloc ⟨env.address, token, paths⟩ with
          | none => none
          | some (attached, c') => some (attached, r.modify ref fun _ => c')
  else some (false, r)

/-- `observe_handle`, once the values are read. -/
def observeRead (env : RequestEnv) (ref : ConnectionRef) (token : Token) (paths : List UriPath) (r : Registry) :
    Option Registry :=
  match putEntry env ref token paths r with
  | none => none
  | some (attached, r') =>
      if attached && env.completed then some r'
      else
        match observeRemoveEntry ref token r' with
        | none => none
        | some r'' => r''.deleteAtIfEmpty ref

/-- `observe_handle`. -/
def observeHandle (env : RequestEnv) (ref : ConnectionRef) (token : Token) (paths : List UriPath) (r : Registry) :
    Option Registry :=
  if (r.entry ref).isNone && !env.elementAllocated then some (r.deleteAt ref)
  else if (r.entry ref).isNone && !env.treesAllocated then some r
  else if env.readSucceeds then observeRead env ref token paths (r.findOrCreate ref)
  else (r.findOrCreate ref).deleteConnectionIfEmpty ref

/-- `observe_gc_ssid_iterate` for the SSIDs of the servers, and the end of `_anjay_observe_gc`. -/
def gcLoop : List Id → Registry → Option Registry
  | [], r => if r.all cleanupConnection then some [] else none
  | ssid :: ssids, r =>
      if (r.takeWhile fun c => decide (c.connRef.ssid < ssid)).all cleanupConnection then
        (gcLoop ssids ((r.dropWhile fun c => decide (c.connRef.ssid < ssid)).dropWhile
          fun c => decide (c.connRef.ssid = ssid))).map
          ((r.dropWhile fun c => decide (c.connRef.ssid < ssid)).takeWhile (fun c => decide (c.connRef.ssid = ssid)) ++ ·)
      else none

/-- `_anjay_observe_gc`. -/
def observeGc (ssids : List Id) (r : Registry) : Option Registry := gcLoop ssids r

/-- `_anjay_observe_cleanup`. -/
def observeCleanup (r : Registry) : Option Registry := if r.all cleanupConnection then some [] else none

/-- The calls that change the trees. -/
inductive Event
  | observe (env : RequestEnv) (ref : ConnectionRef) (token : Token) (paths : List UriPath)
  | remove (ref : ConnectionRef) (token : Token)
  | gc (ssids : List Id)
  | cleanup

/-- What an event does; `none` where the code goes wrong. -/
def perform : Event → Registry → Option Registry
  | .observe env ref token paths, r => observeHandle env ref token paths r
  | .remove ref token, r => observeRemoveEntry ref token r
  | .gc ssids, r => observeGc ssids r
  | .cleanup, r => observeCleanup r

/-- An allocation returns an address that is not in use, and avs_coap has cancelled an observation with the token of a
    request before it is handled. -/
def Enabled (r : Registry) : Event → Prop
  | .observe env ref token _ =>
      ∀ c ∈ r, c.connRef = ref → ∀ o ∈ c.observations, o.addr ≠ env.address ∧ tokenCmp o.token token ≠ 0
  | _ => True

/-- The states of the trees in runs of the observe module. -/
inductive Reachable : Registry → Prop
  | init : Reachable []
  | step {r r' : Registry} (event : Event) (h : Reachable r) (he : Enabled r event) (hs : perform event r = some r') :
      Reachable r'


/-! ## 3. Cross references -/

theorem pathShape_lawful : pathShape.Lawful := ⟨fun _ => rfl, fun _ _ => rfl, fun _ _ => rfl⟩

/-- The paths of the observation at an address. -/
def pathsOf (a : Nat) (os : List Tracked) : List UriPath := (os.filter fun o => o.addr == a).flatMap Tracked.paths

/-- **The two trees agree**: a path refers to an observation as often as the observation names it, and to nothing
    else. -/
structure Crossed (os : List Tracked) (paths : List (PathEntry Nat)) : Prop where
  index : pathShape.Index paths
  addrs : (os.map Tracked.addr).Nodup
  refs : ∀ id a, (pathShape.refsAt id paths).count a = pathShape.uses id (pathsOf a os)

theorem pathsOf_cons (a : Nat) (o : Tracked) (os : List Tracked) :
    pathsOf a (o :: os) = (if o.addr = a then o.paths else []) ++ pathsOf a os := by
  unfold pathsOf
  by_cases h : o.addr = a <;> simp [h]

theorem pathsOf_of_notMem {a : Nat} {os : List Tracked} (h : a ∉ os.map Tracked.addr) : pathsOf a os = [] := by
  unfold pathsOf
  rw [List.filter_eq_nil_iff.mpr fun o ho heq => h (List.mem_map.mpr ⟨o, ho, by simpa using heq⟩)]
  rfl

theorem pathsOf_eq : ∀ {os : List Tracked}, (os.map Tracked.addr).Nodup → ∀ {o : Tracked}, o ∈ os →
    pathsOf o.addr os = o.paths
  | o' :: os, hnodup, o, ho => by
      rw [List.map_cons, List.nodup_cons] at hnodup
      rw [pathsOf_cons]
      rcases List.mem_cons.mp ho with rfl | ho
      · rw [if_pos rfl, pathsOf_of_notMem hnodup.1, List.append_nil]
      · have hne : o'.addr ≠ o.addr := fun heq => hnodup.1 (heq ▸ List.mem_map_of_mem ho)
        rw [if_neg hne, pathsOf_eq hnodup.2 ho]
        rfl

theorem pathsOf_filter (a b : Nat) (os : List Tracked) :
    pathsOf a (os.filter fun o => !(o.addr == b)) = if a = b then [] else pathsOf a os := by
  unfold pathsOf
  rw [List.filter_filter]
  split
  next heq =>
    rw [List.filter_eq_nil_iff.mpr fun o _ => by simp [heq]]
    rfl
  next hne =>
    refine congrArg (List.flatMap Tracked.paths) (List.filter_congr fun o _ => ?_)
    by_cases h : o.addr = a
    · simp [h, hne]
    · simp [h]

theorem uses_pathsOf_perm (id : List Id) (a : Nat) {os os' : List Tracked} (h : os.Perm os') :
    pathShape.uses id (pathsOf a os) = pathShape.uses id (pathsOf a os') := by
  have hpaths : (pathsOf a os).Perm (pathsOf a os') := (h.filter _).flatMap_right _
  unfold RefShape.uses List.count
  exact (hpaths.map _).countP_eq _

theorem refsAt_nil (id : List Id) : pathShape.refsAt id [] = [] := rfl

/-- **An observation is taken off all its paths.** -/
theorem Crossed.remove {os : List Tracked} {paths : List (PathEntry Nat)} (h : Crossed os paths) {o : Tracked}
    (ho : o ∈ os) : ∃ paths', removeFromObservedPaths o paths = some paths' ∧
      (∀ id, pathShape.refsAt id paths' =
        RefShape.without o.addr (pathShape.uses id o.paths) (pathShape.refsAt id paths)) ∧
      Crossed (os.filter fun o' => !(o'.addr == o.addr)) paths' := by
  have hcount : ∀ id, pathShape.uses id o.paths ≤ (pathShape.refsAt id paths).count o.addr := by
    intro id
    rw [h.refs, pathsOf_eq h.addrs ho]
  obtain ⟨paths', hdrop, hindex, hspec⟩ := RefShape.dropAll_spec pathShape_lawful h.index hcount
  refine ⟨paths', hdrop, hspec, hindex, h.addrs.sublist (List.filter_sublist.map _), fun id a => ?_⟩
  rw [hspec, pathsOf_filter]
  by_cases heq : a = o.addr
  · rw [if_pos heq, heq, RefShape.count_without_self, h.refs, pathsOf_eq h.addrs ho, Nat.sub_self]
    rfl
  · rw [if_neg heq, RefShape.count_without_ne heq]
    exact h.refs id a

/-- **A new observation is put on all its paths, or the paths show what they showed.** -/
theorem Crossed.insert {os os' : List Tracked} {paths : List (PathEntry Nat)} (h : Crossed os paths) {o : Tracked}
    (hfresh : o.addr ∉ os.map Tracked.addr) (hperm : os'.Perm (o :: os)) (alloc : Nat → RefAlloc) :
    ∃ good paths', observeAddToObservedPaths alloc o paths = some (good, paths') ∧
      (good = true → Crossed os' paths' ∧ ∀ id, pathShape.refsAt id paths' =
        List.replicate (pathShape.uses id o.paths) o.addr ++ pathShape.refsAt id paths) ∧
      (good = false → Crossed os paths' ∧ ∀ id, pathShape.refsAt id paths' = pathShape.refsAt id paths) := by
  obtain ⟨good, paths', hadd, hindex, hspec⟩ : ∃ good paths',
      pathShape.addFrom alloc o.addr [] o.paths paths = some (good, paths') ∧ pathShape.Index paths' ∧
        ∀ id, pathShape.refsAt id paths' =
          if good then List.replicate (pathShape.uses id ([] ++ o.paths)) o.addr ++ pathShape.refsAt id paths
          else pathShape.refsAt id paths :=
    RefShape.addFrom_spec pathShape_lawful alloc h.index h.index fun _ => rfl
  refine ⟨good, paths', hadd, fun hgood => ⟨⟨hindex, ?_, fun id a => ?_⟩, fun id => ?_⟩, fun hbad => ⟨⟨hindex, h.addrs,
    fun id a => ?_⟩, fun id => ?_⟩⟩
  · rw [(hperm.map _).nodup_iff, List.map_cons, List.nodup_cons]
    exact ⟨hfresh, h.addrs⟩
  · rw [hspec id, if_pos hgood, List.nil_append, List.count_append, h.refs, uses_pathsOf_perm id a hperm, pathsOf_cons,
      RefShape.uses_append]
    by_cases heq : o.addr = a
    · rw [if_pos heq, heq, List.count_replicate_self]
    · rw [if_neg heq, List.count_replicate, if_neg fun hb => heq (beq_iff_eq.mp hb)]
      rfl
  · rw [hspec id, if_pos hgood]
    rfl
  · rw [hspec id, if_neg (by rw [hbad]; decide)]
    exact h.refs id a
  · rw [hspec id, if_neg (by rw [hbad]; decide)]

/-- **The assertions of `_anjay_observe_cleanup_connection` hold.** -/
theorem Crossed.cleanup : ∀ {os : List Tracked} {paths : List (PathEntry Nat)}, Crossed os paths →
    cleanupLoop os paths = some []
  | [], paths, h => by
      cases hpaths : paths with
      | nil => rfl
      | cons e es =>
          have hrefs : ∀ a, (pathShape.refsAt (pathShape.key e) paths).count a = 0 := fun a => h.refs _ a
          have hfound : pathShape.refsAt (pathShape.key e) paths = e.refs := by
            unfold RefShape.refsAt lookup
            rw [RefShape.findEntry_of_mem h.index.sorted (hpaths ▸ List.mem_cons_self)]
            rfl
          have hempty : e.refs = [] := List.eq_nil_iff_forall_not_mem.mpr fun a ha =>
            absurd (hrefs a) (by rw [hfound]; exact (List.count_pos_iff.mpr ha).ne')
          exact absurd hempty (h.index.all e (hpaths ▸ List.mem_cons_self))
  | o :: os, paths, h => by
      obtain ⟨paths', hremove, -, hcrossed⟩ := h.remove List.mem_cons_self
      have hnotMem := (List.nodup_cons.mp (List.map_cons ▸ h.addrs)).1
      have hrest : ((o :: os).filter fun o' => !(o'.addr == o.addr)) = os := by
        rw [List.filter_cons_of_neg (by simp)]
        exact List.filter_eq_self.mpr fun o' ho' => by
          have hne : o'.addr ≠ o.addr := fun heq => hnotMem (heq ▸ List.mem_map_of_mem ho')
          simpa using hne
      rw [hrest] at hcrossed
      rw [cleanupLoop, hremove]
      exact hcrossed.cleanup

theorem cleanupConnection_eq {c : TrackedEntry} (h : Crossed c.observations c.observedPaths) :
    cleanupConnection c = true := by
  unfold cleanupConnection
  rw [h.cleanup]
  rfl


/-! ## 4. Entries -/

/-- Entries in order, the two trees of each in agreement. -/
structure Sound (r : Registry) : Prop where
  sorted : Sorted (fun c : TrackedEntry => c.connRef.ssid) r
  crossed : ∀ c ∈ r, Crossed c.observations c.observedPaths

/-- **The invariant**: moreover every entry has an observation. -/
structure Inv (r : Registry) : Prop extends Sound r where
  occupied : ∀ c ∈ r, c.observations ≠ []

/-- The entry of a connection is dropped if it has no observation. -/
def dropEmpty (ref : ConnectionRef) (r : Registry) : Registry :=
  r.filter fun c => !(c.connRef == ref && c.observations.isEmpty)

/-- What is in an entry, with every key of the observed paths as it is compared. -/
def TrackedEntry.shown (c : TrackedEntry) : ConnectionRef × List Tracked × List (List Id × List Nat) :=
  (c.connRef, c.observations, pathShape.shown c.observedPaths)

/-- What a registry shows. -/
def Registry.shown (r : Registry) : List (ConnectionRef × List Tracked × List (List Id × List Nat)) :=
  r.map TrackedEntry.shown

section Entries

variable {r : Registry} {ref : ConnectionRef} {c : TrackedEntry} {token : Token}

theorem entryCmp_reflects : Reflects Registry.entryCmp fun c : TrackedEntry => c.connRef.ssid where
  lt a b := by
    show (a.connRef.ssid.val : Int) - b.connRef.ssid.val < 0 ↔ a.connRef.ssid.val < b.connRef.ssid.val
    omega
  gt a b := by
    show 0 < (a.connRef.ssid.val : Int) - b.connRef.ssid.val ↔ b.connRef.ssid.val < a.connRef.ssid.val
    omega

theorem Registry.entry_some (h : r.entry ref = some c) : c ∈ r ∧ c.connRef = ref :=
  ⟨List.mem_of_find?_eq_some h, by simpa using List.find?_some h⟩

theorem Registry.entry_none (h : r.entry ref = none) : ∀ c ∈ r, c.connRef ≠ ref := by
  intro c hc heq
  exact List.find?_eq_none.mp h c hc (beq_iff_eq.mpr heq)

theorem Sound.eq_of_mem (h : Sound r) {d : TrackedEntry} (hc : c ∈ r) (hd : d ∈ r) (heq : c.connRef = d.connRef) :
    c = d := sorted_eq h.sorted hc hd (congrArg ConnectionRef.ssid heq)

theorem Sound.entry_eq (h : Sound r) (hc : c ∈ r) : r.entry c.connRef = some c := by
  cases hfind : r.entry c.connRef with
  | none => exact absurd rfl (Registry.entry_none hfind c hc)
  | some d => exact congrArg some (h.eq_of_mem (Registry.entry_some hfind).1 hc (Registry.entry_some hfind).2)

theorem Sound.sublist {r' : Registry} (h : Sound r) (hsub : r'.Sublist r) : Sound r' :=
  ⟨h.sorted.sublist hsub, fun c hc => h.crossed c (hsub.subset hc)⟩

theorem Inv.sublist {r' : Registry} (h : Inv r) (hsub : r'.Sublist r) : Inv r' :=
  ⟨h.toSound.sublist hsub, fun c hc => h.occupied c (hsub.subset hc)⟩

theorem Registry.mem_modify {f : TrackedEntry → TrackedEntry} {d : TrackedEntry} :
    d ∈ r.modify ref f ↔ ∃ c ∈ r, (if c.connRef = ref then f c else c) = d := mem_updateAt

/-- Another state of one entry, whose trees agree. -/
theorem Sound.modify (h : Sound r) {c' : TrackedEntry} (href : c'.connRef = ref)
    (hcrossed : Crossed c'.observations c'.observedPaths) : Sound (r.modify ref fun _ => c') where
  sorted := by
    refine List.pairwise_map.mpr (h.sorted.imp fun {a b} hlt => ?_)
    have hkey : ∀ d : TrackedEntry, (if d.connRef = ref then c' else d).connRef.ssid = d.connRef.ssid := by
      intro d
      split
      next heq => rw [href, heq]
      · rfl
    show (if a.connRef = ref then c' else a).connRef.ssid < (if b.connRef = ref then c' else b).connRef.ssid
    rw [hkey, hkey]
    exact hlt
  crossed d hd := by
    obtain ⟨d', hd', rfl⟩ := Registry.mem_modify.mp hd
    split
    · exact hcrossed
    · exact h.crossed d' hd'

theorem Sound.entry_modify (h : Sound r) (hc : r.entry ref = some c) {c' : TrackedEntry} (href : c'.connRef = ref)
    (hcrossed : Crossed c'.observations c'.observedPaths) : (r.modify ref fun _ => c').entry ref = some c' := by
  obtain ⟨hmem, hcref⟩ := Registry.entry_some hc
  have hmem' : c' ∈ r.modify ref fun _ => c' := Registry.mem_modify.mpr ⟨c, hmem, if_pos hcref⟩
  have hentry := (h.modify href hcrossed).entry_eq hmem'
  rwa [href] at hentry

/-- **`delete_connection_if_empty` finds the paths of an empty entry empty.** -/
theorem Sound.deleteConnectionIfEmpty (h : Sound r) (ref : ConnectionRef) :
    r.deleteConnectionIfEmpty ref = some (dropEmpty ref r) := by
  unfold Registry.deleteConnectionIfEmpty dropEmpty
  cases hentry : r.entry ref with
  | none =>
      refine congrArg some (List.filter_eq_self.mpr fun c hc => ?_).symm
      simp [Registry.entry_none hentry c hc]
  | some c =>
      obtain ⟨hmem, rfl⟩ := Registry.entry_some hentry
      dsimp only
      by_cases hempty : c.observations.isEmpty = true
      · rw [if_pos hempty, if_pos (cleanupConnection_eq (h.crossed c hmem))]
        refine congrArg some (List.filter_congr fun d hd => ?_)
        by_cases href : d.connRef = c.connRef
        · simp [h.eq_of_mem hd hmem href, hempty]
        · simp [href]
      · rw [if_neg hempty]
        refine congrArg some (List.filter_eq_self.mpr fun d hd => ?_).symm
        by_cases href : d.connRef = c.connRef
        · simp [h.eq_of_mem hd hmem href, hempty]
        · simp [href]

/-- **So it does at the place of a connection** whose own entry is the only one that may be empty. -/
theorem Sound.deleteAtIfEmpty (h : Sound r) (hothers : ∀ c ∈ r, c.connRef ≠ ref → c.observations ≠ []) :
    r.deleteAtIfEmpty ref = some (dropEmpty ref r) := by
  have hat : ∀ d : TrackedEntry, (!decide (connectionRefCmp d.connRef ref < 0)) = true ↔
      ref.ssid ≤ d.connRef.ssid := by
    intro d
    have hcmp : connectionRefCmp d.connRef ref < 0 ↔ d.connRef.ssid < ref.ssid := entryCmp_reflects.lt d ⟨ref, [], []⟩
    simp [hcmp]
  have hother : ∀ d : TrackedEntry, (!decide (d.connRef.ssid = ref.ssid)) = true ↔ d.connRef.ssid ≠ ref.ssid := by simp
  unfold Registry.deleteAtIfEmpty
  have hnone : (∀ d ∈ r, d.connRef.ssid ≠ ref.ssid) → dropEmpty ref r = r := by
    intro hne
    refine List.filter_eq_self.mpr fun d hd => ?_
    have hdne : d.connRef ≠ ref := fun heq => hne d hd (congrArg _ heq)
    simp [hdne]
  rcases find?_from hat hother h.sorted with ⟨found, hfound, hkey, -⟩ | ⟨hne, hkey⟩
  · rw [hfound]
    show r.deleteConnectionIfEmpty found.connRef = _
    rw [ConnectionRef.ext_ssid hkey]
    exact h.deleteConnectionIfEmpty ref
  · rw [hnone hne]
    cases hfind : r.find? fun d => !decide (connectionRefCmp d.connRef ref < 0) with
    | none => rfl
    | some d =>
        have hmem := List.mem_of_find?_eq_some hfind
        have hdne : d.connRef ≠ ref := fun heq => hkey d hfind (congrArg _ heq)
        show r.deleteConnectionIfEmpty d.connRef = _
        rw [h.deleteConnectionIfEmpty]
        refine congrArg some (List.filter_eq_self.mpr fun e he => ?_)
        by_cases href : e.connRef = d.connRef
        · have hocc := hothers d hmem hdne
          simp [h.eq_of_mem he hmem href, hocc]
        · simp [href]

theorem dropEmpty_of_occupied (h : ∀ c ∈ r, c.observations ≠ []) (ref : ConnectionRef) : dropEmpty ref r = r :=
  List.filter_eq_self.mpr fun c hc => by simp [h c hc]

theorem dropEmpty_dropEmpty (ref : ConnectionRef) (r : Registry) : dropEmpty ref (dropEmpty ref r) = dropEmpty ref r := by
  unfold dropEmpty
  rw [List.filter_filter]
  simp

theorem dropEmpty_sublist (ref : ConnectionRef) (r : Registry) : (dropEmpty ref r).Sublist r := List.filter_sublist

/-- Where the other entries are occupied, all are once an empty one is dropped. -/
theorem Sound.inv_dropEmpty (h : Sound r) (hothers : ∀ c ∈ r, c.connRef ≠ ref → c.observations ≠ []) :
    Inv (dropEmpty ref r) := by
  refine ⟨h.sublist (dropEmpty_sublist ref r), fun c hc => ?_⟩
  obtain ⟨hmem, hkeep⟩ := List.mem_filter.mp hc
  by_cases href : c.connRef = ref
  · intro hnil
    simp [href, hnil] at hkeep
  · exact hothers c hmem href

theorem shown_dropEmpty (ref : ConnectionRef) (r : Registry) : (dropEmpty ref r).shown =
    r.shown.filter fun c => !(c.1 == ref && c.2.1.isEmpty) := by
  unfold dropEmpty Registry.shown
  rw [List.filter_map]
  rfl

theorem Sound.shown_modify (h : Sound r) (hc : r.entry ref = some c) {c' : TrackedEntry} (hshown : c'.shown = c.shown) :
    (r.modify ref fun _ => c').shown = r.shown := by
  obtain ⟨hmem, rfl⟩ := Registry.entry_some hc
  unfold Registry.shown Registry.modify updateAt
  rw [List.map_map]
  refine List.map_congr_left fun d hd => ?_
  show (if d.connRef = c.connRef then c' else d).shown = d.shown
  split
  next heq => rw [hshown, h.eq_of_mem hd hmem heq]
  · rfl

end Entries


/-! ## 5. Requests and cancellations -/

section Events

variable {r : Registry} {ref : ConnectionRef} {c : TrackedEntry} {token : Token} {env : RequestEnv}
  {paths : List UriPath}

theorem find_some {o : Tracked} (h : c.find token = some o) : o ∈ c.observations ∧ tokenCmp o.token token = 0 :=
  ⟨List.mem_of_find?_eq_some h, by simpa using List.find?_some h⟩

/-- **Removing an observation takes it off its paths**; the assertions hold. -/
theorem Sound.removeEntry_cases (h : Sound r) (ref : ConnectionRef) (token : Token) :
    ((r.entry ref).bind (TrackedEntry.find token) = none ∧ observeRemoveEntry ref token r = some r) ∨
      ∃ c o paths', r.entry ref = some c ∧ c.find token = some o ∧
        (∀ id, pathShape.refsAt id paths' =
          RefShape.without o.addr (pathShape.uses id o.paths) (pathShape.refsAt id c.observedPaths)) ∧
        Crossed (c.deleteObservation o paths').observations paths' ∧
        observeRemoveEntry ref token r = some (dropEmpty ref (r.modify ref fun _ => c.deleteObservation o paths')) := by
  unfold observeRemoveEntry
  cases hentry : r.entry ref with
  | none => exact .inl ⟨rfl, rfl⟩
  | some c =>
      obtain ⟨hmem, hcref⟩ := Registry.entry_some hentry
      dsimp only
      cases hfind : c.find token with
      | none => exact .inl ⟨hfind, rfl⟩
      | some o =>
          obtain ⟨paths', hremove, hspec, hcrossed⟩ := (h.crossed c hmem).remove (find_some hfind).1
          have hmodify : (r.modify ref (TrackedEntry.deleteObservation o paths')) =
              r.modify ref fun _ => c.deleteObservation o paths' := by
            refine List.map_congr_left fun d hd => ?_
            split
            next heq => rw [h.eq_of_mem hd hmem (heq.trans hcref.symm)]
            · rfl
          refine .inr ⟨c, o, paths', rfl, hfind, hspec, hcrossed, ?_⟩
          dsimp only
          rw [hremove]
          dsimp only
          rw [hmodify]
          have hsound : Sound (r.modify ref fun _ => c.deleteObservation o paths') := h.modify hcref hcrossed
          exact hsound.deleteConnectionIfEmpty ref

theorem findOrCreate_cases (r : Registry) (ref : ConnectionRef) :
    (r.findOrCreate ref = r ∧ ∃ c ∈ r, c.connRef = ref) ∨ (r.findOrCreate ref).Perm (⟨ref, [], []⟩ :: r) := by
  have hcases : (upsert Registry.entryCmp ⟨ref, [], []⟩ id r = r ∧
        ∃ c ∈ r, Registry.entryCmp c ⟨ref, [], []⟩ = 0) ∨
      (upsert Registry.entryCmp ⟨ref, [], []⟩ id r).Perm (⟨ref, [], []⟩ :: r) := upsert_id_cases _
  refine hcases.imp_left fun ⟨hsame, c, hc, hcmp⟩ => ⟨hsame, c, hc, ?_⟩
  exact ConnectionRef.ext_ssid ((entryCmp_reflects.eq_zero c ⟨ref, [], []⟩).mp hcmp)

theorem mem_findOrCreate (hc : c ∈ r.findOrCreate ref) : c ∈ r ∨ c = ⟨ref, [], []⟩ := by
  rcases findOrCreate_cases r ref with ⟨hsame, _⟩ | hperm
  · rw [hsame] at hc
    exact .inl hc
  · exact (List.mem_cons.mp (hperm.mem_iff.mp hc)).symm

theorem crossed_empty : Crossed [] [] := ⟨Level.nil, List.nodup_nil, fun _ _ => rfl⟩

theorem Sound.findOrCreate (h : Sound r) (ref : ConnectionRef) : Sound (r.findOrCreate ref) where
  sorted := upsert_sorted entryCmp_reflects (fun _ => rfl) h.sorted
  crossed c hc := by
    rcases mem_findOrCreate hc with hc | rfl
    · exact h.crossed c hc
    · exact crossed_empty

theorem Sound.entry_findOrCreate (h : Sound r) (ref : ConnectionRef) : ∃ c, (r.findOrCreate ref).entry ref = some c ∧
    (r.entry ref = some c ∨ r.entry ref = none ∧ c = ⟨ref, [], []⟩) := by
  have hfound : ∀ c ∈ r.findOrCreate ref, c.connRef = ref → (r.findOrCreate ref).entry ref = some c := by
    rintro c hc rfl
    exact (h.findOrCreate _).entry_eq hc
  cases hentry : r.entry ref with
  | some c =>
      obtain ⟨hc, hcref⟩ := Registry.entry_some hentry
      rcases findOrCreate_cases r ref with ⟨hsame, -⟩ | hperm
      · exact ⟨c, by rw [hsame]; exact hentry, .inl rfl⟩
      · exact ⟨c, hfound c (hperm.mem_iff.mpr (List.mem_cons_of_mem _ hc)) hcref, .inl rfl⟩
  | none =>
      rcases findOrCreate_cases r ref with ⟨-, c, hc, hcref⟩ | hperm
      · exact absurd hcref (Registry.entry_none hentry c hc)
      · exact ⟨⟨ref, [], []⟩, hfound _ (hperm.mem_iff.mpr List.mem_cons_self) rfl, .inr ⟨rfl, rfl⟩⟩

theorem mem_findOrCreate_other {d : TrackedEntry} (hne : d.connRef ≠ ref) : d ∈ r.findOrCreate ref ↔ d ∈ r := by
  rcases findOrCreate_cases r ref with ⟨hsame, -⟩ | hperm
  · rw [hsame]
  · rw [hperm.mem_iff, List.mem_cons]
    exact ⟨fun h => h.resolve_left fun heq => hne (congrArg TrackedEntry.connRef heq), .inr⟩

theorem Inv.others_findOrCreate (h : Inv r) (ref : ConnectionRef) :
    ∀ c ∈ r.findOrCreate ref, c.connRef ≠ ref → c.observations ≠ [] := by
  intro c hc hne
  rcases mem_findOrCreate hc with hc | rfl
  · exact h.occupied c hc
  · exact absurd rfl hne

/-- **An entry that was made for nothing is dropped again.** -/
theorem Inv.dropEmpty_findOrCreate (h : Inv r) (ref : ConnectionRef) : dropEmpty ref (r.findOrCreate ref) = r := by
  rcases findOrCreate_cases r ref with ⟨hsame, -⟩ | hperm
  · rw [hsame]
    exact dropEmpty_of_occupied h.occupied ref
  · have hne : ∀ c ∈ r, c.connRef.ssid ≠ ref.ssid := by
      intro c hc heq
      have hnodup := ((h.findOrCreate ref).sorted.imp fun {a b} hlt (heq : a.connRef.ssid = b.connRef.ssid) =>
        hlt.ne heq)
      have hcons := hperm.pairwise_iff (R := fun a b : TrackedEntry => a.connRef.ssid ≠ b.connRef.ssid)
        (fun {_ _} hab => hab.symm) |>.mp hnodup
      exact (List.pairwise_cons.mp hcons).1 c hc heq.symm
    have hfilter : dropEmpty ref (r.findOrCreate ref) = dropEmpty ref r :=
      filter_upsert entryCmp_reflects (by simp) hne
    rw [hfilter]
    exact dropEmpty_of_occupied h.occupied ref

/-- What cannot be attached leaves the list as it was. -/
theorem filter_upsert_tracked {o : Tracked} {p : Tracked → Bool} (hnew : p o = false) :
    ∀ {os : List Tracked}, (∀ o' ∈ os, tokenCmp o'.token o.token ≠ 0 ∧ p o' = true) →
      (upsert trackedCmp o id os).filter p = os
  | [], _ => by simp [upsert, hnew]
  | o' :: os, h => by
      obtain ⟨hne, hp⟩ := h o' List.mem_cons_self
      have ih := filter_upsert_tracked hnew fun b hb => h b (List.mem_cons_of_mem o' hb)
      have hself : (o' :: os).filter p = o' :: os := List.filter_eq_self.mpr fun b hb => (h b hb).2
      rw [upsert, if_neg (show trackedCmp o' o ≠ 0 from hne)]
      split
      · show (o :: o' :: os).filter p = o' :: os
        rw [List.filter_cons_of_neg (ne_true_of_eq_false hnew)]
        exact hself
      · rw [List.filter_cons_of_pos hp, ih]

/-- An observation whose token no other has is put in. -/
theorem upsert_perm {o : Tracked} {os : List Tracked} (hnew : ∀ o' ∈ os, tokenCmp o'.token o.token ≠ 0) :
    (upsert trackedCmp o id os).Perm (o :: os) := by
  have hcases : (upsert trackedCmp o id os = os ∧ ∃ o' ∈ os, trackedCmp o' o = 0) ∨
      (upsert trackedCmp o id os).Perm (o :: os) := upsert_id_cases _
  exact hcases.resolve_left fun ⟨_, o', ho', hcmp⟩ => hnew o' ho' hcmp

/-- **Attaching a new observation**: it is put in both trees, or the entry shows what it showed. -/
theorem attachNewObservation_cases (h : Crossed c.observations c.observedPaths) {o : Tracked}
    (hnew : ∀ o' ∈ c.observations, o'.addr ≠ o.addr ∧ tokenCmp o'.token o.token ≠ 0) (alloc : Nat → RefAlloc) :
    (∃ c', c.attachNewObservation alloc o = some (false, c') ∧ c'.shown = c.shown ∧
        c'.observations = c.observations ∧ Crossed c'.observations c'.observedPaths) ∨
      ∃ c', c.attachNewObservation alloc o = some (true, c') ∧ c'.connRef = c.connRef ∧
        c'.observations = upsert trackedCmp o id c.observations ∧ c'.observations.Perm (o :: c.observations) ∧
        Crossed c'.observations c'.observedPaths ∧ ∀ id, pathShape.refsAt id c'.observedPaths =
          List.replicate (pathShape.uses id o.paths) o.addr ++ pathShape.refsAt id c.observedPaths := by
  have hfresh : o.addr ∉ c.observations.map Tracked.addr := by
    intro hmem
    obtain ⟨o', ho', heq⟩ := List.mem_map.mp hmem
    exact (hnew o' ho').1 heq
  have hperm := upsert_perm fun o' ho' => (hnew o' ho').2
  obtain ⟨good, paths', hadd, hgood, hbad⟩ := h.insert hfresh hperm alloc
  unfold TrackedEntry.attachNewObservation
  rw [hadd]
  cases good with
  | false =>
      obtain ⟨hcrossed, hspec⟩ := hbad rfl
      refine .inl ⟨_, rfl, ?_, rfl, hcrossed⟩
      unfold TrackedEntry.shown
      rw [RefShape.index_ext hcrossed.index h.index hspec]
  | true =>
      obtain ⟨hcrossed, hspec⟩ := hgood rfl
      exact .inr ⟨_, rfl, rfl, rfl, hperm, hcrossed, hspec⟩

end Events


/-! ## 6. All or nothing -/

section Requests

variable {r r' : Registry} {ref : ConnectionRef} {c : TrackedEntry} {token : Token} {env : RequestEnv}
  {paths : List UriPath}

/-- What a request adds: its observation, named by its paths as often as they occur in it. -/
structure Added (env : RequestEnv) (ref : ConnectionRef) (token : Token) (paths : List UriPath) (r r' : Registry) :
    Prop where
  others : ∀ c, c.connRef ≠ ref → (c ∈ r' ↔ c ∈ r)
  own : ∃ c', r'.entry ref = some c' ∧
    c'.observations = upsert trackedCmp ⟨env.address, token, paths⟩ id ((r.entry ref).elim [] TrackedEntry.observations) ∧
    ∀ id, pathShape.refsAt id c'.observedPaths = List.replicate (pathShape.uses id paths) env.address ++
      pathShape.refsAt id ((r.entry ref).elim [] TrackedEntry.observedPaths)

theorem others_modify {c' : TrackedEntry} (href : c'.connRef = ref) {d : TrackedEntry} (hne : d.connRef ≠ ref) :
    (d ∈ r.modify ref fun _ => c') ↔ d ∈ r := by
  rw [Registry.mem_modify]
  constructor
  · intro ⟨d', hd', heq⟩
    split at heq
    · exact absurd (heq ▸ href) hne
    · exact heq ▸ hd'
  · exact fun hd => ⟨d, hd, if_neg hne⟩

theorem modify_modify {c' c'' : TrackedEntry} (href : c'.connRef = ref) :
    ((r.modify ref fun _ => c').modify ref fun _ => c'') = r.modify ref fun _ => c'' := by
  unfold Registry.modify updateAt
  rw [List.map_map]
  refine List.map_congr_left fun d _ => ?_
  show (if (if d.connRef = ref then c' else d).connRef = ref then c'' else if d.connRef = ref then c' else d) =
    if d.connRef = ref then c'' else d
  by_cases h : d.connRef = ref
  · rw [if_pos h, if_pos href, if_pos h]
  · rw [if_neg h, if_neg h]

theorem modify_occupied {c' : TrackedEntry} (hocc : c'.observations ≠ [])
    (hothers : ∀ d ∈ r, d.connRef ≠ ref → d.observations ≠ []) : ∀ d ∈ r.modify ref fun _ => c', d.observations ≠ [] := by
  intro d hd
  obtain ⟨d', hd', rfl⟩ := Registry.mem_modify.mp hd
  split
  · exact hocc
  next hne => exact hothers d' hd' hne

theorem others_of_modify {c' : TrackedEntry} (href : c'.connRef = ref)
    (hothers : ∀ d ∈ r, d.connRef ≠ ref → d.observations ≠ []) :
    ∀ d ∈ r.modify ref fun _ => c', d.connRef ≠ ref → d.observations ≠ [] :=
  fun d hd hne => hothers d ((others_modify href hne).mp hd) hne

/-- After a failure with no observation of the token: an entry that is empty is dropped. -/
theorem Sound.failed (h : Sound r) (hothers : ∀ c ∈ r, c.connRef ≠ ref → c.observations ≠ [])
    (hnone : (r.entry ref).bind (TrackedEntry.find token) = none) :
    ((observeRemoveEntry ref token r).bind fun r' => r'.deleteAtIfEmpty ref) = some (dropEmpty ref r) := by
  rcases h.removeEntry_cases ref token with ⟨-, heq⟩ | ⟨c, o, paths', hentry, hfind, -⟩
  · rw [heq]
    exact h.deleteAtIfEmpty hothers
  · rw [hentry] at hnone
    exact absurd (hnone.symm.trans hfind) (by simp)

theorem find_eq_none (hnew : ∀ o ∈ c.observations, tokenCmp o.token token ≠ 0) : c.find token = none :=
  List.find?_eq_none.mpr fun o ho => by simpa using hnew o ho

/-- **After a failure with the new observation in place**: it is taken out of both trees again. -/
theorem Sound.undone (h : Sound r) (hothers : ∀ c ∈ r, c.connRef ≠ ref → c.observations ≠ [])
    (hentry : r.entry ref = some c) {o : Tracked}
    (hnew : ∀ o' ∈ c.observations, o'.addr ≠ o.addr ∧ tokenCmp o'.token o.token ≠ 0) {c' : TrackedEntry}
    (href : c'.connRef = ref) (hobs : c'.observations = upsert trackedCmp o id c.observations)
    (hperm : c'.observations.Perm (o :: c.observations)) (hcrossed : Crossed c'.observations c'.observedPaths)
    (hspec : ∀ id, pathShape.refsAt id c'.observedPaths =
      List.replicate (pathShape.uses id o.paths) o.addr ++ pathShape.refsAt id c.observedPaths) :
    ∃ r', ((observeRemoveEntry ref o.token (r.modify ref fun _ => c')).bind fun r' => r'.deleteAtIfEmpty ref) = some r' ∧
      Inv r' ∧ r'.shown = (dropEmpty ref r).shown := by
  obtain ⟨hmem, hcref⟩ := Registry.entry_some hentry
  have hsound : Sound (r.modify ref fun _ => c') := h.modify href hcrossed
  have hfilter : ∀ p : Tracked → Bool, p o = false → (∀ o' ∈ c.observations, p o' = true) →
      c'.observations.filter p = c.observations := by
    intro p hp hall
    rw [hobs]
    exact filter_upsert_tracked hp fun o' ho' => ⟨(hnew o' ho').2, hall o' ho'⟩
  have hunique : ∀ o' ∈ c'.observations, tokenCmp o'.token o.token = 0 → o' = o := by
    intro o' ho' htoken
    exact (List.mem_cons.mp (hperm.mem_iff.mp ho')).resolve_right fun hmem => (hnew o' hmem).2 htoken
  rcases hsound.removeEntry_cases ref o.token with ⟨hnone, -⟩ | ⟨d, o', paths', hentry', hfind, hrefs, hcrossed', heq⟩
  · rw [h.entry_modify hentry href hcrossed] at hnone
    have ho : o ∈ c'.observations := hperm.mem_iff.mpr List.mem_cons_self
    exact absurd (List.find?_eq_none.mp hnone o ho) (by simp [tokenCmp_self])
  · rw [h.entry_modify hentry href hcrossed] at hentry'
    cases hentry'
    obtain ⟨ho', htoken⟩ := find_some hfind
    cases hunique o' ho' htoken
    have hobs' : (c'.deleteObservation o paths').observations = c.observations :=
      hfilter (fun b => !(b.addr == o.addr)) (by simp) fun b hb => by simpa using (hnew b hb).1
    have hshown : (c'.deleteObservation o paths').shown = c.shown := by
      have hpaths : pathShape.shown paths' = pathShape.shown c.observedPaths := by
        refine RefShape.index_ext hcrossed'.index (h.crossed c hmem).index fun id => ?_
        rw [hrefs, hspec, RefShape.without_replicate]
      unfold TrackedEntry.shown
      rw [hobs', show (c'.deleteObservation o paths').connRef = c.connRef from href.trans hcref.symm]
      exact congrArg (fun shown => (c.connRef, c.observations, shown)) hpaths
    have hsound' : Sound (r.modify ref fun _ => c'.deleteObservation o paths') := h.modify href hcrossed'
    rw [modify_modify href] at heq
    have hothers' : ∀ d ∈ r.modify ref fun _ => c'.deleteObservation o paths', d.connRef ≠ ref → d.observations ≠ [] :=
      others_of_modify href hothers
    have hinv := hsound'.inv_dropEmpty hothers'
    refine ⟨_, ?_, hinv, ?_⟩
    · rw [heq, Option.bind_some, hinv.toSound.deleteAtIfEmpty fun d hd _ => hinv.occupied d hd, dropEmpty_dropEmpty]
    · rw [shown_dropEmpty, h.shown_modify hentry hshown, ← shown_dropEmpty]

theorem observeRead_eq (env : RequestEnv) (ref : ConnectionRef) (token : Token) (paths : List UriPath) (r : Registry) :
    observeRead env ref token paths r = (putEntry env ref token paths r).bind fun put =>
      if put.1 && env.completed then some put.2
      else (observeRemoveEntry ref token put.2).bind fun r' => r'.deleteAtIfEmpty ref := by
  unfold observeRead
  cases putEntry env ref token paths r with
  | none => rfl
  | some put =>
      obtain ⟨attached, r'⟩ := put
      dsimp only [Option.bind_some]
      split
      · rfl
      · cases observeRemoveEntry ref token r' with
        | none => rfl
        | some r'' => rfl

/-- **Once the values are read, the observation is added, or everything is as it was.** -/
theorem Inv.read_outcome (h : Inv r) (he : Enabled r (.observe env ref token paths)) :
    ∃ r', observeRead env ref token paths (r.findOrCreate ref) = some r' ∧ Inv r' ∧
      (r'.shown = r.shown ∨ Added env ref token paths r r') := by
  have hsound := h.findOrCreate ref
  have hothers := h.others_findOrCreate ref
  obtain ⟨c, hentry, hc⟩ := h.toSound.entry_findOrCreate ref
  obtain ⟨hmem, hcref⟩ := Registry.entry_some hentry
  have hnew : ∀ o ∈ c.observations, o.addr ≠ env.address ∧ tokenCmp o.token token ≠ 0 := by
    rcases hc with hc | ⟨-, rfl⟩
    · exact he c (Registry.entry_some hc).1 hcref
    · exact fun o ho => nomatch ho
  have hnone : c.find token = none := find_eq_none fun o ho => (hnew o ho).2
  have hback := h.dropEmpty_findOrCreate ref
  rw [observeRead_eq]
  unfold putEntry
  cases halloc : env.observationAllocated with
  | false =>
      refine ⟨r, ?_, h, .inl rfl⟩
      rw [if_neg (by decide), Option.bind_some, if_neg (by simp)]
      refine (hsound.failed hothers ?_).trans (congrArg some hback)
      rw [hentry]
      exact hnone
  | true =>
      rw [if_pos rfl, hentry]
      dsimp only
      rw [if_neg (by rw [hnone]; decide)]
      rcases attachNewObservation_cases (hsound.crossed c hmem) (o := ⟨env.address, token, paths⟩) hnew env.pathAlloc with
        ⟨c', hattach, hshown, hobs, hcrossed⟩ | ⟨c', hattach, href, hobs, hperm, hcrossed, hspec⟩
      · -- the paths could not be added
        have href : c'.connRef = ref := (congrArg Prod.fst hshown).trans hcref
        have hsound' : Sound ((r.findOrCreate ref).modify ref fun _ => c') := hsound.modify href hcrossed
        have hothers' := others_of_modify href hothers
        refine ⟨dropEmpty ref ((r.findOrCreate ref).modify ref fun _ => c'), ?_, hsound'.inv_dropEmpty hothers', .inl ?_⟩
        · rw [hattach, Option.bind_some, if_neg (by simp)]
          refine hsound'.failed hothers' ?_
          rw [hsound.entry_modify hentry href hcrossed]
          exact find_eq_none fun o ho => (hnew o (hobs ▸ ho)).2
        · rw [shown_dropEmpty, hsound.shown_modify hentry hshown, ← shown_dropEmpty, hback]
      · have href' : c'.connRef = ref := href.trans hcref
        have hsound' : Sound ((r.findOrCreate ref).modify ref fun _ => c') := hsound.modify href' hcrossed
        have hothers' := others_of_modify href' hothers
        rw [hattach, Option.bind_some]
        cases hcompleted : env.completed with
        | false =>
            obtain ⟨r', hrun, hinv, hshown⟩ := hsound.undone hothers hentry hnew href' hobs hperm hcrossed hspec
            exact ⟨r', by rw [if_neg (by simp)]; exact hrun, hinv, .inl (by rw [hshown, hback])⟩
        | true =>
            have hocc : c'.observations ≠ [] := List.ne_nil_of_mem (hperm.mem_iff.mpr List.mem_cons_self)
            refine ⟨(r.findOrCreate ref).modify ref fun _ => c', if_pos rfl, ⟨hsound', modify_occupied hocc hothers⟩, .inr ?_⟩
            have hown : c.observations = (r.entry ref).elim [] TrackedEntry.observations ∧
                c.observedPaths = (r.entry ref).elim [] TrackedEntry.observedPaths := by
              rcases hc with hc | ⟨hc, rfl⟩
              · rw [hc]
                exact ⟨rfl, rfl⟩
              · rw [hc]
                exact ⟨rfl, rfl⟩
            refine ⟨fun d hd => ?_, c', hsound.entry_modify hentry href' hcrossed, ?_, fun id => ?_⟩
            · rw [others_modify href' hd, mem_findOrCreate_other hd]
            · rw [← hown.1]
              exact hobs
            · rw [← hown.2]
              exact hspec id

end Requests


/-! ## 7. Runs -/

section Runs

variable {r r' : Registry}

theorem Sound.all_cleanup (h : Sound r) {r' : Registry} (hsub : ∀ c ∈ r', c ∈ r) : r'.all cleanupConnection = true :=
  List.all_eq_true.mpr fun c hc => cleanupConnection_eq (h.crossed c (hsub c hc))

/-- **Garbage collection** drops entries, whose assertions hold. -/
theorem Inv.gcLoop : ∀ (ssids : List Id) {r : Registry}, Inv r →
    ∃ r', Paths.gcLoop ssids r = some r' ∧ r'.Sublist r
  | [], r, h => ⟨[], if_pos (h.toSound.all_cleanup fun _ hc => hc), List.nil_sublist r⟩
  | ssid :: ssids, r, h => by
      have hrest := List.dropWhile_sublist (l := r) fun c => decide (c.connRef.ssid < ssid)
      have htail := List.dropWhile_sublist (l := r.dropWhile fun c => decide (c.connRef.ssid < ssid))
        fun c => decide (c.connRef.ssid = ssid)
      obtain ⟨r', hrun, hsub⟩ := Inv.gcLoop ssids (h.sublist (htail.trans hrest))
      refine ⟨(r.dropWhile fun c => decide (c.connRef.ssid < ssid)).takeWhile (fun c => decide (c.connRef.ssid = ssid)) ++ r',
        ?_, ?_⟩
      · rw [Paths.gcLoop, if_pos (h.toSound.all_cleanup fun c hc => (List.takeWhile_sublist _).subset hc), hrun]
        rfl
      · refine List.Sublist.trans ?_ hrest
        conv => rhs; rw [← List.takeWhile_append_dropWhile (p := fun c => decide (c.connRef.ssid = ssid))
          (l := r.dropWhile fun c => decide (c.connRef.ssid < ssid))]
        exact List.Sublist.append (List.Sublist.refl _) hsub

/-- Where an entry is deleted by mistake, that is the next greater one. -/
theorem deleteAt_eq {ref : ConnectionRef} (hnone : r.entry ref = none) :
    ((∀ c ∈ r, c.connRef.ssid < ref.ssid) ∧ r.deleteAt ref = r) ∨
      (∃ c ∈ r, ref.ssid < c.connRef.ssid) ∧ (r.deleteAt ref).length < r.length := by
  have hcmp : ∀ d : TrackedEntry, connectionRefCmp d.connRef ref < 0 ↔ d.connRef.ssid < ref.ssid :=
    fun d => entryCmp_reflects.lt d ⟨ref, [], []⟩
  by_cases hall : ∀ c ∈ r, c.connRef.ssid < ref.ssid
  · exact .inl ⟨hall, List.eraseP_of_forall_not fun c hc => by simpa [hcmp] using hall c hc⟩
  · obtain ⟨c, hc, hge⟩ : ∃ c ∈ r, ref.ssid ≤ c.connRef.ssid := by simpa using hall
    have hne : c.connRef.ssid ≠ ref.ssid := fun heq => Registry.entry_none hnone c hc (ConnectionRef.ext_ssid heq)
    refine .inr ⟨⟨c, hc, lt_of_le_of_ne hge hne.symm⟩, ?_⟩
    have hlength := List.length_eraseP_of_mem (p := fun c : TrackedEntry => !decide (connectionRefCmp c.connRef ref < 0)) hc
      (by simpa [hcmp] using hge)
    have hpos := List.length_pos_of_mem hc
    show (r.eraseP _).length < r.length
    omega

/-- The defect of `find_or_create_connection_state`: without memory for the list element, the entry of the next greater
    connection is deleted. -/
def Clobbers (env : RequestEnv) (ref : ConnectionRef) (r : Registry) : Prop :=
  r.entry ref = none ∧ env.elementAllocated = false ∧ ∃ c ∈ r, ref.ssid < c.connRef.ssid

/-- **The outcome of a request**: it adds its observation, or the registry shows what it showed, or an entry is lost. -/
theorem Inv.request_outcome (h : Inv r) {env : RequestEnv} {ref : ConnectionRef} {token : Token} {paths : List UriPath}
    (he : Enabled r (.observe env ref token paths)) : ∃ r', observeHandle env ref token paths r = some r' ∧ Inv r' ∧
      (Clobbers env ref r ∧ r'.length < r.length ∧ r' ⊆ r ∨
        ¬Clobbers env ref r ∧ (r'.shown = r.shown ∨ Added env ref token paths r r')) := by
  unfold observeHandle
  by_cases helement : ((r.entry ref).isNone && !env.elementAllocated) = true
  · rw [if_pos helement]
    obtain ⟨hnone, halloc⟩ : r.entry ref = none ∧ env.elementAllocated = false := by simpa using helement
    refine ⟨_, rfl, h.sublist List.eraseP_sublist, ?_⟩
    rcases deleteAt_eq hnone with ⟨hall, hsame⟩ | ⟨hgreater, hlength⟩
    · refine .inr ⟨fun ⟨_, _, c, hc, hlt⟩ => absurd (hall c hc) hlt.not_gt, .inl ?_⟩
      rw [hsame]
    · exact .inl ⟨⟨hnone, halloc, hgreater⟩, hlength, List.eraseP_subset⟩
  · rw [if_neg helement]
    have hnot : ¬Clobbers env ref r := fun ⟨hnone, halloc, _⟩ => helement (by simp [hnone, halloc])
    by_cases htrees : ((r.entry ref).isNone && !env.treesAllocated) = true
    · rw [if_pos htrees]
      exact ⟨r, rfl, h, .inr ⟨hnot, .inl rfl⟩⟩
    · rw [if_neg htrees]
      cases hread : env.readSucceeds with
      | true =>
          obtain ⟨r', hrun, hinv, hresult⟩ := h.read_outcome he
          exact ⟨r', hrun, hinv, .inr ⟨hnot, hresult⟩⟩
      | false =>
          refine ⟨r, ?_, h, .inr ⟨hnot, .inl rfl⟩⟩
          rw [if_neg (by decide), (h.findOrCreate ref).deleteConnectionIfEmpty, h.dropEmpty_findOrCreate]

/-- **Every call that is made succeeds, and keeps the invariant.** -/
theorem Inv.perform (h : Inv r) {event : Event} (he : Enabled r event) : ∃ r', perform event r = some r' ∧ Inv r' := by
  cases event with
  | observe env ref token paths =>
      obtain ⟨r', hrun, hinv, -⟩ := h.request_outcome he
      exact ⟨r', hrun, hinv⟩
  | remove ref token =>
      rcases h.toSound.removeEntry_cases ref token with ⟨-, heq⟩ | ⟨c, o, paths', hentry, -, -, hcrossed, heq⟩
      · exact ⟨r, heq, h⟩
      · have hcref := (Registry.entry_some hentry).2
        have hsound : Sound (r.modify ref fun _ => c.deleteObservation o paths') := h.modify hcref hcrossed
        have hothers : ∀ d ∈ r.modify ref fun _ => c.deleteObservation o paths', d.connRef ≠ ref → d.observations ≠ [] :=
          others_of_modify hcref fun d hd _ => h.occupied d hd
        exact ⟨_, heq, hsound.inv_dropEmpty hothers⟩
  | gc ssids =>
      obtain ⟨r', hrun, hsub⟩ := h.gcLoop ssids
      exact ⟨r', hrun, h.sublist hsub⟩
  | cleanup => exact ⟨[], if_pos (h.toSound.all_cleanup fun _ hc => hc), h.sublist (List.nil_sublist r)⟩

theorem inv_nil : Inv [] := ⟨⟨List.Pairwise.nil, fun _ hc => nomatch hc⟩, fun _ hc => nomatch hc⟩

theorem Reachable.inv (h : Reachable r) : Inv r := by
  induction h with
  | init => exact inv_nil
  | step event _ he hs ih =>
      obtain ⟨r'', hrun, hinv⟩ := ih.perform he
      rw [hrun] at hs
      exact Option.some.inj hs ▸ hinv

/-- **The trees of an entry**: the paths strictly in order, each with a reference, a reference for every time that an
    observation names a path, and none to anything else. -/
structure Consistent (c : TrackedEntry) : Prop where
  sorted : c.observedPaths.Pairwise fun a b => a.path.compare b.path < 0
  nonempty : ∀ e ∈ c.observedPaths, e.refs ≠ []
  refs : ∀ e ∈ c.observedPaths, ∀ a ∈ e.refs, ∃ o ∈ c.observations, o.addr = a
  counts : ∀ o ∈ c.observations, ∀ path : UriPath,
    ((c.observedPaths.filter fun e => decide (e.path.compare path = 0)).flatMap PathEntry.refs).count o.addr =
      o.paths.countP fun p => decide (p.compare path = 0)

theorem compare_eq_key (p q : UriPath) : p.compare q = 0 ↔ p.key = q.key :=
  UriPath.compare_eq_zero.trans UriPath.key_eq_iff.symm

theorem Crossed.consistent {c : TrackedEntry} (h : Crossed c.observations c.observedPaths) : Consistent c where
  sorted := h.index.sorted.imp fun hlt => (UriPath.compare_neg _ _).mpr hlt
  nonempty := h.index.all
  refs e he a ha := by
    have hpos : 0 < (pathShape.refsAt e.path.key c.observedPaths).count a := by
      unfold RefShape.refsAt lookup
      rw [show findEntry pathShape.key e.path.key c.observedPaths = some e from
        RefShape.findEntry_of_mem h.index.sorted he]
      exact List.count_pos_iff.mpr ha
    rw [h.refs] at hpos
    by_contra hnone
    have hnotMem : a ∉ c.observations.map Tracked.addr := fun hmem =>
      hnone (by obtain ⟨o, ho, heq⟩ := List.mem_map.mp hmem; exact ⟨o, ho, heq⟩)
    rw [pathsOf_of_notMem hnotMem] at hpos
    exact absurd hpos (Nat.lt_irrefl 0)
  counts o ho path := by
    have hrefs := RefShape.refsAt_filter (fun e => decide_eq_true_iff.trans (compare_eq_key e.path path)) h.index.sorted
    have huses := RefShape.uses_eq_countP (S := pathShape) (fun p => decide_eq_true_iff.trans (compare_eq_key p path))
      o.paths
    rw [← huses, ← pathsOf_eq h.addrs ho, ← h.refs]
    exact congrArg (List.count o.addr) hrefs

/-- **In every reachable state** the entries are in order, each has an observation, its two trees agree, and no call
    that can be made fails an assertion or follows a null pointer. -/
theorem reachable_trees (h : Reachable r) :
    (r.Pairwise fun a b => connectionRefCmp a.connRef b.connRef < 0) ∧
      (∀ c ∈ r, c.observations ≠ [] ∧ Consistent c) ∧
      ∀ event, Enabled r event → (perform event r).isSome = true := by
  have hinv := h.inv
  refine ⟨hinv.sorted.imp fun {a b} hlt => (entryCmp_reflects.lt a b).mpr hlt,
    fun c hc => ⟨hinv.occupied c hc, (hinv.crossed c hc).consistent⟩, fun event he => ?_⟩
  obtain ⟨r', hrun, -⟩ := hinv.perform he
  rw [hrun]
  rfl

/-- An observation of a Resource and of its Object, for which there is memory. -/
def exampleRequest : RequestEnv := ⟨0, true, true, true, true, fun _ => ⟨true, true⟩, true⟩

def exampleTracked : Registry :=
  [⟨⟨1, .primary⟩, [⟨0, [7], [.resource 3 0 9, .object 3]⟩], [⟨.resource 3 0 9, [0]⟩, ⟨.object 3, [0]⟩]⟩]

theorem exampleTracked_reachable : Reachable exampleTracked :=
  .step (.observe exampleRequest ⟨1, .primary⟩ [7] [.resource 3 0 9, .object 3]) .init (fun _ h => nomatch h) (by decide)

theorem reachable_trees_one :
    exampleTracked.length = 1 ∧ ∀ c ∈ exampleTracked, c.observations ≠ [] ∧ Consistent c :=
  ⟨rfl, (reachable_trees exampleTracked_reachable).2.1⟩

/-- The observation of a request is there. -/
def Registered (env : RequestEnv) (ref : ConnectionRef) (r : Registry) : Prop :=
  ∃ c ∈ r, c.connRef = ref ∧ ∃ o ∈ c.observations, o.addr = env.address

/-- **All or nothing**: a request whose observation is there afterwards has added just that; any other leaves all
    entries as they were, if and only if it does not meet the defect of `find_or_create_connection_state`. -/
theorem reachable_request_iff {env : RequestEnv} {ref : ConnectionRef} {token : Token} {paths : List UriPath}
    (h : Reachable r) (he : Enabled r (.observe env ref token paths))
    (hs : perform (.observe env ref token paths) r = some r') :
    (Registered env ref r' → Added env ref token paths r r') ∧
      (¬Registered env ref r' → (r'.shown = r.shown ↔ ¬Clobbers env ref r)) := by
  obtain ⟨r'', hrun, -, hresult⟩ := h.inv.request_outcome he
  obtain rfl : r' = r'' := Option.some.inj (hs.symm.trans hrun)
  have hshown : r'.shown = r.shown → ¬Registered env ref r' := by
    intro hsame ⟨c, hc, hcref, o, ho, haddr⟩
    have hmem : c.shown ∈ r.shown := hsame ▸ List.mem_map_of_mem hc
    obtain ⟨d, hd, heq⟩ := List.mem_map.mp hmem
    have href : d.connRef = c.connRef := congrArg Prod.fst heq
    have hobs : d.observations = c.observations := congrArg (fun shown => shown.2.1) heq
    exact (he d hd (href.trans hcref) o (hobs ▸ ho)).1 haddr
  rcases hresult with ⟨hclobbers, hlength, hsub⟩ | ⟨hnot, hsame | hadded⟩
  · refine ⟨fun ⟨c, hc, hcref, _⟩ => absurd hcref (Registry.entry_none hclobbers.1 c (hsub hc)), fun _ =>
      ⟨fun hsame => ?_, fun hnot => absurd hclobbers hnot⟩⟩
    have hequal := congrArg List.length hsame
    unfold Registry.shown at hequal
    rw [List.length_map, List.length_map] at hequal
    omega
  · exact ⟨fun hregistered => absurd hregistered (hshown hsame), fun _ => ⟨fun _ => hnot, fun _ => hsame⟩⟩
  · refine ⟨fun _ => hadded, fun hunregistered => absurd ?_ hunregistered⟩
    obtain ⟨c', hentry, hobs, -⟩ := hadded.own
    obtain ⟨hmem, hcref⟩ := Registry.entry_some hentry
    have hold : ∀ o ∈ (r.entry ref).elim [] TrackedEntry.observations, tokenCmp o.token token ≠ 0 := by
      intro o ho
      cases hentry' : r.entry ref with
      | none =>
          rw [hentry'] at ho
          exact nomatch ho
      | some c =>
          rw [hentry'] at ho
          exact (he c (Registry.entry_some hentry').1 (Registry.entry_some hentry').2 o ho).2
    have hnew : (⟨env.address, token, paths⟩ : Tracked) ∈ c'.observations := by
      rw [hobs]
      exact (upsert_perm fun o ho => hold o ho).mem_iff.mpr List.mem_cons_self
    exact ⟨c', hmem, hcref, _, hnew, rfl⟩

/-- There is memory for the entry of the first path only. -/
def exampleShortage : RequestEnv := ⟨1, true, true, true, true, fun i => ⟨i == 0, i == 0⟩, true⟩

theorem reachable_request_shortage : ∃ r',
    perform (.observe exampleShortage ⟨1, .primary⟩ [8] [.object 3, .object 4]) exampleTracked = some r' ∧
      r'.shown = exampleTracked.shown := by
  have hrun : perform (.observe exampleShortage ⟨1, .primary⟩ [8] [.object 3, .object 4]) exampleTracked =
      some exampleTracked := by decide
  have he : Enabled exampleTracked (.observe exampleShortage ⟨1, .primary⟩ [8] [.object 3, .object 4]) := by
    have hother : tokenCmp [7] [8] ≠ 0 := by decide
    simp [Enabled, exampleTracked, exampleShortage, hother]
  have hunregistered : ¬Registered exampleShortage ⟨1, .primary⟩ exampleTracked := by
    simp [Registered, exampleTracked, exampleShortage]
  have hkept : ¬Clobbers exampleShortage ⟨1, .primary⟩ exampleTracked := fun h => absurd h.2.1 (by decide)
  exact ⟨_, hrun, ((reachable_request_iff exampleTracked_reachable he hrun).2 hunregistered).mpr hkept⟩

end Runs

end Anjay.Observe.Paths
