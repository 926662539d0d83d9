/-
  File:      Anjay/Observe/Queue.lean
  Subject:   The queues of unsent values of the observe module (`anjay_observe_core.c`).

  * `Value`, `Observation`, `ConnectionEntry`, `State`: the records; a value and an observation are known by their
    addresses, as the pointers to them are.
  * `Linked`, `AllSent`: what the redundant pointers of a connection say about its queue.
  * `Linked.detachFirst`, `Linked.appendUnsent`, `Linked.removeAllUnsentValues`, `Linked.removeObservation`: each
    operation on a queue keeps it.
-/
import Mathlib.Data.List.Nodup
import Anjay.Commons.Time
import Anjay.Dm.Path
import Anjay.Lib.SortedList
import Anjay.Lib.Totals

namespace Anjay.Observe

open Lib

variable {β : Type}

/-! ## 1. Values and observations -/

/-- `anjay_connection_type_t`, of a connection that exists. -/
inductive ConnectionType
  | primary
  deriving DecidableEq, Repr

/-- `anjay_connection_ref_t`, by the SSID of its server. -/
structure ConnectionRef where
  ssid : Id
  connType : ConnectionType
  deriving DecidableEq, Repr

/-- `connection_ref_cmp`; there is one type of connection. -/
def connectionRefCmp (left right : ConnectionRef) : Int := (left.ssid.val : Int) - right.ssid.val

/-- What the observe module keeps of `anjay_msg_details_t`. -/
structure MsgDetails where
  msgCode : UInt8
  format : UInt16
  deriving DecidableEq, Repr

/-- `_anjay_observe_is_error_details`: the class of the code is at least 4. -/
def MsgDetails.isError (details : MsgDetails) : Bool := decide (4 ≤ details.msgCode.toNat / 32)

/-- `avs_coap_notify_reliability_hint_t`. -/
inductive ReliabilityHint
  | preferConfirmable
  | preferNonConfirmable
  deriving DecidableEq, Repr

/-- `anjay_observation_value_t` at the address `addr`; `ref` is the address of the observation, `β` the type of the
    batches. -/
structure Value (β : Type) where
  addr : Nat
  ref : Nat
  details : MsgDetails
  reliabilityHint : ReliabilityHint
  timestamp : Duration
  values : List β

/-- `is_error_value`. -/
def Value.isError (v : Value β) : Bool := v.details.isError

/-- `avs_coap_token_t`. -/
abbrev Token := List UInt8

/-- `_anjay_observe_token_cmp`. -/
def tokenCmp (left right : Token) : Int :=
  if left.length ≠ right.length then (left.length : Int) - right.length
  else if left < right then -1 else if right < left then 1 else 0

/-- `anjay_observation_t` at the address `addr`; its `action` is always ANJAY_ACTION_READ. `notifyTask` is the time
    of the job, if there is one. -/
structure Observation (β : Type) where
  addr : Nat
  token : Token
  paths : List UriPath
  notifyTask : Option Duration
  lastConfirmable : Duration
  lastSent : List (Value β)
  lastUnsent : Option Nat

/-- `_anjay_observation_cmp`. -/
def observationCmp (left right : Observation β) : Int := tokenCmp left.token right.token

/-- A notification exchange under way: the value for which `flush_next_unsent` started it, those of which its payload
    writer has produced chunks, and whether the payload writer failed. -/
structure Exchange where
  startedFor : Nat
  chunks : List Nat
  failed : Bool
  deriving DecidableEq, Repr

/-- `anjay_observe_connection_entry_t`: `observations` in the order of the tree, `flushTask` whether the job is
    scheduled, `notifyExchange` the exchange of `notify_exchange_id`, if that is valid. `recorded` keeps a record of the
    exchanges reported as delivered, with the values that were taken for sent then. -/
structure ConnectionEntry (β : Type) where
  connRef : ConnectionRef
  observations : List (Observation β)
  flushTask : Bool
  notifyExchange : Option Exchange
  unsent : List (Value β)
  unsentLast : Option Nat
  recorded : List (Option Exchange × Value β)

/-- `notify_queue_limit_mode_t`. -/
inductive NotifyQueueLimitMode
  | unlimited
  | dropOldest
  deriving DecidableEq, Repr

/-- `anjay_observe_state_t`; `next` is the address that the next allocation returns. -/
structure State (β : Type) where
  connectionEntries : List (ConnectionEntry β)
  confirmableNotifications : Bool
  notifyQueueLimitMode : NotifyQueueLimitMode
  notifyQueueLimit : Nat
  next : Nat

/-- `_anjay_observe_init`. -/
def observeInit (confirmableNotifications : Bool) (storedNotificationLimit : Nat) : State β where
  connectionEntries := []
  confirmableNotifications := confirmableNotifications
  notifyQueueLimitMode := if storedNotificationLimit = 0 then .unlimited else .dropOldest
  notifyQueueLimit := storedNotificationLimit
  next := 0

/-! ## 2. The queue of a connection -/

/-- The address of the last of some values. -/
def lastAddr (vs : List (Value β)) : Option Nat := vs.getLast?.map Value.addr

/-- The values that refer to the observation at `ptr`. -/
def refersTo (ptr : Nat) (vs : List (Value β)) : List (Value β) := vs.filter fun v => v.ref == ptr

namespace ConnectionEntry

/-- A write through a pointer to an observation. -/
def updateObservation (ptr : Nat) (f : Observation β → Observation β) (c : ConnectionEntry β) : ConnectionEntry β :=
  { c with observations := updateAt Observation.addr ptr f c.observations }

/-- What `detach_first_unsent_value` does to the observation. -/
def forgetUnsent (value : Nat) (o : Observation β) : Observation β :=
  if o.lastUnsent = some value then { o with lastUnsent := none } else o

/-- `detach_first_unsent_value`, where the queue is `value :: rest`. -/
def detachFirst (value : Value β) (rest : List (Value β)) (c : ConnectionEntry β) : ConnectionEntry β :=
  { c.updateObservation value.ref (forgetUnsent value.addr) with
    unsent := rest
    unsentLast := if c.unsentLast = some value.addr then none else c.unsentLast }

/-- `detach_first_unsent_value`, and what it returns. -/
def detachFirstUnsentValue (c : ConnectionEntry β) : Option (Value β × ConnectionEntry β) :=
  match c.unsent with
  | [] => none
  | value :: rest => some (value, c.detachFirst value rest)

/-- The end of `insert_new_value`: AVS_LIST_APPEND through `unsent_last`. -/
def appendUnsent (value : Value β) (c : ConnectionEntry β) : ConnectionEntry β :=
  { c.updateObservation value.ref fun o => { o with lastUnsent := some value.addr } with
    unsent := if c.unsentLast.isSome || c.unsent.isEmpty then c.unsent ++ [value] else c.unsent
    unsentLast := some value.addr }

/-- The loop of `remove_all_unsent_values`, over the values still in the queue. -/
def removeLoop : List (Value β) → ConnectionEntry β → ConnectionEntry β
  | [], c => c
  | value :: rest, c => if value.isError then c else removeLoop rest (c.detachFirst value rest)

/-- `remove_all_unsent_values`. -/
def removeAllUnsentValues (c : ConnectionEntry β) : ConnectionEntry β := removeLoop c.unsent c

/-- `clear_observation`, without what is about to be deleted of the observation itself. -/
def clearObservation (o : Observation β) (c : ConnectionEntry β) : ConnectionEntry β :=
  if o.lastUnsent.isSome then
    { c with
      unsent := c.unsent.filter fun v => !(v.ref == o.addr)
      unsentLast := lastAddr (c.unsent.filter fun v => !(v.ref == o.addr)) }
  else c

/-- `detach_observation`. -/
def detachObservation (o : Observation β) (c : ConnectionEntry β) : ConnectionEntry β :=
  { c with observations := c.observations.filter fun o' => !(o'.addr == o.addr) }

/-- AVS_RBTREE_FIND of a token. -/
def findObservation (token : Token) (c : ConnectionEntry β) : Option (Observation β) :=
  c.observations.find? fun o => tokenCmp o.token token == 0

/-- `newest_value`, as a pointer: the value that is found through it. -/
def newestValue (o : Observation β) (c : ConnectionEntry β) : Option (Value β) :=
  match o.lastUnsent with
  | some ptr => c.unsent.find? fun v => v.addr == ptr
  | none => o.lastSent.head?

end ConnectionEntry

/-! ## 3. The pointers and the queue -/

@[simp] theorem lastAddr_nil : lastAddr ([] : List (Value β)) = none := rfl

@[simp] theorem lastAddr_append (vs : List (Value β)) (v : Value β) : lastAddr (vs ++ [v]) = some v.addr := by
  simp [lastAddr]

theorem lastAddr_cons (v : Value β) (vs : List (Value β)) :
    lastAddr (v :: vs) = some ((lastAddr vs).getD v.addr) := by
  unfold lastAddr
  rw [List.getLast?_cons]
  cases vs.getLast? <;> rfl

theorem lastAddr_eq_none {vs : List (Value β)} : lastAddr vs = none ↔ vs = [] := by
  cases vs with
  | nil => simp
  | cons v vs => simp [lastAddr_cons]

theorem lastAddr_mem {vs : List (Value β)} {a : Nat} (h : lastAddr vs = some a) : a ∈ vs.map Value.addr := by
  unfold lastAddr at h
  obtain ⟨v, hv, rfl⟩ := Option.map_eq_some_iff.mp h
  exact List.mem_map_of_mem (List.mem_of_getLast? hv)

/-- A pointer to the last value, after the first one was detached and the pointer cleared if it was that one. -/
theorem lastAddr_tail {v : Value β} {vs : List (Value β)} (h : v.addr ∉ vs.map Value.addr) :
    (if lastAddr (v :: vs) = some v.addr then none else lastAddr (v :: vs)) = lastAddr vs := by
  rw [lastAddr_cons]
  cases hlast : lastAddr vs with
  | none => simp
  | some a =>
      have hne : a ≠ v.addr := fun heq => h (heq ▸ lastAddr_mem hlast)
      simp [hne]

theorem refersTo_cons (ptr : Nat) (v : Value β) (vs : List (Value β)) :
    refersTo ptr (v :: vs) = if v.ref = ptr then v :: refersTo ptr vs else refersTo ptr vs := by
  by_cases h : v.ref = ptr <;> simp [refersTo, h]

theorem refersTo_append (ptr : Nat) (vs : List (Value β)) (v : Value β) :
    refersTo ptr (vs ++ [v]) = refersTo ptr vs ++ if v.ref = ptr then [v] else [] := by
  by_cases h : v.ref = ptr <;> simp [refersTo, h]

theorem refersTo_subset {ptr : Nat} {vs : List (Value β)} {a : Nat} (h : a ∈ (refersTo ptr vs).map Value.addr) :
    a ∈ vs.map Value.addr :=
  List.map_subset _ (List.filter_subset_self _) h

namespace ConnectionEntry

/-- `unsent_last` is the last value of the queue, every value refers to an observation of the connection, and
    `last_unsent` of an observation is the last value that refers to it. -/
structure Linked (c : ConnectionEntry β) : Prop where
  unsentLast : c.unsentLast = lastAddr c.unsent
  refs : ∀ v ∈ c.unsent, v.ref ∈ c.observations.map Observation.addr
  lastUnsent : ∀ o ∈ c.observations, o.lastUnsent = lastAddr (refersTo o.addr c.unsent)
  observations : (c.observations.map Observation.addr).Nodup
  values : (c.unsent.map Value.addr).Nodup

/-- Every observation has exactly one `last_sent` value. -/
def AllSent (c : ConnectionEntry β) : Prop := ∀ o ∈ c.observations, ∃ v, o.lastSent = [v]

section Update

variable {ptr : Nat} {f : Observation β → Observation β} {c : ConnectionEntry β}

theorem mem_updateObservation {o : Observation β} :
    o ∈ (c.updateObservation ptr f).observations ↔
      ∃ o' ∈ c.observations, (if o'.addr = ptr then f o' else o') = o := mem_updateAt

theorem updateObservation_addrs (hf : ∀ o, (f o).addr = o.addr) :
    (c.updateObservation ptr f).observations.map Observation.addr = c.observations.map Observation.addr := by
  show (c.observations.map fun o => if o.addr = ptr then f o else o).map Observation.addr = _
  rw [List.map_map]
  refine List.map_congr_left fun o _ => ?_
  show (if o.addr = ptr then f o else o).addr = o.addr
  split
  · exact hf o
  · rfl

/-- An update of other fields than `last_unsent`. -/
theorem Linked.updateObservation (h : c.Linked) (hf : ∀ o, (f o).addr = o.addr ∧ (f o).lastUnsent = o.lastUnsent) :
    (c.updateObservation ptr f).Linked := by
  have haddrs : (c.updateObservation ptr f).observations.map Observation.addr = c.observations.map Observation.addr :=
    updateObservation_addrs fun o => (hf o).1
  refine ⟨h.unsentLast, fun v hv => ?_, fun o ho => ?_, ?_, h.values⟩
  · rw [haddrs]
    exact h.refs v hv
  · obtain ⟨o', ho', rfl⟩ := mem_updateObservation.mp ho
    split
    · rw [(hf o').2, (hf o').1]
      exact h.lastUnsent o' ho'
    · exact h.lastUnsent o' ho'
  · rw [haddrs]
    exact h.observations

theorem AllSent.updateObservation (h : c.AllSent) (hf : ∀ o ∈ c.observations, ∃ v, (f o).lastSent = [v]) :
    (c.updateObservation ptr f).AllSent := by
  intro o ho
  obtain ⟨o', ho', rfl⟩ := mem_updateObservation.mp ho
  split
  · exact hf o' ho'
  · exact h o' ho'

end Update

/-! ## 4. The operations on a queue -/

@[simp] theorem forgetUnsent_addr (value : Nat) (o : Observation β) : (forgetUnsent value o).addr = o.addr := by
  unfold forgetUnsent; split <;> rfl

@[simp] theorem forgetUnsent_lastSent (value : Nat) (o : Observation β) :
    (forgetUnsent value o).lastSent = o.lastSent := by
  unfold forgetUnsent; split <;> rfl

theorem forgetUnsent_lastUnsent (value : Nat) (o : Observation β) :
    (forgetUnsent value o).lastUnsent = if o.lastUnsent = some value then none else o.lastUnsent := by
  unfold forgetUnsent; split <;> rfl

variable {c : ConnectionEntry β} {value : Value β} {rest : List (Value β)}

/-- **Detaching the head keeps the pointers right.** -/
theorem Linked.detachFirst (h : c.Linked) (hc : c.unsent = value :: rest) : (c.detachFirst value rest).Linked := by
  have hvalues := h.values
  rw [hc, List.map_cons, List.nodup_cons] at hvalues
  have haddrs : (c.detachFirst value rest).observations.map Observation.addr = c.observations.map Observation.addr :=
    updateObservation_addrs fun o => forgetUnsent_addr value.addr o
  refine ⟨?_, fun v hv => ?_, fun o ho => ?_, ?_, hvalues.2⟩
  · show (if c.unsentLast = some value.addr then none else c.unsentLast) = lastAddr rest
    rw [h.unsentLast, hc]
    exact lastAddr_tail hvalues.1
  · rw [haddrs]
    exact h.refs v (hc ▸ List.mem_cons_of_mem _ hv)
  · obtain ⟨o', ho', rfl⟩ := mem_updateObservation.mp ho
    have hlast := h.lastUnsent o' ho'
    rw [hc, refersTo_cons] at hlast
    show _ = lastAddr (refersTo _ rest)
    by_cases hptr : o'.addr = value.ref
    · rw [if_pos hptr.symm] at hlast
      rw [if_pos hptr, forgetUnsent_lastUnsent, forgetUnsent_addr, hlast]
      exact lastAddr_tail fun hmem => hvalues.1 (refersTo_subset hmem)
    · rw [if_neg (Ne.symm hptr)] at hlast
      rw [if_neg hptr, hlast]
  · rw [haddrs]
    exact h.observations

theorem AllSent.detachFirst (h : c.AllSent) : (c.detachFirst value rest).AllSent := by
  refine h.updateObservation (c := c) fun o ho => ?_
  rw [forgetUnsent_lastSent]
  exact h o ho

/-- **Appending a value of an observation of the connection keeps the pointers right.** -/
theorem Linked.appendUnsent (h : c.Linked) (href : value.ref ∈ c.observations.map Observation.addr)
    (hfresh : value.addr ∉ c.unsent.map Value.addr) :
    (c.appendUnsent value).Linked ∧ (c.appendUnsent value).unsent = c.unsent ++ [value] := by
  have hunsent : (c.appendUnsent value).unsent = c.unsent ++ [value] := by
    show (if c.unsentLast.isSome || c.unsent.isEmpty then c.unsent ++ [value] else c.unsent) = _
    refine if_pos ?_
    rw [h.unsentLast]
    cases hc : c.unsent with
    | nil => rfl
    | cons v vs => rw [lastAddr_cons]; rfl
  have haddrs : (c.appendUnsent value).observations.map Observation.addr = c.observations.map Observation.addr :=
    updateObservation_addrs fun _ => rfl
  refine ⟨⟨?_, fun v hv => ?_, fun o ho => ?_, ?_, ?_⟩, hunsent⟩
  · rw [hunsent, lastAddr_append]
    rfl
  · rw [haddrs]
    rw [hunsent] at hv
    rcases List.mem_append.mp hv with hv | hv
    · exact h.refs v hv
    · rw [List.mem_singleton.mp hv]
      exact href
  · obtain ⟨o', ho', rfl⟩ := mem_updateObservation.mp ho
    rw [hunsent, refersTo_append]
    by_cases hptr : o'.addr = value.ref
    · rw [if_pos hptr]
      show some value.addr = lastAddr (refersTo o'.addr c.unsent ++ if value.ref = o'.addr then [value] else [])
      rw [if_pos hptr.symm, lastAddr_append]
    · rw [if_neg hptr, if_neg (Ne.symm hptr), List.append_nil]
      exact h.lastUnsent o' ho'
  · rw [haddrs]
    exact h.observations
  · rw [hunsent, List.map_append, List.nodup_append]
    refine ⟨h.values, by simp, fun a ha b hb hab => ?_⟩
    rw [List.map_singleton, List.mem_singleton] at hb
    exact hfresh (hb ▸ hab ▸ ha)

theorem AllSent.appendUnsent (h : c.AllSent) : (c.appendUnsent value).AllSent :=
  h.updateObservation (c := c) fun o ho => h o ho

theorem removeLoop_linked : ∀ (vs : List (Value β)) {c : ConnectionEntry β}, c.unsent = vs → c.Linked →
    (removeLoop vs c).Linked
  | [], _, _, h => h
  | value :: rest, c, hc, h => by
      unfold removeLoop
      split
      · exact h
      · exact removeLoop_linked rest rfl (h.detachFirst hc)

theorem Linked.removeAllUnsentValues (h : c.Linked) : c.removeAllUnsentValues.Linked :=
  removeLoop_linked c.unsent rfl h

theorem removeLoop_allSent : ∀ (vs : List (Value β)) {c : ConnectionEntry β}, c.AllSent → (removeLoop vs c).AllSent
  | [], _, h => h
  | value :: rest, c, h => by
      unfold removeLoop
      split
      · exact h
      · exact removeLoop_allSent rest h.detachFirst

theorem removeLoop_suffix : ∀ (vs : List (Value β)) {c : ConnectionEntry β}, c.unsent = vs →
    ∃ front, vs = front ++ (removeLoop vs c).unsent
  | [], c, hc => ⟨[], hc.symm⟩
  | value :: rest, c, hc => by
      unfold removeLoop
      split
      · exact ⟨[], hc.symm⟩
      · obtain ⟨front, hfront⟩ := removeLoop_suffix rest (c := c.detachFirst value rest) rfl
        exact ⟨value :: front, congrArg (value :: ·) hfront⟩

/-- What `clear_observation` leaves of the queue: the values of the other observations. -/
theorem Linked.clearObservation_unsent (h : c.Linked) {o : Observation β} (ho : o ∈ c.observations) :
    (c.clearObservation o).unsent = c.unsent.filter fun v => !(v.ref == o.addr) := by
  unfold clearObservation
  split
  · rfl
  · rename_i hnone
    have hnil : refersTo o.addr c.unsent = [] := by
      rw [← lastAddr_eq_none, ← h.lastUnsent o ho]
      exact Option.not_isSome_iff_eq_none.mp hnone
    refine (List.filter_eq_self.mpr fun v hv => ?_).symm
    have := List.filter_eq_nil_iff.mp hnil v hv
    simpa using this

/-- **Removing an observation with its values keeps the pointers right.** -/
theorem Linked.removeObservation (h : c.Linked) {o : Observation β} (ho : o ∈ c.observations) :
    ((c.clearObservation o).detachObservation o).Linked := by
  have hunsent := h.clearObservation_unsent ho
  have hobs : ((c.clearObservation o).detachObservation o).observations =
      c.observations.filter fun o' => !(o'.addr == o.addr) := by
    unfold clearObservation; split <;> rfl
  have hlast : (c.clearObservation o).unsentLast = lastAddr (c.clearObservation o).unsent := by
    rw [hunsent]
    unfold clearObservation at hunsent ⊢
    split
    · rfl
    · rename_i hnone
      rw [if_neg hnone] at hunsent
      exact h.unsentLast.trans (congrArg lastAddr hunsent)
  refine ⟨hlast, fun v hv => ?_, fun o' ho' => ?_, ?_, ?_⟩
  · rw [hobs]
    change v ∈ (c.clearObservation o).unsent at hv
    rw [hunsent] at hv
    obtain ⟨hv, hne⟩ := List.mem_filter.mp hv
    obtain ⟨o', ho', heq⟩ := List.mem_map.mp (h.refs v hv)
    refine List.mem_map.mpr ⟨o', List.mem_filter.mpr ⟨ho', ?_⟩, heq⟩
    simpa [heq] using hne
  · rw [hobs] at ho'
    obtain ⟨ho', hne⟩ := List.mem_filter.mp ho'
    rw [h.lastUnsent o' ho']
    show _ = lastAddr (refersTo o'.addr (c.clearObservation o).unsent)
    rw [hunsent]
    unfold refersTo
    rw [List.filter_filter]
    refine congrArg lastAddr (List.filter_congr fun v _ => ?_)
    by_cases hv : v.ref = o'.addr
    · have hne' : o'.addr ≠ o.addr := by simpa using hne
      simp [hv, hne']
    · simp [hv]
  · rw [hobs]
    exact h.observations.sublist (List.Sublist.map _ List.filter_sublist)
  · show ((c.clearObservation o).unsent.map Value.addr).Nodup
    rw [hunsent]
    exact h.values.sublist (List.Sublist.map _ List.filter_sublist)

theorem AllSent.detachObservation (h : c.AllSent) (o : Observation β) :
    ((c.clearObservation o).detachObservation o).AllSent := by
  intro o' ho'
  have hobs : ((c.clearObservation o).detachObservation o).observations =
      c.observations.filter fun o' => !(o'.addr == o.addr) := by
    unfold clearObservation; split <;> rfl
  rw [hobs] at ho'
  exact h o' (List.mem_filter.mp ho').1

end ConnectionEntry

end Anjay.Observe
