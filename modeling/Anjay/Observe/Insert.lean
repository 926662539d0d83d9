/-
  File:      Anjay/Observe/Insert.lean
  Subject:   Inserting a value into the queue of a connection, where all queues share one limit
             (`insert_new_value` and what it calls).

  * `State.load`: what is found through a pointer to a value; nothing, once the value was deleted.
  * `Inv`: the queues and their pointers are right, no two values share an address, and the limit is kept.
  * `Inv.insertNewValue`: an insertion keeps it.
  * `insertNewValue_details`: the record that is copied is the one pointed to, unless making room deletes its value.
-/
import Anjay.Observe.Queue

namespace Anjay.Observe

open Lib

variable {β : Type}

/-! ## 1. Entries and values of the state -/

/-- What a connection entry owns: the queue, and the `last_sent` values of its observations. -/
def ConnectionEntry.held (c : ConnectionEntry β) : List (Value β) :=
  c.unsent ++ c.observations.flatMap Observation.lastSent

/-- The queue without its head, which is deleted; an empty one stays. -/
def ConnectionEntry.dropFirst (c : ConnectionEntry β) : ConnectionEntry β :=
  match c.detachFirstUnsentValue with
  | some (_, c') => c'
  | none => c

namespace State

/-- The entry of a connection. -/
def entry (ref : ConnectionRef) (s : State β) : Option (ConnectionEntry β) :=
  s.connectionEntries.find? fun c => c.connRef == ref

/-- A change of the entry of a connection. -/
def modify (ref : ConnectionRef) (f : ConnectionEntry β → ConnectionEntry β) (s : State β) : State β :=
  { s with connectionEntries := updateAt ConnectionEntry.connRef ref f s.connectionEntries }

/-- All values that exist. -/
def held (s : State β) : List (Value β) := s.connectionEntries.flatMap ConnectionEntry.held

/-- What is found through a pointer to a value. -/
def load (ptr : Nat) (s : State β) : Option (Value β) := s.held.find? fun v => v.addr == ptr

/-- `count_queued_notifications`. -/
def countQueuedNotifications (s : State β) : Nat := total (fun c => c.unsent.length) s.connectionEntries

/-- `is_observe_queue_full`. -/
def isObserveQueueFull (s : State β) : Bool :=
  match s.notifyQueueLimitMode with
  | .unlimited => false
  | .dropOldest => decide (s.notifyQueueLimit ≤ s.countQueuedNotifications)

/-- Whether the head of one queue is older than the head of another. -/
def headBefore (c oldest : ConnectionEntry β) : Bool :=
  match c.unsent, oldest.unsent with
  | value :: _, old :: _ => value.timestamp.less old.timestamp
  | _, _ => false

/-- The loop of `find_oldest_queued_notification`. -/
def findOldest : Option (ConnectionEntry β) → List (ConnectionEntry β) → Option (ConnectionEntry β)
  | oldest, [] => oldest
  | oldest, c :: cs =>
      if c.unsent.isEmpty then findOldest oldest cs
      else
        match oldest with
        | none => findOldest (some c) cs
        | some o => findOldest (some (if headBefore c o then c else o)) cs

/-- `find_oldest_queued_notification`. -/
def findOldestQueuedNotification (s : State β) : Option (ConnectionEntry β) := findOldest none s.connectionEntries

/-- `drop_oldest_queued_notification`; it is not called when nothing is queued. -/
def dropOldestQueuedNotification (s : State β) : State β :=
  match s.findOldestQueuedNotification with
  | some oldest => s.modify oldest.connRef ConnectionEntry.dropFirst
  | none => s

/-- The first part of `insert_new_value`. -/
def makeRoom (s : State β) : State β := if s.isObserveQueueFull then s.dropOldestQueuedNotification else s

end State

/-! ## 2. Inserting a value -/

/-- A pointer to `anjay_msg_details_t`: to a variable of the caller, or into the value at an address. -/
inductive DetailsPtr
  | ofLocal (details : MsgDetails)
  | ofValue (ptr : Nat)

/-- What the environment decides about an insertion: whether there is memory, the time, and what the memory of a
    deleted value reads as. -/
structure InsertEnv where
  allocated : Bool
  now : Duration
  junk : MsgDetails

/-- `*details`. -/
def State.loadDetails (junk : MsgDetails) (s : State β) : DetailsPtr → MsgDetails
  | .ofLocal details => details
  | .ofValue ptr => ((s.load ptr).map Value.details).getD junk

/-- `create_observation_value`, with the memory there is. -/
def createObservationValue (env : InsertEnv) (details : DetailsPtr) (hint : ReliabilityHint) (observation : Nat)
    (values : List β) (s : State β) : Value β where
  addr := s.next
  ref := observation
  details := s.loadDetails env.junk details
  reliabilityHint := hint
  timestamp := env.now
  values := if (s.loadDetails env.junk details).isError then [] else values

/-- A new value goes to the end of the queue. -/
def State.append (ref : ConnectionRef) (value : Value β) (s : State β) : State β :=
  { s.modify ref (ConnectionEntry.appendUnsent value) with next := s.next + 1 }

/-- `insert_new_value`. -/
def insertNewValue (env : InsertEnv) (ref : ConnectionRef) (observation : Nat) (hint : ReliabilityHint)
    (details : DetailsPtr) (values : List β) (s : State β) : Int × State β :=
  if env.allocated then
    (0, s.makeRoom.append ref (createObservationValue env details hint observation values s.makeRoom))
  else (-1, s.makeRoom)

def outctxerrFormatMismatch : Int := -3296
def outctxerrMethodNotImplemented : Int := -3297

/-- The class of a CoAP code. -/
def codeClass (code : UInt8) : Nat := code.toNat / 32

/-- `_anjay_make_error_response_code`. -/
def makeErrorResponseCode (handlerResult : Int) : UInt8 :=
  let handlerCode := UInt8.ofNat ((-handlerResult) % 256).toNat
  if codeClass handlerCode = 4 ∨ codeClass handlerCode = 5 then handlerCode
  else if handlerResult = outctxerrFormatMismatch ∨ handlerResult = outctxerrMethodNotImplemented then 0x86
  else 0xA0

/-- AVS_COAP_FORMAT_NONE. -/
def formatNone : UInt16 := 0xFFFF

/-- `insert_error`. -/
def insertError (env : InsertEnv) (ref : ConnectionRef) (observation : Nat) (outerResult : Int) (s : State β) :
    Int × State β :=
  insertNewValue env ref observation .preferConfirmable
    (.ofLocal ⟨makeErrorResponseCode outerResult, formatNone⟩) []
    (s.modify ref (ConnectionEntry.updateObservation observation fun o => { o with notifyTask := none }))

/-! ## 3. The invariant -/

/-- How often an address is that of a value which the entry owns. -/
def ConnectionEntry.holds (a : Nat) (c : ConnectionEntry β) : Nat := (c.held.map Value.addr).count a

/-- Every address below `next` belongs to at most one value, and those from `next` on to none. -/
def State.Unique (s : State β) : Prop :=
  ∀ a, total (ConnectionEntry.holds a) s.connectionEntries ≤ if a < s.next then 1 else 0

/-- Entries in order, the pointers of each queue right, addresses handed out once, and the limit kept. -/
structure Sound (s : State β) : Prop where
  sorted : Sorted (fun c : ConnectionEntry β => c.connRef.ssid) s.connectionEntries
  linked : ∀ c ∈ s.connectionEntries, c.Linked
  observations : ∀ c ∈ s.connectionEntries, ∀ o ∈ c.observations, o.addr < s.next
  unique : s.Unique
  positive : s.notifyQueueLimitMode = .dropOldest → 0 < s.notifyQueueLimit
  limit : s.notifyQueueLimitMode = .dropOldest → s.countQueuedNotifications ≤ s.notifyQueueLimit

/-- **The invariant of the observe module**: moreover every entry has an observation, and every observation exactly one
    `last_sent` value. -/
structure Inv (s : State β) : Prop extends Sound s where
  allSent : ∀ c ∈ s.connectionEntries, c.AllSent
  occupied : ∀ c ∈ s.connectionEntries, c.observations ≠ []

/-- What an operation that adds nothing does to an entry. -/
structure ConnectionEntry.Keeps (c c' : ConnectionEntry β) : Prop where
  connRef : c'.connRef = c.connRef
  linked : c'.Linked
  observations : c'.observations.map Observation.addr ⊆ c.observations.map Observation.addr
  holds : ∀ a, c'.holds a ≤ c.holds a
  unsent : c'.unsent.length ≤ c.unsent.length

theorem ConnectionEntry.Keeps.trans {c c' c'' : ConnectionEntry β} (h : c.Keeps c') (h' : c'.Keeps c'') :
    c.Keeps c'' where
  connRef := h'.connRef.trans h.connRef
  linked := h'.linked
  observations := List.Subset.trans h'.observations h.observations
  holds a := Nat.le_trans (h'.holds a) (h.holds a)
  unsent := Nat.le_trans h'.unsent h.unsent

theorem ConnectionRef.ext_ssid {a b : ConnectionRef} (h : a.ssid = b.ssid) : a = b := by
  obtain ⟨ssid, ⟨⟩⟩ := a
  obtain ⟨ssid', ⟨⟩⟩ := b
  cases h
  rfl

section Entries

variable {s : State β} {ref : ConnectionRef} {c : ConnectionEntry β} {f : ConnectionEntry β → ConnectionEntry β}

theorem State.mem_modify {c' : ConnectionEntry β} :
    c' ∈ (s.modify ref f).connectionEntries ↔
      ∃ c ∈ s.connectionEntries, (if c.connRef = ref then f c else c) = c' := mem_updateAt

theorem State.entry_some (h : s.entry ref = some c) : c ∈ s.connectionEntries ∧ c.connRef = ref :=
  ⟨List.mem_of_find?_eq_some h, by simpa using List.find?_some h⟩

namespace Sound

theorem eq_of_mem (h : Sound s) {d : ConnectionEntry β} (hc : c ∈ s.connectionEntries) (hd : d ∈ s.connectionEntries)
    (heq : c.connRef = d.connRef) : c = d :=
  sorted_eq h.sorted hc hd (congrArg ConnectionRef.ssid heq)

theorem nodup (h : Sound s) : (s.connectionEntries.map ConnectionEntry.connRef).Nodup :=
  List.pairwise_map.mpr (h.sorted.imp fun hlt heq => hlt.ne (congrArg ConnectionRef.ssid heq))

theorem entry_eq (h : Sound s) (hc : c ∈ s.connectionEntries) : s.entry c.connRef = some c := by
  unfold State.entry
  cases hfind : s.connectionEntries.find? fun d => d.connRef == c.connRef with
  | none => exact absurd (List.find?_eq_none.mp hfind c hc) (by simp)
  | some d => exact congrArg some (h.eq_of_mem (State.entry_some hfind).1 hc (State.entry_some hfind).2)

theorem entry_modify (h : Sound s) (hc : s.entry ref = some c) (hf : (f c).connRef = ref) :
    (s.modify ref f).entry ref = some (f c) := by
  obtain ⟨hmem, rfl⟩ := State.entry_some hc
  unfold State.entry
  cases hfind : (s.modify c.connRef f).connectionEntries.find? fun d => d.connRef == c.connRef with
  | none =>
      refine absurd (List.find?_eq_none.mp hfind (f c) (State.mem_modify.mpr ⟨c, hmem, if_pos rfl⟩)) ?_
      rw [hf]
      simp
  | some d =>
      obtain ⟨d', hd', heq⟩ := State.mem_modify.mp (List.mem_of_find?_eq_some hfind)
      have hkey : d.connRef = c.connRef := by simpa using List.find?_some hfind
      by_cases hd : d'.connRef = c.connRef
      · rw [if_pos hd] at heq
        rw [← heq, h.eq_of_mem hd' hmem hd]
      · rw [if_neg hd] at heq
        exact absurd (heq ▸ hkey) hd

theorem sorted_modify (h : Sound s) (hf : ∀ c ∈ s.connectionEntries, c.connRef = ref → (f c).connRef = c.connRef) :
    Sorted (fun c : ConnectionEntry β => c.connRef.ssid) (s.modify ref f).connectionEntries := by
  refine List.pairwise_map.mpr (h.sorted.imp_of_mem fun {a b} ha hb hlt => ?_)
  have hkey : ∀ c ∈ s.connectionEntries, (if c.connRef = ref then f c else c).connRef = c.connRef := fun c hc => by
    split
    · exact hf c hc ‹_›
    · rfl
  show (if a.connRef = ref then f a else a).connRef.ssid < (if b.connRef = ref then f b else b).connRef.ssid
  rw [hkey a ha, hkey b hb]
  exact hlt

/-- **An operation that adds nothing keeps the state sound.** -/
theorem modify (h : Sound s) (hf : ∀ c ∈ s.connectionEntries, c.connRef = ref → c.Keeps (f c)) :
    Sound (s.modify ref f) where
  sorted := h.sorted_modify fun c hc href => (hf c hc href).connRef
  linked c' hc' := by
    obtain ⟨c, hc, rfl⟩ := State.mem_modify.mp hc'
    split
    · exact (hf c hc ‹_›).linked
    · exact h.linked c hc
  observations c' hc' o ho := by
    obtain ⟨c, hc, rfl⟩ := State.mem_modify.mp hc'
    by_cases href : c.connRef = ref
    · rw [if_pos href] at ho
      obtain ⟨o', ho', heq⟩ := List.mem_map.mp ((hf c hc href).observations (List.mem_map_of_mem ho))
      exact heq ▸ h.observations c hc o' ho'
    · rw [if_neg href] at ho
      exact h.observations c hc o ho
  unique a := Nat.le_trans (total_updateAt_mono fun c hc href => (hf c hc href).holds a) (h.unique a)
  positive := h.positive
  limit hmode := Nat.le_trans (total_updateAt_mono fun c hc href => (hf c hc href).unsent) (h.limit hmode)

end Sound

/-- **An operation that adds nothing keeps the invariant**, if the observations stay and keep what they have sent. -/
theorem Inv.modify (h : Inv s) (hf : ∀ c ∈ s.connectionEntries, c.connRef = ref → c.Keeps (f c))
    (hsent : ∀ c ∈ s.connectionEntries, c.connRef = ref → (f c).AllSent)
    (hobs : ∀ c ∈ s.connectionEntries, c.connRef = ref → (f c).observations ≠ []) : Inv (s.modify ref f) where
  toSound := h.toSound.modify hf
  allSent c' hc' := by
    obtain ⟨c, hc, rfl⟩ := State.mem_modify.mp hc'
    split
    · exact hsent c hc ‹_›
    · exact h.allSent c hc
  occupied c' hc' := by
    obtain ⟨c, hc, rfl⟩ := State.mem_modify.mp hc'
    split
    · exact hobs c hc ‹_›
    · exact h.occupied c hc

theorem Sound.sublist (h : Sound s) {cs : List (ConnectionEntry β)} (hsub : cs.Sublist s.connectionEntries) :
    Sound { s with connectionEntries := cs } where
  sorted := h.sorted.sublist hsub
  linked c hc := h.linked c (hsub.subset hc)
  observations c hc := h.observations c (hsub.subset hc)
  unique a := Nat.le_trans (total_sublist _ hsub) (h.unique a)
  positive := h.positive
  limit hmode := Nat.le_trans (total_sublist _ hsub) (h.limit hmode)

/-- Entries that go away take nothing with them that the others need. -/
theorem Inv.sublist (h : Inv s) {cs : List (ConnectionEntry β)} (hsub : cs.Sublist s.connectionEntries) :
    Inv { s with connectionEntries := cs } where
  toSound := h.toSound.sublist hsub
  allSent c hc := h.allSent c (hsub.subset hc)
  occupied c hc := h.occupied c (hsub.subset hc)

end Entries

/-! ## 4. What the operations on a queue keep -/

/-- How often an address is that of a `last_sent` value of the observation. -/
def Observation.holds (a : Nat) (o : Observation β) : Nat := (o.lastSent.map Value.addr).count a

namespace ConnectionEntry

theorem holds_eq (a : Nat) (c : ConnectionEntry β) :
    c.holds a = (c.unsent.map Value.addr).count a + total (Observation.holds a) c.observations := by
  unfold holds held
  rw [List.map_append, List.count_append, List.map_flatMap, count_flatMap]
  rfl

variable {c : ConnectionEntry β} {value : Value β} {rest : List (Value β)} {ptr : Nat}
  {f : Observation β → Observation β}

theorem Keeps.refl (h : c.Linked) : c.Keeps c :=
  ⟨rfl, h, List.Subset.refl _, fun _ => Nat.le_refl _, Nat.le_refl _⟩

theorem Linked.keeps_updateObservation (h : c.Linked)
    (hf : ∀ o, (f o).addr = o.addr ∧ (f o).lastUnsent = o.lastUnsent ∧ (f o).lastSent = o.lastSent) :
    c.Keeps (c.updateObservation ptr f) where
  connRef := rfl
  linked := h.updateObservation fun o => ⟨(hf o).1, (hf o).2.1⟩
  observations := by
    rw [updateObservation_addrs fun o => (hf o).1]
    exact List.Subset.refl _
  holds a := by
    rw [holds_eq, holds_eq]
    refine Nat.add_le_add_left (total_updateAt_mono fun o _ _ => ?_) _
    unfold Observation.holds
    rw [(hf o).2.2]
  unsent := Nat.le_refl _

/-- A value at the head of the queue is counted once more than in what is left. -/
theorem holds_detachFirst (hc : c.unsent = value :: rest) (a : Nat) :
    (c.detachFirst value rest).holds a + (if value.addr = a then 1 else 0) = c.holds a := by
  have hsent : total (Observation.holds a) (c.detachFirst value rest).observations =
      total (Observation.holds a) c.observations := by
    show total (Observation.holds a) (updateAt Observation.addr value.ref (forgetUnsent value.addr) c.observations) = _
    unfold updateAt
    rw [total_map]
    refine congrArg (total · c.observations) (funext fun o => ?_)
    unfold Observation.holds
    split
    · rw [forgetUnsent_lastSent]
    · rfl
  rw [holds_eq, holds_eq, hsent, hc, List.map_cons, List.count_cons]
  show (rest.map Value.addr).count a + _ + _ = _
  by_cases heq : value.addr = a
  · simp [heq]
    omega
  · simp [heq]

theorem Linked.keeps_detachFirst (h : c.Linked) (hc : c.unsent = value :: rest) :
    c.Keeps (c.detachFirst value rest) where
  connRef := rfl
  linked := h.detachFirst hc
  observations := by
    show (c.updateObservation value.ref (forgetUnsent value.addr)).observations.map Observation.addr ⊆ _
    rw [updateObservation_addrs fun o => forgetUnsent_addr value.addr o]
    exact List.Subset.refl _
  holds a := by
    have := holds_detachFirst hc a
    omega
  unsent := by
    rw [hc]
    exact Nat.le_succ _

theorem dropFirst_nil (hc : c.unsent = []) : c.dropFirst = c := by
  unfold dropFirst detachFirstUnsentValue
  rw [hc]

theorem dropFirst_cons (hc : c.unsent = value :: rest) : c.dropFirst = c.detachFirst value rest := by
  unfold dropFirst detachFirstUnsentValue
  rw [hc]

theorem dropFirst_observations (c : ConnectionEntry β) :
    c.dropFirst.observations.map Observation.addr = c.observations.map Observation.addr := by
  cases hc : c.unsent with
  | nil => rw [dropFirst_nil hc]
  | cons value rest =>
      rw [dropFirst_cons hc]
      exact updateObservation_addrs fun o => forgetUnsent_addr value.addr o

theorem Linked.keeps_dropFirst (h : c.Linked) : c.Keeps c.dropFirst := by
  cases hc : c.unsent with
  | nil =>
      rw [dropFirst_nil hc]
      exact Keeps.refl h
  | cons value rest =>
      rw [dropFirst_cons hc]
      exact h.keeps_detachFirst hc

theorem AllSent.dropFirst (h : c.AllSent) : c.dropFirst.AllSent := by
  cases hc : c.unsent with
  | nil => rwa [dropFirst_nil hc]
  | cons value rest =>
      rw [dropFirst_cons hc]
      exact h.detachFirst

theorem dropFirst_length (hc : c.unsent ≠ []) : c.dropFirst.unsent.length < c.unsent.length := by
  cases hc' : c.unsent with
  | nil => exact absurd hc' hc
  | cons value rest =>
      rw [dropFirst_cons hc']
      exact Nat.lt_succ_self _

theorem removeLoop_keeps : ∀ (vs : List (Value β)) {c : ConnectionEntry β}, c.unsent = vs → c.Linked →
    c.Keeps (removeLoop vs c)
  | [], _, _, h => Keeps.refl h
  | value :: rest, c, hc, h => by
      unfold removeLoop
      split
      · exact Keeps.refl h
      · exact (h.keeps_detachFirst hc).trans (removeLoop_keeps rest rfl (h.detachFirst hc))

theorem removeLoop_observations : ∀ (vs : List (Value β)) (c : ConnectionEntry β),
    (removeLoop vs c).observations.map Observation.addr = c.observations.map Observation.addr
  | [], _ => rfl
  | value :: rest, c => by
      unfold removeLoop
      split
      · rfl
      · exact (removeLoop_observations rest _).trans
          (updateObservation_addrs fun o => forgetUnsent_addr value.addr o)

theorem observations_ne_nil {c' : ConnectionEntry β}
    (h : c'.observations.map Observation.addr = c.observations.map Observation.addr) (hne : c.observations ≠ []) :
    c'.observations ≠ [] := fun hnil => by
  rw [hnil] at h
  exact hne (List.map_eq_nil_iff.mp h.symm)

end ConnectionEntry

/-! ## 5. Making room -/

section Room

variable {s : State β}

theorem findOldest_some : ∀ {cs : List (ConnectionEntry β)} {oldest : Option (ConnectionEntry β)}
    {c : ConnectionEntry β}, State.findOldest oldest cs = some c →
    (∀ o, oldest = some o → o.unsent ≠ []) → (oldest = some c ∨ c ∈ cs) ∧ c.unsent ≠ []
  | [], oldest, c, h, hold => ⟨.inl h, hold c h⟩
  | d :: cs, oldest, c, h, hold => by
      unfold State.findOldest at h
      by_cases hd : d.unsent.isEmpty = true
      · rw [if_pos hd] at h
        obtain ⟨hmem, hne⟩ := findOldest_some h hold
        exact ⟨hmem.imp_right (List.mem_cons_of_mem d), hne⟩
      · have hd' : d.unsent ≠ [] := by simpa using hd
        rw [if_neg hd] at h
        cases oldest with
        | none =>
            obtain ⟨hmem, hne⟩ := findOldest_some h fun o ho => Option.some.inj ho ▸ hd'
            refine ⟨.inr ?_, hne⟩
            rcases hmem with hmem | hmem
            · exact Option.some.inj hmem ▸ List.mem_cons_self
            · exact List.mem_cons_of_mem d hmem
        | some o =>
            have hnext : ∀ o', some (if State.headBefore d o then d else o) = some o' → o'.unsent ≠ [] :=
              fun o' ho' => by
                rw [← Option.some.inj ho']
                split
                · exact hd'
                · exact hold o rfl
            obtain ⟨hmem, hne⟩ := findOldest_some h hnext
            refine ⟨?_, hne⟩
            rcases hmem with hmem | hmem
            · rw [← Option.some.inj hmem]
              split
              · exact .inr List.mem_cons_self
              · exact .inl rfl
            · exact .inr (List.mem_cons_of_mem d hmem)

theorem findOldest_isSome : ∀ {cs : List (ConnectionEntry β)} {oldest : Option (ConnectionEntry β)},
    oldest.isSome = true ∨ 0 < total (fun c => c.unsent.length) cs → (State.findOldest oldest cs).isSome = true
  | [], oldest, h => h.resolve_right (Nat.lt_irrefl 0)
  | d :: cs, oldest, h => by
      unfold State.findOldest
      by_cases hd : d.unsent.isEmpty = true
      · rw [if_pos hd]
        refine findOldest_isSome (h.imp_right fun hlt => ?_)
        have hlt' : 0 < d.unsent.length + total (fun c => c.unsent.length) cs := hlt
        have hzero : d.unsent.length = 0 := by simpa using hd
        omega
      · rw [if_neg hd]
        cases oldest with
        | none => exact findOldest_isSome (.inl rfl)
        | some o => exact findOldest_isSome (.inl rfl)

theorem State.findOldestQueuedNotification_some {c : ConnectionEntry β} (h : s.findOldestQueuedNotification = some c) :
    c ∈ s.connectionEntries ∧ c.unsent ≠ [] := by
  obtain ⟨hmem, hne⟩ := findOldest_some h (fun o ho => nomatch ho)
  exact ⟨hmem.resolve_left (fun ho => nomatch ho), hne⟩

theorem Inv.dropOldest (h : Inv s) : Inv s.dropOldestQueuedNotification := by
  unfold State.dropOldestQueuedNotification
  split
  · exact h.modify (fun c hc _ => (h.linked c hc).keeps_dropFirst) (fun c hc _ => (h.allSent c hc).dropFirst)
      fun c hc _ => ConnectionEntry.observations_ne_nil c.dropFirst_observations (h.occupied c hc)
  · exact h

theorem Inv.makeRoom (h : Inv s) : Inv s.makeRoom := by
  unfold State.makeRoom
  split
  · exact h.dropOldest
  · exact h

/-- **After making room, another value fits.** -/
theorem Inv.makeRoom_fits (h : Inv s) (hmode : s.notifyQueueLimitMode = .dropOldest) :
    s.makeRoom.countQueuedNotifications < s.notifyQueueLimit := by
  have hlimit := h.limit hmode
  have hpos := h.positive hmode
  have hfull : s.isObserveQueueFull = decide (s.notifyQueueLimit ≤ s.countQueuedNotifications) := by
    unfold State.isObserveQueueFull
    rw [hmode]
  unfold State.makeRoom
  by_cases hle : s.notifyQueueLimit ≤ s.countQueuedNotifications
  · rw [hfull, if_pos (decide_eq_true hle)]
    unfold State.dropOldestQueuedNotification
    have hsome : s.findOldestQueuedNotification.isSome = true :=
      findOldest_isSome (.inr (Nat.lt_of_lt_of_le hpos hle))
    obtain ⟨oldest, hold⟩ := Option.isSome_iff_exists.mp hsome
    rw [hold]
    obtain ⟨hmem, hne⟩ := State.findOldestQueuedNotification_some hold
    have hlt : (s.modify oldest.connRef ConnectionEntry.dropFirst).countQueuedNotifications <
        s.countQueuedNotifications :=
      total_updateAt_lt (fun c hc _ => ((h.linked c hc).keeps_dropFirst).unsent)
        ⟨oldest, hmem, rfl, ConnectionEntry.dropFirst_length hne⟩
    exact Nat.lt_of_lt_of_le hlt hlimit
  · rw [hfull, if_neg (by simpa using hle)]
    omega

@[simp] theorem makeRoom_next (s : State β) : s.makeRoom.next = s.next := by
  unfold State.makeRoom State.dropOldestQueuedNotification
  split
  · split <;> rfl
  · rfl

@[simp] theorem makeRoom_mode (s : State β) : s.makeRoom.notifyQueueLimitMode = s.notifyQueueLimitMode := by
  unfold State.makeRoom State.dropOldestQueuedNotification
  split
  · split <;> rfl
  · rfl

@[simp] theorem makeRoom_limit (s : State β) : s.makeRoom.notifyQueueLimit = s.notifyQueueLimit := by
  unfold State.makeRoom State.dropOldestQueuedNotification
  split
  · split <;> rfl
  · rfl

/-- Making room leaves every entry where it is, with its observations. -/
theorem Inv.entry_makeRoom (h : Inv s) {ref : ConnectionRef} {c : ConnectionEntry β} (hc : s.entry ref = some c) :
    ∃ c', s.makeRoom.entry ref = some c' ∧
      c'.observations.map Observation.addr = c.observations.map Observation.addr ∧ (c' = c ∨ c' = c.dropFirst) := by
  unfold State.makeRoom State.dropOldestQueuedNotification
  split
  · split
    · rename_i oldest _
      obtain ⟨hmem, href⟩ := State.entry_some hc
      by_cases heq : oldest.connRef = ref
      · rw [heq]
        have hdrop : c.dropFirst.connRef = ref := ((h.linked c hmem).keeps_dropFirst).connRef.trans href
        exact ⟨c.dropFirst, h.toSound.entry_modify hc hdrop, c.dropFirst_observations, .inr rfl⟩
      · have hsound : Sound (s.modify oldest.connRef ConnectionEntry.dropFirst) :=
          h.toSound.modify fun c hc _ => (h.linked c hc).keeps_dropFirst
        have hother := hsound.entry_eq
          (State.mem_modify.mpr ⟨c, hmem, if_neg fun hr => heq (hr.symm.trans href)⟩)
        rw [href] at hother
        exact ⟨c, hother, rfl, .inl rfl⟩
    · exact ⟨c, hc, rfl, .inl rfl⟩
  · exact ⟨c, hc, rfl, .inl rfl⟩

end Room

/-! ## 6. Inserting keeps the invariant -/

section Append

variable {s : State β} {ref : ConnectionRef} {c : ConnectionEntry β} {value : Value β}

theorem ConnectionEntry.Linked.holds_appendUnsent (h : c.Linked)
    (href : value.ref ∈ c.observations.map Observation.addr) (hfresh : value.addr ∉ c.unsent.map Value.addr) (a : Nat) :
    (c.appendUnsent value).holds a = (if value.addr = a then 1 else 0) + c.holds a := by
  have hsent : total (Observation.holds a) (c.appendUnsent value).observations =
      total (Observation.holds a) c.observations := by
    show total (Observation.holds a) (updateAt _ _ _ c.observations) = _
    unfold updateAt
    rw [total_map]
    refine congrArg (total · c.observations) (funext fun o => ?_)
    split <;> rfl
  rw [ConnectionEntry.holds_eq, ConnectionEntry.holds_eq, hsent, (h.appendUnsent href hfresh).2, List.map_append,
    List.count_append]
  show _ + [value.addr].count a + _ = _
  rw [List.count_singleton]
  by_cases heq : value.addr = a
  · simp [heq]
    omega
  · simp [heq]

/-- A new address is not that of a value in a queue. -/
theorem Sound.fresh (h : Sound s) (hc : c ∈ s.connectionEntries) : s.next ∉ c.unsent.map Value.addr := by
  intro hmem
  have hzero := h.unique s.next
  rw [if_neg (Nat.lt_irrefl _)] at hzero
  have hle := le_total (ConnectionEntry.holds s.next) hc
  have hpos : 0 < c.holds s.next := by
    rw [ConnectionEntry.holds_eq]
    exact Nat.lt_of_lt_of_le (List.count_pos_iff.mpr hmem) (Nat.le_add_right _ _)
  omega

/-- An operation that puts one new value, or observation, into an entry, where there is room for it. -/
theorem Sound.modify_new (h : Sound s) (hc : s.entry ref = some c) {f : ConnectionEntry β → ConnectionEntry β} {k : Nat}
    (href : ∀ d, (f d).connRef = d.connRef) (hlinked : (f c).Linked)
    (hobs : ∀ o ∈ (f c).observations, o.addr < s.next + 1)
    (hholds : ∀ a, (f c).holds a ≤ (if s.next = a then 1 else 0) + c.holds a)
    (hunsent : (f c).unsent.length ≤ k + c.unsent.length)
    (hroom : s.notifyQueueLimitMode = .dropOldest → k + s.countQueuedNotifications ≤ s.notifyQueueLimit) :
    Sound { s.modify ref f with next := s.next + 1 } := by
  obtain ⟨hmem, hkey⟩ := State.entry_some hc
  have heq : ∀ d ∈ s.connectionEntries, d.connRef = ref → d = c := fun d hd hr =>
    h.eq_of_mem hd hmem (hr.trans hkey.symm)
  refine ⟨h.sorted_modify fun d _ _ => href d, fun c' hc' => ?_, fun c' hc' o ho => ?_, fun a => ?_, h.positive,
    fun hmode => ?_⟩
  · obtain ⟨d, hd, rfl⟩ := State.mem_modify.mp hc'
    by_cases hr : d.connRef = ref
    · rw [if_pos hr, heq d hd hr]
      exact hlinked
    · rw [if_neg hr]
      exact h.linked d hd
  · obtain ⟨d, hd, rfl⟩ := State.mem_modify.mp hc'
    by_cases hr : d.connRef = ref
    · rw [if_pos hr, heq d hd hr] at ho
      exact hobs o ho
    · rw [if_neg hr] at ho
      exact Nat.lt_succ_of_lt (h.observations d hd o ho)
  · have hle : total (ConnectionEntry.holds a) (s.modify ref f).connectionEntries ≤
        (if s.next = a then 1 else 0) + total (ConnectionEntry.holds a) s.connectionEntries :=
      total_updateAt_le h.nodup fun d hd hr => by
        rw [heq d hd hr]
        exact hholds a
    have hold := h.unique a
    show total (ConnectionEntry.holds a) (s.modify ref f).connectionEntries ≤ if a < s.next + 1 then 1 else 0
    by_cases hlt : a < s.next
    · rw [if_neg (by omega)] at hle
      rw [if_pos hlt] at hold
      rw [if_pos (by omega)]
      omega
    · rw [if_neg hlt] at hold
      split
      · split at hle <;> omega
      · rw [if_neg (by omega)] at hle
        omega
  · have hle : (s.modify ref f).countQueuedNotifications ≤ k + s.countQueuedNotifications :=
      total_updateAt_le h.nodup fun d hd hr => by
        rw [heq d hd hr]
        exact hunsent
    exact Nat.le_trans hle (hroom hmode)

/-- **Appending a value of an observation of the connection keeps the invariant**, if there is room. -/
theorem Inv.append (h : Inv s) (hc : s.entry ref = some c) (href : value.ref ∈ c.observations.map Observation.addr)
    (haddr : value.addr = s.next)
    (hroom : s.notifyQueueLimitMode = .dropOldest → s.countQueuedNotifications < s.notifyQueueLimit) :
    Inv (s.append ref value) := by
  obtain ⟨hmem, hkey⟩ := State.entry_some hc
  have hfresh : value.addr ∉ c.unsent.map Value.addr := haddr ▸ h.toSound.fresh hmem
  obtain ⟨hlinked, hunsent⟩ := (h.linked c hmem).appendUnsent href hfresh
  have haddrs : ∀ d : ConnectionEntry β, (d.appendUnsent value).observations.map Observation.addr =
      d.observations.map Observation.addr := fun d => ConnectionEntry.updateObservation_addrs fun _ => rfl
  have hsound : Sound (s.append ref value) := by
    refine h.toSound.modify_new (k := 1) hc (fun _ => rfl) hlinked (fun o ho => ?_) (fun a => ?_) ?_ fun hmode => ?_
    · obtain ⟨o', ho', hoo⟩ := List.mem_map.mp (haddrs c ▸ List.mem_map_of_mem ho)
      have := h.observations c hmem o' ho'
      omega
    · rw [(h.linked c hmem).holds_appendUnsent href hfresh a, haddr]
    · rw [hunsent, List.length_append]
      exact Nat.le_of_eq (Nat.add_comm _ _)
    · have := hroom hmode
      omega
  refine ⟨hsound, fun c' hc' => ?_, fun c' hc' => ?_⟩
  · obtain ⟨d, hd, rfl⟩ := State.mem_modify.mp hc'
    split
    · exact (h.allSent d hd).appendUnsent
    · exact h.allSent d hd
  · obtain ⟨d, hd, rfl⟩ := State.mem_modify.mp hc'
    split
    · exact ConnectionEntry.observations_ne_nil (haddrs d) (h.occupied d hd)
    · exact h.occupied d hd

/-- **`insert_new_value` keeps the invariant.** -/
theorem Inv.insertNewValue (h : Inv s) (env : InsertEnv) (hc : s.entry ref = some c) {observation : Nat}
    (ho : observation ∈ c.observations.map Observation.addr) (hint : ReliabilityHint) (details : DetailsPtr)
    (values : List β) : Inv (insertNewValue env ref observation hint details values s).2 := by
  unfold Observe.insertNewValue
  split
  · obtain ⟨c', hc', haddrs, _⟩ := h.entry_makeRoom hc
    refine h.makeRoom.append hc' (haddrs ▸ ho) rfl fun hmode => ?_
    rw [makeRoom_mode] at hmode
    rw [makeRoom_limit]
    exact h.makeRoom_fits hmode
  · exact h.makeRoom

end Append

/-! ## 7. The record that is copied -/

section Details

variable {s : State β} {v : Value β} {ptr : Nat}

/-- Whether making room deletes the value at an address: the queue is full, and the oldest head is that value. -/
def State.dropsValue (ptr : Nat) (s : State β) : Bool :=
  s.isObserveQueueFull &&
    match s.findOldestQueuedNotification with
    | some oldest => (oldest.unsent.head?.map Value.addr) == some ptr
    | none => false

theorem State.count_held (a : Nat) (s : State β) :
    (s.held.map Value.addr).count a = total (ConnectionEntry.holds a) s.connectionEntries := by
  unfold State.held
  rw [List.map_flatMap, count_flatMap]
  rfl

theorem Sound.nodup_held (h : Sound s) : (s.held.map Value.addr).Nodup := by
  rw [List.nodup_iff_count_le_one]
  intro a
  rw [State.count_held]
  have := h.unique a
  split at this <;> omega

/-- **Through the address of a value that exists, that value is found.** -/
theorem Sound.load_eq (h : Sound s) (hv : v ∈ s.held) : s.load v.addr = some v := by
  unfold State.load
  cases hfind : s.held.find? fun w => w.addr == v.addr with
  | none => exact absurd (List.find?_eq_none.mp hfind v hv) (by simp)
  | some w =>
      have hw : w.addr = v.addr := by simpa using List.find?_some hfind
      exact congrArg some (List.inj_on_of_nodup_map h.nodup_held (List.mem_of_find?_eq_some hfind) hv hw)

theorem State.load_eq_none (h : total (ConnectionEntry.holds ptr) s.connectionEntries = 0) : s.load ptr = none := by
  refine List.find?_eq_none.mpr fun v hv => ?_
  rw [← State.count_held] at h
  have hne : v.addr ≠ ptr := fun heq =>
    List.count_eq_zero.mp h (heq ▸ List.mem_map_of_mem hv)
  simpa using hne

theorem State.mem_held : v ∈ s.held ↔ ∃ c ∈ s.connectionEntries, v ∈ c.held := List.mem_flatMap

/-- A value other than the head is still there when the head is gone. -/
theorem ConnectionEntry.mem_held_dropFirst {c : ConnectionEntry β} (hv : v ∈ c.held)
    (hne : c.unsent.head?.map Value.addr ≠ some v.addr) : v ∈ c.dropFirst.held := by
  cases hc : c.unsent with
  | nil => rwa [dropFirst_nil hc]
  | cons value rest =>
      rw [dropFirst_cons hc]
      rw [hc] at hne
      rcases List.mem_append.mp hv with hv | hv
      · rw [hc] at hv
        rcases List.mem_cons.mp hv with rfl | hv
        · exact absurd rfl hne
        · exact List.mem_append_left _ hv
      · refine List.mem_append_right _ ?_
        obtain ⟨o, ho, hvo⟩ := List.mem_flatMap.mp hv
        refine List.mem_flatMap.mpr ⟨_, ConnectionEntry.mem_updateObservation.mpr ⟨o, ho, rfl⟩, ?_⟩
        split
        · rwa [forgetUnsent_lastSent]
        · exact hvo

theorem State.dropOldest_eq {oldest : ConnectionEntry β} (h : s.findOldestQueuedNotification = some oldest) :
    s.dropOldestQueuedNotification = s.modify oldest.connRef ConnectionEntry.dropFirst := by
  unfold State.dropOldestQueuedNotification
  rw [h]

/-- The deleted value is not found any more. -/
theorem Inv.load_dropped (h : Inv s) {oldest : ConnectionEntry β} (hmem : oldest ∈ s.connectionEntries)
    (hhead : oldest.unsent.head?.map Value.addr = some ptr) :
    (s.modify oldest.connRef ConnectionEntry.dropFirst).load ptr = none := by
  refine State.load_eq_none ?_
  have hlt : total (ConnectionEntry.holds ptr) (s.modify oldest.connRef ConnectionEntry.dropFirst).connectionEntries <
      total (ConnectionEntry.holds ptr) s.connectionEntries := by
    refine total_updateAt_lt (fun d hd _ => ((h.linked d hd).keeps_dropFirst).holds _) ⟨oldest, hmem, rfl, ?_⟩
    cases ho : oldest.unsent with
    | nil =>
        rw [ho] at hhead
        exact nomatch hhead
    | cons value rest =>
        rw [ho] at hhead
        have hcount := ConnectionEntry.holds_detachFirst ho ptr
        rw [if_pos (Option.some.inj hhead)] at hcount
        rw [ConnectionEntry.dropFirst_cons ho]
        omega
  have hunique := h.unique ptr
  split at hunique <;> omega

/-- Another value is still there. -/
theorem Inv.mem_held_dropOldest (h : Inv s) {oldest : ConnectionEntry β} (hmem : oldest ∈ s.connectionEntries)
    (hv : v ∈ s.held) (hhead : oldest.unsent.head?.map Value.addr ≠ some v.addr) :
    v ∈ (s.modify oldest.connRef ConnectionEntry.dropFirst).held := by
  obtain ⟨c, hc, hvc⟩ := State.mem_held.mp hv
  refine State.mem_held.mpr ⟨_, State.mem_modify.mpr ⟨c, hc, rfl⟩, ?_⟩
  by_cases href : c.connRef = oldest.connRef
  · rw [if_pos href]
    rw [h.toSound.eq_of_mem hc hmem href] at hvc ⊢
    exact ConnectionEntry.mem_held_dropFirst hvc hhead
  · rw [if_neg href]
    exact hvc

/-- **After making room, a pointer to a value still leads to it, unless it is the one that was deleted.** -/
theorem Inv.load_makeRoom (h : Inv s) (hv : v ∈ s.held) :
    s.makeRoom.load v.addr = if s.dropsValue v.addr then none else some v := by
  unfold State.makeRoom State.dropsValue
  cases hfull : s.isObserveQueueFull with
  | false =>
      rw [if_neg Bool.false_ne_true, Bool.false_and, if_neg Bool.false_ne_true]
      exact h.toSound.load_eq hv
  | true =>
      rw [if_pos rfl, Bool.true_and]
      cases hold : s.findOldestQueuedNotification with
      | none =>
          have hstays : s.dropOldestQueuedNotification = s := by
            unfold State.dropOldestQueuedNotification
            rw [hold]
          rw [hstays, if_neg Bool.false_ne_true]
          exact h.toSound.load_eq hv
      | some oldest =>
          have hmem := (State.findOldestQueuedNotification_some hold).1
          have hdrop := h.dropOldest
          rw [State.dropOldest_eq hold] at hdrop ⊢
          by_cases hhead : oldest.unsent.head?.map Value.addr = some v.addr
          · rw [if_pos (beq_iff_eq.mpr hhead)]
            exact h.load_dropped hmem hhead
          · rw [if_neg fun heq => hhead (beq_iff_eq.mp heq)]
            exact hdrop.toSound.load_eq (h.mem_held_dropOldest hmem hv hhead)

/-- What is read through a pointer to a value that exists when room is made. -/
theorem Inv.loadDetails_makeRoom (h : Inv s) (hv : v ∈ s.held) (junk : MsgDetails) :
    s.makeRoom.loadDetails junk (.ofValue v.addr) = if s.dropsValue v.addr then junk else v.details := by
  show ((s.makeRoom.load v.addr).map Value.details).getD junk = _
  rw [h.load_makeRoom hv]
  split <;> rfl

end Details

end Anjay.Observe
