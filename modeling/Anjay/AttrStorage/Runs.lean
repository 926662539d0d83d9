/-
  File:      Anjay/AttrStorage/Runs.lean
  Subject:   The Attribute Storage over whole runs: writes, clean-ups, restores, and the transactions
             that pass through its overlay (`anjay_mod_attr_storage.c`).

  * `reachable_canonical`: the tree is canonical in every run that restores no Resource without
    attributes; `canonical_not_always`: a stream with such a Resource is accepted.
  * `reachable_transactional`: where no begin handler fails, the depth is the number of Objects in the
    transaction, and a rollback brings the tree and the flag back; `transactional_not_always`: a begin
    handler that fails takes the snapshot of the others with it.
-/
import Anjay.AttrStorage.Persistence

namespace Anjay.AttrStorage

open Lib

variable {σ : Type}

/-! ## 1. Transactions -/

/-- `saved_state_reset`. -/
def savedStateReset (as : Storage) : Storage := { as with savedState := { as.savedState with persistData := [] } }

/-- `saved_state_save`; `taken` says how many bytes the stream took before it ran out of memory, if it
    did. -/
def savedStateSave (taken : Option Nat) (as : Storage) : AvsError × Storage :=
  let as := { as with savedState := { as.savedState with modifiedSincePersist := as.modifiedSincePersist } }
  match persistInner as.objects, taken with
  | .error err, _ => (err, as)
  | .ok bytes, none =>
      (.ok, { as with savedState := { as.savedState with persistData := as.savedState.persistData ++ bytes } })
  | .ok bytes, some n =>
      (.errno .ENOMEM,
        { as with savedState := { as.savedState with persistData := as.savedState.persistData ++ bytes.take n } })

/-- `saved_state_restore`. -/
def savedStateRestore (client : Client σ) (as : Storage) : AvsError × Storage :=
  let r := restoreInner client as.savedState.persistData
  (r.1, { as with
    objects := r.2
    modifiedSincePersist := if r.1 ≠ .ok then true else as.savedState.modifiedSincePersist })

def Storage.setDepth (as : Storage) (depth : Nat) : Storage :=
  { as with savedState := { as.savedState with depth := depth } }

/-- `transaction_begin`, up to the call of the handler of the Object; what it returns, if it does not
    come to that. -/
def transactionBegin (taken : Option Nat) (as : Storage) : Option Int × Storage :=
  let entered := as.setDepth (as.savedState.depth + 1)
  if as.savedState.depth = 0 then
    let r := savedStateSave taken entered
    if r.1 ≠ .ok then (some errInternal, r.2.setDepth (r.2.savedState.depth - 1)) else (none, r.2)
  else (none, entered)

/-- `transaction_begin`, from the return of that handler on. -/
def transactionBeginReturn (result : Int) (as : Storage) : Int × Storage :=
  (result, if result ≠ 0 then savedStateReset as else as)

/-- `transaction_commit`, from the return of the handler of the Object on. -/
def transactionCommit (client : Client σ) (result : Int) (as : Storage) : Int × Storage :=
  let as := as.setDepth (as.savedState.depth - 1)
  if as.savedState.depth = 0 then
    if result ≠ 0 then
      let r := savedStateRestore client as
      (if r.1 ≠ .ok then errInternal else result, savedStateReset r.2)
    else (result, savedStateReset as)
  else (result, as)

/-- `transaction_rollback`, from the return of the handler of the Object on. -/
def transactionRollback (client : Client σ) (result : Int) (as : Storage) : Int × Storage :=
  let as := as.setDepth (as.savedState.depth - 1)
  if as.savedState.depth = 0 then
    let r := savedStateRestore client as
    (if r.1 ≠ .ok then errInternal else result, savedStateReset r.2)
  else (result, as)

/-- `anjay_attr_storage_purge`. -/
def attrStoragePurge (as : Storage) : Storage := { as with objects := [], modifiedSincePersist := true }

/-- `anjay_attr_storage_persist`; `written` says whether the stream takes what is written to it. -/
def attrStoragePersist (written : Bool) (as : Storage) : Storage :=
  match persistInner as.objects, written with
  | .ok _, true => { as with modifiedSincePersist := false }
  | _, _ => as

/-- `anjay_attr_storage_restore`. -/
def attrStorageRestore (client : Client σ) (stream : List UInt8) (as : Storage) : AvsError × Storage :=
  let r := restoreInner client stream
  (r.1, { as with objects := r.2, modifiedSincePersist := decide (r.1 ≠ .ok) })

/-! ## 2. Runs -/

/-- What happens to the module. The handler of an Object may do anything between the call and the
    return of its begin. -/
inductive Event (σ : Type)
  | writeObject (alloc : Alloc) (ssid oid : Id) (attrs : InternalOiAttrs)
  | writeInstance (alloc : Alloc) (ssid oid iid : Id) (attrs : InternalOiAttrs)
  | writeResource (alloc : Alloc) (ssid oid iid rid : Id) (attrs : InternalRAttrs)
  | notify (client : Client σ) (queue : Dm.NotifyQueue)
  | purge
  | persist (written : Bool)
  | restore (client : Client σ) (stream : List UInt8)
  | beginCall (oid : Id) (taken : Option Nat)
  | beginReturn (oid : Id) (result : Int)
  | commit (client : Client σ) (oid : Id) (result : Int)
  | rollback (client : Client σ) (oid : Id) (result : Int)

/-- The module, with what its state is measured by: the Objects in the transaction, those whose begin
    handler has not returned, the tree and the flag when the first of them came, and whether a save
    broke off since the last reset. -/
structure RunState where
  storage : Storage
  active : List Id
  entering : List Id
  snapshot : List ObjectEntry × Bool
  brokenOff : Bool

namespace RunState

def init : RunState := ⟨.install, [], [], ([], false), false⟩

/-- No Object is in a transaction. -/
def Outside (s : RunState) : Prop := s.active = [] ∧ s.entering = []

instance instDecidableOutside (s : RunState) : Decidable s.Outside := inferInstanceAs (Decidable (_ ∧ _))

def withStorage (s : RunState) (as : Storage) : RunState := { s with storage := as }

/-- `_anjay_dm_transaction_include_object` calls the begin of an Object that is not included yet. -/
def beginCall (oid : Id) (taken : Option Nat) (s : RunState) : RunState :=
  if s.active.contains oid || s.entering.contains oid then s
  else
    let r := transactionBegin taken s.storage
    let snapshot := if s.Outside then (s.storage.objects, s.storage.modifiedSincePersist) else s.snapshot
    if r.1.isSome then
      { s with storage := r.2, snapshot := snapshot, brokenOff := s.brokenOff || decide (taken ≠ some 0) }
    else { s with storage := r.2, entering := oid :: s.entering, snapshot := snapshot }

/-- The begin of the Object goes on, as its handler has returned. -/
def beginReturn (oid : Id) (result : Int) (s : RunState) : RunState :=
  if s.entering.contains oid = false then s
  else
    let r := transactionBeginReturn result s.storage
    { s with
      storage := r.2
      active := if r.1 = 0 then oid :: s.active else s.active
      entering := s.entering.erase oid
      brokenOff := s.brokenOff && decide (r.1 = 0) }

/-- `commit_or_rollback_object` of an Object that is included. -/
def finish (oid : Id) (as : Storage) (s : RunState) : RunState :=
  if s.active.contains oid = false then s
  else
    { s with
      storage := as
      active := s.active.erase oid
      brokenOff := s.brokenOff && decide (as.savedState.depth ≠ 0) }

end RunState

def step : Event σ → RunState → RunState
  | .writeObject alloc ssid oid attrs, s => s.withStorage (writeObjectAttrs alloc ssid oid attrs s.storage).2
  | .writeInstance alloc ssid oid iid attrs, s =>
      s.withStorage (writeInstanceAttrs alloc ssid oid iid attrs s.storage).2
  | .writeResource alloc ssid oid iid rid attrs, s =>
      s.withStorage (writeResourceAttrs alloc ssid oid iid rid attrs s.storage).2
  | .notify client queue, s => s.withStorage (asNotifyCallback client queue s.storage).2
  | .purge, s => s.withStorage (attrStoragePurge s.storage)
  | .persist written, s => s.withStorage (attrStoragePersist written s.storage)
  | .restore client stream, s => s.withStorage (attrStorageRestore client stream s.storage).2
  | .beginCall oid taken, s => s.beginCall oid taken
  | .beginReturn oid result, s => s.beginReturn oid result
  | .commit client oid result, s => s.finish oid (transactionCommit client result s.storage).2
  | .rollback client oid result, s => s.finish oid (transactionRollback client result s.storage).2

/-- The states of the runs whose events meet the condition `C`. -/
inductive ReachableWith (C : Event σ → RunState → Prop) : RunState → Prop
  | init : ReachableWith C .init
  | step {s s' : RunState} (event : Event σ) (h : ReachableWith C s) (hc : C event s)
      (hs' : AttrStorage.step event s = s') : ReachableWith C s'

/-! ## 3. What the functions do -/

theorem notifyObject_savedState (client : Client σ) (e : Dm.NotifyObject) (result : Int) (as : Storage) :
    (notifyObject client e result as).2.savedState = as.savedState := by
  have hinstances : (removeAbsentInstances client as e.oid).2.savedState = as.savedState := by
    unfold removeAbsentInstances
    dsimp only
    split <;> rfl
  unfold notifyObject
  dsimp only
  split <;> exact hinstances

theorem asNotifyCallback_savedState (client : Client σ) (queue : Dm.NotifyQueue) (as : Storage) :
    (asNotifyCallback client queue as).2.savedState = as.savedState := by
  have hfold : ∀ (es : List Dm.NotifyObject) (r : Int × Storage),
      (es.foldl (fun r e => notifyObject client e r.1 r.2) r).2.savedState = r.2.savedState := by
    intro es
    induction es with
    | nil => exact fun r => rfl
    | cons e es ih => exact fun r => (ih _).trans (notifyObject_savedState client e r.1 r.2)
  exact hfold queue.entries (0, as)

/-- **The ways a begin can go**, up to the handler of the Object. -/
theorem transactionBegin_cases (taken : Option Nat) {as : Storage} (h : Tidy ResourceEntry.Sane as.objects) :
    (as.savedState.depth ≠ 0 ∧ transactionBegin taken as = (none, as.setDepth (as.savedState.depth + 1))) ∨
    as.savedState.depth = 0 ∧ ∃ bytes, persistInner as.objects = .ok bytes ∧
      ((taken = none ∧ transactionBegin taken as =
          (none, { as with savedState := ⟨1, as.savedState.persistData ++ bytes, as.modifiedSincePersist⟩ })) ∨
        ∃ n, taken = some n ∧ transactionBegin taken as = (some errInternal,
          { as with savedState := ⟨0, as.savedState.persistData ++ bytes.take n, as.modifiedSincePersist⟩ })) := by
  by_cases hdepth : as.savedState.depth = 0
  · obtain ⟨bytes, hbytes, -⟩ := restoreObjects_persistInner h
    refine Or.inr ⟨hdepth, bytes, hbytes, ?_⟩
    unfold transactionBegin savedStateSave Storage.setDepth
    simp only [hbytes, hdepth]
    cases taken with
    | none => exact Or.inl ⟨rfl, rfl⟩
    | some n => exact Or.inr ⟨n, rfl, rfl⟩
  · exact Or.inl ⟨hdepth, if_neg hdepth⟩

/-- What the end of the transaction of one Object does to the module. -/
def Ends (client : Client σ) (restores : Prop) (as as' : Storage) : Prop :=
  (as.savedState.depth - 1 ≠ 0 ∧ as' = as.setDepth (as.savedState.depth - 1)) ∨
  as.savedState.depth - 1 = 0 ∧ as'.savedState.depth = 0 ∧ as'.savedState.persistData = [] ∧
    ((¬ restores ∧ as'.objects = as.objects) ∨
      restores ∧ as'.objects = (restoreInner client as.savedState.persistData).2 ∧
        ((restoreInner client as.savedState.persistData).1 = .ok →
          as'.modifiedSincePersist = as.savedState.modifiedSincePersist))

theorem transactionRollback_ends (client : Client σ) (result : Int) (as : Storage) :
    Ends client True as (transactionRollback client result as).2 := by
  by_cases hdepth : as.savedState.depth - 1 = 0
  · have hclosed : (transactionRollback client result as).2 =
        savedStateReset (savedStateRestore client (as.setDepth (as.savedState.depth - 1))).2 :=
      congrArg Prod.snd (if_pos hdepth)
    rw [hclosed]
    exact Or.inr ⟨hdepth, hdepth, rfl, Or.inr ⟨trivial, rfl, fun hok => if_neg (not_not.mpr hok)⟩⟩
  · exact Or.inl ⟨hdepth, congrArg Prod.snd (if_neg hdepth)⟩

theorem transactionCommit_ends (client : Client σ) (result : Int) (as : Storage) :
    Ends client (result ≠ 0) as (transactionCommit client result as).2 := by
  by_cases hdepth : as.savedState.depth - 1 = 0
  · by_cases hresult : result ≠ 0
    · have hclosed : (transactionCommit client result as).2 =
          savedStateReset (savedStateRestore client (as.setDepth (as.savedState.depth - 1))).2 :=
        congrArg Prod.snd ((if_pos hdepth).trans (if_pos hresult))
      rw [hclosed]
      exact Or.inr ⟨hdepth, hdepth, rfl, Or.inr ⟨hresult, rfl, fun hok => if_neg (not_not.mpr hok)⟩⟩
    · have hclosed : (transactionCommit client result as).2 =
          savedStateReset (as.setDepth (as.savedState.depth - 1)) :=
        congrArg Prod.snd ((if_pos hdepth).trans (if_neg hresult))
      rw [hclosed]
      exact Or.inr ⟨hdepth, hdepth, rfl, Or.inl ⟨hresult, rfl⟩⟩
  · exact Or.inl ⟨hdepth, congrArg Prod.snd (if_neg hdepth)⟩

/-- The return of a begin handler does something only for an Object whose begin has been called. -/
theorem RunState.beginReturn_cases (s : RunState) (oid : Id) (result : Int) :
    s.beginReturn oid result = s ∨
      oid ∈ s.entering ∧ (s.entering.erase oid).length + 1 = s.entering.length ∧
        s.beginReturn oid result = { s with
          storage := (transactionBeginReturn result s.storage).2
          active := if result = 0 then oid :: s.active else s.active
          entering := s.entering.erase oid
          brokenOff := s.brokenOff && decide (result = 0) } := by
  cases hmem : s.entering.contains oid with
  | false => exact Or.inl (if_pos hmem)
  | true =>
      have hin := List.contains_iff_mem.mp hmem
      refine Or.inr ⟨hin, ?_, if_neg (by rw [hmem]; exact nofun)⟩
      rw [List.length_erase_of_mem hin]
      exact Nat.sub_add_cancel (List.length_pos_of_mem hin)

/-- The end of the transaction of an Object does something only if it is in the transaction. -/
theorem RunState.finish_cases (s : RunState) (oid : Id) (as' : Storage) :
    s.finish oid as' = s ∨
      oid ∈ s.active ∧ (s.active.erase oid).length + 1 = s.active.length ∧
        s.finish oid as' = { s with
          storage := as'
          active := s.active.erase oid
          brokenOff := s.brokenOff && decide (as'.savedState.depth ≠ 0) } := by
  cases hmem : s.active.contains oid with
  | false => exact Or.inl (if_pos hmem)
  | true =>
      have hin := List.contains_iff_mem.mp hmem
      refine Or.inr ⟨hin, ?_, if_neg (by rw [hmem]; exact nofun)⟩
      rw [List.length_erase_of_mem hin]
      exact Nat.sub_add_cancel (List.length_pos_of_mem hin)

/-- The events that are no part of a transaction. -/
def Event.Plain : Event σ → Prop
  | .beginCall _ _ | .beginReturn _ _ | .commit _ _ _ | .rollback _ _ _ => False
  | _ => True

/-- **Such an event keeps the tree tidy**, if what it restores is, and does not touch the snapshot. -/
theorem step_plain {P : ResourceEntry → Prop} (hP : ResourceRule P) {s : RunState}
    (h : Tidy P s.storage.objects) {event : Event σ} (hplain : event.Plain)
    (hrestore : ∀ client stream, event = .restore client stream → Tidy P (restoreInner client stream).2) :
    ∃ as, step event s = s.withStorage as ∧ as.savedState = s.storage.savedState ∧ Tidy P as.objects := by
  cases event with
  | writeObject alloc ssid oid attrs => exact ⟨_, rfl, rfl, writeObjectAttrs_tidy h alloc ssid oid attrs⟩
  | writeInstance alloc ssid oid iid attrs => exact ⟨_, rfl, rfl, writeInstanceAttrs_tidy h alloc ssid oid iid attrs⟩
  | writeResource alloc ssid oid iid rid attrs =>
      exact ⟨_, rfl, rfl, writeResourceAttrs_tidy hP h alloc ssid oid iid rid attrs⟩
  | notify client queue =>
      exact ⟨_, rfl, asNotifyCallback_savedState client queue s.storage, asNotifyCallback_tidy hP client queue h⟩
  | purge => exact ⟨_, rfl, rfl, .nil⟩
  | persist written =>
      refine ⟨attrStoragePersist written s.storage, rfl, ?_, ?_⟩
      · unfold attrStoragePersist
        split <;> rfl
      · unfold attrStoragePersist
        split <;> exact h
  | restore client stream => exact ⟨_, rfl, rfl, hrestore client stream rfl⟩
  | beginCall => exact hplain.elim
  | beginReturn => exact hplain.elim
  | commit => exact hplain.elim
  | rollback => exact hplain.elim

/-! ## 4. Canonical trees -/

/-- No Resource without attributes, whose Object, Instance and Resource are in the data model, is read
    from the stream and passes the checks. -/
def Filled (client : Client σ) (stream : List UInt8) : Prop :=
  ∀ objects, restoreObjects stream = .ok objects → SaneObjects objects →
    client.PresentResources (fun r => r.empty = false) objects

/-- What is restored has no such Resource; a snapshot has none if no save broke off. -/
def Event.Filled : Event σ → RunState → Prop
  | .restore client stream, _ => AttrStorage.Filled client stream
  | .commit client _ _, s | .rollback client _ _, s =>
      s.brokenOff = true → AttrStorage.Filled client s.storage.savedState.persistData
  | _, _ => True

theorem restoreInner_canonical {client : Client σ} {stream : List UInt8} (h : Filled client stream) :
    Canonical (restoreInner client stream).2 :=
  restoreInner_tidy fun objects hread hsane o ho i hi hin r hr hpresent =>
    ⟨((hsane.all o ho).2.all i hi).resources.all r hr, h objects hread hsane o ho i hi hin r hr hpresent⟩

/-- What is stored of a canonical tree has no such Resource. -/
theorem filled_of_persistInner (client : Client σ) {objects : List ObjectEntry} {stream : List UInt8}
    (h : Canonical objects) (hstore : persistInner objects = .ok stream) : Filled client stream := by
  obtain ⟨bytes, hbytes, -, hread⟩ := restoreObjects_persistInner (h.mono fun _ hr => hr.sane)
  obtain rfl : bytes = stream := Except.ok.inj (hbytes.symm.trans hstore)
  intro objects' hread' _ o ho i hi _ r hr _
  obtain rfl : objects = objects' := Except.ok.inj (hread.symm.trans hread')
  exact (((h.all o ho).instances.all i hi).resources.all r hr).filled

/-- The tree is canonical, and so is what the snapshot holds, unless a save broke off. -/
structure CanonicalRun (s : RunState) : Prop where
  tree : Canonical s.storage.objects
  data : s.brokenOff = false → s.storage.savedState.persistData = [] ∨ s.storage.savedState.depth ≠ 0 ∧
    ∃ objects, Canonical objects ∧ persistInner objects = .ok s.storage.savedState.persistData

theorem CanonicalRun.restore {s : RunState} (h : CanonicalRun s) {client : Client σ}
    (hfilled : s.brokenOff = true → Filled client s.storage.savedState.persistData) :
    Canonical (restoreInner client s.storage.savedState.persistData).2 := by
  cases hbroken : s.brokenOff with
  | true => exact restoreInner_canonical (hfilled hbroken)
  | false =>
      rcases h.data hbroken with hnil | ⟨-, objects, hobjects, hstore⟩
      · rw [hnil]
        exact .nil
      · exact restoreInner_canonical (filled_of_persistInner client hobjects hstore)

theorem CanonicalRun.finish {s : RunState} (h : CanonicalRun s) {client : Client σ} {restores : Prop} {as' : Storage}
    (hends : Ends client restores s.storage as') (oid : Id)
    (hfilled : s.brokenOff = true → Filled client s.storage.savedState.persistData) :
    CanonicalRun (s.finish oid as') := by
  rcases s.finish_cases oid as' with hsame | ⟨-, -, hfinish⟩
  · rwa [hsame]
  rw [hfinish]
  rcases hends with ⟨hdepth, rfl⟩ | ⟨-, -, hnil, hobjects⟩
  · refine ⟨h.tree, fun hbroken => ?_⟩
    have hbefore : s.brokenOff = false :=
      (Bool.and_eq_false_iff.mp hbroken).resolve_right (Bool.eq_false_iff.not.mpr (not_not.mpr (decide_eq_true hdepth)))
    rcases h.data hbefore with hnil | ⟨-, hstored⟩
    · exact Or.inl hnil
    · exact Or.inr ⟨hdepth, hstored⟩
  · refine ⟨?_, fun _ => Or.inl hnil⟩
    rcases hobjects with ⟨-, hobjects⟩ | ⟨-, hobjects, -⟩
    · exact (congrArg Canonical hobjects).mpr h.tree
    · exact (congrArg Canonical hobjects).mpr (h.restore hfilled)

theorem CanonicalRun.beginCall {s : RunState} (h : CanonicalRun s) (oid : Id) (taken : Option Nat) :
    CanonicalRun (s.beginCall oid taken) := by
  unfold RunState.beginCall
  split
  · exact h
  dsimp only
  rcases transactionBegin_cases taken (h.tree.mono fun _ hr => hr.sane) with
    ⟨hdepth, hbegin⟩ | ⟨hdepth, bytes, hbytes, ⟨-, hbegin⟩ | ⟨n, rfl, hbegin⟩⟩
  · rw [hbegin]
    refine ⟨h.tree, fun hbroken => (h.data hbroken).imp_right fun hstored => ?_⟩
    exact ⟨Nat.succ_ne_zero _, hstored.2⟩
  · rw [hbegin]
    refine ⟨h.tree, fun hbroken => Or.inr ⟨Nat.one_ne_zero, s.storage.objects, h.tree, ?_⟩⟩
    have hnil := (h.data hbroken).resolve_right fun hstored => hstored.1 hdepth
    exact hbytes.trans (congrArg Except.ok (by rw [hnil]; rfl))
  · rw [hbegin]
    refine ⟨h.tree, fun hbroken => Or.inl ?_⟩
    obtain ⟨hbefore, htaken⟩ := Bool.or_eq_false_iff.mp hbroken
    have hnil := (h.data hbefore).resolve_right fun hstored => hstored.1 hdepth
    obtain rfl : n = 0 := by simpa using htaken
    show s.storage.savedState.persistData ++ bytes.take 0 = []
    rw [hnil]
    rfl

theorem CanonicalRun.beginReturn {s : RunState} (h : CanonicalRun s) (oid : Id) (result : Int) :
    CanonicalRun (s.beginReturn oid result) := by
  rcases s.beginReturn_cases oid result with hsame | ⟨-, -, hreturn⟩
  · rwa [hsame]
  rw [hreturn]
  by_cases hresult : result = 0
  · subst hresult
    exact ⟨h.tree, fun hbroken => h.data (by simpa using hbroken)⟩
  · dsimp only [transactionBeginReturn]
    rw [if_pos hresult]
    exact ⟨h.tree, fun _ => Or.inl rfl⟩

/-- **Every such event keeps the tree canonical.** -/
theorem step_canonical {s : RunState} (h : CanonicalRun s) (event : Event σ) (hfilled : event.Filled s) :
    CanonicalRun (step event s) := by
  by_cases hplain : event.Plain
  · obtain ⟨as, hstep, hsaved, htidy⟩ := step_plain resourceRule_canonical h.tree hplain fun client stream he =>
      restoreInner_canonical (by rw [he] at hfilled; exact hfilled)
    rw [hstep]
    exact ⟨htidy, fun hbroken => by rw [RunState.withStorage, hsaved]; exact h.data hbroken⟩
  cases event with
  | beginCall oid taken => exact h.beginCall oid taken
  | beginReturn oid result => exact h.beginReturn oid result
  | commit client oid result => exact h.finish (transactionCommit_ends client result s.storage) oid hfilled
  | rollback client oid result => exact h.finish (transactionRollback_ends client result s.storage) oid hfilled
  | writeObject | writeInstance | writeResource | notify | purge | persist | restore => exact absurd trivial hplain

/-- **In every run that restores no Resource without attributes the tree is canonical.** -/
theorem reachable_canonical {s : RunState} (h : ReachableWith (σ := σ) Event.Filled s) :
    Canonical s.storage.objects := by
  have hrun : CanonicalRun s := by
    induction h with
    | init => exact ⟨.nil, fun _ => Or.inl rfl⟩
    | step event _ hc hs' ih => exact hs' ▸ step_canonical ih event hc
  exact hrun.tree

/-- Resource 1 of Instance 0 of Object 3, with no set of attributes, in the current version. -/
def resourceWithoutAttrs : List UInt8 :=
  magic ++ [4, 0, 0, 0, 1, 0, 3, 0, 0, 0, 0, 0, 0, 0, 1, 0, 0, 0, 0, 0, 0, 0, 0, 0, 1, 0, 1, 0, 0, 0, 0, 0, 0, 0, 0]

/-- The stream is accepted, and the Resource stays in the tree. -/
theorem canonical_not_always : ∃ s, ReachableWith (σ := Unit) (fun _ _ => True) s ∧
    s.storage.objects = [⟨3, [], [⟨0, [], [⟨1, []⟩]⟩]⟩] ∧ ¬ Canonical s.storage.objects := by
  refine ⟨step (.restore (clientWith [3]) resourceWithoutAttrs) .init, .step _ .init trivial rfl, ?_, ?_⟩
  · decide +kernel
  · decide +kernel

def allocated : Alloc := ⟨true, true, true, true⟩

/-- A minimum period of ten seconds. -/
def resourceMinPeriodTen : InternalRAttrs :=
  ⟨⟨minPeriodTen.standard, Double.nan, Double.nan, Double.nan⟩, .default⟩

/-- Resource 1 of the Device Object, with that set of attributes of server 1. -/
def resourceWithAttrs : List ObjectEntry := [⟨3, [], [⟨0, [], [⟨1, [⟨1, resourceMinPeriodTen⟩]⟩]⟩]⟩]

/-- The attributes are written to another Resource, and then those are restored. -/
theorem reachable_canonical_restored : ∃ stream, persistInner resourceWithAttrs = .ok stream ∧
    Canonical (step (σ := Unit) (.restore (clientWith [3]) stream)
      (step (σ := Unit) (.writeResource allocated 1 3 0 2 resourceMinPeriodTen) .init)).storage.objects := by
  have hcanonical : Canonical resourceWithAttrs := by decide +kernel
  obtain ⟨stream, hstore, -, -⟩ := restoreObjects_persistInner (hcanonical.mono fun _ hr => hr.sane)
  have hwritten : ReachableWith (σ := Unit) Event.Filled _ :=
    .step (.writeResource allocated 1 3 0 2 resourceMinPeriodTen) .init trivial rfl
  have hfilled : Filled (clientWith [3]) stream := filled_of_persistInner _ hcanonical hstore
  exact ⟨stream, hstore, reachable_canonical (.step (.restore (clientWith [3]) stream) hwritten hfilled rfl)⟩

/-! ## 5. Transactions over whole runs -/

theorem restoreInner_sane (client : Client σ) (stream : List UInt8) :
    Tidy ResourceEntry.Sane (restoreInner client stream).2 :=
  restoreInner_tidy fun _ _ hsane o ho i hi _ r hr _ => ((hsane.all o ho).2.all i hi).resources.all r hr

theorem Ends.tidy {client : Client σ} {restores : Prop} {as as' : Storage} (h : Ends client restores as as')
    (htidy : Tidy ResourceEntry.Sane as.objects) : Tidy ResourceEntry.Sane as'.objects := by
  rcases h with ⟨-, rfl⟩ | ⟨-, -, -, ⟨-, hobjects⟩ | ⟨-, hobjects, -⟩⟩
  · exact htidy
  · exact (congrArg (Tidy _) hobjects).mpr htidy
  · exact (congrArg (Tidy _) hobjects).mpr (restoreInner_sane client _)

theorem beginCall_tidy {s : RunState} (h : Tidy ResourceEntry.Sane s.storage.objects) (oid : Id)
    (taken : Option Nat) : Tidy ResourceEntry.Sane (s.beginCall oid taken).storage.objects := by
  unfold RunState.beginCall
  split
  · exact h
  dsimp only
  rcases transactionBegin_cases taken h with ⟨-, hbegin⟩ | ⟨-, _, -, ⟨-, hbegin⟩ | ⟨_, -, hbegin⟩⟩ <;>
    (rw [hbegin]; exact h)

theorem finish_tidy {s : RunState} (h : Tidy ResourceEntry.Sane s.storage.objects) {client : Client σ}
    {restores : Prop} {as' : Storage} (hends : Ends client restores s.storage as') (oid : Id) :
    Tidy ResourceEntry.Sane (s.finish oid as').storage.objects := by
  rcases s.finish_cases oid as' with hsame | ⟨-, -, hfinish⟩
  · rwa [hsame]
  · rw [hfinish]
    exact hends.tidy h

/-- In every run the tree is tidy. -/
theorem reachable_tidy {C : Event σ → RunState → Prop} {s : RunState} (h : ReachableWith C s) :
    Tidy ResourceEntry.Sane s.storage.objects := by
  induction h with
  | init => exact .nil
  | @step s _ event _ _ hs' ih =>
      subst hs'
      by_cases hplain : event.Plain
      · obtain ⟨as, hstep, -, htidy⟩ := step_plain resourceRule_sane ih hplain
          fun client stream _ => restoreInner_sane client stream
        rw [hstep]
        exact htidy
      cases event with
      | beginCall oid taken => exact beginCall_tidy ih oid taken
      | beginReturn oid result =>
          show Tidy ResourceEntry.Sane (s.beginReturn oid result).storage.objects
          rcases s.beginReturn_cases oid result with hsame | ⟨-, -, hreturn⟩
          · rwa [hsame]
          · rw [hreturn]
            dsimp only [transactionBeginReturn]
            split <;> exact ih
      | commit client oid result => exact finish_tidy ih (transactionCommit_ends client result s.storage) oid
      | rollback client oid result => exact finish_tidy ih (transactionRollback_ends client result s.storage) oid
      | writeObject | writeInstance | writeResource | notify | purge | persist | restore =>
          exact absurd trivial hplain

/-- There is an entry into the module for each Object in the transaction. -/
def RunState.Counted (s : RunState) : Prop := s.active.length + s.entering.length ≤ s.storage.savedState.depth

theorem RunState.Counted.beginCall {s : RunState} (h : s.Counted) (htidy : Tidy ResourceEntry.Sane s.storage.objects)
    (oid : Id) (taken : Option Nat) : (s.beginCall oid taken).Counted := by
  unfold Counted at h ⊢
  unfold RunState.beginCall
  split
  · exact h
  dsimp only
  rcases transactionBegin_cases taken htidy with ⟨-, hbegin⟩ | ⟨hdepth, _, -, ⟨-, hbegin⟩ | ⟨_, -, hbegin⟩⟩
  · rw [hbegin]
    exact Nat.succ_le_succ h
  · rw [hbegin]
    exact Nat.succ_le_succ (hdepth ▸ h)
  · rw [hbegin]
    exact hdepth ▸ h

theorem RunState.Counted.beginReturn {s : RunState} (h : s.Counted) (oid : Id) (result : Int) :
    (s.beginReturn oid result).Counted := by
  rcases s.beginReturn_cases oid result with hsame | ⟨-, hlength, hreturn⟩
  · rwa [hsame]
  rw [hreturn]
  unfold Counted at h ⊢
  dsimp only [transactionBeginReturn]
  split
  next hresult =>
    rw [if_neg (not_not.mpr hresult), List.length_cons]
    omega
  next hresult =>
    show s.active.length + (s.entering.erase oid).length ≤ s.storage.savedState.depth
    omega

theorem RunState.Counted.finish {s : RunState} (h : s.Counted) {client : Client σ} {restores : Prop} {as' : Storage}
    (hends : Ends client restores s.storage as') (oid : Id) : (s.finish oid as').Counted := by
  rcases s.finish_cases oid as' with hsame | ⟨-, hlength, hfinish⟩
  · rwa [hsame]
  rw [hfinish]
  unfold Counted at h ⊢
  rcases hends with ⟨-, rfl⟩ | ⟨hdepth, hzero, -⟩
  · show (s.active.erase oid).length + s.entering.length ≤ s.storage.savedState.depth - 1
    omega
  · show (s.active.erase oid).length + s.entering.length ≤ as'.savedState.depth
    omega

/-- In every run the depth is never taken below zero. -/
theorem reachable_depth {C : Event σ → RunState → Prop} {s : RunState} (h : ReachableWith C s) : s.Counted := by
  induction h with
  | init => exact Nat.le_refl 0
  | @step s _ event hbefore _ hs' ih =>
      subst hs'
      by_cases hplain : event.Plain
      · obtain ⟨as, hstep, hsaved, -⟩ := step_plain resourceRule_sane (reachable_tidy hbefore) hplain
          fun client stream _ => restoreInner_sane client stream
        rw [hstep, RunState.Counted, RunState.withStorage, hsaved]
        exact ih
      cases event with
      | beginCall oid taken => exact ih.beginCall (reachable_tidy hbefore) oid taken
      | beginReturn oid result => exact ih.beginReturn oid result
      | commit client oid result => exact ih.finish (transactionCommit_ends client result s.storage) oid
      | rollback client oid result => exact ih.finish (transactionRollback_ends client result s.storage) oid
      | writeObject | writeInstance | writeResource | notify | purge | persist | restore =>
          exact absurd trivial hplain

/-- No begin handler fails, and a save that breaks off does so before the first byte. -/
def Event.Whole : Event σ → RunState → Prop
  | .beginCall _ taken, s => s.storage.savedState.depth = 0 → taken = none ∨ taken = some 0
  | .beginReturn oid result, s => oid ∈ s.entering → result = 0
  | _, _ => True

/-- The depth is the number of Objects in the transaction, and the snapshot is that of the first. -/
structure SnapshotRun (s : RunState) : Prop where
  depth : s.storage.savedState.depth = s.active.length + s.entering.length
  outside : s.Outside → s.storage.savedState.persistData = []
  tidy : ¬ s.Outside → Tidy ResourceEntry.Sane s.snapshot.1
  inside : ¬ s.Outside → persistInner s.snapshot.1 = .ok s.storage.savedState.persistData ∧
    s.storage.savedState.modifiedSincePersist = s.snapshot.2

theorem RunState.outside_iff {s : RunState} : s.Outside ↔ s.active.length + s.entering.length = 0 := by
  rw [Outside, Nat.add_eq_zero_iff, List.length_eq_zero_iff, List.length_eq_zero_iff]

theorem SnapshotRun.beginCall {s : RunState} (h : SnapshotRun s) (htidy : Tidy ResourceEntry.Sane s.storage.objects)
    (oid : Id) {taken : Option Nat} (hwhole : s.storage.savedState.depth = 0 → taken = none ∨ taken = some 0) :
    SnapshotRun (s.beginCall oid taken) := by
  unfold RunState.beginCall
  split
  · exact h
  dsimp only
  rcases transactionBegin_cases taken htidy with
    ⟨hdepth, hbegin⟩ | ⟨hdepth, bytes, hbytes, ⟨-, hbegin⟩ | ⟨n, rfl, hbegin⟩⟩
  · have hinside : ¬ s.Outside := by rwa [RunState.outside_iff, ← h.depth]
    rw [hbegin, if_neg hinside]
    refine ⟨?_, fun hout => absurd hout.2 (List.cons_ne_nil _ _), fun _ => h.tidy hinside, fun _ => h.inside hinside⟩
    show s.storage.savedState.depth + 1 = s.active.length + (s.entering.length + 1)
    rw [h.depth, Nat.add_assoc]
  · have hout : s.Outside := by rwa [RunState.outside_iff, ← h.depth]
    rw [hbegin, if_pos hout]
    refine ⟨?_, fun hout' => absurd hout'.2 (List.cons_ne_nil _ _), fun _ => htidy, fun _ => ⟨?_, rfl⟩⟩
    · show 1 = s.active.length + (s.entering.length + 1)
      rw [hout.1, hout.2]
      rfl
    · exact hbytes.trans (congrArg Except.ok (by rw [h.outside hout]; rfl))
  · have hout : s.Outside := by rwa [RunState.outside_iff, ← h.depth]
    obtain rfl : n = 0 := by simpa using hwhole hdepth
    rw [hbegin]
    refine ⟨hdepth.symm.trans h.depth, fun _ => ?_, fun hin => absurd hout hin, fun hin => absurd hout hin⟩
    show s.storage.savedState.persistData ++ bytes.take 0 = []
    rw [h.outside hout]
    rfl

theorem SnapshotRun.beginReturn {s : RunState} (h : SnapshotRun s) {oid : Id} {result : Int}
    (hwhole : oid ∈ s.entering → result = 0) : SnapshotRun (s.beginReturn oid result) := by
  rcases s.beginReturn_cases oid result with hsame | ⟨hin, hlength, hreturn⟩
  · rwa [hsame]
  obtain rfl := hwhole hin
  have hinside : ¬ s.Outside := fun hout => List.ne_nil_of_mem hin hout.2
  rw [hreturn]
  refine ⟨?_, fun hout => absurd hout.1 (List.cons_ne_nil _ _), fun _ => h.tidy hinside, fun _ => h.inside hinside⟩
  show s.storage.savedState.depth = (s.active.length + 1) + (s.entering.erase oid).length
  rw [h.depth, ← hlength]
  omega

theorem SnapshotRun.finish {s : RunState} (h : SnapshotRun s) {client : Client σ} {restores : Prop} {as' : Storage}
    (hends : Ends client restores s.storage as') (oid : Id) : SnapshotRun (s.finish oid as') := by
  rcases s.finish_cases oid as' with hsame | ⟨hin, herase, hfinish⟩
  · rwa [hsame]
  have hinside : ¬ s.Outside := fun hout => List.ne_nil_of_mem hin hout.1
  have hlength : (s.active.erase oid).length + s.entering.length = s.storage.savedState.depth - 1 := by
    rw [h.depth, ← herase]
    omega
  rw [hfinish]
  rcases hends with ⟨hdepth, rfl⟩ | ⟨hdepth, hzero, hnil, -⟩
  · exact ⟨hlength.symm, fun hout => absurd (hlength.symm.trans (RunState.outside_iff.mp hout)) hdepth,
      fun _ => h.tidy hinside, fun _ => h.inside hinside⟩
  · have hout : RunState.Outside { s with
        storage := as', active := s.active.erase oid, brokenOff := s.brokenOff && decide (as'.savedState.depth ≠ 0) } :=
      RunState.outside_iff.mpr (hlength.trans hdepth)
    exact ⟨hzero.trans (hlength.trans hdepth).symm, fun _ => hnil, fun hin => absurd hout hin,
      fun hin => absurd hout hin⟩

/-- **Every such event keeps the depth and the snapshot.** -/
theorem step_snapshot {s : RunState} (h : SnapshotRun s) (htidy : Tidy ResourceEntry.Sane s.storage.objects)
    (event : Event σ) (hwhole : event.Whole s) : SnapshotRun (step event s) := by
  by_cases hplain : event.Plain
  · obtain ⟨as, hstep, hsaved, -⟩ := step_plain resourceRule_sane htidy hplain
      fun client stream _ => restoreInner_sane client stream
    rw [hstep]
    exact ⟨(congrArg SavedState.depth hsaved).trans h.depth,
      fun hout => (congrArg SavedState.persistData hsaved).trans (h.outside hout), h.tidy,
      fun hin => by rw [RunState.withStorage, hsaved]; exact h.inside hin⟩
  cases event with
  | beginCall oid taken => exact h.beginCall htidy oid hwhole
  | beginReturn oid result => exact h.beginReturn hwhole
  | commit client oid result => exact h.finish (transactionCommit_ends client result s.storage) oid
  | rollback client oid result => exact h.finish (transactionRollback_ends client result s.storage) oid
  | writeObject | writeInstance | writeResource | notify | purge | persist | restore => exact absurd trivial hplain

/-- The depth counts the Objects in the transaction, it is 0 outside of transactions, and a rollback of
    the last of them brings back the tree and the flag that the first of them found. -/
structure Transactional (s : RunState) : Prop where
  depth : s.entering = [] → s.storage.savedState.depth = s.active.length
  outside : s.Outside → s.storage.savedState.depth = 0
  rollback : ∀ {σ : Type} (client : Client σ) (oid : Id) (result : Int), s.active = [oid] → s.entering = [] →
    client.Lists → client.Holds s.snapshot.1 →
      (step (.rollback client oid result) s).storage.objects = s.snapshot.1 ∧
        (step (.rollback client oid result) s).storage.modifiedSincePersist = s.snapshot.2

theorem SnapshotRun.transactional {s : RunState} (h : SnapshotRun s) : Transactional s := by
  refine ⟨fun hentering => by rw [h.depth, hentering]; rfl,
    fun hout => h.depth.trans (RunState.outside_iff.mp hout), ?_⟩
  intro σ client oid result hactive hentering hc hh
  have hinside : ¬ s.Outside := fun hout => List.cons_ne_nil _ _ (hactive.symm.trans hout.1)
  obtain ⟨hstore, hmodified⟩ := h.inside hinside
  obtain ⟨bytes, hbytes, hne, hread⟩ := restoreObjects_persistInner (h.tidy hinside)
  obtain rfl : bytes = s.storage.savedState.persistData := Except.ok.inj (hbytes.symm.trans hstore)
  have hrestore := restoreInner_of_tidy hc hne hread (h.tidy hinside) hh
  have hdepth : s.storage.savedState.depth - 1 = 0 := by rw [h.depth, hactive, hentering]; rfl
  have hstep : (step (.rollback client oid result) s).storage = (transactionRollback client result s.storage).2 :=
    congrArg RunState.storage (if_neg (by rw [hactive, List.contains_iff_mem.mpr List.mem_cons_self]; exact nofun))
  rw [hstep]
  rcases transactionRollback_ends client result s.storage with ⟨hne, -⟩ | ⟨-, -, -, ⟨hnot, -⟩ | ⟨-, hobjects, hflag⟩⟩
  · exact absurd hdepth hne
  · exact absurd trivial hnot
  · exact ⟨hobjects.trans (by rw [hrestore]), (hflag (by rw [hrestore])).trans hmodified⟩

/-- **Where no begin handler fails, transactions keep the depth and roll back to the snapshot.** -/
theorem reachable_transactional {s : RunState} (h : ReachableWith (σ := σ) Event.Whole s) : Transactional s := by
  have hrun : SnapshotRun s := by
    induction h with
    | init => exact ⟨rfl, fun _ => rfl, fun hin => absurd ⟨rfl, rfl⟩ hin, fun hin => absurd ⟨rfl, rfl⟩ hin⟩
    | step event hbefore hc hs' ih => exact hs' ▸ step_snapshot ih (reachable_tidy hbefore) event hc
  exact hrun.transactional

/-! ## 6. A second Object that cannot begin -/

/-- Object 3 has attributes of server 1, that have been persisted; it is included in the transaction, and
    then gets attributes of server 2. -/
def deviceChanged : RunState :=
  step (σ := Unit) (.writeObject allocated 2 3 minPeriodTen) <| step (σ := Unit) (.beginReturn 3 0) <|
    step (σ := Unit) (.beginCall 3 none) <| step (σ := Unit) (.persist true) <|
      step (σ := Unit) (.writeObject allocated 1 3 minPeriodTen) .init

theorem reachable_deviceChanged {C : Event Unit → RunState → Prop}
    (hwrite : ∀ ssid s, C (.writeObject allocated ssid 3 minPeriodTen) s) (hpersist : ∀ s, C (.persist true) s)
    (hcall : ∀ s, C (.beginCall 3 none) s) (hreturn : ∀ s, C (.beginReturn 3 0) s) :
    ReachableWith C deviceChanged :=
  .step _ (.step _ (.step _ (.step _ (.step _ .init (hwrite 1 _) rfl) (hpersist _) rfl) (hcall _) rfl) (hreturn _) rfl)
    (hwrite 2 _) rfl

/-- Nothing is left of what the transaction did. -/
theorem reachable_transactional_device :
    (step (.rollback (clientWith [3]) 3 0) deviceChanged).storage.objects = deviceWith minPeriodTen := by
  have hreach : ReachableWith Event.Whole deviceChanged :=
    reachable_deviceChanged (fun _ _ => trivial) (fun _ => trivial) (fun _ _ => Or.inl rfl) fun _ _ => rfl
  have hsnapshot : deviceChanged.snapshot.1 = deviceWith minPeriodTen := by decide +kernel
  have hrollback := (reachable_transactional hreach).rollback (clientWith [3]) 3 0 (by decide +kernel)
    (by decide +kernel) (clientWith_sound [3]).toLists (hsnapshot ▸ clientWith_holds minPeriodTen)
  exact hrollback.1.trans hsnapshot

/-- Object 5 has no handlers for transactions; when its begin fails, the snapshot of Object 3 is lost. -/
theorem transactional_not_always : ∃ s, ReachableWith (σ := Unit) (fun _ _ => True) s ∧
    s.active = [3] ∧ s.entering = [] ∧ s.storage.savedState.depth = 2 ∧
    (clientWith [3]).Lists ∧ (clientWith [3]).Holds s.snapshot.1 ∧ s.snapshot = (deviceWith minPeriodTen, false) ∧
    (step (.rollback (clientWith [3]) 3 0) s).storage.objects = [⟨3, [⟨1, minPeriodTen⟩, ⟨2, minPeriodTen⟩], []⟩] ∧
    ¬ Transactional s := by
  obtain ⟨s, hs⟩ : ∃ s, s = step (σ := Unit) (.beginReturn 5 errMethodNotAllowed)
    (step (σ := Unit) (.beginCall 5 none) deviceChanged) := ⟨_, rfl⟩
  have hreach : ReachableWith (σ := Unit) (fun _ _ => True) s :=
    .step _ (.step _ (reachable_deviceChanged (fun _ _ => trivial) (fun _ => trivial) (fun _ => trivial)
      fun _ => trivial) trivial rfl) trivial hs.symm
  have hsnapshot : s.snapshot = (deviceWith minPeriodTen, false) := by
    rw [hs]
    decide +kernel
  have hactive : s.active = [3] := by
    rw [hs]
    decide +kernel
  have hentering : s.entering = [] := by
    rw [hs]
    decide +kernel
  have hdepth : s.storage.savedState.depth = 2 := by
    rw [hs]
    decide +kernel
  refine ⟨s, hreach, hactive, hentering, hdepth, (clientWith_sound [3]).toLists, ?_, hsnapshot, ?_, fun h => ?_⟩
  · rw [hsnapshot]
    exact clientWith_holds minPeriodTen
  · rw [hs]
    decide +kernel
  · have hone := h.depth hentering
    rw [hdepth, hactive] at hone
    cases hone

end Anjay.AttrStorage
