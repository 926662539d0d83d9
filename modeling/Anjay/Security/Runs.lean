/-
  File:      Anjay/Security/Runs.lean
  Subject:   The Security Object over whole runs: transactions of writes, creations, resets and removals, API
             calls, and what is persisted and restored, in any order.

  * `reachable_trusted`: outside a transaction the Instances are configured, at most one is a bootstrap server,
    and the others have SSIDs of their own, in runs in which none of them is given 0 or 65535;
    `trusted_not_always`: both can be had.
  * `reachable_unmodified`: what is not marked as modified is what was persisted or restored last, in runs whose
    events meet `Event.KeepsFlag`.
-/
import Anjay.Modules.Saving
import Anjay.Security.Persistence
import Anjay.Dm.Query

namespace Anjay.Sec

open Dm Modules Lib Persistence

/-! ## 1. Runs -/

/-- What happens to the Object. -/
inductive Event
  | create (mem : Bool) (iid : Id)
  | remove (iid : Id)
  | reset (iid : Id)
  | write (iid : Id) (rid : SecurityResource) (input : Input)
  | add (mem numberMem : Bool) (pairMem : Nat) (inst : SecurityInstance) (iid : Id)
  | purge
  | begin (alloc : Nat → CloneAlloc)
  | commit (pairMem : Nat)
  | rollback
  | persist (failed : Option Errno)
  | restore (stream : List UInt8)

/-- The state after an event; there is none where an assertion fails. -/
def perform : Event → SecRepr → Option SecRepr
  | .create mem iid, repr => (secInstanceCreate mem iid repr).map Prod.snd
  | .remove iid, repr => (deleteInstance iid repr).map Prod.snd
  | .reset iid, repr => (secInstanceReset iid repr).map Prod.snd
  | .write iid rid input, repr => (secWrite iid rid input repr).map Prod.snd
  | .add mem numberMem pairMem inst iid, repr =>
      (securityObjectAddInstance mem numberMem pairMem inst iid repr).map Prod.snd
  | .purge, repr => some repr.purge
  | .begin alloc, repr => (secTransactionBegin alloc repr).map Prod.snd
  | .commit _, repr => repr.transactionCommit.map Prod.snd
  | .rollback, repr => repr.transactionRollback.map Prod.snd
  | .persist failed, repr => some (securityObjectPersist failed repr).2
  | .restore stream, repr => some (securityObjectRestore stream repr).2

/-- The handlers that change Instances are called in a transaction only, and it is committed after it has
    passed the validation. -/
def Event.Enabled : Event → SecRepr → Prop
  | .create _ _, repr | .remove _, repr | .reset _, repr | .write _ _ _, repr | .rollback, repr =>
      repr.inTransaction = true
  | .begin _, repr => repr.inTransaction = false
  | .commit pairMem, repr => repr.inTransaction = true ∧ objectValidate pairMem repr.instances = 0
  | _, _ => True

/-- The Object, and the Instances that were persisted or restored last. -/
structure RunState where
  repr : SecRepr
  stored : List Instance

def RunState.init : RunState := ⟨.empty, []⟩

/-- What is remembered as persisted or restored. -/
def storedAfter : Event → SecRepr → SecRepr → List Instance → List Instance
  | .persist failed, repr, _, stored =>
      match (securityObjectPersist failed repr).1 with
      | .ok _ => repr.toPersist
      | .error _ => stored
  | .restore stream, repr, repr', stored =>
      match (securityObjectRestore stream repr).1 with
      | .ok _ => repr'.instances
      | .error _ => stored
  | _, _, _, stored => stored

/-- The states of the runs whose events meet the condition `C`. -/
inductive ReachableWith (C : Event → SecRepr → Prop) : RunState → Prop
  | init : ReachableWith C .init
  | step {s : RunState} {repr' : SecRepr} (event : Event) (h : ReachableWith C s) (hen : event.Enabled s.repr)
      (hc : C event s.repr) (hstep : perform event s.repr = some repr') :
      ReachableWith C ⟨repr', storedAfter event s.repr repr' s.stored⟩

/-- The Object is persisted. -/
theorem ReachableWith.persisted {C : Event → SecRepr → Prop} {s : RunState} (h : ReachableWith C s)
    (hc : C (.persist none) s.repr) (hvalid : Valid s.repr.toPersist)
    (hstorable : ∀ inst ∈ s.repr.toPersist, inst.Storable) (hlength : s.repr.toPersist.length < 2 ^ 32) :
    ReachableWith C ⟨s.repr.clearModified, s.repr.toPersist⟩ := by
  obtain ⟨bytes, hpersist, -⟩ := securityObjectPersist_restore hvalid hstorable hlength
  have hstored : storedAfter (.persist none) s.repr s.repr.clearModified s.stored = s.repr.toPersist := by
    show (match (securityObjectPersist none s.repr).1 with
      | .ok _ => s.repr.toPersist
      | .error _ => s.stored) = _
    rw [hpersist]
  have hstep : perform (.persist none) s.repr = some s.repr.clearModified := by
    show some (securityObjectPersist none s.repr).2 = _
    rw [hpersist]
  have hpersisted := h.step (.persist none) trivial hc hstep
  rw [hstored] at hpersisted
  exact hpersisted

/-! ## 2. Trusted Instances -/

/-- A Short Server ID that stands for neither "any" nor the bootstrap server. -/
def InRange (ssid : Id) : Prop := 1 ≤ ssid.val ∧ ssid.val ≤ 65534

/-- An Instance that is no bootstrap server has an SSID in range, if it has one. -/
def Instance.Safe (inst : Instance) : Prop := inst.isBootstrap = true ∨ inst.hasSsid = false ∨ InRange inst.ssid

/-- What the servers can be told apart by, and trusted for. -/
structure Trusted (insts : List Instance) : Prop where
  bootstrap : insts.Pairwise fun a b => ¬ (a.isBootstrap = true ∧ b.isBootstrap = true)
  ssid : ∀ inst ∈ insts, inst.isBootstrap = false → inst.hasSsid = true ∧ InRange inst.ssid
  distinct : insts.Pairwise fun a b => a.isBootstrap = false → b.isBootstrap = false → a.pair ≠ b.pair
  configured : ∀ inst ∈ insts, inst.Configured

theorem trusted_of_valid {insts : List Instance} (h : Valid insts) (hsafe : ∀ inst ∈ insts, inst.Safe) : Trusted insts := by
  have hconfigured : ∀ inst ∈ insts, inst.Configured :=
    fun inst hinst => configured_of_validateInstance (h.instances inst hinst)
  refine ⟨h.bootstrap, fun inst hinst hboot => ?_, ?_, hconfigured⟩
  · have hhas := (hconfigured inst hinst).ssid hboot
    rcases hsafe inst hinst with hb | hno | hrange
    · exact nomatch hboot.symm.trans hb
    · exact nomatch hhas.symm.trans hno
    · exact ⟨hhas, hrange⟩
  · have hdistinct := List.pairwise_filter.mp (List.pairwise_map.mp h.distinct)
    refine hdistinct.imp fun hab ha hb => hab ?_ ?_
    · rw [ha]
      rfl
    · rw [hb]
      rfl

/-- Instances that pass together pass when some are left out. -/
theorem Valid.sublist {insts insts' : List Instance} (h : Valid insts) (hsub : insts'.Sublist insts) : Valid insts' :=
  ⟨fun inst hinst => h.instances inst (hsub.subset hinst), h.bootstrap.sublist hsub,
    h.distinct.sublist ((hsub.filter _).map Instance.pair)⟩

theorem valid_nil : Valid [] := ⟨fun _ h => absurd h List.not_mem_nil, List.Pairwise.nil, List.nodup_nil⟩

/-! ## 3. What the functions do to single Instances -/

theorem fetchChecked_safe {α : Type} {value : Except Int α} {validate : α → Int} {set : α → Instance → Instance}
    {inst : Instance} (h : inst.Safe) (hset : ∀ a, value = .ok a → validate a = 0 → (set a inst).Safe) :
    (fetchChecked value validate set inst).2.Safe := by
  unfold fetchChecked
  split
  · exact h
  next a =>
    split
    next hv => exact hset a rfl hv
    · exact h

theorem fetchReplaced_safe {α : Type} {value : Except Int α} {clear : Instance → Instance}
    {set : α → Instance → Instance} {inst : Instance} (hclear : (clear inst).Safe) (hset : ∀ a, (set a inst).Safe) :
    (fetchReplaced value clear set inst).2.Safe := by
  unfold fetchReplaced
  split
  · exact hclear
  next a => exact hset a

/-- The write gives no Instance that is no bootstrap server the SSID 65535, and does not turn a bootstrap
    server with such an SSID, or with 0, into another one. -/
def WriteInRange (rid : SecurityResource) (input : Input) (inst : Instance) : Prop :=
  (rid = .shortServerId → ∀ n, input.i32 = .ok n → n.toInt = 65535 → inst.isBootstrap = true) ∧
  (rid = .bootstrapServer → input.bool = .ok false → inst.hasSsid = false ∨ InRange inst.ssid)

theorem writeResource_safe {rid : SecurityResource} {input : Input} {inst : Instance} (h : inst.Safe)
    (hc : WriteInRange rid input inst) : (writeResource rid input inst).2.Safe := by
  cases rid with
  | shortServerId =>
      refine fetchChecked_safe h fun n hn hvalid => ?_
      by_cases hboot : n.toInt = 65535
      · exact Or.inl (hc.1 rfl n hn hboot)
      · refine Or.inr (Or.inr ?_)
        have hrange : 0 < n.toInt ∧ n.toInt ≤ 65535 := by
          by_contra hnot
          unfold validateShortServerId at hvalid
          rw [if_neg hnot] at hvalid
          cases hvalid
        have hval : (Fin.ofNat 65536 n.toInt.toNat : Id).val = n.toInt.toNat := Nat.mod_eq_of_lt (by omega)
        show 1 ≤ (Fin.ofNat 65536 n.toInt.toNat : Id).val ∧ (Fin.ofNat 65536 n.toInt.toNat : Id).val ≤ 65534
        omega
  | bootstrapServer =>
      refine fetchChecked_safe h fun b hb _ => ?_
      cases b with
      | true => exact Or.inl rfl
      | false => exact Or.inr (hc.2 rfl hb)
  | securityMode => exact fetchChecked_safe h fun _ _ _ => h
  | clientHoldOffTime => exact fetchChecked_safe h fun _ _ _ => h
  | bootstrapTimeout => exact fetchChecked_safe h fun _ _ _ => h
  | smsSecurityMode => exact fetchChecked_safe h fun _ _ _ => h
  | lwm2mServerUri => exact fetchReplaced_safe h fun _ => h
  | pkOrIdentity => exact fetchReplaced_safe h fun _ => h
  | serverPk => exact fetchReplaced_safe h fun _ => h
  | secretKey => exact fetchReplaced_safe h fun _ => h
  | smsBindingKeyParams => exact fetchReplaced_safe h fun _ => h
  | smsBindingSecretKeys => exact fetchReplaced_safe h fun _ => h
  | serverSmsNumber => exact fetchReplaced_safe h fun _ => h

/-- Nothing comes behind the field that could not be copied. -/
def Instance.Spared (inst : Instance) (failed : SecField) : Prop := ∀ f ∈ failed.after, inst.holds f = false

/-- Where a field cannot be copied, the clean-up frees nothing that is in use. -/
def Spares (alloc : Nat → CloneAlloc) : Nat → List Instance → Prop
  | _, [] => True
  | n, inst :: insts =>
      match alloc n with
      | .noField failed _ => inst.Spared failed
      | _ => Spares alloc (n + 1) insts

theorem Instance.Spared.release_eq {inst : Instance} {failed : SecField} (h : inst.Spared failed) (junk : Instance) :
    inst.release failed junk = inst := by
  have hnone : failed.after.filter inst.holds = [] :=
    List.filter_eq_nil_iff.mpr fun f hf hholds => Bool.false_ne_true ((h f hf).symm.trans hholds)
  unfold Instance.release
  rw [hnone]
  rfl

/-- The Instances are what they were, if the copy is not given up or its clean-up spares them. -/
theorem cloneInstances_live {alloc : Nat → CloneAlloc} {n : Nat} {insts live : List Instance}
    {copy : Option (List Instance)} (h : cloneInstances alloc n insts = some (copy, live)) :
    live.length = insts.length ∧ (copy ≠ none ∨ Spares alloc n insts → live = insts) := by
  induction insts generalizing n copy live with
  | nil =>
      rw [← (Prod.mk.inj (Option.some.inj h)).2]
      exact ⟨rfl, fun _ => rfl⟩
  | cons inst insts ih =>
      unfold cloneInstances at h
      unfold Spares
      split at h
      next hno =>
        obtain ⟨⟨copy', live'⟩, hrest, heq⟩ := Option.map_eq_some_iff.mp h
        obtain ⟨rfl, rfl⟩ := Prod.mk.inj heq
        obtain ⟨hlength, hlive⟩ := ih hrest
        rw [hno]
        exact ⟨congrArg Nat.succ hlength, fun hor => congrArg (inst :: ·) (hlive hor)⟩
      next failed junk hfield =>
        split at h
        · cases h
        obtain ⟨rfl, rfl⟩ := Prod.mk.inj (Option.some.inj h)
        rw [hfield]
        exact ⟨rfl, fun hor => congrArg (· :: insts) ((hor.resolve_left fun hne => hne rfl).release_eq junk)⟩
      next hall =>
        split at h
        · cases h
        obtain ⟨⟨copy', live'⟩, hrest, heq⟩ := Option.map_eq_some_iff.mp h
        obtain ⟨rfl, rfl⟩ := Prod.mk.inj heq
        obtain ⟨hlength, hlive⟩ := ih hrest
        rw [hall]
        refine ⟨congrArg Nat.succ hlength, fun hor => congrArg (inst :: ·) (hlive (hor.imp_left fun hne hnone => hne ?_))⟩
        show copy'.map (inst :: ·) = none
        rw [hnone]
        rfl

/-- What is copied is some of the Instances; all, if every list element can be allocated. -/
theorem cloneInstances_spec {alloc : Nat → CloneAlloc} {n : Nat} {insts cloned live : List Instance}
    (h : cloneInstances alloc n insts = some (some cloned, live)) :
    cloned.Sublist insts ∧ ((∀ k, k < insts.length → alloc (n + k) ≠ .noElement) → cloned = insts) := by
  induction insts generalizing n cloned live with
  | nil =>
      rw [← Option.some.inj (Prod.mk.inj (Option.some.inj h)).1]
      exact ⟨List.Sublist.refl [], fun _ => rfl⟩
  | cons inst insts ih =>
      unfold cloneInstances at h
      split at h
      next hno =>
        obtain ⟨⟨copy, live'⟩, hrest, heq⟩ := Option.map_eq_some_iff.mp h
        obtain ⟨rfl, -⟩ := Prod.mk.inj heq
        obtain ⟨hsub, -⟩ := ih hrest
        exact ⟨hsub.cons inst, fun hall => absurd hno (hall 0 (Nat.succ_pos _))⟩
      · split at h
        · cases h
        · cases h
      · split at h
        · cases h
        obtain ⟨⟨copy, live'⟩, hrest, heq⟩ := Option.map_eq_some_iff.mp h
        obtain ⟨rest, rfl, rfl⟩ := Option.map_eq_some_iff.mp (Prod.mk.inj heq).1
        obtain ⟨hsub, hwhole⟩ := ih hrest
        refine ⟨hsub.cons_cons inst, fun hall => congrArg (inst :: ·) (hwhole fun k hk => ?_)⟩
        have hk' := hall (k + 1) (Nat.succ_lt_succ hk)
        rw [Nat.add_assoc, Nat.add_comm 1 k]
        exact hk'

/-- The ways a begin can go that succeeds or spares the Instances. -/
theorem secTransactionBegin_cases {alloc : Nat → CloneAlloc} {repr : SecRepr} {r : Int × SecRepr}
    (h : secTransactionBegin alloc repr = some r) (hspares : r.1 = 0 ∨ Spares alloc 0 repr.instances) :
    repr.transactionBegin [] = some r ∨
      ∃ cloned, cloneInstances alloc 0 repr.instances = some (some cloned, repr.instances) ∧
        repr.transactionBegin cloned = some r := by
  unfold secTransactionBegin at h
  split at h
  · cases h
  next copy live hcopy =>
    obtain ⟨hlength, hlive⟩ := cloneInstances_live hcopy
    cases copy with
    | some cloned =>
        have hsame : live = repr.instances := hlive (Or.inl (Option.some_ne_none cloned))
        rw [hsame] at h hcopy
        exact Or.inr ⟨cloned, hcopy, h⟩
    | none =>
        have hsame : live = repr.instances := by
          rcases hspares with hok | hspares
          · -- a begin succeeds with an empty copy only if there are no Instances
            have hbegun : (repr.setInstances live).transactionBegin [] = some (0, r.2) := by
              rw [← hok]
              exact h
            have hnil : live = [] := (ObjectRepr.begin_saved hbegun).2 rfl
            rw [hnil] at hlength ⊢
            exact (List.length_eq_zero_iff.mp hlength.symm).symm
          · exact hlive (Or.inr hspares)
        rw [hsame] at h
        exact Or.inl h

/-! ## 4. Trusted in every run -/

/-- No Instance that is no bootstrap server is given the SSID 0 or 65535, an Instance is added without an id only
    while some id is free, and no begin frees what the Instances hold. -/
def Event.InRange : Event → SecRepr → Prop
  | .write iid rid input, repr =>
      ∀ inst, findInstance Instance.iid iid repr.instances = some inst → WriteInRange rid input inst
  | .add _ _ _ inst iid, repr =>
      (iid = idInvalid → SomeFree Instance.iid repr.instances) ∧ (inst.bootstrapServer = false → Sec.InRange inst.ssid)
  | .restore stream, _ => ∀ insts, StreamHolds stream insts → ∀ inst ∈ insts, inst.Safe
  | .begin alloc, repr => Spares alloc 0 repr.instances
  | _, _ => True

/-- The Instances that are or were outside a transaction pass, and all are safe. -/
structure Guarded (repr : SecRepr) : Prop where
  closed : repr.inTransaction = false → Valid repr.instances
  opened : repr.inTransaction = true → Valid repr.savedInstances
  safe : ∀ inst ∈ repr.instances, inst.Safe
  savedSafe : ∀ inst ∈ repr.savedInstances, inst.Safe

/-- A change within a transaction. -/
theorem Guarded.changed {repr : SecRepr} (h : Guarded repr) (hopen : repr.inTransaction = true) {insts : List Instance}
    (hsafe : ∀ inst ∈ insts, inst.Safe) : Guarded (repr.setInstances insts) :=
  ⟨fun hclosed => absurd (hopen.symm.trans hclosed) Bool.noConfusion, h.opened, hsafe, h.savedSafe⟩

theorem Guarded.markModified {repr : SecRepr} (h : Guarded repr) : Guarded repr.markModified :=
  ⟨h.closed, h.opened, h.safe, h.savedSafe⟩

theorem Guarded.clearModified {repr : SecRepr} (h : Guarded repr) : Guarded repr.clearModified :=
  ⟨h.closed, h.opened, h.safe, h.savedSafe⟩

theorem safe_initInstance (iid : Id) : (initInstance iid).Safe := Or.inr (Or.inl rfl)

theorem transactionBegin_guarded {cloned : List Instance} {repr : SecRepr} {r : Int × SecRepr} (h : Guarded repr)
    (hclosed : repr.inTransaction = false) (hsub : cloned.Sublist repr.instances)
    (hr : repr.transactionBegin cloned = some r) : Guarded r.2 := by
  unfold ObjectRepr.transactionBegin at hr
  split at hr
  · cases hr
  split at hr
  · cases hr
    exact h
  · cases hr
    exact ⟨nofun, fun _ => (h.closed hclosed).sublist hsub, h.safe, fun inst hinst => h.safe inst (hsub.subset hinst)⟩

/-- **Every event in range keeps the Object guarded.** -/
theorem perform_guarded {event : Event} {repr repr' : SecRepr} (h : Guarded repr) (hen : event.Enabled repr)
    (hc : event.InRange repr) (hstep : perform event repr = some repr') : Guarded repr' := by
  cases event with
  | create mem iid =>
      obtain ⟨r, hr, rfl⟩ := Option.map_eq_some_iff.mp hstep
      unfold secInstanceCreate at hr
      split at hr
      · cases hr
      split at hr
      · cases hr
        exact h
      · cases hr
        refine (h.changed hen fun inst hinst => ?_).markModified
        rcases mem_insertInstance.mp hinst with rfl | hinst
        · exact safe_initInstance iid
        · exact h.safe inst hinst
  | remove iid =>
      obtain ⟨r, hr, rfl⟩ := Option.map_eq_some_iff.mp hstep
      obtain ⟨insts, hinsts, rfl⟩ := Option.map_eq_some_iff.mp hr
      exact (h.changed hen fun inst hinst => h.safe inst ((delInstance_sublist hinsts).subset hinst)).markModified
  | reset iid =>
      obtain ⟨r, hr, rfl⟩ := Option.map_eq_some_iff.mp hstep
      obtain ⟨old, -, rfl⟩ := Option.map_eq_some_iff.mp hr
      refine h.changed hen fun inst hinst => ?_
      rcases mem_modifyInstance hinst with hinst | ⟨_, -, rfl⟩
      · exact h.safe inst hinst
      · exact safe_initInstance iid
  | write iid rid input =>
      obtain ⟨r, hr, rfl⟩ := Option.map_eq_some_iff.mp hstep
      obtain ⟨_, -, rfl⟩ := Option.map_eq_some_iff.mp hr
      refine (h.changed hen fun inst hinst => ?_).markModified
      rcases mem_modifyInstance hinst with hinst | ⟨old, hold, rfl⟩
      · exact h.safe inst hinst
      · exact writeResource_safe (h.safe old (findInstance_some hold).1) (hc old hold)
  | add mem numberMem pairMem inst iid =>
      obtain ⟨r, hr, rfl⟩ := Option.map_eq_some_iff.mp hstep
      rcases securityObjectAddInstance_cases hc.1 hr with heq | ⟨new, -, hnew, heq, hvalid⟩
      · rw [heq]
        exact h
      · have hsafe : ∀ a ∈ insertInstance Instance.iid new repr.instances, a.Safe := by
          intro a ha
          rcases mem_insertInstance.mp ha with rfl | ha
          · rw [hnew]
            cases hboot : inst.bootstrapServer with
            | true => exact Or.inl hboot
            | false =>
                have hssid : (newInstance numberMem inst a.iid).ssid = inst.ssid :=
                  if_neg fun h => Bool.false_ne_true (hboot.symm.trans h)
                refine Or.inr (Or.inr ?_)
                rw [hssid]
                exact hc.2 hboot
          · exact h.safe a ha
        have hall := (objectValidate_eq_zero_iff.mp hvalid).1
        rw [heq] at hall ⊢
        exact ⟨fun _ => hall, h.opened, hsafe, h.savedSafe⟩
  | purge =>
      cases hstep
      exact ⟨fun _ => valid_nil, fun _ => valid_nil, fun _ h => absurd h List.not_mem_nil,
        fun _ h => absurd h List.not_mem_nil⟩
  | begin alloc =>
      obtain ⟨r, hr, rfl⟩ := Option.map_eq_some_iff.mp hstep
      rcases secTransactionBegin_cases hr (Or.inr hc) with hr | ⟨cloned, hcloned, hr⟩
      · exact transactionBegin_guarded h hen (List.nil_sublist _) hr
      · exact transactionBegin_guarded h hen (cloneInstances_spec hcloned).1 hr
  | commit pairMem =>
      obtain ⟨r, hr, rfl⟩ := Option.map_eq_some_iff.mp hstep
      unfold ObjectRepr.transactionCommit at hr
      rw [if_pos hen.1] at hr
      cases hr
      exact ⟨fun _ => (objectValidate_eq_zero_iff.mp hen.2).1, nofun, h.safe, fun _ h => absurd h List.not_mem_nil⟩
  | rollback =>
      obtain ⟨r, hr, rfl⟩ := Option.map_eq_some_iff.mp hstep
      have hopen : repr.inTransaction = true := hen
      unfold ObjectRepr.transactionRollback at hr
      rw [if_pos hopen] at hr
      cases hr
      exact ⟨fun _ => h.opened hopen, nofun, h.savedSafe, fun _ h => absurd h List.not_mem_nil⟩
  | persist failed =>
      cases hstep
      rcases securityObjectPersist_cases failed repr with ⟨err, heq⟩ | ⟨-, bytes, heq⟩
      · rw [heq]
        exact h
      · rw [heq]
        exact h.clearModified
  | restore stream =>
      cases hstep
      rcases securityObjectRestore_cases stream repr with ⟨err, heq⟩ | ⟨-, insts, hholds, hvalid, heq⟩
      · rw [heq]
        exact h
      · rw [heq]
        exact ⟨fun _ => hvalid, h.opened, hc insts hholds, h.savedSafe⟩

/-- **In every run whose events are in range, the Instances outside a transaction can be trusted.** -/
theorem reachable_trusted {s : RunState} (h : ReachableWith Event.InRange s) (hclosed : s.repr.inTransaction = false) :
    Trusted s.repr.instances := by
  have hguarded : Guarded s.repr := by
    clear hclosed
    induction h with
    | init => exact ⟨fun _ => valid_nil, nofun, fun _ h => absurd h List.not_mem_nil, fun _ h => absurd h List.not_mem_nil⟩
    | step event _ hen hc hstep ih => exact perform_guarded ih hen hc hstep
  exact trusted_of_valid (hguarded.closed hclosed) hguarded.safe

section Accounts

/-- An account for a server at "coap:", without security. -/
def nosecAccount (ssid : Id) : SecurityInstance :=
  ⟨ssid, some (.ofBytes [99, 111, 97, 112, 58]), false, securityNosec, 0, 0, [], [], [], smsSecurityNosec, none, none,
    none⟩

/-- The Object with that account. -/
theorem reachable_added {C : Event → SecRepr → Prop} (ssid : Id)
    (hC : C (.add true true 1 (nosecAccount ssid) idInvalid) .empty) :
    ReachableWith C ⟨⟨[newInstance true (nosecAccount ssid) 0], [], true, false, false⟩, []⟩ :=
  .step (.add true true 1 (nosecAccount ssid) idInvalid) .init trivial hC rfl

/-- The run goes on with a begin that cannot copy the URI, behind which the account holds nothing. -/
theorem reachable_trusted_one : ∃ s : RunState, ReachableWith Event.InRange s ∧
    s.repr.instances = [newInstance true (nosecAccount 1) 0] ∧ Trusted s.repr.instances := by
  have hadded : ReachableWith Event.InRange _ := reachable_added 1 ⟨fun _ => ⟨0, fun _ h => absurd h List.not_mem_nil⟩,
    fun _ => ⟨le_refl 1, by decide⟩⟩
  have hspared : (newInstance true (nosecAccount 1) 0).Spared .serverUri := by
    unfold Instance.Spared
    decide
  have hs := hadded.step (.begin fun _ => .noField .serverUri (initInstance 0)) rfl hspared rfl
  exact ⟨_, hs, rfl, reachable_trusted hs rfl⟩

def Input.ofI32 (n : BitVec 32) : Input := ⟨.ok n, .error errBadRequest, .error errBadRequest, .error errBadRequest⟩

/-- The account as it is written in a transaction. -/
theorem reachable_written : ∃ s : RunState, ReachableWith (fun _ _ => True) s ∧ s.repr.inTransaction = false ∧
    s.repr.instances = [{ initInstance 0 with
      serverUri := some (.ofBytes [99, 111, 97, 112, 58]), hasIsBootstrap := true, hasSecurityMode := true
      securityMode := securityNosec, ssid := 65535, hasSsid := true }] := by
  have hbegin : ReachableWith (fun _ _ => True) _ := .step (.begin fun _ => .all) .init rfl trivial rfl
  have hcreate := hbegin.step (.create true 0) rfl trivial rfl
  have huri := hcreate.step (.write 0 .lwm2mServerUri
    ⟨.error errBadRequest, .error errBadRequest, .ok (.ofBytes [99, 111, 97, 112, 58]), .error errBadRequest⟩) rfl trivial rfl
  have hbootstrap := huri.step (.write 0 .bootstrapServer
    ⟨.error errBadRequest, .ok false, .error errBadRequest, .error errBadRequest⟩) rfl trivial rfl
  have hmode := hbootstrap.step (.write 0 .securityMode (.ofI32 3)) rfl trivial rfl
  have hssid := hmode.step (.write 0 .shortServerId (.ofI32 65535)) rfl trivial rfl
  exact ⟨_, hssid.step (.commit 1) ⟨rfl, rfl⟩ trivial rfl, rfl, rfl⟩

/-- **A server that is no bootstrap server can have the SSID 65535**, which is written and committed, and 0,
    which is given to `anjay_security_object_add_instance`. -/
theorem trusted_not_always :
    (∃ s : RunState, ReachableWith (fun _ _ => True) s ∧ s.repr.inTransaction = false ∧
      ∃ inst ∈ s.repr.instances, inst.isBootstrap = false ∧ inst.ssid = ssidBootstrap) ∧
    ∃ s : RunState, ReachableWith (fun _ _ => True) s ∧ s.repr.inTransaction = false ∧
      ∃ inst ∈ s.repr.instances, inst.isBootstrap = false ∧ inst.ssid = ssidAny := by
  constructor
  · obtain ⟨s, hs, hclosed, hinsts⟩ := reachable_written
    refine ⟨s, hs, hclosed, _, by rw [hinsts]; exact List.mem_singleton_self _, rfl, rfl⟩
  · exact ⟨_, reachable_added 0 trivial, rfl, _, List.mem_singleton_self _, rfl, rfl⟩

end Accounts

/-! ## 5. Saved in every run -/

/-- What keeps the flag good: a begin that has memory for every list element and frees nothing that the Instances
    hold; in an open transaction, no purge that throws away a snapshot whose flag is not set, and no saving while the
    Instances differ from the snapshot; and an Instance is added without an id only while some id is free. -/
def Event.KeepsFlag : Event → SecRepr → Prop
  | .begin alloc, repr =>
      (∀ n, n < repr.instances.length → alloc n ≠ .noElement) ∧ Spares alloc 0 repr.instances
  | .purge, repr => repr.inTransaction = true → repr.savedInstances = [] ∨ repr.savedModifiedSincePersist = true
  | .persist failed, repr => failed = none → repr.inTransaction = true → repr.instances = repr.savedInstances
  | .add _ _ _ _ iid, repr => iid = idInvalid → SomeFree Instance.iid repr.instances
  | _, _ => True

/-- **Every event that keeps the flag good is a step of a journal.** -/
theorem perform_steps {event : Event} {repr repr' : SecRepr} (stored : List Instance) (hen : event.Enabled repr)
    (hc : event.KeepsFlag repr) (hstep : perform event repr = some repr') :
    Journal.Steps Valid (repr.journal stored) (repr'.journal (storedAfter event repr repr' stored)) := by
  cases event with
  | create mem iid =>
      obtain ⟨r, hr, rfl⟩ := Option.map_eq_some_iff.mp hstep
      unfold secInstanceCreate at hr
      split at hr
      · cases hr
      split at hr
      · cases hr
        exact Relation.ReflTransGen.refl
      · cases hr
        exact ObjectRepr.markModified_steps stored _ repr
  | remove iid =>
      obtain ⟨r, hr, rfl⟩ := Option.map_eq_some_iff.mp hstep
      obtain ⟨insts, -, rfl⟩ := Option.map_eq_some_iff.mp hr
      exact ObjectRepr.markModified_steps stored insts repr
  | reset iid =>
      obtain ⟨r, hr, rfl⟩ := Option.map_eq_some_iff.mp hstep
      obtain ⟨old, hold, rfl⟩ := Option.map_eq_some_iff.mp hr
      -- the Instance that has been reset does not pass
      refine ObjectRepr.setInstances_steps hen fun hvalid => validateInstance_initInstance iid ?_
      exact hvalid.instances _ (modifyInstance_mem (f := fun _ => initInstance iid) hold)
  | write iid rid input =>
      obtain ⟨r, hr, rfl⟩ := Option.map_eq_some_iff.mp hstep
      obtain ⟨_, -, rfl⟩ := Option.map_eq_some_iff.mp hr
      exact ObjectRepr.markModified_steps stored _ repr
  | add mem numberMem pairMem inst iid =>
      obtain ⟨r, hr, rfl⟩ := Option.map_eq_some_iff.mp hstep
      rcases securityObjectAddInstance_cases hc hr with heq | ⟨new, -, -, heq, -⟩
      · rw [heq]
        exact Relation.ReflTransGen.refl
      · rw [heq]
        exact ObjectRepr.markModified_steps stored _ repr
  | purge =>
      cases hstep
      exact ObjectRepr.purge_steps hc
  | begin alloc =>
      obtain ⟨r, hr, rfl⟩ := Option.map_eq_some_iff.mp hstep
      rcases secTransactionBegin_cases hr (Or.inr hc.2) with hr | ⟨cloned, hcloned, hr⟩
      · exact ObjectRepr.transactionBegin_nil_steps hen hr
      · have hall := (cloneInstances_spec hcloned).2 fun k hk => by rw [Nat.zero_add]; exact hc.1 k hk
        rw [hall] at hr
        exact ObjectRepr.transactionBegin_steps hen hr
  | commit pairMem =>
      obtain ⟨r, hr, rfl⟩ := Option.map_eq_some_iff.mp hstep
      exact ObjectRepr.transactionCommit_steps (objectValidate_eq_zero_iff.mp hen.2).1 hr
  | rollback =>
      obtain ⟨r, hr, rfl⟩ := Option.map_eq_some_iff.mp hstep
      exact ObjectRepr.transactionRollback_steps hr
  | persist failed =>
      cases hstep
      show Journal.Steps Valid _ (ObjectRepr.journal (match (securityObjectPersist failed repr).1 with
        | .ok _ => repr.toPersist
        | .error _ => stored) _)
      rcases securityObjectPersist_cases failed repr with ⟨err, heq⟩ | ⟨hfailed, bytes, heq⟩
      · rw [heq]
      · rw [heq]
        exact ObjectRepr.clearModified_steps (hc hfailed)
  | restore stream =>
      cases hstep
      show Journal.Steps Valid _ (ObjectRepr.journal (match (securityObjectRestore stream repr).1 with
        | .ok _ => (securityObjectRestore stream repr).2.instances
        | .error _ => stored) _)
      rcases securityObjectRestore_cases stream repr with ⟨err, heq⟩ | ⟨hclosed, insts, -, -, heq⟩
      · rw [heq]
      · rw [heq]
        exact ObjectRepr.restored_steps hclosed

/-- **What is not marked as modified was persisted or restored last**, in runs that keep the flag good. -/
theorem reachable_unmodified {s : RunState} (h : ReachableWith Event.KeepsFlag s) : (s.repr.journal s.stored).Kept Valid := by
  induction h with
  | init => exact ObjectRepr.kept_empty
  | step event _ hen hc hstep ih => exact ih.steps (perform_steps _ hen hc hstep)

end Anjay.Sec
