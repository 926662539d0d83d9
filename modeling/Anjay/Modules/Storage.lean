/-
  File:      Anjay/Modules/Storage.lean
  Subject:   The three Objects that an application saves: what their `is_modified` functions tell it, and what
             it gets back from `persist` and `restore`.

  * `unmodified_stored`: an Object that is not modified is as it was saved, in runs that keep the flags good;
    `unmodified_not_always`: not where it is saved, or purged, in the middle of a transaction.
  * `persisted_restored`: what a restore of the Security and of the Server Object gives; its order is that of the
    stream, which `restored_not_always` has descending.
-/
import Anjay.AccessControl.Runs
import Anjay.Security.Runs
import Anjay.Server.Runs

namespace Anjay.Ac

open Dm Lib

variable {σ : Type}

/-! ## 1. The Access Control Object as a journal -/

/-- The Object is saved in an open transaction only while the Instances are those of the snapshot. -/
def Event.KeepsFlag : Event σ → AccessControl → Prop
  | .persist failed, ac => failed = none → ac.inTransaction = true → ac.insts = ac.savedState.instances.map Node.inst
  | _, _ => True

/-- The Object as a journal; `stored` is what was persisted or restored last. -/
def AccessControl.journal (stored : List Instance) (ac : AccessControl) : Journal (List Instance) where
  current := ⟨ac.insts, ac.current.modifiedSincePersist⟩
  snapshot := if ac.inTransaction then some ⟨ac.savedState.instances.map Node.inst, ac.savedState.modifiedSincePersist⟩
    else none
  stored := stored

theorem snapshot_journal_closed {stored : List Instance} {ac : AccessControl} (h : ac.inTransaction = false) :
    (ac.journal stored).snapshot = none := if_neg fun h' => Bool.false_ne_true (h.symm.trans h')

theorem snapshot_journal_open {stored : List Instance} {ac : AccessControl} (h : ac.inTransaction = true) :
    (ac.journal stored).snapshot =
      some ⟨ac.savedState.instances.map Node.inst, ac.savedState.modifiedSincePersist⟩ := if_pos h

/-- Equal in all that a journal shows. -/
theorem journal_congr {stored : List Instance} {ac ac' : AccessControl} (hinsts : ac'.insts = ac.insts)
    (hmod : ac'.current.modifiedSincePersist = ac.current.modifiedSincePersist)
    (htrans : ac'.inTransaction = ac.inTransaction) (hsaved : ac.inTransaction = true → ac'.savedState = ac.savedState) :
    ac'.journal stored = ac.journal stored := by
  unfold AccessControl.journal
  rw [hinsts, hmod, htrans]
  cases hopen : ac.inTransaction with
  | false => rfl
  | true => rw [hsaved hopen]

theorem Touched.steps {stored : List Instance} {ac ac' : AccessControl} (h : Touched ac ac') :
    Journal.Steps (fun _ => True) (ac.journal stored) (ac'.journal stored) := by
  rcases h.marked with hm | ⟨hm, hinsts⟩
  · have hchanged : ac'.journal stored = { ac.journal stored with current := ⟨ac'.insts, true⟩ } := by
      unfold AccessControl.journal
      rw [hm, h.inTransaction, h.saved]
    rw [hchanged]
    exact (Journal.Step.change ac'.insts).steps
  · rw [journal_congr hinsts hm h.inTransaction fun _ => h.saved]

theorem storedAfter_persist_ok {failed : Option Errno} {ac ac' : AccessControl} {stored : Option (List Instance)}
    {bytes : List UInt8} (h : (accessControlPersist failed ac).1 = .ok bytes) :
    storedAfter (σ := σ) (.persist failed) ac ac' stored = some ac.toPersist := by
  rw [storedAfter, h]

theorem storedAfter_persist_error {failed : Option Errno} {ac ac' : AccessControl}
    {stored : Option (List Instance)} {err : AvsError} (h : (accessControlPersist failed ac).1 = .error err) :
    storedAfter (σ := σ) (.persist failed) ac ac' stored = stored := by
  rw [storedAfter, h]

theorem storedAfter_restore_ok {dm : DataModel σ} {stream : List UInt8} {ac ac' : AccessControl}
    {stored : Option (List Instance)} (h : (accessControlRestore dm stream ac).1 = .ok ()) :
    storedAfter (.restore dm stream) ac ac' stored = some ac'.insts := by
  rw [storedAfter, h]

theorem storedAfter_restore_error {dm : DataModel σ} {stream : List UInt8} {ac ac' : AccessControl}
    {stored : Option (List Instance)} {err : AvsError} (h : (accessControlRestore dm stream ac).1 = .error err) :
    storedAfter (.restore dm stream) ac ac' stored = stored := by
  rw [storedAfter, h]

/-- **Every event that keeps the flag good is a step of a journal.** -/
theorem perform_steps {event : Event σ} {ac ac' : AccessControl} {stored : Option (List Instance)}
    (hen : event.Enabled ac) (hc : event.KeepsFlag ac) (hstep : perform event ac = some ac') :
    Journal.Steps (fun _ => True) (ac.journal (stored.getD []))
      (ac'.journal ((storedAfter event ac ac' stored).getD [])) := by
  have hplain : event.Plain → storedAfter event ac ac' stored = stored →
      Journal.Steps (fun _ => True) (ac.journal (stored.getD []))
        (ac'.journal ((storedAfter event ac ac' stored).getD [])) := by
    intro hp hstored
    rw [hstored]
    exact (perform_touched hp hstep).steps
  cases event with
  | begin mem =>
      have hclosed : ac.inTransaction = false := hen
      show Journal.Steps _ _ (ac'.journal (stored.getD []))
      rcases transactionBegin_cases hstep with ⟨htrans, hcurrent⟩ | ⟨hopen, hcurrent, hsaved, hmod⟩
      · rw [journal_congr (congrArg (fun st : State => st.instances.map Node.inst) hcurrent)
          (congrArg State.modifiedSincePersist hcurrent) htrans fun hopen => nomatch hclosed.symm.trans hopen]
      · have hbegun : ac'.journal (stored.getD []) =
            { ac.journal (stored.getD []) with snapshot := some (ac.journal (stored.getD [])).current } := by
          unfold AccessControl.journal AccessControl.insts
          rw [hcurrent, if_pos hopen, hsaved, hmod]
          rfl
        rw [hbegun]
        exact (Journal.Step.begin (snapshot_journal_closed hclosed)).steps
  | commit =>
      obtain ⟨hclosed, hcurrent⟩ := transactionCommit_eq hstep
      have hcommitted : ac'.journal (stored.getD []) = { ac.journal (stored.getD []) with snapshot := none } := by
        unfold AccessControl.journal AccessControl.insts
        rw [hcurrent, hclosed]
        rfl
      show Journal.Steps _ _ (ac'.journal (stored.getD []))
      rw [hcommitted]
      exact (Journal.Step.commit trivial).steps
  | rollback =>
      obtain ⟨hopen, hclosed, hcurrent⟩ := transactionRollback_eq hstep
      have hback : ac'.journal (stored.getD []) = { ac.journal (stored.getD []) with
          current := ⟨ac.savedState.instances.map Node.inst, ac.savedState.modifiedSincePersist⟩, snapshot := none } := by
        unfold AccessControl.journal AccessControl.insts
        rw [hcurrent, hclosed]
        rfl
      show Journal.Steps _ _ (ac'.journal (stored.getD []))
      rw [hback]
      exact (Journal.Step.rollback (snapshot_journal_open hopen)).steps
  | persist failed =>
      cases hstep
      rcases accessControlPersist_cases failed ac with ⟨err, heq⟩ | ⟨bytes, heq⟩
      · rw [storedAfter_persist_error (congrArg Prod.fst heq), heq]
      · rw [storedAfter_persist_ok (congrArg Prod.fst heq), heq]
        have hfailed : failed = none := by
          cases failed with
          | none => rfl
          | some err => exact absurd (congrArg Prod.fst heq) nofun
        dsimp only [Option.getD_some]
        cases hopen : ac.inTransaction with
        | false =>
            have htoPersist : ac.toPersist = (ac.journal (stored.getD [])).current.value := by
              unfold AccessControl.toPersist
              rw [hopen]
              rfl
            rw [htoPersist]
            exact (Journal.Step.save (snapshot_journal_closed hopen)).steps
        | true =>
            have hsame : (ac.journal (stored.getD [])).current.value = ac.savedState.instances.map Node.inst :=
              hc hfailed hopen
            have htoPersist : ac.toPersist = ac.savedState.instances.map Node.inst := by
              unfold AccessControl.toPersist
              rw [hopen]
              rfl
            rw [htoPersist]
            exact (Journal.Step.saveOpen (snapshot_journal_open hopen) hsame).steps
  | restore dm stream =>
      cases hstep
      rcases accessControlRestore_cases dm stream ac with ⟨err, heq⟩ | ⟨hclosed, all, -, heq⟩
      · rw [storedAfter_restore_error (congrArg Prod.fst heq), heq]
      · rw [storedAfter_restore_ok (congrArg Prod.fst heq), heq]
        dsimp only [Option.getD_some]
        have hloaded : ∀ restored : AccessControl, restored.inTransaction = false →
            restored.current.modifiedSincePersist = false → restored.journal restored.insts =
              { ac.journal (stored.getD []) with current := ⟨restored.insts, false⟩, stored := restored.insts } := by
          intro restored hout hmod
          unfold AccessControl.journal
          rw [hout, hmod, hclosed]
          rfl
        rw [hloaded (ac.restored (all.filter fun inst => isObjectRegistered dm inst.target.oid)) hclosed rfl]
        exact (Journal.Step.load _ (snapshot_journal_closed hclosed)).steps
  | create => exact hplain trivial rfl
  | remove => exact hplain trivial rfl
  | reset => exact hplain trivial rfl
  | read => exact hplain trivial rfl
  | write => exact hplain trivial rfl
  | resourceReset => exact hplain trivial rfl
  | setAcl => exact hplain trivial rfl
  | purge => exact hplain trivial rfl
  | validate => exact hplain trivial rfl

/-- **What is not marked as modified was persisted or restored last**, in runs that keep the flag good. -/
theorem reachable_unmodified {s : RunState} (h : ReachableWith (σ := σ) Event.KeepsFlag s) :
    (s.ac.journal (s.stored.getD [])).Kept fun _ => True := by
  induction h with
  | init => exact ⟨nofun, fun _ => Or.inl rfl⟩
  | step event _ hen hc hstep ih => exact ih.steps (perform_steps hen hc hstep)

end Anjay.Ac

namespace Anjay.Modules

open Dm Lib Persistence

variable {σ : Type}

/-! ## 2. What is not modified is stored -/

/-- **In runs that keep the flags good, an Object that is not modified, outside a transaction, is as it was
    persisted or restored last**, or, if it never was, as it was installed. -/
theorem unmodified_stored :
    (∀ s : Sec.RunState, Sec.ReachableWith Sec.Event.KeepsFlag s → s.repr.inTransaction = false →
      s.repr.isModified = false → s.repr.instances = s.stored) ∧
    (∀ s : Serv.RunState, Serv.ReachableWith Serv.Event.KeepsFlag s → s.repr.inTransaction = false →
      s.repr.isModified = false → s.repr.instances = s.stored) ∧
    ∀ s : Ac.RunState, Ac.ReachableWith (σ := σ) Ac.Event.KeepsFlag s → s.ac.inTransaction = false →
      Ac.accessControlIsModified s.ac = false → s.ac.insts = s.stored.getD [] := by
  refine ⟨fun s hs => ?_, fun s hs => ?_, fun s hs hclosed hclean => ?_⟩
  · exact ObjectRepr.stored_of_kept (Sec.reachable_unmodified hs)
  · exact ObjectRepr.stored_of_kept (Serv.reachable_unmodified hs)
  · unfold Ac.accessControlIsModified at hclean
    rw [hclosed, if_neg Bool.false_ne_true] at hclean
    exact (Ac.reachable_unmodified hs).closed (Ac.snapshot_journal_closed hclosed) hclean

section Servers

/-- A server that can be registered with over UDP. -/
def udpServer (ssid : Id) : Serv.ServerInstance :=
  ⟨ssid, 60, 0, BitVec.ofInt 32 (-1), BitVec.ofInt 32 (-1), some (.ofBytes [85]), false⟩

/-- The Server Object with one Instance that has been persisted. -/
def persistedServer : Serv.RunState := ⟨⟨[Serv.newInstance (udpServer 1) 0], [], false, false, false⟩,
  [Serv.newInstance (udpServer 1) 0]⟩

theorem reachable_persistedServer {C : Serv.Event → Serv.ServerRepr → Prop}
    (hadd : C (.add true 1 (udpServer 1) idInvalid) .empty)
    (hpersist : C (.persist none) ⟨[Serv.newInstance (udpServer 1) 0], [], true, false, false⟩) :
    Serv.ReachableWith C persistedServer := by
  have hadded : Serv.ReachableWith C ⟨⟨[Serv.newInstance (udpServer 1) 0], [], true, false, false⟩, []⟩ :=
    .step (.add true 1 (udpServer 1) idInvalid) .init trivial hadd rfl
  have hvalid : Serv.Valid [Serv.newInstance (udpServer 1) 0] := Serv.objectValidate_length.mp rfl
  exact hadded.persisted hpersist hvalid (by decide)

/-- The Security Object with one Instance that has been persisted. -/
def persistedSecurity : Sec.RunState := ⟨⟨[Sec.newInstance true (Sec.nosecAccount 1) 0], [], false, false, false⟩,
  [Sec.newInstance true (Sec.nosecAccount 1) 0]⟩

theorem reachable_persistedSecurity : Sec.ReachableWith Sec.Event.KeepsFlag persistedSecurity := by
  have hadded : Sec.ReachableWith Sec.Event.KeepsFlag _ :=
    Sec.reachable_added 1 fun _ => ⟨0, fun _ h => absurd h List.not_mem_nil⟩
  have hvalid : Sec.Valid [Sec.newInstance true (Sec.nosecAccount 1) 0] := Sec.objectValidate_length.mp rfl
  refine hadded.persisted (fun _ => nofun) hvalid ?_ (by decide)
  exact List.forall_mem_singleton.mpr ⟨by decide, by decide, by decide, by decide⟩

theorem unmodified_stored_one : persistedSecurity.repr.instances = persistedSecurity.stored ∧
    persistedServer.repr.instances = persistedServer.stored ∧
    Ac.AccessControl.installed.insts = (some ([] : List Ac.Instance)).getD [] := by
  obtain ⟨hsecurity, hserver, haccess⟩ := unmodified_stored (σ := Unit)
  refine ⟨hsecurity persistedSecurity reachable_persistedSecurity rfl rfl,
    hserver persistedServer (reachable_persistedServer ?_ ?_) rfl rfl, ?_⟩
  · exact fun _ => ⟨0, fun _ h => absurd h List.not_mem_nil⟩
  · exact fun _ => nofun
  · exact haccess ⟨.installed, [], some []⟩ (.step (.persist none) .init trivial (fun _ => nofun) rfl) rfl rfl

/-- **An Object can be unmodified and not saved**: after it was saved in a transaction that had changed it, and
    that is committed; and after a purge in a transaction that is then rolled back. -/
theorem unmodified_not_always :
    (∃ s : Serv.RunState, Serv.ReachableWith (fun _ _ => True) s ∧ s.repr.inTransaction = false ∧
      s.repr.isModified = false ∧ s.repr.instances ≠ s.stored) ∧
    ∃ s : Serv.RunState, Serv.ReachableWith (fun _ _ => True) s ∧ s.repr.inTransaction = false ∧
      s.repr.isModified = false ∧ s.repr.instances = [] ∧ s.stored ≠ [] := by
  have hpersisted : Serv.ReachableWith (fun _ _ => True) persistedServer := reachable_persistedServer trivial trivial
  have hbegin := hpersisted.step (.begin true) rfl trivial rfl
  constructor
  · have hwrite := hbegin.step (.write 0 .lifetime ⟨.ok 30, .error errBadRequest, errBadRequest, .ofBytes []⟩) rfl
      trivial rfl
    have hvalid : Serv.Valid [Serv.newInstance (udpServer 1) 0] := Serv.objectValidate_length.mp rfl
    have hsaved := hwrite.persisted trivial hvalid (by decide)
    exact ⟨_, hsaved.step (.commit 1) ⟨rfl, rfl⟩ trivial rfl, rfl, rfl, by decide +kernel⟩
  · have hpurge := hbegin.step .purge trivial trivial rfl
    exact ⟨_, hpurge.step .rollback rfl trivial rfl, rfl, rfl, rfl, by decide +kernel⟩

end Servers

/-! ## 3. What is persisted is restored -/

/-- What persisting a state of an Object and restoring a stream over it promise, for the validation, the
    Instances that can be stored, the Resources that are, and the Instances that a stream holds. -/
structure Restores {ι : Type} (persist : ObjectRepr ι → Except AvsError (List UInt8) × ObjectRepr ι)
    (restore : List UInt8 → ObjectRepr ι → Except AvsError Unit × ObjectRepr ι) (validate : Nat → List ι → Int)
    (storable : ι → Prop) (view : ι → ι) (iid : ι → Id) (holds : List UInt8 → List ι → Prop)
    (stream : List UInt8) (repr : ObjectRepr ι) : Prop where
  persisted : validate repr.toPersist.length repr.toPersist = 0 →
    (∀ inst ∈ repr.toPersist, storable inst) → repr.toPersist.length < 2 ^ 32 →
      ∃ bytes, persist repr = (.ok bytes, repr.clearModified) ∧ ∀ repr' : ObjectRepr ι, repr'.inTransaction = false →
        (restore bytes repr').1 = .ok () ∧ (restore bytes repr').2.instances = repr.toPersist.map view
  failed : ∀ err, (restore stream repr).1 = .error err → (restore stream repr).2 = repr
  restored : (restore stream repr).1 = .ok () →
    validate (restore stream repr).2.instances.length (restore stream repr).2.instances = 0 ∧
    (Sorted iid (restore stream repr).2.instances ↔ ∀ insts, holds stream insts → Sorted iid insts)

/-- **What is persisted is restored**, but for the SMS Resources of the Security Object; a restore that fails
    changes nothing; one that succeeds gives Instances that pass, in the order of the stream. -/
theorem persisted_restored (stream : List UInt8) (sec : Sec.SecRepr) (serv : Serv.ServerRepr) :
    Restores (Sec.securityObjectPersist none) Sec.securityObjectRestore Sec.objectValidate Sec.Instance.Storable
      Sec.Instance.withoutSms Sec.Instance.iid Sec.StreamHolds stream sec ∧
    Restores (Serv.serverObjectPersist none) Serv.serverObjectRestore Serv.objectValidate (fun _ => True) id
      Serv.Instance.iid Serv.StreamHolds stream serv := by
  constructor
  · refine ⟨fun hvalid hstorable hlength => ?_, fun err herr => ?_, fun hok => ?_⟩
    · obtain ⟨bytes, hpersist, hrestore⟩ :=
        Sec.securityObjectPersist_restore (Sec.objectValidate_length.mp hvalid) hstorable hlength
      exact ⟨bytes, hpersist, fun repr' hout => by rw [hrestore repr' hout]; exact ⟨rfl, rfl⟩⟩
    · rcases Sec.securityObjectRestore_cases stream sec with ⟨_, h⟩ | ⟨-, _, -, -, h⟩
      · rw [h]
      · rw [h] at herr
        cases herr
    · rcases Sec.securityObjectRestore_cases stream sec with ⟨_, h⟩ | ⟨-, insts, hholds, hvalid, h⟩
      · rw [h] at hok
        cases hok
      · rw [h]
        refine ⟨Sec.objectValidate_length.mpr hvalid, fun hs insts' hholds' => ?_, fun hs => hs insts hholds⟩
        rw [Except.ok.inj (hholds'.symm.trans hholds)]
        exact hs
  · refine ⟨fun hvalid _ hlength => ?_, fun err herr => ?_, fun hok => ?_⟩
    · obtain ⟨bytes, hpersist, hrestore⟩ :=
        Serv.serverObjectPersist_restore (Serv.objectValidate_length.mp hvalid) hlength
      refine ⟨bytes, hpersist, fun repr' hout => ?_⟩
      rw [hrestore repr' hout, List.map_id]
      exact ⟨rfl, rfl⟩
    · rcases Serv.serverObjectRestore_cases stream serv with ⟨_, h⟩ | ⟨-, _, -, -, h⟩
      · rw [h]
      · rw [h] at herr
        cases herr
    · rcases Serv.serverObjectRestore_cases stream serv with ⟨_, h⟩ | ⟨-, insts, hholds, hvalid, h⟩
      · rw [h] at hok
        cases hok
      · rw [h]
        refine ⟨Serv.objectValidate_length.mpr hvalid, fun hs insts' hholds' => ?_, fun hs => hs insts hholds⟩
        rw [Except.ok.inj (hholds'.symm.trans hholds)]
        exact hs

theorem persisted_restored_one : ∃ bytes, Serv.serverObjectPersist none persistedServer.repr = (.ok bytes, persistedServer.repr) ∧
    (Serv.serverObjectRestore bytes .empty).1 = .ok () ∧
    (Serv.serverObjectRestore bytes .empty).2.instances = [Serv.newInstance (udpServer 1) 0] := by
  obtain ⟨bytes, hpersist, hrestore⟩ := (persisted_restored [] .empty persistedServer.repr).2.persisted rfl
    (fun _ _ => trivial) (by decide)
  exact ⟨bytes, hpersist, hrestore .empty rfl⟩

/-- **A stream can hold Instances in any order**: here those of two servers without security, at "coap". -/
theorem restored_not_always :
    let stream : List UInt8 := [83, 69, 67, 0, 0, 0, 0, 2,
      0, 1, 1, 1, 1, 0, 0, 1, 0, 0, 0, 0, 0, 0, 0, 0, 0, 3, 0, 0, 0, 5, 99, 111, 97, 112, 0, 0, 0, 0, 0, 0, 0, 0, 0, 0, 0, 0, 0,
      0, 0, 1, 1, 1, 0, 0, 2, 0, 0, 0, 0, 0, 0, 0, 0, 0, 3, 0, 0, 0, 5, 99, 111, 97, 112, 0, 0, 0, 0, 0, 0, 0, 0, 0, 0, 0, 0, 0]
    (Sec.securityObjectRestore stream .empty).1 = .ok () ∧
    (Sec.securityObjectRestore stream .empty).2.instances.map Sec.Instance.iid = [1, 0] := by
  constructor <;> decide +kernel

end Anjay.Modules
