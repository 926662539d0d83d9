/-
  File:      Anjay/AccessControl/Persistence.lean
  Subject:   Saving the Access Control Object to a stream and restoring it
             (`anjay_access_control_persistence.c`). Allocations succeed.

  * `accessControlRestore_cases`: a restore changes nothing, or puts in the registered ones of the Instances
    in the stream.
  * `restore_persist`: what is persisted is restored, less the Instances whose target Object is not
    registered, up to 65535 of them.
-/
import Anjay.AccessControl.Object
import Anjay.Commons.Persistence

namespace Anjay.Ac

open Dm Lib Persistence

variable {σ : Type}

/-! ## 1. The handlers -/

/-- `handle_acl_entry`. -/
def handleAclEntry : Handler AclEntry :=
  andThen (onField AclEntry.mask (fun mask e => { e with mask := mask }) persistenceU16)
    (onField AclEntry.ssid (fun ssid e => { e with ssid := ssid }) persistenceU16)

/-- `handle_acl`. -/
def handleAcl : Handler Instance := fun ctx inst => do
  let (ctx, hasAcl) ← persistenceBool ctx inst.hasAcl
  if hasAcl then
    let (ctx, acl) ← persistenceList ⟨0, 0⟩ handleAclEntry ctx inst.acl
    return (ctx, { inst with hasAcl := hasAcl, acl := acl })
  else return (ctx, { inst with hasAcl := hasAcl })

/-- `persist_instance`, which only ever stores. -/
def persistInstance : Handler Instance := fun ctx inst =>
  match inst.target.iid with
  | none => .error (.errno .EINVAL)
  | some targetIid => do
      let (ctx, _) ← persistenceU16 ctx inst.target.oid
      let (ctx, _) ← persistenceU16 ctx inst.iid
      let (ctx, _) ← persistenceU16 ctx targetIid
      let (ctx, _) ← persistenceU16 ctx inst.owner
      handleAcl ctx inst

/-- `is_object_registered`. -/
def isObjectRegistered (dm : DataModel σ) (oid : Id) : Bool :=
  decide (oid ≠ oidSecurity) && (dm.findObject oid).isSome

/-- An Instance that `memset` has cleared, of this Object. -/
def Instance.cleared (oid : Id) : Instance := ⟨0, ⟨oid, some 0⟩, 0, false, []⟩

/-- `restore_instance`. -/
def restoreInstance (inst : Instance) (ctx : Context) : Except AvsError (Context × Instance) := do
  let (ctx, iid) ← persistenceU16 ctx inst.iid
  let (ctx, targetIid) ← persistenceU16 ctx 0
  let (ctx, owner) ← persistenceU16 ctx inst.owner
  let (ctx, inst) ← handleAcl ctx { inst with iid := iid, owner := owner }
  return (ctx, { inst with target := { inst.target with iid := some targetIid } })

/-- The loop of `restore_instances`; `keep` says which Objects are registered. -/
def restoreElements (keep : Id → Bool) : Context → Nat → Except AvsError (List Instance)
  | _, 0 => .ok []
  | ctx, count + 1 => do
      let (ctx, oid) ← persistenceU16 ctx 0
      let (ctx, inst) ← restoreInstance (.cleared oid) ctx
      let insts ← restoreElements keep ctx count
      return if keep inst.target.oid then inst :: insts else insts

/-- `restore_instances`. -/
def restoreInstances (keep : Id → Bool) (input : List UInt8) : Except AvsError (List Instance) := do
  let (ctx, count) ← persistenceU32 (.restore input) 0
  if 65535 < count.toNat then .error (.errno .EBADMSG) else restoreElements keep ctx count.toNat

/-- `MAGIC`, which is "ACO\1". -/
def magic : List UInt8 := [65, 67, 79, 1]

/-- The list that is persisted: that from before the transaction, if there is one. -/
def AccessControl.toPersist (ac : AccessControl) : List Instance :=
  (if ac.inTransaction then ac.savedState.instances else ac.current.instances).map Node.inst

/-- `anjay_access_control_persist`: the bytes that are written, or the error; `failed` is the error of the
    stream, if it has one. -/
def accessControlPersist (failed : Option Errno) (ac : AccessControl) :
    Except AvsError (List UInt8) × AccessControl :=
  match failed, persistenceList (.cleared 0) persistInstance (.store magic) ac.toPersist with
  | some err, _ => (.error (.errno err), ac)
  | none, .ok (.store written, _) => (.ok written, ac.clearModified)
  | none, .ok (.restore _, _) => (.error (.errno .EBADF), ac)
  | none, .error err => (.error err, ac)

/-- List elements at the addresses from `addr` on. -/
def place : Nat → List Instance → List Node
  | _, [] => []
  | addr, inst :: insts => ⟨addr, inst⟩ :: place (addr + 1) insts

/-- What is read of the magic constant and after it. -/
def readInstances (keep : Id → Bool) (stream : List UInt8) : Except AvsError (List Instance) := do
  let (header, input) ← streamReadReliably magic.length stream
  if header = magic then restoreInstances keep input else .error (.errno .EBADMSG)

/-- The end of `restore`, where the new Instances take the place of the old ones, and what follows it. -/
def AccessControl.restored (ac : AccessControl) (insts : List Instance) : AccessControl :=
  { ac with
    current := ⟨place ac.nextAddr insts, false⟩
    lastAccessedInstance := none
    nextAddr := ac.nextAddr + insts.length }

/-- `anjay_access_control_restore`. -/
def accessControlRestore (dm : DataModel σ) (stream : List UInt8) (ac : AccessControl) :
    Except AvsError Unit × AccessControl :=
  if ac.inTransaction then (.error (.errno .EBADF), ac)
  else
    match readInstances (isObjectRegistered dm) stream with
    | .error err => (.error err, ac)
    | .ok insts => (.ok (), ac.restored insts)

/-! ## 2. What a restore does -/

theorem map_inst_place : ∀ (addr : Nat) (insts : List Instance), (place addr insts).map Node.inst = insts
  | _, [] => rfl
  | addr, inst :: insts => congrArg (inst :: ·) (map_inst_place (addr + 1) insts)

theorem mem_place {n : Node} : ∀ {addr : Nat} {insts : List Instance}, n ∈ place addr insts →
    addr ≤ n.addr ∧ n.addr < addr + insts.length ∧ n.inst ∈ insts
  | _, [], h => absurd h List.not_mem_nil
  | addr, inst :: insts, h => by
      rcases List.mem_cons.mp h with rfl | h
      · exact ⟨le_refl _, Nat.lt_add_of_pos_right (Nat.succ_pos _), List.mem_cons_self⟩
      · obtain ⟨hle, hlt, hmem⟩ := mem_place h
        refine ⟨by omega, ?_, List.mem_cons_of_mem _ hmem⟩
        rw [List.length_cons]
        omega

theorem nodup_place : ∀ (addr : Nat) (insts : List Instance), ((place addr insts).map Node.addr).Nodup
  | _, [] => List.nodup_nil
  | addr, inst :: insts => by
      refine List.nodup_cons.mpr ⟨fun h => ?_, nodup_place (addr + 1) insts⟩
      obtain ⟨n, hn, heq⟩ := List.mem_map.mp h
      have := (mem_place hn).1
      have haddr : n.addr = addr := heq
      omega

theorem restoreElements_filter (keep : Id → Bool) : ∀ (count : Nat) (ctx : Context),
    restoreElements keep ctx count =
      (restoreElements (fun _ => true) ctx count).map (List.filter fun inst => keep inst.target.oid)
  | 0, _ => rfl
  | count + 1, ctx => by
      unfold restoreElements
      cases persistenceU16 ctx 0 with
      | error err => rfl
      | ok r =>
      show (restoreInstance (.cleared r.2) r.1 >>= fun r' => _) = (restoreInstance (.cleared r.2) r.1 >>= fun r' => _).map _
      cases restoreInstance (.cleared r.2) r.1 with
      | error err => rfl
      | ok r' =>
      show (restoreElements keep r'.1 count >>= fun insts => _) =
        (restoreElements (fun _ => true) r'.1 count >>= fun insts => _).map _
      rw [restoreElements_filter keep count r'.1]
      cases restoreElements (fun _ => true) r'.1 count with
      | error err => rfl
      | ok insts =>
          show Except.ok (if keep r'.2.target.oid then r'.2 :: _ else _) = Except.ok ((r'.2 :: insts).filter _)
          rw [List.filter_cons]

/-- An ACL is read only where the ACL Resource is there. -/
theorem handleAcl_absent {ctx : Context} {inst : Instance} (hinst : inst.acl = []) {r : Context × Instance}
    (h : handleAcl ctx inst = .ok r) : r.2.hasAcl = false → r.2.acl = [] := by
  unfold handleAcl at h
  obtain ⟨⟨ctx₁, hasAcl⟩, -, h⟩ := bind_eq_ok.mp h
  dsimp only at h
  split at h
  next htrue =>
    obtain ⟨⟨ctx₂, acl⟩, -, h⟩ := bind_eq_ok.mp h
    cases h
    intro hfalse
    have habs : hasAcl = false := hfalse
    rw [htrue] at habs
    cases habs
  · cases h
    exact fun _ => hinst

theorem restoreInstance_absent {ctx : Context} {oid : Id} {r : Context × Instance}
    (h : restoreInstance (.cleared oid) ctx = .ok r) : r.2.hasAcl = false → r.2.acl = [] := by
  unfold restoreInstance at h
  obtain ⟨_, -, h⟩ := bind_eq_ok.mp h
  obtain ⟨_, -, h⟩ := bind_eq_ok.mp h
  obtain ⟨_, -, h⟩ := bind_eq_ok.mp h
  obtain ⟨r', hacl, h⟩ := bind_eq_ok.mp h
  have habsent := handleAcl_absent (show Instance.acl _ = [] from rfl) hacl
  cases h
  exact habsent

theorem restoreElements_absent {keep : Id → Bool} : ∀ {count : Nat} {ctx : Context} {insts : List Instance},
    restoreElements keep ctx count = .ok insts → ∀ inst ∈ insts, inst.hasAcl = false → inst.acl = []
  | 0, _, _, h => by
      cases h
      exact fun _ h => absurd h List.not_mem_nil
  | count + 1, ctx, insts, h => by
      unfold restoreElements at h
      obtain ⟨_, -, h⟩ := bind_eq_ok.mp h
      obtain ⟨r, hinst, h⟩ := bind_eq_ok.mp h
      obtain ⟨rest, hrest, h⟩ := bind_eq_ok.mp h
      have hhead := restoreInstance_absent hinst
      have htail := restoreElements_absent hrest
      cases h
      split
      · exact List.forall_mem_cons.mpr ⟨hhead, htail⟩
      · exact htail

/-- The Instances that are in a stream. -/
def StreamHolds (stream : List UInt8) (insts : List Instance) : Prop :=
  readInstances (fun _ => true) stream = .ok insts

theorem StreamHolds.absent {stream : List UInt8} {insts : List Instance} (h : StreamHolds stream insts) :
    ∀ inst ∈ insts, inst.hasAcl = false → inst.acl = [] := by
  unfold StreamHolds readInstances at h
  obtain ⟨⟨header, input⟩, -, h⟩ := bind_eq_ok.mp h
  dsimp only at h
  split at h
  · unfold restoreInstances at h
    obtain ⟨⟨ctx, count⟩, -, h⟩ := bind_eq_ok.mp h
    dsimp only at h
    split at h
    · cases h
    · exact restoreElements_absent h
  · cases h

/-- **What is restored are the registered ones of the Instances in the stream.** -/
theorem readInstances_eq_ok {keep : Id → Bool} {stream : List UInt8} {insts : List Instance} :
    readInstances keep stream = .ok insts ↔
      ∃ all, StreamHolds stream all ∧ insts = all.filter fun inst => keep inst.target.oid := by
  have hmap : readInstances keep stream =
      (readInstances (fun _ => true) stream).map (List.filter fun inst => keep inst.target.oid) := by
    unfold readInstances
    cases streamReadReliably magic.length stream with
    | error err => rfl
    | ok r =>
    show (if r.1 = magic then restoreInstances keep r.2 else _) =
      (if r.1 = magic then restoreInstances (fun _ => true) r.2 else _).map _
    split
    · unfold restoreInstances
      cases persistenceU32 (.restore r.2) 0 with
      | error err => rfl
      | ok r' =>
      show (if 65535 < r'.2.toNat then _ else restoreElements keep r'.1 r'.2.toNat) =
        (if 65535 < r'.2.toNat then _ else restoreElements (fun _ => true) r'.1 r'.2.toNat).map _
      split
      · rfl
      · exact restoreElements_filter keep _ _
    · rfl
  rw [hmap]
  unfold StreamHolds
  cases readInstances (fun _ => true) stream with
  | error err => exact ⟨nofun, fun ⟨_, h, _⟩ => nomatch h⟩
  | ok all =>
      constructor
      · intro h
        exact ⟨all, rfl, (Except.ok.inj h).symm⟩
      · rintro ⟨all', h, rfl⟩
        rw [Except.ok.inj h]
        rfl

/-- **A restore fails and changes nothing**, or it puts in the registered ones of the Instances in the
    stream. -/
theorem accessControlRestore_cases (dm : DataModel σ) (stream : List UInt8) (ac : AccessControl) :
    (∃ err, accessControlRestore dm stream ac = (.error err, ac)) ∨
    ac.inTransaction = false ∧ ∃ all, StreamHolds stream all ∧ accessControlRestore dm stream ac =
      (.ok (), ac.restored (all.filter fun inst => isObjectRegistered dm inst.target.oid)) := by
  unfold accessControlRestore
  split
  · exact Or.inl ⟨_, rfl⟩
  next htrans =>
  split
  next err _ => exact Or.inl ⟨err, rfl⟩
  next insts hread =>
  obtain ⟨all, hall, rfl⟩ := readInstances_eq_ok.mp hread
  exact Or.inr ⟨Bool.eq_false_of_not_eq_true htrans, all, hall, rfl⟩

/-! ## 3. What is persisted is restored -/

/-- An Instance of which all that there is is stored: it has a target, and its ACL is stored if there is
    anything in it. -/
structure Instance.Storable (inst : Instance) : Prop where
  targeted : inst.target.iid ≠ none
  absent : inst.hasAcl = false → inst.acl = []
  length : inst.acl.length < 2 ^ 32

theorem transfers_aclEntry (e new : AclEntry) : ∃ bytes, Transfers handleAclEntry e e new e bytes := by
  have hmask : Transfers (onField AclEntry.mask (fun mask e => { e with mask := mask }) persistenceU16) e e
      new ⟨e.mask, new.ssid⟩ (beBytes 2 e.mask.val) := Transfers.onField (transfers_u16 e.mask new.mask)
  have hssid : Transfers (onField AclEntry.ssid (fun ssid e => { e with ssid := ssid }) persistenceU16) e e
      ⟨e.mask, new.ssid⟩ e (beBytes 2 e.ssid.val) := Transfers.onField (transfers_u16 e.ssid new.ssid)
  exact ⟨_, hmask.andThen hssid⟩

/-- The ACL of an Instance is stored, and restored into one that has none yet. -/
theorem handleAcl_transfers {inst : Instance} (h : inst.Storable) : ∃ bytes,
    (∀ written, ∃ r, handleAcl (.store written) inst = .ok (.store (written ++ bytes), r)) ∧
    ∀ (new : Instance) rest, new.acl = [] → handleAcl (.restore (bytes ++ rest)) new =
      .ok (.restore rest, { new with hasAcl := inst.hasAcl, acl := inst.acl }) := by
  have hbool := transfers_bool inst.hasAcl
  cases hacl : inst.hasAcl with
  | false =>
      rw [hacl] at hbool
      refine ⟨beBytes 1 false.toNat, fun written => ⟨inst, ?_⟩, fun new rest hnew => ?_⟩
      · unfold handleAcl
        rw [hacl, (hbool false).store]
        show Except.ok (Context.store _, { inst with hasAcl := false }) = _
        rw [← hacl]
      · unfold handleAcl
        rw [(hbool new.hasAcl).restore]
        show Except.ok (Context.restore rest, { new with hasAcl := false }) = _
        rw [h.absent hacl, ← hnew]
  | true =>
      rw [hacl] at hbool
      have hentries : ∃ acl' bytes, Transfers (persistenceList ⟨0, 0⟩ handleAclEntry) inst.acl acl' []
          (inst.acl.map id) bytes := transfers_list ⟨0, 0⟩ (fun e _ => ⟨e, transfers_aclEntry e ⟨0, 0⟩⟩) h.length
      obtain ⟨acl', bytes, hlist⟩ := hentries
      rw [List.map_id] at hlist
      refine ⟨beBytes 1 true.toNat ++ bytes, fun written => ⟨{ inst with hasAcl := true, acl := acl' }, ?_⟩,
        fun new rest hnew => ?_⟩
      · unfold handleAcl
        rw [hacl, (hbool true).store]
        show (persistenceList ⟨0, 0⟩ handleAclEntry (.store _) inst.acl >>= fun r => _) = _
        rw [hlist.store, List.append_assoc]
        rfl
      · unfold handleAcl
        rw [List.append_assoc, (hbool new.hasAcl).restore]
        show (persistenceList ⟨0, 0⟩ handleAclEntry (.restore (bytes ++ rest)) new.acl >>= fun r => _) = _
        rw [hnew, hlist.restore]
        rfl

/-- Up to the ACL, the fields are read one after the other. -/
theorem restoreInstance_eq (oid iid targetIid owner : Id) (input : List UInt8) :
    restoreInstance (.cleared oid) (.restore (beBytes 2 iid.val ++ (beBytes 2 targetIid.val ++
      (beBytes 2 owner.val ++ input)))) =
    (handleAcl (.restore input) ⟨iid, ⟨oid, some 0⟩, owner, false, []⟩ >>= fun r =>
      .ok (r.1, { r.2 with target := { r.2.target with iid := some targetIid } })) := by
  unfold restoreInstance
  rw [(transfers_u16 iid _).restore]
  dsimp only [bind, Except.bind]
  rw [(transfers_u16 targetIid _).restore]
  dsimp only
  rw [(transfers_u16 owner _).restore]
  rfl

/-- **An Instance is read as it was stored.** -/
theorem persistInstance_transfers {inst : Instance} (h : inst.Storable) : ∃ bytes,
    (∀ written, ∃ r, persistInstance (.store written) inst = .ok (.store (written ++ bytes), r)) ∧
    ∀ keep rest count, restoreElements keep (.restore (bytes ++ rest)) (count + 1) =
      (restoreElements keep (.restore rest) count).map fun insts =>
        if keep inst.target.oid then inst :: insts else insts := by
  obtain ⟨aclBytes, hstore, hrestore⟩ := handleAcl_transfers h
  obtain ⟨iid, ⟨oid, target⟩, owner, hasAcl, acl⟩ := inst
  cases target with
  | none => exact absurd rfl h.targeted
  | some targetIid =>
  refine ⟨beBytes 2 oid.val ++ (beBytes 2 iid.val ++ (beBytes 2 targetIid.val ++ (beBytes 2 owner.val ++ aclBytes))),
    fun written => ?_, fun keep rest count => ?_⟩
  · obtain ⟨r, hr⟩ := hstore (written ++ beBytes 2 oid.val ++ beBytes 2 iid.val ++ beBytes 2 targetIid.val ++
      beBytes 2 owner.val)
    refine ⟨r, ?_⟩
    have happend : written ++ (beBytes 2 oid.val ++ (beBytes 2 iid.val ++ (beBytes 2 targetIid.val ++
        (beBytes 2 owner.val ++ aclBytes)))) = written ++ beBytes 2 oid.val ++ beBytes 2 iid.val ++
          beBytes 2 targetIid.val ++ beBytes 2 owner.val ++ aclBytes := by
      simp only [List.append_assoc]
    rw [happend, ← hr]
    rfl
  · have hread : restoreElements keep (.restore ((beBytes 2 oid.val ++ (beBytes 2 iid.val ++ (beBytes 2 targetIid.val ++
        (beBytes 2 owner.val ++ aclBytes)))) ++ rest)) (count + 1) =
        (handleAcl (.restore (aclBytes ++ rest)) ⟨iid, ⟨oid, some 0⟩, owner, false, []⟩ >>= fun r =>
          restoreElements keep r.1 count >>= fun insts => return if keep r.2.target.oid then
            { r.2 with target := { r.2.target with iid := some targetIid } } :: insts else insts) := by
      simp only [List.append_assoc]
      rw [restoreElements, (transfers_u16 oid 0).restore]
      show (restoreInstance (.cleared oid) _ >>= fun r => _) = _
      rw [restoreInstance_eq]
      cases handleAcl (.restore (aclBytes ++ rest)) ⟨iid, ⟨oid, some 0⟩, owner, false, []⟩ with
      | error err => rfl
      | ok r => rfl
    rw [hread, hrestore _ rest rfl]
    show (restoreElements keep (.restore rest) count >>= fun insts => _) = _
    cases restoreElements keep (.restore rest) count with
    | error err => rfl
    | ok insts => rfl

/-- The elements of a list, one after the other. -/
theorem storeElements_transfers (keep : Id → Bool) : ∀ {insts : List Instance}, (∀ inst ∈ insts, inst.Storable) →
    ∃ bytes, (∀ written, ∃ r, storeElements persistInstance (.store written) insts = .ok (.store (written ++ bytes), r)) ∧
      ∀ rest, restoreElements keep (.restore (bytes ++ rest)) insts.length =
        .ok (insts.filter fun inst => keep inst.target.oid)
  | [], _ => ⟨[], fun written => ⟨[], by rw [storeElements, List.append_nil]⟩, fun _ => rfl⟩
  | inst :: insts, h => by
      obtain ⟨hinst, hinsts⟩ := List.forall_mem_cons.mp h
      obtain ⟨bytes, hstore, hrestore⟩ := persistInstance_transfers hinst
      obtain ⟨bytes', hstore', hrestore'⟩ := storeElements_transfers keep hinsts
      refine ⟨bytes ++ bytes', fun written => ?_, fun rest => ?_⟩
      · obtain ⟨r, hr⟩ := hstore written
        obtain ⟨rs, hrs⟩ := hstore' (written ++ bytes)
        refine ⟨r :: rs, ?_⟩
        rw [storeElements, hr]
        show (storeElements persistInstance (.store (written ++ bytes)) insts >>= fun r => _) = _
        rw [hrs, List.append_assoc]
        rfl
      · rw [List.length_cons, List.append_assoc, hrestore, hrestore']
        show Except.ok (if keep inst.target.oid then inst :: _ else _) = _
        rw [List.filter_cons]

theorem readInstances_magic (keep : Id → Bool) (input : List UInt8) :
    readInstances keep (magic ++ input) = restoreInstances keep input := by
  have hheader : streamReadReliably magic.length (magic ++ input) = .ok (magic, input) :=
    streamReadReliably_append rfl input
  unfold readInstances
  rw [hheader]
  show (if magic = magic then restoreInstances keep input else .error (.errno .EBADMSG)) = _
  rw [if_pos rfl]

/-- What is persisted, and what the loop of the restore is then given. -/
theorem accessControlPersist_transfers (keep : Id → Bool) (ac : AccessControl)
    (h : ∀ inst ∈ ac.toPersist, inst.Storable) (hlength : ac.toPersist.length < 2 ^ 32) :
    ∃ bytes, accessControlPersist none ac = (.ok bytes, ac.clearModified) ∧ ∀ rest,
      readInstances keep (bytes ++ rest) = if 65535 < ac.toPersist.length then .error (.errno .EBADMSG)
        else .ok (ac.toPersist.filter fun inst => keep inst.target.oid) := by
  obtain ⟨bytes, hstore, hrestore⟩ := storeElements_transfers keep h
  have hu32 := transfers_u32 (BitVec.ofNat 32 ac.toPersist.length) 0
  have hcount : (BitVec.ofNat 32 ac.toPersist.length).toNat = ac.toPersist.length := by
    rw [BitVec.toNat_ofNat, Nat.mod_eq_of_lt hlength]
  refine ⟨magic ++ beBytes 4 (BitVec.ofNat 32 ac.toPersist.length).toNat ++ bytes, ?_, fun rest => ?_⟩
  · obtain ⟨r, hr⟩ := hstore (magic ++ beBytes 4 (BitVec.ofNat 32 ac.toPersist.length).toNat)
    have hlist : persistenceList (.cleared 0) persistInstance (.store magic) ac.toPersist =
        .ok (.store (magic ++ beBytes 4 (BitVec.ofNat 32 ac.toPersist.length).toNat ++ bytes), r) := by
      rw [persistenceList, if_neg (Nat.not_le.mpr hlength), hu32.store]
      exact hr
    unfold accessControlPersist
    rw [hlist]
  · rw [List.append_assoc, List.append_assoc, readInstances_magic, restoreInstances, hu32.restore]
    dsimp only [bind, Except.bind]
    rw [hcount, hrestore]

/-- **What is persisted is restored**: the same list, less the Instances whose target Object is not
    registered; and a restore that fails leaves everything as it was. -/
theorem restore_persist (dm : DataModel σ) (ac : AccessControl) (hstorable : ∀ inst ∈ ac.toPersist, inst.Storable)
    (hlength : ac.toPersist.length ≤ 65535) :
    (∃ bytes, accessControlPersist none ac = (.ok bytes, ac.clearModified) ∧
      ∀ ac', ac'.inTransaction = false →
        (accessControlRestore dm bytes ac').1 = .ok () ∧
        (accessControlRestore dm bytes ac').2.current.instances.map Node.inst =
          ac.toPersist.filter (fun inst => isObjectRegistered dm inst.target.oid) ∧
        ((∀ inst ∈ ac.toPersist, isObjectRegistered dm inst.target.oid = true) →
          (accessControlRestore dm bytes ac').2.current.instances.map Node.inst = ac.toPersist)) ∧
    ∀ stream ac' err, (accessControlRestore dm stream ac').1 = .error err → (accessControlRestore dm stream ac').2 = ac' := by
  constructor
  · obtain ⟨bytes, hpersist, hread⟩ := accessControlPersist_transfers (isObjectRegistered dm) ac hstorable
      (Nat.lt_of_le_of_lt hlength (by decide))
    refine ⟨bytes, hpersist, fun ac' hout => ?_⟩
    have hrestore : accessControlRestore dm bytes ac' =
        (.ok (), ac'.restored (ac.toPersist.filter fun inst => isObjectRegistered dm inst.target.oid)) := by
      have hbytes := hread []
      rw [List.append_nil, if_neg (Nat.not_lt.mpr hlength)] at hbytes
      rw [accessControlRestore, if_neg (by rw [hout]; exact nofun), hbytes]
    have hinsts : (accessControlRestore dm bytes ac').2.current.instances.map Node.inst =
        ac.toPersist.filter fun inst => isObjectRegistered dm inst.target.oid := by
      rw [hrestore]
      exact map_inst_place _ _
    exact ⟨congrArg Prod.fst hrestore, hinsts, fun hall => hinsts.trans (List.filter_eq_self.mpr hall)⟩
  · intro stream ac' err herr
    rcases accessControlRestore_cases dm stream ac' with ⟨err, h⟩ | ⟨-, all, -, h⟩
    · rw [h]
    · rw [h] at herr
      cases herr

/-- An Object with these Instances. -/
def AccessControl.holding (insts : List Instance) : AccessControl :=
  { AccessControl.installed with current := ⟨place 0 insts, true⟩, nextAddr := insts.length }

theorem toPersist_holding (insts : List Instance) : (AccessControl.holding insts).toPersist = insts :=
  map_inst_place 0 insts

theorem restore_persist_two : ∃ bytes,
    accessControlPersist none (.holding [⟨0, ⟨3, some 0⟩, 65535, true, [⟨15, 1⟩]⟩, ⟨1, ⟨4, some 65535⟩, 1, false, []⟩]) =
      (.ok bytes, (AccessControl.holding
        [⟨0, ⟨3, some 0⟩, 65535, true, [⟨15, 1⟩]⟩, ⟨1, ⟨4, some 65535⟩, 1, false, []⟩]).clearModified) ∧
    (accessControlRestore (.single 3 [0]) bytes .installed).2.current.instances.map Node.inst =
      [⟨0, ⟨3, some 0⟩, 65535, true, [⟨15, 1⟩]⟩] := by
  obtain ⟨⟨bytes, hpersist, hrestore⟩, -⟩ := restore_persist (.single 3 [0])
    (.holding [⟨0, ⟨3, some 0⟩, 65535, true, [⟨15, 1⟩]⟩, ⟨1, ⟨4, some 65535⟩, 1, false, []⟩])
    (by
      rw [toPersist_holding]
      refine List.forall_mem_cons.mpr ⟨⟨nofun, nofun, by decide⟩, ?_⟩
      exact List.forall_mem_singleton.mpr ⟨nofun, fun _ => rfl, by decide⟩)
    (by decide)
  exact ⟨bytes, hpersist, (hrestore .installed rfl).2.1⟩

/-- The ACL of an Instance without the ACL Resource is not stored; no run makes such an Instance. -/
example : ∃ bytes, (accessControlPersist none (.holding [⟨0, ⟨3, some 0⟩, 65535, false, [⟨15, 1⟩]⟩])).1 = .ok bytes ∧
    (accessControlRestore (.single 3 [0]) bytes .installed).2.current.instances.map Node.inst =
      [⟨0, ⟨3, some 0⟩, 65535, false, []⟩] :=
  ⟨[65, 67, 79, 1, 0, 0, 0, 1, 0, 3, 0, 0, 0, 0, 255, 255, 0], by decide +kernel, by decide +kernel⟩

end Anjay.Ac
