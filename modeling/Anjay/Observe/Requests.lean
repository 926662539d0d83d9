/-
  File:      Anjay/Observe/Requests.lean
  Subject:   Adding and removing observations keeps the invariant of the observe module.

  * `Partial`: the invariant while `observe_handle` works on an entry.
  * `Inv.observeRemoveEntry`, `Inv.observeHandle`: whatever fails, the invariant holds afterwards.
-/
import Anjay.Observe.Steps

namespace Anjay.Observe

open AttrStorage Dm Lib ConnectionEntry

variable {β : Type} {c c' : ConnectionEntry β}

/-! ## 1. Removing an observation -/

/-- The invariant while `observe_handle` works on the connection `ref`: its entry may be empty, and the observation at
    `new` may not have an initial value yet. -/
structure Partial (ref : ConnectionRef) (new : Nat) (s : State β) : Prop extends Sound s where
  allSent : ∀ c ∈ s.connectionEntries, ∀ o ∈ c.observations, (c.connRef = ref ∧ o.addr = new) ∨ ∃ v, o.lastSent = [v]
  occupied : ∀ c ∈ s.connectionEntries, c.connRef = ref ∨ c.observations ≠ []

theorem ConnectionEntry.clearObservation_observations (o : Observation β) (c : ConnectionEntry β) :
    (c.clearObservation o).observations = c.observations := by
  unfold clearObservation; split <;> rfl

theorem ConnectionEntry.clearObservation_connRef (o : Observation β) (c : ConnectionEntry β) :
    (c.clearObservation o).connRef = c.connRef := by
  unfold clearObservation; split <;> rfl

/-- The observation that goes takes its values along. -/
theorem ConnectionEntry.Linked.keeps_removeObservation (h : c.Linked) {o : Observation β} (ho : o ∈ c.observations) :
    c.Keeps (c.removeObservation o) := by
  have hobs : (c.removeObservation o).observations.Sublist c.observations := by
    show ((c.clearObservation o).observations.filter _).Sublist _
    rw [clearObservation_observations]
    exact List.filter_sublist
  have hunsent : (c.removeObservation o).unsent.Sublist c.unsent := by
    show (c.clearObservation o).unsent.Sublist _
    rw [h.clearObservation_unsent ho]
    exact List.filter_sublist
  refine ⟨clearObservation_connRef o c, h.removeObservation ho, List.map_subset _ hobs.subset, fun a => ?_,
    hunsent.length_le⟩
  rw [holds_eq, holds_eq]
  exact Nat.add_le_add ((hunsent.map _).count_le a) (total_sublist _ hobs)

section Partials

variable {s : State β} {ref : ConnectionRef} {new : Nat} {token : Token}

theorem Inv.toPartial (h : Inv s) (ref : ConnectionRef) (new : Nat) : Partial ref new s where
  toSound := h.toSound
  allSent c hc o ho := .inr (h.allSent c hc o ho)
  occupied c hc := .inr (h.occupied c hc)

theorem Partial.endExchange (h : Partial ref new s) (r : ConnectionRef) :
    Partial ref new (s.modify r ConnectionEntry.endExchange) where
  toSound := h.toSound.modify fun c hc _ =>
    ⟨rfl, ⟨(h.linked c hc).unsentLast, (h.linked c hc).refs, (h.linked c hc).lastUnsent, (h.linked c hc).observations,
      (h.linked c hc).values⟩, List.Subset.refl _, fun _ => Nat.le_refl _, Nat.le_refl _⟩
  allSent c' hc' := by
    obtain ⟨c, hc, rfl⟩ := State.mem_modify.mp hc'
    split
    · exact h.allSent c hc
    · exact h.allSent c hc
  occupied c' hc' := by
    obtain ⟨c, hc, rfl⟩ := State.mem_modify.mp hc'
    split
    · exact h.occupied c hc
    · exact h.occupied c hc

/-- Once the entry of the connection has observations, and all of them an initial value, the invariant holds. -/
theorem Partial.toInv (h : Partial ref new s)
    (hsent : ∀ c ∈ s.connectionEntries, c.connRef = ref → c.AllSent ∧ c.observations ≠ []) : Inv s where
  toSound := h.toSound
  allSent c hc o ho := by
    rcases h.allSent c hc o ho with ⟨hr, _⟩ | hv
    · exact (hsent c hc hr).1 o ho
    · exact hv
  occupied c hc := by
    rcases h.occupied c hc with hr | hne
    · exact (hsent c hc hr).2
    · exact hne

/-- After an empty entry of the connection was deleted. -/
theorem Partial.deleteConnectionIfEmpty (h : Partial ref new s)
    (hsent : ∀ c ∈ s.connectionEntries, c.connRef = ref → c.AllSent) : Inv (s.deleteConnectionIfEmpty ref) where
  toSound := h.toSound.sublist List.filter_sublist
  allSent c hc o ho := by
    have hmem := (List.mem_filter.mp hc).1
    rcases h.allSent c hmem o ho with ⟨hr, _⟩ | hv
    · exact hsent c hmem hr o ho
    · exact hv
  occupied c hc := by
    obtain ⟨hmem, hkeep⟩ := List.mem_filter.mp hc
    rcases h.occupied c hmem with hr | hne
    · intro hnil
      rw [hr, hnil] at hkeep
      simp at hkeep
    · exact hne

/-- The observation with the token goes, the entry with it if it was the last one. -/
theorem Partial.removed (h : Partial ref new s) (hc : s.entry ref = some c) {o : Observation β}
    (ho : o ∈ c.observations) (hsent : ∀ o' ∈ c.observations, o'.addr ≠ o.addr → ∃ v, o'.lastSent = [v]) :
    Inv ((s.modify ref (ConnectionEntry.removeObservation o)).deleteConnectionIfEmpty ref) := by
  obtain ⟨hmem, hr⟩ := State.entry_some hc
  have heq : ∀ d ∈ s.connectionEntries, d.connRef = ref → d = c := fun d hd hdr =>
    h.toSound.eq_of_mem hd hmem (hdr.trans hr.symm)
  have hkeeps := (h.linked c hmem).keeps_removeObservation ho
  have hrest : ∀ o' ∈ (c.removeObservation o).observations, o' ∈ c.observations ∧ o'.addr ≠ o.addr := fun o' ho' => by
    change o' ∈ (c.clearObservation o).observations.filter _ at ho'
    rw [clearObservation_observations] at ho'
    obtain ⟨ho', hne⟩ := List.mem_filter.mp ho'
    exact ⟨ho', by simpa using hne⟩
  have hsound : Sound (s.modify ref (ConnectionEntry.removeObservation o)) := h.toSound.modify fun d hd hdr => by
    rw [heq d hd hdr]
    exact hkeeps
  have hall : ∀ c' ∈ (s.modify ref (ConnectionEntry.removeObservation o)).connectionEntries, c'.connRef = ref →
      c'.AllSent := fun c' hc' hr' => by
    obtain ⟨d, hd, rfl⟩ := State.mem_modify.mp hc'
    by_cases hdr : d.connRef = ref
    · rw [if_pos hdr, heq d hd hdr]
      exact fun o' ho' => hsent o' (hrest o' ho').1 (hrest o' ho').2
    · rw [if_neg hdr] at hr'
      exact absurd hr' hdr
  have hworking : Partial ref o.addr (s.modify ref (ConnectionEntry.removeObservation o)) := by
    refine ⟨hsound, fun c' hc' o' ho' => ?_, fun c' hc' => ?_⟩
    · by_cases hr' : c'.connRef = ref
      · exact .inr (hall c' hc' hr' o' ho')
      · obtain ⟨d, hd, rfl⟩ := State.mem_modify.mp hc'
        have hdr : d.connRef ≠ ref := fun hdr => hr' (by rw [if_pos hdr, heq d hd hdr]; exact hkeeps.connRef.trans hr)
        rw [if_neg hdr] at ho'
        exact .inr ((h.allSent d hd o' ho').resolve_left fun hx => hdr hx.1)
    · obtain ⟨d, hd, rfl⟩ := State.mem_modify.mp hc'
      by_cases hdr : d.connRef = ref
      · rw [if_pos hdr, heq d hd hdr]
        exact .inl (hkeeps.connRef.trans hr)
      · rw [if_neg hdr]
        exact h.occupied d hd
  exact hworking.deleteConnectionIfEmpty hall

theorem findObservation_some {o : Observation β} (h : c.findObservation token = some o) :
    o ∈ c.observations ∧ tokenCmp o.token token = 0 :=
  ⟨List.mem_of_find?_eq_some h, by simpa using List.find?_some h⟩

/-- **`observe_remove_entry` on an entry whose other observations have their initial value.** -/
theorem Partial.observeRemoveEntry (h : Partial ref new s) (hc : s.entry ref = some c) {o : Observation β}
    (hfind : c.findObservation token = some o)
    (hsent : ∀ o' ∈ c.observations, o'.addr ≠ o.addr → ∃ v, o'.lastSent = [v]) :
    Inv (observeRemoveEntry ref token s) := by
  unfold Observe.observeRemoveEntry
  rw [hc]
  dsimp only
  rw [hfind]
  have hend : (s.modify ref ConnectionEntry.endExchange).entry ref = some c.endExchange :=
    h.toSound.entry_modify hc (State.entry_some hc).2
  exact (h.endExchange ref).removed hend (findObservation_some hfind).1 hsent

/-- **`observe_remove_entry` keeps the invariant.** -/
theorem Inv.observeRemoveEntry (h : Inv s) (ref : ConnectionRef) (token : Token) :
    Inv (observeRemoveEntry ref token s) := by
  cases hc : s.entry ref with
  | none =>
      unfold Observe.observeRemoveEntry
      rw [hc]
      exact h
  | some c =>
      cases hfind : c.findObservation token with
      | none =>
          unfold Observe.observeRemoveEntry
          rw [hc]
          dsimp only
          rw [hfind]
          exact h.steps fun _ _ _ hl hs => Steps.endExchange hl hs
      | some o =>
          exact (h.toPartial ref 0).observeRemoveEntry hc hfind fun o' ho' _ =>
            h.allSent c (State.entry_some hc).1 o' ho'

end Partials

/-! ## 2. A new observation -/

theorem connectionEntryCmp_reflects :
    Reflects (connectionEntryCmp (β := β)) (fun c : ConnectionEntry β => c.connRef.ssid) where
  lt a b := by
    show (a.connRef.ssid.val : Int) - b.connRef.ssid.val < 0 ↔ a.connRef.ssid.val < b.connRef.ssid.val
    omega
  gt a b := by
    show 0 < (a.connRef.ssid.val : Int) - b.connRef.ssid.val ↔ b.connRef.ssid.val < a.connRef.ssid.val
    omega

theorem tokenCmp_self (token : Token) : tokenCmp token token = 0 := by
  unfold tokenCmp
  rw [if_neg (fun h => h rfl), if_neg (List.lt_irrefl token), if_neg (List.lt_irrefl token)]

theorem newEntry_linked (ref : ConnectionRef) : (newEntry ref : ConnectionEntry β).Linked :=
  ⟨rfl, fun _ hv => (nomatch hv), fun _ ho => (nomatch ho), List.nodup_nil, List.nodup_nil⟩

section New

variable {s : State β} {ref : ConnectionRef} {token : Token}

/-- The entry of the connection is there, or a new one is put in. -/
theorem findOrCreate_cases (s : State β) (ref : ConnectionRef) :
    (s.findOrCreate ref = s ∧ ∃ c ∈ s.connectionEntries, c.connRef = ref) ∨
      (s.findOrCreate ref).connectionEntries.Perm (newEntry ref :: s.connectionEntries) := by
  have hcases : (upsert connectionEntryCmp (newEntry ref) id s.connectionEntries = s.connectionEntries ∧
        ∃ c ∈ s.connectionEntries, connectionEntryCmp c (newEntry ref) = 0) ∨
      (upsert connectionEntryCmp (newEntry ref) id s.connectionEntries).Perm (newEntry ref :: s.connectionEntries) :=
    upsert_id_cases _
  refine hcases.imp_left fun ⟨hsame, c, hc, hcmp⟩ => ⟨?_, c, hc, ?_⟩
  · unfold State.findOrCreate
    rw [hsame]
  · exact ConnectionRef.ext_ssid ((connectionEntryCmp_reflects.eq_zero c (newEntry ref)).mp hcmp)

theorem mem_findOrCreate (hc : c ∈ (s.findOrCreate ref).connectionEntries) :
    c ∈ s.connectionEntries ∨ c = newEntry ref := by
  rcases findOrCreate_cases s ref with ⟨hsame, _⟩ | hperm
  · rw [hsame] at hc
    exact .inl hc
  · rcases List.mem_cons.mp (hperm.mem_iff.mp hc) with rfl | hc
    · exact .inr rfl
    · exact .inl hc

theorem total_findOrCreate {g : ConnectionEntry β → Nat} (hg : g (newEntry ref) = 0) (s : State β) :
    total g (s.findOrCreate ref).connectionEntries = total g s.connectionEntries := by
  rcases findOrCreate_cases s ref with ⟨hsame, _⟩ | hperm
  · rw [hsame]
  · rw [total_perm g hperm]
    show g (newEntry ref) + _ = _
    rw [hg, Nat.zero_add]

theorem Inv.findOrCreate (h : Inv s) (ref : ConnectionRef) : Sound (s.findOrCreate ref) where
  sorted := upsert_sorted connectionEntryCmp_reflects (fun _ => rfl) h.sorted
  linked c hc := by
    rcases mem_findOrCreate hc with hc | rfl
    · exact h.linked c hc
    · exact newEntry_linked ref
  observations c hc o ho := by
    rcases mem_findOrCreate hc with hc | rfl
    · exact h.observations c hc o ho
    · exact nomatch ho
  unique a := by
    have hzero : (newEntry ref : ConnectionEntry β).holds a = 0 := rfl
    show total (ConnectionEntry.holds a) (s.findOrCreate ref).connectionEntries ≤ if a < s.next then 1 else 0
    rw [total_findOrCreate hzero]
    exact h.unique a
  positive := h.positive
  limit hmode := by
    show total (fun c => c.unsent.length) (s.findOrCreate ref).connectionEntries ≤ s.notifyQueueLimit
    rw [total_findOrCreate rfl]
    exact h.limit hmode

theorem Inv.entry_findOrCreate (h : Inv s) (ref : ConnectionRef) : ∃ c, (s.findOrCreate ref).entry ref = some c := by
  have hmem : ∃ c ∈ (s.findOrCreate ref).connectionEntries, c.connRef = ref := by
    rcases findOrCreate_cases s ref with ⟨hsame, hc⟩ | hperm
    · rw [hsame]
      exact hc
    · exact ⟨newEntry ref, hperm.mem_iff.mpr List.mem_cons_self, rfl⟩
  obtain ⟨c, hc, rfl⟩ := hmem
  exact ⟨c, (h.findOrCreate _).entry_eq hc⟩

theorem Inv.allSent_findOrCreate (h : Inv s) (hc : c ∈ (s.findOrCreate ref).connectionEntries) : c.AllSent := by
  rcases mem_findOrCreate hc with hc | rfl
  · exact h.allSent c hc
  · exact fun o ho => nomatch ho

theorem Inv.partial_findOrCreate (h : Inv s) (ref : ConnectionRef) (new : Nat) :
    Partial ref new (s.findOrCreate ref) where
  toSound := h.findOrCreate ref
  allSent c hc o ho := .inr (h.allSent_findOrCreate hc o ho)
  occupied c hc := by
    rcases mem_findOrCreate hc with hc | rfl
    · exact .inr (h.occupied c hc)
    · exact .inl rfl

/-- A token that no observation of the connection has is in a new entry neither. -/
theorem Inv.findObservation_findOrCreate (h : Inv s) (hnone : ((s.entry ref).bind (findObservation token)).isSome = false)
    (hc : (s.findOrCreate ref).entry ref = some c) : c.findObservation token = none := by
  obtain ⟨hmem, rfl⟩ := State.entry_some hc
  rcases mem_findOrCreate hmem with hmem | hnew
  · rw [h.toSound.entry_eq hmem] at hnone
    exact Option.isSome_eq_false_iff.mp hnone |> Option.isNone_iff_eq_none.mp
  · rw [hnew]
    rfl

/-- The observation that a token finds, where only one has it. -/
theorem findObservation_eq {o : Observation β} (ho : o ∈ c.observations) (htoken : tokenCmp o.token token = 0)
    (hunique : ∀ o' ∈ c.observations, tokenCmp o'.token token = 0 → o' = o) : c.findObservation token = some o := by
  unfold findObservation
  cases hfind : c.observations.find? fun o => tokenCmp o.token token == 0 with
  | none => exact absurd (List.find?_eq_none.mp hfind o ho) (by simp [htoken])
  | some o' =>
      obtain ⟨ho', htoken'⟩ : o' ∈ c.observations ∧ tokenCmp o'.token token = 0 := findObservation_some hfind
      rw [hunique o' ho' htoken']

/-- Without an observation that has its token, the new one is put in. -/
theorem insertObservation_perm (hnone : c.findObservation token = none) (paths : List UriPath) (addr : Nat) :
    (c.insertObservation (newObservation token paths addr)).observations.Perm
      (newObservation token paths addr :: c.observations) := by
  have hcases : (upsert observationCmp (newObservation token paths addr) id c.observations = c.observations ∧
        ∃ o ∈ c.observations, observationCmp o (newObservation token paths addr) = 0) ∨
      (upsert observationCmp (newObservation token paths addr) id c.observations).Perm
        (newObservation token paths addr :: c.observations) := upsert_id_cases _
  refine hcases.resolve_left fun ⟨_, o, ho, hcmp⟩ => ?_
  have := List.find?_eq_none.mp hnone o ho
  exact this (beq_iff_eq.mpr hcmp)

/-- An entry with one more observation, whose address is new, and which has no values yet. -/
theorem ConnectionEntry.Linked.insertObservation (h : c.Linked) (hnone : c.findObservation token = none)
    {paths : List UriPath} {addr : Nat} (hfresh : ∀ o ∈ c.observations, o.addr < addr) :
    (c.insertObservation (newObservation token paths addr)).Linked := by
  have hperm := insertObservation_perm hnone paths addr
  have hmem : ∀ o, o ∈ (c.insertObservation (newObservation token paths addr)).observations ↔
      o = newObservation token paths addr ∨ o ∈ c.observations := fun o =>
    hperm.mem_iff.trans List.mem_cons
  refine ⟨h.unsentLast, fun v hv => ?_, fun o ho => ?_, ?_, h.values⟩
  · obtain ⟨o, ho, heq⟩ := List.mem_map.mp (h.refs v hv)
    exact List.mem_map.mpr ⟨o, (hmem o).mpr (.inr ho), heq⟩
  · rcases (hmem o).mp ho with rfl | ho
    · refine (lastAddr_eq_none.mpr (List.filter_eq_nil_iff.mpr fun v hv => ?_)).symm
      obtain ⟨o, ho, heq⟩ := List.mem_map.mp (h.refs v hv)
      have hlt := hfresh o ho
      have hne : v.ref ≠ addr := by omega
      simpa [newObservation] using hne
    · exact h.lastUnsent o ho
  · rw [(hperm.map _).nodup_iff, List.map_cons, List.nodup_cons]
    refine ⟨fun hmem => ?_, h.observations⟩
    obtain ⟨o, ho, heq⟩ := List.mem_map.mp hmem
    have hlt := hfresh o ho
    rw [heq] at hlt
    exact Nat.lt_irrefl _ hlt

/-- What `put_entry_into_connection_state` leaves: the new observation, without a value. -/
theorem Partial.putEntry (h : Partial ref s.next s) (hc : s.entry ref = some c)
    (hnone : c.findObservation token = none) (paths : List UriPath) :
    Partial ref s.next (s.putEntry ref token paths) ∧
      (s.putEntry ref token paths).entry ref = some (c.insertObservation (newObservation token paths s.next)) := by
  obtain ⟨hmem, hr⟩ := State.entry_some hc
  have hlinked := h.linked c hmem
  have hfresh := h.observations c hmem
  have hperm := insertObservation_perm hnone paths s.next
  have hmemObs : ∀ o ∈ (c.insertObservation (newObservation token paths s.next)).observations,
      o = newObservation token paths s.next ∨ o ∈ c.observations := fun o ho =>
    List.mem_cons.mp (hperm.mem_iff.mp ho)
  have hsound : Sound (s.putEntry ref token paths) := by
    refine h.toSound.modify_new (k := 0) hc (fun _ => rfl) (hlinked.insertObservation hnone hfresh) (fun o ho => ?_)
      (fun a => ?_) (Nat.le_of_eq (Nat.zero_add _).symm) fun hmode => ?_
    · rcases hmemObs o ho with rfl | ho
      · exact Nat.lt_succ_self _
      · exact Nat.lt_succ_of_lt (hfresh o ho)
    · rw [holds_eq, holds_eq, total_perm _ hperm]
      show _ + (0 + total (Observation.holds a) c.observations) ≤ _
      rw [Nat.zero_add]
      exact Nat.le_add_left _ _
    · rw [Nat.zero_add]
      exact h.limit hmode
  refine ⟨⟨hsound, fun c' hc' o ho => ?_, fun c' hc' => ?_⟩, h.toSound.entry_modify hc hr⟩
  · obtain ⟨d, hd, rfl⟩ := State.mem_modify.mp hc'
    by_cases hdr : d.connRef = ref
    · rw [if_pos hdr] at ho ⊢
      rw [h.toSound.eq_of_mem hd hmem (hdr.trans hr.symm)] at ho
      rcases hmemObs o ho with rfl | ho
      · exact .inl ⟨hdr, rfl⟩
      · exact (h.allSent c hmem o ho).imp_left fun ⟨_, haddr⟩ => ⟨hdr, haddr⟩
    · rw [if_neg hdr] at ho ⊢
      exact h.allSent d hd o ho
  · obtain ⟨d, hd, rfl⟩ := State.mem_modify.mp hc'
    split
    · exact .inl ‹_›
    · exact h.occupied d hd

theorem schedulePmaxTrigger_token (env : ScheduleEnv) (attrs : List (Except Failure InternalRAttrs))
    (newest : Duration) (o : Observation β) : (schedulePmaxTrigger env attrs newest o).2.token = o.token := by
  unfold schedulePmaxTrigger scheduleTrigger
  split
  · rfl
  · split
    · split
      · rfl
      · split
        · rfl
        · split <;> rfl
    · rfl

theorem initializedConfirmed_token (env : ObserveEnv β) (addr : Nat) (values : List β) (o : Observation β) :
    (initializedConfirmed env addr values o).token = o.token := by
  have htoken := schedulePmaxTrigger_token env.pmax.schedule ((List.range o.paths.length).map env.pmax.attrs) env.now
    { o with lastSent := [initialValue env o.addr addr values] }
  unfold initializedConfirmed
  split <;> exact htoken

theorem initializedConfirmed_frames (env : ObserveEnv β) (addr : Nat) (values : List β) (o : Observation β) :
    (initializedConfirmed env addr values o).addr = o.addr ∧
      (initializedConfirmed env addr values o).lastUnsent = o.lastUnsent ∧
      (initializedConfirmed env addr values o).lastSent = [initialValue env o.addr addr values] := by
  have hframes := schedulePmaxTrigger_frames env.pmax.schedule ((List.range o.paths.length).map env.pmax.attrs) env.now
    { o with lastSent := [initialValue env o.addr addr values] }
  unfold initializedConfirmed
  split <;> exact hframes

/-- **With its initial value, the new observation is like the others.** -/
theorem Partial.insertInitialValue {new : Nat} (h : Partial ref new s) (hc : s.entry ref = some c)
    (hne : c.observations ≠ []) (env : ObserveEnv β) (values : List β) :
    Inv (s.insertInitialValue env ref new values) ∧ (s.insertInitialValue env ref new values).entry ref =
      some (c.updateObservation new (initializedConfirmed env s.next values)) := by
  obtain ⟨hmem, hr⟩ := State.entry_some hc
  have hlinked := h.linked c hmem
  have hframes := fun o => initializedConfirmed_frames env s.next values o
  have haddrs : (c.updateObservation new (initializedConfirmed env s.next values)).observations.map Observation.addr =
      c.observations.map Observation.addr := updateObservation_addrs fun o => (hframes o).1
  have hsound : Sound (s.insertInitialValue env ref new values) := by
    refine h.toSound.modify_new (k := 0) hc (fun _ => rfl)
      (hlinked.updateObservation fun o => ⟨(hframes o).1, (hframes o).2.1⟩) (fun o ho => ?_) (fun a => ?_)
      (Nat.le_of_eq (Nat.zero_add _).symm) fun hmode => ?_
    · obtain ⟨o', ho', heq⟩ := List.mem_map.mp (haddrs ▸ List.mem_map_of_mem ho)
      exact heq ▸ Nat.lt_succ_of_lt (h.observations c hmem o' ho')
    · have hle : total (Observation.holds a)
          (c.updateObservation new (initializedConfirmed env s.next values)).observations ≤
            (if s.next = a then 1 else 0) + total (Observation.holds a) c.observations :=
        total_updateAt_le hlinked.observations fun o _ _ => by
          show ((initializedConfirmed env s.next values o).lastSent.map Value.addr).count a ≤ _
          rw [(hframes o).2.2, List.map_singleton, List.count_singleton]
          show (if (s.next == a) = true then 1 else 0) ≤ _
          by_cases heq : s.next = a
          · simp [heq]
          · simp [heq]
      rw [holds_eq, holds_eq]
      show (c.unsent.map Value.addr).count a + _ ≤ _
      omega
    · rw [Nat.zero_add]
      exact h.limit hmode
  have hworking : Partial ref new (s.insertInitialValue env ref new values) := by
    refine ⟨hsound, fun c' hc' o ho => ?_, fun c' hc' => ?_⟩
    · obtain ⟨d, hd, rfl⟩ := State.mem_modify.mp hc'
      by_cases hdr : d.connRef = ref
      · rw [if_pos hdr] at ho
        obtain ⟨o', ho', rfl⟩ := mem_updateObservation.mp ho
        by_cases hnew : o'.addr = new
        · rw [if_pos hnew]
          exact .inr ⟨_, (hframes o').2.2⟩
        · rw [if_neg hnew]
          exact .inr ((h.allSent d hd o' ho').resolve_left fun hx => hnew hx.2)
      · rw [if_neg hdr] at ho
        exact .inr ((h.allSent d hd o ho).resolve_left fun hx => hdr hx.1)
    · obtain ⟨d, hd, rfl⟩ := State.mem_modify.mp hc'
      split
      · exact .inl ‹_›
      · exact h.occupied d hd
  refine ⟨hworking.toInv fun c' hc' hr' => ?_, h.toSound.entry_modify hc hr⟩
  obtain ⟨d, hd, rfl⟩ := State.mem_modify.mp hc'
  by_cases hdr : d.connRef = ref
  · rw [if_pos hdr, h.toSound.eq_of_mem hd hmem (hdr.trans hr.symm)]
    refine ⟨fun o ho => ?_, observations_ne_nil haddrs hne⟩
    obtain ⟨o', ho', rfl⟩ := mem_updateObservation.mp ho
    by_cases hnew : o'.addr = new
    · rw [if_pos hnew]
      exact ⟨_, (hframes o').2.2⟩
    · rw [if_neg hnew]
      exact (h.allSent c hmem o' ho').resolve_left fun hx => hnew hx.2
  · rw [if_neg hdr] at hr'
    exact absurd hr' hdr

theorem Inv.deleteAtIfEmpty (h : Inv s) (ref : ConnectionRef) : Inv (s.deleteAtIfEmpty ref) := by
  unfold State.deleteAtIfEmpty
  split
  · exact h
  · exact h.deleteConnectionIfEmpty _

/-- The entry at the place of a connection that is there is its own. -/
theorem Sound.deleteAtIfEmpty_eq (h : Sound s) (hc : s.entry ref = some c) :
    s.deleteAtIfEmpty ref = s.deleteConnectionIfEmpty ref := by
  obtain ⟨hmem, hr⟩ := State.entry_some hc
  unfold State.deleteAtIfEmpty
  have hat : ∀ d : ConnectionEntry β, (!decide (connectionRefCmp d.connRef ref < 0)) = true ↔
      ref.ssid ≤ d.connRef.ssid := fun d => by
    show (!decide ((d.connRef.ssid.val : Int) - ref.ssid.val < 0)) = true ↔ ref.ssid.val ≤ d.connRef.ssid.val
    rw [Bool.not_eq_true', decide_eq_false_iff_not]
    omega
  cases hfind : s.connectionEntries.find? fun d => !decide (connectionRefCmp d.connRef ref < 0) with
  | none =>
      have := List.find?_eq_none.mp hfind c hmem
      exact absurd ((hat c).mpr (hr ▸ le_refl _)) this
  | some d =>
      obtain ⟨hd, front, back, hsplit, hfront⟩ := List.find?_eq_some_iff_append.mp hfind
      have hle : ref.ssid ≤ d.connRef.ssid := (hat d).mp hd
      have hsorted := h.sorted
      rw [hsplit] at hsorted hmem
      have hback := (List.pairwise_cons.mp (List.pairwise_append.mp hsorted).2.1).1
      have heq : d = c := by
        rcases List.mem_append.mp hmem with hfc | hfc
        · have hlt := hfront c hfc
          rw [(hat c).mpr (hr ▸ le_refl _)] at hlt
          exact absurd hlt (by decide)
        · rcases List.mem_cons.mp hfc with hfc | hfc
          · exact hfc.symm
          · have hlt : d.connRef.ssid < c.connRef.ssid := hback c hfc
            rw [hr] at hlt
            exact absurd hlt (not_lt.mpr hle)
      show s.deleteConnectionIfEmpty d.connRef = _
      rw [heq, hr]

/-- The cleanup where the observation was not put in. -/
theorem Partial.observeFailed_unattached {new : Nat} (h : Partial ref new s) (hc : s.entry ref = some c)
    (hnone : c.findObservation token = none) (hsent : ∀ c ∈ s.connectionEntries, c.AllSent) :
    Inv (Observe.observeFailed ref token s) := by
  have hremove : Observe.observeRemoveEntry ref token s = s.modify ref ConnectionEntry.endExchange := by
    unfold Observe.observeRemoveEntry
    rw [hc]
    dsimp only
    rw [hnone]
  have hend : (s.modify ref ConnectionEntry.endExchange).entry ref = some c.endExchange :=
    h.toSound.entry_modify hc (State.entry_some hc).2
  unfold Observe.observeFailed
  rw [hremove, (h.endExchange ref).toSound.deleteAtIfEmpty_eq hend]
  refine (h.endExchange ref).deleteConnectionIfEmpty fun c' hc' _ => ?_
  obtain ⟨d, hd, rfl⟩ := State.mem_modify.mp hc'
  split
  · exact hsent d hd
  · exact hsent d hd

/-- The cleanup where the observation was put in. -/
theorem Partial.observeFailed {new : Nat} (h : Partial ref new s) (hc : s.entry ref = some c) {o : Observation β}
    (hfind : c.findObservation token = some o) (haddr : o.addr = new) : Inv (Observe.observeFailed ref token s) := by
  refine (h.observeRemoveEntry hc hfind fun o' ho' hne => ?_).deleteAtIfEmpty ref
  exact (h.allSent c (State.entry_some hc).1 o' ho').resolve_left fun hx => hne (hx.2.trans haddr.symm)

/-- The new observation is the one with its token. -/
theorem findObservation_insert (hnone : c.findObservation token = none) (paths : List UriPath) (addr : Nat) :
    (c.insertObservation (newObservation token paths addr)).findObservation token =
      some (newObservation token paths addr) := by
  have hperm := insertObservation_perm hnone paths addr
  refine findObservation_eq (hperm.mem_iff.mpr List.mem_cons_self) (tokenCmp_self token) fun o ho htoken => ?_
  refine (List.mem_cons.mp (hperm.mem_iff.mp ho)).resolve_right fun hold => ?_
  exact List.find?_eq_none.mp hnone o hold (beq_iff_eq.mpr htoken)

/-- An update of an observation that keeps its token leaves it the one with that token. -/
theorem findObservation_update {o : Observation β} {f : Observation β → Observation β}
    (hfind : c.findObservation token = some o) (hf : ∀ o, (f o).token = o.token) :
    (c.updateObservation o.addr f).findObservation token = some (f o) := by
  have hmap : ∀ os : List (Observation β), (os.find? fun o => tokenCmp o.token token == 0) = some o →
      ((updateAt Observation.addr o.addr f os).find? fun o => tokenCmp o.token token == 0) = some (f o) := fun os => by
    induction os with
    | nil => exact fun h => nomatch h
    | cons a os ih =>
        intro h
        have htoken : (if a.addr = o.addr then f a else a).token = a.token := by
          split
          · exact hf a
          · rfl
        show List.find? _ ((if a.addr = o.addr then f a else a) :: updateAt Observation.addr o.addr f os) = _
        rw [List.find?_cons] at h ⊢
        rw [htoken]
        split at h
        · cases h
          exact congrArg some (if_pos rfl)
        · exact ih h
  exact hmap c.observations hfind

/-- **`observe_handle` keeps the invariant**, whatever fails. -/
theorem Inv.observeHandle (h : Inv s) {env : ObserveEnv β} {paths : List UriPath} {s' : State β}
    (hs : observeHandle env ref token paths s = some s') : Inv s' := by
  unfold Observe.observeHandle at hs
  split at hs
  · exact Option.some.inj hs ▸ h.sublist List.eraseP_sublist
  split at hs
  · exact Option.some.inj hs ▸ h
  · split at hs
    · exact nomatch hs
    · rename_i hnone
      have hcreated := h.partial_findOrCreate ref s.next
      have hsent : ∀ c ∈ (s.findOrCreate ref).connectionEntries, c.AllSent := fun c hc => h.allSent_findOrCreate hc
      split at hs
      · exact Option.some.inj hs ▸ hcreated.deleteConnectionIfEmpty fun c hc _ => hsent c hc
      · rename_i values _
        obtain ⟨c, hc⟩ := h.entry_findOrCreate ref
        have hnone := h.findObservation_findOrCreate (by simpa using hnone) hc
        rw [← Option.some.inj hs]
        unfold observeRead
        obtain ⟨hput, hentry⟩ := Partial.putEntry (s := s.findOrCreate ref) hcreated hc hnone paths
        have hfind := findObservation_insert hnone paths s.next
        have hne : (c.insertObservation (newObservation token paths s.next)).observations ≠ [] := fun hnil => by
          rw [findObservation, hnil] at hfind
          exact nomatch hfind
        obtain ⟨hinv, hinitial⟩ := hput.insertInitialValue hentry hne env values
        split
        · split
          · split
            · exact hinv
            · exact (hinv.toPartial ref s.next).observeFailed hinitial
                (findObservation_update hfind fun o => initializedConfirmed_token env _ values o)
                (initializedConfirmed_frames env _ values _).1
          · exact hput.observeFailed hentry hfind rfl
        · exact hcreated.observeFailed_unattached hc hnone hsent

end New

end Anjay.Observe
