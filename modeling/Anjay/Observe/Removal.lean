/-
  File:      Anjay/Observe/Removal.lean
  Subject:   What removing an observation leaves of the others on the same connection (`observe_remove_entry`).

  * `observeRemoveEntry_other`: the other observations stay, with their values in the queue; the exchange is over, and
    nothing is scheduled in its place.
  * `reachable_removeOther`: so **the values of another observation can still be sent iff a flush was scheduled before.**
-/
import Anjay.Observe.InFlight

namespace Anjay.Observe

open AttrStorage Dm Lib ConnectionEntry

variable {β : Type} {s : State β} {ref : ConnectionRef} {token : Token} {c : ConnectionEntry β} {a b : Observation β}

/-! ## 1. The other observations -/

@[simp] theorem ConnectionEntry.removeObservation_flushTask (o : Observation β) (c : ConnectionEntry β) :
    (c.removeObservation o).flushTask = c.flushTask := by
  unfold removeObservation clearObservation
  split <;> rfl

/-- The values of another observation stay in the queue, in their order. -/
theorem ConnectionEntry.Linked.refersTo_removeObservation (h : c.Linked) (ha : a ∈ c.observations)
    (hne : b.addr ≠ a.addr) : refersTo b.addr (c.removeObservation a).unsent = refersTo b.addr c.unsent := by
  show refersTo b.addr (c.clearObservation a).unsent = _
  rw [h.clearObservation_unsent ha]
  unfold refersTo
  rw [List.filter_filter]
  refine List.filter_congr fun v _ => ?_
  by_cases hv : v.ref = b.addr
  · have hva : v.ref ≠ a.addr := fun heq => hne (hv.symm.trans heq)
    simp [hv, hne]
  · simp [hv]

/-- Removing the observation with a token, seen from the entry of its connection. -/
def ConnectionEntry.removed (token : Token) (c : ConnectionEntry β) : ConnectionEntry β :=
  match c.findObservation token with
  | none => c.endExchange
  | some o => c.endExchange.removeObservation o

theorem Inv.mem_observeRemoveEntry (h : Inv s) (hc : s.entry ref = some c) (hne : (c.removed token).observations ≠ []) :
    (Observe.observeRemoveEntry ref token s).entry ref = some (c.removed token) := by
  have hend : (s.modify ref ConnectionEntry.endExchange).entry ref = some c.endExchange :=
    h.toSound.entry_modify hc (State.entry_some hc).2
  have hsound := (h.toPartial ref 0).endExchange ref
  unfold removed at hne ⊢
  have hinv := h.observeRemoveEntry ref token
  unfold Observe.observeRemoveEntry at hinv ⊢
  rw [hc] at hinv ⊢
  dsimp only at hinv ⊢
  cases hfind : c.findObservation token with
  | none => exact hend
  | some o =>
      rw [hfind] at hne hinv
      dsimp only at hne hinv ⊢
      have hr : (c.endExchange.removeObservation o).connRef = ref :=
        (ConnectionEntry.clearObservation_connRef o c.endExchange).trans (State.entry_some hc).2
      have hremoved := State.entry_some (hsound.toSound.entry_modify (f := removeObservation o) hend hr)
      have hmem : c.endExchange.removeObservation o ∈ (((s.modify ref ConnectionEntry.endExchange).modify ref
          (ConnectionEntry.removeObservation o)).deleteConnectionIfEmpty ref).connectionEntries := by
        refine List.mem_filter.mpr ⟨hremoved.1, ?_⟩
        rw [Bool.not_eq_true', Bool.and_eq_false_iff]
        exact .inr (by simpa using hne)
      exact hr ▸ hinv.toSound.entry_eq hmem

/-- **What is left for another observation**: it stays with its values in their order, no exchange is under way, and a
    flush is scheduled iff it was. -/
theorem Inv.observeRemoveEntry_other (h : Inv s) (hc : s.entry ref = some c) (hb : b ∈ c.observations)
    (htoken : tokenCmp b.token token ≠ 0) :
    ∃ c', (Observe.observeRemoveEntry ref token s).entry ref = some c' ∧ b ∈ c'.observations ∧
      refersTo b.addr c'.unsent = refersTo b.addr c.unsent ∧ c'.notifyExchange = none ∧ c'.flushTask = c.flushTask := by
  have hkept : b ∈ (c.removed token).observations ∧
      refersTo b.addr (c.removed token).unsent = refersTo b.addr c.unsent ∧
      (c.removed token).notifyExchange = none ∧ (c.removed token).flushTask = c.flushTask := by
    unfold removed
    cases hfind : c.findObservation token with
    | none => exact ⟨hb, rfl, rfl, rfl⟩
    | some o =>
        obtain ⟨ho, hcmp⟩ : o ∈ c.observations ∧ tokenCmp o.token token = 0 := findObservation_some hfind
        have hlinked := h.linked c (State.entry_some hc).1
        have hne : b.addr ≠ o.addr := fun heq => by
          have hbo := List.inj_on_of_nodup_map hlinked.observations hb ho heq
          exact htoken (hbo ▸ hcmp)
        have hend : c.endExchange.Linked := ⟨hlinked.unsentLast, hlinked.refs, hlinked.lastUnsent,
          hlinked.observations, hlinked.values⟩
        refine ⟨?_, hend.refersTo_removeObservation ho hne, (Flights.removeObservation_unsent o c.endExchange).2.1,
          removeObservation_flushTask o c.endExchange⟩
        show b ∈ (c.endExchange.clearObservation o).observations.filter _
        rw [clearObservation_observations]
        exact List.mem_filter.mpr ⟨hb, by simpa using hne⟩
  exact ⟨c.removed token, h.mem_observeRemoveEntry hc (List.ne_nil_of_mem hkept.1), hkept⟩

/-! ## 2. Whether its values are still sent -/

/-- The connection is online and ready to send. -/
def OnlineEnv.ready (online : OnlineEnv) : Bool := online.readyForOutgoing && online.onlineSocket

/-- The values of the observation `b` are in the queue of `c'` as they were in that of `c`, and if there are any and the
    connection is ready, an exchange is under way or a flush scheduled. -/
def StillSent (online : OnlineEnv) (b : Observation β) (c c' : ConnectionEntry β) : Prop :=
  refersTo b.addr c'.unsent = refersTo b.addr c.unsent ∧
    (online.ready = true → refersTo b.addr c'.unsent ≠ [] → c'.notifyExchange.isSome = true ∨ c'.flushTask = true)

/-- **In every reachable state, removing the observation with a token leaves the values of another observation to be
    sent iff** it has none, the connection is not ready, or a flush was scheduled already. -/
theorem reachable_removeOther {ops : BatchOps β} (h : Reachable ops s) (hc : s.entry ref = some c)
    (hb : b ∈ c.observations) (htoken : tokenCmp b.token token ≠ 0) (online : OnlineEnv) :
    (∃ c', (observeRemoveEntry ref token s).entry ref = some c' ∧ StillSent online b c c') ↔
      (refersTo b.addr c.unsent = [] ∨ online.ready = false ∨ c.flushTask = true) := by
  obtain ⟨c', hc', _, hvalues, hexchange, hflush⟩ := h.inv.observeRemoveEntry_other hc hb htoken
  constructor
  · rintro ⟨c'', hc'', hsent⟩
    rw [hc'] at hc''
    cases hc''
    by_cases hready : online.ready = true
    · by_cases hnil : refersTo b.addr c.unsent = []
      · exact .inl hnil
      · rcases hsent.2 hready (hvalues ▸ hnil) with hsome | htask
        · rw [hexchange] at hsome
          exact nomatch hsome
        · exact .inr (.inr (hflush ▸ htask))
    · exact .inr (.inl (by simpa using hready))
  · intro hcond
    refine ⟨c', hc', hvalues, fun hready hne => .inr ?_⟩
    rcases hcond with hnil | hnot | htask
    · exact absurd (hvalues.trans hnil) hne
    · rw [hnot] at hready
      exact nomatch hready
    · exact hflush.trans htask

/-! ## 3. Two observations -/

/-- Two observations of one connection, and a change of the Resource of the second. -/
def twoEvents (trigger : TriggerEnv Nat) : List (Event Nat) :=
  [.observe exampleObserve exampleRef [7] [.resource 3 0 9],
    .observe exampleObserve exampleRef [8] [.resource 3 0 9],
    .pathChanged exampleSchedule 0 exampleRef 2, .trigger trigger exampleRef 2]

/-- The second observation, with its queue and what is about to send it. -/
def second (s : State Nat) : Option (Observation Nat × List Nat × Bool × Bool) := do
  let c ← s.entry exampleRef
  let o ← c.observations.find? fun o => o.addr == 2
  return (o, (refersTo o.addr c.unsent).map Value.addr, c.notifyExchange.isSome, c.flushTask)

theorem second_some {s : State Nat} {o : Observation Nat} {queue : List Nat} {flight flush : Bool}
    (h : second s = some (o, queue, flight, flush)) : ∃ c, s.entry exampleRef = some c ∧
      (o ∈ c.observations ∧ o.addr = 2) ∧ (refersTo o.addr c.unsent).map Value.addr = queue ∧ c.notifyExchange.isSome = flight ∧ c.flushTask = flush := by
  unfold second at h
  obtain ⟨c, hc, h⟩ := Option.bind_eq_some_iff.mp h
  obtain ⟨o', ho', h⟩ := Option.bind_eq_some_iff.mp h
  cases h
  exact ⟨c, hc, ⟨List.mem_of_find?_eq_some ho', by simpa using List.find?_some ho'⟩, rfl, rfl, rfl⟩

/-- Stored while the server was offline, the value is scheduled to be flushed. -/
theorem reachable_removeOther_scheduled : ∃ (s : State Nat) (c c' : ConnectionEntry Nat) (b : Observation Nat),
    Reachable exampleOps s ∧ s.entry exampleRef = some c ∧ b ∈ c.observations ∧ refersTo b.addr c.unsent ≠ [] ∧
      (observeRemoveEntry exampleRef [7] s).entry exampleRef = some c' ∧ StillSent ⟨true, true⟩ b c c' := by
  have hrun : (((run exampleOps (twoEvents (exampleTrigger 2) ++ [.schedFlush true exampleRef])
      (observeInit false 0)).bind second).map fun x => (tokenCmp x.1.token [7], x.2)) =
        some (1, [4], false, true) := by decide +kernel
  obtain ⟨⟨b, rest⟩, hsecond, hpair⟩ := Option.map_eq_some_iff.mp hrun
  obtain ⟨s, hs, hsecond⟩ := Option.bind_eq_some_iff.mp hsecond
  obtain ⟨htoken, rfl⟩ := Prod.mk.inj hpair
  obtain ⟨c, hc, ⟨hb, _⟩, hqueue, _, hflush⟩ := second_some hsecond
  have hreach := (Reachable.init false 0).run hs
  have hne : refersTo b.addr c.unsent ≠ [] := fun hnil => by
    rw [hnil] at hqueue
    exact nomatch hqueue
  obtain ⟨c', hc', hsent⟩ := (reachable_removeOther hreach hc hb
    (fun hzero => absurd (htoken.symm.trans hzero) (by decide)) ⟨true, true⟩).mpr (.inr (.inr hflush))
  exact ⟨s, c, c', b, hreach, hc, hb, hne, hc', hsent⟩

/-- Its value under way, removing the first observation cancels the exchange, and nothing sends the value any more. -/
theorem removeOther_not_always : ¬ ∀ (s : State Nat) (c : ConnectionEntry Nat) (b : Observation Nat) (token : Token),
    Reachable exampleOps s → s.entry exampleRef = some c → b ∈ c.observations → tokenCmp b.token token ≠ 0 →
    ∃ c', (observeRemoveEntry exampleRef token s).entry exampleRef = some c' ∧ StillSent ⟨true, true⟩ b c c' := by
  intro hall
  have hrun : (((run exampleOps (twoEvents (exampleOnline 2)) (observeInit false 0)).bind fun s =>
      (second s).map fun x => (s, x)).map fun x => (tokenCmp x.2.1.token [7],
        (second (observeRemoveEntry exampleRef [7] x.1)).map Prod.snd)) =
        some (1, some ([4], false, false)) := by decide +kernel
  obtain ⟨⟨s, b, rest⟩, hpair, hrun⟩ := Option.map_eq_some_iff.mp hrun
  obtain ⟨s', hs, hsecond⟩ := Option.bind_eq_some_iff.mp hpair
  obtain ⟨⟨b', rest'⟩, hsecond, heq⟩ := Option.map_eq_some_iff.mp hsecond
  cases heq
  obtain ⟨htoken, hafter⟩ := Prod.mk.inj hrun
  obtain ⟨⟨o, after⟩, hremoved, hafter⟩ := Option.map_eq_some_iff.mp hafter
  cases hafter
  obtain ⟨c, hc, ⟨hb, haddr⟩, _⟩ := second_some hsecond
  obtain ⟨c₂, hc₂, ⟨_, haddr₂⟩, hqueue, hflight, hflush⟩ := second_some hremoved
  obtain ⟨c', hc', hsent⟩ := hall s c b [7] ((Reachable.init false 0).run hs) hc hb fun hzero =>
    absurd (htoken.symm.trans hzero) (by decide)
  rw [hc₂] at hc'
  cases hc'
  have hne : refersTo b.addr c₂.unsent ≠ [] := fun hnil => by
    rw [haddr₂.trans haddr.symm, hnil] at hqueue
    exact nomatch hqueue
  rcases hsent.2 rfl hne with hsome | htask
  · rw [hflight] at hsome
    exact nomatch hsome
  · rw [hflush] at htask
    exact nomatch htask

end Anjay.Observe
