/-
  File:      Anjay/Lib/Replica.lean
  Subject:   A record of fields that a sender keeps at a receiver, by messages that carry all fields or only
             those that differ from what was acknowledged last; messages get lost, and their answers too.

  * `Sound.step`, `Sound.steps`: what the receiver holds is explained by the acknowledged record and by the
    messages sent since then.
  * `Sound.acknowledge`: an answered message leaves the receiver with the record it was sent for, provided that
    it carries every field that an earlier message without an answer may have changed.
-/
import Mathlib.Logic.Relation
import Mathlib.Data.List.Basic

namespace Anjay.Lib

variable {ι : Type} {α : ι → Type}

/-! ## 1. Differences -/

/-- Values for some of the fields. -/
abbrev Delta (α : ι → Type) : Type := (i : ι) → Option (α i)

namespace Delta

/-- The record with the fields that are carried replaced. -/
def apply (m : Delta α) (r : (i : ι) → α i) : (i : ι) → α i := fun i => (m i).getD (r i)

def full (r : (i : ι) → α i) : Delta α := fun i => some (r i)

/-- The fields in which `new` differs from `base`. -/
def diff [(i : ι) → DecidableEq (α i)] (base new : (i : ι) → α i) : Delta α :=
  fun i => if new i = base i then none else some (new i)

/-- Each field is as in `base` or as one of the messages carries it. -/
def Explained (base : (i : ι) → α i) (sent : List (Delta α)) (r : (i : ι) → α i) : Prop :=
  ∀ i, r i = base i ∨ ∃ m ∈ sent, m i = some (r i)

/-- `new` differs from `base` in every field that one of the messages may have changed. -/
def Covered (base : (i : ι) → α i) (sent : List (Delta α)) (new : (i : ι) → α i) : Prop :=
  ∀ m ∈ sent, ∀ i v, m i = some v → v ≠ base i → new i ≠ base i

theorem apply_full (new r : (i : ι) → α i) : (full new).apply r = new := rfl

theorem Explained.base {base : (i : ι) → α i} {sent : List (Delta α)} : Explained base sent base := fun _ => Or.inl rfl

theorem Explained.full {base new : (i : ι) → α i} {sent : List (Delta α)} (h : Delta.full new ∈ sent) :
    Explained base sent new := fun _ => Or.inr ⟨_, h, rfl⟩

theorem Explained.mono {base r : (i : ι) → α i} {sent sent' : List (Delta α)} (h : Explained base sent r)
    (hsub : ∀ m ∈ sent, m ∈ sent') : Explained base sent' r :=
  fun i => (h i).imp_right fun ⟨m, hm, hi⟩ => ⟨m, hsub m hm, hi⟩

theorem Explained.apply {base r : (i : ι) → α i} {sent : List (Delta α)} {m : Delta α} (h : Explained base sent r)
    (hm : m ∈ sent) : Explained base sent (m.apply r) := by
  intro i
  unfold Delta.apply
  cases hi : m i with
  | none => exact h i
  | some v => exact Or.inr ⟨m, hm, hi⟩

section Diff

variable [(i : ι) → DecidableEq (α i)]

theorem diff_eq_none {base new : (i : ι) → α i} {i : ι} (h : new i = base i) : diff base new i = none := if_pos h

theorem diff_eq_some {base new : (i : ι) → α i} {i : ι} (h : new i ≠ base i) : diff base new i = some (new i) :=
  if_neg h

/-- A difference adds nothing to what has to be covered. -/
theorem Covered.append_diff {base new : (i : ι) → α i} {sent : List (Delta α)} (h : Covered base sent new) :
    Covered base (sent ++ [diff base new]) new := by
  intro m hm i v hi hv
  rcases List.mem_append.mp hm with hm | hm
  · exact h m hm i v hi hv
  · intro heq
    rw [List.mem_singleton.mp hm, diff_eq_none heq] at hi
    cases hi

/-- **A difference that covers the messages gives the record it was made for.** -/
theorem Explained.apply_diff {base new r : (i : ι) → α i} {sent : List (Delta α)} (h : Explained base sent r)
    (hcov : Covered base sent new) : (diff base new).apply r = new := by
  funext i
  unfold Delta.apply
  by_cases heq : new i = base i
  · rw [diff_eq_none heq]
    rcases h i with hbase | ⟨m, hm, hi⟩
    · exact hbase.trans heq.symm
    · have hsame : r i = base i := by
        by_contra hne
        exact hcov m hm i (r i) hi hne heq
      exact hsame.trans heq.symm
  · rw [diff_eq_some heq]
    rfl

end Diff

end Delta

/-! ## 2. Sender, channel and receiver -/

/-- A message replaces the whole record, or the fields of a record that is there. -/
inductive Replacement (α : ι → Type)
  | full (new : (i : ι) → α i)
  | delta (m : Delta α)

namespace Replacement

def carried : Replacement α → Delta α
  | full new => Delta.full new
  | delta m => m

def apply : Replacement α → Option ((i : ι) → α i) → Option ((i : ι) → α i)
  | full new, _ => some new
  | delta m, held => held.map m.apply

end Replacement

/-- The record acknowledged last; the number of the message that waits for its answer, and the record it was
    sent for; the messages sent and not received, in order; the number of the next one; those that have been
    answered; what the receiver holds; what was sent since the last acknowledgement. -/
structure Replica (α : ι → Type) where
  base : (i : ι) → α i
  pending : Option (Nat × ((i : ι) → α i))
  channel : List (Nat × Replacement α)
  next : Nat
  answered : List Nat
  held : Option ((i : ι) → α i)
  unacked : List (Delta α)

namespace Replica

/-- A message joins the channel, and the one before it is given up. -/
def send (new : (i : ι) → α i) (m : Replacement α) (s : Replica α) : Replica α :=
  { s with
    pending := some (s.next, new), channel := s.channel ++ [(s.next, m)], next := s.next + 1
    unacked := s.unacked ++ [m.carried] }

variable [(i : ι) → DecidableEq (α i)]

inductive Step (s : Replica α) : Replica α → Prop
  | sendFull (new : (i : ι) → α i) : Step s (s.send new (.full new))
  | sendDiff (new : (i : ι) → α i) (h : Delta.Covered s.base s.unacked new) :
      Step s (s.send new (.delta (Delta.diff s.base new)))
  | cancel : Step s { s with pending := none }
  | lose (n : Nat) : Step s { s with channel := s.channel.eraseIdx n }
  | receive {id : Nat} {m : Replacement α} {rest : List (Nat × Replacement α)} (h : s.channel = (id, m) :: rest)
      (hheld : (m.apply s.held).isSome) :
      Step s { s with channel := rest, held := m.apply s.held, answered := id :: s.answered }
  | receiveSilently {id : Nat} {m : Replacement α} {rest : List (Nat × Replacement α)}
      (h : s.channel = (id, m) :: rest) : Step s { s with channel := rest, held := m.apply s.held }
  | acknowledge {id : Nat} {new : (i : ι) → α i} (h : s.pending = some (id, new)) (hanswered : id ∈ s.answered) :
      Step s { s with base := new, pending := none, unacked := [] }

/-- Several steps. -/
abbrev Steps : Replica α → Replica α → Prop := Relation.ReflTransGen Step

theorem Step.steps {s s' : Replica α} (h : Step s s') : Steps s s' := Relation.ReflTransGen.single h

/-! ## 3. What the receiver may hold -/

/-- `m` was made for `new`, and carries what the messages of `sent` may have changed. -/
def MadeFor (base : (i : ι) → α i) (sent : List (Delta α)) (new : (i : ι) → α i) (m : Replacement α) : Prop :=
  m = .full new ∨ m = .delta (Delta.diff base new) ∧ Delta.Covered base sent new

structure Sound (s : Replica α) : Prop where
  last : ∀ id new, s.pending = some (id, new) → id + 1 = s.next
  below : ∀ p ∈ s.channel, p.1 < s.next
  ordered : s.channel.Pairwise fun a b => a.1 < b.1
  answered : ∀ id ∈ s.answered, id < s.next ∧ ∀ p ∈ s.channel, id < p.1
  remembered : ∀ p ∈ s.channel, p.2.carried ∈ s.unacked
  explained : ∀ r, s.held = some r → Delta.Explained s.base s.unacked r
  waiting : ∀ id new, s.pending = some (id, new) → ∀ p ∈ s.channel, p.1 = id → MadeFor s.base s.unacked new p.2
  applied : ∀ id new, s.pending = some (id, new) → id ∈ s.answered → s.held = some new

theorem Sound.send {s : Replica α} {new : (i : ι) → α i} {m : Replacement α} (h : s.Sound)
    (hm : MadeFor s.base (s.unacked ++ [m.carried]) new m) : (s.send new m).Sound where
  last := by
    rintro id new' heq
    cases heq
    rfl
  below := by
    intro p hp
    rcases List.mem_append.mp hp with hp | hp
    · exact Nat.lt_succ_of_lt (h.below p hp)
    · rw [List.mem_singleton.mp hp]
      exact Nat.lt_succ_self _
  ordered := by
    refine List.pairwise_append.mpr ⟨h.ordered, List.pairwise_singleton _ _, fun a ha b hb => ?_⟩
    rw [List.mem_singleton.mp hb]
    exact h.below a ha
  answered := by
    intro id hid
    obtain ⟨hlt, hbefore⟩ := h.answered id hid
    refine ⟨Nat.lt_succ_of_lt hlt, fun p hp => ?_⟩
    rcases List.mem_append.mp hp with hp | hp
    · exact hbefore p hp
    · rw [List.mem_singleton.mp hp]
      exact hlt
  remembered := by
    intro p hp
    rcases List.mem_append.mp hp with hp | hp
    · exact List.mem_append_left _ (h.remembered p hp)
    · rw [List.mem_singleton.mp hp]
      exact List.mem_append_right _ (List.mem_singleton_self _)
  explained := fun r hr => (h.explained r hr).mono fun _ hm' => List.mem_append_left _ hm'
  waiting := by
    rintro id new' heq p hp hid
    cases heq
    rcases List.mem_append.mp hp with hp | hp
    · exact absurd hid (Nat.ne_of_lt (h.below p hp))
    · rw [List.mem_singleton.mp hp]
      exact hm
  applied := by
    rintro id new' heq hid
    cases heq
    exact absurd (h.answered _ hid).1 (Nat.lt_irrefl _)

/-- What the receiver holds once it has applied the oldest message. -/
theorem Sound.explained_apply {s : Replica α} (h : s.Sound) {id : Nat} {m : Replacement α}
    {rest : List (Nat × Replacement α)} (hchannel : s.channel = (id, m) :: rest) {r : (i : ι) → α i}
    (hr : m.apply s.held = some r) : Delta.Explained s.base s.unacked r := by
  have hmem : m.carried ∈ s.unacked := h.remembered (id, m) (hchannel ▸ List.mem_cons_self)
  cases m with
  | full new =>
      cases hr
      exact .full hmem
  | delta d =>
      obtain ⟨r', hr', rfl⟩ := Option.map_eq_some_iff.mp hr
      exact (h.explained r' hr').apply hmem

/-- The message that waits for its answer gives the record it was sent for. -/
theorem Sound.apply_waiting {s : Replica α} (h : s.Sound) {id : Nat} {m : Replacement α} {new : (i : ι) → α i}
    {rest : List (Nat × Replacement α)} (hchannel : s.channel = (id, m) :: rest) (hpending : s.pending = some (id, new))
    (hheld : (m.apply s.held).isSome) : m.apply s.held = some new := by
  rcases h.waiting id new hpending (id, m) (hchannel ▸ List.mem_cons_self) rfl with hm | ⟨hm, hcov⟩
  · dsimp only at hm
    rw [hm]
    rfl
  · dsimp only at hm
    rw [hm] at hheld ⊢
    obtain ⟨r, hr⟩ := Option.isSome_iff_exists.mp hheld
    obtain ⟨r', hr', -⟩ := Option.map_eq_some_iff.mp hr
    show s.held.map _ = some new
    rw [hr', Option.map_some, (h.explained r' hr').apply_diff hcov]

/-- What is left in the channel is what was sent later. -/
theorem Sound.later {s : Replica α} (h : s.Sound) {id : Nat} {m : Replacement α} {rest : List (Nat × Replacement α)}
    (hchannel : s.channel = (id, m) :: rest) : ∀ p ∈ rest, id < p.1 := by
  have hordered := h.ordered
  rw [hchannel] at hordered
  exact (List.pairwise_cons.mp hordered).1

theorem Sound.receiveSilently {s : Replica α} (h : s.Sound) {id : Nat} {m : Replacement α}
    {rest : List (Nat × Replacement α)} (hchannel : s.channel = (id, m) :: rest) :
    Sound { s with channel := rest, held := m.apply s.held } := by
  have hsub : ∀ p ∈ rest, p ∈ s.channel := fun p hp => hchannel ▸ List.mem_cons_of_mem _ hp
  have hordered := h.ordered
  rw [hchannel] at hordered
  refine ⟨h.last, fun p hp => h.below p (hsub p hp), (List.pairwise_cons.mp hordered).2, fun id' hid' => ?_,
    fun p hp => h.remembered p (hsub p hp), fun r hr => h.explained_apply hchannel hr,
    fun id' new hpending p hp => h.waiting id' new hpending p (hsub p hp), fun id' new hpending hid' => ?_⟩
  · exact ⟨(h.answered id' hid').1, fun p hp => (h.answered id' hid').2 p (hsub p hp)⟩
  · -- an answered message is the last one, and the channel has only what was sent before it
    have hlast := h.last id' new hpending
    have hbefore := (h.answered id' hid').2 (id, m) (hchannel ▸ List.mem_cons_self)
    have hbelow := h.below (id, m) (hchannel ▸ List.mem_cons_self)
    omega

/-- **An acknowledged message has left the receiver with the record it was sent for, and nothing is under way.** -/
theorem Sound.acknowledge {s : Replica α} (h : s.Sound) {id : Nat} {new : (i : ι) → α i}
    (hpending : s.pending = some (id, new)) (hanswered : id ∈ s.answered) : s.channel = [] ∧ s.held = some new := by
  refine ⟨List.eq_nil_iff_forall_not_mem.mpr fun p hp => ?_, h.applied id new hpending hanswered⟩
  have hlast := h.last id new hpending
  have hbefore := (h.answered id hanswered).2 p hp
  have hbelow := h.below p hp
  omega

/-- **Every step keeps the explanation.** -/
theorem Sound.step {s s' : Replica α} (h : s.Sound) (hs : Step s s') : s'.Sound := by
  cases hs with
  | sendFull new => exact h.send (Or.inl rfl)
  | sendDiff new hcov => exact h.send (Or.inr ⟨rfl, hcov.append_diff⟩)
  | cancel =>
      exact ⟨nofun, h.below, h.ordered, h.answered, h.remembered, h.explained, nofun, nofun⟩
  | lose n =>
      have hsub := List.eraseIdx_sublist s.channel n
      exact ⟨h.last, fun p hp => h.below p (hsub.subset hp), h.ordered.sublist hsub,
        fun id hid => ⟨(h.answered id hid).1, fun p hp => (h.answered id hid).2 p (hsub.subset hp)⟩,
        fun p hp => h.remembered p (hsub.subset hp), h.explained,
        fun id new hpending p hp => h.waiting id new hpending p (hsub.subset hp), h.applied⟩
  | receiveSilently hchannel => exact h.receiveSilently hchannel
  | receive hchannel hheld =>
      rename_i id m rest
      have hsilent := h.receiveSilently hchannel
      refine ⟨hsilent.last, hsilent.below, hsilent.ordered, fun id' hid' => ?_, hsilent.remembered, hsilent.explained,
        hsilent.waiting, fun id' new hpending hid' => ?_⟩
      · rcases List.mem_cons.mp hid' with rfl | hid'
        · exact ⟨h.below (id', m) (hchannel ▸ List.mem_cons_self), h.later hchannel⟩
        · exact hsilent.answered id' hid'
      · rcases List.mem_cons.mp hid' with rfl | hid'
        · exact h.apply_waiting hchannel hpending hheld
        · exact hsilent.applied id' new hpending hid'
  | acknowledge hpending hanswered =>
      rename_i id new
      obtain ⟨hempty, hsame⟩ := h.acknowledge hpending hanswered
      refine ⟨nofun, h.below, h.ordered, h.answered, fun p hp => ?_, fun r hr => ?_, nofun, nofun⟩
      · have hp' : p ∈ s.channel := hp
        rw [hempty] at hp'
        cases hp'
      · cases hsame.symm.trans hr
        exact .base

theorem Sound.steps {s s' : Replica α} (h : s.Sound) (hs : Steps s s') : s'.Sound := by
  induction hs with
  | refl => exact h
  | tail _ hstep ih => exact ih.step hstep

end Replica

end Anjay.Lib
