/-
  File:      Anjay/Dm/Printing.lean
  Subject:   Functions that print to a stream and return 0 or an error.

  * `Prints`: what such a function has written if it returns 0, and what it has found out then.
  * `Prints.andThen`, `Prints.foreach`: one printer after the other, and a printer for each element of an enumeration.
-/
import Anjay.Dm.Object
import Anjay.Io.Stream

namespace Anjay.Dm

variable {α : Type}

/-- A function that prints to a stream: its result, and the stream that it leaves. -/
abbrev Printer := OutStream → Int × OutStream

namespace Printer

def nothing : Printer := fun stream => (0, stream)

/-- `return result`. -/
def fail (result : Int) : Printer := fun stream => (result, stream)

/-- One write. -/
def write (data : List UInt8) : Printer := fun stream => stream.writeCode data

/-- `p || q`: `q` runs if `p` returns 0. -/
def andThen (p q : Printer) : Printer := fun stream => if (p stream).1 ≠ 0 then p stream else q (p stream).2

def all (ps : List Printer) : Printer := ps.foldr andThen nothing

/-- A printer that returns -1 for each error. -/
def orMinusOne (p : Printer) : Printer := fun stream => (if (p stream).1 ≠ 0 then -1 else 0, (p stream).2)

end Printer

/-- If `p` returns 0 it has written `text`, and `P` holds. -/
def Prints (p : Printer) (P : Prop) (text : List UInt8) : Prop :=
  ∀ stream, (p stream).1 = 0 → P ∧ (p stream).2 = stream.push text

/-- `p` returns nothing that an enumeration takes as the request to stop. -/
def NeverBreaks (p : Printer) : Prop := ∀ stream, (p stream).1 ≠ foreachBreak

namespace Prints

variable {p q : Printer} {P Q : Prop} {text rest : List UInt8}

theorem nothing : Prints .nothing True [] := fun stream _ => ⟨trivial, (OutStream.push_nil stream).symm⟩

theorem write (data : List UInt8) : Prints (.write data) True data :=
  fun _ h => ⟨trivial, OutStream.writeCode_ok h⟩

theorem fail {result : Int} (h : result ≠ 0) : Prints (.fail result) P text := fun _ hret => absurd hret h

theorem mono (h : Prints p P text) (hPQ : P → Q) : Prints p Q text :=
  fun stream hret => ⟨hPQ (h stream hret).1, (h stream hret).2⟩

theorem congr (h : Prints p P text) (htext : P → text = rest) : Prints p P rest :=
  fun stream hret => ⟨(h stream hret).1, by rw [← htext (h stream hret).1]; exact (h stream hret).2⟩

/-- **One printer after the other.** -/
theorem andThen (hp : Prints p P text) (hq : Prints q Q rest) : Prints (p.andThen q) (P ∧ Q) (text ++ rest) := by
  intro stream hret
  unfold Printer.andThen at hret ⊢
  by_cases h0 : (p stream).1 = 0
  · obtain ⟨hP, hpush⟩ := hp stream h0
    rw [if_neg (not_not.mpr h0)] at hret ⊢
    obtain ⟨hQ, hrest⟩ := hq _ hret
    exact ⟨⟨hP, hQ⟩, by rw [hrest, hpush, OutStream.push_push]⟩
  · rw [if_pos h0] at hret
    exact absurd hret h0

theorem orMinusOne (hp : Prints p P text) : Prints p.orMinusOne P text := by
  intro stream hret
  unfold Printer.orMinusOne at hret ⊢
  dsimp only at hret ⊢
  split at hret
  · cases hret
  next h0 => exact hp stream (not_not.mp h0)

theorem all {ps : List Printer} {texts : List (List UInt8)}
    (h : List.Forall₂ (fun p text => Prints p True text) ps texts) :
    Prints (Printer.all ps) True texts.flatten := by
  induction h with
  | nil => exact nothing
  | cons hp _ ih => exact (andThen hp ih).mono fun _ => trivial

/-- **A printer for each element of an enumeration.** -/
theorem foreach (idOf : α → Id) {handler : α → Printer} {P : α → Prop} {text : α → List UInt8}
    (h : ∀ a, Prints (handler a) (P a) (text a)) (hbreak : ∀ a, NeverBreaks (handler a)) (listed : List α × Int) :
    Prints (foreach idOf listed handler)
      (Ascending idOf (-1) listed.1 ∧ 0 ≤ listed.2 ∧ ∀ a ∈ listed.1, P a) (listed.1.flatMap text) := by
  intro stream hret
  have hfold : ∀ (as : List α) (stream : OutStream),
      as.foldl (fun stream a => stream.push (text a)) stream = stream.push (as.flatMap text) := by
    intro as
    induction as with
    | nil => exact fun stream => (OutStream.push_nil stream).symm
    | cons a as ih =>
        intro stream
        rw [List.foldl_cons, ih, OutStream.push_push, List.flatMap_cons]
  have hnext : ∀ a (stream : OutStream), (handler a stream).1 = 0 →
      P a ∧ (handler a stream).2 = (fun (stream : OutStream) a => stream.push (text a)) stream a :=
    fun a stream h0 => h a stream h0
  obtain ⟨hasc, hcode, hP, hlast⟩ := foreach_ok hnext hbreak hret
  exact ⟨⟨hasc, hcode, hP⟩, hlast.trans (hfold listed.1 stream)⟩

end Prints

namespace NeverBreaks

variable {p q : Printer}

theorem write (data : List UInt8) : NeverBreaks (.write data) := by
  intro stream
  rcases OutStream.writeCode_cases stream data with h | h <;> rw [Printer.write, h] <;> decide

theorem nothing : NeverBreaks .nothing := fun _ => (by decide : (0 : Int) ≠ foreachBreak)

theorem fail {result : Int} (h : result ≠ foreachBreak) : NeverBreaks (.fail result) := fun _ => h

theorem andThen (hp : NeverBreaks p) (hq : NeverBreaks q) : NeverBreaks (p.andThen q) := by
  intro stream
  unfold Printer.andThen
  split
  · exact hp stream
  · exact hq _

theorem all {ps : List Printer} (h : ∀ p ∈ ps, NeverBreaks p) : NeverBreaks (Printer.all ps) := by
  induction ps with
  | nil => exact nothing
  | cons p ps ih => exact andThen (h p List.mem_cons_self) (ih fun q hq => h q (List.mem_cons_of_mem _ hq))

theorem orMinusOne (p : Printer) : NeverBreaks p.orMinusOne := by
  intro stream
  unfold Printer.orMinusOne
  dsimp only
  split
  · exact (by decide : (-1 : Int) ≠ foreachBreak)
  · exact (by decide : (0 : Int) ≠ foreachBreak)

theorem foreach {idOf : α → Id} {handler : α → Printer} {listed : List α × Int} (h : listed.2 ≠ foreachBreak) :
    NeverBreaks (foreach idOf listed handler) := by
  intro stream
  by_cases hcode : 0 ≤ listed.2
  · exact foreach_ne_break hcode stream
  · rw [Dm.foreach]
    dsimp only
    rw [if_pos (by omega)]
    exact h

end NeverBreaks

end Anjay.Dm
