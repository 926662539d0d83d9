/-
  File:      Anjay/Lib/JsonReader.lean
  Subject:   Reading JSON texts (RFC 8259) whose numbers are integers.

  * `Value`, `read`: the value that a text denotes.
  * `Reads`: a text that is read as a value, whatever delimiter comes behind it.
  * `Reads.string`, `Reads.int`, `Reads.array`, `Reads.object`: how texts are put together; `Reads.read`: the whole
    text.
-/
import Anjay.Lib.Json

namespace Anjay.Lib.Json

/-! ## 1. Reading -/

/-- A JSON value; the strings and keys are UTF-8. -/
inductive Value
  | null
  | bool (b : Bool)
  | int (n : Int)
  | string (s : List UInt8)
  | array (values : List Value)
  | object (members : List (List UInt8 × Value))

def comma : UInt8 := 0x2C
def colon : UInt8 := 0x3A
def minus : UInt8 := 0x2D
def openBracket : UInt8 := 0x5B
def closeBracket : UInt8 := 0x5D
def openBrace : UInt8 := 0x7B
def closeBrace : UInt8 := 0x7D

/-- White space. -/
def isBlank (c : UInt8) : Bool := c == 0x20 || c == 0x09 || c == 0x0A || c == 0x0D

def skipBlanks (text : List UInt8) : List UInt8 := text.dropWhile isBlank

def isDigit (c : UInt8) : Bool := decide (0x30 ≤ c ∧ c ≤ 0x39)

/-- The number that digits spell. -/
def digitsValue (ds : List UInt8) : Nat := ds.foldl (fun v c => v * 10 + (c.toNat - 0x30)) 0

/-- A digit sequence without superfluous zeros. -/
def isInteger (ds : List UInt8) : Bool := !ds.isEmpty && (ds.length == 1 || ds.head? != some 0x30)

/-- Whether a fraction or an exponent follows. -/
def continuesNumber (rest : List UInt8) : Bool :=
  match rest with
  | [] => false
  | c :: _ => c == 0x2E || c == 0x65 || c == 0x45

/-- An integer without its sign. -/
def readNat (text : List UInt8) : Option (Nat × List UInt8) :=
  if isInteger (text.takeWhile isDigit) && !continuesNumber (text.dropWhile isDigit) then
    some (digitsValue (text.takeWhile isDigit), text.dropWhile isDigit)
  else none

/-- An integer. -/
def readInt (text : List UInt8) : Option (Int × List UInt8) :=
  match text with
  | [] => none
  | c :: rest =>
      if c = minus then (readNat rest).map fun r => (-(r.1 : Int), r.2)
      else (readNat text).map fun r => ((r.1 : Int), r.2)

/-- The text behind a word. -/
def readWord (word text : List UInt8) : Option (List UInt8) :=
  if text.take word.length = word then some (text.drop word.length) else none

def wordTrue : List UInt8 := [0x74, 0x72, 0x75, 0x65]
def wordFalse : List UInt8 := [0x66, 0x61, 0x6C, 0x73, 0x65]
def wordNull : List UInt8 := [0x6E, 0x75, 0x6C, 0x6C]

/-- A value that is neither a string nor nested. -/
def readScalar (text : List UInt8) : Option (Value × List UInt8) :=
  match readWord wordTrue text with
  | some rest => some (.bool true, rest)
  | none =>
      match readWord wordFalse text with
      | some rest => some (.bool false, rest)
      | none =>
          match readWord wordNull text with
          | some rest => some (.null, rest)
          | none => (readInt text).map fun r => (.int r.1, r.2)

/-- The key of a member with the colon behind it. -/
def readKey (text : List UInt8) : Option (List UInt8 × List UInt8) :=
  match skipBlanks text with
  | [] => none
  | c :: rest =>
      if c = quote then
        match stringBody rest with
        | none => none
        | some (key, rest) =>
            match skipBlanks rest with
            | [] => none
            | d :: rest => if d = colon then some (key, rest) else none
      else none

mutual

/-- A value and the text behind it. -/
def readValue : Nat → List UInt8 → Option (Value × List UInt8)
  | 0, _ => none
  | fuel + 1, text =>
      match skipBlanks text with
      | [] => none
      | c :: rest =>
          if c = quote then (stringBody rest).map fun r => (.string r.1, r.2)
          else if c = openBracket then
            if (skipBlanks rest).head? = some closeBracket then some (.array [], (skipBlanks rest).tail)
            else (readElements fuel rest).map fun r => (.array r.1, r.2)
          else if c = openBrace then
            if (skipBlanks rest).head? = some closeBrace then some (.object [], (skipBlanks rest).tail)
            else (readMembers fuel rest).map fun r => (.object r.1, r.2)
          else readScalar (c :: rest)

/-- The elements of an array, at least one, up to its closing bracket. -/
def readElements : Nat → List UInt8 → Option (List Value × List UInt8)
  | 0, _ => none
  | fuel + 1, text =>
      match readValue fuel text with
      | none => none
      | some (value, rest) =>
          match skipBlanks rest with
          | [] => none
          | c :: rest =>
              if c = comma then (readElements fuel rest).map fun r => (value :: r.1, r.2)
              else if c = closeBracket then some ([value], rest)
              else none

/-- The members of an object, at least one, up to its closing brace. -/
def readMembers : Nat → List UInt8 → Option (List (List UInt8 × Value) × List UInt8)
  | 0, _ => none
  | fuel + 1, text =>
      match readKey text with
      | none => none
      | some (key, rest) =>
          match readValue fuel rest with
          | none => none
          | some (value, rest) =>
              match skipBlanks rest with
              | [] => none
              | c :: rest =>
                  if c = comma then (readMembers fuel rest).map fun r => ((key, value) :: r.1, r.2)
                  else if c = closeBrace then some ([(key, value)], rest)
                  else none

end

/-- **The value that a text denotes.** -/
def read (text : List UInt8) : Option Value :=
  match readValue (2 * text.length) text with
  | none => none
  | some (value, rest) => if (skipBlanks rest).isEmpty then some value else none

/-! ## 2. Texts that are read -/

/-- What can stand behind a value inside an array or an object. -/
def isDelimiter (c : UInt8) : Bool := c == comma || c == closeBracket || c == closeBrace

/-- The rest of a text begins with a delimiter. -/
def Ends (rest : List UInt8) : Prop := rest = [] ∨ ∃ c cs, rest = c :: cs ∧ isDelimiter c = true

theorem Ends.cons {c : UInt8} (h : isDelimiter c = true) (rest : List UInt8) : Ends (c :: rest) :=
  .inr ⟨c, rest, rfl, h⟩

/-- A text that is read as a value, with enough fuel. -/
structure Reads (text : List UInt8) (value : Value) : Prop where
  starts : ∃ c cs, text = c :: cs ∧ isBlank c = false ∧ isDelimiter c = false
  reads : ∀ fuel rest, 2 * text.length ≤ fuel → Ends rest → readValue fuel (text ++ rest) = some (value, rest)

theorem skipBlanks_cons {c : UInt8} (h : isBlank c = false) (rest : List UInt8) : skipBlanks (c :: rest) = c :: rest := by
  unfold skipBlanks
  rw [List.dropWhile_cons_of_neg (by simp [h])]

theorem isDelimiter_not_blank {c : UInt8} (h : isDelimiter c = true) : isBlank c = false := by
  unfold isDelimiter at h
  rw [Bool.or_eq_true, Bool.or_eq_true, beq_iff_eq, beq_iff_eq, beq_iff_eq] at h
  rcases h with (rfl | rfl) | rfl <;> rfl

theorem Reads.read {text : List UInt8} {value : Value} (h : Reads text value) : read text = some value := by
  have hread := h.reads (2 * text.length) [] (Nat.le_refl _) (.inl rfl)
  rw [List.append_nil] at hread
  unfold Json.read
  rw [hread]
  rfl

/-- Texts with commas between them. -/
def separated : List (List UInt8) → List UInt8
  | [] => []
  | [text] => text
  | text :: texts => text ++ comma :: separated texts

theorem separated_cons {text : List UInt8} {texts : List (List UInt8)} (h : texts ≠ []) :
    separated (text :: texts) = text ++ comma :: separated texts := by
  cases texts with
  | nil => exact absurd rfl h
  | cons t ts => rfl

/-- A text at the end. -/
theorem separated_append (texts : List (List UInt8)) (text : List UInt8) :
    separated (texts ++ [text]) = separated texts ++ (if texts = [] then [] else [comma]) ++ text := by
  induction texts with
  | nil => rfl
  | cons t ts ih =>
      rw [List.cons_append, separated_cons (List.append_ne_nil_of_right_ne_nil _ (List.cons_ne_nil _ _)), ih]
      by_cases hts : ts = []
      · subst hts
        simp [separated]
      · rw [separated_cons hts, if_neg hts, if_neg (List.cons_ne_nil _ _)]
        simp

/-! ## 3. Strings, words and numbers -/

/-- Characters that stand for themselves in a string. -/
def isPlain (c : UInt8) : Bool := decide (c ≠ quote ∧ c ≠ backslash ∧ ¬c < 0x20)

theorem stringBody_plain : ∀ {cs : List UInt8} (rest : List UInt8), (∀ c ∈ cs, isPlain c = true) →
    stringBody (cs ++ quote :: rest) = some (cs, rest)
  | [], rest, _ => stringBody_quote rest
  | c :: cs, rest, h => by
      obtain ⟨hc, hcs⟩ := List.forall_mem_cons.mp h
      obtain ⟨hquote, hbackslash, hcontrol⟩ : c ≠ quote ∧ c ≠ backslash ∧ ¬c < 0x20 := of_decide_eq_true hc
      rw [List.cons_append, stringBody_unescaped _ hquote hbackslash hcontrol, stringBody_plain rest hcs]
      rfl

/-- A string, of which the body is read as `s`. -/
theorem Reads.string {body s : List UInt8} (h : ∀ rest, stringBody (body ++ rest) = some (s, rest)) :
    Reads (quote :: body) (.string s) := by
  refine ⟨⟨quote, body, rfl, rfl, rfl⟩, fun fuel rest hfuel _ => ?_⟩
  cases fuel with
  | zero => exact absurd hfuel (by simp)
  | succ fuel =>
      rw [List.cons_append, readValue, skipBlanks_cons rfl]
      dsimp only
      rw [if_pos rfl, h rest]
      rfl

/-- A string of plain characters. -/
theorem Reads.plain {cs : List UInt8} (h : ∀ c ∈ cs, isPlain c = true) :
    Reads (quote :: (cs ++ [quote])) (.string cs) :=
  Reads.string fun rest => by
    rw [List.append_assoc]
    exact stringBody_plain rest h

/-- A scalar that is not a string. -/
theorem Reads.scalar {text : List UInt8} {value : Value}
    (hstarts : ∃ c cs, text = c :: cs ∧ isBlank c = false ∧ isDelimiter c = false ∧ c ≠ quote ∧ c ≠ openBracket ∧
      c ≠ openBrace) (h : ∀ rest, Ends rest → readScalar (text ++ rest) = some (value, rest)) : Reads text value := by
  obtain ⟨c, cs, rfl, hblank, hdelimiter, hquote, hbracket, hbrace⟩ := hstarts
  refine ⟨⟨c, cs, rfl, hblank, hdelimiter⟩, fun fuel rest hfuel hends => ?_⟩
  cases fuel with
  | zero => exact absurd hfuel (by simp)
  | succ fuel =>
      rw [List.cons_append, readValue, skipBlanks_cons hblank]
      dsimp only
      rw [if_neg hquote, if_neg hbracket, if_neg hbrace]
      exact h rest hends

theorem Reads.wordTrue : Reads wordTrue (.bool true) :=
  Reads.scalar ⟨0x74, _, rfl, by decide⟩ fun _ _ => rfl

theorem Reads.wordFalse : Reads wordFalse (.bool false) :=
  Reads.scalar ⟨0x66, _, rfl, by decide⟩ fun _ _ => rfl

theorem takeWhile_digits {ds rest : List UInt8} (hds : ∀ c ∈ ds, isDigit c = true) (hends : Ends rest) :
    (ds ++ rest).takeWhile isDigit = ds ∧ (ds ++ rest).dropWhile isDigit = rest ∧ continuesNumber rest = false := by
  have hrest : rest.takeWhile isDigit = [] ∧ rest.dropWhile isDigit = rest ∧ continuesNumber rest = false := by
    rcases hends with rfl | ⟨c, cs, rfl, hc⟩
    · exact ⟨rfl, rfl, rfl⟩
    · unfold isDelimiter at hc
      rw [Bool.or_eq_true, Bool.or_eq_true, beq_iff_eq, beq_iff_eq, beq_iff_eq] at hc
      rcases hc with (rfl | rfl) | rfl <;> exact ⟨rfl, rfl, rfl⟩
  rw [List.takeWhile_append_of_pos hds, List.dropWhile_append_of_pos hds, hrest.1, hrest.2.1, List.append_nil]
  exact ⟨rfl, rfl, hrest.2.2⟩

theorem readNat_digits {ds rest : List UInt8} (hds : ∀ c ∈ ds, isDigit c = true) (hinteger : isInteger ds = true)
    (hends : Ends rest) : readNat (ds ++ rest) = some (digitsValue ds, rest) := by
  obtain ⟨htake, hdrop, hcontinues⟩ := takeWhile_digits hds hends
  unfold readNat
  rw [htake, hdrop, hinteger, hcontinues]
  rfl

theorem isDigit_cases {c : UInt8} (h : isDigit c = true) :
    isBlank c = false ∧ isDelimiter c = false ∧ c ≠ quote ∧ c ≠ openBracket ∧ c ≠ openBrace ∧ c ≠ minus ∧
      c ≠ 0x74 ∧ c ≠ 0x66 ∧ c ≠ 0x6E := by
  have hall : ∀ n : Fin 256, isDigit (UInt8.ofNat n.val) = true →
      isBlank (UInt8.ofNat n.val) = false ∧ isDelimiter (UInt8.ofNat n.val) = false ∧ UInt8.ofNat n.val ≠ quote ∧
        UInt8.ofNat n.val ≠ openBracket ∧ UInt8.ofNat n.val ≠ openBrace ∧ UInt8.ofNat n.val ≠ minus ∧
        UInt8.ofNat n.val ≠ 0x74 ∧ UInt8.ofNat n.val ≠ 0x66 ∧ UInt8.ofNat n.val ≠ 0x6E := by decide +kernel
  have hc := hall ⟨c.toNat, c.toNat_lt⟩
  rw [UInt8.ofNat_toNat] at hc
  exact hc h

/-- No word begins with this character. -/
theorem readScalar_int {c : UInt8} {cs : List UInt8} (ht : c ≠ 0x74) (hf : c ≠ 0x66) (hn : c ≠ 0x6E) :
    readScalar (c :: cs) = (readInt (c :: cs)).map fun r => (.int r.1, r.2) := by
  have hword : ∀ d ds, c ≠ d → readWord (d :: ds) (c :: cs) = none := fun d ds hne => by
    unfold readWord
    exact if_neg fun h => hne (List.cons.inj h).1
  unfold readScalar
  rw [show Json.wordTrue = 0x74 :: [0x72, 0x75, 0x65] from rfl, hword _ _ ht,
    show Json.wordFalse = 0x66 :: [0x61, 0x6C, 0x73, 0x65] from rfl, hword _ _ hf,
    show wordNull = 0x6E :: [0x75, 0x6C, 0x6C] from rfl, hword _ _ hn]

/-- An integer that is not negative. -/
theorem Reads.nat {ds : List UInt8} (hds : ∀ c ∈ ds, isDigit c = true) (hinteger : isInteger ds = true) :
    Reads ds (.int (digitsValue ds)) := by
  cases ds with
  | nil => exact nomatch hinteger
  | cons d ds' =>
      obtain ⟨hblank, hdelimiter, hquote, hbracket, hbrace, hminus, ht, hf, hn⟩ :=
        isDigit_cases (hds d List.mem_cons_self)
      refine Reads.scalar ⟨d, ds', rfl, hblank, hdelimiter, hquote, hbracket, hbrace⟩ fun rest hends => ?_
      have hnat := readNat_digits hds hinteger hends
      rw [List.cons_append] at hnat ⊢
      rw [readScalar_int ht hf hn]
      unfold readInt
      dsimp only
      rw [if_neg hminus, hnat]
      rfl

/-- A negative integer. -/
theorem Reads.neg {ds : List UInt8} (hds : ∀ c ∈ ds, isDigit c = true) (hinteger : isInteger ds = true) :
    Reads (minus :: ds) (.int (-(digitsValue ds : Int))) := by
  refine Reads.scalar ⟨minus, ds, rfl, by decide⟩ fun rest hends => ?_
  rw [List.cons_append, readScalar_int (by decide) (by decide) (by decide)]
  unfold readInt
  dsimp only
  rw [if_pos rfl, readNat_digits hds hinteger hends]
  rfl

/-! ## 4. Arrays and objects -/

/-- Behind a value of a list: a comma and the rest of the list, or what closes it. -/
theorem readElements_step {text : List UInt8} {value : Value} (h : Reads text value) {fuel : Nat}
    (hfuel : 2 * text.length ≤ fuel) {c : UInt8} (hc : isDelimiter c = true) (rest : List UInt8) :
    readElements (fuel + 1) (text ++ c :: rest) =
      if c = comma then (readElements fuel rest).map fun r => (value :: r.1, r.2)
      else if c = closeBracket then some ([value], rest)
      else none := by
  rw [readElements, h.reads fuel (c :: rest) hfuel (.cons hc rest)]
  dsimp only
  rw [skipBlanks_cons (isDelimiter_not_blank hc)]

theorem readElements_separated : ∀ {items : List (List UInt8 × Value)} {fuel : Nat} (rest : List UInt8),
    items ≠ [] → (∀ i ∈ items, Reads i.1 i.2) → 2 * (separated (items.map Prod.fst)).length + 1 ≤ fuel →
    readElements fuel (separated (items.map Prod.fst) ++ closeBracket :: rest) = some (items.map Prod.snd, rest)
  | [], _, _, hne, _, _ => absurd rfl hne
  | [(text, value)], fuel, rest, _, h, hfuel => by
      obtain ⟨fuel', rfl⟩ : ∃ f, fuel = f + 1 := ⟨fuel - 1, by omega⟩
      have hread := h (text, value) List.mem_cons_self
      exact readElements_step hread (by simpa [separated] using hfuel) rfl rest
  | (text, value) :: i :: items, fuel, rest, _, h, hfuel => by
      obtain ⟨fuel', rfl⟩ : ∃ f, fuel = f + 1 := ⟨fuel - 1, by omega⟩
      obtain ⟨hread, hrest⟩ : Reads text value ∧ ∀ j ∈ i :: items, Reads j.1 j.2 := List.forall_mem_cons.mp h
      have hsep : separated (((text, value) :: i :: items).map Prod.fst) =
          text ++ comma :: separated ((i :: items).map Prod.fst) := rfl
      rw [hsep, List.length_append, List.length_cons] at hfuel
      rw [hsep, List.append_assoc, List.cons_append, readElements_step hread (by omega) rfl, if_pos rfl,
        readElements_separated rest (List.cons_ne_nil _ _) hrest (by omega)]
      rfl

/-- The first character of a list of texts. -/
theorem separated_starts : ∀ {items : List (List UInt8 × Value)}, items ≠ [] → (∀ i ∈ items, Reads i.1 i.2) →
    ∃ c cs, separated (items.map Prod.fst) = c :: cs ∧ isBlank c = false ∧ isDelimiter c = false
  | [], hne, _ => absurd rfl hne
  | [i], _, h => (h i List.mem_cons_self).starts
  | i :: j :: items, _, h => by
      obtain ⟨c, cs, htext, hc⟩ := (h i List.mem_cons_self).starts
      refine ⟨c, cs ++ comma :: separated ((j :: items).map Prod.fst), ?_, hc⟩
      show i.1 ++ comma :: _ = _
      rw [htext]
      rfl

/-- **An array of texts that are read.** -/
theorem Reads.array {items : List (List UInt8 × Value)} (h : ∀ i ∈ items, Reads i.1 i.2) :
    Reads (openBracket :: (separated (items.map Prod.fst) ++ [closeBracket])) (.array (items.map Prod.snd)) := by
  refine ⟨⟨openBracket, _, rfl, rfl, rfl⟩, fun fuel rest hfuel hends => ?_⟩
  rw [List.length_cons, List.length_append, List.length_singleton] at hfuel
  obtain ⟨fuel', rfl⟩ : ∃ f, fuel = f + 1 := ⟨fuel - 1, by omega⟩
  rw [List.cons_append, List.append_assoc, readValue, skipBlanks_cons rfl]
  dsimp only
  rw [if_neg (by decide), if_pos rfl]
  by_cases hne : items = []
  · subst hne
    rfl
  · obtain ⟨c, cs, hcons, hblank, hdelimiter⟩ := separated_starts hne h
    have hhead : (skipBlanks (separated (items.map Prod.fst) ++ ([closeBracket] ++ rest))).head? ≠ some closeBracket := by
      rw [hcons, List.cons_append, skipBlanks_cons hblank]
      intro heq
      rw [Option.some.inj heq] at hdelimiter
      exact nomatch hdelimiter
    have hread := @readElements_separated items fuel' rest hne h (by omega)
    rw [if_neg hhead]
    show (readElements fuel' (separated (items.map Prod.fst) ++ closeBracket :: rest)).map _ = _
    rw [hread]
    rfl

/-- A member of an object: its key, of plain characters, the text of its value, and the value. -/
structure Member where
  key : List UInt8
  text : List UInt8
  value : Value

/-- The text of a member. -/
def Member.render (m : Member) : List UInt8 := quote :: (m.key ++ quote :: colon :: m.text)

/-- A member that is read. -/
structure Member.Reads (m : Member) : Prop where
  plain : ∀ c ∈ m.key, isPlain c = true
  value : Json.Reads m.text m.value

theorem readKey_render {m : Member} (h : m.Reads) (rest : List UInt8) :
    readKey (m.render ++ rest) = some (m.key, m.text ++ rest) := by
  have hbody : stringBody (m.key ++ quote :: colon :: (m.text ++ rest)) = some (m.key, colon :: (m.text ++ rest)) :=
    stringBody_plain _ h.plain
  unfold readKey Member.render
  rw [List.cons_append, List.append_assoc, skipBlanks_cons rfl]
  dsimp only
  rw [if_pos rfl]
  show (match stringBody (m.key ++ quote :: colon :: (m.text ++ rest)) with
    | none => none
    | some (key, rest) =>
        match skipBlanks rest with
        | [] => none
        | d :: rest => if d = colon then some (key, rest) else none) = _
  rw [hbody]
  dsimp only
  rw [skipBlanks_cons rfl]
  rfl

theorem readMembers_step {m : Member} (h : m.Reads) {fuel : Nat} (hfuel : 2 * m.text.length ≤ fuel) {c : UInt8}
    (hc : isDelimiter c = true) (rest : List UInt8) :
    readMembers (fuel + 1) (m.render ++ c :: rest) =
      if c = comma then (readMembers fuel rest).map fun r => ((m.key, m.value) :: r.1, r.2)
      else if c = closeBrace then some ([(m.key, m.value)], rest)
      else none := by
  rw [readMembers, readKey_render h]
  dsimp only
  rw [h.value.reads fuel (c :: rest) hfuel (.cons hc rest)]
  dsimp only
  rw [skipBlanks_cons (isDelimiter_not_blank hc)]

theorem render_length (m : Member) : m.text.length ≤ m.render.length := by
  unfold Member.render
  rw [List.length_cons, List.length_append, List.length_cons, List.length_cons]
  omega

theorem readMembers_separated : ∀ {ms : List Member} {fuel : Nat} (rest : List UInt8), ms ≠ [] →
    (∀ m ∈ ms, m.Reads) → 2 * (separated (ms.map Member.render)).length + 1 ≤ fuel →
    readMembers fuel (separated (ms.map Member.render) ++ closeBrace :: rest) =
      some (ms.map fun m => (m.key, m.value), rest)
  | [], _, _, hne, _, _ => absurd rfl hne
  | [m], fuel, rest, _, h, hfuel => by
      obtain ⟨fuel', rfl⟩ : ∃ f, fuel = f + 1 := ⟨fuel - 1, by omega⟩
      have hlength := render_length m
      have hfuel' : 2 * m.render.length + 1 ≤ fuel' + 1 := hfuel
      exact readMembers_step (h m List.mem_cons_self) (by omega) rfl rest
  | m :: m' :: ms, fuel, rest, _, h, hfuel => by
      obtain ⟨fuel', rfl⟩ : ∃ f, fuel = f + 1 := ⟨fuel - 1, by omega⟩
      obtain ⟨hread, hrest⟩ := List.forall_mem_cons.mp h
      have hlength := render_length m
      have hsep : separated ((m :: m' :: ms).map Member.render) =
          m.render ++ comma :: separated ((m' :: ms).map Member.render) := rfl
      rw [hsep, List.length_append, List.length_cons] at hfuel
      rw [hsep, List.append_assoc, List.cons_append, readMembers_step hread (by omega) rfl, if_pos rfl,
        readMembers_separated rest (List.cons_ne_nil _ _) hrest (by omega)]
      rfl

/-- **An object of members that are read.** -/
theorem Reads.object {ms : List Member} (h : ∀ m ∈ ms, m.Reads) :
    Reads (openBrace :: (separated (ms.map Member.render) ++ [closeBrace]))
      (.object (ms.map fun m => (m.key, m.value))) := by
  refine ⟨⟨openBrace, _, rfl, rfl, rfl⟩, fun fuel rest hfuel hends => ?_⟩
  rw [List.length_cons, List.length_append, List.length_singleton] at hfuel
  obtain ⟨fuel', rfl⟩ : ∃ f, fuel = f + 1 := ⟨fuel - 1, by omega⟩
  rw [List.cons_append, List.append_assoc, readValue, skipBlanks_cons rfl]
  dsimp only
  rw [if_neg (by decide), if_neg (by decide), if_pos rfl]
  cases ms with
  | nil => rfl
  | cons m ms =>
      have hhead : (skipBlanks (separated ((m :: ms).map Member.render) ++ ([closeBrace] ++ rest))).head? =
          some quote := by
        cases ms with
        | nil => rfl
        | cons m' ms' => rfl
      have hread := @readMembers_separated (m :: ms) fuel' rest (List.cons_ne_nil _ _) h (by omega)
      rw [hhead, if_neg (by decide)]
      show (readMembers fuel' (separated ((m :: ms).map Member.render) ++ closeBrace :: rest)).map _ = _
      rw [hread]
      rfl

end Anjay.Lib.Json
