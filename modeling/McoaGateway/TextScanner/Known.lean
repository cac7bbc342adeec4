/-
Scanners in front of a known text.

`At s text errors` says that the scanner is going to read the text and has noted these
errors so far.  A text in UTF-8 without NUL (`Clean`) is read without complaint, so the
functions of the scanner can be followed along it: identifiers, operators and string
literals are read as they are written.
-/

import McoaGateway.TextScanner.Runes

namespace McoaGateway

open GoString

/-! ### Clean texts -/

/-- Valid UTF-8 without NUL. -/
inductive Clean : GoString → Prop where
  | nil : Clean []
  | rune {r : Nat} {rest : GoString} (valid : ValidRune r) (nonzero : r ≠ 0)
      (clean : Clean rest) : Clean (encodeRune r ++ rest)

theorem Clean.append {front rest : GoString} (first : Clean front) (second : Clean rest) :
    Clean (front ++ rest) := by
  induction first with
  | nil => exact second
  | rune valid nonzero _ ih =>
      rw [List.append_assoc]
      exact .rune valid nonzero ih

theorem encodeRune_toNat {b : UInt8} (isAscii : b.toNat < 0x80) : encodeRune b.toNat = [b] := by
  rw [encodeRune, if_pos isAscii, UInt8.ofNat_toNat]

theorem Clean.cons {b : UInt8} {rest : GoString} (isAscii : b.toNat < 0x80) (nonzero : b ≠ 0)
    (clean : Clean rest) : Clean (b :: rest) := by
  have encoded := encodeRune_toNat isAscii
  have front : Clean (encodeRune b.toNat ++ rest) := by
    refine .rune (Or.inl (by omega)) ?_ clean
    intro zero
    exact nonzero (UInt8.toNat_inj.mp zero)
  rw [encoded] at front
  exact front

theorem clean_of_ascii {text : GoString} (isAscii : ∀ b ∈ text, b.toNat < 0x80 ∧ b ≠ 0) :
    Clean text := by
  induction text with
  | nil => exact .nil
  | cons b rest ih =>
      rw [List.forall_mem_cons] at isAscii
      exact .cons isAscii.1.1 isAscii.1.2 (ih isAscii.2)

/-- The first character of a text. -/
def firstRune (text : GoString) : Option Nat :=
  match text with
  | [] => none
  | b :: rest => some (decodeRune (b :: rest)).1

theorem firstRune_cons {b : UInt8} (isAscii : b.toNat < 0x80) (rest : GoString) :
    firstRune (b :: rest) = some b.toNat := by
  simp [firstRune, decodeRune, isAscii]

theorem firstRune_encodeRune {r : Nat} (valid : ValidRune r) (rest : GoString) :
    firstRune (encodeRune r ++ rest) = some r := by
  have decoded := decodeRune_encodeRune_append r valid rest
  cases isText : encodeRune r ++ rest with
  | nil => exact absurd (List.append_eq_nil_iff.mp isText).1 (encodeRune_ne_nil r)
  | cons b more =>
      rw [isText] at decoded
      rw [firstRune, decoded]

/-- The runes of a text, which all have a property. -/
inductive Made (P : Nat → Prop) : GoString → Prop where
  | nil : Made P []
  | rune {r : Nat} {rest : GoString} (valid : ValidRune r) (nonzero : r ≠ 0) (holds : P r)
      (made : Made P rest) : Made P (encodeRune r ++ rest)

theorem Made.clean {P : Nat → Prop} {text : GoString} (made : Made P text) : Clean text := by
  induction made with
  | nil => exact .nil
  | rune valid nonzero _ _ ih => exact .rune valid nonzero ih

theorem Made.mono {P Q : Nat → Prop} {text : GoString} (made : Made P text)
    (weaker : ∀ r, P r → Q r) : Made Q text := by
  induction made with
  | nil => exact .nil
  | rune valid nonzero holds _ ih => exact .rune valid nonzero (weaker _ holds) ih

theorem Made.cons {P : Nat → Prop} {b : UInt8} {rest : GoString} (isAscii : b.toNat < 0x80)
    (nonzero : b ≠ 0) (holds : P b.toNat) (made : Made P rest) : Made P (b :: rest) := by
  have front : Made P (encodeRune b.toNat ++ rest) := by
    refine .rune (Or.inl (by omega)) ?_ holds made
    intro zero
    exact nonzero (UInt8.toNat_inj.mp zero)
  rw [encodeRune_toNat isAscii] at front
  exact front

theorem Made.append {P : Nat → Prop} {front rest : GoString} (first : Made P front)
    (second : Made P rest) : Made P (front ++ rest) := by
  induction first with
  | nil => exact second
  | rune valid nonzero holds _ ih =>
      rw [List.append_assoc]
      exact .rune valid nonzero holds ih

theorem made_of_ascii {P : Nat → Prop} {text : GoString}
    (holds : ∀ b ∈ text, b.toNat < 0x80 ∧ b ≠ 0 ∧ P b.toNat) : Made P text := by
  induction text with
  | nil => exact .nil
  | cons b rest ih =>
      rw [List.forall_mem_cons] at holds
      exact .cons holds.1.1 holds.1.2.1 holds.1.2.2 (ih holds.2)

namespace Scanner

variable {s : Scanner} {text rest : GoString} {errors : List ScanError}

/-- The scanner is in front of the text. -/
structure At (s : Scanner) (text : GoString) (errors : List ScanError) : Prop where
  whole : Whole s
  text : s.text = text
  errors : s.errors = errors

/-! ### One character -/

theorem At.ch (here : At s text errors) : s.ch = firstRune text := by
  have isText := here.text
  cases isHeld : s.held with
  | nil =>
      rw [here.whole.held_nil isHeld] at isText
      rw [← isText, Scanner.ch, isHeld]
      rfl
  | cons b more =>
      have decoded := here.whole.decodeRune_text
      rw [isText, isHeld] at decoded
      rw [Scanner.ch, isHeld]
      rw [Scanner.text, isHeld] at isText
      rw [← decoded, ← isText]
      rfl

theorem errors_checkRune_of_clean (whole : Whole s) (clean : Clean s.text) :
    s.checkRune.errors = s.errors := by
  unfold checkRune
  split
  · rfl
  · rename_i notEmpty
    have decoded := whole.decodeRune_text
    cases isText : s.text with
    | nil => exact absurd (List.append_eq_nil_iff.mp isText).1 notEmpty
    | cons b more =>
        generalize s.text = text at clean decoded isText
        cases clean with
        | nil => cases isText
        | rune valid nonzero _ =>
            rename_i r rest _
            rw [decodeRune_encodeRune_append r valid] at decoded
            have notError : ¬ decodeRune s.held = (runeError, 1) := by
              rw [← decoded]
              intro same
              obtain ⟨isRune, isLength⟩ := Prod.mk.inj same
              rw [isRune] at isLength
              exact absurd isLength (by decide)
            have notNul : ¬ s.ch = some 0 := by
              unfold Scanner.ch
              split
              · exact fun impossible => nomatch impossible
              · rw [← decoded]
                exact fun same => nonzero (Option.some.inj same)
            rw [if_neg notError, if_neg notNul]

theorem At.next {r : Nat} (here : At s (encodeRune r ++ rest) errors) (valid : ValidRune r)
    (clean : Clean rest) : At s.next rest errors := by
  have isText : s.next.text = rest := by
    rw [here.whole.text_next, here.text, decodeRune_encodeRune_append r valid, List.drop_left]
  refine ⟨here.whole.next, isText, ?_⟩
  rw [Scanner.next] at isText ⊢
  rw [text_checkRune] at isText
  rw [errors_checkRune_of_clean, errors_fill]
  · exact here.errors
  · exact whole_fill here.whole.capacity
  · rw [isText]
    exact clean

theorem At.next_cons {b : UInt8} (here : At s (b :: rest) errors) (isAscii : b.toNat < 0x80)
    (clean : Clean rest) : At s.next rest errors := by
  have own : At s (encodeRune b.toNat ++ rest) errors := by
    rw [encodeRune_toNat isAscii]
    exact here
  exact own.next (Or.inl (by omega)) clean

/-! ### Loops over characters -/

theorem At.skipRounds {skips : Nat → Bool} {front : GoString} (rounds : Nat)
    (here : At s (front ++ rest) errors) (made : Made (fun r => skips r = true) front)
    (clean : Clean rest) (stops : ∀ r, firstRune rest = some r → skips r = false)
    (enough : front.length ≤ rounds) : At (Scanner.skipRounds skips rounds s) rest errors := by
  induction made generalizing s rounds with
  | nil =>
      cases rounds with
      | zero => exact here
      | succ rounds =>
          have isCh := here.ch
          rw [Scanner.skipRounds]
          rw [List.nil_append] at isCh here
          cases own : s.ch with
          | none => exact here
          | some r =>
              dsimp only
              rw [if_neg (by rw [stops r (isCh.symm.trans own)]; exact Bool.false_ne_true)]
              exact here
  | rune valid nonzero skip made ih =>
      rename_i r more
      rw [List.append_assoc] at here
      have isCh := here.ch
      rw [firstRune_encodeRune valid] at isCh
      rw [List.length_append] at enough
      have some : 0 < (encodeRune r).length := List.length_pos_iff.mpr (encodeRune_ne_nil r)
      cases rounds with
      | zero => omega
      | succ rounds =>
          rw [Scanner.skipRounds, isCh]
          dsimp only
          rw [if_pos skip]
          exact ih rounds (here.next valid (made.clean.append clean)) (by omega)

theorem At.skipWhile {skips : Nat → Bool} {front : GoString}
    (here : At s (front ++ rest) errors) (made : Made (fun r => skips r = true) front)
    (clean : Clean rest) (stops : ∀ r, firstRune rest = some r → skips r = false) :
    At (Scanner.skipWhile skips s) rest errors := by
  refine here.skipRounds _ made clean stops ?_
  rw [here.text, List.length_append]
  exact Nat.le_add_right _ _

theorem At.since {stop : Scanner} {front : GoString} {others : List ScanError}
    (here : At s (front ++ rest) errors) (there : At stop rest others) :
    s.since stop = front := by
  apply since_eq
  rw [here.text, there.text]

/-! ### Words and operators -/

section

variable (unicode : Unicode)

/-- The text is an identifier of the scanner. -/
def Word (text : GoString) : Prop :=
  ∃ r more, ValidRune r ∧ r ≠ 0 ∧ unicode.identStart r = true ∧
    Made (fun r => unicode.identPart r = true) more ∧ text = encodeRune r ++ more

/-- Nothing that could belong to a word comes next. -/
def WordEnds (rest : GoString) : Prop :=
  ∀ r, firstRune rest = some r → unicode.identPart r = false

theorem Word.clean {unicode : Unicode} (word : Word unicode text) : Clean text := by
  obtain ⟨r, more, valid, nonzero, -, made, rfl⟩ := word
  exact .rune valid nonzero made.clean

theorem At.scanToken_word (here : At s (text ++ rest) errors) (word : Word unicode text)
    (clean : Clean rest) (ends : WordEnds unicode rest) :
    ∃ stop, scanToken unicode s = (some .ident, stop) ∧ At stop rest errors := by
  obtain ⟨r, more, valid, nonzero, starts, made, rfl⟩ := word
  rw [List.append_assoc] at here
  have isCh := here.ch
  rw [firstRune_encodeRune valid] at isCh
  refine ⟨s.next.skipWhile unicode.identPart, ?_,
    (here.next valid (made.clean.append clean)).skipWhile made clean ends⟩
  rw [scanToken, isCh]
  dsimp only
  rw [if_pos starts]

/-- The characters that are tokens by themselves, whatever follows. -/
def isOperatorByte (b : UInt8) : Bool :=
  (ascii "!#%&()*+,-:;<=>?@[\\]^\x7b|\x7d~$").contains b

theorem isOperatorByte_spec :
    ∀ b, isOperatorByte b = true → b.toNat < 0x80 ∧ b ≠ 0 ∧ isAsciiLetter b.toNat = false ∧
      b.toNat ≠ 0x5F ∧ isDecimal b.toNat = false ∧ b.toNat ≠ 0x22 ∧ b.toNat ≠ 0x27 ∧
      b.toNat ≠ 0x2E ∧ b.toNat ≠ 0x2F ∧ b.toNat ≠ 0x60 := by
  intro b operator
  have checked := forall_byte (fun b => !isOperatorByte b || (decide (b.toNat < 0x80) && b != 0 &&
    !isAsciiLetter b.toNat && b.toNat != 0x5F && !isDecimal b.toNat && b.toNat != 0x22 &&
    b.toNat != 0x27 && b.toNat != 0x2E && b.toNat != 0x2F && b.toNat != 0x60))
    (by decide +kernel) b
  rw [operator] at checked
  simp only [Bool.not_true, Bool.false_or, Bool.and_eq_true, decide_eq_true_eq, bne_iff_ne, ne_eq,
    Bool.not_eq_true'] at checked
  obtain ⟨⟨⟨⟨⟨⟨⟨⟨⟨isAscii, nonzero⟩, notLetter⟩, notLine⟩, notDigit⟩, notQuote⟩, notTick⟩, notDot⟩,
    notSlash⟩, notRaw⟩ := checked
  exact ⟨isAscii, nonzero, notLetter, notLine, notDigit, notQuote, notTick, notDot, notSlash,
    notRaw⟩

theorem At.scanToken_operator {b : UInt8} (here : At s (b :: rest) errors)
    (operator : isOperatorByte b = true) (clean : Clean rest) :
    scanToken unicode s = (some (.rune b.toNat), s.next) ∧ At s.next rest errors := by
  obtain ⟨isAscii, nonzero, notLetter, notLine, notDigit, notQuote, notTick, notDot, notSlash,
    notRaw⟩ := isOperatorByte_spec b operator
  have isCh := here.ch
  rw [firstRune_cons isAscii] at isCh
  refine ⟨?_, here.next_cons isAscii clean⟩
  rw [scanToken, isCh]
  dsimp only
  have notStart : ¬ unicode.identStart b.toNat = true := by
    simp [Unicode.identStart, Unicode.letter, isAscii, notLetter, notLine]
  rw [if_neg notStart, if_neg (by rw [notDigit]; exact Bool.false_ne_true), if_neg notQuote,
    if_neg notTick, if_neg notDot, if_neg notSlash, if_neg notRaw]

/-- White space before a token is passed over. -/
theorem At.scan {blanks : GoString} (here : At s (blanks ++ text) errors)
    (areBlanks : ∀ b ∈ blanks, b = byte ' ') (clean : Clean text)
    (notBlank : ∀ r, firstRune text = some r → isWhitespace r = false) :
    ∃ start, At start text errors ∧ ∀ scanned stop,
      scanToken unicode start = (some scanned, stop) →
      Scanner.scan unicode s = (scanned, start, stop) := by
  have made : Made (fun r => isWhitespace r = true) blanks := by
    refine made_of_ascii fun b member => ?_
    rw [areBlanks b member]
    decide
  refine ⟨s.skipWhile isWhitespace, here.skipWhile made clean notBlank, ?_⟩
  intro scanned stop isToken
  rw [Scanner.scan, scanRounds, isToken]

/-! ### String literals -/

/-- What the scanner reads between two quotes. -/
inductive StringBody : GoString → Prop where
  | nil : StringBody []
  | raw {r : Nat} {rest : GoString} (valid : ValidRune r) (nonzero : r ≠ 0)
      (plain : r ≠ 0x22 ∧ r ≠ 0x5C ∧ r ≠ 10) (body : StringBody rest) :
      StringBody (encodeRune r ++ rest)
  | simple {letter : UInt8} {rest : GoString}
      (escape : (ascii "abfnrtv\\\"").contains letter = true) (body : StringBody rest) :
      StringBody (byte '\\' :: letter :: rest)
  | digits {letter : UInt8} {width n : Nat} {rest : GoString}
      (escape : (letter, width) ∈ [(byte 'x', 2), (byte 'u', 4), (byte 'U', 8)])
      (body : StringBody rest) :
      StringBody (byte '\\' :: letter :: (hexDigits width n ++ rest))

theorem hexDigits_bytes (width n : Nat) :
    ∀ b ∈ hexDigits width n, b.toNat < 0x80 ∧ b ≠ 0 ∧ digitVal b.toNat < 16 := by
  have digit : ∀ d, d < 16 → (lowerHexDigit d).toNat < 0x80 ∧ lowerHexDigit d ≠ 0 ∧
      digitVal (lowerHexDigit d).toNat < 16 := by
    decide
  induction width with
  | zero => exact fun b member => absurd member List.not_mem_nil
  | succ width ih =>
      rw [hexDigits, List.forall_mem_cons]
      exact ⟨digit _ (Nat.mod_lt _ (by decide)), ih⟩

theorem length_hexDigits (width n : Nat) : (hexDigits width n).length = width := by
  induction width with
  | zero => rfl
  | succ width ih => rw [hexDigits, List.length_cons, ih]

theorem clean_hexDigits (width n : Nat) : Clean (hexDigits width n) :=
  clean_of_ascii fun b member =>
    ⟨(hexDigits_bytes width n b member).1, (hexDigits_bytes width n b member).2.1⟩

theorem StringBody.clean {body : GoString} (isBody : StringBody body) : Clean body := by
  induction isBody with
  | nil => exact .nil
  | raw valid nonzero _ _ ih => exact .rune valid nonzero ih
  | simple escape _ ih =>
      rename_i letter rest _
      have isAscii : ∀ b ∈ ascii "abfnrtv\\\"", b.toNat < 0x80 ∧ b ≠ 0 := by
        decide +kernel
      obtain ⟨small, nonzero⟩ := isAscii letter (List.contains_iff_mem.mp escape)
      exact .cons (by decide) (by decide) (.cons small nonzero ih)
  | digits escape _ ih =>
      rename_i letter width n rest _
      have small : letter.toNat < 0x80 ∧ letter ≠ 0 := by
        simp only [List.mem_cons, Prod.mk.injEq, List.not_mem_nil, or_false] at escape
        rcases escape with ⟨rfl, -⟩ | ⟨rfl, -⟩ | ⟨rfl, -⟩ <;> decide
      exact .cons (by decide) (by decide)
        (.cons small.1 small.2 ((clean_hexDigits width n).append ih))

theorem At.scanDigits {base : Nat} {front : GoString} (here : At s (front ++ rest) errors)
    (digits : ∀ b ∈ front, b.toNat < 0x80 ∧ b ≠ 0 ∧ digitVal b.toNat < base)
    (clean : Clean rest) : At (Scanner.scanDigits base front.length s) rest errors := by
  induction front generalizing s with
  | nil => exact here
  | cons b front ih =>
      rw [List.forall_mem_cons] at digits
      obtain ⟨⟨isAscii, nonzero, isDigit⟩, more⟩ := digits
      have isCh : s.ch = some b.toNat := here.ch.trans (firstRune_cons isAscii _)
      have cleanMore : Clean (front ++ rest) :=
        (clean_of_ascii fun b member => ⟨(more b member).1, (more b member).2.1⟩).append clean
      rw [List.length_cons, Scanner.scanDigits, isCh]
      have isTrue : ((some b.toNat).elim false fun r => decide (digitVal r < base)) = true :=
        decide_eq_true isDigit
      rw [if_pos isTrue]
      exact ih (here.next_cons isAscii cleanMore) more

theorem At.scanEscape_simple {letter : UInt8}
    (here : At s (byte '\\' :: letter :: rest) errors)
    (escape : (ascii "abfnrtv\\\"").contains letter = true) (clean : Clean rest) :
    At (scanEscape 0x22 s) rest errors := by
  have known : ∀ b ∈ ascii "abfnrtv\\\"", b.toNat < 0x80 ∧ b ≠ 0 ∧
      (escapeLetters.contains b.toNat || decide (b.toNat = 0x22)) = true := by decide +kernel
  obtain ⟨isAscii, nonzero, isLetter⟩ := known letter (List.contains_iff_mem.mp escape)
  have after := here.next_cons (by decide) (.cons isAscii nonzero clean)
  have isCh : s.next.ch = some letter.toNat := after.ch.trans (firstRune_cons isAscii _)
  rw [scanEscape, isCh]
  dsimp only
  rw [if_pos isLetter]
  exact after.next_cons isAscii clean

theorem At.scanEscape_digits {letter : UInt8} {width n : Nat}
    (here : At s (byte '\\' :: letter :: (hexDigits width n ++ rest)) errors)
    (escape : (letter, width) ∈ [(byte 'x', 2), (byte 'u', 4), (byte 'U', 8)])
    (clean : Clean rest) : At (scanEscape 0x22 s) rest errors := by
  have cleanDigits := (clean_hexDigits width n).append clean
  have known : ∀ pair ∈ [(byte 'x', 2), (byte 'u', 4), (byte 'U', 8)],
      pair.1.toNat < 0x80 ∧ pair.1 ≠ 0 := by decide
  obtain ⟨isAscii, nonzero⟩ := known _ escape
  have after := here.next_cons (by decide) (.cons isAscii nonzero cleanDigits)
  have isCh : s.next.ch = some letter.toNat := after.ch.trans (firstRune_cons isAscii _)
  have digits := (after.next_cons isAscii cleanDigits).scanDigits (hexDigits_bytes width n) clean
  rw [length_hexDigits] at digits
  rw [scanEscape, isCh]
  simp only [List.mem_cons, Prod.mk.injEq, List.not_mem_nil, or_false] at escape
  rcases escape with ⟨rfl, rfl⟩ | ⟨rfl, rfl⟩ | ⟨rfl, rfl⟩
  · exact digits
  · exact digits
  · exact digits

theorem At.scanStringRounds {body : GoString} (isBody : StringBody body) (rounds count : Nat)
    (here : At s (body ++ byte '"' :: rest) errors) (clean : Clean rest)
    (enough : body.length < rounds) :
    At (Scanner.scanStringRounds 0x22 rounds count s).2 (byte '"' :: rest) errors := by
  have cleanEnd : Clean (byte '"' :: rest) := .cons (by decide) (by decide) clean
  induction isBody generalizing s rounds count with
  | nil =>
      have isCh : s.ch = some 0x22 := here.ch.trans (firstRune_cons (b := byte '"') (by decide) _)
      cases rounds with
      | zero => cases enough
      | succ rounds =>
          rw [Scanner.scanStringRounds, isCh]
          exact here
  | raw valid nonzero plain isRest ih =>
      rename_i r more
      rw [List.append_assoc] at here
      have isCh : s.ch = some r := here.ch.trans (firstRune_encodeRune valid _)
      rw [List.length_append] at enough
      have some : 0 < (encodeRune r).length := List.length_pos_iff.mpr (encodeRune_ne_nil r)
      cases rounds with
      | zero => cases enough
      | succ rounds =>
          rw [Scanner.scanStringRounds, isCh]
          dsimp only
          rw [if_neg plain.1, if_neg plain.2.2, if_neg plain.2.1]
          exact ih rounds (count + 1) (here.next valid (isRest.clean.append cleanEnd)) (by omega)
  | simple escape isRest ih =>
      have isCh : s.ch = some 0x5C := here.ch.trans (firstRune_cons (b := byte '\\') (by decide) _)
      cases rounds with
      | zero => cases enough
      | succ rounds =>
          rw [Scanner.scanStringRounds, isCh]
          refine ih rounds (count + 1) (here.scanEscape_simple escape ?_) ?_
          · exact isRest.clean.append cleanEnd
          · rw [List.length_cons, List.length_cons] at enough
            omega
  | digits escape isRest ih =>
      rename_i letter width n more
      have isCh : s.ch = some 0x5C := here.ch.trans (firstRune_cons (b := byte '\\') (by decide) _)
      rw [List.cons_append, List.cons_append, List.append_assoc] at here
      cases rounds with
      | zero => cases enough
      | succ rounds =>
          rw [Scanner.scanStringRounds, isCh]
          refine ih rounds (count + 1) (here.scanEscape_digits escape ?_) ?_
          · exact isRest.clean.append cleanEnd
          · rw [List.length_cons, List.length_cons, List.length_append] at enough
            omega

theorem At.scanToken_string {body : GoString}
    (here : At s (byte '"' :: (body ++ byte '"' :: rest)) errors) (isBody : StringBody body)
    (clean : Clean rest) :
    ∃ stop, scanToken unicode s = (some .string, stop) ∧ At stop rest errors := by
  have cleanEnd : Clean (byte '"' :: rest) := .cons (by decide) (by decide) clean
  have isCh : s.ch = some 0x22 := here.ch.trans (firstRune_cons (b := byte '"') (by decide) _)
  have inside := here.next_cons (by decide) (isBody.clean.append cleanEnd)
  have atEnd : At (scanString 0x22 s).2 (byte '"' :: rest) errors := by
    refine inside.scanStringRounds isBody _ 0 clean ?_
    rw [here.text, List.length_cons, List.length_append]
    omega
  refine ⟨(scanString 0x22 s).2.next, ?_, atEnd.next_cons (by decide) clean⟩
  rw [scanToken, isCh]
  dsimp only
  have notStart : ¬ unicode.identStart 0x22 = true := by
    simp [Unicode.identStart, Unicode.letter, isAsciiLetter]
  rw [if_neg notStart, if_neg (by decide), if_pos rfl]

/-- A literal between back quotes. -/
theorem At.scanToken_rawString {body : GoString}
    (here : At s (0x60 :: (body ++ 0x60 :: rest)) errors)
    (isBody : Made (fun r => r ≠ 0x60) body) (clean : Clean rest) :
    ∃ stop, scanToken unicode s = (some .rawString, stop) ∧ At stop rest errors := by
  have cleanEnd : Clean (0x60 :: rest) := .cons (by decide) (by decide) clean
  have isCh : s.ch = some 0x60 := here.ch.trans (firstRune_cons (b := 0x60) (by decide) _)
  have inside := here.next_cons (by decide) (isBody.clean.append cleanEnd)
  have atEnd : At (s.next.skipWhile fun r => r != 0x60) (0x60 :: rest) errors := by
    refine inside.skipWhile (isBody.mono fun r other => bne_iff_ne.mpr other) cleanEnd ?_
    intro r isFirst
    rw [firstRune_cons (by decide)] at isFirst
    cases isFirst
    rfl
  have there : (s.next.skipWhile fun r => r != 0x60).ch ≠ none := by
    rw [atEnd.ch, firstRune_cons (by decide)]
    exact fun impossible => nomatch impossible
  have isRaw : s.scanRawString = s.next.skipWhile fun r => r != 0x60 := by
    rw [scanRawString, if_neg there]
  refine ⟨s.scanRawString.next, ?_, ?_⟩
  · rw [scanToken, isCh]
    dsimp only
    have notStart : ¬ unicode.identStart 0x60 = true := by
      simp [Unicode.identStart, Unicode.letter, isAsciiLetter]
    rw [if_neg notStart, if_neg (by decide), if_neg (by decide), if_neg (by decide),
      if_neg (by decide), if_neg (by decide), if_pos rfl]
  · rw [isRaw]
    exact atEnd.next_cons (by decide) clean

example : (scanToken .asciiOnly (Scanner.ofText 16 (ascii "\x60a\x60"))).1 = some .rawString := by
  decide +kernel

end

end Scanner

end McoaGateway
