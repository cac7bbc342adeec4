/-
Texts that are read as they were written.

If a query can be written, then each of its lexemes fits what follows it.
-/

import McoaGateway.Logql.Stages

namespace McoaGateway.Logql

open GoString
open Scanner

/-! ### What may follow -/

/-- A word ends here and is not called. -/
def Closed (rest : GoString) : Prop :=
  wordEnds rest = true ∧ Reference.isFunc rest = false

theorem isFunc_blank (rest : GoString) :
    Reference.isFunc (byte ' ' :: rest) = Reference.isFunc rest := by
  have isRunes : runes (byte ' ' :: rest) = 0x20 :: runes rest := by
    rw [runes_cons]
    rfl
  unfold Reference.isFunc Reference.trimSpace
  rw [isRunes, List.dropWhile_cons_of_pos (by decide)]

theorem isFunc_paren (rest : GoString) : Reference.isFunc (byte '(' :: rest) = true := by
  have isRunes : runes (byte '(' :: rest) = 0x28 :: runes rest := by
    rw [runes_cons]
    rfl
  unfold Reference.isFunc Reference.trimSpace
  rw [isRunes, List.dropWhile_cons_of_neg (by decide)]
  rfl

theorem isFuncFrom_other {read : GoString} {b : UInt8} (isHead : read.head? = some b)
    (other : b ∉ ascii "(bw") (codes : List Nat) : Reference.isFuncFrom read codes = false := by
  induction codes generalizing read with
  | nil => rfl
  | cons r codes ih =>
      have stillHead : (read ++ encodeRune r).head? = some b := by
        rw [List.head?_append, isHead]
        rfl
      have different : ∀ text : GoString, text.head? ∈ (ascii "(bw").map some →
          read ++ encodeRune r ≠ text := by
        intro text known same
        rw [← same, stillHead, List.mem_map] at known
        obtain ⟨c, member, isHead⟩ := known
        exact other (Option.some.inj isHead ▸ member)
      rw [Reference.isFuncFrom, if_neg (different _ (by decide)), if_neg (not_or.mpr
        ⟨different _ (by decide), different _ (by decide)⟩)]
      exact ih stillHead

/-- A text with another first character is no call. -/
theorem isFunc_other {b : UInt8} (small : b.toNat < 0x80) (notSpace : isSpaceRune b.toNat = false)
    (other : b ∉ ascii "(bw") (rest : GoString) : Reference.isFunc (b :: rest) = false := by
  have isRunes : runes (b :: rest) = b.toNat :: runes rest := by
    have decoded : decodeRune (b :: rest) = (b.toNat, 1) := by
      simp [decodeRune, small]
    rw [runes_cons, decoded]
    rfl
  have encoded : encodeRune b.toNat = [b] := encodeRune_toNat small
  unfold Reference.isFunc Reference.trimSpace
  rw [isRunes, List.dropWhile_cons_of_neg (by simp [notSpace]), Reference.isFuncFrom, encoded]
  have different : ∀ text : GoString, text.head? ∈ (ascii "(bw").map some → [] ++ [b] ≠ text := by
    intro text known same
    rw [← same, List.mem_map] at known
    obtain ⟨c, member, isHead⟩ := known
    exact other (Option.some.inj isHead ▸ member)
  rw [if_neg (different _ (by decide)), if_neg (not_or.mpr
    ⟨different _ (by decide), different _ (by decide)⟩)]
  exact isFuncFrom_other (b := b) rfl other _

/-- The characters that follow a name or a keyword. -/
theorem closed_cons {b : UInt8} (closes : b ∈ ascii ",)\x7d=!") (rest : GoString) :
    Closed (b :: rest) := by
  have known : ∀ b ∈ ascii ",)\x7d=!", (decide (b.toNat < 0x80) && !isNameByte b) = true ∧
      b.toNat < 0x80 ∧ isSpaceRune b.toNat = false ∧ b ∉ ascii "(bw" :=
    List.forall_iff_forall_mem.mp (by decide)
  obtain ⟨ends, small, notSpace, other⟩ := known b closes
  exact ⟨ends, isFunc_other small notSpace other rest⟩

theorem closed_blank {b : UInt8} (starts : b ∈ ascii "|!=<>") (rest : GoString) :
    Closed (byte ' ' :: b :: rest) := by
  have known : ∀ b ∈ ascii "|!=<>", b.toNat < 0x80 ∧ isSpaceRune b.toNat = false ∧
      b ∉ ascii "(bw" := List.forall_iff_forall_mem.mp (by decide)
  obtain ⟨small, notSpace, other⟩ := known b starts
  exact ⟨rfl, (isFunc_blank _).trans (isFunc_other small notSpace other rest)⟩

/-! ### Lexemes that fit -/

section

variable {library : Library} {rest : GoString}

theorem Named.fits {name : GoString} (named : Named library name) (closed : Closed rest) :
    (Lexeme.name name).Fits library rest :=
  ⟨named.word, named.notKeyword, closed.1, closed.2⟩

theorem fits_single {b : UInt8} {kind : Terminal} (single : b ∈ ascii "()\x7b\x7d,")
    (isKeyword : tokens.lookup [b] = some kind) : (Lexeme.symbol b kind).Fits library rest := by
  have known : ∀ b ∈ ascii "()\x7b\x7d,", isSymbol b = true ∧
      (ascii "()\x7b\x7d,+*/%^-").contains b = true := List.forall_iff_forall_mem.mp (by decide)
  exact ⟨(known b single).1, isKeyword, lookup_single (known b single).2 rest⟩

theorem fits_lparen : Lexeme.lparen.Fits library rest :=
  fits_single (by decide) (by decide)

theorem fits_rparen : Lexeme.rparen.Fits library rest :=
  fits_single (by decide) (by decide)

theorem fits_comma : Lexeme.comma.Fits library rest :=
  fits_single (by decide) (by decide)

theorem peek_cons {b : UInt8} (small : b.toNat < 0x80) (rest : GoString) :
    peek (b :: rest) = [b] := by
  rw [peek, firstRune_cons small]
  exact encodeRune_toNat small

/-- An operator in front of a blank. -/
theorem fits_symbol {b : UInt8} {kind : Terminal} (isOperator : isSymbol b = true)
    (isKeyword : tokens.lookup [b] = some kind) (noPair : tokens.lookup [b, byte ' '] = none) :
    (Lexeme.symbol b kind).Fits library (byte ' ' :: rest) := by
  refine ⟨isOperator, isKeyword, ?_⟩
  rw [peek_cons (by decide)]
  exact noPair

theorem fits_pipe : Lexeme.pipe.Fits library (byte ' ' :: rest) :=
  fits_symbol (by decide) (by decide) (by decide)

theorem fits_pair {b c : UInt8} {kind : Terminal} (isOperator : isSymbol b = true)
    (small : c.toNat < 0x80) (nonzero : c ≠ 0) (isKeyword : tokens.lookup [b, c] = some kind) :
    (Lexeme.pair b c kind).Fits library rest :=
  ⟨isOperator, small, nonzero, isKeyword⟩

theorem fits_comparisonOp (op : ComparisonOp) : op.lexeme.Fits library (byte ' ' :: rest) := by
  cases op with
  | eq => exact fits_symbol (by decide) (by decide) (by decide)
  | gt => exact fits_symbol (by decide) (by decide) (by decide)
  | lt => exact fits_symbol (by decide) (by decide) (by decide)
  | neq => exact fits_pair (by decide) (by decide) (by decide) (by decide)
  | re => exact fits_pair (by decide) (by decide) (by decide) (by decide)
  | nre => exact fits_pair (by decide) (by decide) (by decide) (by decide)
  | gte => exact fits_pair (by decide) (by decide) (by decide) (by decide)
  | lte => exact fits_pair (by decide) (by decide) (by decide) (by decide)

theorem fits_lineFilter (filter : LineFilter) : filter.lexeme.Fits library rest := by
  cases filter <;> exact fits_pair (by decide) (by decide) (by decide) (by decide)

/-- An equals sign in front of a quote. -/
theorem fits_eq_quote : (Lexeme.symbol (byte '=') .eq).Fits library (byte '"' :: rest) := by
  refine ⟨by decide, by decide, ?_⟩
  rw [peek_cons (by decide)]
  decide

theorem fits_word {text : GoString} {kind : Terminal} (plain : isPlainName text = true)
    (isKeyword : tokens.lookup text = some kind) (notFunction : funcTokens.lookup text = none)
    (ends : wordEnds rest = true) : (Lexeme.word text kind).Fits library rest :=
  ⟨plain, isKeyword, notFunction, ends⟩

theorem fits_parserName (parser : ParserName) (ends : wordEnds rest = true) :
    parser.lexeme.Fits library rest := by
  cases parser <;> exact fits_word (by decide) (by decide) (by decide) ends

theorem fits_quoted (unicode : Unicode) (value : GoString) :
    (Lexeme.quoted unicode value).Fits library rest :=
  stringLiteral_quote unicode value

theorem lexable_chainOp (op : ChainOp) : Lexable library op.lexemes rest := by
  cases op with
  | and => exact ⟨trivial, fits_word (by decide) (by decide) (by decide) rfl, trivial, trivial⟩
  | or => exact ⟨trivial, fits_word (by decide) (by decide) (by decide) rfl, trivial, trivial⟩
  | comma => exact ⟨fits_comma, trivial, trivial⟩

theorem lexable_ipLexemes {operand : Lexeme} (ip : Bool)
    (fits : ∀ rest, operand.Fits library rest) : Lexable library (ipLexemes ip operand) rest := by
  cases ip with
  | false => exact ⟨fits _, trivial⟩
  | true =>
      exact ⟨⟨by decide, by decide, rfl, isFunc_paren _⟩, fits_lparen, fits _, fits_rparen, trivial⟩

/-- Parts with a separator between them. -/
theorem lexable_intercalate {separator : List Lexeme} {parts : List (List Lexeme)}
    (Ends : GoString → Prop) (ends : Ends rest)
    (endsBefore : ∀ part ∈ parts, ∀ text,
      Ends (lexemesText separator ++ (lexemesText part ++ text)))
    (separates : ∀ part ∈ parts, ∀ text, Lexable library separator (lexemesText part ++ text))
    (each : ∀ part ∈ parts, ∀ text, Ends text → Lexable library part text) :
    Lexable library (separator.intercalate parts) rest := by
  induction parts with
  | nil => exact trivial
  | cons part parts ih =>
      rw [List.forall_mem_cons] at endsBefore separates each
      have others := ih endsBefore.2 separates.2 each.2
      cases parts with
      | nil =>
          rw [List.intercalate_singleton]
          exact each.1 rest ends
      | cons next parts =>
          have isText : ∃ more, lexemesText (separator.intercalate (next :: parts)) ++ rest =
              lexemesText next ++ more := by
            cases parts with
            | nil => exact ⟨rest, by rw [List.intercalate_singleton]⟩
            | cons third parts =>
                rw [List.intercalate_cons_cons, lexemesText_append, lexemesText_append,
                  List.append_assoc, List.append_assoc]
                exact ⟨_, rfl⟩
          obtain ⟨more, isText⟩ := isText
          rw [List.intercalate_cons_cons]
          refine (lexable_append _ _ _).mpr ⟨(lexable_append _ _ _).mpr ⟨each.1 _ ?_, ?_⟩, others⟩
          · rw [isText]
            exact endsBefore.2 next List.mem_cons_self more
          · rw [isText]
            exact separates.2 next List.mem_cons_self more

/-! ### Stages -/

variable (unicode : Unicode)

theorem lexable_labelTest {test : LabelTest} (writable : test.Writable library) :
    Lexable library test.lexemes rest := by
  refine (lexable_append _ _ _).mpr ⟨⟨writable.name.fits ?_, trivial, fits_comparisonOp test.op,
    trivial, trivial⟩, lexable_ipLexemes test.ip fun _ => stringLiteral_plain writable.text⟩
  cases test.op <;> exact closed_blank (by decide) _

theorem lexable_chain {α : Type} (op : ChainOp) {item : α → List Lexeme} {chain : Chain α}
    (each : chain.Forall fun a => ∀ rest, Lexable library (item a) rest) (rest : GoString) :
    Lexable library (chain.lexemes op item) rest := by
  induction chain generalizing rest with
  | one a => exact each rest
  | more chain a ih =>
      exact (lexable_append _ _ _).mpr ⟨ih each.1 _,
        (lexable_append _ _ _).mpr ⟨lexable_chainOp op, each.2 rest⟩⟩

theorem fits_operand {parser : ParserName} {text : GoString}
    (quotes : parser = .pattern → byte '"' ∈ text → Made (fun r => r ≠ 0x60) text) :
    (operandLexeme unicode parser text).Fits library rest := by
  unfold operandLexeme
  split
  · rename_i isPattern
    exact StringLiteral.raw (quotes isPattern.1 isPattern.2)
  · exact fits_quoted unicode text

theorem lexable_stage {form : StageForm} (writable : form.Writable library)
    (closed : Closed rest) : Lexable library (form.lexemes unicode) rest := by
  cases form with
  | line filter ip value =>
      exact ⟨fits_lineFilter filter, trivial, lexable_ipLexemes ip fun _ => fits_quoted unicode _⟩
  | either filter value ip other =>
      exact ⟨fits_lineFilter filter, trivial, fits_quoted unicode value,
        (lexable_append ChainOp.or.lexemes _ _).mpr ⟨lexable_chainOp .or,
          lexable_ipLexemes ip fun _ => fits_quoted unicode _⟩⟩
  | labels tests =>
      exact ⟨fits_pipe, trivial, lexable_chain .or (writable.mono fun _ all =>
        lexable_chain .and (all.mono fun _ writable _ => lexable_labelTest writable)) rest⟩
  | plain parser => exact ⟨fits_pipe, trivial, fits_parserName parser closed.1, trivial⟩
  | quoted parser text =>
      exact ⟨fits_pipe, trivial, fits_parserName parser rfl, trivial,
        fits_operand unicode writable.2, trivial⟩
  | unwrap name operation =>
      have named : Named library name := writable
      cases operation with
      | none =>
          exact ⟨fits_pipe, trivial, fits_parserName .unwrap rfl, trivial, named.fits closed,
            trivial⟩
      | some op =>
          refine ⟨fits_pipe, trivial, fits_parserName .unwrap rfl, trivial, ?_, fits_lparen,
            named.fits (closed_cons (by decide) _), fits_rparen, trivial⟩
          cases op <;> exact fits_word (by decide) (by decide) (by decide) rfl
  | decolorize =>
      exact ⟨fits_pipe, trivial, fits_word (by decide) (by decide) (by decide) closed.1, trivial⟩

/-- Every stage begins with an operator. -/
theorem stage_begins (form : StageForm) :
    ∃ b ∈ ascii "|!", ∃ more, lexemesText (form.lexemes unicode) = b :: more := by
  cases form with
  | line filter ip value =>
      cases filter <;> first
        | exact ⟨byte '|', by decide, _, rfl⟩
        | exact ⟨byte '!', by decide, _, rfl⟩
  | either filter value ip other =>
      cases filter <;> first
        | exact ⟨byte '|', by decide, _, rfl⟩
        | exact ⟨byte '!', by decide, _, rfl⟩
  | unwrap name operation => cases operation <;> exact ⟨byte '|', by decide, _, rfl⟩
  | _ => exact ⟨byte '|', by decide, _, rfl⟩

theorem closed_pipeline (forms : List StageForm) (closed : Closed rest) :
    Closed (lexemesText (pipelineLexemes unicode forms) ++ rest) := by
  cases forms with
  | nil => exact closed
  | cons form forms =>
      obtain ⟨b, starts, more, begins⟩ := stage_begins unicode form
      have known : ∀ b ∈ ascii "|!", b ∈ ascii "|!=<>" := List.forall_iff_forall_mem.mp (by decide)
      have isText : lexemesText (pipelineLexemes unicode (form :: forms)) =
          byte ' ' :: b :: (more ++ lexemesText (pipelineLexemes unicode forms)) := by
        rw [pipelineLexemes, List.flatMap_cons, lexemesText_append, lexemesText_cons, begins]
        rfl
      rw [isText]
      exact closed_blank (known b starts) _

theorem lexable_pipeline {forms : List StageForm}
    (writable : ∀ form ∈ forms, form.Writable library) (closed : Closed rest) :
    Lexable library (pipelineLexemes unicode forms) rest := by
  induction forms with
  | nil => exact trivial
  | cons form forms ih =>
      rw [List.forall_mem_cons] at writable
      exact ⟨trivial, (lexable_append _ _ _).mpr
        ⟨lexable_stage unicode writable.1 (closed_pipeline unicode forms closed),
          ih writable.2⟩⟩

/-! ### Selectors and groupings -/

theorem lexable_matcher {m : Matcher} (writable : WritableMatcher m) :
    Lexable library (Matcher.lexemes unicode m) rest := by
  have named : Named library m.name :=
    ⟨word_of_plain library.unicode writable.plain, writable.notKeyword⟩
  obtain ⟨type, name, value⟩ := m
  refine ⟨named.fits ?_, ?_, fits_quoted unicode value, trivial⟩
  · cases type <;> exact closed_cons (by decide) _
  · cases type with
    | equal => exact fits_eq_quote
    | _ => exact fits_pair (by decide) (by decide) (by decide) (by decide)

theorem lexable_selector {matchers : List Matcher}
    (writable : ∀ m ∈ matchers, WritableMatcher m) :
    Lexable library (selectorLexemes unicode matchers) rest := by
  refine (lexable_append _ _ _).mpr ⟨⟨fits_single (by decide) (by decide), ?_⟩,
    fits_single (by decide) (by decide), trivial⟩
  refine lexable_intercalate (fun _ => True) trivial (fun _ _ _ => trivial)
    (fun _ _ _ => ⟨fits_comma, trivial, trivial⟩) ?_
  intro part member text _
  obtain ⟨m, isMatcher, rfl⟩ := List.mem_map.mp member
  exact lexable_matcher unicode (writable m isMatcher)

theorem lexable_grouping {g : Grouping} (writable : g.Writable library) :
    Lexable library g.lexemes rest := by
  refine (lexable_append _ _ _).mpr ⟨⟨trivial, ?_, fits_lparen, ?_⟩, fits_rparen, trivial⟩
  · cases g.without <;> exact fits_word (by decide) (by decide) (by decide) rfl
  · refine lexable_intercalate Closed (closed_cons (by decide) _)
      (fun _ _ _ => closed_cons (by decide) _) (fun _ _ _ => ⟨fits_comma, trivial⟩) ?_
    intro part member text closed
    obtain ⟨name, isName, rfl⟩ := List.mem_map.mp member
    exact ⟨(writable.named name isName).fits closed, trivial⟩

end

end McoaGateway.Logql
