/-
The call of the lexer in front of a known text: string literals and ranges.

What `strconv.Quote` writes is read as the text that was quoted.  A text can also stand
between quotes as it is, if it needs no escapes.
-/

import McoaGateway.Logql.TokenText

namespace McoaGateway.Logql

open GoString
open Scanner

variable {library : Library} {s : Scanner} {text rest : GoString} {errors : List ScanError}
  {state : LexState}

/-! ### String literals -/

/-- A literal with the text that it stands for. -/
inductive StringLiteral : GoString → GoString → Prop where
  | quoted {body value : GoString} (isBody : StringBody body)
      (unquoted : unquote (byte '"' :: (body ++ [byte '"'])) = some value) :
      StringLiteral (byte '"' :: (body ++ [byte '"'])) value
  | raw {body : GoString} (isBody : Made (fun r => r ≠ 0x60) body) :
      StringLiteral (0x60 :: (body ++ [0x60])) body

theorem StringLiteral.clean {literal value : GoString} (isLiteral : StringLiteral literal value) :
    Clean literal := by
  cases isLiteral with
  | quoted isBody _ =>
      exact .cons (by decide) (by decide)
        (isBody.clean.append (.cons (by decide) (by decide) .nil))
  | raw isBody =>
      exact .cons (by decide) (by decide)
        (isBody.clean.append (.cons (by decide) (by decide) .nil))

theorem validRounds_clean (clean : Clean text) (rounds : Nat) (enough : text.length ≤ rounds) :
    validRounds rounds text = true := by
  induction clean generalizing rounds with
  | nil => cases rounds <;> rfl
  | rune valid nonzero _ ih =>
      rename_i r rest _
      rw [List.length_append] at enough
      have some : 0 < (encodeRune r).length := List.length_pos_iff.mpr (encodeRune_ne_nil r)
      have decoded := decodeRune_encodeRune_append r valid rest
      cases rounds with
      | zero => omega
      | succ rounds =>
          cases isText : encodeRune r ++ rest with
          | nil => exact absurd (List.append_eq_nil_iff.mp isText).1 (encodeRune_ne_nil r)
          | cons b more =>
              rw [isText] at decoded
              have notError : (r, (encodeRune r).length) ≠ (runeError, 1) := by
                intro same
                obtain ⟨isRune, isLength⟩ := Prod.mk.inj same
                rw [isRune] at isLength
                exact absurd isLength (by decide)
              rw [validRounds, decoded, bne_iff_ne.mpr notError, ← isText, List.drop_left,
                ih rounds (by omega)]
              rfl

/-- The bytes of a text whose characters differ from an ASCII one. -/
theorem not_mem_of_made {b : UInt8} (small : b.toNat < 0x80)
    (made : Made (fun r => r ≠ b.toNat) text) :
    b ∉ text := by
  induction made with
  | nil => exact List.not_mem_nil
  | rune valid nonzero other _ ih =>
      rename_i r rest _
      rw [List.mem_append, not_or]
      refine ⟨fun member => ?_, ih⟩
      by_cases isAscii : r < 0x80
      · rw [encodeRune, if_pos isAscii, List.mem_singleton] at member
        subst member
        exact other (UInt8.toNat_ofNat_of_lt' (Nat.lt_trans isAscii (by decide))).symm
      · have high := encodeRune_not_ascii r (Nat.le_of_not_lt isAscii) b member
        omega

theorem unquote_between (q : UInt8) (body : GoString) :
    unquote (q :: (body ++ [q])) =
      if q = 0x60 then if body.contains 0x60 then none else some body
      else if q ≠ byte '"' && q ≠ byte '\'' then none
      else if body.contains 10 then none
      else if !body.contains (byte '\\') && !body.contains q then some body
      else unquoteLoop q body.length body := by
  have ending : (body ++ [q]).getLast? = some q := by simp
  have isBody : (body ++ [q]).dropLast = body := by simp
  cases shape : body ++ [q] with
  | nil => simp at shape
  | cons first rest =>
      rw [shape] at ending isBody
      simp only [unquote, ending, ne_eq, not_true_eq_false, if_false, isBody]

theorem unquote_raw {body : GoString} (isBody : Made (fun r => r ≠ 0x60) body) :
    unquote (0x60 :: (body ++ [0x60])) = some body := by
  have absent : (0x60 : UInt8) ∉ body := not_mem_of_made (by decide) isBody
  rw [unquote_between, if_pos rfl, if_neg (by simpa using absent)]

theorem stringBody_plain (plain : Made (fun r => r ≠ 0x22 ∧ r ≠ 0x5C ∧ r ≠ 10) text) :
    StringBody text := by
  induction plain with
  | nil => exact .nil
  | rune valid nonzero plain _ ih => exact .raw valid nonzero plain ih

/-- A text that needs no escapes, between quotes. -/
theorem stringLiteral_plain (plain : Made (fun r => r ≠ 0x22 ∧ r ≠ 0x5C ∧ r ≠ 10) text) :
    StringLiteral (byte '"' :: (text ++ [byte '"'])) text := by
  refine .quoted (stringBody_plain plain) ?_
  have noQuote : byte '"' ∉ text :=
    not_mem_of_made (by decide) (plain.mono fun r other => other.1)
  have noEscape : byte '\\' ∉ text :=
    not_mem_of_made (by decide) (plain.mono fun r other => other.2.1)
  have noLine : (10 : UInt8) ∉ text :=
    not_mem_of_made (by decide) (plain.mono fun r other => other.2.2)
  have unescaped : (!text.contains (byte '\\') && !text.contains (byte '"')) = true := by
    simp [noQuote, noEscape]
  rw [unquote_between, if_neg (by decide), if_neg (by decide), if_neg (by simpa using noLine),
    if_pos unescaped]

theorem stringBody_piece (piece : QuotePiece) (valid : piece.Valid) {more : GoString}
    (body : StringBody more) : StringBody (piece.text ++ more) := by
  cases piece with
  | raw r =>
      obtain ⟨isValid, notQuote, notEscape, low, -⟩ := valid
      exact .raw isValid (by omega) ⟨notQuote, notEscape, by omega⟩ body
  | simple letter value =>
      have letters : ∀ entry ∈ simpleEscapes,
          (ascii "abfnrtv\\\"").contains entry.1 = true :=
        List.forall_iff_forall_mem.mp (by decide +kernel)
      have isLookup : List.lookup letter simpleEscapes = some value := valid
      obtain ⟨before, after, shape, -⟩ := List.lookup_eq_some_iff.mp isLookup
      refine .simple (letters (letter, value) ?_) body
      rw [shape]
      exact List.mem_append_right _ List.mem_cons_self
  | hexByte b => exact @StringBody.digits (byte 'x') 2 b.toNat more (by decide) body
  | shortRune r => exact @StringBody.digits (byte 'u') 4 r more (by decide) body
  | longRune r => exact @StringBody.digits (byte 'U') 8 r more (by decide) body

theorem stringBody_pieces (pieces : List QuotePiece) (valid : ∀ piece ∈ pieces, piece.Valid) :
    StringBody (pieces.flatMap QuotePiece.text) := by
  induction pieces with
  | nil => exact .nil
  | cons piece pieces ih =>
      rw [List.forall_mem_cons] at valid
      rw [List.flatMap_cons]
      exact stringBody_piece piece valid.1 (ih valid.2)

theorem stringLiteral_quote (unicode : Unicode) (value : GoString) :
    StringLiteral (quote unicode value) value := by
  obtain ⟨-, valid⟩ := quotePieces_source unicode value.length value (Nat.le_refl _)
  exact .quoted (stringBody_pieces _ valid) (unquote_quote unicode value)

theorem StringLiteral.unquoted {literal value : GoString}
    (isLiteral : StringLiteral literal value) : unquote literal = some value := by
  cases isLiteral with
  | quoted _ unquoted => exact unquoted
  | raw isBody => exact unquote_raw isBody

theorem yields_string {literal value : GoString}
    (facing : Facing state.scanner (literal ++ rest) errors)
    (isLiteral : StringLiteral literal value) (clean : Clean rest) :
    Yields library state ⟨.string, ⟨value, 0⟩⟩ rest errors := by
  have cleanLiteral := isLiteral.clean
  have isValue := isLiteral.unquoted
  have scans : ∀ start, At start (literal ++ rest) errors → ∃ scanned stop,
      scanToken library.unicode start = (some scanned, stop) ∧
      (scanned = .string ∨ scanned = .rawString) ∧ At stop rest errors := by
    intro start atStart
    cases isLiteral with
    | quoted isBody _ =>
        rw [List.cons_append, List.append_assoc] at atStart
        obtain ⟨stop, isToken, atStop⟩ :=
          atStart.scanToken_string library.unicode isBody clean
        exact ⟨_, stop, isToken, Or.inl rfl, atStop⟩
    | raw isBody =>
        rw [List.cons_append, List.append_assoc] at atStart
        obtain ⟨stop, isToken, atStop⟩ :=
          atStart.scanToken_rawString library.unicode isBody clean
        exact ⟨_, stop, isToken, Or.inr rfl, atStop⟩
  have notBlank : ∀ r, firstRune (literal ++ rest) = some r → isWhitespace r = false := by
    intro r isFirst
    cases isLiteral with
    | quoted _ _ =>
        rw [List.cons_append, firstRune_cons (by decide)] at isFirst
        cases isFirst
        decide
    | raw _ =>
        rw [List.cons_append, firstRune_cons (by decide)] at isFirst
        cases isFirst
        decide
  obtain ⟨start, atStart, found⟩ := facing.found library (cleanLiteral.append clean) notBlank
  obtain ⟨scanned, stop, isToken, isString, atStop⟩ := scans start atStart
  have isFound := found _ _ isToken (by rcases isString with rfl | rfl <;> decide)
  have isText : start.since stop = literal := atStart.since atStop
  refine ⟨⟨.string, ⟨value, state.lval.duration⟩⟩, (state.moveTo stop).withStr value, ?_, rfl,
    facing_at atStop⟩
  have isString' : lexString (state.moveTo stop) literal =
      ((state.moveTo stop).withStr value).token .string := by
    unfold lexString
    rw [validString, validRounds_clean cleanLiteral _ (Nat.le_refl _), isValue]
    rfl
  rw [lex_eq, isFound]
  unfold lexFound
  rcases isString with rfl | rfl
  · dsimp only
    rw [isText, isString']
    rfl
  · dsimp only
    rw [isText, isString']
    rfl

/-! ### Ranges -/

theorem yields_range {body : GoString}
    (facing : Facing state.scanner (byte '[' :: (body ++ byte ']' :: rest)) errors)
    (isBody : Made (fun r => r ≠ 0x5D) body) (clean : Clean rest) :
    Yields library state ⟨.range, ⟨byte '[' :: (body ++ [byte ']']), 0⟩⟩ rest errors := by
  have cleanEnd : Clean (byte ']' :: rest) := .cons (by decide) (by decide) clean
  obtain ⟨start, atStart, found⟩ :=
    facing.found library (.cons (by decide) (by decide) (isBody.clean.append cleanEnd)) (by
      intro r isFirst
      rw [firstRune_cons (by decide)] at isFirst
      cases isFirst
      decide)
  obtain ⟨isToken, inside⟩ :=
    atStart.scanToken_operator library.unicode (by decide) (isBody.clean.append cleanEnd)
  have isFound := found _ _ isToken (by decide)
  have atEnd : At (start.next.skipWhile fun r => r != 0x5D) (byte ']' :: rest) errors := by
    refine inside.skipWhile (isBody.mono fun r other => bne_iff_ne.mpr other) cleanEnd ?_
    intro r isFirst
    rw [firstRune_cons (by decide)] at isFirst
    cases isFirst
    rfl
  have there : ¬ (start.next.skipWhile fun r => r != 0x5D).ch = none := by
    rw [atEnd.ch, firstRune_cons (by decide)]
    exact nofun
  have isText : start.next.since (start.next.skipWhile fun r => r != 0x5D) = body :=
    inside.since atEnd
  refine ⟨⟨.range, ⟨byte '[' :: (body ++ [byte ']']), state.lval.duration⟩⟩,
    (state.moveTo (start.next.skipWhile fun r => r != 0x5D).next).withStr
      (byte '[' :: (body ++ [byte ']'])), ?_, rfl, facing_at (atEnd.next_cons (by decide) clean)⟩
  rw [lex_eq, isFound]
  unfold lexFound lexRange
  dsimp only
  rw [if_neg (by decide), if_pos (by decide)]
  rw [show (state.moveTo start.next).scanner = start.next from rfl, if_neg there, isText]
  rfl

end McoaGateway.Logql
