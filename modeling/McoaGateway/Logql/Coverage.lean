/-
Which text of a query its tokens cover.

Between two tokens there are white space and comments (`Skipped`), and a token
spells a piece of the text (`Spells`).  Lex drops text in two ways.  At a flag that
it does not know it gives the end of the input.  And a copy of the scanner that
looks ahead beyond the buffer takes what it reads away from the original.  Calls
that do neither cover the whole text.
-/

import McoaGateway.Loops
import McoaGateway.Logql.Results

namespace McoaGateway.Logql

open GoString
open Scanner

variable {library : Library} {s s' : Scanner}

/-! ### Between the tokens -/

def afterComment : GoString → Option GoString
  | [] => none
  | b :: rest =>
      if b = byte '*' ∧ rest.head? = some (byte '/') then some rest.tail else afterComment rest

/-- White space and comments lead from one text to another. -/
inductive Skipped : GoString → GoString → Prop where
  | refl (text : GoString) : Skipped text text
  | space {rune after text : GoString} (isSpace : rune ∈ spaceRunes)
      (rest : Skipped after text) : Skipped (rune ++ after) text
  | line {mark body after text : GoString} (isMark : mark = ascii "//" ∨ mark = ascii "#")
      (noNewline : (10 : UInt8) ∉ body) (ended : after = [] ∨ after.head? = some 10)
      (rest : Skipped after text) : Skipped (mark ++ (body ++ after)) text
  | general {body after text : GoString} (ended : afterComment body = some after)
      (rest : Skipped after text) : Skipped (ascii "/*" ++ body) text

theorem Skipped.trans {first second third : GoString} (front : Skipped first second)
    (back : Skipped second third) : Skipped first third := by
  induction front with
  | refl => exact back
  | space isSpace _ ih => exact .space isSpace (ih back)
  | line isMark noNewline ended _ ih => exact .line isMark noNewline ended (ih back)
  | general ended _ ih => exact .general ended (ih back)

theorem skipped_spaces (front text : GoString) (spaces : ∀ b ∈ front, [b] ∈ spaceRunes) :
    Skipped (front ++ text) text := by
  induction front with
  | nil => exact .refl text
  | cons b front ih =>
      obtain ⟨first, rest⟩ := List.forall_mem_cons.mp spaces
      have skipped : Skipped ([b] ++ (front ++ text)) text := .space first (ih rest)
      exact skipped

/-! ### Characters and bytes -/

theorem text_of_ch {r : Nat} (isCh : s.ch = some r) (isAscii : r < 0x80) :
    s.text = UInt8.ofNat r :: s.next.text := by
  obtain ⟨piece, isPiece, isText⟩ := next_piece isCh
  rw [isText, isPiece.ascii isAscii]
  rfl

theorem ch_of_text {b : UInt8} (fed : Fed s) (isHead : s.text.head? = some b)
    (isAscii : b.toNat < 0x80) : s.ch = some b.toNat := by
  cases held : s.held with
  | nil =>
      rw [text, held, fed.reader held] at isHead
      cases isHead
  | cons first others =>
      rw [text, held] at isHead
      cases isHead
      rcases decodeRune_cases b others with
        ⟨_, decoded⟩ | ⟨r, tail, notAscii, _, isText, _⟩ | ⟨high, _⟩
      · rw [ch, held]
        dsimp only
        rw [decoded]
      · have inPiece : b ∈ encodeRune r := by
          obtain ⟨c, cs, isRune⟩ := List.exists_cons_of_ne_nil (encodeRune_ne_nil r)
          rw [isRune] at isText ⊢
          cases isText
          exact List.mem_cons_self
        have high := encodeRune_not_ascii r notAscii b inPiece
        omega
      · omega

/-! ### Comments -/

theorem afterComment_append (piece text : GoString) (noStar : ∀ b ∈ piece, b ≠ byte '*') :
    afterComment (piece ++ text) = afterComment text := by
  induction piece with
  | nil => rfl
  | cons b piece ih =>
      obtain ⟨first, rest⟩ := List.forall_mem_cons.mp noStar
      rw [List.cons_append, afterComment, if_neg (fun both => first both.1), ih rest]

theorem noStar_of_piece {r : Nat} {piece : GoString} (isPiece : IsPiece r piece)
    (notStar : r ≠ 0x2A) : ∀ b ∈ piece, b ≠ byte '*' := by
  rintro b member rfl
  by_cases isAscii : r < 0x80
  · rw [isPiece.ascii isAscii, List.mem_singleton] at member
    have same := congrArg UInt8.toNat member
    rw [UInt8.toNat_ofNat_of_lt' (Nat.lt_trans isAscii (by decide))] at same
    exact notStar same.symm
  · have high := isPiece.high (Nat.le_of_not_lt isAscii) _ member
    exact absurd high (by decide)

theorem scanGeneralComment_text (rounds : Nat) (s : Scanner) (fed : Fed s)
    (enough : s.text.length < rounds) (noErrors : (scanGeneralComment rounds s).errors = []) :
    afterComment s.text = some (scanGeneralComment rounds s).text := by
  induction rounds generalizing s with
  | zero => omega
  | succ rounds ih =>
      rw [scanGeneralComment] at noErrors ⊢
      cases isCh : s.ch with
      | none =>
          rw [isCh] at noErrors
          exact absurd noErrors (List.append_ne_nil_of_right_ne_nil _ (List.cons_ne_nil _ _))
      | some r =>
          rw [isCh] at noErrors
          dsimp only at noErrors ⊢
          have shorter := length_next_lt isCh
          by_cases isEnd : r = 0x2A ∧ s.next.ch = some 0x2F
          · obtain ⟨rfl, isSlash⟩ := isEnd
            rw [if_pos ⟨rfl, isSlash⟩, text_of_ch isCh (by decide), text_of_ch isSlash (by decide),
              afterComment, if_pos ⟨rfl, rfl⟩]
            rfl
          · rw [if_neg isEnd] at noErrors ⊢
            rw [← ih s.next fed.next (by omega) noErrors]
            by_cases isStar : r = 0x2A
            · subst isStar
              rw [text_of_ch isCh (by decide), afterComment, if_neg]
              rintro ⟨-, isHead⟩
              exact isEnd ⟨rfl, ch_of_text fed.next isHead (by decide)⟩
            · obtain ⟨piece, isPiece, isText⟩ := next_piece isCh
              rw [isText, afterComment_append _ _ (noStar_of_piece isPiece isStar)]

theorem skipLine_text (fed : Fed s) :
    s.text = s.since (s.skipWhile fun r => r != 10) ++ (s.skipWhile fun r => r != 10).text ∧
      (10 : UInt8) ∉ s.since (s.skipWhile fun r => r != 10) ∧
      ((s.skipWhile fun r => r != 10).text = [] ∨
        (s.skipWhile fun r => r != 10).text.head? = some 10) := by
  have reads : Reads (fun r => r ≠ 10) s (s.skipWhile fun r => r != 10) :=
    reads_skipWhile _ (fun r skip => by simpa using skip) s
  have bytes : ∀ b ∈ s.since (s.skipWhile fun r => r != 10), b ≠ (10 : UInt8) := by
    refine reads.since_bytes ?_ ?_
    · intro r notNewline isAscii isNewline
      have same := congrArg UInt8.toNat isNewline
      rw [UInt8.toNat_ofNat_of_lt' (Nat.lt_trans isAscii (by decide))] at same
      exact notNewline same
    · rintro r - - b high rfl
      exact absurd high (by decide)
  refine ⟨text_eq_since reads.text_suffix, fun member => bytes 10 member rfl, ?_⟩
  cases isCh : (s.skipWhile fun r => r != 10).ch with
  | none => exact Or.inl ((reads.fed fed).text_of_ch_none isCh)
  | some r =>
      have isNewline := skipWhile_stops _ s isCh
      have same : r = 10 := by simpa using isNewline
      subst same
      rw [text_of_ch isCh (by decide)]
      exact Or.inr rfl

theorem skipped_blanks (s : Scanner) : Skipped s.text (s.skipWhile isWhitespace).text := by
  have reads : Reads (fun r => isWhitespace r = true) s (s.skipWhile isWhitespace) :=
    reads_skipWhile _ (fun _ skip => skip) s
  rw [text_eq_since reads.text_suffix]
  refine skipped_spaces _ _ (reads.since_bytes ?_ ?_)
  · intro r blank _
    simp only [isWhitespace, Bool.or_eq_true, decide_eq_true_eq] at blank
    rcases blank with ((rfl | rfl) | rfl) | rfl <;> decide
  · intro r blank high
    simp only [isWhitespace, Bool.or_eq_true, decide_eq_true_eq] at blank
    omega

theorem comment_skipped {stop : Scanner} (comment : TokenAt s (none, stop)) (fed : Fed s)
    (noErrors : stop.errors = []) : Skipped s.text stop.text := by
  cases comment with
  | lineComment isCh isSlash =>
      obtain ⟨isText, noNewline, ended⟩ := skipLine_text fed.next.next
      generalize s.next.next.skipWhile (fun r => r != 10) = stop at isText noNewline ended ⊢
      have line : Skipped (ascii "//" ++ (s.next.next.since stop ++ stop.text)) stop.text :=
        .line (Or.inl rfl) noNewline ended (.refl _)
      rw [← isText] at line
      rw [text_of_ch isCh (by decide), text_of_ch isSlash (by decide)]
      exact line
  | generalComment isCh isStar =>
      have shorter := length_next_lt isCh
      have shorterStar := length_next_lt isStar
      have ended := scanGeneralComment_text (s.text.length + 1) s.next.next fed.next.next
        (by omega) noErrors
      generalize scanGeneralComment (s.text.length + 1) s.next.next = stop at ended ⊢
      have comment : Skipped (ascii "/*" ++ s.next.next.text) stop.text :=
        .general ended (.refl _)
      rw [text_of_ch isCh (by decide), text_of_ch isStar (by decide)]
      exact comment

theorem errors_nil_of_grown (errors : s.errors <+: s'.errors) (noErrors : s'.errors = []) :
    s.errors = [] := by
  rw [noErrors] at errors
  exact List.prefix_nil.mp errors

theorem passes_skipped {unicode : Unicode} {start : Scanner} (passes : Passes unicode s start)
    (fed : Fed s) (noErrors : start.errors = []) : Skipped s.text start.text := by
  induction passes with
  | blanks s => exact skipped_blanks s
  | @comment own stop start isComment rest ih =>
      have blanks := reads_skipWhile_any isWhitespace own
      have comment := tokenAt_scanToken unicode (own.skipWhile isWhitespace)
      rw [isComment] at comment
      obtain ⟨r, isCh, reads⟩ := comment.comment_reads
      have stopErrors := errors_nil_of_grown rest.reads.errors noErrors
      have stopFed := reads.fed (blanks.fed fed).next
      exact (skipped_blanks own).trans
        ((comment_skipped comment (blanks.fed fed) stopErrors).trans (ih stopFed noErrors))

theorem skipped_newline {r : Nat} (isCh : s.ch = some r) (isNewline : r = 10) :
    Skipped s.text s.next.text := by
  subst isNewline
  have space : Skipped ([10] ++ s.next.text) s.next.text := .space (by decide) (.refl _)
  rw [text_of_ch isCh (by decide)]
  exact space

theorem skipComment_skipped {hashAt : Scanner} (isHash : hashAt.ch = some 0x23)
    (fed : Fed hashAt) : Skipped hashAt.text (skipComment hashAt.next).text := by
  have front : ∀ body after text : GoString, hashAt.next.text = body ++ after →
      (10 : UInt8) ∉ body → (after = [] ∨ after.head? = some 10) → Skipped after text →
      Skipped hashAt.text text := by
    intro body after text isText noNewline ended rest
    have line : Skipped (ascii "#" ++ (body ++ after)) text :=
      .line (Or.inr rfl) noNewline ended rest
    rw [text_of_ch isHash (by decide), isText]
    exact line
  unfold skipComment
  split
  · rename_i atEnd
    refine front [] hashAt.next.text _ (List.nil_append _).symm List.not_mem_nil ?_ (.refl _)
    rcases atEnd with isNone | isNewline
    · exact Or.inl (fed.next.text_of_ch_none isNone)
    · rw [text_of_ch isNewline (by decide)]
      exact Or.inr rfl
  · obtain ⟨isText, noNewline, ended⟩ := skipLine_text fed.next
    refine front _ _ _ isText noNewline ended ?_
    cases isCh : (hashAt.next.skipWhile fun r => r != 10).ch with
    | none =>
        rw [text_next_of_ch_none isCh]
        exact .refl _
    | some r =>
        have stops := skipWhile_stops _ hashAt.next isCh
        exact skipped_newline isCh (by simpa using stops)

theorem reaches_skipped {start : Scanner} (reaches : Reaches library s start) (fed : Fed s)
    (noErrors : start.errors = []) : Skipped s.text start.text := by
  induction reaches with
  | token passes => exact passes_skipped passes fed noErrors
  | @hash s hashAt start passes isHash rest ih =>
      have hashFed := passes.reads.fed fed
      have comment := (reads_next isHash).advances.trans (advances_skipComment hashAt.next)
      have hashErrors := errors_nil_of_grown (comment.trans rest.advances).errors noErrors
      exact (passes_skipped passes fed hashErrors).trans
        ((skipComment_skipped isHash hashFed).trans (ih (comment.fed hashFed) noErrors))

/-! ### Tokens -/

def Spells (library : Library) (token : Token) (piece : GoString) : Prop :=
  if token.kind = .identifier ∨ token.kind = .number ∨ token.kind = .range then
    token.lval.str = piece
  else if token.kind = .string then unquote piece = some token.lval.str
  else if token.kind = .duration then library.parseDuration piece = some token.lval.duration
  else tokens.lookup piece = some token.kind ∨ funcTokens.lookup piece = some token.kind

/-- The tokens cover the text, up to white space and comments. -/
inductive Covered (library : Library) : GoString → List Token → Prop where
  | done {text : GoString} (skipped : Skipped text []) : Covered library text []
  | token {text piece after : GoString} {token : Token} {tokens : List Token}
      (skipped : Skipped text (piece ++ after)) (spells : Spells library token piece)
      (rest : Covered library after tokens) : Covered library text (token :: tokens)

theorem Skipped.covered {text after : GoString} {tokens : List Token}
    (skipped : Skipped text after) (covered : Covered library after tokens) :
    Covered library text tokens := by
  cases covered with
  | done rest => exact .done (skipped.trans rest)
  | token rest spells others => exact .token (skipped.trans rest) spells others

/-- The result is a token that the text begins with, and the scanner stands
behind it. -/
def TakesToken (library : Library) (text : GoString) (result : Option Token × LexState) : Prop :=
  ∃ token piece after, result.1 = some token ∧ text = piece ++ after ∧
    Spells library token piece ∧ Skipped after result.2.scanner.text

theorem spells_text (library : Library) (kind : Terminal) (lval : LexValue) (piece : GoString)
    (isText : kind = .identifier ∨ kind = .number ∨ kind = .range) (same : lval.str = piece) :
    Spells library ⟨kind, lval⟩ piece := by
  rw [Spells, if_pos isText]
  exact same

theorem spells_string (library : Library) (lval : LexValue) (piece : GoString)
    (unquoted : unquote piece = some lval.str) : Spells library ⟨.string, lval⟩ piece := by
  have notText : ¬ (Terminal.string = .identifier ∨ Terminal.string = .number ∨
      Terminal.string = .range) := by decide
  rw [Spells, if_neg notText, if_pos rfl]
  exact unquoted

theorem spells_duration (library : Library) (lval : LexValue) (piece : GoString)
    (isDuration : library.parseDuration piece = some lval.duration) :
    Spells library ⟨.duration, lval⟩ piece := by
  have notText : ¬ (Terminal.duration = .identifier ∨ Terminal.duration = .number ∨
      Terminal.duration = .range) := by decide
  have notString : Terminal.duration ≠ .string := by decide
  rw [Spells, if_neg notText, if_neg notString, if_pos rfl]
  exact isDuration

theorem keyword_entries :
    ∀ entry ∈ tokens ++ funcTokens, (entry.1.all fun b => b.toNat < 0x80) = true ∧
      ¬ (entry.2 = .identifier ∨ entry.2 = .number ∨ entry.2 = .range) ∧
      entry.2 ≠ .string ∧ entry.2 ≠ .duration := by
  decide +kernel

theorem keyword_entry {key : GoString} {kind : Terminal}
    (found : tokens.lookup key = some kind ∨ funcTokens.lookup key = some kind) :
    (∀ b ∈ key, b.toNat < 0x80) ∧ ¬ (kind = .identifier ∨ kind = .number ∨ kind = .range) ∧
      kind ≠ .string ∧ kind ≠ .duration := by
  have member : (key, kind) ∈ tokens ++ funcTokens := by
    rcases found with isToken | isFunction
    · exact List.mem_append_left _ (mem_of_lookup isToken)
    · exact List.mem_append_right _ (mem_of_lookup isFunction)
  obtain ⟨isAscii, others⟩ := keyword_entries _ member
  refine ⟨fun b inKey => ?_, others⟩
  exact of_decide_eq_true (List.all_eq_true.mp isAscii b inKey)

theorem spells_keyword (library : Library) (kind : Terminal) (lval : LexValue) (piece : GoString)
    (found : tokens.lookup piece = some kind ∨ funcTokens.lookup piece = some kind) :
    Spells library ⟨kind, lval⟩ piece := by
  obtain ⟨-, notText, notString, notDuration⟩ := keyword_entry found
  rw [Spells, if_neg notText, if_neg notString, if_neg notDuration]
  exact found

theorem peek_text {tokenText : GoString} {kind : Terminal}
    (found : tokens.lookup (tokenText ++ peekString s) = some kind ∨
      funcTokens.lookup (tokenText ++ peekString s) = some kind) :
    s.text = peekString s ++ s.next.text := by
  have isAscii : ∀ b ∈ peekString s, b.toNat < 0x80 :=
    fun b member => (keyword_entry found).1 b (List.mem_append_right _ member)
  have low : ∀ r, encodeRune r = peekString s → r < 0x80 := by
    intro r same
    by_contra notAscii
    obtain ⟨b, others, isRune⟩ := List.exists_cons_of_ne_nil (encodeRune_ne_nil r)
    have member : b ∈ encodeRune r := by
      rw [isRune]
      exact List.mem_cons_self
    have high := encodeRune_not_ascii r (Nat.le_of_not_lt notAscii) b member
    rw [same] at member
    have small := isAscii b member
    omega
  cases isCh : s.ch with
  | none =>
      have small := low runeError (by rw [peekString, isCh]; rfl)
      exact absurd small (by decide)
  | some r =>
      have small := low r (by rw [peekString, isCh]; rfl)
      obtain ⟨piece, isPiece, isText⟩ := next_piece isCh
      have notError : r ≠ runeError := by
        rintro rfl
        exact absurd small (by decide)
      rw [isText, isPiece.encoded notError, peekString, isCh]
      rfl

/-! ### Looking ahead -/

def shortLookaheads (s : Scanner) (tokenText : GoString) : List Scanner :=
  (funcTokens.lookup tokenText).toList.map fun _ => (isFunc s).2

def wordLookaheads (s : Scanner) (tokenText : GoString) : List Scanner :=
  match funcTokens.lookup (tokenText ++ peekString s) with
  | none => shortLookaheads s tokenText
  | some _ =>
      let looked := isFunc s.next
      if looked.1 then [looked.2] else looked.2 :: shortLookaheads (s.after looked.2) tokenText

/-- The copies of the scanner that a call makes, as it has left them. -/
def lookaheads (library : Library) (found : Scanned × Scanner × Scanner) : List Scanner :=
  let stop := found.2.2
  let tokenText := found.2.1.since stop
  let duration := stop.skipWhile (isDurationPart library)
  match found.1 with
  | .eof | .string | .rawString => []
  | .int | .float => [duration]
  | .ident | .char => wordLookaheads stop tokenText
  | .rune r =>
      if r = 0x2D then
        if stop.ch = some 0x2D then []
        else
          match tryScanDuration library tokenText stop with
          | (some _, _) => [duration]
          | (none, s) => duration :: wordLookaheads s tokenText
      else if r = 0x5B then []
      else wordLookaheads stop tokenText

/-- No copy of the scanner has refilled its buffer. -/
def LooksWithin (library : Library) (s : Scanner) : Prop :=
  ∀ copy ∈ lookaheads library (tokenAt library s),
    copy.reader = (tokenAt library s).2.2.reader

/-! ### Words -/

theorem lexKeyword_takes (library : Library) {start : GoString} (state : LexState)
    (tokenText : GoString) (isStart : start = tokenText ++ state.scanner.text) :
    TakesToken library start
      (lexKeyword state tokenText (tokenText ++ peekString state.scanner)) := by
  unfold lexKeyword
  split
  · rename_i kind found
    refine ⟨⟨kind, state.lval⟩, _, _, rfl, ?_, spells_keyword _ _ _ _ (Or.inl found), .refl _⟩
    rw [isStart, peek_text (Or.inl found), List.append_assoc]
    rfl
  · split
    · rename_i kind found
      exact ⟨⟨kind, state.lval⟩, _, _, rfl, isStart, spells_keyword _ _ _ _ (Or.inl found), .refl _⟩
    · exact ⟨⟨.identifier, _⟩, _, _, rfl, isStart, spells_text _ _ _ _ (Or.inl rfl) rfl, .refl _⟩

theorem lexShort_takes (library : Library) {start : GoString} (state : LexState)
    (tokenText : GoString) (isStart : start = tokenText ++ state.scanner.text)
    (within : ∀ copy ∈ shortLookaheads state.scanner tokenText,
      copy.reader = state.scanner.reader) :
    TakesToken library start
      (lexShort state tokenText (tokenText ++ peekString state.scanner)) := by
  unfold lexShort
  unfold shortLookaheads at within
  split
  · exact lexKeyword_takes library state tokenText isStart
  · rename_i kind found
    rw [found] at within
    have same := sameBuffer_after (within _ (List.mem_singleton.mpr rfl))
    dsimp only
    generalize isFunc state.scanner = looked at same ⊢
    rw [← same.text] at isStart
    split
    · exact ⟨⟨kind, _⟩, _, _, rfl, isStart, spells_keyword _ _ _ _ (Or.inr found), .refl _⟩
    · have keyword := lexKeyword_takes library (state.moveTo (state.scanner.after looked.2))
        tokenText isStart
      rw [peekString, show (state.moveTo (state.scanner.after looked.2)).scanner.ch =
        state.scanner.ch from same.ch] at keyword
      exact keyword

theorem lexWord_takes (library : Library) {start : GoString} (state : LexState)
    (tokenText : GoString) (isStart : start = tokenText ++ state.scanner.text)
    (within : ∀ copy ∈ wordLookaheads state.scanner tokenText,
      copy.reader = state.scanner.reader) :
    TakesToken library start (lexWord state tokenText) := by
  rw [lexWord_eq]
  unfold wordLookaheads at within
  split
  · rename_i notFound
    rw [notFound] at within
    exact lexShort_takes library state tokenText isStart within
  · rename_i kind found
    rw [found] at within
    dsimp only at within ⊢
    generalize isFunc state.scanner.next = looked at within ⊢
    have isMember : looked.2 ∈ (if looked.1 = true then [looked.2]
        else looked.2 :: shortLookaheads (state.scanner.after looked.2) tokenText) := by
      split <;> exact List.mem_cons_self
    have same := sameBuffer_after (within _ isMember)
    split
    · refine ⟨⟨kind, _⟩, _, _, rfl, ?_, spells_keyword _ _ _ _ (Or.inr found), .refl _⟩
      have peeked := peek_text (Or.inr found)
      rw [isStart, peeked, List.append_assoc]
      rw [show ((state.moveTo (state.scanner.after looked.2).next).token kind).2.scanner =
        (state.scanner.after looked.2).next from rfl, same.next.text]
    · rename_i notFunction
      rw [if_neg notFunction] at within
      rw [← same.text] at isStart
      have short := lexShort_takes library (state.moveTo (state.scanner.after looked.2)) tokenText
        isStart fun copy member =>
          (within copy (List.mem_cons_of_mem _ member)).trans same.reader.symm
      rw [peekString, show (state.moveTo (state.scanner.after looked.2)).scanner.ch =
        state.scanner.ch from same.ch] at short
      exact short

/-! ### Durations -/

theorem iterate_countRounds (counts : Nat → Bool) (rounds : Nat) (s : Scanner) :
    Nat.iterate Scanner.next (countRounds counts rounds s) s = skipRounds counts rounds s := by
  induction rounds generalizing s with
  | zero => rfl
  | succ rounds ih =>
      rw [countRounds, skipRounds]
      cases s.ch with
      | none => rfl
      | some r =>
          dsimp only
          split
          · exact ih s.next
          · rfl

theorem tryScanDuration_cases (library : Library) (number : GoString) (s : Scanner)
    (within : (s.skipWhile (isDurationPart library)).reader = s.reader) :
    (∃ s', tryScanDuration library number s = (none, s') ∧ SameBuffer s s') ∨
    ∃ d s' text, tryScanDuration library number s = (some d, s') ∧
      library.parseDuration (number ++ text) = some d ∧ s.text = text ++ s'.text := by
  have same := sameBuffer_after within
  unfold tryScanDuration
  dsimp only
  split
  · exact Or.inl ⟨_, rfl, same⟩
  · split
    · exact Or.inl ⟨_, rfl, same⟩
    · rename_i d isDuration
      refine Or.inr ⟨d, _, _, rfl, isDuration, ?_⟩
      have reads := reads_skipWhile_any (isDurationPart library) s
      rw [(same.iterate _).text, iterate_countRounds]
      exact text_eq_since reads.text_suffix

theorem lexNumber_takes {start : GoString} (state : LexState)
    (tokenText : GoString) (isStart : start = tokenText ++ state.scanner.text)
    (within : (state.scanner.skipWhile (isDurationPart library)).reader =
      state.scanner.reader) :
    TakesToken library start (lexNumber library state tokenText) := by
  unfold lexNumber
  rcases tryScanDuration_cases library tokenText state.scanner within with
    ⟨s', isScanned, same⟩ | ⟨d, s', text, isScanned, isDuration, isText⟩
  · rw [isScanned]
    rw [← same.text] at isStart
    exact ⟨⟨.number, _⟩, _, _, rfl, isStart,
      spells_text _ _ _ _ (Or.inr (Or.inl rfl)) rfl, .refl _⟩
  · rw [isScanned]
    rw [isText, ← List.append_assoc] at isStart
    exact ⟨⟨.duration, _⟩, _, _, rfl, isStart, spells_duration _ _ _ isDuration, .refl _⟩

theorem lexDash_takes {start : GoString} (state : LexState)
    (tokenText : GoString) (isStart : start = tokenText ++ state.scanner.text)
    (within : ∀ copy ∈ (match tryScanDuration library tokenText state.scanner with
        | (some _, _) => [state.scanner.skipWhile (isDurationPart library)]
        | (none, s) => state.scanner.skipWhile (isDurationPart library) ::
            wordLookaheads s tokenText), copy.reader = state.scanner.reader) :
    TakesToken library start (lexDash library state tokenText) := by
  have duration : (state.scanner.skipWhile (isDurationPart library)).reader =
      state.scanner.reader := by
    apply within
    split <;> exact List.mem_cons_self
  unfold lexDash
  rcases tryScanDuration_cases library tokenText state.scanner duration with
    ⟨s', isScanned, same⟩ | ⟨d, s', text, isScanned, isDuration, isText⟩
  · rw [isScanned] at within ⊢
    rw [← same.text] at isStart
    exact lexWord_takes library (state.moveTo s') tokenText isStart fun copy member =>
      (within copy (List.mem_cons_of_mem _ member)).trans same.reader.symm
  · rw [isScanned]
    rw [isText, ← List.append_assoc] at isStart
    exact ⟨⟨.duration, _⟩, _, _, rfl, isStart, spells_duration _ _ _ isDuration, .refl _⟩

/-! ### Strings, ranges and flags -/

/-- The call gives no token, but it has noted an error. -/
def Complains (errs : List ScanError) (result : Option Token × LexState) : Prop :=
  result.1 = none ∧ result.2.scanner.errors ≠ errs

theorem complains_of_error {errs : List ScanError} (state : LexState) (message : GoString)
    (grown : errs <+: state.scanner.errors) : Complains errs (none, state.error message) := by
  refine ⟨rfl, fun same => ?_⟩
  have length := congrArg List.length same
  have atLeast := grown.length_le
  rw [show (none, state.error message).2.scanner.errors =
    state.scanner.errors ++ [.reported message] from rfl, List.length_append,
    List.length_singleton] at length
  omega

theorem lexString_takes (library : Library) {start : GoString} {errs : List ScanError}
    (state : LexState) (tokenText : GoString) (isStart : start = tokenText ++ state.scanner.text)
    (grown : errs <+: state.scanner.errors) :
    TakesToken library start (lexString state tokenText) ∨
      Complains errs (lexString state tokenText) := by
  unfold lexString
  split
  · exact Or.inr (complains_of_error state _ grown)
  · split
    · exact Or.inr (complains_of_error state _ grown)
    · rename_i str unquoted
      exact Or.inl ⟨⟨.string, _⟩, _, _, rfl, isStart, spells_string _ _ _ unquoted, .refl _⟩

theorem lexRange_takes (library : Library) {start : GoString} {errs : List ScanError}
    (state : LexState) (isStart : start = ascii "[" ++ state.scanner.text)
    (grown : errs <+: state.scanner.errors) :
    TakesToken library start (lexRange state) ∨ Complains errs (lexRange state) := by
  have reads := reads_skipWhile_any (fun r => r != 0x5D) state.scanner
  have stops : ∀ r, (state.scanner.skipWhile fun r => r != 0x5D).ch = some r → r = 0x5D := by
    intro r isCh
    simpa using skipWhile_stops _ state.scanner isCh
  have isText := text_eq_since reads.text_suffix
  unfold lexRange
  dsimp only
  generalize state.scanner.skipWhile (fun r => r != 0x5D) = stop at reads stops isText ⊢
  cases isCh : stop.ch with
  | none =>
      rw [if_pos rfl]
      exact Or.inr (complains_of_error (state.moveTo stop) _ (grown.trans reads.errors))
  | some r =>
      have isBracket := stops r isCh
      subst isBracket
      rw [if_neg (Option.some_ne_none _)]
      refine Or.inl ⟨⟨.range, _⟩, ascii "[" ++ state.scanner.since stop ++ ascii "]",
        stop.next.text, rfl, ?_, spells_text _ _ _ _ (Or.inr (Or.inr rfl)) rfl, .refl _⟩
      rw [isStart, isText, text_of_ch isCh (by decide), List.append_assoc, List.append_assoc]
      rfl

def flagText (flag : Scanner) : GoString :=
  ascii "-" ++ flag.since (flag.skipWhile fun r => !isSpaceRune r)

def knownFlags : List GoString :=
  [ascii "--strict", ascii "--keep-empty"]

theorem skipped_space {r : Nat} (isCh : s.ch = some r) (isSpace : isSpaceRune r = true) :
    Skipped s.text s.next.text := by
  obtain ⟨piece, isPiece, isText⟩ := next_piece isCh
  have notError : r ≠ runeError := by
    rintro rfl
    exact absurd isSpace (by decide)
  rw [isText, isPiece.encoded notError]
  exact .space (List.contains_iff_mem.mp isSpace) (.refl _)

theorem lexFlag_takes (library : Library) {start : GoString} (state : LexState)
    (isStart : start = ascii "-" ++ state.scanner.text) (result : Option Token × LexState)
    (lexed : lexFlag state = some result) :
    if flagText state.scanner ∈ knownFlags then TakesToken library start result
    else result.1 = none ∧
      result.2.scanner = (state.scanner.skipWhile fun r => !isSpaceRune r).next := by
  have reads := reads_skipWhile_any (fun r => !isSpaceRune r) state.scanner
  have stops : ∀ r, (state.scanner.skipWhile fun r => !isSpaceRune r).ch = some r →
      isSpaceRune r = true := by
    intro r isCh
    simpa using skipWhile_stops _ state.scanner isCh
  have isText := text_eq_since reads.text_suffix
  unfold lexFlag at lexed
  unfold flagText
  dsimp only at lexed
  generalize state.scanner.skipWhile (fun r => !isSpaceRune r) = stop at stops isText lexed ⊢
  cases isCh : stop.ch with
  | none =>
      rw [if_pos isCh] at lexed
      cases lexed
  | some r =>
      have inside : stop.ch ≠ none := by
        rw [isCh]
        exact Option.some_ne_none r
      have behind := skipped_space isCh (stops r isCh)
      have isFlag : start = (ascii "-" ++ state.scanner.since stop) ++ stop.text := by
        rw [isStart, isText, List.append_assoc]
      rw [if_neg inside] at lexed
      generalize ascii "-" ++ state.scanner.since stop = flag at lexed isFlag ⊢
      by_cases isStrict : flag = ascii "--strict"
      · subst isStrict
        rw [if_pos rfl] at lexed
        rw [if_pos (by decide)]
        cases lexed
        exact ⟨_, _, _, rfl, isFlag, spells_keyword _ _ _ _ (Or.inl rfl), behind⟩
      · rw [if_neg isStrict] at lexed
        by_cases keepsEmpty : flag = ascii "--keep-empty"
        · subst keepsEmpty
          rw [if_pos rfl] at lexed
          rw [if_pos (by decide)]
          cases lexed
          exact ⟨_, _, _, rfl, isFlag, spells_keyword _ _ _ _ (Or.inl rfl), behind⟩
        · rw [if_neg keepsEmpty] at lexed
          have unknown : flag ∉ knownFlags := by
            intro member
            rcases List.mem_cons.mp member with isFirst | others
            · exact isStrict isFirst
            · exact keepsEmpty (List.mem_singleton.mp others)
          rw [if_neg unknown]
          cases lexed
          exact ⟨rfl, rfl⟩

/-! ### A call -/

theorem lexWord_isSome (state : LexState) (tokenText : GoString) :
    (lexWord state tokenText).1 ≠ none := by
  have keyword : ∀ (state : LexState) (tokenNext : GoString),
      (lexKeyword state tokenText tokenNext).1 ≠ none := by
    intro state tokenNext
    unfold lexKeyword
    split
    · exact Option.some_ne_none _
    · split <;> exact Option.some_ne_none _
  have short : ∀ (state : LexState) (tokenNext : GoString),
      (lexShort state tokenText tokenNext).1 ≠ none := by
    intro state tokenNext
    unfold lexShort
    split
    · exact keyword _ _
    · dsimp only
      split
      · exact Option.some_ne_none _
      · exact keyword _ _
  rw [lexWord_eq]
  split
  · exact short _ _
  · dsimp only
    split
    · exact Option.some_ne_none _
    · exact short _ _

theorem lexNumber_isSome (state : LexState) (tokenText : GoString) :
    (lexNumber library state tokenText).1 ≠ none := by
  unfold lexNumber
  split <;> exact Option.some_ne_none _

theorem lexDash_isSome (state : LexState) (tokenText : GoString) :
    (lexDash library state tokenText).1 ≠ none := by
  unfold lexDash
  split
  · exact Option.some_ne_none _
  · exact lexWord_isSome _ _

theorem TokenFound.text {found : Scanned × Scanner × Scanner}
    (isFound : TokenFound library s found) :
    found.2.1.text = found.2.1.since found.2.2 ++ found.2.2.text := by
  have token := isFound.tokenAt
  apply text_eq_since
  generalize found.1 = scanned at token
  generalize found.2.2 = stop at token ⊢
  cases token with
  | eof => exact List.suffix_refl _
  | rune => exact text_next_suffix _
  | literal _ _ reads => exact reads.text_suffix.trans (text_next_suffix _)

theorem TokenFound.text_rune {found : Scanned × Scanner × Scanner} {r : Nat}
    (isFound : TokenFound library s found) (isRune : found.1 = .rune r) (isAscii : r < 0x80) :
    found.2.1.text = UInt8.ofNat r :: found.2.2.text := by
  have token := isFound.tokenAt
  rw [isRune] at token
  generalize found.2.2 = stop at token ⊢
  cases token with
  | rune isCh => exact text_of_ch isCh isAscii
  | literal _ isLiteral => exact isLiteral.elim

/-- What a call gives: the end of the input, an error, nothing for a flag that is not
known, or a token. -/
inductive CallResult (library : Library) (state : LexState)
    (found : Scanned × Scanner × Scanner) (result : Option Token × LexState) : Prop where
  | eof (atEnd : found.1 = .eof) (isNone : result.1 = none)
  | complains (complains : Complains state.scanner.errors result)
  | unknown (isDash : found.1 = .rune 0x2D) (isFlag : found.2.2.ch = some 0x2D)
      (unknown : flagText found.2.2 ∉ knownFlags) (isNone : result.1 = none)
      (moved : result.2.scanner = (found.2.2.skipWhile fun r => !isSpaceRune r).next)
  | token (isSome : result.1 ≠ none)
      (takes : (∀ copy ∈ lookaheads library found, copy.reader = found.2.2.reader) →
        TakesToken library found.2.1.text result)

theorem TakesToken.isSome {text : GoString} {result : Option Token × LexState}
    (takes : TakesToken library text result) : result.1 ≠ none := by
  obtain ⟨token, _, _, isToken, _⟩ := takes
  rw [isToken]
  exact Option.some_ne_none token

theorem lexFound_result (state : LexState) (found : Scanned × Scanner × Scanner)
    (isFound : TokenFound library state.scanner found) (result : Option Token × LexState)
    (lexed : lexFound library state found = some result) :
    CallResult library state found result := by
  have isStart := isFound.text
  have isRune := fun r => isFound.text_rune (r := r)
  have grown : state.scanner.errors <+: found.2.2.errors :=
    (isFound.reaches.advances.trans isFound.stop_advances.1).errors
  have either : ∀ own : Option Token × LexState, some own = some result →
      TakesToken library found.2.1.text own ∨ Complains state.scanner.errors own →
      CallResult library state found result := by
    intro own same cases
    cases same
    rcases cases with takes | complains
    · exact .token takes.isSome fun _ => takes
    · exact .complains complains
  obtain ⟨scanned, start, stop⟩ := found
  dsimp only at isStart isRune grown either
  have word : ∀ within : (∀ copy ∈ wordLookaheads stop (start.since stop),
        copy.reader = stop.reader),
      TakesToken library start.text (lexWord (state.moveTo stop) (start.since stop)) :=
    lexWord_takes library (state.moveTo stop) (start.since stop) isStart
  unfold lexFound at lexed
  dsimp only at lexed
  cases scanned with
  | eof =>
      cases lexed
      exact .eof rfl rfl
  | int =>
      cases lexed
      exact .token (lexNumber_isSome _ _) fun within =>
        lexNumber_takes (state.moveTo stop) _ isStart (within _ List.mem_cons_self)
  | float =>
      cases lexed
      exact .token (lexNumber_isSome _ _) fun within =>
        lexNumber_takes (state.moveTo stop) _ isStart (within _ List.mem_cons_self)
  | string => exact either _ lexed (lexString_takes library (state.moveTo stop) _ isStart grown)
  | rawString => exact either _ lexed (lexString_takes library (state.moveTo stop) _ isStart grown)
  | ident =>
      cases lexed
      exact .token (lexWord_isSome _ _) word
  | char =>
      cases lexed
      exact .token (lexWord_isSome _ _) word
  | rune r =>
      dsimp only at lexed
      by_cases isDash : r = 0x2D
      · subst isDash
        have dashed := isRune 0x2D rfl (by decide)
        rw [if_pos rfl] at lexed
        by_cases isFlag : stop.ch = some 0x2D
        · rw [if_pos isFlag] at lexed
          have taken := lexFlag_takes library (state.moveTo stop) dashed result lexed
          split at taken
          · exact .token taken.isSome fun _ => taken
          · rename_i unknown
            exact .unknown rfl isFlag unknown taken.1 taken.2
        · rw [if_neg isFlag] at lexed
          cases lexed
          refine .token (lexDash_isSome _ _) fun within => ?_
          unfold lookaheads at within
          dsimp only at within
          rw [if_pos rfl, if_neg isFlag] at within
          exact lexDash_takes (state.moveTo stop) _ isStart within
      · rw [if_neg isDash] at lexed
        by_cases isBracket : r = 0x5B
        · subst isBracket
          rw [if_pos rfl] at lexed
          exact either _ lexed (lexRange_takes library (state.moveTo stop)
            (isRune 0x5B rfl (by decide)) grown)
        · rw [if_neg isBracket] at lexed
          cases lexed
          refine .token (lexWord_isSome _ _) fun within => word ?_
          unfold lookaheads at within
          dsimp only at within
          rw [if_neg isDash, if_neg isBracket] at within
          exact within

/-! ### The end of the input -/

/-- Behind white space and comments, there is nothing left. -/
def AtEnd (library : Library) (s : Scanner) : Prop :=
  (tokenAt library s).2.1.ch = none

/-- If the call comes to a flag, it is one of the known ones, or there is no white
space behind it, or it has characters that are complained about. -/
def FlagKnown (library : Library) (s : Scanner) : Prop :=
  ∀ flag, flagAt library s = some flag →
    flagText flag ∈ knownFlags ∨ ¬ Ahead (fun r => isSpaceRune r = true) flag ∨
      (flag.skipWhile fun r => !isSpaceRune r).next.errors ≠ s.errors

theorem TokenFound.ch_none_iff {found : Scanned × Scanner × Scanner}
    (isFound : TokenFound library s found) : found.2.1.ch = none ↔ found.1 = .eof := by
  have token := isFound.tokenAt
  generalize found.1 = scanned at token ⊢
  generalize found.2.2 = stop at token
  cases token with
  | eof atEnd => exact ⟨fun _ => rfl, fun _ => atEnd⟩
  | rune isCh =>
      rw [isCh]
      exact ⟨nofun, nofun⟩
  | literal isCh isLiteral =>
      rw [isCh]
      refine ⟨nofun, fun isEof => ?_⟩
      rw [isEof] at isLiteral
      exact isLiteral.elim

theorem flagAt_eq {found : Scanned × Scanner × Scanner} (isFound : tokenAt library s = found)
    (isDash : found.1 = .rune 0x2D) (isFlag : found.2.2.ch = some 0x2D) :
    flagAt library s = some found.2.2 := by
  unfold flagAt
  rw [isFound]
  dsimp only
  rw [if_pos ⟨isDash, isFlag⟩]

theorem flagAt_some {flag : Scanner} (isFlag : flagAt library s = some flag) :
    (tokenAt library s).1 = .rune 0x2D ∧ (tokenAt library s).2.2.ch = some 0x2D ∧
      flag = (tokenAt library s).2.2 := by
  unfold flagAt at isFlag
  dsimp only at isFlag
  split at isFlag
  · rename_i isDash
    cases isFlag
    exact ⟨isDash.1, isDash.2, rfl⟩
  · cases isFlag

theorem not_unknown (state next : LexState) (known : FlagKnown library state.scanner)
    (token : Option Token) (lexed : lex library state = some (token, next))
    (noErrors : next.scanner.errors = state.scanner.errors)
    (isDash : (tokenAt library state.scanner).1 = .rune 0x2D)
    (isFlag : (tokenAt library state.scanner).2.2.ch = some 0x2D)
    (unknown : flagText (tokenAt library state.scanner).2.2 ∉ knownFlags)
    (moved : next.scanner =
      ((tokenAt library state.scanner).2.2.skipWhile fun r => !isSpaceRune r).next) : False := by
  have isFlagAt := flagAt_eq rfl isDash isFlag
  rcases known _ isFlagAt with isKnown | silent | noted
  · exact unknown isKnown
  · rw [(lex_eq_none_iff state).mpr ⟨_, isFlagAt, silent⟩] at lexed
    cases lexed
  · rw [← moved] at noted
    exact noted noErrors

/-- A call gives the end without noting an error only at the end, exactly if it does
not come to a flag that is not known. -/
theorem lex_end_iff (state : LexState) :
    (∀ next, lex library state = some (none, next) →
        next.scanner.errors = state.scanner.errors → AtEnd library state.scanner) ↔
      FlagKnown library state.scanner := by
  have isFound := tokenAt_found library state.scanner
  constructor
  · intro onlyAtEnd flag isFlagAt
    obtain ⟨isDash, isFlag, rfl⟩ := flagAt_some isFlagAt
    by_contra unknown
    push Not at unknown
    obtain ⟨notKnown, ahead, noErrors⟩ := unknown
    have returns : lex library state ≠ none := by
      rw [Ne, lex_eq_none_iff]
      rintro ⟨flag, isOther, absent⟩
      rw [isFlagAt] at isOther
      cases isOther
      exact absent ahead
    obtain ⟨⟨token, next⟩, lexed⟩ := Option.ne_none_iff_exists'.mp returns
    have flagLexed : lexFlag (state.moveTo (tokenAt library state.scanner).2.2) =
        some (token, next) := by
      rw [lex_eq, lexFound, isDash] at lexed
      dsimp only at lexed
      rw [if_pos rfl, if_pos isFlag] at lexed
      exact lexed
    have taken := lexFlag_takes library (state.moveTo (tokenAt library state.scanner).2.2) rfl
      (token, next) flagLexed
    rw [if_neg (by exact notKnown)] at taken
    obtain ⟨isNone, moved⟩ := taken
    dsimp only at isNone moved
    subst isNone
    have atEnd := onlyAtEnd next lexed (by rw [moved]; exact noErrors)
    rw [AtEnd, isFound.ch_none_iff, isDash] at atEnd
    cases atEnd
  · intro known next lexed noErrors
    have found := lexFound_result state _ isFound (none, next) ((lex_eq state).symm.trans lexed)
    cases found with
    | eof atEnd _ => exact isFound.ch_none_iff.mpr atEnd
    | complains complains => exact absurd noErrors complains.2
    | unknown isDash isFlag unknown _ moved =>
        exact (not_unknown state next known none lexed noErrors isDash isFlag unknown moved).elim
    | token isSome _ => exact absurd rfl isSome

/-! ### A run -/

/-- A call that comes to the end has passed over the whole text, and a call that gives a
token takes its piece from the text. -/
theorem lex_covers (state next : LexState) (token : Option Token) (fed : Fed state.scanner)
    (known : FlagKnown library state.scanner) (within : LooksWithin library state.scanner)
    (lexed : lex library state = some (token, next)) (noErrors : next.scanner.errors = []) :
    match token with
    | none => Skipped state.scanner.text []
    | some token => ∃ piece after, Skipped state.scanner.text (piece ++ after) ∧
        Spells library token piece ∧ Skipped after next.scanner.text := by
  have isFound := tokenAt_found library state.scanner
  have found := lexFound_result state _ isFound (token, next) ((lex_eq state).symm.trans lexed)
  have advances := lexFound_advances state next token _ ((lex_eq state).symm.trans lexed)
  have stateErrors := errors_nil_of_grown (lex_advances state next token lexed).errors noErrors
  have startErrors := errors_nil_of_grown
    (isFound.stop_advances.1.trans advances).errors noErrors
  have reached := reaches_skipped isFound.reaches fed startErrors
  cases found with
  | eof atEnd isNone =>
      dsimp only at isNone
      subst isNone
      have startFed := isFound.reaches.advances.fed fed
      rw [startFed.text_of_ch_none (isFound.ch_none_iff.mpr atEnd)] at reached
      exact reached
  | complains complains =>
      rw [stateErrors] at complains
      exact absurd noErrors complains.2
  | unknown isDash isFlag unknown _ moved =>
      exact (not_unknown state next known token lexed (noErrors.trans stateErrors.symm) isDash
        isFlag
        unknown moved).elim
  | token _ takes =>
      obtain ⟨own, piece, after, isToken, isText, spells, behind⟩ := takes within
      dsimp only at isToken
      subst isToken
      rw [isText] at reached
      exact ⟨piece, after, reached, spells, behind⟩

variable (engine : RegexpEngine) (library)

theorem lexed_covered {start before : (exprLexer engine library).State} {final : LexState}
    {tokens : List Token}
    (lexed : Goyacc.Lexed (exprLexer engine library) start tokens before)
    (ended : lex library before = some (none, final)) (noErrors : final.scanner.errors = [])
    (fed : Fed start.scanner)
    (faithful : ∀ front state, Goyacc.Lexed (exprLexer engine library) start front state →
      FlagKnown library state.scanner ∧ LooksWithin library state.scanner) :
    start.scanner.errors = [] ∧ Covered library start.scanner.text tokens := by
  induction lexed with
  | nil start =>
      obtain ⟨known, within⟩ := faithful [] start (.nil start)
      have grown := (lex_advances start final none ended).errors
      exact ⟨errors_nil_of_grown grown noErrors,
        .done (lex_covers start final none fed known within ended noErrors)⟩
  | cons start next before token tokens first rest ih =>
      obtain ⟨known, within⟩ := faithful [] start (.nil start)
      have advances := lex_advances start next (some token) first
      obtain ⟨nextErrors, covered⟩ := ih ended (advances.fed fed) fun front state reached =>
        faithful (token :: front) state (.cons _ _ _ _ _ first reached)
      obtain ⟨piece, after, skipped, spells, behind⟩ :=
        lex_covers start next (some token) fed known within first nextErrors
      exact ⟨errors_nil_of_grown advances.errors nextErrors,
        .token skipped spells (behind.covered covered)⟩

/-! ### Short inputs -/

theorem shortLookaheads_suffix (s : Scanner) (tokenText : GoString) :
    ∀ copy ∈ shortLookaheads s tokenText, copy.reader <:+ s.reader := by
  intro copy member
  obtain ⟨_, -, rfl⟩ := List.mem_map.mp member
  exact (reads_isFunc s).advances.reader

theorem wordLookaheads_suffix (s : Scanner) (tokenText : GoString) :
    ∀ copy ∈ wordLookaheads s tokenText, copy.reader <:+ s.reader := by
  intro copy member
  unfold wordLookaheads at member
  split at member
  · exact shortLookaheads_suffix s tokenText copy member
  · have looked := ((advances_next s).trans (reads_isFunc s.next).advances).reader
    dsimp only at member
    generalize isFunc s.next = found at member looked
    split at member
    · rw [List.mem_singleton.mp member]
      exact looked
    · rcases List.mem_cons.mp member with rfl | others
      · exact looked
      · exact (shortLookaheads_suffix (s.after found.2) tokenText copy others).trans looked

theorem lookaheads_suffix (found : Scanned × Scanner × Scanner) :
    ∀ copy ∈ lookaheads library found, copy.reader <:+ found.2.2.reader := by
  have duration := (reads_skipWhile_any (isDurationPart library) found.2.2).reader_suffix
  have word := wordLookaheads_suffix found.2.2 (found.2.1.since found.2.2)
  have scanned := (tryScanDuration_advances library (found.2.1.since found.2.2) found.2.2).reader
  intro copy member
  unfold lookaheads at member
  dsimp only at member
  split at member
  · exact absurd member List.not_mem_nil
  · exact absurd member List.not_mem_nil
  · exact absurd member List.not_mem_nil
  · rw [List.mem_singleton.mp member]
    exact duration
  · rw [List.mem_singleton.mp member]
    exact duration
  · exact word copy member
  · exact word copy member
  · split at member
    · split at member
      · exact absurd member List.not_mem_nil
      · split at member
        · rw [List.mem_singleton.mp member]
          exact duration
        · rename_i s isScanned
          rw [isScanned] at scanned
          rcases List.mem_cons.mp member with rfl | others
          · exact duration
          · exact (wordLookaheads_suffix s _ copy others).trans scanned
    · split at member
      · exact absurd member List.not_mem_nil
      · exact word copy member

theorem looksWithin_of_reader_nil (s : Scanner) (noReader : s.reader = []) :
    LooksWithin library s := by
  have isFound := tokenAt_found library s
  have suffix := (isFound.reaches.advances.trans isFound.stop_advances.1).reader
  rw [noReader] at suffix
  intro copy member
  have copySuffix := lookaheads_suffix library (tokenAt library s) copy member
  rw [List.suffix_nil.mp suffix] at copySuffix ⊢
  exact List.suffix_nil.mp copySuffix

theorem reader_ofText (capacity : Nat) (input : GoString) (short : input.length ≤ capacity) :
    (Scanner.ofText capacity input).reader = [] := by
  have first : (Scanner.mk capacity [] input [] 1).fill.checkRune.reader = [] := by
    rw [reader_checkRune]
    exact List.drop_eq_nil_of_le short
  unfold Scanner.ofText
  dsimp only
  split
  · have suffix := reader_next_suffix (Scanner.mk capacity [] input [] 1).fill.checkRune
    rw [first] at suffix
    exact List.suffix_nil.mp suffix
  · exact first

theorem lexed_rest {start state : (exprLexer engine library).State} {tokens : List Token}
    (lexed : Goyacc.Lexed (exprLexer engine library) start tokens state) :
    state.scanner.reader <:+ start.scanner.reader ∧
      state.scanner.text.Sublist start.scanner.text := by
  induction lexed with
  | nil => exact ⟨List.suffix_refl _, List.Sublist.refl _⟩
  | cons start next _ token _ first _ ih =>
      have advances := lex_advances start next (some token) first
      exact ⟨ih.1.trans advances.reader, ih.2.trans advances.text⟩

theorem looksWithin_of_short (capacity : Nat) (parser : Parser) (input : GoString)
    (short : input.length ≤ capacity) {scanner : Scanner}
    (suffix : scanner.reader <:+ (parser.start capacity input).scanner.reader) :
    LooksWithin library scanner := by
  rw [show (parser.start capacity input).scanner.reader = [] from
    reader_ofText capacity input short] at suffix
  exact looksWithin_of_reader_nil library _ (List.suffix_nil.mp suffix)

/-! ### The whole input -/

def byteOrderMark : GoString :=
  encodeRune 0xFEFF

theorem text_ofText_cases (capacity : Nat) (input : GoString) :
    input = (Scanner.ofText capacity input).text ∨
      input = byteOrderMark ++ (Scanner.ofText capacity input).text := by
  have isText : (Scanner.mk capacity [] input [] 1).fill.checkRune.text = input := by
    rw [text_checkRune, text_fill]
    rfl
  unfold Scanner.ofText
  dsimp only
  split
  · rename_i isMark
    obtain ⟨piece, isPiece, isFront⟩ := next_piece isMark
    rw [isText, isPiece.encoded (by decide)] at isFront
    exact Or.inr isFront
  · exact Or.inl isText.symm

/-- A call gives the end without noting an error only at the end of the input, exactly
if it does not come to an unknown flag.  If no call does, and no copy of the scanner
refills its buffer, then the tokens of an accepted query cover the input, up to white
space, comments and a byte order mark, and they derive the expression.  No copy
refills its buffer if the buffer holds the input. -/
theorem parsing_covers (capacity : Nat) (positive : 0 < capacity) (parser : Parser)
    (input : GoString) :
    (∀ state : LexState,
      (∀ next, lex library state = some (none, next) →
          next.scanner.errors = state.scanner.errors → AtEnd library state.scanner) ↔
        FlagKnown library state.scanner) ∧
    ((∀ tokens state, Goyacc.Lexed (exprLexer engine library) (parser.start capacity input)
        tokens state → FlagKnown library state.scanner ∧ LooksWithin library state.scanner) →
      ∀ rounds e numbers,
        parseExprWith engine library capacity rounds parser input = some (.expr e numbers) →
        ∃ text tokens, (input = text ∨ input = byteOrderMark ++ text) ∧
          Covered library text tokens ∧
          Goyacc.Derives (grammar engine library) .root tokens e) ∧
    (input.length ≤ capacity → ∀ tokens state,
      Goyacc.Lexed (exprLexer engine library) (parser.start capacity input) tokens state →
        LooksWithin library state.scanner) := by
  refine ⟨lex_end_iff, fun faithful rounds e numbers parsed => ?_,
    fun short _ _ lexed => looksWithin_of_short library capacity parser input short
      (lexed_rest library engine lexed).1⟩
  obtain ⟨tokens, before, final, lexed, ended, noErrors, derived⟩ :=
    parsed_expr engine library capacity rounds parser input e numbers parsed
  have covered := (lexed_covered library engine lexed ended noErrors (fed_ofText positive input)
    faithful).2
  exact ⟨_, tokens, text_ofText_cases capacity input, covered, derived⟩

theorem flagKnown_of_no_dash (capacity : Nat) (parser : Parser) (input : GoString)
    (noDash : byte '-' ∉ input) (tokens : List Token) (state : LexState)
    (lexed : Goyacc.Lexed (exprLexer engine library) (parser.start capacity input) tokens
      state) : FlagKnown library state.scanner := by
  intro flag isFlag
  have inText := dash_mem_of_flagAt isFlag
  exact absurd ((text_ofText capacity input).subset
    ((lexed_rest library engine lexed).2.subset inText)) noDash

def Parsed.toExpr : Parsed → Option (Expr × Numbers)
  | .expr e numbers => some (e, numbers)
  | _ => none

theorem parsing_covers_selector :
    ∃ e numbers, parseExprWith .literals .asciiOnly 1024 20 .new (ascii "\x7ba=\"b\"\x7d # c") =
        some (.expr e numbers) ∧
      ∃ text tokens, (ascii "\x7ba=\"b\"\x7d # c" = text ∨
          ascii "\x7ba=\"b\"\x7d # c" = byteOrderMark ++ text) ∧
        Covered .asciiOnly text tokens ∧
        Goyacc.Derives (grammar .literals .asciiOnly) .root tokens e := by
  have accepted : ((parseExprWith .literals .asciiOnly 1024 20 .new
      (ascii "\x7ba=\"b\"\x7d # c")).bind Parsed.toExpr).isSome = true := by decide +kernel
  obtain ⟨⟨e, numbers⟩, isExpr⟩ := Option.isSome_iff_exists.mp accepted
  obtain ⟨parsed, isParsed, isSome⟩ := Option.bind_eq_some_iff.mp isExpr
  cases parsed with
  | expr own others =>
      cases isSome
      have covers := parsing_covers .asciiOnly .literals 1024 (by decide) .new
        (ascii "\x7ba=\"b\"\x7d # c")
      exact ⟨e, numbers, isParsed, covers.2.1
        (fun tokens state lexed =>
          ⟨flagKnown_of_no_dash _ _ 1024 _ _ (by decide) tokens state lexed,
            covers.2.2 (by decide) tokens state lexed⟩) 20 e numbers isParsed⟩
  | errors errs => cases isSome
  | panicked failure => cases isSome

def Parsed.printed : Parsed → Option GoString
  | .expr e numbers => some (e.string .asciiOnly numbers)
  | _ => none

/-- A filter behind an unknown flag is dropped without an error, as the lexer gives the
end of the input there.  A filter behind the buffer is dropped when the function name
`count` makes the lexer look ahead for a parenthesis. -/
theorem filter_dropped :
    (((parseExprWith .literals .asciiOnly 1024 20 .new
        (ascii "\x7ba=\"b\"\x7d --x |= \"c\"")).bind Parsed.printed) =
      some (ascii "\x7ba=\"b\"\x7d")) ∧
    (((lex .asciiOnly (Parser.new.start 1024 (ascii "--x |= \"c\""))).map fun result =>
        (result.1, result.2.scanner.errors, result.2.scanner.text)) =
      some (none, [], ascii "|= \"c\"")) ∧
    (((parseExprWith .literals .asciiOnly 1024 20 .new
        (ascii "\x7bcount=\"b\"\x7d" ++ List.replicate 1013 (byte ' ') ++
          ascii "|= \"c\"")).bind Parsed.printed) =
      some (ascii "\x7bcount=\"b\"\x7d")) :=
  ⟨by decide +kernel, by decide +kernel, by decide +kernel⟩

example : afterComment (ascii "c */ |") = some (ascii " |") := by
  decide +kernel

end McoaGateway.Logql
