/-
What the values of tokens look like.

An identifier is not a keyword, a range stands in brackets and has no closing one
inside, and a duration is one that `parseDuration` has read.  The values of the
other tokens are either not used or arbitrary.
-/

import McoaGateway.Logql.Coverage

namespace McoaGateway.Logql

open GoString
open Scanner

def IsRange (text : GoString) : Prop :=
  ∃ body, text = ascii "[" ++ body ++ ascii "]" ∧ byte ']' ∉ body

def TokenForm (library : Library) (token : Token) : Prop :=
  match token.kind with
  | .identifier => tokens.lookup token.lval.str = none
  | .range => IsRange token.lval.str
  | .duration => ∃ text, library.parseDuration text = some token.lval.duration
  | _ => True

variable {library : Library}

theorem tokenForm_of_keyword {key : GoString} {kind : Terminal} (lval : LexValue)
    (found : tokens.lookup key = some kind ∨ funcTokens.lookup key = some kind) :
    TokenForm library ⟨kind, lval⟩ := by
  obtain ⟨-, notText, -, notDuration⟩ := keyword_entry found
  unfold TokenForm
  cases kind <;> first
    | exact trivial
    | exact absurd (by decide) notText
    | exact absurd rfl notDuration

def AllFormed (library : Library) (result : Option Token × LexState) : Prop :=
  ∀ token, result.1 = some token → TokenForm library token

theorem allFormed_token (state : LexState) (kind : Terminal)
    (formed : TokenForm library ⟨kind, state.lval⟩) : AllFormed library (state.token kind) := by
  intro token isToken
  cases isToken
  exact formed

theorem allFormed_none (state : LexState) : AllFormed library (none, state) :=
  fun _ isToken => nomatch isToken

theorem lexKeyword_formed (state : LexState) (tokenText tokenNext : GoString) :
    AllFormed library (lexKeyword state tokenText tokenNext) := by
  unfold lexKeyword
  split
  · rename_i kind found
    exact allFormed_token _ kind (tokenForm_of_keyword _ (Or.inl found))
  · split
    · rename_i kind found
      exact allFormed_token _ kind (tokenForm_of_keyword _ (Or.inl found))
    · rename_i unknown
      exact allFormed_token _ .identifier unknown

theorem lexShort_formed (state : LexState) (tokenText tokenNext : GoString) :
    AllFormed library (lexShort state tokenText tokenNext) := by
  unfold lexShort
  split
  · exact lexKeyword_formed _ _ _
  · rename_i kind found
    dsimp only
    split
    · exact allFormed_token _ kind (tokenForm_of_keyword _ (Or.inr found))
    · exact lexKeyword_formed _ _ _

theorem lexWord_formed (state : LexState) (tokenText : GoString) :
    AllFormed library (lexWord state tokenText) := by
  rw [lexWord_eq]
  split
  · exact lexShort_formed _ _ _
  · rename_i kind found
    dsimp only
    split
    · exact allFormed_token _ kind (tokenForm_of_keyword _ (Or.inr found))
    · exact lexShort_formed _ _ _

theorem tryScanDuration_formed (library : Library) (number : GoString) (s : Scanner) (d : Int)
    (found : (tryScanDuration library number s).1 = some d) :
    ∃ text, library.parseDuration text = some d := by
  unfold tryScanDuration at found
  dsimp only at found
  split at found
  · cases found
  · split at found
    · cases found
    · rename_i own isDuration
      cases found
      exact ⟨_, isDuration⟩

theorem lexNumber_formed (state : LexState) (tokenText : GoString) :
    AllFormed library (lexNumber library state tokenText) := by
  have formed := tryScanDuration_formed library tokenText state.scanner
  unfold lexNumber
  split
  · rename_i d s scanned
    rw [scanned] at formed
    exact allFormed_token _ .duration (formed d rfl)
  · exact allFormed_token _ .number trivial

theorem lexDash_formed (state : LexState) (tokenText : GoString) :
    AllFormed library (lexDash library state tokenText) := by
  have formed := tryScanDuration_formed library tokenText state.scanner
  unfold lexDash
  split
  · rename_i d s scanned
    rw [scanned] at formed
    exact allFormed_token _ .duration (formed d rfl)
  · exact lexWord_formed _ _

theorem lexString_formed (state : LexState) (tokenText : GoString) :
    AllFormed library (lexString state tokenText) := by
  unfold lexString
  split
  · exact allFormed_none _
  · split
    · exact allFormed_none _
    · exact allFormed_token _ .string trivial

theorem lexRange_formed (state : LexState) : AllFormed library (lexRange state) := by
  have reads : Reads (fun r => (r != 0x5D) = true) state.scanner
      (state.scanner.skipWhile fun r => r != 0x5D) :=
    reads_skipWhile _ (fun _ skips => skips) state.scanner
  have noBracket : byte ']' ∉ state.scanner.since (state.scanner.skipWhile fun r => r != 0x5D) := by
    intro member
    refine reads.since_bytes (B := fun b => b ≠ byte ']') ?_ ?_ _ member rfl
    · intro r other isAscii same
      have value := congrArg UInt8.toNat same
      rw [UInt8.toNat_ofNat', Nat.mod_eq_of_lt (by omega)] at value
      rw [value] at other
      cases other
    · rintro r - - b high rfl
      exact absurd high (by decide)
  unfold lexRange
  dsimp only
  split
  · exact allFormed_none _
  · exact allFormed_token _ .range ⟨_, rfl, noBracket⟩

theorem lexFlag_formed (state : LexState) (result : Option Token × LexState)
    (lexed : lexFlag state = some result) : AllFormed library result := by
  unfold lexFlag at lexed
  dsimp only at lexed
  split at lexed
  · cases lexed
  · split at lexed
    · cases lexed
      exact allFormed_token _ .logFMTStrict trivial
    · split at lexed
      · cases lexed
        exact allFormed_token _ .logFMTKeepEmpty trivial
      · cases lexed
        exact allFormed_none _

theorem lex_formed (state next : LexState) (token : Token)
    (lexed : lex library state = some (some token, next)) : TokenForm library token := by
  have formed : ∀ result : Option Token × LexState, AllFormed library result →
      some result = some (some token, next) → TokenForm library token := by
    intro result all same
    cases same
    exact all token rfl
  rw [lex_eq, lexFound] at lexed
  split at lexed
  · cases lexed
  · exact formed _ (lexNumber_formed _ _) lexed
  · exact formed _ (lexNumber_formed _ _) lexed
  · exact formed _ (lexString_formed _ _) lexed
  · exact formed _ (lexString_formed _ _) lexed
  · exact formed _ (lexWord_formed _ _) lexed
  · exact formed _ (lexWord_formed _ _) lexed
  · split at lexed
    · split at lexed
      · exact lexFlag_formed _ _ lexed token rfl
      · exact formed _ (lexDash_formed _ _) lexed
    · split at lexed
      · exact formed _ (lexRange_formed _) lexed
      · exact formed _ (lexWord_formed _ _) lexed

theorem lexed_formed (engine : RegexpEngine) {start before : (exprLexer engine library).State}
    {tokens : List Token}
    (lexed : Goyacc.Lexed (exprLexer engine library) start tokens before) :
    ∀ token ∈ tokens, TokenForm library token := by
  induction lexed with
  | nil => exact List.forall_mem_nil _
  | cons start next _ token _ first _ ih =>
      exact List.forall_mem_cons.mpr ⟨lex_formed start next token first, ih⟩

end McoaGateway.Logql
