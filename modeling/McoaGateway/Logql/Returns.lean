/-
`ParseExpr` returns.

Every call of `Lex` returns, except at a flag without white space behind it, and
the tokens of an input come to an end.  The start symbol is alone on the stack
when the parser accepts, so a parser that returns gives a result.
-/

import Mathlib.Data.List.GetD
import McoaGateway.Goyacc.Stack
import McoaGateway.Logql.Lexing
import McoaGateway.Logql.Parser

namespace McoaGateway.Logql

open GoString
open Scanner

variable (engine : RegexpEngine) (library : Library)

/-! ### The stack at the end -/

/-- State 0 is below the stack.  State 1, in which the parser accepts, is the start
symbol, and state 2 is an expression; both stand on state 0. -/
def StartLink (below : Int) (entry : Goyacc.Entry (grammar engine library)) : Prop :=
  0 < entry.state ∧ entry.state < 358 ∧
    (entry.state = 1 → entry.symbol = .root ∧ below = 0) ∧ (entry.state = 2 → below = 0)

theorem getD_mem (table : List Int) (index : Nat) : table.getD index 0 ∈ 0 :: table := by
  by_cases inside : index < table.length
  · rw [List.getD_eq_getElem _ _ inside]
    exact List.mem_cons_of_mem _ (List.getElem_mem inside)
  · rw [List.getD_eq_default _ _ (Nat.le_of_not_lt inside)]
    exact List.mem_cons_self

theorem index_of_getD (table : List Int) (place : Nat) (entry : Int) (notDefault : entry ≠ 0)
    (front : entry ∉ table.take place) (back : entry ∉ table.drop (place + 1)) (index : Nat)
    (isEntry : table.getD index 0 = entry) : index = place := by
  have inside : index < table.length := by
    by_contra outside
    rw [List.getD_eq_default _ _ (Nat.le_of_not_lt outside)] at isEntry
    exact notDefault isEntry.symm
  rw [List.getD_eq_getElem _ _ inside] at isEntry
  rcases Nat.lt_trichotomy index place with before | same | behind
  · exact absurd (isEntry ▸ List.mem_take_iff_getElem.mpr ⟨index, by omega, rfl⟩) front
  · exact same
  · refine absurd (isEntry ▸ List.mem_drop_iff_getElem.mpr ⟨index - (place + 1), by omega, ?_⟩) back
    congr 1
    omega

structure TablesChecked : Prop where
  chkLength : exprChk.length = 358
  chkFirst : exprChk.getD 0 0 = -1000 ∧ exprChk.getD 1 0 = -1 ∧ exprChk.getD 2 0 = -4
  act : ∀ state ∈ (0 : Int) :: exprAct, 0 ≤ state ∧ state < 358
  r1 : ∀ symbol ∈ (0 : Int) :: exprR1, 0 ≤ symbol ∧ symbol ≤ 26
  r1First : (1 : Int) ∉ exprR1.drop 2
  gotoDefault : ∀ n < 27,
    exprAct.getD (exprPgo.getD n 0).toNat 0 ≠ 0 ∧
    (exprAct.getD (exprPgo.getD n 0).toNat 0 = 1 → n = 1) ∧
    exprAct.getD (exprPgo.getD n 0).toNat 0 ≠ 2
  gotoExpr : Goyacc.tableEntry exprTables.pgo 4 = 51
  exprFirst : (2 : Int) ∉ ((exprAct.drop 52).take 358).drop 1
  defaultFirst : (1 : Int) ∉ exprDef.drop 3

theorem tablesChecked : TablesChecked := by
  constructor <;> decide +kernel

/-- A state that is checked for a positive number is none of the first three. -/
theorem state_of_checked (target code : Int) (positive : 0 < code)
    (checked : Goyacc.tableEntry exprTables.chk target = code) :
    2 < target ∧ target < 358 := by
  have isEntry : exprChk.getD target.toNat 0 = code := checked
  have inside : target.toNat < exprChk.length := by
    by_contra outside
    have isDefault := List.getD_eq_default exprChk 0 (Nat.le_of_not_lt outside)
    omega
  rw [(tablesChecked).chkLength] at inside
  obtain ⟨first, second, third⟩ := (tablesChecked).chkFirst
  have notZero : target.toNat ≠ 0 := by
    intro same
    rw [same] at isEntry
    omega
  have notOne : target.toNat ≠ 1 := by
    intro same
    rw [same] at isEntry
    omega
  have notTwo : target.toNat ≠ 2 := by
    intro same
    rw [same] at isEntry
    omega
  omega

theorem act_range (index : Int) :
    0 ≤ Goyacc.tableEntry exprTables.act index ∧ Goyacc.tableEntry exprTables.act index < 358 :=
  (tablesChecked).act _ (getD_mem exprAct index.toNat)

/-- The state behind a nonterminal is the default one, or one that is checked. -/
theorem gotoState_cases (state symbol : Int) :
    Goyacc.gotoState exprTables state symbol =
        Goyacc.tableEntry exprTables.act (Goyacc.tableEntry exprTables.pgo symbol) ∨
      (Goyacc.gotoState exprTables state symbol = Goyacc.tableEntry exprTables.act
          (Goyacc.tableEntry exprTables.pgo symbol + state + 1) ∧
        Goyacc.tableEntry exprTables.chk (Goyacc.gotoState exprTables state symbol) = -symbol) := by
  unfold Goyacc.gotoState
  dsimp only
  split
  · exact Or.inl rfl
  · split
    · rename_i checked
      exact Or.inr ⟨rfl, checked⟩
    · exact Or.inl rfl

theorem gotoState_range (state symbol : Int) :
    0 ≤ Goyacc.gotoState exprTables state symbol ∧
      Goyacc.gotoState exprTables state symbol < 358 := by
  rcases gotoState_cases state symbol with isEntry | ⟨isEntry, -⟩
  · rw [isEntry]
    exact act_range _
  · rw [isEntry]
    exact act_range _

theorem r1_range (number : Int) :
    0 ≤ Goyacc.tableEntry exprTables.r1 number ∧ Goyacc.tableEntry exprTables.r1 number ≤ 26 :=
  (tablesChecked).r1 _ (getD_mem exprR1 number.toNat)

theorem r1_first (number : Int) (isRoot : Goyacc.tableEntry exprTables.r1 number = 1) :
    number = 1 := by
  have toNat := index_of_getD exprR1 1 1 (by decide) (by decide) (tablesChecked).r1First
    number.toNat isRoot
  omega

theorem goto_root (state symbol : Int) (nonneg : 0 ≤ symbol) (small : symbol ≤ 26)
    (isOne : Goyacc.gotoState exprTables state symbol = 1) : symbol = 1 := by
  rcases gotoState_cases state symbol with byDefault | ⟨-, checked⟩
  · rw [byDefault] at isOne
    have one := ((tablesChecked).gotoDefault symbol.toNat (by omega)).2.1 isOne
    omega
  · rw [isOne] at checked
    have value : (-1 : Int) = -symbol := (tablesChecked).chkFirst.2.1.symm.trans checked
    omega

theorem goto_start (state symbol : Int) (nonneg : 0 ≤ symbol) (small : symbol ≤ 26)
    (inside : 0 ≤ state ∧ state < 358) :
    Goyacc.gotoState exprTables state symbol ≠ 0 ∧
      (Goyacc.gotoState exprTables state symbol = 1 → symbol = 1) ∧
      (Goyacc.gotoState exprTables state symbol = 2 → state = 0) := by
  have root := goto_root state symbol nonneg small
  rcases gotoState_cases state symbol with byDefault | ⟨found, checked⟩
  · obtain ⟨notZero, -, notTwo⟩ := (tablesChecked).gotoDefault symbol.toNat (by omega)
    rw [byDefault] at root ⊢
    exact ⟨notZero, root, fun two => absurd two notTwo⟩
  · have checks := (tablesChecked).chkFirst
    refine ⟨fun isZero => ?_, root, fun isTwo => ?_⟩
    · rw [isZero] at checked
      have value : (-1000 : Int) = -symbol := checks.1.symm.trans checked
      omega
    · rw [isTwo] at checked found
      have value : (-4 : Int) = -symbol := checks.2.2.symm.trans checked
      have isExpr : symbol = 4 := by omega
      rw [isExpr, (tablesChecked).gotoExpr] at found
      have entry : ((exprAct.drop 52).take 358).getD state.toNat 0 = 2 := by
        rw [List.getD_eq_getElem?_getD, List.getElem?_take_of_lt (by omega), List.getElem?_drop,
          ← List.getD_eq_getElem?_getD, found]
        change exprAct.getD _ 0 = exprAct.getD _ 0
        congr 1
        omega
      have zero := index_of_getD _ 0 2 (by decide) (by decide) (tablesChecked).exprFirst
        state.toNat entry
      omega

theorem stateOf_range {stack : List (Goyacc.Entry (grammar engine library))}
    (linked : Goyacc.Linked (StartLink engine library) stack) :
    0 ≤ Goyacc.stateOf stack ∧ Goyacc.stateOf stack < 358 ∧
      (Goyacc.stateOf stack = 0 → stack = []) := by
  cases stack with
  | nil => exact ⟨Int.le_refl 0, by rw [Goyacc.stateOf]; decide, fun _ => rfl⟩
  | cons entry below =>
      obtain ⟨⟨positive, small, -⟩, -⟩ := linked
      exact ⟨Int.le_of_lt positive, small, fun zero => absurd positive (by
        rw [show entry.state = 0 from zero]; decide)⟩

/-- The only exception is that the parser accepts in state 1, at the end of the
input. -/
theorem exception_cases (state token : Int) :
    Goyacc.exception (Goyacc.exceptionRows exprTables.exca state) token = 0 ∨
      Goyacc.exception (Goyacc.exceptionRows exprTables.exca state) token = -1 ∧
        state = 1 ∧ token = Goyacc.endCode := by
  have isExca : exprTables.exca = [-1, 1, 1, -1, -2, 0] := rfl
  rw [isExca, Goyacc.exceptionRows]
  split
  · rename_i isRow
    rw [Goyacc.exception]
    split
    · rename_i isToken
      rcases isToken with impossible | isEnd
      · exact absurd impossible (by decide)
      · exact Or.inr ⟨rfl, isRow.2.symm, isEnd.symm⟩
    · exact Or.inl rfl
  · have noRows : Goyacc.exceptionRows [1, -1, -2, 0] state = [] := by
      simp [Goyacc.exceptionRows]
    rw [noRows]
    exact Or.inl rfl

theorem state_of_first {stack : List (Goyacc.Entry (grammar engine library))} {number : Int}
    (linked : Goyacc.Linked (StartLink engine library) stack)
    (chosen : Goyacc.Chosen exprTables stack number) (isFirst : number = 1) :
    Goyacc.stateOf stack = 2 := by
  have nonneg := (stateOf_range engine library linked).1
  rcases chosen with byDefault | ⟨token, exceptional⟩
  · rw [isFirst] at byDefault
    have two := index_of_getD exprDef 2 1 (by decide) (by decide) (tablesChecked).defaultFirst
      (Goyacc.stateOf stack).toNat byDefault.symm
    omega
  · rw [isFirst] at exceptional
    rcases exception_cases (Goyacc.stateOf stack) token with none | ⟨accepts, -⟩
    · rw [none] at exceptional
      cases exceptional
    · rw [accepts] at exceptional
      cases exceptional

theorem startLinks : Goyacc.Links exprTables (StartLink engine library) where
  shift state token target checked := by
    have positive : 0 < token.kind.internalNumber := by
      rw [Terminal.internalNumber]
      omega
    obtain ⟨low, high⟩ := state_of_checked target _ positive checked
    refine ⟨?_, high, fun one => ?_, fun two => ?_⟩
    · exact Int.lt_trans (by decide) low
    · exact absurd one (by dsimp only; omega)
    · exact absurd two (by dsimp only; omega)
  error state target checked := by
    obtain ⟨low, high⟩ := state_of_checked target _ (by decide) checked
    refine ⟨?_, high, fun one => ?_, fun two => ?_⟩
    · exact Int.lt_trans (by decide) low
    · exact absurd one (by dsimp only; omega)
    · exact absurd two (by dsimp only; omega)
  reduce stack number production value linked chosen found := by
    obtain ⟨nonneg, small⟩ := r1_range number
    obtain ⟨below, belowHigh, -⟩ :=
      stateOf_range engine library (linked.drop (Goyacc.tableEntry exprTables.r2 number).toNat)
    obtain ⟨notZero, isOne, isTwo⟩ := goto_start
      (Goyacc.stateOf (Goyacc.belowHandle exprTables stack number))
      (Goyacc.tableEntry exprTables.r1 number) nonneg small ⟨below, belowHigh⟩
    obtain ⟨low, high⟩ := gotoState_range
      (Goyacc.stateOf (Goyacc.belowHandle exprTables stack number))
      (Goyacc.tableEntry exprTables.r1 number)
    refine ⟨by dsimp only; omega, high, fun one => ?_, isTwo⟩
    have isFirst : number = 1 := r1_first number (isOne one)
    have onTwo := state_of_first engine library linked chosen isFirst
    subst isFirst
    cases found
    refine ⟨rfl, ?_⟩
    -- The entry of state 2 is the only one.
    cases stack with
    | nil => cases onTwo
    | cons entry rest => exact linked.1.2.2.2 onTwo

theorem accept_state (state token : Int)
    (negative : Goyacc.exception (Goyacc.exceptionRows exprTables.exca state) token < 0) :
    state = 1 ∧ token = Goyacc.endCode := by
  rcases exception_cases state token with none | ⟨-, accepting⟩
  · rw [none] at negative
    exact absurd negative (Int.lt_irrefl 0)
  · exact accepting

theorem accepted_rootValue {lexer : Goyacc.Lexer (grammar engine library)}
    (memory : Goyacc.Memory LogNumberExpr) (start : lexer.State) (rounds : Nat)
    (final : Goyacc.Config (grammar engine library) lexer.State)
    (ran : Goyacc.run exprTables lexer rounds (Goyacc.Config.start memory start) =
      some (.accepted final)) :
    ∃ value, final.stack = [⟨1, .root, value⟩] ∧
      rootValue engine library final.stack = some value := by
  have first : Goyacc.Linked (StartLink engine library)
      (Goyacc.Config.start (G := grammar engine library) memory start).stack := trivial
  have keeps : ∀ config next : Goyacc.Config (grammar engine library) lexer.State,
      Goyacc.Linked (StartLink engine library) config.stack →
      Goyacc.Stepped exprTables lexer config (.running next) →
      Goyacc.Linked (StartLink engine library) next.stack :=
    fun _ _ linked stepped => linked.stepped (startLinks engine library) stepped
  obtain ⟨last, linked, stepped⟩ := Goyacc.run_invariant keeps first ran
  obtain ⟨token, fetched, negative⟩ := Goyacc.stepped_accepted stepped
  obtain ⟨isOne, -⟩ := accept_state _ _ negative
  have same := (Goyacc.fetch_ready fetched).2.1
  rw [same]
  cases stack : last.stack with
  | nil =>
      rw [stack] at isOne
      cases isOne
  | cons entry below =>
      rw [stack] at linked isOne
      obtain ⟨isRoot, onBottom⟩ := linked.1.2.2.1 isOne
      have noMore := (stateOf_range engine library linked.2).2.2 onBottom
      obtain ⟨state, symbol, value⟩ := entry
      dsimp only at isRoot
      subst isRoot
      subst noMore
      rw [show state = 1 from isOne]
      exact ⟨value, rfl, rfl⟩

theorem parseExprWith_isSome (capacity rounds : Nat) (parser : Parser) (input : GoString)
    (outcome : Goyacc.Outcome (grammar engine library) (exprLexer engine library).State)
    (ran : Goyacc.run exprTables (exprLexer engine library) rounds
      (Goyacc.Config.start parser.stack (parser.start capacity input)) = some outcome) :
    ∃ parsed, parseExprWith engine library capacity rounds parser input = some parsed := by
  unfold parseExprWith
  rw [ran]
  cases outcome with
  | running config => exact absurd ran (Goyacc.run_ne_running rounds _ config)
  | panicked failure config => exact ⟨_, rfl⟩
  | rejected config => exact ⟨_, rfl⟩
  | accepted config =>
      obtain ⟨value, -, isRoot⟩ := accepted_rootValue engine library parser.stack
        (parser.start capacity input) rounds config ran
      dsimp only
      rw [isRoot]
      split
      · exact ⟨_, rfl⟩
      · exact ⟨_, rfl⟩

/-! ### Calls of `Lex` -/

/-- If the call comes to a flag, there is white space behind it. -/
def FlagEnds (s : Scanner) : Prop :=
  ∀ flag, flagAt library s = some flag → Ahead (fun r => isSpaceRune r = true) flag

theorem lex_ne_none_iff (state : LexState) :
    lex library state ≠ none ↔ FlagEnds library state.scanner := by
  rw [Ne, lex_eq_none_iff]
  push Not
  exact Iff.rfl

theorem lex_returns_iff (state : LexState) :
    (∃ token next, lex library state = some (token, next) ∧
        next.scanner.steps ≤ state.scanner.steps + 4 * state.scanner.text.length + 5) ↔
      FlagEnds library state.scanner := by
  rw [← lex_ne_none_iff]
  constructor
  · rintro ⟨token, next, lexed, -⟩ isNone
    rw [lexed] at isNone
    cases isNone
  · intro returns
    obtain ⟨⟨token, next⟩, lexed⟩ := Option.ne_none_iff_exists'.mp returns
    have steps := (lex_advances state next token lexed).steps
    exact ⟨token, next, lexed, by omega⟩

theorem served_text {start state : LexState} {tokens : List Token}
    (served : Goyacc.Served (exprLexer engine library) start tokens state) :
    state.scanner.text.Sublist start.scanner.text := by
  refine served.relates
    (fun first second : LexState => second.scanner.text.Sublist first.scanner.text) ?_ ?_ ?_
  · exact fun _ => List.Sublist.refl _
  · exact fun _ second token third part lexed =>
      (lex_advances second third token lexed).text.trans part
  · exact fun _ _ part => part

theorem text_ofText (capacity : Nat) (input : GoString) :
    (Scanner.ofText capacity input).text.Sublist input := by
  unfold Scanner.ofText
  dsimp only
  split
  · refine (text_next_suffix _).sublist.trans ?_
    rw [text_checkRune, text_fill]
    exact List.Sublist.refl _
  · rw [text_checkRune, text_fill]
    exact List.Sublist.refl _

theorem flagEnds_of_no_dash (capacity : Nat) (parser : Parser) (input : GoString)
    (noDash : byte '-' ∉ input) (tokens : List Token) (state : LexState)
    (served : Goyacc.Served (exprLexer engine library) (parser.start capacity input) tokens
      state) : FlagEnds library state.scanner := by
  intro flag isFlag
  have inText := dash_mem_of_flagAt isFlag
  exact absurd ((text_ofText capacity input).subset
    ((served_text engine library served).subset inText)) noDash

/-- The loops of the lexer end by themselves.  A call returns exactly if it does not
come to a flag without white space behind it, and then it has read a number of
characters that is linear in what was left.  A parser that meets no other flags
returns, given that a generated parser does when its tokens come to an end. -/
theorem parsing_returns (capacity : Nat) (parser : Parser) (input : GoString)
    (terminates : Goyacc.Ends (exprLexer engine library) (parser.start capacity input) →
      ∃ rounds outcome, Goyacc.run exprTables (exprLexer engine library) rounds
        (Goyacc.Config.start parser.stack (parser.start capacity input)) = some outcome) :
    LoopsSettle library ∧
    (∀ state : LexState,
      (∃ token next, lex library state = some (token, next) ∧
          next.scanner.steps ≤ state.scanner.steps + 4 * state.scanner.text.length + 5) ↔
        FlagEnds library state.scanner) ∧
    ((∀ tokens state, Goyacc.Served (exprLexer engine library) (parser.start capacity input)
        tokens state → FlagEnds library state.scanner) →
      ∃ rounds parsed,
        parseExprWith engine library capacity rounds parser input = some parsed) := by
  refine ⟨loopsSettle library, lex_returns_iff library, fun flagsEnd => ?_⟩
  have ends : Goyacc.Ends (exprLexer engine library) (parser.start capacity input) := by
    refine Goyacc.ends_of_shrinks (exprLexer engine library)
      (fun state => state.scanner.text.length) ?_ _ ?_
    · exact fun state token next lexed => length_lex_lt state next token lexed
    · exact fun tokens state served => (lex_ne_none_iff library state).mpr
        (flagsEnd tokens state served)
  obtain ⟨rounds, outcome, ran⟩ := terminates ends
  obtain ⟨parsed, isParsed⟩ :=
    parseExprWith_isSome engine library capacity rounds parser input outcome ran
  exact ⟨rounds, parsed, isParsed⟩

theorem parsing_returns_selector :
    ∃ rounds parsed, parseExprWith .literals .asciiOnly 1024 rounds .new (ascii "\x7ba=\"b\"\x7d") =
      some parsed := by
  refine (parsing_returns .literals .asciiOnly 1024 .new (ascii "\x7ba=\"b\"\x7d") ?_).2.2 ?_
  · intro _
    have returns : (Goyacc.run exprTables (exprLexer .literals .asciiOnly) 20
        (Goyacc.Config.start Parser.new.stack
          (Parser.new.start 1024 (ascii "\x7ba=\"b\"\x7d")))).isSome = true := by
      decide +kernel
    exact ⟨20, Option.isSome_iff_exists.mp returns⟩
  · exact flagEnds_of_no_dash _ _ 1024 _ _ (by decide)

/-- At the end of the input, a flag is read forever, and `ParseExpr` does not
return. -/
theorem flag_never_returns :
    lex .asciiOnly (Parser.new.start 1024 (ascii "--")) = none ∧
    ∀ rounds, parseExprWith .literals .asciiOnly 1024 rounds .new
      (ascii "\x7ba=\"b\"\x7d | logfmt --") = none := by
  refine ⟨by decide +kernel, fun rounds => ?_⟩
  have stuck : ((Goyacc.advance exprTables (exprLexer .literals .asciiOnly) 10
      (Goyacc.Config.start Parser.new.stack
        (Parser.new.start 1024 (ascii "\x7ba=\"b\"\x7d | logfmt --")))).map fun config =>
          (Goyacc.step exprTables (exprLexer .literals .asciiOnly) config).isNone) =
      some true := by decide +kernel
  obtain ⟨config, advanced, isStuck⟩ := Option.map_eq_some_iff.mp stuck
  rw [parseExprWith, Goyacc.run_eq_none_of_advance 10 _ config advanced
    (Option.isNone_iff_eq_none.mp isStuck) rounds]

example : Goyacc.gotoState exprTables 0 1 = 1 := by
  decide +kernel

end McoaGateway.Logql
