/-
Label filters with a number.

The filter holds the address of its number, which is a slot of the parser stack.
Symbols that are put on the stack later are written to the same slots, in the same
parse and in later ones with the same parser, whose array of 16 slots is used again.
A filter keeps its number as long as its slot is not written (`filters_keep_numbers`).
-/

import McoaGateway.Goyacc.References
import McoaGateway.Logql.Results

namespace McoaGateway.Logql

open GoString
open Goyacc (Slot)

/-! ### The addresses in an expression -/

def LogLabelFilterValue.addresses : LogLabelFilterValue → List Slot
  | .number address => [address]
  | .duration _ => []
  | .text _ => []

mutual

def LogLabelFilterExpr.addresses : LogLabelFilterExpr → List Slot
  | .mk _ _ _ value _ _ right => value.addresses ++ LogLabelFilterExpr.addressesRight right

def LogLabelFilterExpr.addressesRight : List LogLabelFilterExpr → List Slot
  | [] => []
  | e :: rest => e.addresses ++ LogLabelFilterExpr.addressesRight rest

end

def LogStageExpr.addresses : LogStageExpr → List Slot
  | .labelFilter e => e.addresses
  | _ => []

def LogPipelineExpr.addresses (pipeline : LogPipelineExpr) : List Slot :=
  pipeline.flatMap LogStageExpr.addresses

def LogSelectorExpr.addresses : LogSelectorExpr → List Slot
  | .nil => []
  | .query q => LogPipelineExpr.addresses q.filter
  | .rangeQuery left _ _ _ => left.addresses
  | .parenthesis inner => inner.addresses

/-- The addresses of the numeric label filters, from left to right. -/
def Expr.addresses : Expr → List Slot
  | .nil => []
  | .selector e => e.addresses
  | .metric inner left _ => inner.addresses ++ left.addresses
  | .metricParenthesis inner => inner.addresses
  | .binaryOp _ _ left right => left.addresses ++ right.addresses
  | .number _ => []
  | .vector _ => []
  | .parenthesis inner => inner.addresses

def valueAddresses : (symbol : Symbol) → Sem symbol → List Slot
  | .root, e => Expr.addresses e
  | .expr, e => Expr.addresses e
  | .logBinaryOpExpr, e => Expr.addresses e
  | .logMetricExpr, e => Expr.addresses e
  | .logQueryExpr, e => LogSelectorExpr.addresses e
  | .logRangeQueryExpr, e => LogSelectorExpr.addresses e
  | .logPipelineExpr, e => LogPipelineExpr.addresses e
  | .logStageExpr, e => LogStageExpr.addresses e
  | .logLabelFilterExpr, e => LogLabelFilterExpr.addresses e
  | _, _ => []

/-- The action for a filter with a number takes the address of its third value. -/
def addressTaken (rhs : List Symbol) : List Nat :=
  if rhs = [tok .identifier, .comparisonOp, .logNumberExpr] then [3] else []

theorem addressesRight_append (first second : List LogLabelFilterExpr) :
    LogLabelFilterExpr.addressesRight (first ++ second) =
      LogLabelFilterExpr.addressesRight first ++ LogLabelFilterExpr.addressesRight second := by
  induction first with
  | nil => rfl
  | cons e rest ih =>
      rw [List.cons_append, LogLabelFilterExpr.addressesRight, ih,
        LogLabelFilterExpr.addressesRight, List.append_assoc]

theorem addresses_chain (op : ChainOp) (left right : LogLabelFilterExpr) :
    (left.chain op right).addresses = left.addresses ++ right.addresses := by
  cases left with
  | mk name comparison ip value isNested chainOp others =>
      cases right with
      | mk name' comparison' ip' value' isNested' chainOp' others' =>
          rw [LogLabelFilterExpr.chain, LogLabelFilterExpr.addresses, addressesRight_append,
            LogLabelFilterExpr.addresses, LogLabelFilterExpr.addressesRight,
            LogLabelFilterExpr.addressesRight, LogLabelFilterExpr.addresses,
            LogLabelFilterExpr.addresses, List.append_nil, List.append_assoc]

/-! ### What the actions do with them -/

section

variable (engine : RegexpEngine) (library : Library)

/-- The values that the rules make have the addresses of their parts, and the address
taken. -/
def Tracked (rules : List Rule) : Prop :=
  ∀ production ∈ rules, ∀ slots args value, production.action slots args = .ok value →
    valueAddresses production.lhs value =
      Goyacc.argAddresses (G := grammar engine library) valueAddresses production.rhs args ++
        (Goyacc.references (G := grammar engine library) addressTaken production.rhs slots
          args).map Goyacc.Reference.slot

variable {engine library} {lhs : Symbol} {rules : List Rule}

theorem tracked_nil : Tracked engine library [] :=
  List.forall_mem_nil _

theorem tracked_cons {rhs : List Symbol} {action : Goyacc.Args Sem rhs → Sem lhs}
    (notTaken : addressTaken rhs = [])
    (first : ∀ args, valueAddresses lhs (action args) =
      Goyacc.argAddresses (G := grammar engine library) valueAddresses rhs args)
    (rest : Tracked engine library rules) :
    Tracked engine library (rule lhs rhs action :: rules) := by
  refine List.forall_mem_cons.mpr ⟨?_, rest⟩
  intro slots args value acted
  cases acted
  have none : Goyacc.references (G := grammar engine library) addressTaken rhs slots args = [] := by
    unfold Goyacc.references
    rw [notTaken]
    rfl
  change valueAddresses lhs (action args) =
    Goyacc.argAddresses (G := grammar engine library) valueAddresses rhs args ++
      (Goyacc.references (G := grammar engine library) addressTaken rhs slots args).map
        Goyacc.Reference.slot
  rw [none, List.map_nil, List.append_nil]
  exact first args

def Symbol.addressless : Symbol → Bool
  | .root | .expr | .logBinaryOpExpr | .logMetricExpr | .logQueryExpr | .logRangeQueryExpr
  | .logPipelineExpr | .logStageExpr | .logLabelFilterExpr => false
  | _ => true

theorem valueAddresses_nil {symbol : Symbol} (addressless : symbol.addressless = true)
    (value : Sem symbol) : valueAddresses symbol value = [] := by
  cases symbol <;> first
    | rfl
    | cases addressless

theorem argAddresses_nil (rhs : List Symbol) (addressless : rhs.all Symbol.addressless = true)
    (args : Goyacc.Args Sem rhs) :
    Goyacc.argAddresses (G := grammar engine library) valueAddresses rhs args = [] := by
  induction rhs with
  | nil => rfl
  | cons symbol rhs ih =>
      obtain ⟨value, args⟩ := args
      rw [List.all_cons, Bool.and_eq_true] at addressless
      change valueAddresses symbol value ++
        Goyacc.argAddresses (G := grammar engine library) valueAddresses rhs args = []
      rw [valueAddresses_nil addressless.1, ih addressless.2 args]
      rfl

def Addressless (production : Rule) : Prop :=
  production.lhs.addressless = true ∧ production.rhs.all Symbol.addressless = true ∧
    addressTaken production.rhs = []

theorem tracked_of_addressless (addressless : ∀ production ∈ rules, Addressless production) :
    Tracked engine library rules := by
  intro production member slots args value _
  obtain ⟨noLeft, noRight, notTaken⟩ := addressless production member
  have none : Goyacc.references (G := grammar engine library) addressTaken production.rhs slots
      args = [] := by
    unfold Goyacc.references
    rw [notTaken]
    rfl
  rw [valueAddresses_nil noLeft, argAddresses_nil _ noRight, none]
  rfl

theorem tracked_single {rhs : List Symbol} {action : Goyacc.Args Sem rhs → Sem lhs}
    (notTaken : addressTaken rhs = [])
    (first : ∀ args, valueAddresses lhs (action args) ++ [] =
      Goyacc.argAddresses (G := grammar engine library) valueAddresses rhs args)
    (rest : Tracked engine library rules) :
    Tracked engine library (rule lhs rhs action :: rules) :=
  tracked_cons notTaken (fun args => (List.append_nil _).symm.trans (first args)) rest

theorem tracked_expressionRules :
    Tracked engine library rootRules ∧ Tracked engine library exprRules ∧
    Tracked engine library logQueryExprRules ∧ Tracked engine library logStageExprRules ∧
    Tracked engine library logRangeQueryExprRules ∧
    Tracked engine library logMetricExprRules := by
  unfold rootRules exprRules logQueryExprRules logStageExprRules logRangeQueryExprRules
    logMetricExprRules
  refine ⟨?_, ?_, ?_, ?_, ?_, ?_⟩
  all_goals
    repeat first
      | refine tracked_cons rfl (fun _ => rfl) ?_
      | refine tracked_single rfl (fun _ => rfl) ?_
    exact tracked_nil

theorem tracked_logPipelineExprRules : Tracked engine library logPipelineExprRules := by
  refine tracked_cons rfl (fun _ => rfl) ?_
  refine tracked_cons rfl (fun (pipeline, stage, ()) => ?_) tracked_nil
  exact List.flatMap_append

theorem tracked_pair {rhs : List Symbol} {action : Goyacc.Args Sem rhs → Sem lhs}
    (notTaken : addressTaken rhs = []) (left right : Goyacc.Args Sem rhs → List Slot)
    (isValue : ∀ args, valueAddresses lhs (action args) = left args ++ right args)
    (isArgs : ∀ args, Goyacc.argAddresses (G := grammar engine library) valueAddresses rhs args =
      left args ++ (right args ++ []))
    (rest : Tracked engine library rules) :
    Tracked engine library (rule lhs rhs action :: rules) := by
  refine tracked_cons notTaken (fun args => ?_) rest
  have flat : left args ++ (right args ++ []) = left args ++ right args := by
    rw [List.append_nil]
  exact (isValue args).trans (flat.symm.trans (isArgs args).symm)

theorem tracked_logLabelFilterExprRules : Tracked engine library logLabelFilterExprRules := by
  unfold logLabelFilterExprRules
  refine List.forall_mem_append.mpr ⟨?_, ?_⟩
  · refine tracked_cons rfl (fun _ => rfl) ?_
    refine tracked_cons rfl (fun _ => rfl) ?_
    refine List.forall_mem_cons.mpr ⟨?_, ?_⟩
    · intro slots args value acted
      cases acted
      rfl
    · exact tracked_cons rfl (fun _ => rfl) tracked_nil
  · repeat
      refine tracked_pair rfl (fun args => args.1.addresses) (fun args => args.2.2.1.addresses)
        (fun _ => addresses_chain _ _ _) (fun _ => rfl) ?_
    exact tracked_nil

theorem tracked_logBinaryOpExprRules : Tracked engine library logBinaryOpExprRules := by
  repeat
    refine tracked_pair rfl (fun args => args.1.addresses) (fun args => args.2.2.2.1.addresses)
      (fun _ => rfl) (fun _ => rfl) ?_
  exact tracked_nil

end

variable (engine : RegexpEngine) (library : Library)

theorem tracked_productions : Tracked engine library (productions engine library) := by
  obtain ⟨root, expr, query, stage, range, metric⟩ := @tracked_expressionRules engine library
  unfold productions Tracked
  repeat rw [List.forall_mem_append]
  repeat rw [and_assoc]
  refine ⟨root, expr, query, tracked_logPipelineExprRules, ?_, stage, ?_,
    tracked_logLabelFilterExprRules, ?_, ?_, range, metric, tracked_logBinaryOpExprRules, ?_, ?_,
    ?_, ?_, ?_, ?_, ?_, ?_, ?_, ?_, ?_, ?_, ?_⟩
  all_goals
    refine tracked_of_addressless ?_
    repeat refine List.forall_mem_cons.mpr ⟨⟨rfl, rfl, rfl⟩, ?_⟩
    exact List.forall_mem_nil _

theorem exprTracks : Goyacc.Tracks (grammar engine library) addressTaken valueAddresses where
  positive := by
    intro rhs place member
    unfold addressTaken at member
    split at member
    · rw [List.mem_singleton.mp member]
      decide
    · exact absurd member List.not_mem_nil
  token _ := rfl
  cell _ := rfl
  production := tracked_productions engine library

/-! ### The parser in the pool -/

/-- The parser after a call.  Of the arrays of the stack, the first one belongs to it; a
larger one is only used in the call that has made it. -/
def Parser.after (capacity rounds : Nat) (parser : Parser) (input : GoString) : Option Parser :=
  (Goyacc.run exprTables (exprLexer engine library) rounds
    (Goyacc.Config.start parser.stack (parser.start capacity input))).map fun outcome =>
      ⟨⟨0, 16, outcome.config.memory.cells⟩, outcome.config.lexer.lval⟩

/-- Calls with the same parser, in which the slots given are not written. -/
inductive Reused (capacity : Nat) (apart : List Slot) (start : Parser) : Parser → Prop where
  | refl : Reused capacity apart start start
  | call {parser next : Parser} (rounds : Nat) (input : GoString)
      (before : Reused capacity apart start parser)
      (unwritten : Goyacc.Throughout exprTables (exprLexer engine library)
        (fun config => config.topSlot ∉ apart) rounds
        (Goyacc.Config.start parser.stack (parser.start capacity input)))
      (isNext : parser.after engine library capacity rounds input = some next) :
      Reused capacity apart start next

/-- What the addresses of an earlier call refer to. -/
def laterNumbers (numbers : Numbers) (parser : Parser) : Numbers :=
  fun slot => if slot.generation = 0 then parser.stack.read slot else numbers slot

/-- The addresses in the array of the parser itself. -/
def Expr.pooledAddresses (e : Expr) : List Slot :=
  e.addresses.filter fun slot => slot.generation = 0

variable {engine library}

theorem Reused.capacity_pos {capacity : Nat} {apart : List Slot} {parser : Parser}
    (reused : Reused engine library capacity apart .new parser) : 0 < parser.stack.capacity := by
  cases reused with
  | refl => decide
  | call rounds input _ _ isNext =>
      obtain ⟨outcome, -, rfl⟩ := Option.map_eq_some_iff.mp isNext
      exact (by decide : 0 < 16)

theorem Reused.read {capacity : Nat} {apart : List Slot} {start parser : Parser}
    (reused : Reused engine library capacity apart start parser) {slot : Slot}
    (member : slot ∈ apart) (pooled : slot.generation = 0) :
    parser.stack.read slot = start.stack.read slot := by
  induction reused with
  | refl => rfl
  | @call before next rounds input _ unwritten isNext ih =>
      obtain ⟨outcome, ran, rfl⟩ := Option.map_eq_some_iff.mp isNext
      have other : Goyacc.Throughout exprTables (exprLexer engine library)
          (fun config => slot ≠ config.topSlot) rounds
          (Goyacc.Config.start before.stack (before.start capacity input)) := by
        refine unwritten.mono fun config absent => ?_
        rintro rfl
        exact absent member
      have first : Goyacc.Keeps slot (start.stack.read slot)
          (Goyacc.Config.start (G := grammar engine library) before.stack
            (before.start capacity input)) := by
        have kept := Goyacc.read_write_of_ne before.stack 0 LogNumberExpr.zero slot other.first
        exact ⟨kept.trans ih, by rw [pooled]; exact Nat.zero_le _⟩
      exact (Goyacc.run_keeps first other ran).read

/-! ### Numeric filters -/

variable (engine library)

/-- A derivation of the expression from the tokens, in which the numeric label filters
have the numbers given. -/
def Denote (tokens : List Token) (e : Expr) (numbers : List LogNumberExpr) : Prop :=
  ∃ used, Goyacc.DerivesUsing (grammar engine library) addressTaken .root tokens e used ∧
    used.map Goyacc.Reference.slot = e.addresses ∧
    used.map Goyacc.Reference.cell = numbers

theorem accepted_numbers (capacity rounds : Nat) (parser : Parser) (input : GoString) (e : Expr)
    (numbers : Numbers) (room : 0 < parser.stack.capacity)
    (parsed : parseExprWith engine library capacity rounds parser input =
      some (.expr e numbers))
    (unaddressed : Goyacc.Throughout exprTables (exprLexer engine library)
      (Goyacc.Unaddressed valueAddresses) rounds
      (Goyacc.Config.start parser.stack (parser.start capacity input))) :
    ∃ tokens before final,
      Goyacc.Lexed (exprLexer engine library) (parser.start capacity input) tokens before ∧
      lex library before = some (none, final) ∧
      Denote engine library tokens e (e.addresses.map numbers) ∧
      ∀ next, parser.after engine library capacity rounds input = some next →
        ∀ slot, slot.generation = 0 → next.stack.read slot = numbers slot := by
  unfold parseExprWith at parsed
  split at parsed
  · cases parsed
  · cases parsed
  · cases parsed
  · cases parsed
  · rename_i config ran
    split at parsed
    · rename_i noErrors
      obtain ⟨value, isRoot, isParsed⟩ := Option.map_eq_some_iff.mp parsed
      cases isParsed
      have clean := accepted_clean engine library _ _ rounds config ran noErrors
      obtain ⟨tokens, used, before, derived, lexed, ended, right⟩ :=
        Goyacc.accepted_references (exprTracks engine library) (accepts_at_end engine library)
          parser.stack room _ rounds config unaddressed ran clean
      obtain ⟨own, isStack, isOwn⟩ :=
        accepted_rootValue engine library parser.stack _ rounds config ran
      rw [isRoot] at isOwn
      cases isOwn
      have slots : used.map Goyacc.Reference.slot = e.addresses := by
        have all := derived.slots (exprTracks engine library)
        rw [isStack] at all
        exact all.trans (List.append_nil _)
      refine ⟨tokens, before, config.lexer, lexed, ended, ⟨used, ?_, slots, ?_⟩, ?_⟩
      · rw [isStack, List.reverse_singleton] at derived
        cases derived with
        | cons _ _ own others ownUsed more first rest =>
            cases rest
            rw [List.append_nil, List.append_nil]
            exact first
      · rw [← slots]
        refine Eq.trans ?_ (List.map_map (l := used)).symm
        exact List.map_congr_left fun reference member => (right reference member).symm
      · intro next isNext slot inArray
        obtain ⟨outcome, isOutcome, rfl⟩ := Option.map_eq_some_iff.mp isNext
        rw [ran] at isOutcome
        cases isOutcome
        rfl
    · cases parsed

/-- A numeric label filter has the number that is written in the query, if no symbol is put
on the stack whose slot is the address of a filter on it.  It keeps this number in later
calls as long as they do not write its slot, and in any case if the stack had
outgrown the array of the parser before. -/
theorem filters_keep_numbers (capacity rounds : Nat) (parser : Parser) (input : GoString)
    (e : Expr) (numbers : Numbers) (pooled : Reused engine library capacity [] .new parser)
    (parsed : parseExprWith engine library capacity rounds parser input =
      some (.expr e numbers))
    (unaddressed : Goyacc.Throughout exprTables (exprLexer engine library)
      (Goyacc.Unaddressed valueAddresses) rounds
      (Goyacc.Config.start parser.stack (parser.start capacity input))) :
    ∃ tokens before final,
      Goyacc.Lexed (exprLexer engine library) (parser.start capacity input) tokens before ∧
      lex library before = some (none, final) ∧
      Denote engine library tokens e (e.addresses.map numbers) ∧
      ∀ next later, parser.after engine library capacity rounds input = some next →
        Reused engine library capacity e.pooledAddresses next later →
        Denote engine library tokens e (e.addresses.map (laterNumbers numbers later)) := by
  obtain ⟨tokens, before, final, lexed, ended, denote, returned⟩ :=
    accepted_numbers engine library capacity rounds parser input e numbers pooled.capacity_pos
      parsed unaddressed
  refine ⟨tokens, before, final, lexed, ended, denote, fun next later isNext reused => ?_⟩
  have same : e.addresses.map (laterNumbers numbers later) = e.addresses.map numbers := by
    refine List.map_congr_left fun slot member => ?_
    unfold laterNumbers
    split
    · rename_i inArray
      have inPool : slot ∈ e.pooledAddresses :=
        List.mem_filter.mpr ⟨member, decide_eq_true inArray⟩
      rw [reused.read inPool inArray, returned next isNext slot inArray]
    · rfl
  rw [same]
  exact denote

def Parsed.addressed : Parsed → Option (List Slot × List LogNumberExpr)
  | .expr e numbers => some (e.addresses, e.addresses.map numbers)
  | _ => none

instance (config : Goyacc.Config (grammar engine library) (exprLexer engine library).State) :
    Decidable (Goyacc.Unaddressed valueAddresses config) :=
  inferInstanceAs (Decidable (_ ∉ _))

/-- A query that needs more than the 16 slots of the parser. -/
def nestedQuery : GoString :=
  ascii "(((((((((((\x7ba=\"b\"\x7d | c > 1)))))))))))"

theorem nestedQuery_run :
    (parseExprWith .literals .asciiOnly 1024 80 .new nestedQuery).bind Parsed.addressed =
      some ([⟨1, 16⟩], [⟨ascii "1.000000", false⟩]) ∧
    Goyacc.Throughout exprTables (exprLexer .literals .asciiOnly)
      (Goyacc.Unaddressed valueAddresses) 80
      (Goyacc.Config.start Parser.new.stack (Parser.new.start 1024 nestedQuery)) := by
  decide +kernel

theorem filters_keep_numbers_nested :
    ∃ e numbers tokens,
      parseExprWith .literals .asciiOnly 1024 80 .new nestedQuery = some (.expr e numbers) ∧
      ∀ next later, Parser.new.after .literals .asciiOnly 1024 80 nestedQuery = some next →
        Reused .literals .asciiOnly 1024 [] next later →
        Denote .literals .asciiOnly tokens e [⟨ascii "1.000000", false⟩] ∧
        e.addresses.map (laterNumbers numbers later) = [⟨ascii "1.000000", false⟩] := by
  obtain ⟨isResult, unaddressed⟩ := nestedQuery_run
  obtain ⟨result, parsed, isAddressed⟩ := Option.bind_eq_some_iff.mp isResult
  cases result with
  | expr e numbers =>
      obtain ⟨isAddresses, isNumbers⟩ := Prod.mk.inj (Option.some.inj isAddressed)
      obtain ⟨tokens, -, -, -, -, denote, later⟩ := filters_keep_numbers .literals .asciiOnly
        1024 80 .new nestedQuery e numbers .refl parsed unaddressed
      rw [isNumbers] at denote
      refine ⟨e, numbers, tokens, parsed, fun next last isNext reused => ⟨denote, ?_⟩⟩
      have noPooled : e.pooledAddresses = [] := by
        rw [Expr.pooledAddresses, isAddresses]
        rfl
      rw [← noPooled] at reused
      have kept := later next last isNext reused
      rw [← isNumbers, isAddresses]
      rfl
  | errors errs => cases isAddressed
  | panicked failure => cases isAddressed

/-- The second filter is written to the slot of the first one's number, which is zero
then.  In the other query, the number is right after the parse; the next query that the
parser gets writes to its slot. -/
theorem number_overwritten :
    (parseExprWith .literals .asciiOnly 1024 40 .new
        (ascii "\x7ba=\"b\"\x7d | c > 1 and d = \"x\"")).bind Parsed.addressed =
      some ([⟨0, 5⟩], [.zero]) ∧
    (parseExprWith .literals .asciiOnly 1024 40 .new
        (ascii "\x7ba=\"b\"\x7d | c > 1")).bind Parsed.addressed =
      some ([⟨0, 5⟩], [⟨ascii "1.000000", false⟩]) ∧
    ((Parser.new.after .literals .asciiOnly 1024 40 (ascii "\x7ba=\"b\"\x7d | c > 1")).bind
      fun parser => (parser.after .literals .asciiOnly 1024 40 (ascii "(((((1)))))")).map
        fun parser => parser.stack.read ⟨0, 5⟩) = some .zero := by
  decide +kernel

example : addressTaken [tok .identifier, .comparisonOp, .logNumberExpr] = [3] := by
  decide +kernel

end McoaGateway.Logql
