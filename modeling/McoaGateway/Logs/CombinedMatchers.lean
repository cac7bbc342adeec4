/-
What `combineLabelMatchers` keeps (`api/logs/v1/labels_enforcer.go`).

The loop over the authorization matchers treats the labels one by one: on each of
them it starts from the last matcher of the caller and goes through the
authorization matchers in order (`outcome`).  Two things get lost on the way: the
earlier matchers of the caller on a label, which the map has no room for, and
what an equality matcher in the map has stood for, when a later authorization
matcher refuses its value.
-/

import McoaGateway.Logs.LabelsEnforcer

namespace McoaGateway.Logs

open GoString

/-! ### One label at a time -/

def onLabel (matchers : List Matcher) (name : GoString) : List Matcher :=
  matchers.filter fun m => m.name = name

/-- The matcher that the map has for a label of the caller's. -/
def lastOn (matchers : List Matcher) (name : GoString) : Option Matcher :=
  (onLabel matchers name).getLast?

theorem mem_onLabel {matchers : List Matcher} {name : GoString} {m : Matcher} :
    m ∈ onLabel matchers name ↔ m ∈ matchers ∧ m.name = name := by
  rw [onLabel, List.mem_filter, decide_eq_true_eq]

theorem onLabel_cons_self (m : Matcher) (rest : List Matcher) (name : GoString)
    (own : m.name = name) : onLabel (m :: rest) name = m :: onLabel rest name :=
  List.filter_cons_of_pos (decide_eq_true own)

theorem onLabel_cons_of_ne (m : Matcher) (rest : List Matcher) (name : GoString)
    (other : m.name ≠ name) : onLabel (m :: rest) name = onLabel rest name :=
  List.filter_cons_of_neg (by simpa using other)

theorem lastOn_cons (m : Matcher) (rest : List Matcher) (name : GoString) :
    lastOn (m :: rest) name =
      (lastOn rest name).or (if m.name = name then some m else none) := by
  unfold lastOn
  by_cases own : m.name = name
  · rw [onLabel_cons_self m rest name own, if_pos own]
    cases onLabel rest name with
    | nil => rfl
    | cons first others => rw [List.getLast?_cons_cons, List.getLast?_cons, Option.some_or]
  · rw [onLabel_cons_of_ne m rest name own, if_neg own, Option.or_none]

theorem MatcherMap.get_insert (map : MatcherMap) (m : Matcher) (name : GoString) :
    (map.insert m).get name = if m.name = name then some m else map.get name := by
  unfold MatcherMap.get MatcherMap.insert
  dsimp only
  by_cases own : m.name = name
  · rw [List.find?_cons_of_pos (by simpa using own), if_pos own]
  · rw [List.find?_cons_of_neg (by simpa using own), if_neg own, List.find?_filter]
    congr 1
    funext other
    rw [decide_eq_decide]
    constructor
    · intro both
      exact of_decide_eq_true both.2
    · intro isName
      exact ⟨decide_eq_true fun same => own (same ▸ isName), decide_eq_true isName⟩

theorem MatcherMap.get_foldl_insert (matchers : List Matcher) (map : MatcherMap)
    (name : GoString) :
    (matchers.foldl MatcherMap.insert map).get name =
      (lastOn matchers name).or (map.get name) := by
  induction matchers generalizing map with
  | nil => rfl
  | cons m rest ih =>
      rw [List.foldl_cons, ih, MatcherMap.get_insert, lastOn_cons, Option.or_assoc]
      congr 1
      split
      · rfl
      · rfl

theorem MatcherMap.mem_onLabel_iff (map : MatcherMap) (name : GoString) (m : Matcher) :
    m ∈ onLabel map.matchers name ↔ map.get name = some m := by
  rw [mem_onLabel]
  constructor
  · rintro ⟨member, isName⟩
    cases found : map.get name with
    | none =>
        have missing := List.find?_eq_none.mp found m member
        exact absurd (decide_eq_true isName) missing
    | some other =>
        obtain ⟨alsoMember, alsoName⟩ := mem_of_get found
        rw [List.inj_on_of_nodup_map map.distinct alsoMember member (alsoName.trans isName.symm)]
  · exact mem_of_get

section

variable (engine : RegexpEngine)

/-- `mergeMatcher` on the label of the authorization matcher: the matchers kept so far,
and the entry of the map. -/
def mergeEntry (merged : List Matcher × Option Matcher) (am : Matcher) :
    List Matcher × Option Matcher :=
  match merged.2 with
  | none => (merged.1, some am)
  | some qm =>
      if qm.type ≠ .equal then (merged.1 ++ [qm], some am)
      else if !am.matches engine qm.value then (merged.1, some am)
      else merged

def outcome (queryMatchers authzMatchers : List Matcher) (name : GoString) :
    List Matcher × Option Matcher :=
  (onLabel authzMatchers name).foldl (mergeEntry engine) ([], lastOn queryMatchers name)

theorem mergeMatcher_onLabel (merged : List Matcher × MatcherMap) (am : Matcher)
    (name : GoString) :
    (onLabel (mergeMatcher engine merged am).1 name, (mergeMatcher engine merged am).2.get name) =
      if am.name = name then mergeEntry engine (onLabel merged.1 name, merged.2.get name) am
      else (onLabel merged.1 name, merged.2.get name) := by
  by_cases own : am.name = name
  · rw [if_pos own, mergeMatcher, mergeEntry, own]
    cases found : merged.2.get name with
    | none =>
        dsimp only
        rw [MatcherMap.get_insert, if_pos own]
    | some qm =>
        have isName : qm.name = name := (mem_of_get found).2
        dsimp only
        split
        · dsimp only
          rw [MatcherMap.get_insert, if_pos own, onLabel, List.filter_append, ← onLabel, ← onLabel,
            onLabel_cons_self qm [] name isName]
          rfl
        · split
          · rw [MatcherMap.get_insert, if_pos own]
          · rw [found]
  · rw [if_neg own, mergeMatcher]
    cases found : merged.2.get am.name with
    | none =>
        dsimp only
        rw [MatcherMap.get_insert, if_neg own]
    | some qm =>
        have otherName : qm.name ≠ name := by
          rw [(mem_of_get found).2]
          exact own
        dsimp only
        split
        · dsimp only
          rw [MatcherMap.get_insert, if_neg own, onLabel, List.filter_append, ← onLabel, ← onLabel,
            onLabel_cons_of_ne qm [] name otherName]
          exact congrArg (·, merged.2.get name) (List.append_nil _)
        · split
          · rw [MatcherMap.get_insert, if_neg own]
          · rfl

theorem foldl_mergeMatcher_onLabel (authzMatchers : List Matcher)
    (merged : List Matcher × MatcherMap) (name : GoString) :
    (onLabel (authzMatchers.foldl (mergeMatcher engine) merged).1 name,
        (authzMatchers.foldl (mergeMatcher engine) merged).2.get name) =
      (onLabel authzMatchers name).foldl (mergeEntry engine)
        (onLabel merged.1 name, merged.2.get name) := by
  induction authzMatchers generalizing merged with
  | nil => rfl
  | cons am rest ih =>
      have step := mergeMatcher_onLabel engine merged am name
      rw [List.foldl_cons, ih, step]
      by_cases own : am.name = name
      · rw [if_pos own, onLabel_cons_self am rest name own, List.foldl_cons]
      · rw [if_neg own, onLabel_cons_of_ne am rest name own]

/-! ### The values that a label can take -/

def AcceptsAll (matchers : List Matcher) (value : GoString) : Prop :=
  ∀ m ∈ matchers, m.matches engine value = true

theorem acceptsAll_nil (value : GoString) : AcceptsAll engine [] value :=
  fun m member => by cases member

theorem satisfies_iff_onLabel (matchers : List Matcher) (labels : LabelSet) :
    Satisfies engine matchers labels ↔
      ∀ name, AcceptsAll engine (onLabel matchers name) (labels name) := by
  constructor
  · intro satisfied name m member
    obtain ⟨isMember, isName⟩ := mem_onLabel.mp member
    rw [← isName]
    exact satisfied m isMember
  · intro accepted m member
    exact accepted m.name m (mem_onLabel.mpr ⟨member, rfl⟩)

/-- The values that what has become of a label lets pass. -/
def Passes (merged : List Matcher × Option Matcher) (value : GoString) : Prop :=
  AcceptsAll engine merged.1 value ∧ ∀ m, merged.2 = some m → m.matches engine value = true

theorem acceptsAll_combineLabelMatchers (order : MapOrder)
    (queryMatchers authzMatchers : List Matcher) (name value : GoString) :
    AcceptsAll engine (onLabel (combineLabelMatchers engine order queryMatchers authzMatchers) name)
        value ↔
      Passes engine (outcome engine queryMatchers authzMatchers name) value := by
  have merged := foldl_mergeMatcher_onLabel engine authzMatchers
    ([], queryMatchers.foldl MatcherMap.insert .empty) name
  dsimp only at merged
  rw [MatcherMap.get_foldl_insert, show MatcherMap.empty.get name = none from rfl,
    Option.or_none] at merged
  rw [show onLabel [] name = [] from rfl] at merged
  rw [outcome, ← merged, Passes]
  unfold combineLabelMatchers
  dsimp only
  constructor
  · intro accepted
    refine ⟨fun m member => accepted m ?_, fun m isEntry => accepted m ?_⟩
    · obtain ⟨isMember, isName⟩ := mem_onLabel.mp member
      exact mem_onLabel.mpr ⟨List.mem_append_left _ isMember, isName⟩
    · obtain ⟨isMember, isName⟩ := mem_of_get isEntry
      exact mem_onLabel.mpr
        ⟨List.mem_append_right _ ((order.perm _).mem_iff.mpr isMember), isName⟩
  · rintro ⟨keptAccept, entryAccepts⟩ m member
    obtain ⟨isMember, isName⟩ := mem_onLabel.mp member
    rcases List.mem_append.mp isMember with isKept | inMap
    · exact keptAccept m (mem_onLabel.mpr ⟨isKept, isName⟩)
    · refine entryAccepts m ((MatcherMap.mem_onLabel_iff _ name m).mp ?_)
      exact mem_onLabel.mpr ⟨(order.perm _).mem_iff.mp inMap, isName⟩

/-- The combined matchers select exactly the label sets whose values all pass. -/
theorem satisfies_combineLabelMatchers (order : MapOrder)
    (queryMatchers authzMatchers : List Matcher) (labels : LabelSet) :
    Satisfies engine (combineLabelMatchers engine order queryMatchers authzMatchers) labels ↔
      ∀ name, Passes engine (outcome engine queryMatchers authzMatchers name) (labels name) := by
  rw [satisfies_iff_onLabel]
  exact forall_congr' fun name =>
    acceptsAll_combineLabelMatchers engine order queryMatchers authzMatchers name (labels name)

/-- A matcher is implied if, as soon as every label has a value that passes, it accepts all
those that pass on its own label. -/
theorem implies_combineLabelMatchers (order : MapOrder)
    (queryMatchers authzMatchers : List Matcher) (m : Matcher) :
    Implies engine (combineLabelMatchers engine order queryMatchers authzMatchers) m ↔
      ((∀ name, ∃ value, Passes engine (outcome engine queryMatchers authzMatchers name) value) →
        ∀ value, Passes engine (outcome engine queryMatchers authzMatchers m.name) value →
          m.matches engine value = true) := by
  unfold Implies
  simp only [satisfies_combineLabelMatchers]
  constructor
  · intro implied possible value passes
    choose labels labelsPass using possible
    have changed := implied (Function.update labels m.name value) (by
      intro name
      by_cases own : name = m.name
      · rw [own, Function.update_self]
        exact passes
      · rw [Function.update_of_ne own]
        exact labelsPass name)
    rwa [Function.update_self] at changed
  · intro accepts labels allPass
    exact accepts (fun name => ⟨labels name, allPass name⟩) (labels m.name) (allPass m.name)

/-! ### The authorization matchers -/

theorem eq_of_equal_matches {m : Matcher} {value : GoString} (isEqual : m.type = .equal)
    (accepts : m.matches engine value = true) : value = m.value := by
  rw [Matcher.matches, isEqual] at accepts
  exact eq_of_beq accepts

/-- No equality matcher is followed by a matcher that refuses its value. -/
def Compatible (matchers : List Matcher) : Prop :=
  matchers.Pairwise fun a b => a.type = .equal → b.matches engine a.value = true

/-- From an authorization matcher in the map on, all of them count, as long as they are
compatible. -/
theorem passes_foldl_mergeEntry (kept : List Matcher) (entry : Matcher) (rest : List Matcher)
    (compatible : Compatible engine (entry :: rest)) (value : GoString) :
    Passes engine (rest.foldl (mergeEntry engine) (kept, some entry)) value ↔
      AcceptsAll engine kept value ∧ AcceptsAll engine (entry :: rest) value := by
  induction rest generalizing kept entry with
  | nil =>
      unfold Passes AcceptsAll
      simp only [List.foldl_nil, Option.some.injEq, forall_eq', List.mem_singleton, forall_eq]
  | cons b rest ih =>
      obtain ⟨entryFirst, others⟩ := List.pairwise_cons.mp compatible
      rw [List.foldl_cons, mergeEntry]
      dsimp only
      by_cases isEqual : entry.type = .equal
      · have accepts := entryFirst b List.mem_cons_self isEqual
        have withoutB : Compatible engine (entry :: rest) :=
          List.pairwise_cons.mpr ⟨fun other member =>
            entryFirst other (List.mem_cons_of_mem _ member), (List.pairwise_cons.mp others).2⟩
        rw [if_neg (not_not.mpr isEqual), accepts, Bool.not_true, if_neg Bool.false_ne_true,
          ih kept entry withoutB]
        unfold AcceptsAll
        rw [List.forall_mem_cons, List.forall_mem_cons, List.forall_mem_cons]
        constructor
        · rintro ⟨keptAccept, entryAccepts, restAccept⟩
          refine ⟨keptAccept, entryAccepts, ?_, restAccept⟩
          rw [eq_of_equal_matches engine isEqual entryAccepts]
          exact accepts
        · rintro ⟨keptAccept, entryAccepts, _, restAccept⟩
          exact ⟨keptAccept, entryAccepts, restAccept⟩
      · rw [if_pos isEqual, ih (kept ++ [entry]) b others]
        unfold AcceptsAll
        rw [List.forall_mem_append, List.forall_mem_singleton, List.forall_mem_cons, and_assoc,
          List.forall_mem_cons, List.forall_mem_cons]

/-- An equality matcher of the caller stays until an authorization matcher refuses its
value, which then takes its place. -/
theorem foldl_mergeEntry_equal (kept : List Matcher) (qm : Matcher) (isEqual : qm.type = .equal)
    (authzMatchers : List Matcher) :
    authzMatchers.foldl (mergeEntry engine) (kept, some qm) =
      match authzMatchers.dropWhile (fun am => am.matches engine qm.value) with
      | [] => (kept, some qm)
      | am :: rest => rest.foldl (mergeEntry engine) (kept, some am) := by
  induction authzMatchers with
  | nil => rfl
  | cons am rest ih =>
      rw [List.foldl_cons, mergeEntry]
      dsimp only
      rw [if_neg (not_not.mpr isEqual)]
      cases accepts : am.matches engine qm.value with
      | true =>
          have passed : (am :: rest).dropWhile (fun am => am.matches engine qm.value) =
              rest.dropWhile fun am => am.matches engine qm.value :=
            List.dropWhile_cons_of_pos accepts
          rw [Bool.not_true, if_neg Bool.false_ne_true, ih, passed]
      | false =>
          have stopped : (am :: rest).dropWhile (fun am => am.matches engine qm.value) =
              am :: rest :=
            List.dropWhile_cons_of_neg (by rw [accepts]; exact Bool.false_ne_true)
          rw [Bool.not_false, if_pos rfl, stopped]

/-- The authorization matchers on a label that come before the first one to refuse the value
of the caller's equality matcher. -/
def spared (qm : Matcher) (authzMatchers : List Matcher) : List Matcher :=
  authzMatchers.takeWhile fun am => am.matches engine qm.value

def refusing (qm : Matcher) (authzMatchers : List Matcher) : List Matcher :=
  authzMatchers.dropWhile fun am => am.matches engine qm.value

theorem acceptsAll_split (qm : Matcher) (authzMatchers : List Matcher) (value : GoString) :
    AcceptsAll engine authzMatchers value ↔
      AcceptsAll engine (spared engine qm authzMatchers) value ∧
        AcceptsAll engine (refusing engine qm authzMatchers) value := by
  unfold AcceptsAll spared refusing
  rw [← List.forall_mem_append, List.takeWhile_append_dropWhile]

/-- What the values on a label have to meet when the authorization matchers on it are
compatible. -/
theorem passes_outcome (queryMatchers authzMatchers : List Matcher) (name : GoString)
    (compatible : Compatible engine (onLabel authzMatchers name)) (value : GoString) :
    Passes engine (outcome engine queryMatchers authzMatchers name) value ↔
      match lastOn queryMatchers name with
      | none => AcceptsAll engine (onLabel authzMatchers name) value
      | some qm =>
          if qm.type = .equal ∧ refusing engine qm (onLabel authzMatchers name) ≠ [] then
            AcceptsAll engine (refusing engine qm (onLabel authzMatchers name)) value
          else
            qm.matches engine value = true ∧
              AcceptsAll engine (onLabel authzMatchers name) value := by
  have nothingKept := acceptsAll_nil engine value
  unfold outcome
  generalize onLabel authzMatchers name = own at compatible ⊢
  cases lastOn queryMatchers name with
  | none =>
      dsimp only
      cases own with
      | nil =>
          unfold Passes
          simp only [List.foldl_nil, nothingKept, reduceCtorEq, false_implies, implies_true,
            and_self]
      | cons am rest =>
          rw [List.foldl_cons, mergeEntry, passes_foldl_mergeEntry engine [] am rest compatible]
          exact and_iff_right nothingKept
  | some qm =>
      dsimp only
      by_cases isEqual : qm.type = .equal
      · rw [foldl_mergeEntry_equal engine [] qm isEqual own]
        have split := acceptsAll_split engine qm own value
        unfold refusing at split ⊢
        cases refused : own.dropWhile fun am => am.matches engine qm.value with
        | nil =>
            have noneRefuses : ¬ (qm.type = .equal ∧ ([] : List Matcher) ≠ []) :=
              fun both => both.2 rfl
            rw [if_neg noneRefuses]
            have accepted := List.dropWhile_eq_nil_iff.mp refused
            unfold Passes
            dsimp only
            constructor
            · rintro ⟨_, entryAccepts⟩
              have accepts := entryAccepts qm rfl
              refine ⟨accepts, fun am member => ?_⟩
              rw [eq_of_equal_matches engine isEqual accepts]
              exact accepted am member
            · rintro ⟨accepts, _⟩
              exact ⟨nothingKept, fun m isEntry => by cases isEntry; exact accepts⟩
        | cons am rest =>
            rw [if_pos ⟨isEqual, List.cons_ne_nil am rest⟩]
            have stillCompatible : Compatible engine (am :: rest) := by
              rw [← refused]
              exact compatible.sublist (List.dropWhile_sublist _)
            dsimp only
            rw [passes_foldl_mergeEntry engine [] am rest stillCompatible]
            exact and_iff_right nothingKept
      · rw [if_neg fun both => isEqual both.1]
        cases own with
        | nil =>
            unfold Passes AcceptsAll
            simp
        | cons am rest =>
            rw [List.foldl_cons, mergeEntry]
            dsimp only
            rw [if_pos isEqual, passes_foldl_mergeEntry engine _ am rest compatible]
            unfold AcceptsAll
            rw [List.nil_append, List.forall_mem_singleton]

/-- What keeps every authorization matcher in force: those on one label are compatible; and
if one of them refuses the value that the caller's last matcher on the label demands, then the
matchers from there on accept only what the ones before accept too. -/
def KeepsAuthorization (queryMatchers authzMatchers : List Matcher) : Prop :=
  ∀ name, Compatible engine (onLabel authzMatchers name) ∧
    ∀ qm, lastOn queryMatchers name = some qm → qm.type = .equal →
      refusing engine qm (onLabel authzMatchers name) ≠ [] →
      ∀ value, AcceptsAll engine (refusing engine qm (onLabel authzMatchers name)) value →
        AcceptsAll engine (spared engine qm (onLabel authzMatchers name)) value

theorem acceptsAll_of_passes (queryMatchers authzMatchers : List Matcher) (name : GoString)
    (keeps : KeepsAuthorization engine queryMatchers authzMatchers) (value : GoString)
    (passes : Passes engine (outcome engine queryMatchers authzMatchers name) value) :
    AcceptsAll engine (onLabel authzMatchers name) value := by
  obtain ⟨compatible, covers⟩ := keeps name
  rw [passes_outcome engine queryMatchers authzMatchers name compatible value] at passes
  split at passes
  · exact passes
  · rename_i qm isLast
    split at passes
    · rename_i refused
      exact (acceptsAll_split engine qm _ value).mpr
        ⟨covers qm isLast refused.1 refused.2 value passes, passes⟩
    · exact passes.2

/-- All authorization matchers are implied under the condition; and if the combined matchers
select anything at all, only then. -/
theorem combineLabelMatchers_implies_authorization (order : MapOrder)
    (queryMatchers authzMatchers : List Matcher) :
    (KeepsAuthorization engine queryMatchers authzMatchers →
      ∀ am ∈ authzMatchers,
        Implies engine (combineLabelMatchers engine order queryMatchers authzMatchers) am) ∧
    ((∃ labels, Satisfies engine
        (combineLabelMatchers engine order queryMatchers authzMatchers) labels) →
      (∀ am ∈ authzMatchers,
        Implies engine (combineLabelMatchers engine order queryMatchers authzMatchers) am) →
      KeepsAuthorization engine queryMatchers authzMatchers) := by
  constructor
  · intro keeps am member
    rw [implies_combineLabelMatchers]
    intro _ value passes
    exact acceptsAll_of_passes engine queryMatchers authzMatchers am.name keeps value passes am
      (mem_onLabel.mpr ⟨member, rfl⟩)
  · rintro ⟨labels, satisfied⟩ implied name
    have allPass := (satisfies_combineLabelMatchers engine order queryMatchers authzMatchers
      labels).mp satisfied
    -- The label set satisfies all of them, an equality matcher with its own value.
    have compatible : Compatible engine (onLabel authzMatchers name) := by
      rw [Compatible, List.pairwise_iff_forall_sublist]
      intro a b both isEqual
      have holds : ∀ m ∈ onLabel authzMatchers name, m.matches engine (labels name) = true := by
        intro m member
        obtain ⟨isMember, isName⟩ := mem_onLabel.mp member
        rw [← isName]
        exact implied m isMember labels satisfied
      have aHolds := holds a (both.subset List.mem_cons_self)
      rw [← eq_of_equal_matches engine isEqual aHolds]
      exact holds b (both.subset (List.mem_cons_of_mem _ List.mem_cons_self))
    refine ⟨compatible, ?_⟩
    intro qm isLast isEqual refused value accepted am isSpared
    have isOwn : am ∈ onLabel authzMatchers name := List.takeWhile_sublist _ |>.subset isSpared
    obtain ⟨isMember, isName⟩ := mem_onLabel.mp isOwn
    refine (implies_combineLabelMatchers engine order queryMatchers authzMatchers am).mp
      (implied am isMember) (fun other => ⟨labels other, allPass other⟩) value ?_
    rw [isName, passes_outcome engine queryMatchers authzMatchers name compatible value, isLast]
    dsimp only
    rwa [if_pos ⟨isEqual, refused⟩]

end

/-- Two values for one label: the second matcher takes the place of the first. -/
theorem authorization_lost :
    combineLabelMatchers .literals .newestFirst []
        [⟨.equal, ascii "a", ascii "x"⟩, ⟨.equal, ascii "a", ascii "y"⟩] =
      [⟨.equal, ascii "a", ascii "y"⟩] ∧
    Satisfies .literals (combineLabelMatchers .literals .newestFirst []
        [⟨.equal, ascii "a", ascii "x"⟩, ⟨.equal, ascii "a", ascii "y"⟩]) (fun _ => ascii "y") ∧
    ¬ Implies .literals (combineLabelMatchers .literals .newestFirst []
        [⟨.equal, ascii "a", ascii "x"⟩, ⟨.equal, ascii "a", ascii "y"⟩])
        ⟨.equal, ascii "a", ascii "x"⟩ := by
  have combined : combineLabelMatchers .literals .newestFirst []
      [⟨.equal, ascii "a", ascii "x"⟩, ⟨.equal, ascii "a", ascii "y"⟩] =
        [⟨.equal, ascii "a", ascii "y"⟩] := by decide +kernel
  have satisfied : Satisfies .literals [⟨.equal, ascii "a", ascii "y"⟩] fun _ => ascii "y" :=
    fun m member => by rw [List.mem_singleton.mp member]; decide
  rw [combined]
  exact ⟨rfl, satisfied, fun implied => absurd (implied _ satisfied) (by decide)⟩

/-! ### The matchers of the caller -/

section

variable (engine : RegexpEngine)

/-- A matcher that gives way to the authorization matcher on its label. -/
def Overruled (authzMatchers : List Matcher) (qm : Matcher) : Prop :=
  qm.type = .equal ∧ ∃ am ∈ authzMatchers, am.name = qm.name ∧ am.matches engine qm.value = false

/-- The values that a label of the caller's can still take: those that its last matcher accepts,
unless it is overruled, and the authorization matcher on the label. -/
def Admissible (queryMatchers authzMatchers : List Matcher) (name value : GoString) : Prop :=
  (∀ qm, lastOn queryMatchers name = some qm →
      Overruled engine authzMatchers qm ∨ qm.matches engine value = true) ∧
    AcceptsAll engine (onLabel authzMatchers name) value

theorem mem_of_lastOn {matchers : List Matcher} {name : GoString} {m : Matcher}
    (isLast : lastOn matchers name = some m) : m ∈ matchers ∧ m.name = name :=
  mem_onLabel.mp (List.mem_of_getLast? isLast)

theorem onLabel_length_le_one {matchers : List Matcher}
    (distinct : (matchers.map Matcher.name).Nodup) (name : GoString) :
    (onLabel matchers name).length ≤ 1 := by
  have sameName : (onLabel matchers name).map Matcher.name =
      List.replicate (onLabel matchers name).length name := by
    rw [List.eq_replicate_iff, List.length_map]
    refine ⟨rfl, fun own member => ?_⟩
    obtain ⟨m, isOn, rfl⟩ := List.mem_map.mp member
    exact (mem_onLabel.mp isOn).2
  have stillDistinct : ((onLabel matchers name).map Matcher.name).Nodup :=
    distinct.sublist (List.filter_sublist.map _)
  rw [sameName] at stillDistinct
  exact List.nodup_replicate.mp stillDistinct

theorem overruled_iff_refusing {authzMatchers : List Matcher} {qm : Matcher} {name : GoString}
    (isName : qm.name = name) :
    Overruled engine authzMatchers qm ↔
      qm.type = .equal ∧ refusing engine qm (onLabel authzMatchers name) ≠ [] := by
  rw [Overruled, refusing, Ne, List.dropWhile_eq_nil_iff, isName]
  refine and_congr_right fun _ => ?_
  constructor
  · rintro ⟨am, member, sameName, refuses⟩ accepted
    have accepts := accepted am (mem_onLabel.mpr ⟨member, sameName⟩)
    rw [refuses] at accepts
    cases accepts
  · intro notAccepted
    push Not at notAccepted
    obtain ⟨am, isOn, refuses⟩ := notAccepted
    obtain ⟨member, sameName⟩ := mem_onLabel.mp isOn
    exact ⟨am, member, sameName, Bool.eq_false_of_not_eq_true refuses⟩

/-- With one authorization matcher on a label, nothing that it stands for is lost. -/
theorem passes_outcome_iff_admissible (queryMatchers authzMatchers : List Matcher)
    (distinct : (authzMatchers.map Matcher.name).Nodup) (name value : GoString) :
    Passes engine (outcome engine queryMatchers authzMatchers name) value ↔
      Admissible engine queryMatchers authzMatchers name value := by
  have atMostOne := onLabel_length_le_one distinct name
  have compatible : Compatible engine (onLabel authzMatchers name) := by
    match onLabel authzMatchers name, atMostOne with
    | [], _ => exact List.Pairwise.nil
    | [am], _ => exact List.pairwise_singleton _ am
  rw [passes_outcome engine queryMatchers authzMatchers name compatible value, Admissible]
  cases isLast : lastOn queryMatchers name with
  | none =>
      dsimp only
      simp only [reduceCtorEq, false_implies, implies_true, true_and]
  | some qm =>
      have overruled : Overruled engine authzMatchers qm ↔
          qm.type = .equal ∧ refusing engine qm (onLabel authzMatchers name) ≠ [] :=
        overruled_iff_refusing engine (mem_of_lastOn isLast).2
      dsimp only
      simp only [Option.some.injEq, forall_eq']
      by_cases refused : Overruled engine authzMatchers qm
      · obtain ⟨isEqual, someRefuses⟩ := overruled.mp refused
        have onlyRefusing : spared engine qm (onLabel authzMatchers name) = [] := by
          have parts : (spared engine qm (onLabel authzMatchers name)).length +
              (refusing engine qm (onLabel authzMatchers name)).length =
                (onLabel authzMatchers name).length := by
            rw [spared, refusing, ← List.length_append, List.takeWhile_append_dropWhile]
          have positive := List.length_pos_iff.mpr someRefuses
          exact List.length_eq_zero_iff.mp (by omega)
        have split := acceptsAll_split engine qm (onLabel authzMatchers name) value
        rw [onlyRefusing] at split
        rw [if_pos ⟨isEqual, someRefuses⟩, split]
        constructor
        · exact fun accepted => ⟨Or.inl refused, acceptsAll_nil engine value, accepted⟩
        · exact fun admissible => admissible.2.2
      · rw [if_neg fun both => refused (overruled.mpr both)]
        simp only [refused, false_or]

/-- Every matcher of the caller that is not overruled is implied, exactly if those that
are not the last ones on their label accept what the label can still take. -/
theorem combineLabelMatchers_implies_caller_iff (order : MapOrder)
    (queryMatchers authzMatchers : List Matcher)
    (distinct : (authzMatchers.map Matcher.name).Nodup) :
    (∀ qm ∈ queryMatchers, ¬ Overruled engine authzMatchers qm →
        Implies engine (combineLabelMatchers engine order queryMatchers authzMatchers) qm) ↔
      ((∀ name, ∃ value, Admissible engine queryMatchers authzMatchers name value) →
        ∀ qm ∈ queryMatchers, lastOn queryMatchers qm.name ≠ some qm →
          ¬ Overruled engine authzMatchers qm →
          ∀ value, Admissible engine queryMatchers authzMatchers qm.name value →
            qm.matches engine value = true) := by
  simp only [implies_combineLabelMatchers,
    passes_outcome_iff_admissible engine queryMatchers authzMatchers distinct]
  constructor
  · intro implied possible qm member _ stands value admissible
    exact implied qm member stands possible value admissible
  · intro accepts qm member stands possible value admissible
    by_cases isLast : lastOn queryMatchers qm.name = some qm
    · exact (admissible.1 qm isLast).resolve_left stands
    · exact accepts possible qm member isLast stands value admissible

end

/-- Matchers on different labels are all kept. -/
theorem callerMatchers_kept :
    ([Matcher.mk .equal (ascii "tenant") (ascii "t")].map Matcher.name).Nodup ∧
    ∀ qm ∈ [Matcher.mk .notEqual (ascii "a") (ascii "x"), ⟨.regexp, ascii "b", ascii "y"⟩],
      ¬ Overruled .literals [⟨.equal, ascii "tenant", ascii "t"⟩] qm →
      Implies .literals (combineLabelMatchers .literals .newestFirst
        [⟨.notEqual, ascii "a", ascii "x"⟩, ⟨.regexp, ascii "b", ascii "y"⟩]
        [⟨.equal, ascii "tenant", ascii "t"⟩]) qm := by
  have isLast : ∀ qm ∈ [Matcher.mk .notEqual (ascii "a") (ascii "x"),
      ⟨.regexp, ascii "b", ascii "y"⟩],
        lastOn [⟨.notEqual, ascii "a", ascii "x"⟩, ⟨.regexp, ascii "b", ascii "y"⟩] qm.name =
          some qm := by decide +kernel
  refine ⟨by decide, (combineLabelMatchers_implies_caller_iff .literals .newestFirst _
    [⟨.equal, ascii "tenant", ascii "t"⟩] (by decide)).mpr ?_⟩
  intro _ qm member notLast
  exact absurd (isLast qm member) notLast

/-- The selector `{a!="x", a!="y"}`: only its second matcher is left. -/
theorem callerMatcher_lost :
    combineLabelMatchers .literals .newestFirst
        [⟨.notEqual, ascii "a", ascii "x"⟩, ⟨.notEqual, ascii "a", ascii "y"⟩]
        [⟨.equal, ascii "tenant", ascii "t"⟩] =
      [⟨.equal, ascii "tenant", ascii "t"⟩, ⟨.notEqual, ascii "a", ascii "y"⟩] ∧
    ¬ Overruled .literals [⟨.equal, ascii "tenant", ascii "t"⟩]
        ⟨.notEqual, ascii "a", ascii "x"⟩ ∧
    ¬ Implies .literals (combineLabelMatchers .literals .newestFirst
        [⟨.notEqual, ascii "a", ascii "x"⟩, ⟨.notEqual, ascii "a", ascii "y"⟩]
        [⟨.equal, ascii "tenant", ascii "t"⟩]) ⟨.notEqual, ascii "a", ascii "x"⟩ := by
  have combined : combineLabelMatchers .literals .newestFirst
      [⟨.notEqual, ascii "a", ascii "x"⟩, ⟨.notEqual, ascii "a", ascii "y"⟩]
      [⟨.equal, ascii "tenant", ascii "t"⟩] =
        [⟨.equal, ascii "tenant", ascii "t"⟩, ⟨.notEqual, ascii "a", ascii "y"⟩] := by
    decide +kernel
  rw [combined]
  refine ⟨rfl, fun overruled => absurd overruled.1 (by decide), ?_⟩
  intro implied
  have refused := implied (fun name => if name = ascii "a" then ascii "x" else ascii "t") (by
    intro m member
    rcases List.mem_cons.mp member with isTenant | isLast
    · rw [isTenant]
      decide
    · rw [List.mem_singleton.mp isLast]
      decide)
  exact absurd refused (by decide)

end McoaGateway.Logs
