/-
Slash-separated paths (`path.Clean` and `path.Join`).

A path is cleaned from left to right with a stack of kept segments.  For a
rooted path the segments that survive can also be found from right to left:
`kept` counts the parent references still to be served.  The two readings agree
(`foldl_cleanStep_getElem?`), and the second one tells how a cleaned path ends
without following the stack.
-/

import McoaGateway.GoString

namespace McoaGateway

open GoString

def slash : UInt8 := byte '/'

def dot : GoString := ascii "."

def dotDot : GoString := ascii ".."

def segments (path : GoString) : List GoString :=
  split slash path

def isRooted (path : GoString) : Bool :=
  path.head? = some slash

/-- One segment of `path.Clean`; the stack holds the kept segments, the last one
on top. -/
def cleanStep (rooted : Bool) (stack : List GoString) (segment : GoString) :
    List GoString :=
  if segment = [] ∨ segment = dot then stack
  else if segment = dotDot then
    match stack with
    | [] => if rooted then [] else [dotDot]
    | top :: rest =>
        -- A parent reference at the front of a relative path stays.
        if !rooted && top = dotDot then dotDot :: top :: rest else rest
  else segment :: stack

def cleanSegments (rooted : Bool) (parts : List GoString) : List GoString :=
  (parts.foldl (cleanStep rooted) []).reverse

def rootedPath (parts : List GoString) : GoString :=
  slash :: join slash parts

def pathClean (path : GoString) : GoString :=
  if path = [] then dot
  else if isRooted path then rootedPath (cleanSegments true (segments path))
  else if cleanSegments false (segments path) = [] then dot
  else join slash (cleanSegments false (segments path))

/-- `path.Join` of two elements. -/
def pathJoin (base path : GoString) : GoString :=
  if base = [] ∧ path = [] then []
  else if base = [] then pathClean path
  else pathClean (base ++ slash :: path)

/-! ### Segments -/

theorem not_mem_segments (path : GoString) :
    ∀ segment ∈ segments path, slash ∉ segment := by
  unfold segments split
  induction path with
  | nil => simp [List.splitOn_nil]
  | cons head rest ih =>
      rw [List.splitOn_cons_eq_if_modifyHead]
      by_cases cut : (head == slash) = true
      · rw [if_pos cut]
        intro segment member
        rcases List.mem_cons.mp member with rfl | inRest
        · exact List.not_mem_nil
        · exact ih segment inRest
      · rw [if_neg cut]
        cases parts : rest.splitOn slash with
        | nil => simp
        | cons first others =>
            rw [parts] at ih
            intro segment member
            rw [List.modifyHead_cons] at member
            rcases List.mem_cons.mp member with rfl | inOthers
            · have rest := ih first List.mem_cons_self
              intro inside
              rcases List.mem_cons.mp inside with same | inFirst
              · exact cut (beq_iff_eq.mpr same.symm)
              · exact rest inFirst
            · exact ih segment (List.mem_cons_of_mem _ inOthers)

theorem segments_append_slash (before after : GoString) :
    segments (before ++ slash :: after) = segments before ++ segments after := by
  unfold segments split
  exact List.splitOn_append_cons_self before after

theorem segments_of_not_mem (segment : GoString) (plain : slash ∉ segment) :
    segments segment = [segment] :=
  split_of_not_mem slash segment plain

theorem segments_slash_cons (path : GoString) :
    segments (slash :: path) = [] :: segments path := by
  have shape := segments_append_slash [] path
  simpa [segments, split] using shape

theorem segments_ne_nil (path : GoString) : segments path ≠ [] :=
  List.splitOn_ne_nil slash path

theorem segments_rootedPath (parts : List GoString) (nonempty : parts ≠ [])
    (plain : ∀ part ∈ parts, slash ∉ part) :
    segments (rootedPath parts) = [] :: parts := by
  rw [rootedPath, segments_slash_cons, segments, split_join slash parts nonempty plain]

/-- A text ends in `/name` when `name` is its last segment, and not the only
one. -/
theorem hasSuffix_slash_iff (path name : GoString) (plain : slash ∉ name) :
    hasSuffix path (slash :: name) = true ↔
      ∃ front, front ≠ [] ∧ segments path = front ++ [name] := by
  rw [hasSuffix, List.isSuffixOf_iff_suffix]
  constructor
  · rintro ⟨before, rfl⟩
    refine ⟨segments before, segments_ne_nil before, ?_⟩
    rw [segments_append_slash, segments_of_not_mem name plain]
  · rintro ⟨front, nonempty, shape⟩
    have whole : join slash (segments path) = path := join_split slash path
    rw [shape] at whole
    refine ⟨join slash front, ?_⟩
    rw [← whole]
    -- The join of a non-empty list followed by one more part.
    have joined : ∀ parts : List GoString, parts ≠ [] →
        join slash (parts ++ [name]) = join slash parts ++ slash :: name := by
      intro parts
      induction parts with
      | nil =>
          intro impossible
          exact absurd rfl impossible
      | cons part rest ih =>
          intro _
          cases rest with
          | nil => simp [join, List.intercalate_cons_cons]
          | cons next rest =>
              have tail := ih (List.cons_ne_nil next rest)
              simp only [join, List.cons_append, List.intercalate_cons_cons] at tail ⊢
              rw [tail]
              simp
    exact (joined front nonempty).symm

/-! ### The segments that survive -/

/-- Read the segments from the last to the first; `skip` parent references wait
for a name to cancel.  The result is the last name that survives. -/
def kept : Nat → List GoString → Option GoString
  | _, [] => none
  | skip, segment :: rest =>
      if segment = [] ∨ segment = dot then kept skip rest
      else if segment = dotDot then kept (skip + 1) rest
      else
        match skip with
        | 0 => some segment
        | skip + 1 => kept skip rest

theorem foldl_cleanStep_getElem? (parts : List GoString) (index : Nat) :
    (parts.foldl (cleanStep true) [])[index]? = kept index parts.reverse := by
  induction parts using List.reverseRecOn generalizing index with
  | nil => simp [kept]
  | append_singleton parts segment ih =>
      rw [List.foldl_append, List.foldl_cons, List.foldl_nil, List.reverse_append,
        List.reverse_singleton, List.singleton_append, kept.eq_def, cleanStep.eq_def]
      simp only
      by_cases empty : segment = [] ∨ segment = dot
      · rw [if_pos empty, if_pos empty, ih]
      rw [if_neg empty, if_neg empty]
      by_cases parent : segment = dotDot
      · rw [if_pos parent, if_pos parent, ← ih]
        cases parts.foldl (cleanStep true) [] with
        | nil => simp
        | cons top rest => simp
      · rw [if_neg parent, if_neg parent]
        cases index with
        | zero => simp
        | succ index =>
            rw [List.getElem?_cons_succ, ih]

theorem cleanSegments_getLast? (parts : List GoString) :
    (cleanSegments true parts).getLast? = kept 0 parts.reverse := by
  rw [cleanSegments, List.getLast?_reverse, List.head?_eq_getElem?,
    foldl_cleanStep_getElem?]

theorem mem_foldl_cleanStep (parts stack : List GoString) (name : GoString)
    (member : name ∈ parts.foldl (cleanStep true) stack) :
    name ∈ stack ∨ name ∈ parts ∧ name ≠ [] ∧ name ≠ dot ∧ name ≠ dotDot := by
  induction parts generalizing stack with
  | nil => exact Or.inl member
  | cons segment rest ih =>
      rw [List.foldl_cons] at member
      rcases ih _ member with inStack | ⟨inRest, ordinary⟩
      · unfold cleanStep at inStack
        by_cases empty : segment = [] ∨ segment = dot
        · rw [if_pos empty] at inStack
          exact Or.inl inStack
        rw [if_neg empty] at inStack
        by_cases parent : segment = dotDot
        · rw [if_pos parent] at inStack
          cases stack with
          | nil => simp at inStack
          | cons top tail =>
              simp at inStack
              exact Or.inl (List.mem_cons_of_mem _ inStack)
        · rw [if_neg parent, List.mem_cons] at inStack
          rcases inStack with rfl | old
          · rw [not_or] at empty
            exact Or.inr ⟨List.mem_cons_self, empty.1, empty.2, parent⟩
          · exact Or.inl old
      · exact Or.inr ⟨List.mem_cons_of_mem _ inRest, ordinary⟩

theorem mem_cleanSegments (parts : List GoString) (name : GoString)
    (member : name ∈ cleanSegments true parts) :
    name ∈ parts ∧ name ≠ [] ∧ name ≠ dot ∧ name ≠ dotDot := by
  rw [cleanSegments, List.mem_reverse] at member
  rcases mem_foldl_cleanStep parts [] name member with impossible | ordinary
  · cases impossible
  · exact ordinary

def Ordinary (segment : GoString) : Prop :=
  slash ∉ segment ∧ segment ≠ [] ∧ segment ≠ dot ∧ segment ≠ dotDot

theorem cleanStep_of_ordinary (stack : List GoString) (segment : GoString)
    (ordinary : Ordinary segment) : cleanStep true stack segment = segment :: stack := by
  obtain ⟨-, nonempty, notDot, notDotDot⟩ := ordinary
  rw [cleanStep.eq_def, if_neg (by rw [not_or]; exact ⟨nonempty, notDot⟩), if_neg notDotDot]

/-- Cleaned as a relative path, segments are parent references and then names.  Behind a
rooted path, the first remove as many of its names, and the others are added. -/
theorem foldl_cleanStep_relative (parts : List GoString) :
    ∃ climbed names, parts.foldl (cleanStep false) [] = names ++ List.replicate climbed dotDot ∧
      (∀ name ∈ names, name ≠ dotDot) ∧
      ∀ stack, parts.foldl (cleanStep true) stack = names ++ stack.drop climbed := by
  induction parts using List.reverseRecOn with
  | nil => exact ⟨0, [], rfl, by simp, fun _ => rfl⟩
  | append_singleton parts segment ih =>
      obtain ⟨climbed, names, relative, noParent, rooted⟩ := ih
      simp only [List.foldl_append, List.foldl_cons, List.foldl_nil, relative, rooted]
      by_cases empty : segment = [] ∨ segment = dot
      · refine ⟨climbed, names, ?_, noParent, fun stack => ?_⟩
        · rw [cleanStep.eq_def, if_pos empty]
        · rw [cleanStep.eq_def, if_pos empty]
      simp only [cleanStep.eq_def, if_neg empty]
      by_cases parent : segment = dotDot
      · simp only [if_pos parent]
        cases names with
        | nil =>
            refine ⟨climbed + 1, [], ?_, noParent, fun stack => ?_⟩
            · cases climbed <;> simp [List.replicate_succ]
            · rw [List.nil_append, List.nil_append, ← List.tail_drop]
              cases stack.drop climbed <;> simp
        | cons top rest =>
            rw [List.forall_mem_cons] at noParent
            exact ⟨climbed, rest, by simp [noParent.1], noParent.2, fun stack => by simp⟩
      · simp only [if_neg parent]
        refine ⟨climbed, segment :: names, rfl, ?_, fun stack => rfl⟩
        rw [List.forall_mem_cons]
        exact ⟨parent, noParent⟩

theorem replicate_append_inj {parent : GoString} {climbed own : Nat} {names others : List GoString}
    (noParent : ∀ name ∈ names, name ≠ parent) (first : others.head? ≠ some parent)
    (same : List.replicate climbed parent ++ names = List.replicate own parent ++ others) :
    climbed = own ∧ names = others := by
  induction climbed generalizing own with
  | zero =>
      cases own with
      | zero => exact ⟨rfl, same⟩
      | succ own =>
          rw [List.replicate_zero, List.nil_append, List.replicate_succ, List.cons_append] at same
          exact absurd rfl (noParent parent (same ▸ List.mem_cons_self))
  | succ climbed ih =>
      cases own with
      | zero =>
          rw [List.replicate_zero, List.nil_append, List.replicate_succ, List.cons_append] at same
          rw [← same] at first
          exact absurd rfl first
      | succ own =>
          rw [List.replicate_succ, List.replicate_succ, List.cons_append, List.cons_append] at same
          obtain ⟨rfl, equal⟩ := ih (List.cons.inj same).2
          exact ⟨rfl, equal⟩

/-- Segments that lead from a rooted path to some names below it: cleaned by themselves,
they climb out of the path, come back by its own names, and go on to those names. -/
theorem foldl_cleanStep_eq_iff (parts stack below : List GoString)
    (noParent : ∀ name ∈ stack, name ≠ dotDot) (first : below.head? ≠ some dotDot) :
    parts.foldl (cleanStep true) stack = below.reverse ++ stack ↔
      ∃ climbed, cleanSegments false parts = List.replicate climbed dotDot ++
        (stack.reverse.drop (stack.length - climbed) ++ below) := by
  obtain ⟨own, names, relative, plain, rooted⟩ := foldl_cleanStep_relative parts
  have split : ∀ climbed, (stack.drop climbed).reverse ++
      stack.reverse.drop (stack.length - climbed) = stack.reverse := by
    intro climbed
    rw [List.reverse_drop, List.take_append_drop]
  have isClean : cleanSegments false parts = List.replicate own dotDot ++ names.reverse := by
    rw [cleanSegments, relative, List.reverse_append, List.reverse_replicate]
  have asNames : names ++ stack.drop own = below.reverse ++ stack ↔
      names.reverse = stack.reverse.drop (stack.length - own) ++ below := by
    rw [← List.reverse_inj, List.reverse_append, List.reverse_append, List.reverse_reverse]
    nth_rewrite 1 [← split own]
    rw [List.append_assoc, List.append_cancel_left_eq]
  rw [rooted, asNames, isClean]
  constructor
  · intro same
    exact ⟨own, by rw [same]⟩
  · rintro ⟨climbed, same⟩
    have start : (stack.reverse.drop (stack.length - climbed) ++ below).head? ≠ some dotDot := by
      cases back : stack.reverse.drop (stack.length - climbed) with
      | nil => exact first
      | cons name rest =>
          intro isParent
          have member : name ∈ stack.reverse.drop (stack.length - climbed) := by
            rw [back]
            exact List.mem_cons_self
          exact noParent name (List.mem_reverse.mp (List.mem_of_mem_drop member))
            (Option.some.inj isParent)
    obtain ⟨rfl, equal⟩ := replicate_append_inj
      (fun name member => plain name (List.mem_reverse.mp member)) start same
    exact equal

theorem foldl_cleanStep_empty (parts stack : List GoString)
    (empty : ∀ part ∈ parts, part = []) :
    parts.foldl (cleanStep true) stack = stack := by
  induction parts with
  | nil => rfl
  | cons part rest ih =>
      rw [List.foldl_cons, empty part List.mem_cons_self, cleanStep.eq_def, if_pos (Or.inl rfl)]
      exact ih (fun other member => empty other (List.mem_cons_of_mem _ member))

theorem pathClean_of_rooted (path : GoString) (rooted : isRooted path = true) :
    pathClean path = rootedPath (cleanSegments true (segments path)) := by
  have nonempty : path ≠ [] := by
    intro empty
    rw [empty] at rooted
    cases rooted
  rw [pathClean, if_neg nonempty, if_pos rooted]

theorem pathJoin_of_rooted (base path : GoString)
    (wellFormed : base = [] ∨ isRooted base = true) (rooted : isRooted path = true) :
    pathJoin base path =
      rootedPath (cleanSegments true (segments base ++ segments path)) := by
  have nonempty : path ≠ [] := by
    intro empty
    rw [empty] at rooted
    cases rooted
  rcases wellFormed with rfl | rootedBase
  · rw [pathJoin, if_neg (fun both => nonempty both.2), if_pos rfl,
      pathClean_of_rooted path rooted]
    -- The empty base has one empty segment, which is skipped.
    rfl
  · cases base with
    | nil => cases rootedBase
    | cons head rest =>
        rw [pathJoin, if_neg (fun both => nonempty both.2),
          if_neg (List.cons_ne_nil head rest), pathClean_of_rooted _ (by exact rootedBase),
          segments_append_slash]

theorem hasSuffix_pathClean (path name : GoString) (rooted : isRooted path = true)
    (plain : slash ∉ name) (nonempty : name ≠ []) :
    hasSuffix (pathClean path) (slash :: name) = true ↔
      kept 0 (segments path).reverse = some name := by
  rw [pathClean_of_rooted path rooted, hasSuffix_slash_iff _ name plain,
    ← cleanSegments_getLast?]
  have parts_plain : ∀ part ∈ cleanSegments true (segments path), slash ∉ part :=
    fun part member => not_mem_segments path part (mem_cleanSegments _ part member).1
  cases shape : cleanSegments true (segments path) with
  | nil =>
      -- Nothing is left, and the path is a single slash.
      have both : segments (rootedPath []) = [[], []] := by decide
      rw [both]
      constructor
      · rintro ⟨front, -, ends⟩
        have last := congrArg List.getLast? ends
        rw [List.getLast?_concat] at last
        exact absurd (Option.some.inj last).symm nonempty
      · intro impossible
        cases impossible
  | cons first rest =>
      rw [← shape, segments_rootedPath _ (by rw [shape]; simp) parts_plain]
      constructor
      · rintro ⟨front, front_nonempty, ends⟩
        cases front with
        | nil => exact absurd rfl front_nonempty
        | cons head front =>
            rw [List.cons_append] at ends
            rw [(List.cons.inj ends).2, List.getLast?_concat]
      · intro last
        obtain ⟨front, whole⟩ := List.getLast?_eq_some_iff.mp last
        exact ⟨[] :: front, by simp, by rw [whole]; rfl⟩

end McoaGateway
