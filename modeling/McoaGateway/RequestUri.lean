/-
`url.ParseRequestURI`, and the texts that may stand at one place of a URI.

The parser splits a text into scheme, authority, path and query, and refuses
characters and escapes that are not allowed in a part.  A text with a hole is a
URI for some fillings of the hole and not for others.  Which ones depends on the
part that the hole is in (`placement`), apart from what does not depend on the
filling at all (`accepts_hole`).  What is between brackets in a host is left to
a parameter.
-/

import McoaGateway.Url

namespace McoaGateway

open GoString

/-! ### Bytes -/

def isLetterByte (b : UInt8) : Bool :=
  (byte 'a' ≤ b && b ≤ byte 'z') || (byte 'A' ≤ b && b ≤ byte 'Z')

def isDigitByte (b : UInt8) : Bool :=
  byte '0' ≤ b && b ≤ byte '9'

def isSchemeByte (b : UInt8) : Bool :=
  isLetterByte b || isDigitByte b || (ascii "+-.").contains b

/-- `stringContainsCTLByte` looks for these. -/
def isControlByte (b : UInt8) : Bool :=
  b < 0x20 || b = 0x7F

/-- `validUserinfo` -/
def isUserinfoByte (b : UInt8) : Bool :=
  isLetterByte b || isDigitByte b || (ascii "-._:~!$&'()*+,;=%@").contains b

/-- The characters that need no escape in a host, and those beyond ASCII. -/
def isHostByte (b : UInt8) : Bool :=
  0x80 ≤ b || isLetterByte b || isDigitByte b || (ascii "!$&'()*+,;=:[]<>\"-_.~").contains b

/-! ### `unescape` -/

/-- The parts of a URI in which there are escapes. -/
inductive Component where
  | userinfo
  | host
  | path
deriving DecidableEq, Repr

def Component.permits : Component → UInt8 → Bool
  | .host, b => isHostByte b
  | _, _ => true

/-- In a host only the percent sign and bytes beyond ASCII can be escaped. -/
def Component.forbids (component : Component) (high low highValue : UInt8) : Bool :=
  component = .host && highValue < 8 && [high, low] ≠ ascii "25"

def unescape (component : Component) : GoString → Option GoString
  | [] => some []
  | b :: rest =>
      if b = byte '%' then
        match rest with
        | high :: low :: rest =>
            match hexDigitValue high, hexDigitValue low with
            | some highValue, some lowValue =>
                if component.forbids high low highValue then none
                else (unescape component rest).map fun text => (16 * highValue + lowValue) :: text
            | _, _ => none
        | _ => none
      else if component.permits b then (unescape component rest).map fun text => b :: text
      else none

theorem unescape_path (text : GoString) : unescape .path text = pathUnescape text := by
  fun_induction pathUnescape text with
  | case1 => rfl
  | case2 high low rest highValue lowValue readHigh readLow ih =>
      rw [unescape.eq_def]
      simp [Component.forbids, readHigh, readLow, ih]
  | case3 high low rest bad =>
      rw [unescape.eq_def]
      simp only [if_true]
  | case4 rest short =>
      rw [unescape.eq_def]
      simp only [if_true]
  | case5 b rest notEscape ih =>
      rw [unescape.eq_def]
      simp [notEscape, Component.permits, ih]

/-! ### `parseHost` and `parseAuthority` -/

/-- What stands before the last occurrence of a byte. -/
def beforeLast (b : UInt8) (text : GoString) : GoString :=
  ((text.reverse.dropWhile (· ≠ b)).drop 1).reverse

/-- What stands behind the last occurrence of a byte. -/
def afterLast (b : UInt8) (text : GoString) : GoString :=
  (text.reverse.takeWhile (· ≠ b)).reverse

section

-- A host with an IP address between brackets, decoded.
variable (literal : GoString → Option GoString)

def parseHost (host : GoString) : Option GoString :=
  if host.contains (byte '[') then literal host
  else if (cut (byte ':') host).2.all isDigitByte then unescape .host host
  else none

/-- The user name and the password are decoded on their own. -/
def validUserinfo (userinfo : GoString) : Bool :=
  userinfo.all isUserinfoByte &&
    (unescape .userinfo (cut (byte ':') userinfo).1).isSome &&
    (unescape .userinfo (cut (byte ':') userinfo).2).isSome

/-- The host of an authority; the user information is checked only. -/
def parseAuthority (authority : GoString) : Option GoString :=
  match parseHost literal (afterLast (byte '@') authority) with
  | none => none
  | some host =>
      if authority.contains (byte '@') && !validUserinfo (beforeLast (byte '@') authority) then
        none
      else some host

/-! ### `ParseRequestURI` -/

structure RequestUri where
  scheme : GoString
  /-- `Opaque`: what follows the scheme, when it does not begin with a slash. -/
  rootless : GoString
  host : GoString
  path : GoString
  rawQuery : GoString
deriving DecidableEq, Repr

/-- The scheme and what follows its colon; without a scheme, the whole text. -/
def getScheme (raw : GoString) : Option (GoString × GoString) :=
  match raw.takeWhile isSchemeByte, raw.dropWhile isSchemeByte with
  | [], rest => if rest.head? = some (byte ':') then none else some ([], raw)
  | first :: word, rest =>
      if isLetterByte first && rest.head? = some (byte ':') then
        some (first :: word, rest.drop 1)
      else some ([], raw)

/-- The parts behind the scheme, without the query. -/
def parseHierarchy (scheme rest : GoString) : Option (GoString × GoString × GoString) :=
  if rest.head? ≠ some (byte '/') then
    if scheme ≠ [] then some (rest, [], []) else none
  else if scheme ≠ [] ∧ hasPrefix rest (ascii "//") then
    match parseAuthority literal ((rest.drop 2).takeWhile (· ≠ byte '/')) with
    | none => none
    | some host =>
        (pathUnescape ((rest.drop 2).dropWhile (· ≠ byte '/'))).map fun path => ([], host, path)
  else (pathUnescape rest).map fun path => ([], [], path)

def parseRequestURI (raw : GoString) : Option RequestUri :=
  if raw.any isControlByte then none
  else if raw = [] then none
  else if raw = ascii "*" then some ⟨[], [], [], raw, []⟩
  else
    match getScheme raw with
    | none => none
    | some (scheme, rest) =>
        let scheme := scheme.map toLowerByte
        (parseHierarchy literal scheme (cut (byte '?') rest).1).map
          fun (rootless, host, path) => ⟨scheme, rootless, host, path, (cut (byte '?') rest).2⟩

end

/-! ### Splitting a text with a hole -/

theorem cut_fst (b : UInt8) (text : GoString) : (cut b text).1 = text.takeWhile (· ≠ b) := by
  induction text with
  | nil => rfl
  | cons first rest ih =>
      rw [cut]
      by_cases same : first = b
      · simp [same]
      · simp [same, ih]

theorem cut_snd (b : UInt8) (text : GoString) :
    (cut b text).2 = (text.dropWhile (· ≠ b)).drop 1 := by
  induction text with
  | nil => rfl
  | cons first rest ih =>
      rw [cut]
      by_cases same : first = b
      · simp [same]
      · simp [same, ih]

section

variable {α : Type} (p : α → Bool)

theorem takeWhile_append_stops (first second : List α) (stops : ¬ ∀ a ∈ first, p a = true) :
    (first ++ second).takeWhile p = first.takeWhile p := by
  induction first with
  | nil => exact absurd (fun _ member => (List.not_mem_nil member).elim) stops
  | cons a rest ih =>
      rw [List.cons_append, List.takeWhile_cons, List.takeWhile_cons]
      cases holds : p a with
      | false => rfl
      | true =>
          rw [List.forall_mem_cons, not_and] at stops
          simp only [if_true, ih (stops holds)]

theorem dropWhile_append_stops (first second : List α) (stops : ¬ ∀ a ∈ first, p a = true) :
    (first ++ second).dropWhile p = first.dropWhile p ++ second := by
  induction first with
  | nil => exact absurd (fun _ member => (List.not_mem_nil member).elim) stops
  | cons a rest ih =>
      rw [List.cons_append, List.dropWhile_cons, List.dropWhile_cons]
      cases holds : p a with
      | false => rfl
      | true =>
          rw [List.forall_mem_cons, not_and] at stops
          simp only [if_true, ih (stops holds)]

end

theorem forall_ne_iff (b : UInt8) (text : GoString) :
    (∀ a ∈ text, decide (a ≠ b) = true) ↔ b ∉ text := by
  simp only [decide_eq_true_eq]
  exact ⟨fun all member => all b member rfl, fun absent a member same => absent (same ▸ member)⟩

section

variable (b : UInt8) (first second : GoString)

theorem afterLast_append_right (present : b ∈ second) :
    afterLast b (first ++ second) = afterLast b second := by
  rw [afterLast, List.reverse_append, takeWhile_append_stops, afterLast]
  rw [forall_ne_iff, List.mem_reverse, not_not]
  exact present

theorem afterLast_append_left (absent : b ∉ second) :
    afterLast b (first ++ second) = afterLast b first ++ second := by
  rw [afterLast, List.reverse_append, List.takeWhile_append_of_pos, List.reverse_append,
    List.reverse_reverse, afterLast]
  rw [forall_ne_iff, List.mem_reverse]
  exact absent

theorem beforeLast_append_right (present : b ∈ second) :
    beforeLast b (first ++ second) = first ++ beforeLast b second := by
  have stops : ¬ ∀ a ∈ second.reverse, decide (a ≠ b) = true := by
    rw [forall_ne_iff, List.mem_reverse, not_not]
    exact present
  have nonempty : second.reverse.dropWhile (· ≠ b) ≠ [] := by
    intro isEmpty
    exact stops fun a member => List.dropWhile_eq_nil_iff.mp isEmpty a member
  rw [beforeLast, List.reverse_append, dropWhile_append_stops _ _ _ stops,
    List.drop_append_of_le_length (List.length_pos_iff.mpr nonempty), List.reverse_append,
    List.reverse_reverse, beforeLast]

theorem beforeLast_append_left (absent : b ∉ second) :
    beforeLast b (first ++ second) = beforeLast b first := by
  rw [beforeLast, List.reverse_append, List.dropWhile_append_of_pos, beforeLast]
  rw [forall_ne_iff, List.mem_reverse]
  exact absent

end

/-! ### Escapes around a hole -/

def Component.escapes (component : Component) (high low : UInt8) : Bool :=
  match hexDigitValue high, hexDigitValue low with
  | some highValue, some _ => !component.forbids high low highValue
  | _, _ => false

/-- The beginning of an escape at the end of a text. -/
def openEscape : GoString → GoString
  | [] => []
  | b :: rest =>
      if b = byte '%' then
        match rest with
        | _ :: _ :: rest => openEscape rest
        | short => b :: short
      else openEscape rest

/-- The text is well formed up to an escape that is still open. -/
def closedOk (component : Component) : GoString → Bool
  | [] => true
  | b :: rest =>
      if b = byte '%' then
        match rest with
        | high :: low :: rest => component.escapes high low && closedOk component rest
        | _ => true
      else component.permits b && closedOk component rest

def completes (component : Component) (start following : GoString) : Bool :=
  match start, following with
  | [], _ => true
  | [_], high :: low :: _ => component.escapes high low
  | [_, high], low :: _ => component.escapes high low
  | _, _ => false

section

variable (component : Component)

theorem unescape_escape_isSome (high low : UInt8) (rest : GoString) :
    (unescape component (byte '%' :: high :: low :: rest)).isSome =
      (component.escapes high low && (unescape component rest).isSome) := by
  rw [unescape.eq_def, Component.escapes]
  simp only [if_true]
  cases hexDigitValue high with
  | none => rfl
  | some highValue =>
      cases hexDigitValue low with
      | none => rfl
      | some lowValue =>
          dsimp only
          cases component.forbids high low highValue with
          | true => rfl
          | false => simp

theorem unescape_plain_isSome (b : UInt8) (rest : GoString) (plain : b ≠ byte '%') :
    (unescape component (b :: rest)).isSome =
      (component.permits b && (unescape component rest).isSome) := by
  rw [unescape.eq_def]
  simp only [if_neg plain]
  cases component.permits b with
  | false => rfl
  | true => simp

theorem closedOk_escape (high low : UInt8) (rest : GoString) :
    closedOk component (byte '%' :: high :: low :: rest) =
      (component.escapes high low && closedOk component rest) := by
  rw [closedOk.eq_def]
  exact if_pos rfl

theorem closedOk_plain (b : UInt8) (rest : GoString) (plain : b ≠ byte '%') :
    closedOk component (b :: rest) = (component.permits b && closedOk component rest) := by
  rw [closedOk.eq_def]
  exact if_neg plain

theorem unescape_append_isSome (first second : GoString) :
    (unescape component (first ++ second)).isSome =
      (closedOk component first && (unescape component (openEscape first ++ second)).isSome) := by
  fun_induction openEscape first with
  | case1 => rfl
  | case2 high low rest ih =>
      rw [List.cons_append, List.cons_append, List.cons_append, unescape_escape_isSome, ih,
        closedOk_escape, Bool.and_assoc]
  | case3 rest short =>
      rw [closedOk.eq_def]
      simp only [if_true, Bool.true_and]
  | case4 b rest plain ih =>
      rw [List.cons_append, unescape_plain_isSome _ _ _ plain, ih, closedOk_plain _ _ _ plain,
        Bool.and_assoc]

theorem openEscape_shape (text : GoString) :
    openEscape text = [] ∨ openEscape text = [byte '%'] ∨
      ∃ high, openEscape text = [byte '%', high] := by
  fun_induction openEscape text with
  | case1 => exact Or.inl rfl
  | case2 high low rest ih => exact ih
  | case3 rest short =>
      match rest, short with
      | [], _ => exact Or.inr (Or.inl rfl)
      | [high], _ => exact Or.inr (Or.inr ⟨high, rfl⟩)
      | high :: low :: after, short => exact absurd rfl (short high low after)
  | case4 b rest plain ih => exact ih

theorem unescape_plain_append (plain rest : GoString) (noEscape : byte '%' ∉ plain) :
    (unescape component (plain ++ rest)).isSome =
      (plain.all component.permits && (unescape component rest).isSome) := by
  induction plain with
  | nil => rfl
  | cons b plain ih =>
      rw [List.mem_cons, not_or] at noEscape
      rw [List.cons_append, unescape_plain_isSome _ _ _ (fun same => noEscape.1 same.symm),
        ih noEscape.2, List.all_cons, Bool.and_assoc]

theorem escapes_hex {high low : UInt8} (isEscape : component.escapes high low = true) :
    (hexDigitValue high).isSome = true ∧ (hexDigitValue low).isSome = true := by
  rw [Component.escapes] at isEscape
  cases readHigh : hexDigitValue high with
  | none => simp [readHigh] at isEscape
  | some highValue =>
      cases readLow : hexDigitValue low with
      | none => simp [readHigh, readLow] at isEscape
      | some lowValue => exact ⟨rfl, rfl⟩

theorem hex_permits (b : UInt8) (isHex : (hexDigitValue b).isSome = true) :
    component.permits b = true ∧ b ≠ byte '%' := by
  have bytes := forall_byte
    (fun b => !(hexDigitValue b).isSome || (isHostByte b && b ≠ byte '%')) (by decide +kernel) b
  rw [isHex] at bytes
  simp only [Bool.not_true, Bool.false_or, Bool.and_eq_true, decide_eq_true_eq] at bytes
  refine ⟨?_, bytes.2⟩
  cases component with
  | host => exact bytes.1
  | userinfo => rfl
  | path => rfl

/-- A text with a hole is decoded exactly if its fixed parts are, the filling may
stand for itself, and an escape before the hole is completed. -/
theorem unescape_hole (before fill after : GoString) (nonempty : fill ≠ [])
    (noEscape : byte '%' ∉ fill) :
    (unescape component (before ++ fill ++ after)).isSome =
      ((closedOk component before && (unescape component after).isSome) &&
        (fill.all component.permits &&
          completes component (openEscape before) (fill ++ after))) := by
  rw [List.append_assoc, unescape_append_isSome]
  rcases openEscape_shape before with isOpen | isOpen | ⟨high, isOpen⟩
  · rw [isOpen, List.nil_append, unescape_plain_append _ _ _ noEscape, completes]
    simp only [Bool.and_true]
    ac_rfl
  · -- The escape ends in the filling, or right behind a filling of one byte.
    rw [isOpen]
    match fill, nonempty with
    | [first], _ =>
        cases after with
        | nil => rw [unescape.eq_def]; simp [completes]
        | cons second rest =>
            simp only [List.cons_append, List.nil_append]
            rw [unescape_escape_isSome, completes, List.all_cons, List.all_nil]
            cases isEscape : component.escapes first second with
            | false => simp
            | true =>
                have isFirst := hex_permits component first (escapes_hex component isEscape).1
                have isSecond := hex_permits component second (escapes_hex component isEscape).2
                rw [unescape_plain_isSome _ _ _ isSecond.2, isFirst.1, isSecond.1]
                simp
    | first :: second :: rest, _ =>
        simp only [List.mem_cons, not_or] at noEscape
        simp only [List.cons_append, List.nil_append]
        rw [unescape_escape_isSome, unescape_plain_append _ _ _ noEscape.2.2, completes,
          List.all_cons, List.all_cons]
        cases isEscape : component.escapes first second with
        | false => simp
        | true =>
            rw [(hex_permits component first (escapes_hex component isEscape).1).1,
              (hex_permits component second (escapes_hex component isEscape).2).1]
            simp only [Bool.true_and, Bool.and_true]
            ac_rfl
  · obtain ⟨first, rest, rfl⟩ := List.exists_cons_of_ne_nil nonempty
    rw [List.mem_cons, not_or] at noEscape
    rw [isOpen]
    simp only [List.cons_append, List.nil_append]
    rw [unescape_escape_isSome, unescape_plain_append _ _ _ noEscape.2, completes, List.all_cons]
    cases isEscape : component.escapes high first with
    | false => simp
    | true =>
        rw [(hex_permits component first (escapes_hex component isEscape).2).1]
        simp only [Bool.true_and, Bool.and_true]
        ac_rfl

end

/-! ### The place of a hole -/

/-- The part of a URI that a hole is in, with what surrounds the hole there. -/
inductive Placement where
  | anywhere
  | scheme (before : GoString)
  | userinfo (before after : GoString)
  | host (before after : GoString)
  | port (before after : GoString)
  | literal (before after : GoString)
  | path (before after : GoString)
deriving DecidableEq, Repr

def placementInAuthority (before after : GoString) : Placement :=
  if after.contains (byte '@') then .userinfo before (beforeLast (byte '@') after)
  else
    let host := afterLast (byte '@') before
    if (host ++ after).contains (byte '[') then .literal host after
    else if host.contains (byte ':') then .port host after
    else .host host after

def placementInHierarchy (before after : GoString) : Placement :=
  if before.contains (byte '?') then .anywhere
  else
    let after := after.takeWhile (· ≠ byte '?')
    if hasPrefix before (ascii "//") then
      let authority := before.drop 2
      if authority.contains (byte '/') then
        .path (authority.dropWhile (· ≠ byte '/')) after
      else placementInAuthority authority (after.takeWhile (· ≠ byte '/'))
    else if before.head? = some (byte '/') then .path before after
    else .anywhere

def placement (before after : GoString) : Placement :=
  match before.dropWhile isSchemeByte with
  | [] => .scheme before
  | b :: rest =>
      if b = byte ':' then placementInHierarchy rest after
      else if before.contains (byte '?') then .anywhere
      else .path before (after.takeWhile (· ≠ byte '?'))

def isFillByte (b : UInt8) : Bool :=
  isLetterByte b || isDigitByte b || b = byte '_' || b = byte '-' || b = byte '|'

structure Filling (fill : GoString) : Prop where
  nonempty : fill ≠ []
  bytes : ∀ b ∈ fill, isFillByte b = true

theorem Filling.not_mem {fill : GoString} (filling : Filling fill) (b : UInt8)
    (other : isFillByte b = false) : b ∉ fill := by
  intro member
  rw [filling.bytes b member] at other
  cases other

section

variable (literal : GoString → Option GoString)

def Placement.fits : Placement → GoString → Bool
  | .anywhere, _ => true
  | .scheme before, fill =>
      fill.all isSchemeByte && (before ++ fill).head?.any isLetterByte
  | .userinfo before after, fill =>
      fill.all isUserinfoByte && completes .userinfo (openEscape before) (fill ++ after)
  | .host before after, fill =>
      fill.all isHostByte && completes .host (openEscape before) (fill ++ after)
  | .port before after, fill =>
      fill.all isDigitByte && completes .host (openEscape before) (fill ++ after)
  | .literal before after, fill => (literal (before ++ fill ++ after)).isSome
  | .path before after, fill => completes .path (openEscape before) (fill ++ after)

/-- Whether a text with a hole is accepted is a matter of its fixed parts and of
what fits in the place of the hole. -/
def Determined (accepted : GoString → Bool) (place : Placement) : Prop :=
  ∃ fixed : Bool, ∀ fill, Filling fill → accepted fill = (fixed && place.fits literal fill)

theorem unescape_separator (component : Component) (b : UInt8) (first second : GoString)
    (plain : b ≠ byte '%') (notHex : hexDigitValue b = none)
    (permitted : component.permits b = true) :
    (unescape component (first ++ b :: second)).isSome =
      ((unescape component first).isSome && (unescape component second).isSome) := by
  have whole : (unescape component first).isSome =
      (closedOk component first && (unescape component (openEscape first)).isSome) := by
    have appended := unescape_append_isSome component first []
    rw [List.append_nil, List.append_nil] at appended
    exact appended
  rw [whole, unescape_append_isSome]
  have noEscape : ∀ other, component.escapes b other = false ∧
      component.escapes other b = false := by
    intro other
    rw [Component.escapes, Component.escapes, notHex]
    cases hexDigitValue other with
    | none => exact ⟨rfl, rfl⟩
    | some value => exact ⟨rfl, rfl⟩
  rcases openEscape_shape first with isOpen | isOpen | ⟨high, isOpen⟩
  · rw [isOpen, List.nil_append, unescape_plain_isSome _ _ _ plain, permitted]
    simp [unescape]
  · rw [isOpen]
    cases second with
    | nil => simp [unescape]
    | cons low rest =>
        simp only [List.cons_append, List.nil_append]
        rw [unescape_escape_isSome, (noEscape low).1]
        simp [unescape]
  · rw [isOpen]
    simp only [List.cons_append, List.nil_append]
    rw [unescape_escape_isSome, (noEscape high).2]
    simp [unescape]

theorem cut_append_left (b : UInt8) (first second : GoString) (present : b ∈ first) :
    (cut b (first ++ second)).2 = (cut b first).2 ++ second := by
  have stops : ¬ ∀ a ∈ first, decide (a ≠ b) = true := by
    rw [forall_ne_iff, not_not]
    exact present
  have nonempty : first.dropWhile (· ≠ b) ≠ [] := by
    intro isEmpty
    exact stops fun a member => List.dropWhile_eq_nil_iff.mp isEmpty a member
  rw [cut_snd, cut_snd, dropWhile_append_stops _ _ _ stops,
    List.drop_append_of_le_length (List.length_pos_iff.mpr nonempty)]

theorem cut_append_right (b : UInt8) (first second : GoString) (absent : b ∉ first) :
    (cut b (first ++ second)).2 = (cut b second).2 := by
  rw [cut_snd, cut_snd, List.dropWhile_append_of_pos]
  rw [forall_ne_iff]
  exact absent

theorem cut_of_mem (b : UInt8) (text : GoString) (present : b ∈ text) :
    (cut b text).1 ++ b :: (cut b text).2 = text := by
  induction text with
  | nil => cases present
  | cons first rest ih =>
      rw [cut]
      by_cases same : first = b
      · simp [same]
      · have later := (List.mem_cons.mp present).resolve_left (fun equal => same equal.symm)
        simp [same, ih later]

theorem cut_of_not_mem (b : UInt8) (text : GoString) (absent : b ∉ text) :
    cut b text = (text, []) := by
  induction text with
  | nil => rfl
  | cons first rest ih =>
      rw [List.mem_cons, not_or] at absent
      rw [cut, if_neg (fun same => absent.1 same.symm), ih absent.2]

theorem validUserinfo_eq (userinfo : GoString) :
    validUserinfo userinfo =
      (userinfo.all isUserinfoByte && (unescape .userinfo userinfo).isSome) := by
  rw [validUserinfo, Bool.and_assoc]
  by_cases present : byte ':' ∈ userinfo
  · conv_rhs => rw [← cut_of_mem _ _ present]
    rw [unescape_separator .userinfo (byte ':') _ _ (by decide) (by decide) rfl,
      cut_of_mem _ _ present]
  · rw [cut_of_not_mem _ _ present]
    simp [unescape]

theorem userinfo_determined (before after : GoString) :
    Determined literal (fun fill => validUserinfo (before ++ fill ++ after))
      (.userinfo before after) := by
  refine ⟨before.all isUserinfoByte && after.all isUserinfoByte &&
    (closedOk .userinfo before && (unescape .userinfo after).isSome), ?_⟩
  intro fill filling
  dsimp only
  rw [validUserinfo_eq, unescape_hole _ _ _ _ filling.nonempty (filling.not_mem _ (by decide)),
    List.all_append, List.all_append, Placement.fits]
  have permitted : fill.all (Component.permits .userinfo) = true := by
    rw [List.all_eq_true]
    exact fun _ _ => rfl
  rw [permitted, Bool.true_and]
  ac_rfl

theorem contains_hole (b : UInt8) (before fill after : GoString) (filling : Filling fill)
    (other : isFillByte b = false) :
    (before ++ fill ++ after).contains b = (before ++ after).contains b := by
  have absent := filling.not_mem b other
  rw [Bool.eq_iff_iff, List.contains_iff_mem, List.contains_iff_mem]
  simp only [List.mem_append, absent, or_false]

theorem host_determined (before after : GoString)
    (plain : (before ++ after).contains (byte '[') = false) :
    Determined literal (fun fill => (parseHost literal (before ++ fill ++ after)).isSome)
      (if before.contains (byte ':') then .port before after else .host before after) := by
  have decoded : ∀ fill, Filling fill →
      (parseHost literal (before ++ fill ++ after)).isSome =
        ((cut (byte ':') (before ++ fill ++ after)).2.all isDigitByte &&
          (unescape .host (before ++ fill ++ after)).isSome) := by
    intro fill filling
    rw [parseHost, contains_hole _ _ _ _ filling (by decide), plain]
    cases (cut (byte ':') (before ++ fill ++ after)).2.all isDigitByte with
    | false => rfl
    | true => rfl
  by_cases hasColon : byte ':' ∈ before
  · rw [if_pos (List.contains_iff_mem.mpr hasColon)]
    refine ⟨(cut (byte ':') before).2.all isDigitByte && after.all isDigitByte &&
      (closedOk .host before && (unescape .host after).isSome), ?_⟩
    intro fill filling
    have port : (cut (byte ':') (before ++ fill ++ after)).2 =
        (cut (byte ':') before).2 ++ fill ++ after := by
      rw [List.append_assoc, cut_append_left _ _ _ hasColon, List.append_assoc]
    dsimp only
    rw [decoded fill filling, port,
      unescape_hole _ _ _ _ filling.nonempty (filling.not_mem _ (by decide)),
      List.all_append, List.all_append, Placement.fits]
    cases digits : fill.all isDigitByte with
    | false => simp
    | true =>
        have permitted : fill.all (Component.permits .host) = true := by
          rw [List.all_eq_true] at digits ⊢
          intro b member
          have isHost := forall_byte (fun b => !isDigitByte b || isHostByte b)
            (by decide +kernel) b
          rw [digits b member] at isHost
          exact isHost
        rw [permitted]
        simp only [Bool.true_and, Bool.and_true]
        ac_rfl
  · rw [if_neg (fun found => hasColon (List.contains_iff_mem.mp found))]
    refine ⟨(cut (byte ':') after).2.all isDigitByte &&
      (closedOk .host before && (unescape .host after).isSome), ?_⟩
    intro fill filling
    have noColon : byte ':' ∉ before ++ fill := by
      rw [List.mem_append, not_or]
      exact ⟨hasColon, filling.not_mem _ (by decide)⟩
    dsimp only
    rw [decoded fill filling, cut_append_right _ _ _ noColon,
      unescape_hole _ _ _ _ filling.nonempty (filling.not_mem _ (by decide)), Placement.fits,
      show fill.all (Component.permits .host) = fill.all isHostByte from rfl]
    ac_rfl

theorem parseAuthority_isSome (authority : GoString) :
    (parseAuthority literal authority).isSome =
      ((parseHost literal (afterLast (byte '@') authority)).isSome &&
        (!authority.contains (byte '@') || validUserinfo (beforeLast (byte '@') authority))) := by
  rw [parseAuthority]
  cases parseHost literal (afterLast (byte '@') authority) with
  | none => rfl
  | some host =>
      cases authority.contains (byte '@') with
      | false => rfl
      | true =>
          cases validUserinfo (beforeLast (byte '@') authority) with
          | false => rfl
          | true => rfl

theorem authority_determined (before after : GoString) :
    Determined literal (fun fill => (parseAuthority literal (before ++ fill ++ after)).isSome)
      (placementInAuthority before after) := by
  rw [placementInAuthority]
  by_cases inUserinfo : byte '@' ∈ after
  · rw [if_pos (List.contains_iff_mem.mpr inUserinfo)]
    obtain ⟨fixed, isFixed⟩ := userinfo_determined literal before (beforeLast (byte '@') after)
    refine ⟨(parseHost literal (afterLast (byte '@') after)).isSome && fixed, ?_⟩
    intro fill filling
    have found : (before ++ fill ++ after).contains (byte '@') = true := by
      rw [List.contains_iff_mem, List.mem_append]
      exact Or.inr inUserinfo
    dsimp only at isFixed ⊢
    rw [parseAuthority_isSome, afterLast_append_right _ _ _ inUserinfo,
      beforeLast_append_right _ _ _ inUserinfo, found, isFixed fill filling]
    simp only [Bool.not_true, Bool.false_or]
    ac_rfl
  · rw [if_neg (fun found => inUserinfo (List.contains_iff_mem.mp found))]
    -- The user information is fixed, and the hole is in the host.
    have split : ∀ fill, Filling fill →
        (parseAuthority literal (before ++ fill ++ after)).isSome =
          ((!before.contains (byte '@') || validUserinfo (beforeLast (byte '@') before)) &&
            (parseHost literal (afterLast (byte '@') before ++ fill ++ after)).isSome) := by
      intro fill filling
      have absent : byte '@' ∉ fill ++ after := by
        rw [List.mem_append, not_or]
        exact ⟨filling.not_mem _ (by decide), inUserinfo⟩
      have found : (before ++ fill ++ after).contains (byte '@') =
          before.contains (byte '@') := by
        rw [Bool.eq_iff_iff, List.contains_iff_mem, List.contains_iff_mem, List.append_assoc,
          List.mem_append]
        exact or_iff_left absent
      rw [parseAuthority_isSome, found, List.append_assoc, afterLast_append_left _ _ _ absent,
        beforeLast_append_left _ _ _ absent, ← List.append_assoc]
      ac_rfl
    dsimp only
    cases bracket : (afterLast (byte '@') before ++ after).contains (byte '[') with
    | true =>
        refine ⟨!before.contains (byte '@') || validUserinfo (beforeLast (byte '@') before), ?_⟩
        intro fill filling
        dsimp only
        rw [split fill filling, parseHost, contains_hole _ _ _ _ filling (by decide), bracket]
        rfl
    | false =>
        obtain ⟨fixed, isFixed⟩ :=
          host_determined literal (afterLast (byte '@') before) after bracket
        refine ⟨(!before.contains (byte '@') || validUserinfo (beforeLast (byte '@') before)) &&
          fixed, ?_⟩
        intro fill filling
        dsimp only at isFixed ⊢
        rw [split fill filling, isFixed fill filling, Bool.and_assoc]
        rfl

theorem path_determined (before after : GoString) :
    Determined literal (fun fill => (pathUnescape (before ++ fill ++ after)).isSome)
      (.path before after) := by
  refine ⟨closedOk .path before && (unescape .path after).isSome, ?_⟩
  intro fill filling
  have permitted : fill.all (Component.permits .path) = true := by
    rw [List.all_eq_true]
    exact fun _ _ => rfl
  dsimp only
  rw [← unescape_path,
    unescape_hole _ _ _ _ filling.nonempty (filling.not_mem _ (by decide)), permitted,
    Bool.true_and, Placement.fits]

theorem fixed_determined (fixed : Bool) : Determined literal (fun _ => fixed) .anywhere :=
  ⟨fixed, fun _ _ => (Bool.and_true fixed).symm⟩

theorem Determined.and {accepted : GoString → Bool} {place : Placement} (fixed : Bool)
    (determined : Determined literal accepted place) :
    Determined literal (fun fill => fixed && accepted fill) place := by
  obtain ⟨own, isOwn⟩ := determined
  refine ⟨fixed && own, ?_⟩
  intro fill filling
  dsimp only
  rw [isOwn fill filling, Bool.and_assoc]

theorem Determined.congr {accepted other : GoString → Bool} {place : Placement}
    (determined : Determined literal accepted place)
    (same : ∀ fill, Filling fill → other fill = accepted fill) :
    Determined literal other place := by
  obtain ⟨own, isOwn⟩ := determined
  exact ⟨own, fun fill filling => (same fill filling).trans (isOwn fill filling)⟩

theorem parseHierarchy_isSome (scheme rest : GoString) :
    (parseHierarchy literal scheme rest).isSome =
      if rest.head? ≠ some (byte '/') then decide (scheme ≠ [])
      else if scheme ≠ [] ∧ hasPrefix rest (ascii "//") then
        (parseAuthority literal ((rest.drop 2).takeWhile (· ≠ byte '/'))).isSome &&
          (pathUnescape ((rest.drop 2).dropWhile (· ≠ byte '/'))).isSome
      else (pathUnescape rest).isSome := by
  rw [parseHierarchy]
  split
  · by_cases hasScheme : scheme ≠ []
    · simp [hasScheme]
    · simp [hasScheme]
  · split
    · cases parseAuthority literal ((rest.drop 2).takeWhile (· ≠ byte '/')) with
      | none => rfl
      | some host => simp
    · simp

theorem hasPrefix_slashes (text : GoString) :
    hasPrefix text (ascii "//") = true ↔ ∃ rest, text = byte '/' :: byte '/' :: rest := by
  rw [hasPrefix, List.isPrefixOf_iff_prefix]
  constructor
  · rintro ⟨rest, isText⟩
    exact ⟨rest, isText.symm⟩
  · rintro ⟨rest, rfl⟩
    exact ⟨rest, rfl⟩

theorem Filling.head (fill rest : GoString) (filling : Filling fill) :
    ∃ first others, fill ++ rest = first :: others ∧ first ≠ byte '/' := by
  obtain ⟨first, others, rfl⟩ := List.exists_cons_of_ne_nil filling.nonempty
  refine ⟨first, others ++ rest, rfl, ?_⟩
  intro isSlash
  exact filling.not_mem (byte '/') (by decide) (isSlash ▸ List.mem_cons_self)

theorem unqueried_determined (scheme before after : GoString) (hasScheme : scheme ≠ []) :
    Determined literal
      (fun fill => (parseHierarchy literal scheme (before ++ fill ++ after)).isSome)
      (if hasPrefix before (ascii "//") then
        if (before.drop 2).contains (byte '/') then
          .path ((before.drop 2).dropWhile (· ≠ byte '/')) after
        else placementInAuthority (before.drop 2) (after.takeWhile (· ≠ byte '/'))
      else if before.head? = some (byte '/') then .path before after
      else .anywhere) := by
  by_cases hasAuthority : hasPrefix before (ascii "//") = true
  · obtain ⟨authority, rfl⟩ := (hasPrefix_slashes before).mp hasAuthority
    rw [if_pos hasAuthority]
    have parts : ∀ fill,
        (parseHierarchy literal scheme
            (byte '/' :: byte '/' :: authority ++ fill ++ after)).isSome =
          ((parseAuthority literal
              ((authority ++ fill ++ after).takeWhile (· ≠ byte '/'))).isSome &&
            (pathUnescape ((authority ++ fill ++ after).dropWhile (· ≠ byte '/'))).isSome) := by
      intro fill
      have isRooted : ¬ (byte '/' :: byte '/' :: authority ++ fill ++ after).head? ≠
          some (byte '/') := not_not.mpr rfl
      have doubled : hasPrefix (byte '/' :: byte '/' :: authority ++ fill ++ after)
          (ascii "//") = true := (hasPrefix_slashes _).mpr ⟨_, rfl⟩
      rw [parseHierarchy_isSome, if_neg isRooted, if_pos ⟨hasScheme, doubled⟩]
      rfl
    rw [show (byte '/' :: byte '/' :: authority).drop 2 = authority from rfl]
    by_cases inPath : byte '/' ∈ authority
    · rw [if_pos (List.contains_iff_mem.mpr inPath)]
      have stops : ¬ ∀ a ∈ authority, decide (a ≠ byte '/') = true := by
        rw [forall_ne_iff, not_not]
        exact inPath
      refine ((path_determined literal (authority.dropWhile (· ≠ byte '/')) after).and literal
        (parseAuthority literal (authority.takeWhile (· ≠ byte '/'))).isSome).congr literal ?_
      intro fill _
      rw [parts, List.append_assoc, takeWhile_append_stops _ _ _ stops,
        dropWhile_append_stops _ _ _ stops, List.append_assoc]
    · rw [if_neg (fun found => inPath (List.contains_iff_mem.mp found))]
      refine ((authority_determined literal authority
        (after.takeWhile (· ≠ byte '/'))).and literal
          (pathUnescape (after.dropWhile (· ≠ byte '/'))).isSome).congr literal ?_
      intro fill filling
      have goesOn : ∀ a ∈ authority ++ fill, decide (a ≠ byte '/') = true := by
        rw [forall_ne_iff, List.mem_append, not_or]
        exact ⟨inPath, filling.not_mem _ (by decide)⟩
      rw [parts, List.takeWhile_append_of_pos goesOn, List.dropWhile_append_of_pos goesOn,
        Bool.and_comm]
  · rw [if_neg hasAuthority]
    by_cases isRooted : before.head? = some (byte '/')
    · rw [if_pos isRooted]
      refine (path_determined literal before after).congr literal ?_
      intro fill filling
      obtain ⟨rest, rfl⟩ := List.head?_eq_some_iff.mp isRooted
      have single : hasPrefix (byte '/' :: rest ++ fill ++ after) (ascii "//") ≠ true := by
        intro doubled
        obtain ⟨others, isText⟩ := (hasPrefix_slashes _).mp doubled
        cases rest with
        | nil =>
            obtain ⟨first, following, isFill, notSlash⟩ := Filling.head fill after filling
            rw [List.append_assoc, isFill] at isText
            exact notSlash (List.cons.inj (List.cons.inj isText).2).1
        | cons second third =>
            apply hasAuthority
            rw [hasPrefix_slashes]
            exact ⟨third, by rw [(List.cons.inj (List.cons.inj isText).2).1]⟩
      have rooted : ¬ (byte '/' :: rest ++ fill ++ after).head? ≠ some (byte '/') :=
        not_not.mpr rfl
      rw [parseHierarchy_isSome, if_neg rooted, if_neg (fun both => single both.2)]
    · rw [if_neg isRooted]
      refine (fixed_determined literal true).congr literal ?_
      intro fill filling
      have unrooted : (before ++ fill ++ after).head? ≠ some (byte '/') := by
        cases before with
        | nil =>
            obtain ⟨first, following, isFill, notSlash⟩ := Filling.head fill after filling
            rw [List.nil_append, isFill]
            exact fun same => notSlash (Option.some.inj same)
        | cons first rest => exact isRooted
      rw [parseHierarchy_isSome, if_pos unrooted, decide_eq_true hasScheme]

theorem hierarchy_determined (scheme before after : GoString) (hasScheme : scheme ≠ []) :
    Determined literal (fun fill =>
        (parseHierarchy literal scheme (cut (byte '?') (before ++ fill ++ after)).1).isSome)
      (placementInHierarchy before after) := by
  rw [placementInHierarchy]
  by_cases inQuery : byte '?' ∈ before
  · rw [if_pos (List.contains_iff_mem.mpr inQuery)]
    refine (fixed_determined literal
      (parseHierarchy literal scheme (cut (byte '?') before).1).isSome).congr literal ?_
    intro fill _
    rw [cut_fst, cut_fst, List.append_assoc, takeWhile_append_stops]
    rw [forall_ne_iff, not_not]
    exact inQuery
  · rw [if_neg (fun found => inQuery (List.contains_iff_mem.mp found))]
    refine (unqueried_determined literal scheme before (after.takeWhile (· ≠ byte '?'))
      hasScheme).congr literal ?_
    intro fill filling
    rw [cut_fst, List.takeWhile_append_of_pos]
    rw [forall_ne_iff, List.mem_append, not_or]
    exact ⟨inQuery, filling.not_mem _ (by decide)⟩

/-! ### The whole text -/

def accepts (raw : GoString) : Bool :=
  (parseRequestURI literal raw).isSome

theorem accepts_hole_eq (before fill after : GoString) (filling : Filling fill) :
    accepts literal (before ++ fill ++ after) =
      (!(before ++ after).any isControlByte &&
        (getScheme (before ++ fill ++ after)).any fun (scheme, rest) =>
          (parseHierarchy literal (scheme.map toLowerByte) (cut (byte '?') rest).1).isSome) := by
  obtain ⟨first, rest, isFill⟩ := List.exists_cons_of_ne_nil filling.nonempty
  have noControl : fill.any isControlByte = false := by
    rw [List.any_eq_false]
    intro b member isControl
    have bytes := forall_byte (fun b => !isFillByte b || !isControlByte b) (by decide +kernel) b
    rw [filling.bytes b member, isControl] at bytes
    cases bytes
  have nonempty : before ++ fill ++ after ≠ [] := by
    rw [isFill]
    simp
  have notStar : before ++ fill ++ after ≠ ascii "*" := by
    intro isStar
    have member : first ∈ ascii "*" := by
      rw [← isStar, isFill]
      simp
    have isFirst : first = byte '*' := List.mem_singleton.mp member
    exact filling.not_mem (byte '*') (by decide) (by rw [isFill, isFirst]; exact List.mem_cons_self)
  have controls : (before ++ fill ++ after).any isControlByte =
      (before ++ after).any isControlByte := by
    rw [List.any_append, List.any_append, List.any_append, noControl, Bool.or_false]
  rw [accepts, parseRequestURI, controls]
  cases (before ++ after).any isControlByte with
  | true => rfl
  | false =>
      rw [if_neg Bool.false_ne_true, if_neg nonempty, if_neg notStar]
      cases getScheme (before ++ fill ++ after) with
      | none => rfl
      | some parts => simp

theorem unrooted_refused (raw : GoString) (unrooted : raw.head? ≠ some (byte '/')) :
    (parseHierarchy literal [] (cut (byte '?') raw).1).isSome = false := by
  have stillUnrooted : (cut (byte '?') raw).1.head? ≠ some (byte '/') := by
    rw [cut_fst]
    cases raw with
    | nil => exact unrooted
    | cons first rest =>
        rw [List.takeWhile_cons]
        split
        · exact unrooted
        · simp
  rw [parseHierarchy_isSome, if_pos stillUnrooted]
  rfl

theorem rooted_isSome (raw : GoString) (rooted : raw.head? = some (byte '/')) :
    (parseHierarchy literal [] (cut (byte '?') raw).1).isSome =
      (pathUnescape (cut (byte '?') raw).1).isSome := by
  obtain ⟨rest, rfl⟩ := List.head?_eq_some_iff.mp rooted
  have stillRooted : ¬ (cut (byte '?') (byte '/' :: rest)).1.head? ≠ some (byte '/') := by
    rw [cut, if_neg (by decide)]
    exact not_not.mpr rfl
  rw [parseHierarchy_isSome, if_neg stillRooted, if_neg (fun both => both.1 rfl)]

theorem parseHierarchy_scheme (scheme rest : GoString) (hasScheme : scheme ≠ []) :
    (parseHierarchy literal scheme rest).isSome =
      (parseHierarchy literal (ascii "a") rest).isSome := by
  rw [parseHierarchy_isSome, parseHierarchy_isSome]
  have other : ascii "a" ≠ [] := by decide
  simp only [hasScheme, other, ne_eq, not_false_eq_true, decide_true, true_and]

theorem schemeByte_ne_slash (b : UInt8) (isScheme : isSchemeByte b = true) : b ≠ byte '/' := by
  rintro rfl
  exact absurd isScheme (by decide)

theorem scheme_determined (before after : GoString)
    (isScheme : ∀ b ∈ before, isSchemeByte b = true) :
    Determined literal (fun fill =>
        (getScheme (before ++ fill ++ after)).any fun (scheme, rest) =>
          (parseHierarchy literal (scheme.map toLowerByte) (cut (byte '?') rest).1).isSome)
      (.scheme before) := by
  refine ⟨(after.dropWhile isSchemeByte).head? = some (byte ':') &&
    (parseHierarchy literal (ascii "a")
      (cut (byte '?') ((after.dropWhile isSchemeByte).drop 1)).1).isSome, ?_⟩
  intro fill filling
  obtain ⟨first, others, isWord, notSlash⟩ :
      ∃ first others, before ++ fill = first :: others ∧ first ≠ byte '/' := by
    cases before with
    | nil =>
        obtain ⟨first, others, isFill, notSlash⟩ := Filling.head fill [] filling
        exact ⟨first, others, by rw [List.nil_append, ← isFill, List.append_nil], notSlash⟩
    | cons first others =>
        exact ⟨first, others ++ fill, rfl,
          schemeByte_ne_slash first (isScheme first List.mem_cons_self)⟩
  have unrooted : (before ++ fill ++ after).head? ≠ some (byte '/') := by
    rw [isWord]
    exact fun same => notSlash (Option.some.inj same)
  have refused := unrooted_refused literal _ unrooted
  dsimp only
  cases allScheme : fill.all isSchemeByte with
  | false =>
      -- The first other byte of the filling is not the colon.
      have stops : ¬ ∀ b ∈ fill, isSchemeByte b = true := by
        rw [← List.all_eq_true, allScheme]
        exact Bool.false_ne_true
      have noColon : ((before ++ fill ++ after).dropWhile isSchemeByte).head? ≠
          some (byte ':') := by
        rw [List.append_assoc, List.dropWhile_append_of_pos isScheme,
          dropWhile_append_stops _ _ _ stops]
        cases isRest : fill.dropWhile isSchemeByte with
        | nil => exact absurd (List.dropWhile_eq_nil_iff.mp isRest) stops
        | cons b rest =>
            intro isColon
            have member : b ∈ fill := (List.dropWhile_sublist isSchemeByte).subset
              (isRest ▸ List.mem_cons_self)
            rw [Option.some.inj isColon] at member
            exact filling.not_mem (byte ':') (by decide) member
      have noScheme : getScheme (before ++ fill ++ after) =
          some ([], before ++ fill ++ after) := by
        rw [getScheme]
        generalize (before ++ fill ++ after).dropWhile isSchemeByte = rest at noColon ⊢
        cases (before ++ fill ++ after).takeWhile isSchemeByte with
        | nil =>
            dsimp only
            rw [if_neg noColon]
        | cons first word =>
            dsimp only
            rw [if_neg (by simp [noColon])]
      rw [noScheme, Placement.fits, allScheme, Option.any_some]
      dsimp only
      rw [List.map_nil, refused]
      simp
  | true =>
      have goesOn : ∀ b ∈ before ++ fill, isSchemeByte b = true := by
        rw [List.forall_mem_append]
        exact ⟨isScheme, List.all_eq_true.mp allScheme⟩
      rw [Placement.fits, allScheme, getScheme, List.takeWhile_append_of_pos goesOn,
        List.dropWhile_append_of_pos goesOn, isWord, List.cons_append, List.head?_cons,
        Option.any_some]
      dsimp only
      cases isLetter : isLetterByte first with
      | false =>
          rw [if_neg (by simp), Option.any_some]
          dsimp only
          rw [isWord] at refused
          rw [List.map_nil, refused]
          simp
      | true =>
          by_cases hasColon : (after.dropWhile isSchemeByte).head? = some (byte ':')
          · rw [if_pos (by simp [hasColon]), Option.any_some]
            dsimp only
            rw [parseHierarchy_scheme _ _ _ (by simp)]
            simp [hasColon]
          · rw [if_neg (by simp [hasColon]), Option.any_some]
            dsimp only
            rw [isWord] at refused
            rw [List.map_nil, refused]
            simp [hasColon]

theorem schemeless_determined (before after : GoString) (nonempty : before ≠ []) :
    Determined literal (fun fill =>
        (parseHierarchy literal [] (cut (byte '?') (before ++ fill ++ after)).1).isSome)
      (if before.contains (byte '?') then .anywhere
        else .path before (after.takeWhile (· ≠ byte '?'))) := by
  obtain ⟨first, others, rfl⟩ := List.exists_cons_of_ne_nil nonempty
  by_cases isSlash : first = byte '/'
  · have decoded : ∀ fill, (parseHierarchy literal []
          (cut (byte '?') (first :: others ++ fill ++ after)).1).isSome =
        (pathUnescape (cut (byte '?') (first :: others ++ fill ++ after)).1).isSome := by
      intro fill
      exact rooted_isSome literal _ (by rw [isSlash]; rfl)
    by_cases inQuery : byte '?' ∈ first :: others
    · rw [if_pos (List.contains_iff_mem.mpr inQuery)]
      refine (fixed_determined literal
        (pathUnescape (cut (byte '?') (first :: others)).1).isSome).congr literal ?_
      intro fill _
      rw [decoded, cut_fst, cut_fst, List.append_assoc, takeWhile_append_stops]
      rw [forall_ne_iff, not_not]
      exact inQuery
    · rw [if_neg (fun found => inQuery (List.contains_iff_mem.mp found))]
      refine (path_determined literal (first :: others)
        (after.takeWhile (· ≠ byte '?'))).congr literal ?_
      intro fill filling
      rw [decoded, cut_fst, List.takeWhile_append_of_pos]
      rw [forall_ne_iff, List.mem_append, not_or]
      exact ⟨inQuery, filling.not_mem _ (by decide)⟩
  · refine ⟨false, ?_⟩
    intro fill _
    exact unrooted_refused literal _ (fun same => isSlash (Option.some.inj same))

/-- A text with a hole is a URI exactly if its fixed parts are those of one and
the filling fits in the place of the hole. -/
theorem accepts_hole (before after : GoString) :
    Determined literal (fun fill => accepts literal (before ++ fill ++ after))
      (placement before after) := by
  refine Determined.congr literal (Determined.and literal (!(before ++ after).any isControlByte) ?_)
    (fun fill filling => accepts_hole_eq literal before fill after filling)
  rw [placement]
  cases isRest : before.dropWhile isSchemeByte with
  | nil => exact scheme_determined literal before after (List.dropWhile_eq_nil_iff.mp isRest)
  | cons b rest =>
      have stops : ¬ ∀ a ∈ before, isSchemeByte a = true := by
        intro all
        rw [List.dropWhile_eq_nil_iff.mpr all] at isRest
        cases isRest
      have nonempty : before ≠ [] := by
        rintro rfl
        cases isRest
      have parts : ∀ fill, getScheme (before ++ fill ++ after) =
          match before.takeWhile isSchemeByte with
          | [] => if b = byte ':' then none else some ([], before ++ fill ++ after)
          | first :: word =>
              if isLetterByte first && b = byte ':' then
                some (first :: word, rest ++ fill ++ after)
              else some ([], before ++ fill ++ after) := by
        intro fill
        rw [getScheme, List.append_assoc, takeWhile_append_stops _ _ _ stops,
          dropWhile_append_stops _ _ _ stops, isRest]
        cases before.takeWhile isSchemeByte with
        | nil => simp
        | cons first word => simp
      dsimp only
      by_cases isColon : b = byte ':'
      · rw [if_pos isColon]
        cases isWord : before.takeWhile isSchemeByte with
        | nil =>
            refine ⟨false, fun fill _ => ?_⟩
            dsimp only
            rw [parts, isWord]
            dsimp only
            rw [if_pos isColon]
            rfl
        | cons first word =>
            cases isLetter : isLetterByte first with
            | false =>
                refine ⟨false, fun fill _ => ?_⟩
                have unrooted : (before ++ fill ++ after).head? ≠ some (byte '/') := by
                  cases before with
                  | nil => exact absurd rfl nonempty
                  | cons own others =>
                      rw [List.takeWhile_cons] at isWord
                      split at isWord
                      · rename_i isScheme
                        exact fun same =>
                          schemeByte_ne_slash own isScheme (Option.some.inj same)
                      · cases isWord
                dsimp only
                rw [parts, isWord]
                dsimp only
                rw [isLetter, if_neg (by simp), Option.any_some]
                exact unrooted_refused literal _ unrooted
            | true =>
                refine (hierarchy_determined literal ((first :: word).map toLowerByte) rest after
                  (by simp)).congr literal ?_
                intro fill _
                rw [parts, isWord]
                dsimp only
                rw [isLetter, if_pos (by simp [isColon]), Option.any_some]
      · rw [if_neg isColon]
        refine (schemeless_determined literal before after nonempty).congr literal ?_
        intro fill _
        rw [parts]
        cases before.takeWhile isSchemeByte with
        | nil =>
            dsimp only
            rw [if_neg isColon, Option.any_some]
            rfl
        | cons first word =>
            dsimp only
            rw [if_neg (by simp [isColon]), Option.any_some]
            rfl

end

end McoaGateway
