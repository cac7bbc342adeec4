/-
Byte strings in the manner of Go.

A Go string is an arbitrary byte sequence, not necessarily valid UTF-8, and
the gateway cuts, trims and compares such sequences.  This file gives the
operations of package `strings` that it uses.  It does not decode runes in
general: white space is recognised by its encodings.
-/

import Mathlib.Data.List.Basic
import Mathlib.Data.List.Infix

namespace McoaGateway

abbrev GoString := List UInt8

namespace GoString

def ascii (literal : String) : GoString :=
  literal.toList.map fun character => UInt8.ofNat character.toNat

def byte (character : Char) : UInt8 :=
  UInt8.ofNat character.toNat

theorem forall_byte (check : UInt8 → Bool)
    (checked : (List.range 256).all (fun code => check (UInt8.ofNat code)) = true)
    (b : UInt8) : check b = true := by
  rw [List.all_eq_true] at checked
  have own := checked b.toNat (List.mem_range.mpr b.toNat_lt)
  rwa [UInt8.ofNat_toNat] at own

/-! ### `strings.Split`, `Join`, `HasPrefix` and `HasSuffix` -/

def split (separator : UInt8) (text : GoString) : List GoString :=
  text.splitOn separator

def join (separator : UInt8) (parts : List GoString) : GoString :=
  [separator].intercalate parts

def hasSuffix (text suffix : GoString) : Bool :=
  suffix.isSuffixOf text

def hasPrefix (text start : GoString) : Bool :=
  start.isPrefixOf text

@[simp] theorem join_split (separator : UInt8) (text : GoString) :
    join separator (split separator text) = text :=
  List.intercalate_splitOn separator

theorem split_join (separator : UInt8) (parts : List GoString)
    (nonempty : parts ≠ [])
    (separated : ∀ part ∈ parts, separator ∉ part) :
    split separator (join separator parts) = parts :=
  List.splitOn_intercalate separator separated nonempty

theorem split_of_not_mem (separator : UInt8) (text : GoString)
    (absent : separator ∉ text) :
    split separator text = [text] :=
  List.splitOn_eq_singleton absent

theorem join_cons_cons (separator : UInt8) (first second : GoString) (rest : List GoString) :
    join separator (first :: second :: rest) =
      first ++ separator :: join separator (second :: rest) := by
  simp [join, List.intercalate_cons_cons]

theorem mem_join (separator : UInt8) (parts : List GoString) (b : UInt8)
    (member : b ∈ join separator parts) : b = separator ∨ ∃ part ∈ parts, b ∈ part := by
  induction parts with
  | nil => cases member
  | cons first rest ih =>
      cases rest with
      | nil =>
          refine Or.inr ⟨first, List.mem_cons_self, ?_⟩
          simpa [join] using member
      | cons second rest =>
          rw [join_cons_cons, List.mem_append, List.mem_cons] at member
          rcases member with inFirst | isSeparator | inRest
          · exact Or.inr ⟨first, List.mem_cons_self, inFirst⟩
          · exact Or.inl isSeparator
          · rcases ih inRest with isSeparator | ⟨part, isPart, inPart⟩
            · exact Or.inl isSeparator
            · exact Or.inr ⟨part, List.mem_cons_of_mem _ isPart, inPart⟩

def stringLe : GoString → GoString → Bool
  | [], _ => true
  | _ :: _, [] => false
  | a :: left, b :: right => a < b || (a = b && stringLe left right)

def toLowerByte (b : UInt8) : UInt8 :=
  if byte 'A' ≤ b && b ≤ byte 'Z' then b + 32 else b

/-- `strconv.Itoa` for the numbers that are not negative. -/
def itoa (n : Nat) : GoString :=
  (Nat.toDigits 10 n).map fun digit => UInt8.ofNat digit.toNat

/-! ### `strings.TrimSpace` -/

/-- The UTF-8 encodings of the runes for which `unicode.IsSpace` holds. -/
def spaceRunes : List GoString :=
  [[0x09], [0x0A], [0x0B], [0x0C], [0x0D], [0x20],
    [0xC2, 0x85], [0xC2, 0xA0], [0xE1, 0x9A, 0x80],
    [0xE2, 0x80, 0x80], [0xE2, 0x80, 0x81], [0xE2, 0x80, 0x82],
    [0xE2, 0x80, 0x83], [0xE2, 0x80, 0x84], [0xE2, 0x80, 0x85],
    [0xE2, 0x80, 0x86], [0xE2, 0x80, 0x87], [0xE2, 0x80, 0x88],
    [0xE2, 0x80, 0x89], [0xE2, 0x80, 0x8A], [0xE2, 0x80, 0xA8],
    [0xE2, 0x80, 0xA9], [0xE2, 0x80, 0xAF], [0xE2, 0x81, 0x9F],
    [0xE3, 0x80, 0x80]]

/-- Remove the given encodings from the front while one of them is there.  No
encoding is empty, so the length of the text bounds the number of rounds. -/
def dropRunes (runes : List GoString) : Nat → GoString → GoString
  | 0, text => text
  | rounds + 1, text =>
      match runes.find? (fun rune => rune.isPrefixOf text) with
      | some rune => dropRunes runes rounds (text.drop rune.length)
      | none => text

def trimSpace (text : GoString) : GoString :=
  let trimmed := dropRunes spaceRunes text.length text
  -- The last rune is found by its encoding read backwards.
  (dropRunes (spaceRunes.map List.reverse) trimmed.length trimmed.reverse).reverse

theorem dropRunes_of_not_prefix (runes : List GoString) (rounds : Nat)
    (text : GoString) (absent : ∀ rune ∈ runes, ¬ rune <+: text) :
    dropRunes runes rounds text = text := by
  cases rounds with
  | zero => rfl
  | succ rounds =>
      have notFound :
          runes.find? (fun rune => rune.isPrefixOf text) = none := by
        rw [List.find?_eq_none]
        intro rune member isStart
        exact absent rune member (List.isPrefixOf_iff_prefix.mp isStart)
      rw [dropRunes, notFound]

private theorem not_prefix_of_forall_not_mem (rune text : GoString)
    (nonempty : rune ≠ []) (absent : ∀ byte ∈ rune, byte ∉ text) :
    ¬ rune <+: text := by
  intro isStart
  obtain ⟨first, inRune⟩ := List.exists_mem_of_ne_nil rune nonempty
  exact absent first inRune (isStart.subset inRune)

theorem trimSpace_eq_self (text : GoString)
    (noSpace : ∀ byte ∈ text, byte ∉ spaceRunes.flatten) :
    trimSpace text = text := by
  have nonempty : ∀ rune ∈ spaceRunes, rune ≠ [] := by decide
  have front :
      dropRunes spaceRunes text.length text = text := by
    refine dropRunes_of_not_prefix _ _ _ ?_
    intro rune member
    refine not_prefix_of_forall_not_mem rune text (nonempty rune member) ?_
    intro byte inRune inText
    exact noSpace byte inText (List.mem_flatten_of_mem member inRune)
  have back :
      dropRunes (spaceRunes.map List.reverse) text.length text.reverse =
        text.reverse := by
    refine dropRunes_of_not_prefix _ _ _ ?_
    intro reversed member
    obtain ⟨rune, inRunes, rfl⟩ := List.mem_map.mp member
    refine not_prefix_of_forall_not_mem _ _ ?_ ?_
    · simpa using nonempty rune inRunes
    · intro byte inRune inText
      exact noSpace byte (List.mem_reverse.mp inText)
        (List.mem_flatten_of_mem inRunes (List.mem_reverse.mp inRune))
  simp only [trimSpace, front, back, List.reverse_reverse]

end GoString

end McoaGateway
