/-
UTF-8 in the manner of package `unicode/utf8`.

A rune is a natural number.  `decodeRune` reads the first rune of a text and
the number of bytes it takes; bytes that start no encoding read as
`runeError` of width one.  `decodeRune_cases` lists the three ways in which a
non-empty text can start.  Membership in the Unicode classes outside ASCII is a
parameter.
-/

import McoaGateway.GoString

namespace McoaGateway

open GoString

def runeError : Nat := 0xFFFD

def ValidRune (r : Nat) : Prop :=
  r < 0xD800 ∨ 0xE000 ≤ r ∧ r ≤ 0x10FFFF

def encodeRune (r : Nat) : GoString :=
  if r < 0x80 then [UInt8.ofNat r]
  else if r < 0x800 then [UInt8.ofNat (0xC0 + r / 64), UInt8.ofNat (0x80 + r % 64)]
  else if 0xD800 ≤ r && r < 0xE000 || 0x10FFFF < r then [0xEF, 0xBF, 0xBD]
  else if r < 0x10000 then
    [UInt8.ofNat (0xE0 + r / 4096), UInt8.ofNat (0x80 + r / 64 % 64),
      UInt8.ofNat (0x80 + r % 64)]
  else
    [UInt8.ofNat (0xF0 + r / 262144), UInt8.ofNat (0x80 + r / 4096 % 64),
      UInt8.ofNat (0x80 + r / 64 % 64), UInt8.ofNat (0x80 + r % 64)]

def isTailByte (b : UInt8) : Bool :=
  0x80 ≤ b.toNat && b.toNat ≤ 0xBF

/-- The range of the second byte depends on the first one. -/
def isSecondByte (lead b : UInt8) : Bool :=
  (if lead.toNat = 0xE0 then 0xA0 else if lead.toNat = 0xF0 then 0x90 else 0x80) ≤
      b.toNat &&
    b.toNat ≤
      (if lead.toNat = 0xED then 0x9F else if lead.toNat = 0xF4 then 0x8F else 0xBF)

def decodeRune : GoString → Nat × Nat
  | [] => (runeError, 0)
  | a :: rest =>
      if a.toNat < 0x80 then (a.toNat, 1)
      else if a.toNat < 0xC2 then (runeError, 1)
      else if a.toNat < 0xE0 then
        match rest with
        | b :: _ =>
            if isTailByte b then ((a.toNat - 0xC0) * 64 + (b.toNat - 0x80), 2)
            else (runeError, 1)
        | _ => (runeError, 1)
      else if a.toNat < 0xF0 then
        match rest with
        | b :: c :: _ =>
            if isSecondByte a b && isTailByte c then
              ((a.toNat - 0xE0) * 4096 + (b.toNat - 0x80) * 64 + (c.toNat - 0x80), 3)
            else (runeError, 1)
        | _ => (runeError, 1)
      else if a.toNat < 0xF5 then
        match rest with
        | b :: c :: d :: _ =>
            if isSecondByte a b && isTailByte c && isTailByte d then
              ((a.toNat - 0xF0) * 262144 + (b.toNat - 0x80) * 4096 +
                (c.toNat - 0x80) * 64 + (d.toNat - 0x80), 4)
            else (runeError, 1)
        | _ => (runeError, 1)
      else (runeError, 1)

/-- Each round of `utf8.ValidString` takes at least one byte. -/
def validRounds : Nat → GoString → Bool
  | 0, text => text.isEmpty
  | _ + 1, [] => true
  | rounds + 1, b :: rest =>
      decodeRune (b :: rest) != (runeError, 1) &&
        validRounds rounds ((b :: rest).drop (decodeRune (b :: rest)).2)

def validString (text : GoString) : Bool :=
  validRounds text.length text

theorem validString_ascii (text : GoString) (isAscii : ∀ b ∈ text, b.toNat < 0x80) :
    validString text = true := by
  induction text with
  | nil => rfl
  | cons b rest ih =>
      rw [List.forall_mem_cons] at isAscii
      have decoded : decodeRune (b :: rest) = (b.toNat, 1) := by
        simp [decodeRune, isAscii.1]
      have notError : b.toNat ≠ runeError := by
        unfold runeError
        omega
      rw [validString] at ih ⊢
      rw [List.length_cons, validRounds, decoded]
      simpa [notError] using ih isAscii.2

private theorem ofNat_eq (n : Nat) (b : UInt8) (same : n = b.toNat) :
    UInt8.ofNat n = b := by
  rw [same, UInt8.ofNat_toNat]

private theorem isTailByte_iff (b : UInt8) :
    isTailByte b = true ↔ 0x80 ≤ b.toNat ∧ b.toNat ≤ 0xBF := by
  simp [isTailByte]

private theorem isSecondByte_bounds (lead b : UInt8)
    (second : isSecondByte lead b = true) :
    0x80 ≤ b.toNat ∧ b.toNat ≤ 0xBF ∧ (lead.toNat = 0xE0 → 0xA0 ≤ b.toNat) ∧
      (lead.toNat = 0xF0 → 0x90 ≤ b.toNat) ∧ (lead.toNat = 0xED → b.toNat ≤ 0x9F) ∧
      (lead.toNat = 0xF4 → b.toNat ≤ 0x8F) := by
  simp only [isSecondByte, Bool.and_eq_true, decide_eq_true_eq] at second
  obtain ⟨lower, upper⟩ := second
  split_ifs at lower upper <;> omega

private theorem starts_with_rune (text tail bytes : GoString) (r : Nat)
    (notAscii : 0x80 ≤ r) (valid : ValidRune r) (encoded : encodeRune r = bytes)
    (shape : text = bytes ++ tail) (decoded : decodeRune text = (r, bytes.length)) :
    ∃ r tail, 0x80 ≤ r ∧ ValidRune r ∧ text = encodeRune r ++ tail ∧
      decodeRune text = (r, (encodeRune r).length) := by
  refine ⟨r, tail, notAscii, valid, ?_, ?_⟩
  · rw [encoded, shape]
  · rw [encoded, decoded]

/-- A non-empty text starts with an ASCII byte, with the encoding of another
valid rune, or with a byte that starts no encoding. -/
theorem decodeRune_cases (a : UInt8) (rest : GoString) :
    (a.toNat < 0x80 ∧ decodeRune (a :: rest) = (a.toNat, 1)) ∨
    (∃ r tail, 0x80 ≤ r ∧ ValidRune r ∧ a :: rest = encodeRune r ++ tail ∧
      decodeRune (a :: rest) = (r, (encodeRune r).length)) ∨
    (0x80 ≤ a.toNat ∧ decodeRune (a :: rest) = (runeError, 1)) := by
  by_cases isAscii : a.toNat < 0x80
  · apply Or.inl
    exact ⟨isAscii, by simp [decodeRune, isAscii]⟩
  apply Or.inr
  have high : 0x80 ≤ a.toNat := by omega
  by_cases low : a.toNat < 0xC2
  · apply Or.inr
    exact ⟨high, by simp [decodeRune, isAscii, low]⟩
  by_cases two : a.toNat < 0xE0
  · match rest with
    | [] =>
        apply Or.inr
        exact ⟨high, by simp [decodeRune, isAscii, low, two]⟩
    | b :: tail =>
        by_cases tailB : isTailByte b = true
        · apply Or.inl
          have decoded : decodeRune (a :: b :: tail) =
              ((a.toNat - 0xC0) * 64 + (b.toNat - 0x80), 2) := by
            simp [decodeRune, isAscii, low, two, tailB]
          rw [isTailByte_iff] at tailB
          have encoded : encodeRune ((a.toNat - 0xC0) * 64 + (b.toNat - 0x80)) = [a, b] := by
            unfold encodeRune
            rw [if_neg (by omega), if_pos (by omega)]
            rw [ofNat_eq _ a (by omega), ofNat_eq _ b (by omega)]
          exact starts_with_rune _ tail _ _ (by omega) (by unfold ValidRune; omega)
            encoded rfl decoded
        · apply Or.inr
          exact ⟨high, by simp [decodeRune, isAscii, low, two, tailB]⟩
  by_cases three : a.toNat < 0xF0
  · match rest with
    | [] | [_] =>
        apply Or.inr
        exact ⟨high, by simp [decodeRune, isAscii, low, two, three]⟩
    | b :: c :: tail =>
        by_cases tails : (isSecondByte a b && isTailByte c) = true
        · apply Or.inl
          have decoded : decodeRune (a :: b :: c :: tail) =
              ((a.toNat - 0xE0) * 4096 + (b.toNat - 0x80) * 64 + (c.toNat - 0x80),
                3) := by
            simp only [decodeRune, if_neg isAscii, if_neg low, if_neg two, if_pos three,
              if_pos tails]
          rw [Bool.and_eq_true, isTailByte_iff] at tails
          have second := isSecondByte_bounds a b tails.1
          have encoded : encodeRune ((a.toNat - 0xE0) * 4096 + (b.toNat - 0x80) * 64 +
              (c.toNat - 0x80)) = [a, b, c] := by
            unfold encodeRune
            rw [if_neg (by omega), if_neg (by omega), if_neg (by simp; omega),
              if_pos (by omega)]
            rw [ofNat_eq _ a (by omega), ofNat_eq _ b (by omega), ofNat_eq _ c (by omega)]
          exact starts_with_rune _ tail _ _ (by omega) (by unfold ValidRune; omega)
            encoded rfl decoded
        · apply Or.inr
          refine ⟨high, ?_⟩
          simp only [decodeRune, if_neg isAscii, if_neg low, if_neg two, if_pos three,
            if_neg tails]
  by_cases four : a.toNat < 0xF5
  · match rest with
    | [] | [_] | [_, _] =>
        apply Or.inr
        exact ⟨high, by simp [decodeRune, isAscii, low, two, three, four]⟩
    | b :: c :: d :: tail =>
        by_cases tails : (isSecondByte a b && isTailByte c && isTailByte d) = true
        · apply Or.inl
          have decoded : decodeRune (a :: b :: c :: d :: tail) =
              ((a.toNat - 0xF0) * 262144 + (b.toNat - 0x80) * 4096 +
                (c.toNat - 0x80) * 64 + (d.toNat - 0x80), 4) := by
            simp only [decodeRune, if_neg isAscii, if_neg low, if_neg two, if_neg three,
              if_pos four, if_pos tails]
          rw [Bool.and_eq_true, Bool.and_eq_true, isTailByte_iff, isTailByte_iff] at tails
          have second := isSecondByte_bounds a b tails.1.1
          have encoded : encodeRune ((a.toNat - 0xF0) * 262144 +
              (b.toNat - 0x80) * 4096 + (c.toNat - 0x80) * 64 + (d.toNat - 0x80)) =
                [a, b, c, d] := by
            unfold encodeRune
            rw [if_neg (by omega), if_neg (by omega), if_neg (by simp; omega),
              if_neg (by omega)]
            rw [ofNat_eq _ a (by omega), ofNat_eq _ b (by omega), ofNat_eq _ c (by omega),
              ofNat_eq _ d (by omega)]
          exact starts_with_rune _ tail _ _ (by omega) (by unfold ValidRune; omega)
            encoded rfl decoded
        · apply Or.inr
          refine ⟨high, ?_⟩
          simp only [decodeRune, if_neg isAscii, if_neg low, if_neg two, if_neg three,
            if_pos four, if_neg tails]
  apply Or.inr
  exact ⟨high, by simp [decodeRune, isAscii, low, two, three, four]⟩

private theorem toNat_ofNat (n : Nat) (small : n < 256) : (UInt8.ofNat n).toNat = n := by
  simp [Nat.mod_eq_of_lt small]

theorem decodeRune_encodeRune_append (r : Nat) (valid : ValidRune r) (rest : GoString) :
    decodeRune (encodeRune r ++ rest) = (r, (encodeRune r).length) := by
  unfold ValidRune at valid
  unfold encodeRune
  by_cases one : r < 0x80
  · rw [if_pos one]
    have lead := toNat_ofNat r (by omega)
    simp only [List.singleton_append, decodeRune, lead, if_pos one, List.length_singleton]
  rw [if_neg one]
  by_cases two : r < 0x800
  · rw [if_pos two]
    have lead := toNat_ofNat (0xC0 + r / 64) (by omega)
    have last := toNat_ofNat (0x80 + r % 64) (by omega)
    have tail : isTailByte (UInt8.ofNat (0x80 + r % 64)) = true := by
      rw [isTailByte_iff]
      omega
    simp only [List.cons_append, List.nil_append, decodeRune, lead, last, tail,
      if_true, List.length_cons, List.length_nil]
    rw [if_neg (by omega), if_neg (by omega), if_pos (by omega)]
    apply Prod.ext
    · dsimp only
      omega
    · rfl
  rw [if_neg two, if_neg (by simp; omega)]
  by_cases three : r < 0x10000
  · rw [if_pos three]
    have lead := toNat_ofNat (0xE0 + r / 4096) (by omega)
    have middle := toNat_ofNat (0x80 + r / 64 % 64) (by omega)
    have last := toNat_ofNat (0x80 + r % 64) (by omega)
    have second : isSecondByte (UInt8.ofNat (0xE0 + r / 4096))
        (UInt8.ofNat (0x80 + r / 64 % 64)) = true := by
      simp only [isSecondByte, lead, middle, Bool.and_eq_true, decide_eq_true_eq]
      split_ifs <;> omega
    have tail : isTailByte (UInt8.ofNat (0x80 + r % 64)) = true := by
      rw [isTailByte_iff]
      omega
    simp only [List.cons_append, List.nil_append, decodeRune, lead, middle, last, second,
      tail, Bool.and_self, if_true, List.length_cons, List.length_nil]
    rw [if_neg (by omega), if_neg (by omega), if_neg (by omega), if_pos (by omega)]
    apply Prod.ext
    · dsimp only
      omega
    · rfl
  · rw [if_neg three]
    have lead := toNat_ofNat (0xF0 + r / 262144) (by omega)
    have high := toNat_ofNat (0x80 + r / 4096 % 64) (by omega)
    have middle := toNat_ofNat (0x80 + r / 64 % 64) (by omega)
    have last := toNat_ofNat (0x80 + r % 64) (by omega)
    have second : isSecondByte (UInt8.ofNat (0xF0 + r / 262144))
        (UInt8.ofNat (0x80 + r / 4096 % 64)) = true := by
      simp only [isSecondByte, lead, high, Bool.and_eq_true, decide_eq_true_eq]
      split_ifs <;> omega
    have tail : isTailByte (UInt8.ofNat (0x80 + r % 64)) = true := by
      rw [isTailByte_iff]
      omega
    have middleTail : isTailByte (UInt8.ofNat (0x80 + r / 64 % 64)) = true := by
      rw [isTailByte_iff]
      omega
    simp only [List.cons_append, List.nil_append, decodeRune, lead, high, middle, last,
      second, tail, middleTail, Bool.and_self, if_true, List.length_cons, List.length_nil]
    rw [if_neg (by omega), if_neg (by omega), if_neg (by omega), if_neg (by omega),
      if_pos (by omega)]
    apply Prod.ext
    · dsimp only
      omega
    · rfl

theorem encodeRune_not_ascii (r : Nat) (notAscii : 0x80 ≤ r) (b : UInt8)
    (member : b ∈ encodeRune r) : 0x80 ≤ b.toNat := by
  unfold encodeRune at member
  rw [if_neg (by omega)] at member
  split_ifs at member
  · simp only [List.mem_cons, List.not_mem_nil, or_false] at member
    rcases member with rfl | rfl <;> rw [toNat_ofNat] <;> omega
  · simp only [List.mem_cons, List.not_mem_nil, or_false] at member
    rcases member with rfl | rfl | rfl <;> decide
  · simp only [List.mem_cons, List.not_mem_nil, or_false] at member
    rcases member with rfl | rfl | rfl <;> rw [toNat_ofNat] <;> omega
  · rename_i valid _
    simp only [Bool.or_eq_true, Bool.and_eq_true, decide_eq_true_eq, not_or] at valid
    simp only [List.mem_cons, List.not_mem_nil, or_false] at member
    rcases member with rfl | rfl | rfl | rfl <;> rw [toNat_ofNat] <;> omega

theorem encodeRune_ne_nil (r : Nat) : encodeRune r ≠ [] := by
  unfold encodeRune
  split_ifs <;> simp

end McoaGateway
