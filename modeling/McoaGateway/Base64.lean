/-
Base64 texts (package `encoding/base64`).

An encoding is an alphabet of 64 letters with or without a padding character.
Decoding reads four letters at a time, passes over line breaks wherever they
stand, and does not look at the bits of the last letter that belong to no byte.
A corrupt text is reported with the position of the first byte that is not
understood.
-/

import McoaGateway.GoString
import Mathlib.Data.List.GetD
import Mathlib.Data.List.Nodup

namespace McoaGateway

open GoString

namespace Base64

structure Encoding where
  alphabet : List UInt8
  padding : Option UInt8
  size : alphabet.length = 64
  distinct : alphabet.Nodup

/-- The letters which both alphabets of the standard have. -/
def commonLetters : GoString :=
  (List.range 26).map (fun n => byte 'A' + UInt8.ofNat n) ++
    (List.range 26).map (fun n => byte 'a' + UInt8.ofNat n) ++
    (List.range 10).map (fun n => byte '0' + UInt8.ofNat n)

def stdEncoding : Encoding where
  alphabet := commonLetters ++ [byte '+', byte '/']
  padding := some (byte '=')
  size := by decide
  distinct := by decide +kernel

def isLineBreak (b : UInt8) : Bool :=
  b = 0x0A || b = 0x0D

/-- Two, three or four letters give one, two or three bytes. -/
def bytesOf : List Nat → GoString
  | [p, q] => [UInt8.ofNat (p * 4 + q / 16)]
  | [p, q, r] => [UInt8.ofNat (p * 4 + q / 16), UInt8.ofNat (q % 16 * 16 + r / 4)]
  | [p, q, r, s] =>
      [UInt8.ofNat (p * 4 + q / 16), UInt8.ofNat (q % 16 * 16 + r / 4),
        UInt8.ofNat (r % 4 * 64 + s)]
  | _ => []

namespace Encoding

variable (encoding : Encoding)

def letter (sextet : Nat) : UInt8 :=
  encoding.alphabet.getD sextet 0

def sextet (b : UInt8) : Option Nat :=
  if b ∈ encoding.alphabet then some (encoding.alphabet.idxOf b) else none

def pad (count : Nat) : GoString :=
  match encoding.padding with
  | some b => List.replicate count b
  | none => []

def encodeToString : GoString → GoString
  | [] => []
  | [a] =>
      [a.toNat / 4, a.toNat % 4 * 16].map encoding.letter ++ encoding.pad 2
  | [a, b] =>
      [a.toNat / 4, a.toNat % 4 * 16 + b.toNat / 16, b.toNat % 16 * 4].map encoding.letter ++
        encoding.pad 1
  | a :: b :: c :: rest =>
      [a.toNat / 4, a.toNat % 4 * 16 + b.toNat / 16, b.toNat % 16 * 4 + c.toNat / 64,
        c.toNat % 64].map encoding.letter ++ encodeToString rest

/-- Nothing but line breaks may follow the padding. -/
def decodeEnd (position : Nat) (quantum : List Nat) (text : GoString) : Except Nat GoString :=
  let rest := text.dropWhile isLineBreak
  if rest = [] then .ok (bytesOf quantum)
  else .error (position + (text.length - rest.length))

/-- The padding has begun at a position, after the letters of a quantum. -/
def decodePadding (position : Nat) (quantum : List Nat) (text : GoString) :
    Except Nat GoString :=
  if quantum.length < 2 then .error position
  else if quantum.length = 2 then
    let rest := text.dropWhile isLineBreak
    let position := position + 1 + (text.length - rest.length)
    match rest with
    | [] => .error position
    | b :: rest =>
        if encoding.padding = some b then decodeEnd (position + 1) quantum rest
        else .error (position - 1)
  else decodeEnd (position + 1) quantum text

def decodeFrom (position : Nat) (quantum : List Nat) : GoString → Except Nat GoString
  | [] =>
      if quantum.length = 0 then .ok []
      else if quantum.length = 1 ∨ encoding.padding ≠ none then
        .error (position - quantum.length)
      else .ok (bytesOf quantum)
  | b :: rest =>
      match encoding.sextet b with
      | some sextet =>
          if quantum.length = 3 then
            (decodeFrom (position + 1) [] rest).map (bytesOf (quantum ++ [sextet]) ++ ·)
          else decodeFrom (position + 1) (quantum ++ [sextet]) rest
      | none =>
          if isLineBreak b then decodeFrom (position + 1) quantum rest
          else if encoding.padding = some b then
            encoding.decodePadding position quantum rest
          else .error position

/-- The bytes of a text, or the position at which it is corrupt. -/
def decodeString (text : GoString) : Except Nat GoString :=
  encoding.decodeFrom 0 [] text

/-! ### Decoding an encoded text -/

theorem sextet_letter (n : Nat) (small : n < 64) :
    encoding.sextet (encoding.letter n) = some n := by
  have inside : n < encoding.alphabet.length := by
    rw [encoding.size]
    exact small
  have isLetter : encoding.letter n = encoding.alphabet[n] := by
    unfold letter
    exact List.getD_eq_getElem _ _ inside
  unfold sextet
  rw [isLetter, if_pos (List.getElem_mem inside), encoding.distinct.idxOf_getElem n inside]

theorem decodeFrom_letter (position n : Nat) (quantum : List Nat) (rest : GoString)
    (small : n < 64) (room : quantum.length < 3) :
    encoding.decodeFrom position quantum (encoding.letter n :: rest) =
      encoding.decodeFrom (position + 1) (quantum ++ [n]) rest := by
  rw [decodeFrom, encoding.sextet_letter n small]
  exact if_neg (by omega)

theorem decodeFrom_lastLetter (position n : Nat) (quantum : List Nat) (rest : GoString)
    (small : n < 64) (full : quantum.length = 3) :
    encoding.decodeFrom position quantum (encoding.letter n :: rest) =
      (encoding.decodeFrom (position + 1) [] rest).map (bytesOf (quantum ++ [n]) ++ ·) := by
  rw [decodeFrom, encoding.sextet_letter n small]
  exact if_pos full

/-- A text cannot be padded with one of its letters. -/
structure Unambiguous : Prop where
  letters : ∀ b ∈ encoding.alphabet, isLineBreak b = false ∧ encoding.padding ≠ some b
  padding : ∀ b, encoding.padding = some b → isLineBreak b = false

variable {encoding}

theorem Unambiguous.sextet_padding (unambiguous : encoding.Unambiguous) (b : UInt8)
    (padded : encoding.padding = some b) : encoding.sextet b = none := by
  unfold sextet
  rw [if_neg]
  intro isLetter
  exact (unambiguous.letters b isLetter).2 padded

theorem Unambiguous.decodeFrom_pad (unambiguous : encoding.Unambiguous) (position : Nat)
    (quantum : List Nat) (some_ : 2 ≤ quantum.length) (open_ : quantum.length ≤ 3) :
    encoding.decodeFrom position quantum (encoding.pad (4 - quantum.length)) =
      .ok (bytesOf quantum) := by
  cases padded : encoding.padding with
  | none =>
      have nothing : encoding.pad (4 - quantum.length) = [] := by
        unfold pad
        rw [padded]
      rw [nothing, decodeFrom, if_neg (by omega), if_neg]
      rintro (single | hasPadding)
      · omega
      · exact hasPadding padded
  | some b =>
      have notLetter := unambiguous.sextet_padding b padded
      have notBreak := unambiguous.padding b padded
      have first (rest : GoString) : encoding.decodeFrom position quantum (b :: rest) =
          encoding.decodePadding position quantum rest := by
        rw [decodeFrom, notLetter]
        dsimp only
        rw [notBreak, if_neg Bool.false_ne_true, if_pos padded]
      have characters : encoding.pad (4 - quantum.length) =
          List.replicate (4 - quantum.length) b := by
        unfold pad
        rw [padded]
      rcases (by omega : quantum.length = 2 ∨ quantum.length = 3) with two | three
      · rw [characters, two, List.replicate_succ, first, decodePadding, if_neg (by omega),
          if_pos two]
        simp [notBreak, padded, decodeEnd]
      · rw [characters, three, List.replicate_succ, first, decodePadding, if_neg (by omega),
          if_neg (by omega)]
        simp [decodeEnd]

private theorem ofNat_toNat (n : Nat) (b : UInt8) (same : n = b.toNat) : UInt8.ofNat n = b := by
  rw [same, UInt8.ofNat_toNat]

theorem Unambiguous.decodeFrom_encodeToString (unambiguous : encoding.Unambiguous)
    (data : GoString) (position : Nat) :
    encoding.decodeFrom position [] (encoding.encodeToString data) = .ok data := by
  fun_induction encodeToString encoding data generalizing position with
  | case1 => rfl
  | case2 a =>
      have bound := a.toNat_lt
      simp only [List.map_cons, List.map_nil, List.cons_append, List.nil_append]
      rw [decodeFrom_letter _ _ _ _ _ (by omega) (by decide),
        decodeFrom_letter _ _ _ _ _ (by omega) (by simp)]
      have padded := unambiguous.decodeFrom_pad (position + 1 + 1)
        [a.toNat / 4, a.toNat % 4 * 16] (by simp) (by simp)
      simp only [List.length_cons, List.length_nil] at padded
      rw [List.nil_append, List.singleton_append, padded, bytesOf, ofNat_toNat _ a (by omega)]
  | case3 a b =>
      have boundA := a.toNat_lt
      have boundB := b.toNat_lt
      simp only [List.map_cons, List.map_nil, List.cons_append, List.nil_append]
      rw [decodeFrom_letter _ _ _ _ _ (by omega) (by decide),
        decodeFrom_letter _ _ _ _ _ (by omega) (by simp),
        decodeFrom_letter _ _ _ _ _ (by omega) (by simp)]
      have padded := unambiguous.decodeFrom_pad (position + 1 + 1 + 1)
        [a.toNat / 4, a.toNat % 4 * 16 + b.toNat / 16, b.toNat % 16 * 4] (by simp) (by simp)
      simp only [List.length_cons, List.length_nil] at padded
      simp only [List.nil_append, List.cons_append, padded, bytesOf]
      rw [ofNat_toNat _ a (by omega), ofNat_toNat _ b (by omega)]
  | case4 a b c rest ih =>
      have boundA := a.toNat_lt
      have boundB := b.toNat_lt
      have boundC := c.toNat_lt
      simp only [List.map_cons, List.map_nil, List.cons_append, List.nil_append]
      rw [decodeFrom_letter _ _ _ _ _ (by omega) (by decide),
        decodeFrom_letter _ _ _ _ _ (by omega) (by simp),
        decodeFrom_letter _ _ _ _ _ (by omega) (by simp),
        decodeFrom_lastLetter _ _ _ _ _ (by omega) (by simp), ih]
      simp only [List.nil_append, List.cons_append, bytesOf, Except.map]
      rw [ofNat_toNat _ a (by omega), ofNat_toNat _ b (by omega), ofNat_toNat _ c (by omega)]

theorem Unambiguous.decodeString_encodeToString (unambiguous : encoding.Unambiguous)
    (data : GoString) : encoding.decodeString (encoding.encodeToString data) = .ok data :=
  unambiguous.decodeFrom_encodeToString data 0

end Encoding

theorem stdEncoding_unambiguous : stdEncoding.Unambiguous where
  letters := by decide +kernel
  padding := by
    intro b padded
    cases padded
    decide

end Base64

end McoaGateway
