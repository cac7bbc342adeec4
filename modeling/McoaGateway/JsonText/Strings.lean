/-
JSON strings (package `encoding/json`).

A string is made valid UTF-8 when it is read, and everything that is not valid
becomes the replacement character.  Writing escapes the quote, the backslash,
the control characters, the characters that are special in HTML and the two
separators that JavaScript does not allow.  A valid text comes back from its
string.
-/

import McoaGateway.Quote

namespace McoaGateway

open GoString

namespace JsonText

/-! ### Strings -/

/-- The letters of the escapes that are written for a byte. -/
def writtenEscapes : List (UInt8 × UInt8) :=
  [(byte '"', byte '"'), (byte '\\', byte '\\'), (0x08, byte 'b'), (0x0C, byte 'f'),
    (0x0A, byte 'n'), (0x0D, byte 'r'), (0x09, byte 't')]

/-- The bytes that stand for themselves: printable, and not special in HTML. -/
def isHtmlSafe (b : UInt8) : Bool :=
  0x20 ≤ b && b ≠ byte '"' && b ≠ byte '\\' && b ≠ byte '<' && b ≠ byte '>' && b ≠ byte '&'

def escapeAscii (b : UInt8) : GoString :=
  if isHtmlSafe b then [b]
  else
    match writtenEscapes.lookup b with
    | some letter => [byte '\\', letter]
    | none => byte '\\' :: byte 'u' :: hexDigits 4 b.toNat

/-- The line and paragraph separators are not allowed in JavaScript strings. -/
def escapeRune (r : Nat) : GoString :=
  if r < 0x80 then escapeAscii (UInt8.ofNat r)
  else if r = 0x2028 ∨ r = 0x2029 then byte '\\' :: byte 'u' :: hexDigits 4 r
  else encodeRune r

/-- The text between the quotes.  Every round takes a byte at least. -/
def stringBody : Nat → GoString → GoString
  | 0, _ => []
  | _ + 1, [] => []
  | rounds + 1, a :: rest =>
      let (r, width) := decodeRune (a :: rest)
      (if r = runeError ∧ width = 1 then ascii "\\ufffd" else escapeRune r) ++
        stringBody rounds ((a :: rest).drop width)

def encodeString (text : GoString) : GoString :=
  byte '"' :: (stringBody text.length text ++ [byte '"'])

/-- The bytes for which an escape may stand, by its letter. -/
def readEscapes : List (UInt8 × UInt8) :=
  (byte '/', byte '/') :: writtenEscapes.map fun (b, letter) => (letter, b)

/-- One half of a pair of surrogates has been read. -/
def pairSurrogate (r : Nat) (text : GoString) : Nat × GoString :=
  if 0xD800 ≤ r ∧ r < 0xE000 then
    match text with
    | backslash :: u :: tail =>
        if backslash = byte '\\' ∧ u = byte 'u' then
          match readHex 4 0 tail with
          | some (low, tail) =>
              if r < 0xDC00 ∧ 0xDC00 ≤ low ∧ low < 0xE000 then
                (0x10000 + (r - 0xD800) * 0x400 + (low - 0xDC00), tail)
              else (runeError, text)
          | none => (runeError, text)
        else (runeError, text)
    | _ => (runeError, text)
  else (r, text)

/-- What a string stands for, up to its closing quote, and the text behind it. -/
def readString : Nat → GoString → Option (GoString × GoString)
  | 0, _ => none
  | _ + 1, [] => none
  | rounds + 1, a :: rest =>
      if a = byte '"' then some ([], rest)
      else if a = byte '\\' then
        match rest with
        | [] => none
        | letter :: tail =>
            if letter = byte 'u' then
              match readHex 4 0 tail with
              | none => none
              | some (r, tail) =>
                  (readString rounds (pairSurrogate r tail).2).map
                    (Prod.map (encodeRune (pairSurrogate r tail).1 ++ ·) id)
            else
              match readEscapes.lookup letter with
              | none => none
              | some b => (readString rounds tail).map (Prod.map (b :: ·) id)
      else if a < 0x20 then none
      else
        (readString rounds ((a :: rest).drop (decodeRune (a :: rest)).2)).map
          (Prod.map (encodeRune (decodeRune (a :: rest)).1 ++ ·) id)

/-! ### Valid texts -/

def ValidUtf8 (text : GoString) : Prop :=
  ∃ runes : List Nat, (∀ r ∈ runes, ValidRune r) ∧ text = runes.flatMap encodeRune

theorem ValidUtf8.nil : ValidUtf8 [] :=
  ⟨[], by simp, rfl⟩

theorem ValidUtf8.rune (r : Nat) (valid : ValidRune r) {text : GoString}
    (rest : ValidUtf8 text) : ValidUtf8 (encodeRune r ++ text) := by
  obtain ⟨runes, each, rfl⟩ := rest
  refine ⟨r :: runes, ?_, rfl⟩
  intro other member
  rcases List.mem_cons.mp member with rfl | later
  · exact valid
  · exact each other later

theorem encodeRune_ascii (r : Nat) (isAscii : r < 0x80) : encodeRune r = [UInt8.ofNat r] := by
  rw [encodeRune, if_pos isAscii]

theorem validRune_ascii (r : Nat) (isAscii : r < 0x80) : ValidRune r :=
  Or.inl (by omega)

theorem ValidUtf8.ascii {text : GoString} (isAscii : ∀ b ∈ text, b.toNat < 0x80) :
    ValidUtf8 text := by
  induction text with
  | nil => exact .nil
  | cons b rest ih =>
      have small := isAscii b List.mem_cons_self
      have first := ValidUtf8.rune b.toNat (validRune_ascii _ small)
        (ih fun other member => isAscii other (List.mem_cons_of_mem _ member))
      rwa [encodeRune_ascii _ small, UInt8.ofNat_toNat] at first

/-! ### Strings are read as they were written -/

theorem stringBody_runes (runes : List Nat) (valid : ∀ r ∈ runes, ValidRune r) (rounds : Nat)
    (enough : runes.length ≤ rounds) :
    stringBody rounds (runes.flatMap encodeRune) = runes.flatMap escapeRune := by
  induction runes generalizing rounds with
  | nil => cases rounds <;> rfl
  | cons r runes ih =>
      cases rounds with
      | zero => simp at enough
      | succ rounds =>
          rw [List.forall_mem_cons] at valid
          have decoded := decodeRune_encodeRune_append r valid.1 (runes.flatMap encodeRune)
          have shape : ∃ a rest, encodeRune r ++ runes.flatMap encodeRune = a :: rest := by
            cases first : encodeRune r with
            | nil => exact (encodeRune_ne_nil r first).elim
            | cons a rest => exact ⟨a, _, rfl⟩
          obtain ⟨a, rest, shape⟩ := shape
          have notBroken : ¬ (r = runeError ∧ (encodeRune r).length = 1) := by
            rintro ⟨rfl, narrow⟩
            revert narrow
            decide
          rw [List.flatMap_cons, List.flatMap_cons, shape, stringBody, ← shape, decoded]
          dsimp only
          rw [if_neg notBroken, List.drop_left, ih valid.2 rounds (by simpa using enough)]

theorem pairSurrogate_of_valid (r : Nat) (valid : ValidRune r) (text : GoString) :
    pairSurrogate r text = (r, text) := by
  unfold pairSurrogate
  rw [if_neg]
  unfold ValidRune at valid
  omega

theorem readString_shortRune (r : Nat) (valid : ValidRune r) (short : r < 0x10000)
    (rounds : Nat) (text : GoString) :
    readString (rounds + 1) (byte '\\' :: byte 'u' :: (hexDigits 4 r ++ text)) =
      (readString rounds text).map (Prod.map (encodeRune r ++ ·) id) := by
  have digits := readHex_hexDigits 4 0 r text
  rw [Nat.zero_mul, Nat.zero_add, Nat.mod_eq_of_lt (by simpa using short)] at digits
  rw [readString, if_neg (by decide), if_pos rfl, if_pos rfl, digits]
  simp only [pairSurrogate_of_valid r valid]

theorem readString_plainRune (r : Nat) (valid : ValidRune r)
    (plain : ∀ b ∈ encodeRune r, b ≠ byte '"' ∧ b ≠ byte '\\' ∧ 0x20 ≤ b) (rounds : Nat)
    (text : GoString) :
    readString (rounds + 1) (encodeRune r ++ text) =
      (readString rounds text).map (Prod.map (encodeRune r ++ ·) id) := by
  have decoded := decodeRune_encodeRune_append r valid text
  cases bytes : encodeRune r with
  | nil => exact (encodeRune_ne_nil r bytes).elim
  | cons a rest =>
      rw [bytes] at decoded
      have notSpecial := plain a (by rw [bytes]; exact List.mem_cons_self)
      rw [List.cons_append] at decoded ⊢
      rw [readString.eq_def]
      dsimp only
      rw [if_neg notSpecial.1, if_neg notSpecial.2.1,
        if_neg (UInt8.not_lt.mpr notSpecial.2.2), decoded]
      dsimp only
      rw [bytes, ← List.cons_append, List.drop_left]

private theorem lookup_readEscapes (b letter : UInt8)
    (written : writtenEscapes.lookup b = some letter) :
    readEscapes.lookup letter = some b ∧ letter ≠ byte 'u' := by
  have table : ∀ entry ∈ writtenEscapes,
      readEscapes.lookup entry.2 = some entry.1 ∧ entry.2 ≠ byte 'u' :=
    List.forall_iff_forall_mem.mp (by decide)
  have listed : (b, letter) ∈ writtenEscapes := by
    generalize writtenEscapes = entries at written
    induction entries with
    | nil => cases written
    | cons entry rest ih =>
        rw [List.lookup_cons] at written
        split at written
        · rename_i same
          rw [beq_iff_eq] at same
          cases written
          rw [same]
          exact List.mem_cons_self
        · exact List.mem_cons_of_mem _ (ih written)
  exact table (b, letter) listed

theorem readString_escapeAscii (b : UInt8) (isAscii : b.toNat < 0x80) (rounds : Nat)
    (text : GoString) :
    readString (rounds + 1) (escapeAscii b ++ text) =
      (readString rounds text).map (Prod.map (b :: ·) id) := by
  have own : encodeRune b.toNat = [b] := by
    rw [encodeRune_ascii _ isAscii, UInt8.ofNat_toNat]
  have valid := validRune_ascii _ isAscii
  unfold escapeAscii
  by_cases safe : isHtmlSafe b = true
  · rw [if_pos safe]
    simp only [isHtmlSafe, Bool.and_eq_true, decide_eq_true_eq] at safe
    have plain := readString_plainRune b.toNat valid
      (by rw [own]; intro other member; rw [List.mem_singleton.mp member]; tauto) rounds text
    rwa [own] at plain
  · rw [if_neg safe]
    cases written : writtenEscapes.lookup b with
    | some letter =>
        obtain ⟨readBack, notU⟩ := lookup_readEscapes b letter written
        dsimp only [List.cons_append, List.nil_append]
        rw [readString, if_neg (by decide), if_pos rfl, if_neg notU, readBack]
    | none =>
        have short := readString_shortRune b.toNat valid (by omega) rounds text
        rw [own] at short
        exact short

theorem readString_escapeRune (r : Nat) (valid : ValidRune r) (rounds : Nat) (text : GoString) :
    readString (rounds + 1) (escapeRune r ++ text) =
      (readString rounds text).map (Prod.map (encodeRune r ++ ·) id) := by
  unfold escapeRune
  by_cases isAscii : r < 0x80
  · have small : (UInt8.ofNat r).toNat = r := by
      simp
      omega
    rw [if_pos isAscii, readString_escapeAscii _ (by omega), encodeRune_ascii r isAscii]
    rfl
  · rw [if_neg isAscii]
    by_cases separator : r = 0x2028 ∨ r = 0x2029
    · rw [if_pos separator]
      exact readString_shortRune r valid (by omega) rounds text
    · rw [if_neg separator]
      apply readString_plainRune r valid
      intro b member
      have high := encodeRune_not_ascii r (by omega) b member
      refine ⟨?_, ?_, ?_⟩
      · rintro rfl
        revert high
        decide
      · rintro rfl
        revert high
        decide
      · rw [UInt8.le_iff_toNat_le]
        exact le_trans (by decide) high

theorem readString_runes (runes : List Nat) (valid : ∀ r ∈ runes, ValidRune r) (rounds : Nat)
    (enough : runes.length < rounds) (rest : GoString) :
    readString rounds (runes.flatMap escapeRune ++ byte '"' :: rest) =
      some (runes.flatMap encodeRune, rest) := by
  induction runes generalizing rounds with
  | nil =>
      cases rounds with
      | zero => simp at enough
      | succ rounds => rfl
  | cons r runes ih =>
      cases rounds with
      | zero => simp at enough
      | succ rounds =>
          rw [List.forall_mem_cons] at valid
          rw [List.flatMap_cons, List.append_assoc, readString_escapeRune r valid.1,
            ih valid.2 rounds (by simpa using enough)]
          rfl

theorem length_le_flatMap (pieces : Nat → GoString) (nonempty : ∀ r, pieces r ≠ [])
    (runes : List Nat) : runes.length ≤ (runes.flatMap pieces).length := by
  induction runes with
  | nil => rfl
  | cons r runes ih =>
      have some_ : 0 < (pieces r).length := List.length_pos_iff.mpr (nonempty r)
      rw [List.flatMap_cons, List.length_append, List.length_cons]
      omega

theorem escapeRune_ne_nil (r : Nat) : escapeRune r ≠ [] := by
  unfold escapeRune escapeAscii
  split
  · split
    · simp
    · split <;> simp
  · split
    · simp
    · exact encodeRune_ne_nil r

theorem readString_encodeString (text rest : GoString) (valid : ValidUtf8 text) :
    ∃ body, encodeString text ++ rest = byte '"' :: body ∧
      readString body.length body = some (text, rest) := by
  obtain ⟨runes, each, rfl⟩ := valid
  refine ⟨runes.flatMap escapeRune ++ byte '"' :: rest, ?_, ?_⟩
  · unfold encodeString
    rw [stringBody_runes runes each _ (length_le_flatMap _ encodeRune_ne_nil runes),
      List.cons_append, List.append_assoc, List.singleton_append]
  · apply readString_runes runes each
    have written := length_le_flatMap _ escapeRune_ne_nil runes
    rw [List.length_append, List.length_cons]
    omega

/-! ### Strings that were read are valid -/

theorem readHex_lt (width value : Nat) (text : GoString) (read : Nat × GoString)
    (digits : readHex width value text = some read) : read.1 < (value + 1) * 16 ^ width := by
  have digit_lt (b : UInt8) (x : Nat) (isDigit : unhex b = some x) : x < 16 := by
    unfold unhex at isDigit
    simp only [UInt8.le_iff_toNat_le, Bool.and_eq_true, decide_eq_true_eq] at isDigit
    have codes : (byte '0').toNat = 0x30 ∧ (byte '9').toNat = 0x39 ∧ (byte 'a').toNat = 0x61 ∧
        (byte 'f').toNat = 0x66 ∧ (byte 'A').toNat = 0x41 ∧ (byte 'F').toNat = 0x46 := by decide
    split_ifs at isDigit <;> cases isDigit <;> omega
  induction width generalizing value text with
  | zero =>
      cases digits
      simp
  | succ width ih =>
      cases text with
      | nil => cases digits
      | cons b text =>
          rw [readHex] at digits
          cases isDigit : unhex b with
          | none =>
              rw [isDigit] at digits
              cases digits
          | some x =>
              rw [isDigit] at digits
              have small := digit_lt b x isDigit
              have rest := ih _ _ digits
              have bound : (value * 16 + x + 1) * 16 ^ width ≤
                  ((value + 1) * 16) * 16 ^ width := Nat.mul_le_mul_right _ (by omega)
              rw [pow_succ]
              calc read.1 < (value * 16 + x + 1) * 16 ^ width := rest
                _ ≤ ((value + 1) * 16) * 16 ^ width := bound
                _ = (value + 1) * (16 ^ width * 16) := by ring

theorem validRune_runeError : ValidRune runeError := by
  unfold ValidRune runeError
  omega

theorem pairSurrogate_valid (r : Nat) (small : r < 0x10000) (text : GoString) :
    ValidRune (pairSurrogate r text).1 := by
  unfold pairSurrogate
  by_cases surrogate : 0xD800 ≤ r ∧ r < 0xE000
  · rw [if_pos surrogate]
    match text with
    | [] => exact validRune_runeError
    | [_] => exact validRune_runeError
    | backslash :: u :: tail =>
        dsimp only
        by_cases escape : backslash = byte '\\' ∧ u = byte 'u'
        · rw [if_pos escape]
          cases read : readHex 4 0 tail with
          | none => exact validRune_runeError
          | some low =>
              dsimp only
              by_cases pair : r < 0xDC00 ∧ 0xDC00 ≤ low.1 ∧ low.1 < 0xE000
              · rw [if_pos pair]
                apply Or.inr
                dsimp only
                omega
              · rw [if_neg pair]
                exact validRune_runeError
        · rw [if_neg escape]
          exact validRune_runeError
  · rw [if_neg surrogate]
    unfold ValidRune
    dsimp only
    omega

theorem decodeRune_valid (a : UInt8) (rest : GoString) : ValidRune (decodeRune (a :: rest)).1 := by
  rcases decodeRune_cases a rest with ⟨isAscii, decoded⟩ | ⟨r, tail, -, valid, -, decoded⟩ |
    ⟨-, decoded⟩
  · rw [decoded]
    exact validRune_ascii _ isAscii
  · rw [decoded]
    exact valid
  · rw [decoded]
    exact validRune_runeError

private theorem lookup_readEscapes_ascii (letter b : UInt8)
    (read : readEscapes.lookup letter = some b) : b.toNat < 0x80 := by
  have table : ∀ entry ∈ readEscapes, entry.2.toNat < 0x80 :=
    List.forall_iff_forall_mem.mp (by decide)
  generalize readEscapes = entries at read table
  induction entries with
  | nil => cases read
  | cons entry rest ih =>
      rw [List.lookup_cons] at read
      rw [List.forall_mem_cons] at table
      split at read
      · cases read
        exact table.1
      · exact ih read table.2

theorem readString_valid (rounds : Nat) (text : GoString) (read : GoString × GoString)
    (isString : readString rounds text = some read) : ValidUtf8 read.1 := by
  induction rounds generalizing text read with
  | zero => cases isString
  | succ rounds ih =>
      cases text with
      | nil => cases isString
      | cons a rest =>
          rw [readString.eq_def] at isString
          dsimp only at isString
          by_cases closing : a = byte '"'
          · rw [if_pos closing] at isString
            cases isString
            exact .nil
          rw [if_neg closing] at isString
          by_cases escape : a = byte '\\'
          · rw [if_pos escape] at isString
            cases rest with
            | nil => cases isString
            | cons letter tail =>
                dsimp only at isString
                by_cases isU : letter = byte 'u'
                · rw [if_pos isU] at isString
                  cases digits : readHex 4 0 tail with
                  | none =>
                      rw [digits] at isString
                      cases isString
                  | some rune =>
                      rw [digits] at isString
                      obtain ⟨later, isLater, rfl⟩ := Option.map_eq_some_iff.mp isString
                      have small := readHex_lt 4 0 tail rune digits
                      exact .rune _ (pairSurrogate_valid _ (by omega) _) (ih _ _ isLater)
                · rw [if_neg isU] at isString
                  cases meaning : readEscapes.lookup letter with
                  | none =>
                      rw [meaning] at isString
                      cases isString
                  | some b =>
                      rw [meaning] at isString
                      obtain ⟨later, isLater, rfl⟩ := Option.map_eq_some_iff.mp isString
                      have isAscii := lookup_readEscapes_ascii letter b meaning
                      have first := ValidUtf8.rune _ (validRune_ascii _ isAscii) (ih _ _ isLater)
                      rwa [encodeRune_ascii _ isAscii, UInt8.ofNat_toNat] at first
          rw [if_neg escape] at isString
          by_cases control : a < 0x20
          · rw [if_pos control] at isString
            cases isString
          · rw [if_neg control] at isString
            obtain ⟨later, isLater, rfl⟩ := Option.map_eq_some_iff.mp isString
            exact .rune _ (decodeRune_valid a rest) (ih _ _ isLater)

end JsonText

end McoaGateway
