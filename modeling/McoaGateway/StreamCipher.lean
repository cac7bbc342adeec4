/-
Stream ciphers, and block ciphers in counter mode (package `crypto/cipher`).

A stream cipher adds a key stream to a text, byte by byte and modulo two.  What
the stream is does not depend on the text, so that the text comes back when the
same stream is added again, and a change of the encrypted text is the same
change of the text.
-/

import McoaGateway.GoString

namespace McoaGateway

structure KeyStream (State : Type) where
  next : State → UInt8 × State

namespace KeyStream

variable {State : Type} (stream : KeyStream State)

def xorKeyStream (state : State) : GoString → GoString
  | [] => []
  | b :: rest => (b ^^^ (stream.next state).1) :: xorKeyStream (stream.next state).2 rest

@[simp] theorem length_xorKeyStream (state : State) (text : GoString) :
    (stream.xorKeyStream state text).length = text.length := by
  induction text generalizing state with
  | nil => rfl
  | cons b rest ih =>
      rw [xorKeyStream, List.length_cons, List.length_cons, ih]

theorem xorKeyStream_xorKeyStream (state : State) (text : GoString) :
    stream.xorKeyStream state (stream.xorKeyStream state text) = text := by
  induction text generalizing state with
  | nil => rfl
  | cons b rest ih =>
      rw [xorKeyStream, xorKeyStream, ih, UInt8.xor_assoc, UInt8.xor_self, UInt8.xor_zero]

theorem xorKeyStream_change (state : State) (text change : GoString) :
    stream.xorKeyStream state (List.zipWith (· ^^^ ·) text change) =
      List.zipWith (· ^^^ ·) (stream.xorKeyStream state text) change := by
  induction text generalizing state change with
  | nil => rfl
  | cons b rest ih =>
      cases change with
      | nil => rfl
      | cons c change =>
          rw [List.zipWith_cons_cons, xorKeyStream, xorKeyStream, List.zipWith_cons_cons, ih]
          rw [UInt8.xor_assoc, UInt8.xor_comm c, ← UInt8.xor_assoc]

end KeyStream

/-! ### Counter mode -/

structure BlockCipher (blockSize : Nat) where
  encrypt : GoString → GoString
  size : ∀ block, (encrypt block).length = blockSize

def carry : GoString → GoString
  | [] => []
  | b :: rest => if b = 0xFF then 0 :: carry rest else (b + 1) :: rest

/-- The next counter; the lowest byte is the last one. -/
def increment (counter : GoString) : GoString :=
  (carry counter.reverse).reverse

/-- The counter of the next block, and what is left of the encrypted one. -/
structure CtrState where
  counter : GoString
  left : GoString

def BlockCipher.ctr {blockSize : Nat} (cipher : BlockCipher blockSize) : KeyStream CtrState where
  next state :=
    match state.left with
    | key :: left => (key, { state with left := left })
    | [] =>
        let block := cipher.encrypt state.counter
        (block.headD 0, ⟨increment state.counter, block.tail⟩)

/-- The stream of `cipher.NewCTR`. -/
def CtrState.new (iv : GoString) : CtrState :=
  ⟨iv, []⟩

end McoaGateway
