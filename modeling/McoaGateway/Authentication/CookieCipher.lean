/-
The cipher of the session cookies (`authentication/openshift/cookie.go`).

A value is encrypted with AES in counter mode under a random initialization
vector, which is put in front of it, and the whole is encoded in base64.  AES
itself is a parameter: a block cipher for every key.  Decryption gives back what
was encrypted.  Nothing in the text tells whether it was encrypted under the
key: a change of the text is a change of the value.
-/

import McoaGateway.Base64
import McoaGateway.StreamCipher

namespace McoaGateway

open GoString

namespace OpenShift

/-- `aes.BlockSize` -/
def blockSize : Nat := 16

abbrev Aes := GoString → BlockCipher blockSize

structure Cipher where
  block : BlockCipher blockSize

def newCipher (aes : Aes) (secret : GoString) : Except GoString Cipher :=
  if secret.length = 16 ∨ secret.length = 24 ∨ secret.length = 32 then .ok ⟨aes secret⟩
  else .error (ascii "crypto/aes: invalid key size " ++ itoa secret.length)

/-- What is read from the source of randomness for a block. -/
abbrev Random := Except GoString { iv : GoString // iv.length = blockSize }

namespace Cipher

variable (cipher : Cipher)

def encrypt (random : Random) (value : GoString) : Except GoString GoString :=
  match random with
  | .error error => .error (ascii "failed to create initialization vector: " ++ error)
  | .ok iv =>
      .ok (Base64.stdEncoding.encodeToString
        (iv.val ++ cipher.block.ctr.xorKeyStream (.new iv.val) value))

def decrypt (text : GoString) : Except GoString GoString :=
  match Base64.stdEncoding.decodeString text with
  | .error position =>
      .error (ascii "failed to decrypt cookie value %s: illegal base64 data at input byte " ++
        itoa position)
  | .ok encrypted =>
      if encrypted.length < blockSize then
        .error (ascii "encrypted cookie value should be at least 16 bytes, but is only " ++
          itoa encrypted.length ++ ascii " bytes")
      else
        .ok (cipher.block.ctr.xorKeyStream (.new (encrypted.take blockSize))
          (encrypted.drop blockSize))

theorem decrypt_encodeToString (iv : { iv : GoString // iv.length = blockSize })
    (encrypted : GoString) :
    cipher.decrypt (Base64.stdEncoding.encodeToString (iv.val ++ encrypted)) =
      .ok (cipher.block.ctr.xorKeyStream (.new iv.val) encrypted) := by
  unfold decrypt
  rw [Base64.stdEncoding_unambiguous.decodeString_encodeToString]
  dsimp only
  rw [if_neg, List.take_left' iv.property, List.drop_left' iv.property]
  rw [List.length_append, iv.property]
  omega

theorem decrypt_encrypt (random : Random) (value text : GoString)
    (encrypted : cipher.encrypt random value = .ok text) : cipher.decrypt text = .ok value := by
  unfold encrypt at encrypted
  cases random with
  | error error => cases encrypted
  | ok iv =>
      cases encrypted
      rw [decrypt_encodeToString, KeyStream.xorKeyStream_xorKeyStream]

/-- The text of a cookie with other bits in its encrypted value. -/
def tamper (change text : GoString) : Except Nat GoString :=
  (Base64.stdEncoding.decodeString text).map fun encrypted =>
    Base64.stdEncoding.encodeToString
      (encrypted.take blockSize ++ List.zipWith (· ^^^ ·) (encrypted.drop blockSize) change)

/-- Without the key, every wanted change of the value can be made. -/
theorem decrypt_tamper (random : Random) (value text change : GoString)
    (encrypted : cipher.encrypt random value = .ok text) :
    ∃ tampered, tamper change text = .ok tampered ∧
      cipher.decrypt tampered = .ok (List.zipWith (· ^^^ ·) value change) := by
  unfold encrypt at encrypted
  cases random with
  | error error => cases encrypted
  | ok iv =>
      cases encrypted
      unfold tamper
      rw [Base64.stdEncoding_unambiguous.decodeString_encodeToString]
      refine ⟨_, rfl, ?_⟩
      dsimp only
      rw [List.take_left' iv.property, List.drop_left' iv.property, decrypt_encodeToString,
        KeyStream.xorKeyStream_change, KeyStream.xorKeyStream_xorKeyStream]

/-- What was encrypted comes back, and whoever has the encrypted text but not the
key can make every wanted change of it. -/
theorem encrypt_decrypts_and_tampers (random : Random) (value text change : GoString)
    (encrypted : cipher.encrypt random value = .ok text) :
    cipher.decrypt text = .ok value ∧
      ∃ tampered, tamper change text = .ok tampered ∧
        cipher.decrypt tampered = .ok (List.zipWith (· ^^^ ·) value change) :=
  ⟨cipher.decrypt_encrypt random value text encrypted,
    cipher.decrypt_tamper random value text change encrypted⟩

end Cipher

def copyCipher : Cipher :=
  ⟨⟨fun block => (block ++ List.replicate blockSize 0).take blockSize, by
    intro block
    simp⟩⟩

def zeroVector : Random :=
  .ok ⟨List.replicate blockSize 0, by simp⟩

theorem encrypt_decrypts_and_tampers_token :
    copyCipher.encrypt zeroVector (ascii "token") = .ok (ascii "AAAAAAAAAAAAAAAAAAAAAHRva2Vu") ∧
      copyCipher.decrypt (ascii "AAAAAAAAAAAAAAAAAAAAAHRva2Vu") = .ok (ascii "token") ∧
      ∃ tampered, Cipher.tamper [0, 0, 0, 0, 0x0A] (ascii "AAAAAAAAAAAAAAAAAAAAAHRva2Vu") =
          .ok tampered ∧
        copyCipher.decrypt tampered = .ok (ascii "toked") := by
  have encrypted : copyCipher.encrypt zeroVector (ascii "token") =
      .ok (ascii "AAAAAAAAAAAAAAAAAAAAAHRva2Vu") := by
    rfl
  exact ⟨encrypted, copyCipher.encrypt_decrypts_and_tampers zeroVector (ascii "token") _
    [0, 0, 0, 0, 0x0A] encrypted⟩

end OpenShift

end McoaGateway
