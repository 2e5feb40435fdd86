import RecordPrivacy.Bytes

/-!
Authenticated encryption as a pair of functions. Sealing refuses only a plaintext over the scheme's
limit; opening refuses whatever was not sealed under the same key and nonce. The laws that a scheme
owes are stated here and not built into it; it owes them for keys and nonces of its own sizes only.
-/
namespace RecordPrivacy

structure Aead where
  encrypt : (key nonce plaintext : Bytes) → Option Bytes
  decrypt : (key nonce ciphertext : Bytes) → Option Bytes

namespace Aead

def nonceSize : Nat := 12

def tagSize : Nat := 16

/-- The longest plaintext that can be sealed. -/
def plaintextLimit : Nat := Nat.pow 2 36

/-- A key of one of the sizes that a scheme is made for. -/
def KeySize (key : Bytes) : Prop :=
  key.length = 16 ∨ key.length = 24 ∨ key.length = 32

/-- A key and a nonce of the sizes that a scheme is made for. -/
structure Fits (key nonce : Bytes) : Prop where
  key_size : KeySize key
  nonce_size : nonce.length = nonceSize

/-- Opening undoes sealing. -/
def Opens (aead : Aead) : Prop :=
  ∀ key nonce plaintext sealed, Fits key nonce → aead.encrypt key nonce plaintext = some sealed →
    aead.decrypt key nonce sealed = some plaintext

/-- Sealing succeeds within the limit. -/
def Seals (aead : Aead) : Prop :=
  ∀ key nonce plaintext, Fits key nonce → plaintext.length ≤ plaintextLimit →
    ∃ sealed, aead.encrypt key nonce plaintext = some sealed

/-- Sealing adds a tag. -/
def Tags (aead : Aead) : Prop :=
  ∀ key nonce plaintext sealed, Fits key nonce → aead.encrypt key nonce plaintext = some sealed →
    sealed.length = plaintext.length + tagSize

/-- Whatever opens is longer than its plaintext by exactly the tag. -/
def Exact (aead : Aead) : Prop :=
  ∀ key nonce sealed plaintext, Fits key nonce → aead.decrypt key nonce sealed = some plaintext →
    sealed.length = plaintext.length + tagSize

/-- Nothing shorter than a tag opens. -/
def RefusesShort (aead : Aead) : Prop :=
  ∀ key nonce sealed, Fits key nonce → sealed.length < tagSize →
    aead.decrypt key nonce sealed = none

theorem Exact.refusesShort {aead : Aead} (exact : aead.Exact) : aead.RefusesShort := by
  intro key nonce sealed fits hshort
  refine Option.eq_none_iff_forall_ne_some.mpr fun plaintext hopen => ?_
  have hlength := exact key nonce sealed plaintext fits hopen
  omega

end Aead

end RecordPrivacy
