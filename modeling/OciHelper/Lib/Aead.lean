import Mathlib.Data.List.Basic
import Mathlib.Logic.Function.Basic

/-!
# An ideal AEAD with 12-byte nonces and 16-byte tags

* `Scheme` : the ciphertexts; `Message`, `Log` : what has been sealed so far, under which key and nonce;
* `newCipher` : a cipher has a key of 16, 24 or 32 bytes;
* `sealIn`, `openIn` : sealing adds a message to the log, and only the messages in the log are opened;
* `openIn_eq_some_iff` : what opens, and to what;
* `openIn_isSome` : opening under a nonce of 12 bytes does not panic.
-/

namespace Aead

abbrev Bytes := List UInt8

/-- The ciphertext, with its tag, of a plaintext under a key and a nonce. -/
structure Scheme where
  ciphertext : Bytes → Bytes → Bytes → Bytes
  length_ciphertext : ∀ k n p, (ciphertext k n p).length = p.length + 16
  ciphertext_injective : ∀ k n, Function.Injective (ciphertext k n)

structure Message where
  key : Bytes
  nonce : Bytes
  plain : Bytes
  deriving DecidableEq, Repr

abbrev Log := List Message

def newCipher (key : Bytes) : Option Bytes :=
  if key.length = 16 ∨ key.length = 24 ∨ key.length = 32 then some key else none

theorem newCipher_eq_some {key k : Bytes} (h : newCipher key = some k) : k = key := by
  unfold newCipher at h
  split at h
  · exact (Option.some.inj h).symm
  · exact absurd h (by simp)

theorem newCipher_of_length {key : Bytes} (h : key.length = 32) : newCipher key = some key := by
  simp [newCipher, h]

variable (A : Scheme)

/-- The ciphertext, and the log with the message. -/
def Scheme.sealIn (log : Log) (k n p : Bytes) : Bytes × Log := (A.ciphertext k n p, ⟨k, n, p⟩ :: log)

/-- The outer `none` is the panic on a nonce of another length, the inner one that nothing opens. -/
def Scheme.openIn (log : Log) (k n c : Bytes) : Option (Option Bytes) :=
  if n.length = 12 then
    some ((log.find? fun m => m.key = k ∧ m.nonce = n ∧ A.ciphertext k n m.plain = c).map Message.plain)
  else none

variable {A} {log : Log} {k n c p : Bytes}

theorem openIn_isSome (h : n.length = 12) : (A.openIn log k n c).isSome := by
  simp [Scheme.openIn, h]

theorem openIn_eq_some_iff (h : n.length = 12) :
    A.openIn log k n c = some (some p) ↔ ⟨k, n, p⟩ ∈ log ∧ c = A.ciphertext k n p := by
  simp only [Scheme.openIn, if_pos h, Option.some.injEq, Option.map_eq_some_iff]
  constructor
  · rintro ⟨m, hm, rfl⟩
    have hmem := List.mem_of_find?_eq_some hm
    obtain ⟨rfl, rfl, hc⟩ : m.key = k ∧ m.nonce = n ∧ A.ciphertext k n m.plain = c := by
      simpa using List.find?_some hm
    exact ⟨hmem, hc.symm⟩
  · rintro ⟨hmem, rfl⟩
    -- the first message that matches has the same plaintext
    have hsome : (log.find? fun m =>
        m.key = k ∧ m.nonce = n ∧ A.ciphertext k n m.plain = A.ciphertext k n p).isSome := by
      rw [List.find?_isSome]
      exact ⟨⟨k, n, p⟩, hmem, by simp⟩
    obtain ⟨m, hm⟩ := Option.isSome_iff_exists.mp hsome
    obtain ⟨-, -, hc⟩ : m.key = k ∧ m.nonce = n ∧ A.ciphertext k n m.plain = A.ciphertext k n p := by
      simpa using List.find?_some hm
    exact ⟨m, hm, A.ciphertext_injective k n hc⟩

end Aead
