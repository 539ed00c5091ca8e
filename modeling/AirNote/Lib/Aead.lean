import Mathlib.Data.List.Basic
import Mathlib.Tactic.Common

/-!
# Authenticated encryption with a stream and a tag

A text is encrypted by a keyed stream that takes itself back, and a keyed tag
is computed over the ciphertext and some data beside it. Whoever decrypts
computes the tag again and answers only where it is the one that came along.

## Main results

* `decrypt_encrypt` — what was encrypted is decrypted.
* `decrypt_beside` — beside other data, what was encrypted is decrypted exactly
  where the two have one tag.
-/

namespace AirNote.Lib.Aead

/-- A stream and a tag, for keys `κ`, nonces `ν` and texts of `β`. -/
structure Cipher (κ ν β : Type*) where
  stream : κ → ν → List β → List β
  tag : κ → ν → List β → List β → List β
  /-- The length of every tag. -/
  tagLength : Nat
  stream_stream : ∀ k n text, stream k n (stream k n text) = text
  length_stream : ∀ k n text, (stream k n text).length = text.length
  length_tag : ∀ k n aad text, (tag k n aad text).length = tagLength

variable {κ ν β : Type*} (C : Cipher κ ν β)

/-- The ciphertext and the tag of a text beside some data. -/
def Cipher.encrypt (k : κ) (n : ν) (aad text : List β) : List β × List β :=
  (C.stream k n text, C.tag k n aad (C.stream k n text))

/-- The text of a ciphertext, where the tag is right. -/
def Cipher.decrypt [DecidableEq β] (k : κ) (n : ν)
    (aad sealedText tag : List β) : Option (List β) :=
  if C.tag k n aad sealedText = tag then some (C.stream k n sealedText)
  else none

variable [DecidableEq β] {C}

/-- Beside other data, what was encrypted is decrypted where the tags agree. -/
theorem decrypt_beside (k : κ) (n : ν) (aad aad' text : List β) :
    C.decrypt k n aad' (C.encrypt k n aad text).1
        (C.encrypt k n aad text).2 =
      if C.tag k n aad' (C.stream k n text) = C.tag k n aad (C.stream k n text)
      then some text else none := by
  rw [Cipher.encrypt, Cipher.decrypt, C.stream_stream]

/-- What was encrypted is decrypted. -/
theorem decrypt_encrypt (k : κ) (n : ν) (aad text : List β) :
    C.decrypt k n aad (C.encrypt k n aad text).1
      (C.encrypt k n aad text).2 = some text :=
  (decrypt_beside k n aad aad text).trans (if_pos rfl)

/-! ## The tag behind the ciphertext -/

omit [DecidableEq β] in
/-- Ciphertext and tag, taken apart again. -/
theorem take_drop_tag (k : κ) (n : ν) (aad text : List β) :
    let all := C.stream k n text ++ C.tag k n aad (C.stream k n text)
    all.take (all.length - C.tagLength) = C.stream k n text ∧
      all.drop (all.length - C.tagLength) =
        C.tag k n aad (C.stream k n text) := by
  intro all
  have hlen : all.length - C.tagLength = (C.stream k n text).length := by
    rw [List.length_append, C.length_tag, Nat.add_sub_cancel]
  rw [hlen]
  exact ⟨List.take_left, List.drop_left⟩

end AirNote.Lib.Aead
