import Mathlib.Data.List.Basic
import Mathlib.Tactic.Common

/-!
# Hexadecimal text of byte strings

Bytes are written as two lower-case digits each, high half first, and read
back with either case accepted: two texts may therefore decode to the same
bytes, while the text of given bytes is unique. Decoding fails on a text of
odd length and on a character that is no hexadecimal digit.

## Main results

* `decode_encode` — the text of some bytes decodes to them.
* `encode_injective` — distinct bytes have distinct texts.
* `isAscii_of_decode` — a text that decodes is made of ASCII characters.
-/

namespace AirNote.Lib.Hex

/-- A byte string. -/
abbrev Bytes := List UInt8

/-- The lower-case digit of a value below sixteen. -/
def digitChar (n : Nat) : Char :=
  if n < 10 then Char.ofNat (48 + n) else Char.ofNat (87 + n)

/-- The value of a hexadecimal digit of either case. -/
def digitVal (c : Char) : Option Nat :=
  if '0' ≤ c ∧ c ≤ '9' then some (c.toNat - 48)
  else if 'a' ≤ c ∧ c ≤ 'f' then some (c.toNat - 87)
  else if 'A' ≤ c ∧ c ≤ 'F' then some (c.toNat - 55)
  else none

/-- The two digits of each byte in turn. -/
def encodeChars (bytes : Bytes) : List Char :=
  bytes.flatMap fun b => [digitChar (b.toNat / 16), digitChar (b.toNat % 16)]

/-- The hexadecimal text of some bytes. -/
def encode (bytes : Bytes) : String := String.ofList (encodeChars bytes)

/-- Read two digits at a time. -/
def decodeChars : List Char → Option Bytes
  | [] => some []
  | [_] => none
  | hi :: lo :: rest =>
      match digitVal hi, digitVal lo, decodeChars rest with
      | some h, some l, some bs => some (UInt8.ofNat (16 * h + l) :: bs)
      | _, _, _ => none

/-- The bytes of a hexadecimal text. -/
def decode (s : String) : Option Bytes := decodeChars s.toList

/-! ## Round trip -/

private theorem digitVal_digitChar {n : Nat} (h : n < 16) :
    digitVal (digitChar n) = some n := by
  have hall : ∀ m : Fin 16, digitVal (digitChar m) = some m.val := by decide
  exact hall ⟨n, h⟩

theorem decodeChars_encodeChars (bytes : Bytes) :
    decodeChars (encodeChars bytes) = some bytes := by
  induction bytes with
  | nil => rfl
  | cons b rest ih =>
      have hlt : b.toNat < 256 := b.toNat_lt
      have hhi : digitVal (digitChar (b.toNat / 16)) = some (b.toNat / 16) :=
        digitVal_digitChar (by omega)
      have hlo : digitVal (digitChar (b.toNat % 16)) = some (b.toNat % 16) :=
        digitVal_digitChar (by omega)
      have hsum : 16 * (b.toNat / 16) + b.toNat % 16 = b.toNat := by omega
      have hcons : encodeChars (b :: rest) =
          digitChar (b.toNat / 16) :: digitChar (b.toNat % 16) ::
            encodeChars rest := rfl
      rw [hcons, decodeChars, hhi, hlo, ih]
      simp [hsum]

@[simp] theorem decode_encode (bytes : Bytes) :
    decode (encode bytes) = some bytes := by
  rw [decode, encode, String.toList_ofList]
  exact decodeChars_encodeChars bytes

theorem encode_injective {xs ys : Bytes} (h : encode xs = encode ys) :
    xs = ys := by
  have hdec : decode (encode xs) = decode (encode ys) := by rw [h]
  rw [decode_encode, decode_encode] at hdec
  exact Option.some.inj hdec

/-! ## Decodable texts are ASCII -/

private theorem toNat_lt_of_digitVal {c : Char} {n : Nat}
    (h : digitVal c = some n) : c.toNat < 128 := by
  unfold digitVal at h
  split at h
  · next hc =>
      have hle : c.toNat ≤ '9'.toNat := hc.2
      have h9 : '9'.toNat = 57 := rfl
      omega
  · split at h
    · next hc =>
        have hle : c.toNat ≤ 'f'.toNat := hc.2
        have hf : 'f'.toNat = 102 := rfl
        omega
    · split at h
      · next hc =>
          have hle : c.toNat ≤ 'F'.toNat := hc.2
          have hF : 'F'.toNat = 70 := rfl
          omega
      · cases h

theorem ascii_of_decodeChars : ∀ {cs : List Char} {bytes : Bytes},
    decodeChars cs = some bytes → ∀ c ∈ cs, c.toNat < 128
  | [], _, _ => by simp
  | [_], _, h => by simp [decodeChars] at h
  | hi :: lo :: rest, _, h => by
      rw [decodeChars] at h
      cases hvh : digitVal hi with
      | none => simp [hvh] at h
      | some vh =>
          cases hvl : digitVal lo with
          | none => simp [hvh, hvl] at h
          | some vl =>
              cases hrest : decodeChars rest with
              | none => simp [hvh, hvl, hrest] at h
              | some bs =>
                  have ih := ascii_of_decodeChars hrest
                  intro c hc
                  rcases List.mem_cons.mp hc with rfl | hc
                  · exact toNat_lt_of_digitVal hvh
                  · rcases List.mem_cons.mp hc with rfl | hc
                    · exact toNat_lt_of_digitVal hvl
                    · exact ih c hc

/-- The text is made of ASCII characters. -/
def IsAscii (s : String) : Prop := ∀ c ∈ s.toList, c.toNat < 128

theorem isAscii_of_decode {s : String} {bytes : Bytes}
    (h : decode s = some bytes) : IsAscii s :=
  ascii_of_decodeChars h

end AirNote.Lib.Hex
