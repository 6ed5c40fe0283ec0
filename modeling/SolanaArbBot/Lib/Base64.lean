import Mathlib.Data.List.Basic
import Mathlib.Tactic.Common

/-! The standard base64 alphabet with canonical padding: what the encoder writes
decodes to the bytes it came from, and only canonical text is accepted. -/
namespace SolanaArbBot.Lib.Base64

def toChar (n : Nat) : Char :=
  if n < 26 then Char.ofNat (65 + n)
  else if n < 52 then Char.ofNat (71 + n)
  else if n < 62 then Char.ofNat (n - 4)
  else if n = 62 then '+' else '/'

def ofChar (c : Char) : Option Nat :=
  if 'A' ≤ c ∧ c ≤ 'Z' then some (c.toNat - 65)
  else if 'a' ≤ c ∧ c ≤ 'z' then some (c.toNat - 71)
  else if '0' ≤ c ∧ c ≤ '9' then some (c.toNat + 4)
  else if c = '+' then some 62
  else if c = '/' then some 63
  else none

/-- Three bytes make four characters; a short tail is padded. -/
def encodeChars : List UInt8 → List Char
  | [] => []
  | [a] => [toChar (a.toNat / 4), toChar (a.toNat % 4 * 16), '=', '=']
  | [a, b] => [toChar (a.toNat / 4), toChar (a.toNat % 4 * 16 + b.toNat / 16),
      toChar (b.toNat % 16 * 4), '=']
  | a :: b :: c :: rest =>
    toChar (a.toNat / 4) :: toChar (a.toNat % 4 * 16 + b.toNat / 16) ::
      toChar (b.toNat % 16 * 4 + c.toNat / 64) :: toChar (c.toNat % 64) :: encodeChars rest

/-- The padded last group: one or two bytes whose unused low bits are zero. -/
def decodeTail (c0 c1 c2 : Char) : Option (List UInt8) := do
  let s0 ← ofChar c0
  let s1 ← ofChar c1
  if c2 = '=' then
    if s1 % 16 = 0 then some [UInt8.ofNat (s0 * 4 + s1 / 16)] else none
  else
    let s2 ← ofChar c2
    if s2 % 4 = 0 then
      some [UInt8.ofNat (s0 * 4 + s1 / 16), UInt8.ofNat (s1 % 16 * 16 + s2 / 4)]
    else none

/-- Groups of four characters; padding is accepted in the last group only. -/
def decodeChars : List Char → Option (List UInt8)
  | [] => some []
  | c0 :: c1 :: c2 :: c3 :: rest =>
    if c3 = '=' then (if rest = [] then decodeTail c0 c1 c2 else none)
    else do
      let s0 ← ofChar c0
      let s1 ← ofChar c1
      let s2 ← ofChar c2
      let s3 ← ofChar c3
      let bytes ← decodeChars rest
      some (UInt8.ofNat (s0 * 4 + s1 / 16) :: UInt8.ofNat (s1 % 16 * 16 + s2 / 4) ::
        UInt8.ofNat (s2 % 4 * 64 + s3) :: bytes)
  | _ => none

def encode (data : List UInt8) : String := String.ofList (encodeChars data)

def decode (text : String) : Option (List UInt8) := decodeChars text.toList

private theorem ofChar_toChar {n : Nat} (h : n < 64) : ofChar (toChar n) = some n := by
  have hall : ∀ n < 64, ofChar (toChar n) = some n := by decide
  exact hall n h

private theorem toChar_ne_pad {n : Nat} (h : n < 64) : toChar n ≠ '=' := by
  have hall : ∀ n < 64, toChar n ≠ '=' := by decide
  exact hall n h

private theorem byte_lt (a : UInt8) : a.toNat < 256 := a.toNat_lt

private theorem ofNat_eq {a : UInt8} {n : Nat} (h : n = a.toNat) : UInt8.ofNat n = a := by
  rw [h, UInt8.ofNat_toNat]

private theorem decodeChars_encodeChars (data : List UInt8) :
    decodeChars (encodeChars data) = some data := by
  induction data using encodeChars.induct with
  | case1 => rfl
  | case2 a =>
    have ha := byte_lt a
    have h0 := ofChar_toChar (n := a.toNat / 4) (by omega)
    have h1 := ofChar_toChar (n := a.toNat % 4 * 16) (by omega)
    have hb : UInt8.ofNat (a.toNat / 4 * 4 + a.toNat % 4 * 16 / 16) = a := ofNat_eq (by omega)
    have hz : a.toNat % 4 * 16 % 16 = 0 := by omega
    simp only [encodeChars, decodeChars, decodeTail, if_true, h0, h1, hb, hz,
      Option.bind_eq_bind, Option.bind_some]
  | case3 a b =>
    have ha := byte_lt a
    have hb := byte_lt b
    have h0 := ofChar_toChar (n := a.toNat / 4) (by omega)
    have h1 := ofChar_toChar (n := a.toNat % 4 * 16 + b.toNat / 16) (by omega)
    have h2 := ofChar_toChar (n := b.toNat % 16 * 4) (by omega)
    have hp := toChar_ne_pad (n := b.toNat % 16 * 4) (by omega)
    have hA : UInt8.ofNat (a.toNat / 4 * 4 + (a.toNat % 4 * 16 + b.toNat / 16) / 16) = a :=
      ofNat_eq (by omega)
    have hB : UInt8.ofNat ((a.toNat % 4 * 16 + b.toNat / 16) % 16 * 16 + b.toNat % 16 * 4 / 4) = b :=
      ofNat_eq (by omega)
    have hz : b.toNat % 16 * 4 % 4 = 0 := by omega
    simp only [encodeChars, decodeChars, decodeTail, if_true, hp, if_false, h0, h1, h2, hA, hB, hz,
      Option.bind_eq_bind, Option.bind_some]
  | case4 a b c rest ih =>
    have ha := byte_lt a
    have hb := byte_lt b
    have hc := byte_lt c
    have h0 := ofChar_toChar (n := a.toNat / 4) (by omega)
    have h1 := ofChar_toChar (n := a.toNat % 4 * 16 + b.toNat / 16) (by omega)
    have h2 := ofChar_toChar (n := b.toNat % 16 * 4 + c.toNat / 64) (by omega)
    have h3 := ofChar_toChar (n := c.toNat % 64) (by omega)
    have hp := toChar_ne_pad (n := c.toNat % 64) (by omega)
    have hA : UInt8.ofNat (a.toNat / 4 * 4 + (a.toNat % 4 * 16 + b.toNat / 16) / 16) = a :=
      ofNat_eq (by omega)
    have hB : UInt8.ofNat ((a.toNat % 4 * 16 + b.toNat / 16) % 16 * 16 +
        (b.toNat % 16 * 4 + c.toNat / 64) / 4) = b := ofNat_eq (by omega)
    have hC : UInt8.ofNat ((b.toNat % 16 * 4 + c.toNat / 64) % 4 * 64 + c.toNat % 64) = c :=
      ofNat_eq (by omega)
    simp only [encodeChars, decodeChars, hp, if_false, h0, h1, h2, h3, ih, hA, hB, hC,
      Option.bind_eq_bind, Option.bind_some]

/-- Encoded bytes decode to themselves. -/
theorem decode_encode (data : List UInt8) : decode (encode data) = some data := by
  rw [decode, encode, String.toList_ofList, decodeChars_encodeChars]

example : encode [77, 97, 110, 77] = "TWFuTQ==" := by decide

end SolanaArbBot.Lib.Base64
