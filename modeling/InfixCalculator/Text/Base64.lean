/-!
# Bytes in base 64

Four characters of the alphabet stand for three bytes. Characters outside of it are skipped, and what
follows the padding is not looked at; but the last group must be complete, padding included.
-/

namespace InfixCalculator.Text.Base64

/-- The six bits that a character of the alphabet stands for. -/
def sextet? (c : Char) : Option Nat :=
  if 'A' ≤ c ∧ c ≤ 'Z' then some (c.toNat - 'A'.toNat)
  else if 'a' ≤ c ∧ c ≤ 'z' then some (c.toNat - 'a'.toNat + 26)
  else if '0' ≤ c ∧ c ≤ '9' then some (c.toNat - '0'.toNat + 52)
  else if c = '+' then some 62
  else if c = '/' then some 63
  else none

/-- What is known while a text is decoded. -/
structure State where
  /-- How many characters of the current group have been read. -/
  place : Nat := 0
  /-- How many padding characters have been read in a row. -/
  padding : Nat := 0
  /-- The bits that have not become part of a byte yet. -/
  left : Nat := 0
  /-- The bytes, the last one first. -/
  bytes : List UInt8 := []

/-- Takes six bits. -/
def State.push (s : State) (bits : Nat) : State :=
  match s.place with
  | 0 => { s with place := 1, padding := 0, left := bits }
  | 1 => ⟨2, 0, bits % 16, (s.left * 4 + bits / 16).toUInt8 :: s.bytes⟩
  | 2 => ⟨3, 0, bits % 4, (s.left * 16 + bits / 4).toUInt8 :: s.bytes⟩
  | _ => ⟨0, 0, 0, (s.left * 64 + bits).toUInt8 :: s.bytes⟩

/-- Decodes from a state on. -/
def decodeFrom (s : State) : List Char → Option (List UInt8)
  | [] => if s.place = 0 then some s.bytes.reverse else none
  | c :: rest =>
    if c = '=' then
      if 2 ≤ s.place then
        if 4 ≤ s.place + (s.padding + 1) then some s.bytes.reverse
        else decodeFrom { s with padding := s.padding + 1 } rest
      else decodeFrom s rest
    else
      match sextet? c with
      | some bits => decodeFrom (s.push bits) rest
      | none => decodeFrom s rest

/-- The bytes that a text stands for. -/
def decode? (s : List Char) : Option (List UInt8) :=
  decodeFrom {} s

end InfixCalculator.Text.Base64
