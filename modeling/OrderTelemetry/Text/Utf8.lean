/-!
# Characters as octets

A character is written as one to four octets: the first says how many follow, and the others carry
six bits each.  `Utf8.decode` reads octets that may come from anywhere: where no character can go
on, what has been read of it counts as one replacement character, and the octet that does not fit
begins anew.
-/

namespace OrderTelemetry.Text.Utf8

/-- The octets of a character. -/
def encodeChar (c : Char) : List Nat :=
  let n := c.toNat
  let tail (shift : Nat) := 0x80 + n / Nat.pow 64 shift % 64
  if n < 0x80 then [n]
  else if n < 0x800 then [0xC0 + n / 64, tail 0]
  else if n < 0x10000 then [0xE0 + n / 0x1000, tail 1, tail 0]
  else [0xF0 + n / 0x40000, tail 2, tail 1, tail 0]

/-- The octets of a text. -/
def encode (s : List Char) : List Nat := s.flatMap encodeChar

/-- A character that has been read in part: the bits so far, how many octets are missing, and the
bounds of the next one. -/
structure Partial where
  bits : Nat
  missing : Nat
  low : Nat
  high : Nat

/-- What stands for octets that are no character. -/
def replacement : Char := '\uFFFD'

/-- The beginning of a character of several octets. -/
def opening (octet : Nat) : Option Partial :=
  if 0xC2 ≤ octet ∧ octet ≤ 0xDF then some ⟨octet - 0xC0, 1, 0x80, 0xBF⟩
  else if octet = 0xE0 then some ⟨0, 2, 0xA0, 0xBF⟩
  else if octet = 0xED then some ⟨0xD, 2, 0x80, 0x9F⟩
  else if 0xE1 ≤ octet ∧ octet ≤ 0xEF then some ⟨octet - 0xE0, 2, 0x80, 0xBF⟩
  else if octet = 0xF0 then some ⟨0, 3, 0x90, 0xBF⟩
  else if 0xF1 ≤ octet ∧ octet ≤ 0xF3 then some ⟨octet - 0xF0, 3, 0x80, 0xBF⟩
  else if octet = 0xF4 then some ⟨4, 3, 0x80, 0x8F⟩
  else none

/-- The characters of octets that follow the beginning of a character, or of all octets. -/
def decodeFrom : Option Partial → List Nat → List Char
  | none, [] => []
  | some _, [] => [replacement]
  | state, octet :: rest =>
    let anew (before : List Char) : List Char :=
      if octet < 0x80 then before ++ Char.ofNat octet :: decodeFrom none rest
      else match opening octet with
        | some p => before ++ decodeFrom (some p) rest
        | none => before ++ replacement :: decodeFrom none rest
    match state with
    | none => anew []
    | some p =>
      if p.low ≤ octet ∧ octet ≤ p.high then
        let bits := p.bits * 64 + (octet - 0x80)
        if p.missing = 1 then Char.ofNat bits :: decodeFrom none rest
        else decodeFrom (some ⟨bits, p.missing - 1, 0x80, 0xBF⟩) rest
      else anew [replacement]

/-- The characters of octets. -/
def decode (octets : List Nat) : List Char := decodeFrom none octets

end OrderTelemetry.Text.Utf8
