/-!
# Blank characters

The characters with the Unicode property White_Space, and what is left of a text once they are
removed from both ends.  Every text that names something (an order, a broker, a symbol) is compared
after this trimming, so `trim` is the one place that decides which characters may surround a name.

The zero width space U+200B, the byte order mark U+FEFF and the separators U+001C to U+001F do not
have the property.
-/

namespace OrderTelemetry.Text

/-- The code points with the property White_Space, as ranges with both ends included. -/
def blankRanges : List (Nat × Nat) :=
  [(0x9, 0xD), (0x20, 0x20), (0x85, 0x85), (0xA0, 0xA0), (0x1680, 0x1680), (0x2000, 0x200A),
   (0x2028, 0x2029), (0x202F, 0x202F), (0x205F, 0x205F), (0x3000, 0x3000)]

/-- Whether a character has the property White_Space. -/
def isBlank (c : Char) : Bool :=
  blankRanges.any fun r => r.1 ≤ c.toNat && c.toNat ≤ r.2

/-- The characters without the blank ones at the start. -/
def trimStart (s : List Char) : List Char := s.dropWhile isBlank

/-- The characters without the blank ones at the end. -/
def trimEnd (s : List Char) : List Char := (s.reverse.dropWhile isBlank).reverse

/-- A text without the blank characters at both ends. -/
def trim (s : String) : String := String.ofList (trimEnd (trimStart s.toList))

/-- Whether a text has nothing but blank characters. -/
def blank (s : String) : Bool := (trim s).isEmpty

/-! ### Letter case

Only the letters `a` to `z` have two cases here: names from brokers are compared by their ASCII
letters, and all other characters stand for themselves. -/

/-- A text with the letters `a` to `z` in upper case. -/
def upper (s : String) : String := String.ofList (s.toList.map Char.toUpper)

/-- The small form of a character as far as it is an ASCII letter: the letters `A` to `Z`, and the
Kelvin sign, which is the only other character whose small form is one. -/
def lowerChar (c : Char) : Char := if c.toNat = 0x212A then 'k' else c.toLower

/-- A text with every character that has an ASCII letter as its small form replaced by it. -/
def lower (s : String) : String := String.ofList (s.toList.map lowerChar)

end OrderTelemetry.Text
