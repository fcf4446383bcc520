/-!
Half of a surrogate pair can be spelled by an escape but is no character. A text carries it as a
code point of a plane without characters, and every writer spells it as an escape again.
-/
namespace SwitchLexicon.Text

def isHighSurrogate (n : Nat) : Bool :=
  decide (0xD800 ≤ n) && decide (n ≤ 0xDBFF)

def isLowSurrogate (n : Nat) : Bool :=
  decide (0xDC00 ≤ n) && decide (n ≤ 0xDFFF)

/-- The character of a code point, surrogates carried. -/
def ofCode (n : Nat) : Char :=
  Char.ofNat (if isHighSurrogate n || isLowSurrogate n then 0xD0000 + n else n)

def surrogate? (c : Char) : Option Nat :=
  if isHighSurrogate (c.toNat - 0xD0000) || isLowSurrogate (c.toNat - 0xD0000) then
    some (c.toNat - 0xD0000)
  else none

def joinSurrogates (high low : Nat) : Nat :=
  0x10000 + (high - 0xD800) * 0x400 + (low - 0xDC00)

end SwitchLexicon.Text
