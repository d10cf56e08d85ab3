import ForeignCall.Arithmetic
import ForeignCall.Text.Blank

/-! # Settings

What a user can choose: how many call descriptors are kept, and whether layouts are verified. Each
can be given as text, as in an environment variable; a text that cannot be read leaves the default.
-/

namespace ForeignCall

structure Settings where
  capacity : Nat := 256
  verifyLayouts : Bool := true
  deriving DecidableEq, Repr

namespace Settings

/-- A number in decimal digits that fits an address, with blanks around it and perhaps a plus sign
before it. -/
def readCapacity? (text : String) : Option Nat :=
  let text := Text.trim text.toList
  let digits := if text.head? = some '+' then text.drop 1 else text
  if digits.isEmpty || !digits.all Char.isDigit then none
  else
    let number := Nat.ofDigitChars 10 digits 0
    if number < addressLimit then some number else none

/-- A yes or no, in one of four spellings each, with blanks around it. The case of ASCII letters does
not count. -/
def readFlag? (text : String) : Option Bool :=
  let word := String.ofList ((Text.trim text.toList).map Char.toLower)
  if word ∈ ["1", "true", "yes", "on"] then some true
  else if word ∈ ["0", "false", "no", "off"] then some false
  else none

/-- The defaults, changed by the texts that are given and can be read. -/
def ofTexts (capacity verifyLayouts : Option String) : Settings where
  capacity := (capacity.bind readCapacity?).getD 256
  verifyLayouts := (verifyLayouts.bind readFlag?).getD true

end Settings

end ForeignCall
