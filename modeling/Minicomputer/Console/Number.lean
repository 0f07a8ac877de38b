import Minicomputer.Text.Numeral

/-!
# Numbers typed at the console

A value for the program is typed as a number in base 10, or in base 16 behind `0x`.  A word has
sixteen bits, which are read as a number from 0 or as a number around 0; what is typed may mean
either, so everything from -32768 to 65535 is accepted, and a negative number stands for its two's
complement.

The sign comes after the mark of the base, and a number may have any number of leading zeros.
-/

namespace Minicomputer
namespace Console

/-- The base of a number, and what is left of it behind the mark of the base. -/
def splitBase : List Char → Nat × List Char
  | '0' :: 'x' :: rest => (16, rest)
  | '0' :: 'X' :: rest => (16, rest)
  | text => (10, text)

def splitSign : List Char → Int × List Char
  | '+' :: digits => (1, digits)
  | '-' :: digits => (-1, digits)
  | digits => (1, digits)

def numberOf? (text : List Char) : Option Int :=
  let (radix, signed) := splitBase text
  let (sign, digits) := splitSign signed
  if digits ≠ [] ∧ digits.all (Text.isDigitOf radix) then
    some (sign * Text.digitsValue radix digits)
  else none

/-- The word that a typed text stands for. -/
def wordOf? (text : List Char) : Option UInt16 :=
  match numberOf? text with
  | none => none
  | some value =>
    if -0x8000 ≤ value ∧ value ≤ 0xFFFF then some (UInt16.ofNat (value % 0x10000).toNat)
    else none

end Console
end Minicomputer
