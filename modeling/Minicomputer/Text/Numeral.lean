/-!
# Numerals

Numbers as text, both ways.

* `Text.decimal`, `Text.signedDecimal`, `Text.hexadecimal` write a number;
* `Text.digitValue?` and `Text.digitsValue` read digits of a base up to 36;
* `Text.readInteger` reads a whole text as a number between two bounds and says what is wrong
  with it otherwise.
-/

namespace Minicomputer
namespace Text

/-! ## Writing -/

/-- Decimal digits, without leading zeros. -/
def decimal (n : Nat) : String :=
  String.ofList (Nat.toDigits 10 n)

/-- Decimal digits after a minus sign if the number is negative. -/
def signedDecimal : Int → String
  | .ofNat n => decimal n
  | .negSucc n => "-" ++ decimal (n + 1)

/-- Lower-case hexadecimal digits, with leading zeros up to `width` digits. -/
def hexadecimal (width n : Nat) : String :=
  String.ofList ((Nat.toDigits 16 n).leftpad width '0')

/-- The digits with `0x` in front of them. -/
def prefixedHex (width n : Nat) : String :=
  "0x" ++ hexadecimal width n

/-! ## Reading -/

/-- What a character counts as a digit: `0` to `9`, then the letters in either case. -/
def digitValue? (radix : Nat) (c : Char) : Option Nat :=
  let value :=
    if c.isDigit then c.toNat - '0'.toNat
    else if c.isLower then c.toNat - 'a'.toNat + 10
    else if c.isUpper then c.toNat - 'A'.toNat + 10
    else radix
  if value < radix then some value else none

def isDigitOf (radix : Nat) (c : Char) : Bool :=
  (digitValue? radix c).isSome

/-- The number that a row of digits denotes; a character that is no digit counts as zero. -/
def digitsValue (radix : Nat) (digits : List Char) : Nat :=
  digits.foldl (fun total c => total * radix + (digitValue? radix c).getD 0) 0

inductive IntegerError where
  | empty
  | invalidDigit
  | tooLarge
  | tooSmall
  deriving DecidableEq, Repr

namespace IntegerError

def message : IntegerError → String
  | empty => "cannot parse integer from empty string"
  | invalidDigit => "invalid digit found in string"
  | tooLarge => "number too large to fit in target type"
  | tooSmall => "number too small to fit in target type"

end IntegerError

/-- Reads digits from left to right onto `total`, away from zero.  The first character that is no
digit, or that takes the total out of bounds, decides the complaint. -/
def readDigits (low high : Int) (negative : Bool) (total : Int) :
    List Char → Except IntegerError Int
  | [] => .ok total
  | c :: rest =>
    match digitValue? 10 c with
    | none => .error .invalidDigit
    | some digit =>
      let next := if negative then total * 10 - digit else total * 10 + digit
      if high < next then .error .tooLarge
      else if next < low then .error .tooSmall
      else readDigits low high negative next rest

/-- Reads a whole decimal text as a number from `low` to `high`.  A plus sign is always allowed, a
minus sign only where there are negative numbers to denote. -/
def readInteger (low high : Int) (text : String) : Except IntegerError Int :=
  match text.toList with
  | [] => .error .empty
  | ['+'] => .error .invalidDigit
  | ['-'] => .error .invalidDigit
  | '+' :: digits => readDigits low high false 0 digits
  | '-' :: digits =>
    if low < 0 then readDigits low high true 0 digits else .error .invalidDigit
  | digits => readDigits low high false 0 digits

end Text
end Minicomputer
