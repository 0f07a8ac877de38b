import Minicomputer.Console.Number
import Minicomputer.Proofs.Assembly.Spelling

/-!
# Numbers typed at the console have a grammar

What can be typed for a value, said without saying how it is read:

```text
numeral = digit10 | '0x' digit16 | '0X' digit16
digit10 = ['+' | '-'] decimal+
digit16 = ['+' | '-'] hexadecimal+
```

* `Console.Numeral` -- the derivations of the grammar, with the text and the number of each;
* `Console.numberOf?_eq_some_iff` -- what is read are these texts, and what they denote;
* `Console.readWord?_eq` -- so it is when every step of the reading must fit in sixty-four bits;
* `Console.words_have_a_grammar` -- which texts stand for a word, and for which.
-/

namespace Minicomputer
namespace Console

open Grammar (Base Digits)

/-! ## The grammar -/

/-- The mark of the base in front of a number. -/
inductive Mark where
  | none
  | lower
  | upper
  deriving DecidableEq, Repr

namespace Mark

def text : Mark → List Char
  | none => []
  | lower => ['0', 'x']
  | upper => ['0', 'X']

def base : Mark → Base
  | none => .decimal
  | lower | upper => .hexadecimal

end Mark

/-- What stands between the mark and the digits. -/
inductive Sign where
  | none
  | plus
  | minus
  deriving DecidableEq, Repr

namespace Sign

def text : Sign → List Char
  | none => []
  | plus => ['+']
  | minus => ['-']

def factor : Sign → Int
  | none | plus => 1
  | minus => -1

end Sign

/-- A number with its mark and its sign.  There may be any number of leading zeros. -/
structure Numeral where
  mark : Mark
  sign : Sign
  digits : Digits mark.base

namespace Numeral

def text (numeral : Numeral) : List Char :=
  numeral.mark.text ++ (numeral.sign.text ++ numeral.digits.text)

def value (numeral : Numeral) : Int :=
  numeral.sign.factor * numeral.digits.value

end Numeral

/-! ## Taking a text apart -/

/-- There is a mark in front, or else the whole text is left. -/
theorem exists_mark (text : List Char) :
    ∃ (mark : Mark) (signed : List Char),
      splitBase text = (mark.base.radix, signed) ∧ text = mark.text ++ signed := by
  unfold splitBase
  split
  next signed => exact ⟨.lower, signed, rfl, rfl⟩
  next signed => exact ⟨.upper, signed, rfl, rfl⟩
  next => exact ⟨.none, text, rfl, rfl⟩

theorem exists_sign (signed : List Char) :
    ∃ (sign : Sign) (digits : List Char),
      splitSign signed = (sign.factor, digits) ∧ signed = sign.text ++ digits := by
  unfold splitSign
  split
  next digits => exact ⟨.plus, digits, rfl, rfl⟩
  next digits => exact ⟨.minus, digits, rfl, rfl⟩
  next => exact ⟨.none, signed, rfl, rfl⟩

theorem splitSign_of_unsigned {signed : List Char} (plus : ∀ digits, signed ≠ '+' :: digits)
    (minus : ∀ digits, signed ≠ '-' :: digits) : splitSign signed = (1, signed) := by
  unfold splitSign
  split
  next => exact absurd rfl (plus _)
  next => exact absurd rfl (minus _)
  next => rfl

/-! ## Putting it together -/

theorem Sign.ne_mark (sign : Sign) : ∀ c ∈ sign.text, c ≠ 'x' ∧ c ≠ 'X' := by
  cases sign with
  | none | plus | minus => simp [Sign.text]

/-- Neither a sign nor a decimal digit is the second character of a mark. -/
theorem splitBase_decimal (sign : Sign) (digits : Digits .decimal) :
    splitBase (sign.text ++ digits.text) = (10, sign.text ++ digits.text) := by
  have unmarked : ∀ c ∈ sign.text ++ digits.text, c ≠ 'x' ∧ c ≠ 'X' := by
    intro c member
    rcases List.mem_append.mp member with signs | digit
    · exact sign.ne_mark c signs
    · have isDigit : Grammar.IsDigit c := digits.areDigits c digit
      constructor
      · rintro rfl
        exact absurd isDigit (by decide)
      · rintro rfl
        exact absurd isDigit (by decide)
  unfold splitBase
  split
  next signed same => exact absurd rfl (unmarked 'x' (by simp [same])).1
  next signed same => exact absurd rfl (unmarked 'X' (by simp [same])).2
  next => rfl

theorem splitBase_append (mark : Mark) (sign : Sign) (digits : Digits mark.base) :
    splitBase (mark.text ++ (sign.text ++ digits.text)) =
      (mark.base.radix, sign.text ++ digits.text) := by
  cases mark with
  | none => exact splitBase_decimal sign digits
  | lower | upper => rfl

/-- A digit is not a sign. -/
theorem splitSign_append {base : Base} (sign : Sign) (digits : Digits base) :
    splitSign (sign.text ++ digits.text) = (sign.factor, digits.text) := by
  obtain ⟨digits, some_digit, areDigits⟩ := digits
  cases sign with
  | plus | minus => rfl
  | none =>
    apply splitSign_of_unsigned
    · rintro rest rfl
      have isDigit : base.IsDigit '+' := areDigits '+' (List.mem_cons_self ..)
      cases base <;> exact absurd isDigit (by decide)
    · rintro rest rfl
      have isDigit : base.IsDigit '-' := areDigits '-' (List.mem_cons_self ..)
      cases base <;> exact absurd isDigit (by decide)

/-- What is read as a number are the texts of the grammar. -/
theorem numberOf?_eq_some_iff {text : List Char} {value : Int} :
    numberOf? text = some value ↔
      ∃ numeral : Numeral, numeral.text = text ∧ numeral.value = value := by
  constructor
  · intro read
    obtain ⟨mark, signed, based, rfl⟩ := exists_mark text
    obtain ⟨sign, digits, split, rfl⟩ := exists_sign signed
    unfold numberOf? at read
    rw [based] at read
    dsimp only at read
    rw [split] at read
    dsimp only at read
    split at read
    next isNumber =>
      obtain ⟨some_digit, all⟩ := isNumber
      have areDigits : ∀ c ∈ digits, mark.base.IsDigit c := fun c member =>
        Grammar.isDigitOf_iff.mp (List.all_eq_true.mp all c member)
      refine ⟨⟨mark, sign, digits, some_digit, areDigits⟩, rfl, ?_⟩
      rw [← Option.some.inj read, Grammar.digitsValue_eq _ areDigits]
      rfl
    next => cases read
  · rintro ⟨⟨mark, sign, digits⟩, rfl, rfl⟩
    have isNumber : digits.text ≠ [] ∧ digits.text.all (Text.isDigitOf mark.base.radix) :=
      ⟨digits.some_digit, List.all_eq_true.mpr fun c member =>
        Grammar.isDigitOf_iff.mpr (digits.areDigits c member)⟩
    unfold numberOf? Numeral.text
    rw [splitBase_append]
    dsimp only
    rw [splitSign_append]
    dsimp only
    rw [if_pos isNumber, Grammar.digitsValue_eq _ digits.areDigits]
    rfl

/-! ## In sixty-four bits -/

/-- Sixty-four bits with a sign can hold the number. -/
def Fits (value : Int) : Prop :=
  -2 ^ 63 ≤ value ∧ value < 2 ^ 63

instance (value : Int) : Decidable (Fits value) :=
  inferInstanceAs (Decidable (_ ∧ _))

def within64? (value : Int) : Option Int :=
  if Fits value then some value else none

/-- Reads digits onto a total, away from zero.  Every product and every sum must fit. -/
def accumulate? (radix : Nat) (sign : Sign) (total : Int) : List Char → Option Int
  | [] => some total
  | c :: rest =>
    (Text.digitValue? radix c).bind fun digit =>
      (within64? (total * radix)).bind fun product =>
        (within64? (product + sign.factor * digit)).bind fun next =>
          accumulate? radix sign next rest

/-- Reads a whole text, which must not be a mere sign. -/
def integer? (radix : Nat) : List Char → Option Int
  | [] => none
  | ['+'] => none
  | ['-'] => none
  | '+' :: digits => accumulate? radix .plus 0 digits
  | '-' :: digits => accumulate? radix .minus 0 digits
  | digits => accumulate? radix .none 0 digits

/-- The word of a typed text, if all arithmetic is that of sixty-four bits with a sign.  The two
ranges of words are told apart, and a negative number is cut to sixteen bits with its sign. -/
def readWord? (text : List Char) : Option UInt16 :=
  let (radix, signed) := splitBase text
  (integer? radix signed).bind fun value =>
    if 0 ≤ value ∧ value ≤ 0xFFFF then some (UInt16.ofNat value.toNat)
    else if -0x8000 ≤ value ∧ value ≤ -1 then some (Int16.ofInt value).toUInt16
    else none

/-- What is closer to zero on the same side fits as well. -/
theorem Fits.of_le {sign : Sign} {small large : Nat} (fits : Fits (sign.factor * large))
    (le : small ≤ large) : Fits (sign.factor * small) := by
  unfold Fits at fits ⊢
  cases sign with
  | none | plus =>
    simp only [Sign.factor] at fits ⊢
    omega
  | minus =>
    simp only [Sign.factor] at fits ⊢
    omega

section

variable {radix : Nat} (positive : 0 < radix)

include positive

/-- Further digits do not make a total smaller. -/
theorem le_foldl_digits (total : Nat) (digits : List Char) :
    total ≤ digits.foldl (fun total c => total * radix + (Text.digitValue? radix c).getD 0)
      total := by
  induction digits generalizing total with
  | nil => exact Nat.le_refl _
  | cons c rest ih =>
    calc total
        ≤ total * radix := Nat.le_mul_of_pos_right _ positive
      _ ≤ total * radix + (Text.digitValue? radix c).getD 0 := Nat.le_add_right ..
      _ ≤ _ := ih _

/-- As no total is larger than the last one, every step fits if the number does. -/
theorem accumulate?_eq_some_iff {sign : Sign} {total : Nat} (fits : Fits (sign.factor * total))
    {digits : List Char} {value : Int} :
    accumulate? radix sign (sign.factor * total) digits = some value ↔
      (∀ c ∈ digits, Text.isDigitOf radix c = true) ∧
        value = sign.factor * digits.foldl
          (fun total c => total * radix + (Text.digitValue? radix c).getD 0) total ∧
        Fits value := by
  induction digits generalizing total with
  | nil =>
    simp only [accumulate?, Option.some.injEq, List.foldl_nil]
    constructor
    · rintro rfl
      exact ⟨List.forall_mem_nil _, rfl, fits⟩
    · rintro ⟨-, rfl, -⟩
      rfl
  | cons c rest ih =>
    cases digit : Text.digitValue? radix c with
    | none =>
      have other : Text.isDigitOf radix c = false := by rw [Text.isDigitOf, digit]; rfl
      simp [accumulate?, digit, other]
    | some d =>
      have isDigit : Text.isDigitOf radix c = true := by rw [Text.isDigitOf, digit]; rfl
      have product : sign.factor * total * radix = sign.factor * (total * radix : Nat) := by
        rw [Int.natCast_mul, Int.mul_assoc]
      have sum : sign.factor * (total * radix : Nat) + sign.factor * d =
          sign.factor * (total * radix + d : Nat) := by
        rw [Int.natCast_add, Int.mul_add]
      simp only [accumulate?, digit, Option.bind_some, product, List.foldl_cons, Option.getD_some,
        List.forall_mem_cons, isDigit, true_and]
      by_cases next : Fits (sign.factor * (total * radix + d : Nat))
      · rw [within64?, if_pos (next.of_le (Nat.le_add_right ..)), Option.bind_some, sum, within64?,
          if_pos next, Option.bind_some]
        exact ih next
      · -- The number would be at least as large as this total.
        have beyond : ¬ Fits (sign.factor * (rest.foldl
            (fun total c => total * radix + (Text.digitValue? radix c).getD 0)
            (total * radix + d) : Nat)) :=
          fun fits => next (fits.of_le (le_foldl_digits positive _ rest))
        have stops : ((within64? (sign.factor * (total * radix : Nat))).bind fun product =>
            (within64? (product + sign.factor * d)).bind fun next =>
              accumulate? radix sign next rest) = none := by
          unfold within64?
          split
          · rw [Option.bind_some, sum, if_neg next, Option.bind_none]
          · exact Option.bind_none ..
        rw [stops]
        constructor
        · intro read
          cases read
        · rintro ⟨-, rfl, fits⟩
          exact absurd fits beyond

theorem integer?_eq_some_iff {signed : List Char} {value : Int} :
    integer? radix signed = some value ↔
      ((splitSign signed).2 ≠ [] ∧ (splitSign signed).2.all (Text.isDigitOf radix)) ∧
        value = (splitSign signed).1 * Text.digitsValue radix (splitSign signed).2 ∧
        Fits value := by
  -- Behind any sign the digits are read onto nothing.
  have fromZero (sign : Sign) (digits : List Char) (some_digit : digits ≠ []) :
      accumulate? radix sign 0 digits = some value ↔
        (digits ≠ [] ∧ digits.all (Text.isDigitOf radix)) ∧
          value = sign.factor * Text.digitsValue radix digits ∧ Fits value := by
    have zero : Fits (sign.factor * (0 : Nat)) := by
      rw [Int.natCast_zero, Int.mul_zero]
      decide
    have read : accumulate? radix sign (sign.factor * (0 : Nat)) digits = some value ↔ _ :=
      accumulate?_eq_some_iff positive zero
    rw [Int.natCast_zero, Int.mul_zero] at read
    rw [read, List.all_eq_true]
    simp only [ne_eq, some_digit, not_false_eq_true, true_and]
    rfl
  unfold integer?
  split
  next => simp [splitSign]
  next => simp [splitSign]
  next => simp [splitSign]
  next digits other => exact fromZero .plus digits fun none => other (none ▸ rfl)
  next digits other => exact fromZero .minus digits fun none => other (none ▸ rfl)
  next empty _ _ plus minus =>
    rw [splitSign_of_unsigned plus minus]
    exact fromZero .none signed empty

end

/-! ## Words -/

/-- Sixty-four bits take nothing away but numbers that are too large for them. -/
theorem integer?_eq (text : List Char) :
    integer? (splitBase text).1 (splitBase text).2 = (numberOf? text).bind within64? := by
  obtain ⟨mark, signed, based, -⟩ := exists_mark text
  have positive : 0 < mark.base.radix := Nat.zero_lt_of_lt (Grammar.one_lt_radix mark.base)
  apply Option.ext
  intro value
  rw [based, integer?_eq_some_iff positive, numberOf?, based]
  dsimp only
  split
  next isNumber =>
    simp only [Option.bind_some, within64?]
    split
    next fits =>
      rw [Option.some.injEq]
      constructor
      · rintro ⟨-, rfl, -⟩
        rfl
      · rintro rfl
        exact ⟨isNumber, rfl, fits⟩
    next large =>
      constructor
      · rintro ⟨-, rfl, fits⟩
        exact absurd fits large
      · exact nofun
  next other =>
    constructor
    · rintro ⟨isNumber, -, -⟩
      exact absurd isNumber other
    · exact nofun

theorem toNat_toUInt16_ofInt (value : Int) :
    (Int16.ofInt value).toUInt16.toNat = (value % 0x10000).toNat := by
  show (BitVec.ofInt 16 value).toNat = _
  rw [BitVec.toNat_ofInt]
  rfl

/-- A text stands for the same word when every step of the reading must fit in sixty-four bits. -/
theorem readWord?_eq (text : List Char) : readWord? text = wordOf? text := by
  unfold readWord? wordOf?
  dsimp only
  rw [integer?_eq]
  cases numberOf? text with
  | none => rfl
  | some value =>
    simp only [Option.bind_some, within64?]
    by_cases fits : Fits value
    · rw [if_pos fits, Option.bind_some]
      by_cases natural : 0 ≤ value ∧ value ≤ 0xFFFF
      · have same : value.toNat = (value % 0x10000).toNat := by omega
        rw [if_pos natural, if_pos ⟨by omega, natural.2⟩, same]
      · rw [if_neg natural]
        by_cases negative : -0x8000 ≤ value ∧ value ≤ -1
        · have bounded : (value % 0x10000).toNat < 2 ^ 16 := by omega
          rw [if_pos negative, if_pos ⟨negative.1, by omega⟩]
          apply congrArg some
          apply UInt16.toNat_inj.mp
          rw [toNat_toUInt16_ofInt, UInt16.toNat_ofNat', Nat.mod_eq_of_lt bounded]
        · rw [if_neg negative, if_neg (by omega)]
    · rw [if_neg fits, Option.bind_none]
      unfold Fits at fits
      rw [if_neg (by omega)]

/-- The word that a number is cut to. -/
def pattern (value : Int) : UInt16 :=
  UInt16.ofNat (value % 0x10000).toNat

theorem toNat_pattern (value : Int) : ((pattern value).toNat : Int) = value % 0x10000 := by
  have bounded : (value % 0x10000).toNat < 2 ^ 16 := by omega
  rw [pattern, UInt16.toNat_ofNat', Nat.mod_eq_of_lt bounded]
  omega

/-- The numbers that stand for words, those around zero and those from zero. -/
def Admitted (value : Int) : Prop :=
  -0x8000 ≤ value ∧ value ≤ 0xFFFF

theorem wordOf?_text {numeral : Numeral} (admitted : Admitted numeral.value) :
    wordOf? numeral.text = some (pattern numeral.value) := by
  have number : numberOf? numeral.text = some numeral.value :=
    numberOf?_eq_some_iff.mpr ⟨numeral, rfl, rfl⟩
  rw [wordOf?, number]
  exact if_pos admitted

theorem exists_numeral {text : List Char} {word : UInt16} (read : wordOf? text = some word) :
    ∃ numeral : Numeral, numeral.text = text ∧ Admitted numeral.value ∧
      word = pattern numeral.value := by
  unfold wordOf? at read
  split at read
  next => cases read
  next value number =>
    obtain ⟨numeral, spelled, rfl⟩ := numberOf?_eq_some_iff.mp number
    split at read
    next admitted => exact ⟨numeral, spelled, admitted, (Option.some.inj read).symm⟩
    next => cases read

theorem wordOf?_eq_some_iff {text : List Char} {word : UInt16} :
    wordOf? text = some word ↔
      ∃ numeral : Numeral, numeral.text = text ∧ Admitted numeral.value ∧
        (word.toNat : Int) = numeral.value % 0x10000 := by
  constructor
  · intro read
    obtain ⟨numeral, spelled, admitted, rfl⟩ := exists_numeral read
    exact ⟨numeral, spelled, admitted, toNat_pattern numeral.value⟩
  · rintro ⟨numeral, rfl, admitted, same⟩
    rw [wordOf?_text admitted, Option.some.injEq, ← UInt16.toNat_inj]
    exact Int.ofNat.inj ((toNat_pattern numeral.value).trans same.symm)

theorem wordOf?_eq_none_iff {text : List Char} :
    wordOf? text = none ↔ ∀ numeral : Numeral, numeral.text = text → ¬ Admitted numeral.value := by
  constructor
  · rintro unread numeral rfl admitted
    cases unread.symm.trans (wordOf?_text admitted)
  · intro outside
    apply Option.eq_none_iff_forall_ne_some.mpr
    intro word read
    obtain ⟨numeral, spelled, admitted, -⟩ := exists_numeral read
    exact outside numeral spelled admitted

/-- The decimal digits of a number, behind a minus sign if it is negative. -/
def Numeral.decimal (value : Int) : Numeral where
  mark := .none
  sign := if value < 0 then .minus else .none
  digits := .ofNat .decimal 0 value.natAbs

namespace Numeral

theorem text_decimal (value : Int) : (decimal value).text = (Text.signedDecimal value).toList := by
  cases value with
  | ofNat n =>
    have natural : ¬ (Int.ofNat n < 0) := Int.not_lt.mpr (Int.natCast_nonneg n)
    simp only [text, decimal, if_neg natural]
    simp [Mark.text, Sign.text, Digits.ofNat, Text.signedDecimal, Text.decimal, Mark.base,
      Base.radix]
  | negSucc n => simp [text, decimal, Mark.text, Sign.text, Digits.ofNat, Text.signedDecimal,
      Text.decimal, Mark.base, Base.radix]

theorem value_decimal (value : Int) : (decimal value).value = value := by
  have magnitude : (decimal value).digits.value = value.natAbs := Digits.value_ofNat ..
  rw [Numeral.value, magnitude]
  by_cases negative : value < 0
  · simp only [decimal, if_pos negative, Sign.factor]
    omega
  · simp only [decimal, if_neg negative, Sign.factor]
    omega

end Numeral

/-- A text stands for a word exactly if it is a mark or none, a sign or none, and digits of the base
that is marked, and the number that it denotes is from -32768 to 65535; the word is that number
modulo `2 ^ 16`.  Any other text stands for nothing, so that nothing is lost when the number is
computed in sixty-four bits.  In particular every such number is read back from its decimal
digits. -/
theorem words_have_a_grammar :
    (∀ text, readWord? text = wordOf? text) ∧
    (∀ text word, wordOf? text = some word ↔
      ∃ numeral : Numeral, numeral.text = text ∧
        (-0x8000 ≤ numeral.value ∧ numeral.value ≤ 0xFFFF) ∧
        (word.toNat : Int) = numeral.value % 0x10000) ∧
    (∀ text, wordOf? text = none ↔
      ∀ numeral : Numeral, numeral.text = text →
        ¬ (-0x8000 ≤ numeral.value ∧ numeral.value ≤ 0xFFFF)) ∧
    ∀ value : Int, -0x8000 ≤ value → value ≤ 0xFFFF →
      ∃ word, wordOf? (Text.signedDecimal value).toList = some word ∧
        (word.toNat : Int) = value % 0x10000 := by
  refine ⟨readWord?_eq, fun _ _ => wordOf?_eq_some_iff, fun _ => wordOf?_eq_none_iff, ?_⟩
  intro value low high
  refine ⟨pattern value, ?_, toNat_pattern value⟩
  have admitted : Admitted (Numeral.decimal value).value := by
    rw [Numeral.value_decimal]
    exact ⟨low, high⟩
  rw [← Numeral.text_decimal, wordOf?_text admitted, Numeral.value_decimal]

/-- The smallest number and the largest one, and a sign behind a mark. -/
theorem words_have_a_grammar_bounds :
    (∃ word, wordOf? "-32768".toList = some word ∧ word = 0x8000) ∧
      (∃ word, wordOf? "65535".toList = some word ∧ word = 0xFFFF) ∧
      wordOf? "0x-0001".toList = some 0xFFFF := by
  obtain ⟨-, grammar, -, printed⟩ := words_have_a_grammar
  refine ⟨?_, ?_, ?_⟩
  · obtain ⟨word, read, value⟩ := printed (-0x8000) (by decide) (by decide)
    exact ⟨word, read, UInt16.toNat_inj.mp (Int.ofNat.inj value)⟩
  · obtain ⟨word, read, value⟩ := printed 0xFFFF (by decide) (by decide)
    exact ⟨word, read, UInt16.toNat_inj.mp (Int.ofNat.inj value)⟩
  · exact (grammar _ 0xFFFF).mpr
      ⟨⟨.lower, .minus, .ofNat .hexadecimal 4 1⟩, by decide, by decide, by decide⟩

end Console
end Minicomputer
