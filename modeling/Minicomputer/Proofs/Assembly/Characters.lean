import Mathlib.Data.List.Induction
import Mathlib.Data.List.TakeWhile
import Mathlib.Tactic.SplitIfs
import Minicomputer.Proofs.Assembly.Grammar

/-!
# Characters of a line

The scanners decide by Boolean tests what the grammar describes by classes of characters.  Here the
two are put together, and with them the ways in which a text can go on: a scanner stops where the
next character is outside its class.
-/

namespace Minicomputer
namespace Grammar

/-! ## Classes of characters -/

theorem isSpace_iff {c : Char} : Line.isSpace c = true ↔ IsSpace c := by
  simp [Line.isSpace, IsSpace]

theorem isLower_iff {c : Char} : c.isLower = true ↔ 'a' ≤ c ∧ c ≤ 'z' := by
  have both : c.isLower = (decide ('a' ≤ c) && decide (c ≤ 'z')) := rfl
  rw [both, Bool.and_eq_true, decide_eq_true_eq, decide_eq_true_eq]

theorem isUpper_iff {c : Char} : c.isUpper = true ↔ 'A' ≤ c ∧ c ≤ 'Z' := by
  have both : c.isUpper = decide ('A' ≤ c ∧ c ≤ 'Z') := rfl
  rw [both, decide_eq_true_eq]

theorem isAlpha_iff {c : Char} : c.isAlpha = true ↔ IsLetter c := by
  have either : c.isAlpha = (c.isUpper || c.isLower) := rfl
  rw [either, Bool.or_eq_true, isUpper_iff, isLower_iff]
  exact Iff.rfl

theorem isDigit_iff {c : Char} : c.isDigit = true ↔ IsDigit c := by
  simp only [Char.isDigit, IsDigit, Bool.and_eq_true, decide_eq_true_eq, ge_iff_le]
  rfl

theorem isWordStart_iff {c : Char} : Line.isWordStart c = true ↔ StartsWord c := by
  simp [Line.isWordStart, StartsWord, isAlpha_iff, or_assoc]

theorem isWordRest_iff {c : Char} : Line.isWordRest c = true ↔ ContinuesWord c := by
  simp only [Line.isWordRest, ContinuesWord, StartsWord, Char.isAlphanum, Bool.or_eq_true,
    isAlpha_iff, isDigit_iff, beq_iff_eq]
  constructor
  · rintro (((letter | digit) | low) | dot)
    · exact .inl (.inl letter)
    · exact .inr digit
    · exact .inl (.inr (.inl low))
    · exact .inl (.inr (.inr dot))
  · rintro ((letter | low | dot) | digit)
    · exact .inl (.inl (.inl letter))
    · exact .inl (.inr low)
    · exact .inr dot
    · exact .inl (.inl (.inr digit))

theorem le_iff_toNat {c d : Char} : c ≤ d ↔ c.toNat ≤ d.toNat :=
  Iff.rfl

/-- Where the machine reads digits in three ranges, the grammar has one class and one value. -/
theorem digitValue?_eq (base : Base) (c : Char) :
    Text.digitValue? base.radix c = if base.IsDigit c then some (digitValue c) else none := by
  -- With the bounds as numbers the ranges are compared by arithmetic.
  have h0 : '0'.toNat = 48 := rfl
  have h9 : '9'.toNat = 57 := rfl
  have hA : 'A'.toNat = 65 := rfl
  have hF : 'F'.toNat = 70 := rfl
  have hZ : 'Z'.toNat = 90 := rfl
  have ha : 'a'.toNat = 97 := rfl
  have hf : 'f'.toNat = 102 := rfl
  have hz : 'z'.toNat = 122 := rfl
  cases base with
  | decimal =>
    simp only [Text.digitValue?, digitValue, Base.IsDigit, Base.radix, IsDigit, isDigit_iff,
      isLower_iff, isUpper_iff, le_iff_toNat]
    split_ifs <;> first | rfl | omega
  | hexadecimal =>
    simp only [Text.digitValue?, digitValue, Base.IsDigit, Base.radix, IsHexDigit, IsDigit,
      isDigit_iff, isLower_iff, isUpper_iff, le_iff_toNat]
    split_ifs <;> first | rfl | omega

theorem isDigitOf_iff {base : Base} {c : Char} :
    Text.isDigitOf base.radix c = true ↔ base.IsDigit c := by
  rw [Text.isDigitOf, digitValue?_eq]
  by_cases h : base.IsDigit c
  · simp [h]
  · simp [h]

theorem continuesWord_of_isDigit {base : Base} {c : Char} (h : base.IsDigit c) :
    ContinuesWord c := by
  cases base with
  | decimal => exact .inr h
  | hexadecimal =>
    rcases h with digit | ⟨low, high⟩ | ⟨low, high⟩
    · exact .inr digit
    · exact .inl (.inl (.inl ⟨low, Char.le_trans high (by decide)⟩))
    · exact .inl (.inl (.inr ⟨low, Char.le_trans high (by decide)⟩))

theorem not_continuesWord_of_isSpace {c : Char} (h : IsSpace c) : ¬ ContinuesWord c := by
  rcases h with rfl | rfl <;> decide

theorem not_isDigit_of_startsWord {c : Char} (h : StartsWord c) : ¬ IsDigit c := by
  rintro ⟨low, high⟩
  -- Letters and the low line are above the digits, and the dot is below them.
  rcases h with (⟨low', _⟩ | ⟨low', _⟩) | rfl | rfl
  · exact absurd (Char.le_trans low' high) (by decide)
  · exact absurd (Char.le_trans low' high) (by decide)
  · exact absurd high (by decide)
  · exact absurd low (by decide)

/-! ## The value of a row of digits -/

/-- Reading from the left and counting from the right give the same number. -/
theorem digitsValue_eq (base : Base) {digits : List Char} (h : ∀ c ∈ digits, base.IsDigit c) :
    Text.digitsValue base.radix digits = denoted base digits := by
  induction digits using List.reverseRecOn with
  | nil => rfl
  | append_singleton init last ih =>
    -- The last digit is the one read last, and the one counted first.
    have hlast : base.IsDigit last := h last (by simp)
    have hinit : Text.digitsValue base.radix init = denoted base init :=
      ih fun c member => h c (by simp [member])
    calc
      Text.digitsValue base.radix (init ++ [last])
          = Text.digitsValue base.radix init * base.radix + digitValue last := by
            simp [Text.digitsValue, digitValue?_eq, hlast]
      _ = denoted base init * base.radix + digitValue last := by rw [hinit]
      _ = denoted base (init ++ [last]) := by
            simp [denoted, Nat.ofDigits_cons, Nat.mul_comm, Nat.add_comm]

/-! ## What comes next -/

/-- The text is at its end or goes on with a character of that class. -/
def Begins (P : Char → Prop) (cs : List Char) : Prop :=
  ∀ c ∈ cs.head?, P c

theorem begins_nil {P : Char → Prop} : Begins P [] := by
  intro c member
  cases member

theorem begins_cons {P : Char → Prop} {c : Char} {cs : List Char} (h : P c) :
    Begins P (c :: cs) := by
  intro d member
  cases member
  exact h

theorem Begins.imp {P Q : Char → Prop} {cs : List Char} (h : Begins P cs)
    (weaker : ∀ c, P c → Q c) : Begins Q cs :=
  fun c member => weaker c (h c member)

theorem Begins.spaces_append {P : Char → Prop} {cs : List Char} (h : Begins P cs)
    (spaces : Spaces) (space : ∀ c, IsSpace c → P c) : Begins P (spaces.text ++ cs) := by
  rcases spaces with ⟨text, areSpaces⟩
  cases text with
  | nil => exact h
  | cons c rest => exact begins_cons (space c (areSpaces c (List.mem_cons_self ..)))

section Spans

variable {p : Char → Bool} {P : Char → Prop} {inside rest : List Char}

theorem takeWhile_of_begins (spec : ∀ c, p c = true ↔ P c) (stop : Begins (¬ P ·) rest) :
    rest.takeWhile p = [] := by
  cases rest with
  | nil => rfl
  | cons c cs =>
    have outside : p c = false := by
      rw [Bool.eq_false_iff, ne_eq, spec c]
      exact stop c rfl
    rw [List.takeWhile_cons, outside]
    rfl

theorem takeWhile_append (spec : ∀ c, p c = true ↔ P c) (all : ∀ c ∈ inside, P c)
    (stop : Begins (¬ P ·) rest) : (inside ++ rest).takeWhile p = inside := by
  rw [List.takeWhile_append_of_pos fun c member => (spec c).mpr (all c member),
    takeWhile_of_begins spec stop, List.append_nil]

theorem dropWhile_append (spec : ∀ c, p c = true ↔ P c) (all : ∀ c ∈ inside, P c)
    (stop : Begins (¬ P ·) rest) : (inside ++ rest).dropWhile p = rest := by
  have whole := List.takeWhile_append_dropWhile (p := p) (l := inside ++ rest)
  rw [takeWhile_append spec all stop] at whole
  exact List.append_cancel_left whole

end Spans

end Grammar
end Minicomputer
