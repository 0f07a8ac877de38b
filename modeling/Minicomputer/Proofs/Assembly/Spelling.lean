import Mathlib.Data.Nat.Digits.Defs
import Minicomputer.Operation
import Minicomputer.Proofs.Assembly.Reading
import Minicomputer.Text.Blank

/-!
# Numbers, registers and mnemonics in the grammar

The texts that the machine writes for numbers, registers and mnemonics are texts of the grammar.
For each of them there is a tree here, with the text that is written and the meaning that was meant.
-/

namespace Minicomputer
namespace Grammar

/-! ## Digits -/

theorem isDigit_digitChar {base : Base} {d : Nat} (h : d < base.radix) :
    base.IsDigit (Nat.digitChar d) := by
  cases base with
  | decimal =>
    have each : ∀ d : Fin 10, Base.decimal.IsDigit (Nat.digitChar d) := by decide
    exact each ⟨d, h⟩
  | hexadecimal =>
    have each : ∀ d : Fin 16, Base.hexadecimal.IsDigit (Nat.digitChar d) := by decide
    exact each ⟨d, h⟩

theorem digitValue_digitChar {base : Base} {d : Nat} (h : d < base.radix) :
    digitValue (Nat.digitChar d) = d := by
  have each : ∀ d : Fin 16, digitValue (Nat.digitChar d) = d := by decide
  have small : base.radix ≤ 16 := by cases base <;> decide
  exact each ⟨d, Nat.lt_of_lt_of_le h small⟩

theorem one_lt_radix (base : Base) : 1 < base.radix := by
  cases base <;> decide

/-- The digits of a number are digits, and they denote it. -/
theorem toDigits_denotes (base : Base) (n : Nat) :
    (∀ c ∈ Nat.toDigits base.radix n, base.IsDigit c) ∧
      denoted base (Nat.toDigits base.radix n) = n := by
  induction n using Nat.strongRecOn with
  | ind n ih =>
    by_cases small : n < base.radix
    · rw [Nat.toDigits_of_lt_base small]
      refine ⟨List.forall_mem_singleton.mpr (isDigit_digitChar small), ?_⟩
      simp [denoted, digitValue_digitChar small]
    · have radix := one_lt_radix base
      have positive : 0 < base.radix := Nat.zero_lt_of_lt radix
      have large : base.radix ≤ n := Nat.le_of_not_lt small
      have shorter : n / base.radix < n :=
        Nat.div_lt_self (Nat.lt_of_lt_of_le positive large) radix
      have last : n % base.radix < base.radix := Nat.mod_lt n positive
      obtain ⟨areDigits, value⟩ := ih (n / base.radix) shorter
      rw [Nat.toDigits_of_base_le radix large]
      refine ⟨List.forall_mem_append.mpr ⟨areDigits, ?_⟩, ?_⟩
      · exact List.forall_mem_singleton.mpr (isDigit_digitChar last)
      · calc
          denoted base (Nat.toDigits base.radix (n / base.radix) ++
              [Nat.digitChar (n % base.radix)])
              = digitValue (Nat.digitChar (n % base.radix)) +
                  base.radix * denoted base (Nat.toDigits base.radix (n / base.radix)) := by
                simp [denoted, Nat.ofDigits_cons]
          _ = n % base.radix + base.radix * (n / base.radix) := by
                rw [digitValue_digitChar last, value]
          _ = n := Nat.mod_add_div n base.radix

/-- Leading zeros do not count. -/
theorem denoted_leftpad (base : Base) (width : Nat) (digits : List Char) :
    denoted base (digits.leftpad width '0') = denoted base digits := by
  have zeros (k : Nat) : Nat.ofDigits base.radix ((List.replicate k '0').map digitValue) = 0 := by
    rw [List.map_replicate]
    exact Nat.ofDigits_replicate_zero ..
  unfold denoted List.leftpad
  rw [List.reverse_append, List.reverse_replicate, List.map_append, Nat.ofDigits_append, zeros,
    Nat.mul_zero, Nat.add_zero]

/-- The digits of a number, with zeros before them up to that width. -/
def Digits.ofNat (base : Base) (width n : Nat) : Digits base where
  text := (Nat.toDigits base.radix n).leftpad width '0'
  some_digit := by
    rw [List.leftpad]
    exact List.append_ne_nil_of_right_ne_nil _ Nat.toDigits_ne_nil
  areDigits := by
    rw [List.leftpad, List.forall_mem_append]
    refine ⟨fun c zero => ?_, (toDigits_denotes base n).1⟩
    rw [List.eq_of_mem_replicate zero]
    exact isDigit_digitChar (Nat.zero_lt_of_lt (one_lt_radix base))

theorem Digits.value_ofNat (base : Base) (width n : Nat) : (ofNat base width n).value = n :=
  (denoted_leftpad base width _).trans (toDigits_denotes base n).2

/-! ## Numbers -/

namespace Number

/-- A number in decimal digits. -/
def signed (value : Int) (small : value.natAbs ≤ 2 ^ 63 - 1) : Number where
  negative := value < 0
  magnitude := .decimal (.ofNat .decimal 0 value.natAbs)
  small := (Digits.value_ofNat ..).trans_le small

theorem value_signed (value : Int) (small : value.natAbs ≤ 2 ^ 63 - 1) :
    (signed value small).value = value := by
  have magnitude : (signed value small).magnitude.value = value.natAbs := Digits.value_ofNat ..
  rw [Number.value, magnitude]
  by_cases negative : value < 0
  · rw [if_pos (by simpa [signed] using negative)]
    omega
  · rw [if_neg (by simpa [signed] using negative)]
    omega

theorem text_signed (value : Int) (small : value.natAbs ≤ 2 ^ 63 - 1) :
    (signed value small).text = (Text.signedDecimal value).toList := by
  cases value with
  | ofNat n => simp [text, signed, Magnitude.text, Digits.ofNat, Text.signedDecimal, Text.decimal,
      Base.radix]
  | negSucc n => simp [text, signed, Magnitude.text, Digits.ofNat, Text.signedDecimal,
      Text.decimal, Base.radix]

/-- A number in hexadecimal digits, with zeros before them up to that width. -/
def hexadecimal (width n : Nat) (small : n ≤ 2 ^ 63 - 1) : Number where
  negative := false
  magnitude := .hexadecimal 'x' (.inl rfl) (.ofNat .hexadecimal width n)
  small := (Digits.value_ofNat ..).trans_le small

theorem value_hexadecimal (width n : Nat) (small : n ≤ 2 ^ 63 - 1) :
    (hexadecimal width n small).value = n :=
  congrArg Int.ofNat (Digits.value_ofNat ..)

theorem text_hexadecimal (width n : Nat) (small : n ≤ 2 ^ 63 - 1) :
    (hexadecimal width n small).text = (Text.prefixedHex width n).toList := by
  simp [text, hexadecimal, Magnitude.text, Digits.ofNat, Text.prefixedHex, Text.hexadecimal,
    Base.radix]

end Number

/-! ## Words -/

/-- What makes characters a word. -/
def IsWord : List Char → Prop
  | [] => False
  | first :: rest => StartsWord first ∧ ∀ c ∈ rest, ContinuesWord c

instance : (cs : List Char) → Decidable (IsWord cs)
  | [] => inferInstanceAs (Decidable False)
  | first :: rest =>
    have := List.decidableBAll ContinuesWord rest
    inferInstanceAs (Decidable (StartsWord first ∧ ∀ c ∈ rest, ContinuesWord c))

theorem IsWord.exists_word {cs : List Char} (h : IsWord cs) : ∃ word : Word, word.text = cs := by
  cases cs with
  | nil => exact h.elim
  | cons first rest => exact ⟨⟨first, rest, h.1, h.2⟩, rfl⟩

theorem exists_mnemonic (operation : Operation) :
    ∃ word : Word, word.text = operation.mnemonic.toList := by
  have each : ∀ operation ∈ Operation.all, IsWord operation.mnemonic.toList := by decide
  exact (each operation (Operation.mem_all operation)).exists_word

/-- The name of a register. -/
def Word.register (number : Nat) : Word where
  first := 'r'
  rest := Nat.toDigits 10 number
  starts := by decide
  continues := fun c member => .inr ((toDigits_denotes .decimal number).1 c member)

theorem Word.text_register (register : Register) :
    (Word.register register.val).text = register.name.toList := by
  simp [Word.text, Word.register, Register.name, Text.decimal]

theorem Word.operand_register (register : Register) :
    (Word.register register.val).operand = .register register.val := by
  obtain ⟨areDigits, value⟩ := toDigits_denotes .decimal register.val
  have isRegister : (Word.register register.val).IsRegister :=
    ⟨.inl rfl, Nat.toDigits_ne_nil, areDigits⟩
  have small : register.val ≤ 2 ^ 32 - 1 := Nat.le_trans register.isLt.le (by decide)
  rw [Word.operand, if_pos isRegister]
  exact congrArg Operand.register ((congrArg (min · _) value).trans (Nat.min_eq_left small))

theorem toNat_of_continuesWord {c : Char} (h : ContinuesWord c) :
    0x20 < c.toNat ∧ c.toNat < 0x85 := by
  have between {low high : Char} (lower : low ≤ c) (upper : c ≤ high) (above : 0x20 < low.toNat)
      (below : high.toNat < 0x85) : 0x20 < c.toNat ∧ c.toNat < 0x85 :=
    ⟨Nat.lt_of_lt_of_le above lower, Nat.lt_of_le_of_lt upper below⟩
  rcases h with ((⟨low, high⟩ | ⟨low, high⟩) | rfl | rfl) | ⟨low, high⟩
  · exact between low high (by decide) (by decide)
  · exact between low high (by decide) (by decide)
  · decide
  · decide
  · exact between low high (by decide) (by decide)

theorem not_isBlank_of_continuesWord {c : Char} (h : ContinuesWord c) : ¬ Text.isBlank c := by
  obtain ⟨above, below⟩ := toNat_of_continuesWord h
  simp only [Text.isBlank, Bool.or_eq_true, Bool.and_eq_true, decide_eq_true_eq, beq_iff_eq]
  omega

/-- There is nothing to trim from a word. -/
theorem Word.trimChars_text (word : Word) : Text.trimChars word.text = word.text := by
  have noBlank : ∀ c ∈ word.text, ¬ Text.isBlank c := by
    intro c member
    rcases List.mem_cons.mp member with rfl | inside
    · exact not_isBlank_of_continuesWord (.inl word.starts)
    · exact not_isBlank_of_continuesWord (word.continues c inside)
  have kept (cs : List Char) (h : ∀ c ∈ cs, ¬ Text.isBlank c) : cs.dropWhile Text.isBlank = cs := by
    cases cs with
    | nil => rfl
    | cons c cs => exact List.dropWhile_cons_of_neg (h c (List.mem_cons_self ..))
  have noBlank' : ∀ c ∈ word.text.reverse, ¬ Text.isBlank c :=
    fun c member => noBlank c (List.mem_reverse.mp member)
  rw [Text.trimChars, kept _ noBlank, kept _ noBlank', List.reverse_reverse]

/-! ## What is in an operand -/

theorem Magnitude.continuesWord_of_mem {magnitude : Magnitude} {c : Char}
    (h : c ∈ magnitude.text) : ContinuesWord c := by
  cases magnitude with
  | decimal digits => exact continuesWord_of_isDigit (digits.areDigits c h)
  | hexadecimal mark isMark digits =>
    rcases List.mem_cons.mp h with rfl | h
    · decide
    · rcases List.mem_cons.mp h with rfl | h
      · rcases isMark with rfl | rfl
        · decide
        · decide
      · exact continuesWord_of_isDigit (digits.areDigits c h)

theorem Operand.mem_text {operand : Operand} {c : Char} (h : c ∈ operand.text) :
    c = '-' ∨ ContinuesWord c := by
  cases operand with
  | number spelled =>
    simp only [Operand.text, Number.text] at h
    split at h
    · rcases List.mem_cons.mp h with sign | inside
      · exact .inl sign
      · exact .inr (Magnitude.continuesWord_of_mem inside)
    · exact .inr (Magnitude.continuesWord_of_mem h)
  | word spelled =>
    rcases List.mem_cons.mp h with rfl | inside
    · exact .inr (.inl spelled.starts)
    · exact .inr (spelled.continues c inside)

theorem Operand.newline_not_mem (operand : Operand) : '\n' ∉ operand.text := by
  intro h
  have known := Operand.mem_text h
  revert known
  decide

end Grammar
end Minicomputer
