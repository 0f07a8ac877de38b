import Minicomputer.Text.Numeral

/-!
# Registers

The sixteen general purpose registers `r0` to `r15`, and how one is written in assembly.

A register field of an instruction word has four bits, so every decoded field names a register and
no run-time check is needed.  Only assembly can name a register that does not exist; that is why
`Register.number?` returns the number as it was written, and `Register.ofNumber?` decides whether
there is such a register.
-/

namespace Minicomputer

/-- One of the sixteen general purpose registers, by its index in the register file. -/
abbrev Register := Fin 16

namespace Register

/-- `CALL` stores the return address here and `RET` jumps back through it. -/
def link : Register := ⟨15, by decide⟩

/-- The register that a field names when nothing has been written into it. -/
def first : Register := ⟨0, by decide⟩

def name (register : Register) : String :=
  "r" ++ Text.decimal register.val

/-- The largest number that a register can be called by; longer digit strings count as this one. -/
def maxNumber : Nat := 0xFFFFFFFF

/-- The number in a register name: `r` or `R`, then decimal digits and nothing else.  The number is
not checked against the size of the register file. -/
def number? : List Char → Option Nat
  | 'r' :: digits | 'R' :: digits =>
    if digits ≠ [] ∧ digits.all Char.isDigit then
      some (min (Text.digitsValue 10 digits) maxNumber)
    else none
  | _ => none

def ofNumber? (number : Nat) : Option Register :=
  if h : number < 16 then some ⟨number, h⟩ else none

/-- The register that a field names; only its low four bits count. -/
def ofField (field : Nat) : Register :=
  ⟨field % 16, Nat.mod_lt _ (by decide)⟩

end Register
end Minicomputer
