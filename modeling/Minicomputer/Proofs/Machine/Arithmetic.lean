import Minicomputer.Architecture.Standard
import Minicomputer.Proofs.Assembly.Immediate
import Minicomputer.Proofs.Machine.Core

/-!
# Arithmetic is exact

A result has sixteen bits.  Together with the carry it says what the numbers come to: a sum or a
difference is all there, a product says whether it is, a quotient and a remainder fit anyway, and
bitwise operations lose nothing.

* `Exact` -- what result and carry of an operation have to do with its operands;
* `Machine.execute_exact` -- every operation that computes gives such a result;
* `Cpu.arithmetic_is_exact` -- so does a cycle of the processor, in any state, and a jump that
  follows a comparison sees what has been compared.

The operands may be the same register.  Both are read before anything is written.
-/

namespace Minicomputer

/-! ## Results and operands -/

/-- The operations that compute a result from their operands, apart from shifts. -/
def Operation.computes : Operation → Bool
  | add | addi | sub | mul | div | mod | and | or | xor | not | cmp => true
  | nop | hlt | mov | ldi | ld | st | shl | shr | jmp | jz | jnz | jc | jnc | call | ret | input
  | output => false

/-- What the result and the carry of an operation have to do with its operands, which are the values
`a` and `b` of its registers and its immediate `i`. -/
def Exact (operation : Operation) (a b i result : UInt16) (carry : Bool) : Prop :=
  match operation with
  | .add => result.toNat + 0x10000 * carry.toNat = a.toNat + b.toNat
  | .addi => result.toNat + 0x10000 * carry.toNat = a.toNat + i.toNat
  | .sub | .cmp => (result.toNat : Int) = a.toNat - b.toNat + 0x10000 * carry.toNat
  | .mul =>
    result.toNat = a.toNat * b.toNat % 0x10000 ∧ (carry = true ↔ 0xFFFF < a.toNat * b.toNat)
  | .div => (∃ m < b.toNat, a.toNat = result.toNat * b.toNat + m) ∧ carry = false
  | .mod => (∃ q, a.toNat = q * b.toNat + result.toNat) ∧ result < b ∧ carry = false
  | .and => (∀ k, result.toNat.testBit k = (a.toNat.testBit k && b.toNat.testBit k)) ∧ carry = false
  | .or => (∀ k, result.toNat.testBit k = (a.toNat.testBit k || b.toNat.testBit k)) ∧ carry = false
  | .xor => (∀ k, result.toNat.testBit k = (a.toNat.testBit k ^^ b.toNat.testBit k)) ∧ carry = false
  | .not => (∀ k < 16, result.toNat.testBit k = !a.toNat.testBit k) ∧ carry = false
  | .nop | .hlt | .mov | .ldi | .ld | .st | .shl | .shr | .jmp | .jz | .jnz | .jc | .jnc | .call
  | .ret | .input | .output => False

namespace Exact

variable {a b i result result' : UInt16} {carry carry' : Bool}

/-- A number that is added by its bit pattern is added modulo `2 ^ 16`, and if it is negative then
there is a carry exactly if nothing would have to be borrowed to subtract its opposite. -/
theorem addi_signed (exact : Exact .addi a b i result carry) {n : Int}
    (admitted : OperandKind.signed.Admits n) (written : i = Assembler.immediateOf n) :
    (result.toNat : Int) = (a.toNat + n) % 0x10000 ∧
      (n < 0 → (carry = true ↔ -n ≤ a.toNat)) := by
  have sum : result.toNat + 0x10000 * carry.toNat = a.toNat + i.toNat := exact
  have pattern : i.toNat = (n % 0x10000).toNat := by rw [written, Assembler.toNat_immediateOf]
  have bounded := result.toNat_lt
  simp only [OperandKind.Admits, OperandKind.least, OperandKind.greatest] at admitted
  refine ⟨by omega, ?_⟩
  intro negative
  -- The pattern of a negative number is `2 ^ 16` more, which is what the carry is worth.
  cases carry with
  | false =>
    simp only [Bool.toNat_false, Bool.false_eq_true, false_iff] at sum ⊢
    omega
  | true =>
    simp only [Bool.toNat_true, true_iff] at sum ⊢
    omega

/-- There is one quotient and one remainder. -/
theorem div_mod (quotient : Exact .div a b i result carry)
    (remainder : Exact .mod a b i result' carry') :
    a.toNat = result.toNat * b.toNat + result'.toNat := by
  obtain ⟨⟨m, below, whole⟩, -⟩ := quotient
  obtain ⟨⟨q, whole'⟩, below', -⟩ := remainder
  have same : m = result'.toNat := by
    calc m
        = a.toNat % b.toNat := by rw [whole, Nat.mul_add_mod', Nat.mod_eq_of_lt below]
      _ = result'.toNat := by
        rw [whole', Nat.mul_add_mod', Nat.mod_eq_of_lt (UInt16.lt_iff_toNat_lt.mp below')]
  rw [whole, same]

/-- A difference borrows exactly if it would be negative. -/
theorem carry_iff (exact : Exact .sub a b i result carry) : carry = true ↔ a < b := by
  have difference : (result.toNat : Int) = a.toNat - b.toNat + 0x10000 * carry.toNat := exact
  have bounded := result.toNat_lt
  rw [UInt16.lt_iff_toNat_lt]
  cases carry with
  | false =>
    simp only [Bool.toNat_false, Bool.false_eq_true, false_iff] at difference ⊢
    omega
  | true =>
    simp only [Bool.toNat_true, true_iff] at difference ⊢
    omega

/-- Nothing is left exactly of equal numbers. -/
theorem eq_zero_iff (exact : Exact .sub a b i result carry) : result = 0 ↔ a = b := by
  have difference : (result.toNat : Int) = a.toNat - b.toNat + 0x10000 * carry.toNat := exact
  have bounded := result.toNat_lt
  have second := b.toNat_lt
  rw [← UInt16.toNat_inj, ← UInt16.toNat_inj, UInt16.toNat_zero]
  cases carry with
  | false =>
    simp only [Bool.toNat_false] at difference
    omega
  | true =>
    simp only [Bool.toNat_true] at difference
    omega

end Exact

/-! ## What is computed -/

namespace Machine

theorem truncated_exact {value : Nat} (small : value < 0x20000) :
    (truncated value).1.toNat + 0x10000 * (truncated value).2.toNat = value := by
  simp only [truncated, UInt16.toNat_ofNat']
  by_cases fits : 0x10000 ≤ value
  · rw [decide_eq_true fits, Bool.toNat_true]
    omega
  · rw [decide_eq_false fits, Bool.toNat_false]
    omega

theorem difference_exact (a b : UInt16) :
    ((difference a b).1.toNat : Int) =
      a.toNat - b.toNat + 0x10000 * (difference a b).2.toNat := by
  have first := a.toNat_lt
  have second := b.toNat_lt
  simp only [difference, UInt16.toNat_sub]
  by_cases borrows : a.toNat < b.toNat
  · rw [decide_eq_true borrows, Bool.toNat_true]
    omega
  · rw [decide_eq_false borrows, Bool.toNat_false]
    omega

theorem testBit_not (a : UInt16) {k : Nat} (inside : k < 16) :
    (~~~a).toNat.testBit k = !a.toNat.testBit k := by
  have flipped : (~~~a).toNat = 2 ^ 16 - (a.toNat + 1) := by
    have size : (~~~a).toNat = UInt16.size - 1 - a.toNat := UInt16.toNat_not a
    simp only [UInt16.size] at size
    omega
  rw [flipped, Nat.testBit_two_pow_sub_succ a.toNat_lt, decide_eq_true inside, Bool.true_and]

theorem toNat_pos {b : UInt16} (divisor : b ≠ 0) : 0 < b.toNat :=
  Nat.pos_of_ne_zero fun zero => divisor (UInt16.toNat_inj.mp zero)

theorem div_exact (a i : UInt16) {b : UInt16} (divisor : b ≠ 0) :
    Exact .div a b i (a / b) false := by
  refine ⟨⟨a.toNat % b.toNat, Nat.mod_lt _ (toNat_pos divisor), ?_⟩, rfl⟩
  rw [UInt16.toNat_div, Nat.div_add_mod']

theorem mod_exact (a i : UInt16) {b : UInt16} (divisor : b ≠ 0) :
    Exact .mod a b i (a % b) false := by
  refine ⟨⟨a.toNat / b.toNat, ?_⟩, ?_, rfl⟩
  · rw [UInt16.toNat_mod, Nat.div_add_mod']
  · rw [UInt16.lt_iff_toNat_lt, UInt16.toNat_mod]
    exact Nat.mod_lt _ (toNat_pos divisor)

/-- The register that a result goes to.  A comparison only leaves flags. -/
def destination? (operation : Operation) (instruction : Instruction) : Option Register :=
  if operation = .cmp then none else some instruction.dest

/-- The state with a result in a register, if there is one for it, and in the flags. -/
def conclude (state : MachineState) (dest? : Option Register) (result : UInt16) (carry : Bool) :
    MachineState :=
  match dest? with
  | none => state.setFlags result carry
  | some dest => state.writeResult dest (result, carry)

section

variable (state : MachineState) (dest? : Option Register) (result : UInt16) (carry : Bool)

theorem register_conclude (register : Register) :
    (conclude state dest? result carry).register register =
      if dest? = some register then result else state.register register := by
  cases dest? with
  | none => rfl
  | some dest =>
    rw [conclude, MachineState.writeResult, MachineState.register_setFlags]
    by_cases same : dest = register
    · rw [same, if_pos rfl, MachineState.register_setRegister_self]
    · rw [if_neg (same ∘ Option.some.inj), MachineState.register_setRegister_of_ne _ _ same]

theorem memory_conclude : (conclude state dest? result carry).memory = state.memory := by
  cases dest? with
  | none => rfl
  | some dest => rfl

theorem cycles_conclude : (conclude state dest? result carry).cycles = state.cycles := by
  cases dest? with
  | none => rfl
  | some dest => rfl

theorem flags_conclude :
    (conclude state dest? result carry).flags = ⟨state.flags.halted, result == 0, carry⟩ := by
  cases dest? with
  | none => rfl
  | some dest => rfl

end

/-- An operation that computes gives an exact result and goes on with the next instruction. -/
theorem execute_exact {operation : Operation} (computes : operation.computes)
    {instruction : Instruction} {state : MachineState}
    (divisor : operation = .div ∨ operation = .mod → state.register instruction.src ≠ 0) :
    ∃ result carry,
      Exact operation (state.register instruction.dest) (state.register instruction.src)
        instruction.immediate result carry ∧
      execute operation instruction state =
        .ok (.proceed (conclude state (destination? operation instruction) result carry)
          (state.pc + 1)) := by
  have first := (state.register instruction.dest).toNat_lt
  have second := (state.register instruction.src).toNat_lt
  have third := instruction.immediate.toNat_lt
  cases operation
  case add => exact ⟨_, _, truncated_exact (by omega), rfl⟩
  case addi => exact ⟨_, _, truncated_exact (by omega), rfl⟩
  case sub | cmp => exact ⟨_, _, difference_exact _ _, rfl⟩
  case mul => exact ⟨_, _, ⟨UInt16.toNat_ofNat', decide_eq_true_iff⟩, rfl⟩
  case div =>
    have nonzero := divisor (.inl rfl)
    exact ⟨_, _, div_exact _ _ nonzero, if_neg nonzero⟩
  case mod =>
    have nonzero := divisor (.inr rfl)
    exact ⟨_, _, mod_exact _ _ nonzero, if_neg nonzero⟩
  case and => exact ⟨_, _, ⟨fun k => by rw [UInt16.toNat_and, Nat.testBit_and], rfl⟩, rfl⟩
  case or => exact ⟨_, _, ⟨fun k => by rw [UInt16.toNat_or, Nat.testBit_or], rfl⟩, rfl⟩
  case xor => exact ⟨_, _, ⟨fun k => by rw [UInt16.toNat_xor, Nat.testBit_xor], rfl⟩, rfl⟩
  case not => exact ⟨_, _, ⟨fun k inside => testBit_not _ inside, rfl⟩, rfl⟩
  all_goals cases computes

end Machine

/-! ## Cycles -/

namespace Cpu

/-- The processor has not stopped, and what it executes next is this operation on these operands. -/
structure Faces (cpu : Cpu) (operation : Operation) (instruction : Instruction) (a b : UInt16) :
    Prop where
  going : ¬ cpu.status.isTerminal
  upcoming : cpu.upcoming? = some (operation, instruction)
  first : cpu.state.register instruction.dest = a
  second : cpu.state.register instruction.src = b

/-- An instruction has been completed with this result in a register, if there is one for it, and in
the flags, and nothing else has changed. -/
structure Concludes (cpu after : Cpu) (dest? : Option Register) (result : UInt16) (carry : Bool) :
    Prop where
  status : after.status = .running
  registers : ∀ register, after.state.register register =
    if dest? = some register then result else cpu.state.register register
  memory : after.state.memory = cpu.state.memory
  pc : after.state.pc = cpu.state.pc + 1
  cycles : after.state.cycles = cpu.state.cycles + 1
  halted : after.state.flags.halted = cpu.state.flags.halted
  zero : after.state.flags.zero = true ↔ result = 0
  carry : after.state.flags.carry = carry

section

variable {σ : Type} (host : Host σ) {cpu : Cpu} (world : σ) {operation : Operation}
  {instruction : Instruction} {a b : UInt16}

/-- A state with a result in it concludes the instruction. -/
theorem Concludes.of_core {after : Cpu} {dest? : Option Register} {result : UInt16} {carry : Bool}
    (left : after.core =
      ⟨.running, (Machine.conclude cpu.state dest? result carry).complete (cpu.state.pc + 1)⟩) :
    cpu.Concludes after dest? result carry := by
  have state : after.state =
      (Machine.conclude cpu.state dest? result carry).complete (cpu.state.pc + 1) :=
    congrArg Core.state left
  have flags : after.state.flags = ⟨cpu.state.flags.halted, result == 0, carry⟩ := by
    rw [state]
    exact Machine.flags_conclude ..
  exact {
    status := congrArg Core.status left
    registers := fun register => by
      rw [state]
      exact Machine.register_conclude ..
    memory := by
      rw [state]
      exact Machine.memory_conclude ..
    pc := by
      rw [state]
      rfl
    cycles := by
      rw [state]
      exact congrArg (· + 1) (Machine.cycles_conclude ..)
    halted := by rw [flags]
    zero := by
      rw [flags]
      exact beq_iff_eq
    carry := by rw [flags] }

/-- A cycle that computes leaves an exact result. -/
theorem step_concludes (faces : cpu.Faces operation instruction a b)
    (computes : operation.computes) (divisor : operation = .div ∨ operation = .mod → b ≠ 0) :
    ∃ result carry, Exact operation a b instruction.immediate result carry ∧
      cpu.Concludes (cpu.step.run host world).1 (Machine.destination? operation instruction) result
        carry := by
  obtain ⟨going, upcoming, rfl, rfl⟩ := faces
  obtain ⟨result, carry, exact, executed⟩ := Machine.execute_exact computes divisor
  exact ⟨result, carry, exact, .of_core (step_of_proceed host world going upcoming executed)⟩

/-- The flags of a difference compare its operands. -/
theorem Concludes.compares {after : Cpu} {dest? : Option Register} {i result : UInt16}
    {carry : Bool} (concludes : cpu.Concludes after dest? result carry)
    (exact : Exact .sub a b i result carry) :
    (after.state.flags.zero = true ↔ a = b) ∧ (after.state.flags.carry = true ↔ a < b) := by
  constructor
  · exact concludes.zero.trans exact.eq_zero_iff
  · rw [concludes.carry]
    exact exact.carry_iff

/-- Where a jump on a flag goes. -/
theorem step_jumps (going : ¬ cpu.status.isTerminal) {condition : Prop} [Decidable condition]
    {flag : Bool} (upcoming : cpu.upcoming? = some (operation, instruction))
    (executed : Machine.execute operation instruction cpu.state =
      .ok (.proceed cpu.state (if flag then instruction.immediate.toNat else cpu.state.pc + 1)))
    (means : flag = true ↔ condition) :
    (cpu.step.run host world).1.state.pc =
      if condition then instruction.immediate.toNat else cpu.state.pc + 1 := by
  have goes : (cpu.step.run host world).1.state.pc =
      if flag then instruction.immediate.toNat else cpu.state.pc + 1 :=
    congrArg (fun core => core.state.pc) (step_of_proceed host world going upcoming executed)
  by_cases holds : condition
  · rw [goes, if_pos (means.mpr holds), if_pos holds]
  · rw [goes, if_neg (holds ∘ means.mp), if_neg holds]

/-- After a comparison, `JC` jumps if the first operand is less and `JZ` if the operands are
equal. -/
theorem Concludes.jumps {after : Cpu} {dest? : Option Register} {i result : UInt16} {carry : Bool}
    (concludes : cpu.Concludes after dest? result carry) (exact : Exact .sub a b i result carry)
    (jump : Instruction) :
    let next := (after.step.run host world).1
    (after.upcoming? = some (.jc, jump) →
      next.state.pc = if a < b then jump.immediate.toNat else after.state.pc + 1) ∧
    (after.upcoming? = some (.jz, jump) →
      next.state.pc = if a = b then jump.immediate.toNat else after.state.pc + 1) := by
  intro next
  obtain ⟨zero, borrow⟩ := concludes.compares exact
  have going : ¬ after.status.isTerminal := by
    rw [concludes.status]
    exact Bool.false_ne_true
  constructor
  · intro upcoming
    exact step_jumps host world going upcoming rfl borrow
  · intro upcoming
    exact step_jumps host world going upcoming rfl zero

end

/-- A cycle that computes completes with an exact result, and the zero flag says whether that is 0.
A signed immediate is added modulo `2 ^ 16`.  The quotient and the remainder of the same numbers,
whichever processors compute them, belong together.  A comparison leaves the flags of the difference
and no result, and the next cycle jumps on them exactly if what they stand for is so. -/
theorem arithmetic_is_exact {σ : Type} (host : Host σ) (cpu : Cpu) (world : σ)
    {operation : Operation} {instruction : Instruction} {a b : UInt16}
    (faces : cpu.Faces operation instruction a b) (computes : operation.computes)
    (divisor : operation = .div ∨ operation = .mod → b ≠ 0) :
    let after := (cpu.step.run host world).1
    ∃ result carry,
      cpu.Concludes after (Machine.destination? operation instruction) result carry ∧
      Exact operation a b instruction.immediate result carry ∧
      (operation = .addi → ∀ n, OperandKind.signed.Admits n →
        instruction.immediate = Assembler.immediateOf n →
        (result.toNat : Int) = (a.toNat + n) % 0x10000 ∧
          (n < 0 → (carry = true ↔ -n ≤ a.toNat))) ∧
      (operation = .div → ∀ (other : Cpu) (world' : σ) (instruction' : Instruction),
        other.Faces .mod instruction' a b →
        let after' := (other.step.run host world').1
        let remainder := after'.state.register instruction'.dest
        a.toNat = result.toNat * b.toNat + remainder.toNat ∧ remainder < b ∧
          carry = false ∧ after'.state.flags.carry = false) ∧
      (operation = .cmp → ∀ (other : Cpu) (world' : σ) (instruction' : Instruction),
        other.Faces .sub instruction' a b →
        let after' := (other.step.run host world').1
        after.state.flags.zero = after'.state.flags.zero ∧
          after.state.flags.carry = after'.state.flags.carry) ∧
      (operation = .cmp → ∀ (world' : σ) (jump : Instruction),
        let next := (after.step.run host world').1
        (after.upcoming? = some (.jc, jump) →
          next.state.pc = if a < b then jump.immediate.toNat else after.state.pc + 1) ∧
        (after.upcoming? = some (.jz, jump) →
          next.state.pc = if a = b then jump.immediate.toNat else after.state.pc + 1)) := by
  intro after
  obtain ⟨result, carry, exact, concludes⟩ := step_concludes host world faces computes divisor
  -- A comparison has the flags of the difference that it does not store.
  have difference (same : operation = .cmp) :
      Exact .sub a b instruction.immediate result carry := by
    subst same
    exact exact
  refine ⟨result, carry, concludes, exact, ?_, ?_, ?_, ?_⟩
  · intro same n admitted written
    subst same
    exact exact.addi_signed admitted written
  · intro same other world' instruction' faces' after' remainder
    subst same
    obtain ⟨result', carry', exact', concludes'⟩ :=
      step_concludes host world' faces' rfl fun _ => divisor (.inl rfl)
    have written : remainder = result' := by
      rw [show remainder = after'.state.register instruction'.dest from rfl, concludes'.registers]
      exact if_pos rfl
    have whole := exact.div_mod exact'
    obtain ⟨-, below, clear'⟩ := exact'
    rw [written]
    exact ⟨whole, below, exact.2, concludes'.carry.trans clear'⟩
  · intro same other world' instruction' faces' after'
    subst same
    obtain ⟨result', carry', exact', concludes'⟩ :=
      step_concludes host world' faces' rfl (by simp)
    obtain ⟨zero, borrow⟩ := concludes.compares (difference rfl)
    obtain ⟨zero', borrow'⟩ := concludes'.compares exact'
    exact ⟨Bool.eq_iff_iff.mpr (zero.trans zero'.symm),
      Bool.eq_iff_iff.mpr (borrow.trans borrow'.symm)⟩
  · intro same world' jump next
    subst same
    exact concludes.jumps host world' (difference rfl) jump

/-- 3 is less than 5, so the jump goes to 7. -/
theorem arithmetic_is_exact_comparison :
    let program : Program := #[⟨0x40, 1, 2, 0⟩, ⟨0x53, 0, 0, 7⟩]
    let state := ((MachineState.initial 4).setRegister 1 3).setRegister 2 5
    let cpu : Cpu := { boot .standard ⟨4, 0⟩ program with state }
    cpu.Faces .cmp ⟨0x40, 1, 2, 0⟩ 3 5 ∧ (cpu.cycles .silent 2 ()).1.state.pc = 7 := by
  intro program state cpu
  have faces : cpu.Faces .cmp ⟨0x40, 1, 2, 0⟩ 3 5 :=
    ⟨by decide, by decide +kernel, by decide +kernel, by decide +kernel⟩
  obtain ⟨-, -, -, -, -, -, -, jumps⟩ := arithmetic_is_exact .silent cpu () faces rfl (by simp)
  have jump := (jumps rfl (cpu.step.run .silent ()).2 ⟨0x53, 0, 0, 7⟩).1 (by decide +kernel)
  refine ⟨faces, ?_⟩
  simp only [cycles]
  exact jump.trans (if_pos (by decide))

end Cpu
end Minicomputer
