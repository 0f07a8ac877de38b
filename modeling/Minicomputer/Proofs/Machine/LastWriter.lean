import Mathlib.Algebra.Group.Nat.Defs
import Minicomputer.Proofs.Machine.Lifecycle
import Minicomputer.Proofs.Machine.Observation

/-!
# Last writers

What is in a register, in a word of memory or in the flags has been put there by one instruction:
the last one that has been carried out and writes there.  If there is none, it is what the machine
began with.  What the operations write is said in three tables, one for each kind of place:

* `Deed.store?` -- words of memory;
* `Deed.result?` -- flags, which describe a result of sixteen bits and its carry;
* `Deed.write?` -- registers.

A step writes exactly what the tables say (`Cpu.step_leaves`), so by induction every place has its
last writer (`Cpu.every_place_has_its_last_writer`).  An instruction that ends in a fault has not
been carried out.
-/

namespace Minicomputer

/-- An instruction that has been carried out, with the state before it.  The value is the one that
has been read, if one has. -/
structure Deed where
  operation : Operation
  instruction : Instruction
  before : MachineState
  value : UInt16

namespace Deed

/-! ## What is written -/

/-- The value of the first register operand. -/
def rd (deed : Deed) : UInt16 :=
  deed.before.register deed.instruction.dest

/-- The value of the second register operand. -/
def rs (deed : Deed) : UInt16 :=
  deed.before.register deed.instruction.src

/-- The immediate field without a sign. -/
def immediate (deed : Deed) : Nat :=
  deed.instruction.immediate.toNat

/-- The word of memory at an address that lies in it. -/
def word (deed : Deed) (address : Int) : UInt16 :=
  deed.before.memory.getD address.toNat 0

/-- The address of the word of memory that is loaded or stored. -/
def address? (deed : Deed) : Option Int :=
  match deed.operation with
  | .ld => some (deed.rs.toNat + deed.instruction.signedImmediate)
  | .st => some (deed.rd.toNat + deed.instruction.signedImmediate)
  | _ => none

/-- The address that is stored at, and the value. -/
def store? (deed : Deed) : Option (Int × UInt16) :=
  match deed.operation with
  | .st => some (deed.rd.toNat + deed.instruction.signedImmediate, deed.rs)
  | _ => none

/-- The result and the carry of arithmetic, logic, a shift or a comparison. -/
def result? (deed : Deed) : Option (UInt16 × Bool) :=
  let a := deed.rd
  let b := deed.rs
  let n := deed.immediate
  match deed.operation with
  | .add => some (a + b, 0xFFFF < a.toNat + b.toNat)
  | .addi => some (a + deed.instruction.immediate, 0xFFFF < a.toNat + n)
  | .sub | .cmp => some (a - b, a < b)
  | .mul => some (a * b, 0xFFFF < a.toNat * b.toNat)
  | .div => some (a / b, false)
  | .mod => some (a % b, false)
  | .and => some (a &&& b, false)
  | .or => some (a ||| b, false)
  | .xor => some (a ^^^ b, false)
  | .not => some (~~~a, false)
  -- The carry is the last bit that has been shifted out.
  | .shl => some (UInt16.ofNat (a.toNat * 2 ^ n), (a.toNat * 2 ^ n).testBit 16)
  | .shr => some (UInt16.ofNat (a.toNat / 2 ^ n), n != 0 && a.toNat.testBit (n - 1))
  | .nop | .hlt | .mov | .ldi | .ld | .st | .jmp | .jz | .jnz | .jc | .jnc | .call | .ret
  | .input | .output => none

/-- The register that is written, and the value. -/
def write? (deed : Deed) : Option (Register × UInt16) :=
  let dest := deed.instruction.dest
  match deed.operation with
  | .mov => some (dest, deed.rs)
  | .ldi => some (dest, deed.instruction.immediate)
  | .ld => some (dest, deed.word (deed.rs.toNat + deed.instruction.signedImmediate))
  | .input => some (dest, deed.value)
  | .add | .addi | .sub | .mul | .div | .mod | .and | .or | .xor | .not | .shl | .shr =>
    deed.result?.map fun result => (dest, result.1)
  | .call => some (.link, UInt16.ofNat (deed.before.pc + 1))
  | .nop | .hlt | .st | .cmp | .jmp | .jz | .jnz | .jc | .jnc | .ret | .output => none

/-- The value that is stored in that word of memory. -/
def storedAt? (deed : Deed) (address : Nat) : Option UInt16 :=
  deed.store?.bind fun (place, value) => if place = address then some value else none

/-- The value that is written to that register. -/
def writtenTo? (deed : Deed) (register : Register) : Option UInt16 :=
  deed.write?.bind fun (place, value) => if place = register then some value else none

/-- The flags that are set, zero and carry. -/
def flags? (deed : Deed) : Option (Bool × Bool) :=
  deed.result?.map fun (result, carry) => (result == 0, carry)

end Deed

/-! ## What a step leaves -/

/-- Between the two states there is what the deed has written, if there is a deed, and nothing
else. -/
structure Leaves (deed? : Option Deed) (before after : MachineState) : Prop where
  registers : ∀ register, after.register register =
    (deed?.bind fun deed => deed.writtenTo? register).getD (before.register register)
  memory : ∀ address : Nat, after.memory[address]? = before.memory[address]?.map fun word =>
    (deed?.bind fun deed => deed.storedAt? address).getD word
  flags : (after.flags.zero, after.flags.carry) =
    (deed?.bind Deed.flags?).getD (before.flags.zero, before.flags.carry)

namespace Leaves

variable {deed : Deed} {before after : MachineState}

/-- Memory keeps its size. -/
theorem memory_size {deed? : Option Deed} (leaves : Leaves deed? before after) :
    after.memory.size = before.memory.size := by
  have outside (address : Nat) :
      after.memory[address]? = none ↔ before.memory[address]? = none := by
    rw [leaves.memory address, Option.map_eq_none_iff]
  -- What is outside one memory is outside the other, so neither is longer.
  apply Nat.le_antisymm
  · exact Array.getElem?_eq_none_iff.mp
      ((outside before.memory.size).mpr (Array.getElem?_eq_none (Nat.le_refl _)))
  · exact Array.getElem?_eq_none_iff.mp
      ((outside after.memory.size).mp (Array.getElem?_eq_none (Nat.le_refl _)))

/-- A deed that writes no register leaves them all. -/
theorem registers_eq {deed? : Option Deed} (leaves : Leaves deed? before after)
    (unwritten : ∀ deed ∈ deed?, deed.write? = none) : after.registers = before.registers := by
  have nobody (register : Register) :
      (deed?.bind fun deed => deed.writtenTo? register) = none := by
    rw [Option.bind_eq_none_iff]
    intro deed done
    rw [Deed.writtenTo?, unwritten deed done, Option.bind_none]
  apply Vector.ext
  intro i below
  calc after.registers[i]
      = after.register ⟨i, below⟩ := rfl
    _ = before.register ⟨i, below⟩ := by rw [leaves.registers, nobody, Option.getD_none]
    _ = before.registers[i] := rfl

/-- A deed that stores nothing leaves memory. -/
theorem memory_eq {deed? : Option Deed} (leaves : Leaves deed? before after)
    (unstored : ∀ deed ∈ deed?, deed.store? = none) : after.memory = before.memory := by
  have nobody (address : Nat) : (deed?.bind fun deed => deed.storedAt? address) = none := by
    rw [Option.bind_eq_none_iff]
    intro deed done
    rw [Deed.storedAt?, unstored deed done, Option.bind_none]
  apply Array.ext_getElem?
  intro address
  rw [leaves.memory, nobody]
  exact Option.map_id'

/-! ## The parts of a state by themselves -/

theorem registers_kept (write : deed.write? = none) (same : after.registers = before.registers)
    (register : Register) :
    after.register register = (deed.writtenTo? register).getD (before.register register) := by
  rw [Deed.writtenTo?, write, MachineState.register, same]
  rfl

theorem registers_set {dest : Register} {value : UInt16} (write : deed.write? = some (dest, value))
    (set : after.registers = (before.setRegister dest value).registers) (register : Register) :
    after.register register = (deed.writtenTo? register).getD (before.register register) := by
  have here : after.register register = (before.setRegister dest value).register register := by
    rw [MachineState.register, set]
    rfl
  have written : deed.writtenTo? register = if dest = register then some value else none := by
    rw [Deed.writtenTo?, write]
    rfl
  rw [here, written]
  by_cases same : dest = register
  · rw [if_pos same, same, MachineState.register_setRegister_self, Option.getD_some]
  · rw [if_neg same, MachineState.register_setRegister_of_ne _ _ same, Option.getD_none]

theorem memory_kept (store : deed.store? = none) (same : after.memory = before.memory)
    (address : Nat) : after.memory[address]? =
      before.memory[address]?.map fun word => (deed.storedAt? address).getD word := by
  rw [Deed.storedAt?, store, same]
  exact Option.map_id'.symm

theorem memory_set {place : Fin before.memory.size} {value : UInt16}
    (store : deed.store? = some ((place.val : Int), value))
    (set : after.memory = before.memory.set place.val value place.isLt) (address : Nat) :
    after.memory[address]? =
      before.memory[address]?.map fun word => (deed.storedAt? address).getD word := by
  have stored : deed.storedAt? address = if place.val = address then some value else none := by
    rw [Deed.storedAt?, store]
    simp only [Option.bind_some, Int.natCast_inj]
  rw [set, stored, Array.getElem?_set]
  by_cases same : place.val = address
  · subst same
    rw [if_pos rfl, if_pos rfl, Array.getElem?_eq_getElem place.isLt]
    rfl
  · rw [if_neg same, if_neg same]
    exact Option.map_id'.symm

theorem flags_kept (result : deed.result? = none) (same : after.flags.zero = before.flags.zero)
    (same' : after.flags.carry = before.flags.carry) :
    (after.flags.zero, after.flags.carry) =
      deed.flags?.getD (before.flags.zero, before.flags.carry) := by
  rw [Deed.flags?, result, same, same']
  rfl

theorem flags_set {result : UInt16 × Bool} (given : deed.result? = some result)
    (zero : after.flags.zero = (result.1 == 0)) (carry : after.flags.carry = result.2) :
    (after.flags.zero, after.flags.carry) =
      deed.flags?.getD (before.flags.zero, before.flags.carry) := by
  rw [Deed.flags?, given, zero, carry]
  rfl

/-! ## Kinds of operations -/

/-- An operation that writes nothing. -/
theorem of_quiet (write : deed.write? = none) (store : deed.store? = none)
    (result : deed.result? = none) (registers : after.registers = deed.before.registers)
    (memory : after.memory = deed.before.memory) (zero : after.flags.zero = deed.before.flags.zero)
    (carry : after.flags.carry = deed.before.flags.carry) :
    Leaves (some deed) deed.before after :=
  ⟨registers_kept write registers, memory_kept store memory, flags_kept result zero carry⟩

/-- An operation that writes a register. -/
theorem of_register {dest : Register} {value : UInt16} (write : deed.write? = some (dest, value))
    (store : deed.store? = none) (result : deed.result? = none) (target : Nat) :
    Leaves (some deed) deed.before ((deed.before.setRegister dest value).complete target) :=
  ⟨registers_set write rfl, memory_kept store rfl, flags_kept result rfl rfl⟩

/-- An operation that writes a register and the flags. -/
theorem of_result {dest : Register} {result : UInt16 × Bool} (given : deed.result? = some result)
    (write : deed.write? = deed.result?.map fun result => (dest, result.1))
    (store : deed.store? = none) (target : Nat) :
    Leaves (some deed) deed.before ((deed.before.writeResult dest result).complete target) := by
  have written : deed.write? = some (dest, result.1) := by
    rw [write, given]
    rfl
  exact ⟨registers_set written rfl, memory_kept store rfl, flags_set given rfl rfl⟩

/-- An operation that writes the flags. -/
theorem of_comparison {value : UInt16} {carry : Bool} (given : deed.result? = some (value, carry))
    (write : deed.write? = none) (store : deed.store? = none) (target : Nat) :
    Leaves (some deed) deed.before ((deed.before.setFlags value carry).complete target) :=
  ⟨registers_kept write rfl, memory_kept store rfl, flags_set given rfl rfl⟩

/-- An operation that writes a word of memory. -/
theorem of_store {place : Fin deed.before.memory.size} {value : UInt16}
    (store : deed.store? = some ((place.val : Int), value)) (write : deed.write? = none)
    (result : deed.result? = none) (target : Nat) :
    Leaves (some deed) deed.before ((deed.before.setMemory place value).complete target) :=
  ⟨registers_kept write rfl, memory_set store rfl, flags_kept result rfl rfl⟩

/-- Nothing is carried out. -/
theorem of_none (registers : after.registers = before.registers)
    (memory : after.memory = before.memory) (zero : after.flags.zero = before.flags.zero)
    (carry : after.flags.carry = before.flags.carry) : Leaves none before after := by
  refine ⟨?_, ?_, ?_⟩
  · intro register
    rw [MachineState.register, registers]
    rfl
  · intro address
    rw [memory]
    exact Option.map_id'.symm
  · rw [zero, carry]
    rfl

end Leaves

/-! ## Arithmetic by its tables -/

namespace Machine

theorem truncated_eq {value : Nat} {word : UInt16} (fits : UInt16.ofNat value = word) :
    truncated value = (word, decide (0xFFFF < value)) := by
  rw [truncated, fits]
  rfl

theorem shiftLeft_eq (value amount : UInt16) :
    shiftLeft value amount =
      (UInt16.ofNat (value.toNat * 2 ^ amount.toNat),
        (value.toNat * 2 ^ amount.toNat).testBit 16) := by
  rw [shiftLeft, Nat.shiftLeft_eq, Nat.testBit_eq_decide_div_mod_eq]
  rfl

theorem shiftRight_eq (value amount : UInt16) :
    shiftRight value amount =
      (UInt16.ofNat (value.toNat / 2 ^ amount.toNat),
        amount.toNat != 0 && value.toNat.testBit (amount.toNat - 1)) := by
  rw [shiftRight, Nat.shiftRight_eq_div_pow, Nat.shiftRight_eq_div_pow,
    Nat.testBit_eq_decide_div_mod_eq]
  by_cases nothing : amount = 0
  · subst nothing
    simp
  · have positive : amount.toNat ≠ 0 := fun zero => nothing (UInt16.toNat_inj.mp zero)
    rw [if_neg nothing, bne_iff_ne.mpr positive, Bool.true_and]
    rfl

end Machine

/-! ## What an operation leaves -/

namespace Machine

theorem effectiveAddress_eq_ok {state : MachineState} {base : UInt16} {offset : Int}
    {address : Fin state.memory.size} (h : effectiveAddress state base offset = .ok address) :
    (address.val : Int) = base.toNat + offset := by
  simp only [effectiveAddress] at h
  split at h
  next inside =>
    cases h
    exact Int.toNat_of_nonneg inside.1
  next => cases h

end Machine

/-- An operation that does not fault writes what the tables say. -/
theorem Deed.leaves (deed : Deed) {effect : Machine.Effect deed.before.memory.size}
    (executed : Machine.execute deed.operation deed.instruction deed.before = .ok effect) :
    Leaves (some deed) deed.before (Core.complete deed.value deed.before effect).state := by
  obtain ⟨operation, instruction, state, value⟩ := deed
  cases operation
  case nop | hlt | output | jmp | jz | jnz | jc | jnc | ret =>
    cases executed
    exact Leaves.of_quiet rfl rfl rfl rfl rfl rfl rfl
  case mov | ldi | input =>
    cases executed
    exact Leaves.of_register rfl rfl rfl _
  case call =>
    simp only [Machine.execute] at executed
    split at executed
    · cases executed
      exact Leaves.of_register rfl rfl rfl _
    · cases executed
  case ld =>
    simp only [Machine.execute] at executed
    split at executed
    next => cases executed
    next address found =>
      cases executed
      have place := Machine.effectiveAddress_eq_ok found
      refine Leaves.of_register ?_ rfl rfl _
      show some (instruction.dest, state.memory.getD
        ((state.register instruction.src).toNat + instruction.signedImmediate : Int).toNat 0) = _
      rw [← place, Int.toNat_natCast]
      exact congrArg (fun word => some (instruction.dest, word)) (Array.getElem_eq_getD 0).symm
  case st =>
    simp only [Machine.execute] at executed
    split at executed
    next => cases executed
    next address found =>
      cases executed
      have place := Machine.effectiveAddress_eq_ok found
      refine Leaves.of_store ?_ rfl rfl _
      rw [place]
      rfl
  case cmp =>
    cases executed
    exact Leaves.of_comparison rfl rfl rfl _
  -- Now for what computes: the tables give the results as numbers and not as functions on words.
  case add | addi =>
    cases executed
    refine Leaves.of_result ?_ rfl rfl _
    have sum (a b : UInt16) : UInt16.ofNat (a.toNat + b.toNat) = a + b := by simp
    exact congrArg some (Machine.truncated_eq (sum _ _)).symm
  case mul =>
    cases executed
    refine Leaves.of_result ?_ rfl rfl _
    have product (a b : UInt16) : UInt16.ofNat (a.toNat * b.toNat) = a * b := by simp
    exact congrArg some (Machine.truncated_eq (product _ _)).symm
  case shl =>
    cases executed
    refine Leaves.of_result ?_ rfl rfl _
    exact congrArg some (Machine.shiftLeft_eq _ _).symm
  case shr =>
    cases executed
    refine Leaves.of_result ?_ rfl rfl _
    exact congrArg some (Machine.shiftRight_eq _ _).symm
  case div | mod =>
    simp only [Machine.execute] at executed
    split at executed
    · cases executed
    · cases executed
      exact Leaves.of_result rfl rfl rfl _
  case sub | and | or | xor | not =>
    cases executed
    exact Leaves.of_result rfl rfl rfl _

/-- What is loaded or stored is in memory. -/
theorem Deed.address_inside {deed : Deed} {effect : Machine.Effect deed.before.memory.size}
    (executed : Machine.execute deed.operation deed.instruction deed.before = .ok effect)
    {address : Int} (named : deed.address? = some address) :
    0 ≤ address ∧ address < deed.before.memory.size := by
  obtain ⟨operation, instruction, state, value⟩ := deed
  cases operation
  case ld | st =>
    -- An address outside memory would have been a fault.
    simp only [Machine.execute] at executed
    split at executed
    next => cases executed
    next place found =>
      have same : (place.val : Int) = address :=
        (Machine.effectiveAddress_eq_ok found).trans (Option.some.inj named)
      have below : (place.val : Int) < state.memory.size := Int.ofNat_lt.mpr place.isLt
      rw [← same]
      exact ⟨Int.natCast_nonneg _, below⟩
  all_goals cases named

/-- No instruction writes a register and memory. -/
theorem Deed.write?_eq_none_or (deed : Deed) : deed.write? = none ∨ deed.store? = none := by
  obtain ⟨operation, instruction, state, value⟩ := deed
  cases operation
  case st => exact .inl rfl
  all_goals exact .inr rfl

/-! ## Cycles -/

namespace Cpu

variable {σ : Type} (host : Host σ)

/-- What the next cycle carries out, unless it ends in a fault or there is nothing to do. -/
def deed? (cpu : Cpu) (world : σ) : Option Deed :=
  if cpu.Completes then
    cpu.upcoming?.map fun (operation, instruction) =>
      ⟨operation, instruction, cpu.state, (cpu.valueRead? host world).getD 0⟩
  else none

/-- What so many cycles carry out, in this order. -/
def deeds : Nat → Cpu → σ → List Deed :=
  collected host (deed? host)

theorem deeds_succ (n : Nat) (cpu : Cpu) (world : σ) :
    cpu.deeds host (n + 1) world =
      cpu.deeds host n world ++
        ((cpu.cycles host n world).1.deed? host (cpu.cycles host n world).2).toList :=
  collected_succ host (deed? host) n cpu world

/-- A deed is an instruction that does not fault in the state before it. -/
theorem executed_of_deed? {cpu : Cpu} {world : σ} {deed : Deed}
    (done : cpu.deed? host world = some deed) :
    deed.before = cpu.state ∧ ∃ effect,
      Machine.execute deed.operation deed.instruction deed.before = .ok effect := by
  unfold deed? at done
  split at done
  next completes =>
    obtain ⟨going, instruction, fetched, operation, decoded, executes⟩ :=
      Core.completes_iff_exists.mp completes
    rw [upcoming?_of_operation fetched decoded] at done
    cases done
    refine ⟨rfl, ?_⟩
    cases executed : Machine.execute operation instruction cpu.state with
    | ok effect => exact ⟨effect, rfl⟩
    | error fault =>
      have fails : (Machine.execute operation instruction cpu.state).isOk = true := executes
      rw [executed] at fails
      cases fails
  next => cases done

/-- A cycle leaves what it carries out. -/
theorem step_leaves (cpu : Cpu) (world : σ) :
    Leaves (cpu.deed? host world) cpu.state (cpu.step.run host world).1.state := by
  have left : (cpu.step.run host world).1.state =
      (cpu.core.cycle cpu.architecture cpu.program ((cpu.valueRead? host world).getD 0)).state :=
    congrArg Core.state (step_run_core host cpu world)
  rw [left]
  -- Where no instruction is completed there is no deed.  Such a cycle changes at most the status
  -- and the flag that says so.
  by_cases terminal : cpu.core.status.isTerminal
  · have idle : ¬ cpu.Completes := fun completes => completes.1 terminal
    rw [deed?, if_neg idle, Core.cycle_of_terminal terminal]
    exact .of_none rfl rfl rfl rfl
  · cases fetched : cpu.program[cpu.state.pc]? with
    | none =>
      have idle : ¬ cpu.Completes := fun completes =>
        Nat.not_le_of_lt completes.2.1 (Array.getElem?_eq_none_iff.mp fetched)
      rw [deed?, if_neg idle, Core.cycle_of_pastEnd terminal fetched]
      exact .of_none rfl rfl rfl rfl
    | some instruction =>
      cases decoded : cpu.architecture.operation? instruction.opcode with
      | none =>
        have idle : ¬ cpu.Completes := fun completes =>
          completes.2.2 _ ((Core.raises_iff_of_unknown fetched decoded).mpr rfl)
        rw [deed?, if_neg idle, Core.cycle_of_unknown terminal fetched decoded]
        exact .of_none rfl rfl rfl rfl
      | some operation =>
        have completes := Core.completes_iff_of_operation terminal fetched decoded
        rw [Core.cycle_of_operation terminal fetched decoded, Core.perform]
        cases executed : Machine.execute operation instruction cpu.core.state with
        | error fault =>
          rw [executed] at completes
          have idle : ¬ cpu.Completes := fun complete => Bool.false_ne_true (completes.mp complete)
          rw [deed?, if_neg idle]
          exact .of_none rfl rfl rfl rfl
        | ok effect =>
          rw [executed] at completes
          have complete : cpu.Completes := completes.mpr rfl
          rw [deed?, if_pos complete, upcoming?_of_operation fetched decoded]
          exact Deed.leaves ⟨operation, instruction, cpu.state, _⟩ executed

end Cpu

/-! ## The last writer -/

/-- The value is what the last of the deeds that write has written, or the initial one if none
does. -/
inductive LastWritten {α : Type} (writes? : Deed → Option α) (initial : α) (deeds : List Deed) :
    α → Prop
  | untouched (nobody : ∀ deed ∈ deeds, writes? deed = none) :
      LastWritten writes? initial deeds initial
  | written {earlier later : List Deed} {deed : Deed} {value : α}
      (order : deeds = earlier ++ deed :: later) (writes : writes? deed = some value)
      (nobody : ∀ deed ∈ later, writes? deed = none) :
      LastWritten writes? initial deeds value

/-- One cycle more either writes or keeps the last writer. -/
theorem LastWritten.append {α : Type} {writes? : Deed → Option α} {initial value : α}
    {deeds : List Deed} (last : LastWritten writes? initial deeds value) (deed? : Option Deed) :
    LastWritten writes? initial (deeds ++ deed?.toList) ((deed?.bind writes?).getD value) := by
  cases deed? with
  | none =>
    rw [Option.toList_none, List.append_nil]
    exact last
  | some deed =>
    rw [Option.toList_some, Option.bind_some]
    cases writes : writes? deed with
    | some value' => exact .written rfl writes (List.forall_mem_nil _)
    | none =>
      -- The deed comes behind the last writer, if there is one, and does not replace it.
      have quiet : ∀ deed' ∈ [deed], writes? deed' = none := List.forall_mem_singleton.mpr writes
      cases last with
      | untouched nobody => exact .untouched (List.forall_mem_append.mpr ⟨nobody, quiet⟩)
      | @written earlier later deed' _ order writes' nobody =>
        have order' : deeds ++ [deed] = earlier ++ deed' :: (later ++ [deed]) := by
          rw [order, List.append_assoc, List.cons_append]
        exact .written order' writes' (List.forall_mem_append.mpr ⟨nobody, quiet⟩)

namespace Cpu

section

variable {σ : Type} (host : Host σ) (n : Nat) (cpu : Cpu) (world : σ)

/-- What every cycle leaves as its deed says has been written by the last deed that writes it. -/
theorem lastWritten_cycles {α : Type} (writes? : Deed → Option α)
    (read? : MachineState → Option α)
    (left : ∀ {deed? : Option Deed} {before after : MachineState}, Leaves deed? before after →
      read? after = (read? before).map fun value => (deed?.bind writes?).getD value)
    {initial : α} (begins : read? cpu.state = some initial) :
    ∃ value, read? (cpu.cycles host n world).1.state = some value ∧
      LastWritten writes? initial (cpu.deeds host n world) value := by
  induction n with
  | zero => exact ⟨initial, begins, .untouched (List.forall_mem_nil _)⟩
  | succ n ih =>
    obtain ⟨value, here, last⟩ := ih
    have leaves := step_leaves host (cpu.cycles host n world).1 (cpu.cycles host n world).2
    rw [cycles_succ, deeds_succ]
    refine ⟨_, ?_, last.append _⟩
    rw [left leaves, here]
    rfl

theorem register_cycles (register : Register) :
    LastWritten (·.writtenTo? register) (cpu.state.register register) (cpu.deeds host n world)
      ((cpu.cycles host n world).1.state.register register) := by
  obtain ⟨value, same, last⟩ := lastWritten_cycles host n cpu world (·.writtenTo? register)
    (fun state => some (state.register register))
    (fun leaves => congrArg some (leaves.registers register)) rfl
  cases same
  exact last

theorem flags_cycles :
    LastWritten Deed.flags? (cpu.state.flags.zero, cpu.state.flags.carry) (cpu.deeds host n world)
      ((cpu.cycles host n world).1.state.flags.zero,
        (cpu.cycles host n world).1.state.flags.carry) := by
  obtain ⟨value, same, last⟩ := lastWritten_cycles host n cpu world Deed.flags?
    (fun state => some (state.flags.zero, state.flags.carry))
    (fun leaves => congrArg some leaves.flags) rfl
  cases same
  exact last

theorem memory_cycles {address : Nat} {initial : UInt16}
    (begins : cpu.state.memory[address]? = some initial) :
    ∃ word, (cpu.cycles host n world).1.state.memory[address]? = some word ∧
      LastWritten (·.storedAt? address) initial (cpu.deeds host n world) word :=
  lastWritten_cycles host n cpu world (·.storedAt? address) (·.memory[address]?)
    (fun leaves => leaves.memory address) begins

theorem memory_size_cycles :
    (cpu.cycles host n world).1.state.memory.size = cpu.state.memory.size := by
  induction n with
  | zero => rfl
  | succ n ih =>
    rw [cycles_succ, (step_leaves host _ _).memory_size, ih]

/-- A cycle leaves the registers or memory as they are. -/
theorem step_keeps_either :
    let after := (cpu.step.run host world).1.state
    after.registers = cpu.state.registers ∨ after.memory = cpu.state.memory := by
  intro after
  have leaves : Leaves (cpu.deed? host world) cpu.state after := step_leaves host cpu world
  cases done : cpu.deed? host world with
  | none =>
    rw [done] at leaves
    exact .inl (leaves.registers_eq nofun)
  | some deed =>
    rw [done] at leaves
    rcases deed.write?_eq_none_or with unwritten | unstored
    · exact .inl (leaves.registers_eq fun _ same => Option.some.inj same ▸ unwritten)
    · exact .inr (leaves.memory_eq fun _ same => Option.some.inj same ▸ unstored)

/-- A comparison leaves both. -/
theorem step_keeps_both {instruction : Instruction}
    (compares : cpu.upcoming? = some (.cmp, instruction)) :
    let after := (cpu.step.run host world).1.state
    after.registers = cpu.state.registers ∧ after.memory = cpu.state.memory := by
  intro after
  have leaves : Leaves (cpu.deed? host world) cpu.state after := step_leaves host cpu world
  have quiet : ∀ deed ∈ cpu.deed? host world, deed.write? = none ∧ deed.store? = none := by
    intro deed done
    unfold deed? at done
    rw [compares] at done
    split at done
    · cases done
      exact ⟨rfl, rfl⟩
    · cases done
  exact ⟨leaves.registers_eq fun deed done => (quiet deed done).1,
    leaves.memory_eq fun deed done => (quiet deed done).2⟩

end

/-- After so many cycles of a new processor, whoever is attached and however it is answered, every
word of memory holds what has been stored there last, every register what has been written to it
last, and the flags describe the last result; where nothing has been written there is zero, and the
flags are clear.  Every address that has been loaded or stored lies in memory.  The next cycle does
not change registers and memory both, and a comparison changes neither. -/
theorem every_place_has_its_last_writer (architecture : Architecture) (config : Config)
    (program : Program) (observed supplied : Bool) {σ : Type} (host : Host σ) (world : σ)
    (n : Nat) :
    let cpu := (boot architecture config program).attached observed supplied
    let now := (cpu.cycles host n world).1
    let next := (cpu.cycles host (n + 1) world).1
    let deeds := cpu.deeds host n world
    now.state.memory.size = min config.memoryWords Config.maxMemoryWords ∧
      (∀ address : Fin now.state.memory.size,
        LastWritten (·.storedAt? address) 0 deeds now.state.memory[address]) ∧
      (∀ register, LastWritten (·.writtenTo? register) 0 deeds (now.state.register register)) ∧
      LastWritten Deed.flags? (false, false) deeds
        (now.state.flags.zero, now.state.flags.carry) ∧
      (∀ deed ∈ deeds, ∀ address ∈ deed.address?,
        0 ≤ address ∧ address < now.state.memory.size) ∧
      (next.state.registers = now.state.registers ∨ next.state.memory = now.state.memory) ∧
      (∀ instruction, now.upcoming? = some (.cmp, instruction) →
        next.state.registers = now.state.registers ∧ next.state.memory = now.state.memory) := by
  intro cpu now next deeds
  have begins : cpu.state.memory.size = min config.memoryWords Config.maxMemoryWords :=
    Array.size_replicate
  have size (i : Nat) : (cpu.cycles host i world).1.state.memory.size = cpu.state.memory.size :=
    memory_size_cycles host i cpu world
  have one : next = (now.step.run host (cpu.cycles host n world).2).1 :=
    congrArg Prod.fst (cycles_succ host n cpu world)
  refine ⟨(size n).trans begins, ?_, ?_, flags_cycles host n cpu world, ?_, ?_, ?_⟩
  · intro address
    have zero : cpu.state.memory[address.val]? = some 0 := by
      have below : address.val < cpu.state.memory.size := size n ▸ address.isLt
      rw [Array.getElem?_eq_getElem below]
      exact congrArg some (Array.getElem_replicate _)
    obtain ⟨word, here, last⟩ := memory_cycles host n cpu world zero
    have same : now.state.memory[address.val]? = some now.state.memory[address] :=
      Array.getElem?_eq_getElem address.isLt
    rw [Option.some.inj (same.symm.trans here)]
    exact last
  · intro register
    have zero : cpu.state.register register = 0 := Vector.getElem_replicate _
    have last := register_cycles host n cpu world register
    rw [zero] at last
    exact last
  · -- The deed was carried out in memory as it was then, which was as large as it is now.
    intro deed member address named
    obtain ⟨i, -, done⟩ := exists_cycle_of_mem_collected host (deed? host) member
    obtain ⟨before, effect, executed⟩ := executed_of_deed? host done
    have inside := Deed.address_inside executed named
    rw [before, size i, ← size n] at inside
    exact inside
  · rw [one]
    exact step_keeps_either host now _
  · intro instruction compares
    rw [one]
    exact step_keeps_both host now _ compares

/-- A store through `r1` and a load through `r3` reach the same word, and the load is into its own
base. -/
theorem every_place_has_its_last_writer_alias :
    let program : Program := #[⟨0x11, 1, 0, 2⟩, ⟨0x11, 2, 0, 7⟩, ⟨0x13, 1, 2, 1⟩, ⟨0x11, 3, 0, 4⟩,
      ⟨0x12, 3, 3, 0xFFFF⟩]
    let cpu := (boot .standard ⟨4, 0⟩ program).attached false false
    let deeds := cpu.deeds .silent 5 ()
    deeds.filterMap (·.storedAt? 3) = [7] ∧ deeds.filterMap (·.writtenTo? 3) = [4, 7] ∧
      LastWritten (·.writtenTo? 3) 0 deeds 7 := by
  have last (program : Program) (seven :
      (((boot .standard ⟨4, 0⟩ program).attached false false).cycles .silent 5 ()).1.state.register
        3 = 7) :
      LastWritten (·.writtenTo? 3) 0
        (((boot .standard ⟨4, 0⟩ program).attached false false).deeds .silent 5 ()) 7 :=
    seven ▸ (every_place_has_its_last_writer .standard ⟨4, 0⟩ program false false .silent ()
      5).2.2.1 3
  exact ⟨by decide +kernel, by decide +kernel, last _ (by decide +kernel)⟩

end Cpu
end Minicomputer
