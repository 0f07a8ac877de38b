import Minicomputer.Architecture.Standard
import Minicomputer.Proofs.Architecture
import Minicomputer.Proofs.Assembly.Encoding
import Minicomputer.Proofs.Assembly.Immediate
import Minicomputer.Proofs.Assembly.Interpreter
import Minicomputer.Proofs.Assembly.Spelling

/-!
# Programs do what their statements say

A program that was assembled is run by the processor, its statements by `Interpreter`.  Both go
through the same states, for as many steps as one likes.

A step of the one is a step of the other because encoding loses nothing that execution looks at:
every form of operands gives back its registers, its number as the operation reads it, and its
label.  That asks for fewer than `2 ^ 16` statements.  Then every label has an address that fits,
and a return address fits as well, which the interpreter does not check.
-/

namespace Minicomputer
namespace Assembler

/-! ## Forms of operands -/

section

variable {address? : String → Option Nat} {operands : List Operand} {fields : List Field}

theorem registerField {operand : Operand} {field : Field}
    (h : OperandField address? .register operand field) :
    ∃ rd : Register, Interpreter.register? operand = some rd ∧ field = .register rd := by
  cases h with
  | register inside => exact ⟨⟨_, inside⟩, dif_pos inside, rfl⟩
  | literal immediate admitted => exact absurd rfl immediate

theorem literalField {kind : OperandKind} {operand : Operand} {field : Field}
    (h : OperandField address? kind operand field) (number : kind ≠ .register)
    (noAddress : kind ≠ .address) :
    ∃ value, Interpreter.literal? operand = some value ∧ kind.Admits value ∧
      field = .immediate (immediateOf value) := by
  cases h with
  | register inside => exact absurd rfl number
  | literal immediate admitted => exact ⟨_, rfl, admitted, rfl⟩
  | label known => exact absurd rfl noAddress

theorem targetField {operand : Operand} {field : Field}
    (h : OperandField address? .address operand field)
    (short : ∀ name address, address? name = some address → address < 0x10000) :
    ∃ target, Interpreter.target? address? operand = some target ∧ target < 0x10000 ∧
      field = .immediate (UInt16.ofNat target) := by
  cases h with
  | literal immediate admitted =>
    simp only [OperandKind.Admits, OperandKind.least, OperandKind.greatest] at admitted
    exact ⟨_, rfl, by omega, congrArg _ (immediateOf_unsigned admitted.1)⟩
  | label known => exact ⟨_, known, short _ _ known, rfl⟩

theorem noOperand_fields (h : OperandFields address? [] operands fields) (core : Core) :
    Interpreter.noOperand core operands = some core := by
  cases h
  rfl

theorem oneRegister_fields (h : OperandFields address? [.register] operands fields) :
    ∃ rd, (∀ core, Interpreter.oneRegister core operands = some (core rd)) ∧
      ∀ opcode, instructionOf opcode fields = ⟨opcode, rd, .first, 0⟩ := by
  rcases h with _ | ⟨first, _ | _⟩
  obtain ⟨rd, readD, rfl⟩ := registerField first
  refine ⟨rd, fun core => ?_, fun opcode => rfl⟩
  rw [Interpreter.oneRegister, readD]
  rfl

theorem twoRegisters_fields (h : OperandFields address? [.register, .register] operands fields) :
    ∃ rd rs, (∀ core, Interpreter.twoRegisters core operands = some (core rd rs)) ∧
      ∀ opcode, instructionOf opcode fields = ⟨opcode, rd, rs, 0⟩ := by
  rcases h with _ | ⟨first, _ | ⟨second, _ | _⟩⟩
  obtain ⟨rd, readD, rfl⟩ := registerField first
  obtain ⟨rs, readS, rfl⟩ := registerField second
  refine ⟨rd, rs, fun core => ?_, fun opcode => rfl⟩
  rw [Interpreter.twoRegisters, readD, readS]
  rfl

theorem registerLiteral_fields {kind : OperandKind} (number : kind ≠ .register)
    (noAddress : kind ≠ .address) (h : OperandFields address? [.register, kind] operands fields) :
    ∃ rd value, kind.Admits value ∧
      (∀ core, Interpreter.registerLiteral core operands = some (core rd value)) ∧
        ∀ opcode, instructionOf opcode fields = ⟨opcode, rd, .first, immediateOf value⟩ := by
  rcases h with _ | ⟨first, _ | ⟨second, _ | _⟩⟩
  obtain ⟨rd, readD, rfl⟩ := registerField first
  obtain ⟨value, readN, admitted, rfl⟩ := literalField second number noAddress
  refine ⟨rd, value, admitted, fun core => ?_, fun opcode => rfl⟩
  rw [Interpreter.registerLiteral, readD, readN]
  rfl

theorem registersLiteral_fields
    (h : OperandFields address? [.register, .register, .signed] operands fields) :
    ∃ rd rs value, OperandKind.signed.Admits value ∧
      (∀ core, Interpreter.registersLiteral core operands = some (core rd rs value)) ∧
        ∀ opcode, instructionOf opcode fields = ⟨opcode, rd, rs, immediateOf value⟩ := by
  rcases h with _ | ⟨first, _ | ⟨second, _ | ⟨third, _ | _⟩⟩⟩
  obtain ⟨rd, readD, rfl⟩ := registerField first
  obtain ⟨rs, readS, rfl⟩ := registerField second
  obtain ⟨value, readN, admitted, rfl⟩ := literalField third (by decide) (by decide)
  refine ⟨rd, rs, value, admitted, fun core => ?_, fun opcode => rfl⟩
  rw [Interpreter.registersLiteral, readD, readS, readN]
  rfl

theorem oneTarget_fields (h : OperandFields address? [.address] operands fields)
    (short : ∀ name address, address? name = some address → address < 0x10000) :
    ∃ target, target < 0x10000 ∧
      (∀ core, Interpreter.oneTarget address? core operands = some (core target)) ∧
        ∀ opcode, instructionOf opcode fields = ⟨opcode, .first, .first, UInt16.ofNat target⟩ := by
  rcases h with _ | ⟨first, _ | _⟩
  obtain ⟨target, readA, inside, rfl⟩ := targetField first short
  refine ⟨target, inside, fun core => ?_, fun opcode => rfl⟩
  rw [Interpreter.oneTarget, readA]
  rfl

end

/-! ## Statements -/

/-- An effective address is the sum if there is such a word. -/
theorem effectiveAddress_eq (state : MachineState) (base : UInt16) (offset : Int) :
    Machine.effectiveAddress state base offset =
      if h : 0 ≤ (base.toNat : Int) + offset ∧
          ((base.toNat : Int) + offset).toNat < state.memory.size then
        .ok ⟨((base.toNat : Int) + offset).toNat, h.2⟩
      else .error (.memoryOutOfRange state.pc (base.toNat + offset)) :=
  rfl

theorem perform_ld (instruction : Instruction) (value : UInt16) (state : MachineState) :
    Core.perform .ld instruction value state =
      Interpreter.load state instruction.dest
        ((state.register instruction.src).toNat + instruction.signedImmediate) := by
  simp only [Core.perform, Machine.execute, effectiveAddress_eq, Interpreter.load,
    Interpreter.word?]
  by_cases positive : 0 ≤ ((state.register instruction.src).toNat : Int) +
      instruction.signedImmediate
  · rw [if_pos positive]
    by_cases below : (((state.register instruction.src).toNat : Int) +
        instruction.signedImmediate).toNat < state.memory.size
    · rw [dif_pos ⟨positive, below⟩, Array.getElem?_eq_getElem below]
      rfl
    · rw [dif_neg fun inside => below inside.2, Array.getElem?_eq_none (Nat.le_of_not_lt below)]
      rfl
  · rw [if_neg positive, dif_neg fun inside => positive inside.1]
    rfl

theorem perform_st (instruction : Instruction) (value : UInt16) (state : MachineState) :
    Core.perform .st instruction value state =
      Interpreter.store state
        ((state.register instruction.dest).toNat + instruction.signedImmediate)
        (state.register instruction.src) := by
  simp only [Core.perform, Machine.execute, effectiveAddress_eq, Interpreter.store]
  by_cases inside : 0 ≤ ((state.register instruction.dest).toNat : Int) +
      instruction.signedImmediate ∧ (((state.register instruction.dest).toNat : Int) +
        instruction.signedImmediate).toNat < state.memory.size
  · rw [dif_pos inside, dif_pos inside]
    rfl
  · rw [dif_neg inside, dif_neg inside]
    rfl

/-- What a statement means is what its instruction does. -/
theorem meaning_eq_perform {address? : String → Option Nat} {operation : Operation}
    {operands : List Operand} {fields : List Field}
    (suited : OperandFields address? operation.operands operands fields)
    (short : ∀ name address, address? name = some address → address < 0x10000)
    (opcode : UInt8) (value : UInt16) {state : MachineState} (here : state.pc + 1 < 0x10000) :
    Interpreter.meaning address? value state operation operands =
      some (Core.perform operation (instructionOf opcode fields) value state) := by
  -- Operations of one layout are read alike, and most of them do with their operands what the
  -- processor does with the fields.
  cases operation
  case nop | hlt | ret => exact noOperand_fields suited _
  case not | input | output =>
    obtain ⟨rd, meant, encoded⟩ := oneRegister_fields suited
    rw [encoded]
    exact meant _
  case mov | add | sub | mul | and | or | xor | cmp =>
    obtain ⟨rd, rs, meant, encoded⟩ := twoRegisters_fields suited
    rw [encoded]
    exact meant _
  -- Whether there is a fault depends on the divisor, which both look at.
  case div | mod =>
    obtain ⟨rd, rs, meant, encoded⟩ := twoRegisters_fields suited
    rw [encoded]
    refine (meant _).trans (congrArg some ?_)
    by_cases zero : state.register rs = 0
    · simp only [Core.perform, Machine.execute, zero, if_pos]
      rfl
    · simp only [Core.perform, Machine.execute, zero, if_neg, not_false_eq_true]
      rfl
  case ldi | shl | shr =>
    obtain ⟨rd, n, admitted, meant, encoded⟩ :=
      registerLiteral_fields (by decide) (by decide) suited
    rw [encoded, immediateOf_unsigned admitted.1]
    exact meant _
  -- The addend is the field, so it is the number modulo `2 ^ 16`.
  case addi =>
    obtain ⟨rd, n, admitted, meant, encoded⟩ :=
      registerLiteral_fields (by decide) (by decide) suited
    refine (meant _).trans (congrArg some ?_)
    rw [encoded, ← toNat_immediateOf]
    rfl
  -- The field is read with a sign, which gives back the number.
  case ld =>
    obtain ⟨rd, rs, n, admitted, meant, encoded⟩ := registersLiteral_fields suited
    rw [encoded, perform_ld, signedImmediate_immediateOf admitted]
    exact meant _
  case st =>
    obtain ⟨rd, rs, n, admitted, meant, encoded⟩ := registersLiteral_fields suited
    rw [encoded, perform_st, signedImmediate_immediateOf admitted]
    exact meant _
  case jmp | jz | jnz | jc | jnc =>
    obtain ⟨target, inside, meant, encoded⟩ := oneTarget_fields suited short
    have same : (UInt16.ofNat target).toNat = target := UInt16.toNat_ofNat_of_lt' inside
    refine (meant _).trans (congrArg some ?_)
    simp only [Core.perform, Machine.execute, encoded, same]
    rfl
  -- The return address fits as well, so the fault for one that does not is out of reach.
  case call =>
    obtain ⟨target, inside, meant, encoded⟩ := oneTarget_fields suited short
    have same : (UInt16.ofNat target).toNat = target := UInt16.toNat_ofNat_of_lt' inside
    refine (meant _).trans (congrArg some ?_)
    simp only [Core.perform, Machine.execute, encoded, same, if_pos here]
    rfl

/-! ## Mnemonics -/

/-- No mnemonic that was read has blanks around it. -/
theorem trimChars_mnemonic {text : String} {lines : List Line}
    (parses : Source.Parses text lines) {statement : Statement}
    (stated : statement ∈ Source.statementsOf lines) :
    Text.trimChars statement.mnemonic.toList = statement.mnemonic.toList := by
  obtain ⟨trees, -, rfl⟩ := Source.parses_iff_exists_trees.mp parses
  obtain ⟨line, member, said⟩ := List.mem_filterMap.mp stated
  obtain ⟨tree, -, rfl⟩ := List.mem_map.mp member
  obtain ⟨source, -, rfl⟩ := Option.map_eq_some_iff.mp said
  have spelled : source.statement.mnemonic.toList = source.mnemonic.text :=
    String.toList_ofList
  rw [spelled]
  exact source.mnemonic.trimChars_text

theorem operation?_of_lookupMnemonic {architecture : Architecture} {mnemonic : String} {spec : Spec}
    (trimmed : Text.trimChars mnemonic.toList = mnemonic.toList)
    (found : architecture.lookupMnemonic mnemonic = some spec) :
    Interpreter.operation? mnemonic = some spec.operation := by
  -- Two mnemonics that are equal but for their case are equal.
  have upper : ∀ operation ∈ Operation.all,
      operation.mnemonic.toList.map Char.toUpper = operation.mnemonic.toList := by decide
  have unique : ∀ operation ∈ Operation.all,
      (Operation.all.find? fun other =>
        other.mnemonic.toList.map Char.toUpper == operation.mnemonic.toList) = some operation := by
    decide
  have spelled : spec.operation.mnemonic = normalizeMnemonic mnemonic :=
    (Architecture.lookupMnemonic_eq_some_iff.mp found).2
  have same : mnemonic.toList.map Char.toUpper = spec.operation.mnemonic.toList := by
    rw [spelled, normalizeMnemonic, trimmed, String.toList_ofList]
  unfold Interpreter.operation?
  rw [same]
  exact unique spec.operation (Operation.mem_all spec.operation)

/-! ## Steps and runs -/

/-- What the processor finds where the interpreter finds a statement. -/
theorem exists_instruction {architecture : Architecture} {lines : List Line} {program : Program}
    (encodes : EncodesAll architecture lines program) {i : Nat} {statement : Statement}
    (stated : (Source.statementsOf lines)[i]? = some statement) :
    ∃ instruction, program[i]? = some instruction ∧
      Encodes architecture (Source.labelAddress? lines) statement instruction := by
  have inside : i < program.toList.length := by
    rw [← List.Forall₂.length_eq encodes]
    exact (List.getElem?_eq_some_iff.mp stated).1
  have fetched : program.toList[i]? = some program.toList[i] := List.getElem?_eq_getElem inside
  exact ⟨_, Array.getElem?_toList.symm.trans fetched, forall₂_getElem? encodes stated fetched⟩

section

variable {architecture : Architecture} {text : String} {lines : List Line} {program : Program}
  (parses : Source.Parses text lines) (encodes : EncodesAll architecture lines program)
  (short : (Source.statementsOf lines).length ≤ 0xFFFF) {σ : Type} (host : Host σ)
  (input : Nat → UInt16)

include parses encodes short

/-- A cycle of the processor is a step of the interpreter. -/
theorem step_simulation {cpu : Cpu} (table : cpu.architecture = architecture)
    (loaded : cpu.program = program) {world : σ} {read : Nat}
    (answers : ∀ value ∈ cpu.valueRead? host world, value = input read) :
    Interpreter.step (Source.statementsOf lines) (Source.labelAddress? lines) input
        ⟨cpu.core, read⟩ =
      some ⟨(cpu.step.run host world).1.core,
        read + (cpu.valueRead? host world).toList.length⟩ := by
  subst table loaded
  rw [Cpu.step_run_core]
  unfold Interpreter.step
  dsimp only
  by_cases terminal : cpu.core.status.isTerminal
  · rw [if_pos terminal, Core.cycle_of_terminal terminal, Cpu.valueRead?_of_terminal _ terminal]
    rfl
  · rw [if_neg terminal]
    cases stated : (Source.statementsOf lines)[cpu.core.state.pc]? with
    | none =>
      have fetched : cpu.program[cpu.core.state.pc]? = none := by
        rw [← Array.getElem?_toList, List.getElem?_eq_none_iff,
          ← List.Forall₂.length_eq encodes]
        exact List.getElem?_eq_none_iff.mp stated
      rw [Core.cycle_of_pastEnd terminal fetched, Cpu.valueRead?_of_pastEnd _ fetched]
      rfl
    | some statement =>
      -- The instruction in its place is one of the same operation, with suitable fields.
      obtain ⟨instruction, fetched, spec, fields, found, suited, rfl⟩ :=
        exists_instruction encodes stated
      have listed := (Architecture.lookupMnemonic_eq_some_iff.mp found).1
      have decoded : cpu.architecture.operation?
          (instructionOf spec.opcode fields).opcode = some spec.operation :=
        Architecture.operation?_opcode listed
      have named : Interpreter.operation? statement.mnemonic = some spec.operation :=
        operation?_of_lookupMnemonic (trimChars_mnemonic parses (List.mem_of_getElem? stated)) found
      have here : cpu.core.state.pc + 1 < 0x10000 := by
        have inside := (List.getElem?_eq_some_iff.mp stated).1
        omega
      have addresses (name : String) (address : Nat)
          (known : Source.labelAddress? lines name = some address) : address < 0x10000 := by
        have bounded := Source.labelAddress?_le_length known
        omega
      have meant := meaning_eq_perform suited addresses spec.opcode (input read) here
      rw [Core.cycle_of_operation terminal fetched decoded]
      dsimp only
      rw [named]
      dsimp only [bind, Option.bind]
      rw [meant]
      -- Both read a value for `IN` and for nothing else.
      by_cases reads : spec.operation = .input
      · rw [reads] at decoded
        have value := Cpu.valueRead?_of_input host terminal fetched decoded world
        rw [value] at answers ⊢
        rw [if_pos reads, Option.getD_some, answers _ rfl]
        rfl
      · have value := Cpu.valueRead?_of_ne_input host fetched (by simp [decoded, reads]) world
        rw [value, if_neg reads, Core.perform_of_ne_input reads _ (input read) _ _]
        rfl

theorem run_simulation {n : Nat} {cpu : Cpu} (table : cpu.architecture = architecture)
    (loaded : cpu.program = program) {world : σ} {read : Nat}
    (answers : ∀ k value, (cpu.valuesRead host n world)[k]? = some value →
      value = input (read + k)) :
    Interpreter.run (Source.statementsOf lines) (Source.labelAddress? lines) input n
        ⟨cpu.core, read⟩ =
      some ⟨(cpu.cycles host n world).1.core,
        read + (cpu.valuesRead host n world).length⟩ := by
  -- After one step the two are again in the same state, with one more value read or none.
  induction n generalizing cpu world read with
  | zero => rfl
  | succ n ih =>
    have now : ∀ value ∈ cpu.valueRead? host world, value = input read := by
      intro value reads
      refine answers 0 value ?_
      rw [Cpu.valuesRead, Cpu.collected, Option.mem_def.mp reads]
      rfl
    have later (k : Nat) (value : UInt16)
        (reads : (Cpu.valuesRead host n (cpu.step.run host world).1
          (cpu.step.run host world).2)[k]? = some value) :
        value = input (read + (cpu.valueRead? host world).toList.length + k) := by
      rw [Nat.add_assoc]
      refine answers _ value ?_
      rw [Cpu.valuesRead, Cpu.collected, List.getElem?_append_right (Nat.le_add_right _ _),
        Nat.add_sub_cancel_left]
      exact reads
    obtain ⟨table', loaded'⟩ := Cpu.step_run_program host cpu world
    have stepped := step_simulation parses encodes short host input table loaded now
    rw [Interpreter.run, stepped, Cpu.cycles, Cpu.valuesRead, Cpu.collected, List.length_append,
      ← Nat.add_assoc]
    exact ih (table'.trans table) (loaded'.trans loaded) later

end

/-- A processor with an assembled program and the interpreter with the statements of the text are in
the same status and the same state after every number of steps, on a machine of any size, whoever is
around, if the interpreter reads the values that the processor reads.  Every sequence of values is
read from somebody. -/
theorem execution_preserves_meaning {architecture : Architecture} {text : String}
    {lines : List Line} {program : Program} {summary : AssemblySummary}
    (assembled : assemble architecture text = .ok (program, summary))
    (parses : Source.Parses text lines)
    (short : (Source.statementsOf lines).length ≤ 65535) (config : Config) (observed : Bool)
    (input : Nat → UInt16) (n : Nat) :
    (∀ (supplied : Bool) (σ : Type) (host : Host σ) (world : σ),
      let cpu := (Cpu.boot architecture config program).attached observed supplied
      (∀ k value, (cpu.valuesRead host n world)[k]? = some value → value = input k) →
        Interpreter.run (Source.statementsOf lines) (Source.labelAddress? lines) input n
            (Interpreter.start (min config.memoryWords Config.maxMemoryWords)) =
          some ⟨(cpu.cycles host n world).1.core, (cpu.valuesRead host n world).length⟩) ∧
      let cpu := (Cpu.boot architecture config program).attached observed true
      ∃ read, Interpreter.run (Source.statementsOf lines) (Source.labelAddress? lines) input n
          (Interpreter.start (min config.memoryWords Config.maxMemoryWords)) =
        some ⟨(cpu.cycles (.answering input) n 0).1.core, read⟩ := by
  obtain ⟨lines', parses', -, encodes⟩ := assemble_eq_ok_iff.mp ⟨summary, assembled⟩
  obtain rfl := parses'.unique parses
  have agrees (supplied : Bool) (σ : Type) (host : Host σ) (world : σ)
      (answers : ∀ k value, (((Cpu.boot architecture config program).attached observed
        supplied).valuesRead host n world)[k]? = some value → value = input k) :
      Interpreter.run (Source.statementsOf lines') (Source.labelAddress? lines') input n
          (Interpreter.start (min config.memoryWords Config.maxMemoryWords)) = _ :=
    run_simulation parses encodes short host input rfl rfl fun k value reads =>
      (answers k value reads).trans (congrArg input (Nat.zero_add k).symm)
  refine ⟨fun supplied σ host world answers => ?_, ⟨_, agrees true Nat (.answering input) 0 ?_⟩⟩
  · have simulated := agrees supplied σ host world answers
    rw [Nat.zero_add] at simulated
    exact simulated
  · intro k value reads
    exact (Cpu.valuesRead_answering input rfl reads).trans (congrArg input (Nat.zero_add k))

/-- A loop that counts down what it has read. -/
theorem execution_preserves_meaning_countdown :
    let text := "IN r1\nagain: ADDI r1, -1\nJNZ again\nOUT r1\nHLT"
    ∃ program summary lines, assemble .standard text = .ok (program, summary) ∧
      Source.Parses text lines ∧ (Source.statementsOf lines).length ≤ 65535 ∧
        let cpu := (Cpu.boot .standard .standard program).attached true true
        ∀ n, ∃ read,
          Interpreter.run (Source.statementsOf lines) (Source.labelAddress? lines) (fun _ => 3) n
              (Interpreter.start 4096) =
            some ⟨(cpu.cycles (.answering fun _ => 3) n 0).1.core, read⟩ := by
  have assembled : assemble .standard "IN r1\nagain: ADDI r1, -1\nJNZ again\nOUT r1\nHLT" =
      .ok (#[⟨0x60, 1, 0, 0⟩, ⟨0x21, 1, 0, 0xFFFF⟩, ⟨0x52, 0, 0, 1⟩, ⟨0x61, 1, 0, 0⟩,
        ⟨0x01, 0, 0, 0⟩], ⟨5, 1, []⟩) := eq_ok_of_toOption (by decide +kernel)
  have parses : Source.Parses "IN r1\nagain: ADDI r1, -1\nJNZ again\nOUT r1\nHLT"
      [⟨none, some ⟨"IN", [.register 1]⟩⟩,
        ⟨some "again", some ⟨"ADDI", [.register 1, .number (-1)]⟩⟩,
        ⟨none, some ⟨"JNZ", [.label "again"]⟩⟩, ⟨none, some ⟨"OUT", [.register 1]⟩⟩,
        ⟨none, some ⟨"HLT", []⟩⟩] :=
    Source.parses_of_toOption (by decide +kernel)
  have short : (5 : Nat) ≤ 65535 := by decide
  exact ⟨_, _, _, assembled, parses, short, fun n =>
    (execution_preserves_meaning assembled parses short .standard true (fun _ => 3) n).2⟩

end Assembler
end Minicomputer
