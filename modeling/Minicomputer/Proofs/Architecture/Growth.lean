import Minicomputer.Proofs.Assembly.Disassembly
import Minicomputer.Proofs.Assembly.Faults
import Minicomputer.Proofs.Machine.Observation

/-!
# Tables that grow

An opcode is one operation, whatever table it is in, and with the operation come its mnemonic and
its operands.  So a table that has all opcodes of another says of them what the other says, however
it lists, names and describes them:

* what assembles under the smaller table assembles under the larger one to the same program, and
  there is the same to say about it;
* an instruction of the smaller table is disassembled alike;
* two processors do the same until the one with the smaller table meets an opcode that is not in
  its table.

A text that does not assemble under the smaller table may well do so under the larger one.
-/

namespace Minicomputer

namespace Architecture

/-- Every opcode of the table is in the other one. -/
def Within (smaller larger : Architecture) : Prop :=
  ∀ spec ∈ smaller.specs, ∃ spec' ∈ larger.specs, spec'.opcode = spec.opcode

instance (smaller larger : Architecture) : Decidable (smaller.Within larger) :=
  inferInstanceAs (Decidable (∀ spec ∈ smaller.specs, ∃ spec' ∈ larger.specs, _))

namespace Within

variable {smaller larger : Architecture} {spec : Spec}

/-! ## The same operations -/

theorem exists_operation (within : smaller.Within larger) (listed : spec ∈ smaller.specs) :
    ∃ spec' ∈ larger.specs, spec'.operation = spec.operation := by
  obtain ⟨spec', listed', same⟩ := within spec listed
  exact ⟨spec', listed', Operation.code_injective same⟩

theorem lookupOpcode (within : smaller.Within larger) {opcode : UInt8}
    (found : smaller.lookupOpcode opcode = some spec) :
    ∃ spec', larger.lookupOpcode opcode = some spec' ∧ spec'.operation = spec.operation := by
  obtain ⟨listed, rfl⟩ := lookupOpcode_eq_some_iff.mp found
  obtain ⟨spec', listed', same⟩ := within.exists_operation listed
  exact ⟨spec', lookupOpcode_eq_some_iff.mpr ⟨listed', congrArg Operation.code same⟩, same⟩

theorem lookupMnemonic (within : smaller.Within larger) {mnemonic : String}
    (found : smaller.lookupMnemonic mnemonic = some spec) :
    ∃ spec', larger.lookupMnemonic mnemonic = some spec' ∧ spec'.operation = spec.operation := by
  obtain ⟨listed, written⟩ := lookupMnemonic_eq_some_iff.mp found
  obtain ⟨spec', listed', same⟩ := within.exists_operation listed
  have written' : spec'.mnemonic = spec.mnemonic := congrArg Operation.mnemonic same
  exact ⟨spec', lookupMnemonic_eq_some_iff.mpr ⟨listed', written'.trans written⟩, same⟩

theorem operation? (within : smaller.Within larger) {opcode : UInt8} {operation : Operation}
    (decoded : smaller.operation? opcode = some operation) :
    larger.operation? opcode = some operation := by
  obtain ⟨spec, found, rfl⟩ := Option.map_eq_some_iff.mp decoded
  obtain ⟨spec', found', same⟩ := within.lookupOpcode found
  exact Option.map_eq_some_iff.mpr ⟨spec', found', same⟩

/-! ## The same texts -/

theorem instructionText_eq {spec' : Spec} (same : spec'.operation = spec.operation)
    (instruction : Instruction) :
    instructionText spec' instruction = instructionText spec instruction := by
  have mnemonic : spec'.mnemonic = spec.mnemonic := congrArg Operation.mnemonic same
  have operands : spec'.operands = spec.operands := congrArg Operation.operands same
  rw [instructionText, instructionText, mnemonic, operands]

theorem disassemble (within : smaller.Within larger) {instruction : Instruction}
    (known : ∃ spec ∈ smaller.specs, spec.opcode = instruction.opcode) :
    larger.disassemble instruction = smaller.disassemble instruction := by
  obtain ⟨spec, listed, same⟩ := known
  have found := lookupOpcode_eq_some_iff.mpr ⟨listed, same⟩
  obtain ⟨spec', found', operation⟩ := within.lookupOpcode found
  rw [Architecture.disassemble, Architecture.disassemble, found, found']
  exact instructionText_eq operation instruction

end Within
end Architecture

/-! ## The same programs -/

namespace Assembler

variable {smaller larger : Architecture} {symbols : SymbolTable}

theorem Encodes.within {address? : String → Option Nat} {statement : Statement}
    {instruction : Instruction} (encodes : Encodes smaller address? statement instruction)
    (within : smaller.Within larger) : Encodes larger address? statement instruction := by
  obtain ⟨spec, fields, found, suited, rfl⟩ := encodes
  obtain ⟨spec', found', same⟩ := within.lookupMnemonic found
  have operands : spec'.operands = spec.operands := congrArg Operation.operands same
  have opcode : spec'.opcode = spec.opcode := congrArg Operation.code same
  exact ⟨spec', fields, found', operands ▸ suited, by rw [opcode]⟩

/-- Whether a program halts is seen from opcodes of the table. -/
theorem halts_within (within : smaller.Within larger) {program : Program}
    (known : ∀ instruction ∈ program, ∃ spec ∈ smaller.specs,
      spec.opcode = instruction.opcode) :
    halts larger program = halts smaller program := by
  have decoded (instruction : Instruction) (member : instruction ∈ program) :
      larger.operation? instruction.opcode = smaller.operation? instruction.opcode := by
    obtain ⟨spec, listed, same⟩ := known instruction member
    have found := Architecture.operation?_opcode listed
    rw [same] at found
    rw [found, within.operation? found]
  rw [halts, halts, Bool.eq_iff_iff, Array.any_eq_true', Array.any_eq_true']
  refine exists_congr fun instruction => and_congr_right fun member => ?_
  rw [decoded instruction member]

theorem assemble_within (within : smaller.Within larger) {text : String} {program : Program}
    {summary : AssemblySummary} (assembled : assemble smaller text = .ok (program, summary)) :
    assemble larger text = .ok (program, summary) := by
  have known := exists_spec_of_assemble assembled
  unfold assemble at assembled
  obtain ⟨source, read, left⟩ := bind_eq_ok_iff.mp assembled
  obtain ⟨instructions, encoded, returned⟩ := bind_eq_ok_iff.mp left
  cases returned
  have encoded' : source.statements.toList.mapM (encode larger source.symbols) =
      .ok instructions := by
    rw [mapM_eq_ok_iff] at encoded ⊢
    refine encoded.imp fun numbered instruction h => ?_
    rw [encode_eq_ok_iff] at h ⊢
    exact h.within within
  have summaries : summarize larger source instructions.toArray =
      summarize smaller source instructions.toArray := by
    rw [summarize, summarize, halts_within within known]
  unfold assemble
  refine bind_eq_ok_iff.mpr ⟨source, read, bind_eq_ok_iff.mpr ⟨instructions, encoded', ?_⟩⟩
  exact congrArg (fun summary => Except.ok (instructions.toArray, summary)) summaries

end Assembler

/-! ## The same runs -/

namespace Cpu

/-- The processor has met an opcode that is not in its table. -/
def Lost (cpu : Cpu) : Prop :=
  ∃ pc opcode, cpu.status = .faulted (.unknownOpcode pc opcode)

/-- The same program, status and state, and every opcode of one table is in the other. -/
structure Outgrown (cpu cpu' : Cpu) : Prop where
  within : cpu.architecture.Within cpu'.architecture
  program_eq : cpu.program = cpu'.program
  core_eq : cpu.core = cpu'.core

section

variable {cpu cpu' : Cpu} {σ σ' : Type} (host : Host σ) (host' : Host σ') (world : σ) (world' : σ')

theorem Lost.step (lost : cpu.Lost) : (cpu.step.run host world).1.Lost := by
  obtain ⟨pc, opcode, status⟩ := lost
  have terminal : cpu.core.status.isTerminal := by
    rw [show cpu.core.status = _ from status]
    rfl
  have core := step_run_core host cpu world
  rw [Core.cycle_of_terminal terminal] at core
  exact ⟨pc, opcode, (congrArg Core.status core).trans status⟩

/-- A processor is lost after a cycle that fetches an opcode which is not in its table. -/
theorem lost_of_unknown {instruction : Instruction} (going : ¬ cpu.status.isTerminal)
    (fetched : cpu.program[cpu.state.pc]? = some instruction)
    (decoded : cpu.architecture.operation? instruction.opcode = none) :
    (cpu.step.run host world).1.Lost := by
  have going' : ¬ cpu.core.status.isTerminal := going
  have core := step_run_core host cpu world
  rw [Core.cycle_of_unknown going' fetched decoded] at core
  exact ⟨_, _, congrArg Core.status core⟩

/-- Both do the same in a cycle after which the first is not lost, if they read the same. -/
theorem Outgrown.cycle_eq (outgrown : cpu.Outgrown cpu')
    (found : ¬ (cpu.step.run host world).1.Lost) :
    (cpu.valueRead? host world).isSome = (cpu'.valueRead? host' world').isSome ∧
      ∀ value, cpu.core.cycle cpu.architecture cpu.program value =
        cpu'.core.cycle cpu'.architecture cpu'.program value := by
  have status : cpu.status = cpu'.status := congrArg Core.status outgrown.core_eq
  have state : cpu.state = cpu'.state := congrArg Core.state outgrown.core_eq
  -- Whatever is fetched before the end is in both tables.
  have decodes (going : ¬ cpu.status.isTerminal) (instruction : Instruction)
      (fetched : cpu.program[cpu.state.pc]? = some instruction) :
      ∃ operation, cpu.architecture.operation? instruction.opcode = some operation ∧
        cpu'.architecture.operation? instruction.opcode = some operation := by
    cases decoded : cpu.architecture.operation? instruction.opcode with
    | none => exact absurd (lost_of_unknown host world going fetched decoded) found
    | some operation => exact ⟨operation, rfl, outgrown.within.operation? decoded⟩
  constructor
  · rw [Bool.eq_iff_iff, isSome_valueRead?_iff, isSome_valueRead?_iff, ← status, ← state,
      ← outgrown.program_eq]
    refine and_congr_right fun going => exists_congr fun instruction =>
      and_congr_right fun fetched => ?_
    obtain ⟨operation, decoded, decoded'⟩ := decodes going instruction fetched
    rw [decoded, decoded']
  · intro value
    rw [← outgrown.core_eq, ← outgrown.program_eq]
    by_cases terminal : cpu.core.status.isTerminal
    · rw [Core.cycle_of_terminal terminal, Core.cycle_of_terminal terminal]
    · cases fetched : cpu.program[cpu.core.state.pc]? with
      | none => rw [Core.cycle_of_pastEnd terminal fetched, Core.cycle_of_pastEnd terminal fetched]
      | some instruction =>
        obtain ⟨operation, decoded, decoded'⟩ := decodes terminal instruction fetched
        rw [Core.cycle_of_operation terminal fetched decoded,
          Core.cycle_of_operation terminal fetched decoded']

theorem Outgrown.step (outgrown : cpu.Outgrown cpu') {world : σ} {world' : σ'}
    (same : cpu.valueRead? host world = cpu'.valueRead? host' world')
    (alike : ∀ value, cpu.core.cycle cpu.architecture cpu.program value =
      cpu'.core.cycle cpu'.architecture cpu'.program value) :
    (cpu.step.run host world).1.Outgrown (cpu'.step.run host' world').1 := by
  have left := step_run_program host cpu world
  have right := step_run_program host' cpu' world'
  refine ⟨?_, ?_, ?_⟩
  · rw [left.1, right.1]
    exact outgrown.within
  · rw [left.2, right.2, outgrown.program_eq]
  · rw [step_run_core, step_run_core, alike, same]

/-- Processors that read the same values do the same until the one with the smaller table is
lost. -/
theorem cycles_outgrown (outgrown : cpu.Outgrown cpu')
    (same : ∀ k value value', cpu.Yields host world k value → cpu'.Yields host' world' k value' →
      value = value') (n : Nat) :
    (cpu.cycles host n world).1.Lost ∨
      (cpu.cycles host n world).1.Outgrown (cpu'.cycles host' n world').1 ∧
        cpu.valuesRead host n world = cpu'.valuesRead host' n world' := by
  induction n with
  | zero => exact .inr ⟨outgrown, rfl⟩
  | succ n ih =>
    rw [cycles_succ, cycles_succ, valuesRead_succ, valuesRead_succ]
    rcases ih with lost | ⟨outgrown', values⟩
    · exact .inl (lost.step host _)
    · refine or_iff_not_imp_left.mpr fun found => ?_
      obtain ⟨both, alike⟩ := outgrown'.cycle_eq host host' _
        (cpu'.cycles host' n world').2 found
      have now := valueRead?_eq_of_yields host host' world world' same values both
      rw [values, now]
      exact ⟨outgrown'.step host host' now alike, rfl⟩

end
end Cpu

/-! ## Growth is conservative -/

namespace Architecture

/-- A table that has all opcodes of another assembles the same texts to the same programs, with the
same to say about them, and writes the instructions of the other alike.  Two processors with the
same program and memory that read the same values have the same status and state after every number
of cycles after which the one with the smaller table has not met an opcode that it does not know;
in particular if the values come from the same sequence. -/
theorem growth_is_conservative (smaller larger : Architecture) (within : smaller.Within larger) :
    (∀ text program summary, Assembler.assemble smaller text = .ok (program, summary) →
      Assembler.assemble larger text = .ok (program, summary)) ∧
    (∀ instruction, smaller.Canonical instruction →
      larger.disassemble instruction = smaller.disassemble instruction) ∧
    ∀ (program : Program) (memoryWords interval interval' : Nat) (observed observed' : Bool),
      (∀ (supplied supplied' : Bool) (σ σ' : Type) (host : Host σ) (host' : Host σ') (world : σ)
          (world' : σ'),
        let cpu := (Cpu.boot smaller ⟨memoryWords, interval⟩ program).attached observed supplied
        let cpu' := (Cpu.boot larger ⟨memoryWords, interval'⟩ program).attached observed' supplied'
        (∀ k value value', cpu.Yields host world k value → cpu'.Yields host' world' k value' →
            value = value') →
          ∀ n, ¬ (cpu.cycles host n world).1.Lost →
            (cpu.cycles host n world).1.status = (cpu'.cycles host' n world').1.status ∧
              (cpu.cycles host n world).1.state = (cpu'.cycles host' n world').1.state) ∧
      ∀ input n,
        let cpu := (Cpu.boot smaller ⟨memoryWords, interval⟩ program).attached observed true
        let cpu' := (Cpu.boot larger ⟨memoryWords, interval'⟩ program).attached observed' true
        let host := Host.answering input
        ¬ (cpu.cycles host n 0).1.Lost →
          (cpu.cycles host n 0).1.status = (cpu'.cycles host n 0).1.status ∧
            (cpu.cycles host n 0).1.state = (cpu'.cycles host n 0).1.state := by
  refine ⟨fun text program summary => Assembler.assemble_within within, ?_, ?_⟩
  · rintro instruction ⟨spec, listed, same, -⟩
    exact within.disassemble ⟨spec, listed, same⟩
  · intro program memoryWords interval interval' observed observed'
    have runs (supplied supplied' : Bool) (σ σ' : Type) (host : Host σ) (host' : Host σ')
        (world : σ) (world' : σ') :
        let cpu := (Cpu.boot smaller ⟨memoryWords, interval⟩ program).attached observed supplied
        let cpu' := (Cpu.boot larger ⟨memoryWords, interval'⟩ program).attached observed' supplied'
        (∀ k value value', cpu.Yields host world k value → cpu'.Yields host' world' k value' →
            value = value') →
          ∀ n, ¬ (cpu.cycles host n world).1.Lost →
            (cpu.cycles host n world).1.status = (cpu'.cycles host' n world').1.status ∧
              (cpu.cycles host n world).1.state = (cpu'.cycles host' n world').1.state := by
      intro cpu cpu' same n found
      have start : cpu.Outgrown cpu' := ⟨within, rfl, rfl⟩
      have core := ((Cpu.cycles_outgrown host host' world world' start same n).resolve_left
        found).1.core_eq
      exact ⟨congrArg Core.status core, congrArg Core.state core⟩
    refine ⟨runs, fun input n => runs true true Nat Nat _ _ 0 0 ?_ n⟩
    rintro k value value' ⟨m, read⟩ ⟨m', read'⟩
    rw [Cpu.valuesRead_answering input rfl read, Cpu.valuesRead_answering input rfl read']

/-- Two operations under other names, and a program that goes on with what it reads, in a table of
all operations. -/
theorem growth_is_conservative_echo :
    let smaller : Architecture := ⟨[⟨.hlt, "Stop", ""⟩, ⟨.input, "Wait", ""⟩], by decide⟩
    let program : Program := #[⟨0x60, 1, 0, 0⟩, ⟨0x61, 1, 0, 0⟩]
    let cpu := (Cpu.boot smaller ⟨0, 1⟩ program).attached true true
    let cpu' := (Cpu.boot .standard ⟨0, 0⟩ program).attached false true
    let host := Host.answering fun _ => 7
    smaller.Within .standard ∧
      Assembler.assemble .standard "in r1\nHLT" =
        .ok (#[⟨0x60, 1, 0, 0⟩, ⟨0x01, 0, 0, 0⟩], ⟨2, 0, []⟩) ∧
      Architecture.standard.disassemble ⟨0x60, 1, 0, 0⟩ = smaller.disassemble ⟨0x60, 1, 0, 0⟩ ∧
      (cpu.cycles host 1 0).1.state = (cpu'.cycles host 1 0).1.state ∧
      (cpu.cycles host 2 0).1.Lost ∧ (cpu'.cycles host 2 0).1.status = .running := by
  intro smaller program cpu cpu' host
  have within : smaller.Within .standard := by decide
  obtain ⟨assembles, disassembles, runs⟩ := growth_is_conservative smaller .standard within
  have assembled : Assembler.assemble smaller "in r1\nHLT" =
      .ok (#[⟨0x60, 1, 0, 0⟩, ⟨0x01, 0, 0, 0⟩], ⟨2, 0, []⟩) :=
    eq_ok_of_toOption (by decide +kernel)
  have found : ¬ (cpu.cycles host 1 0).1.Lost := by
    rintro ⟨pc, opcode, status⟩
    have running : (cpu.cycles host 1 0).1.status = .running := by decide +kernel
    rw [running] at status
    cases status
  exact ⟨within, assembles _ _ _ assembled, disassembles _ (by decide),
    ((runs program 0 1 0 true false).2 (fun _ => 7) 1 found).2,
    ⟨1, 0x61, by decide +kernel⟩, by decide +kernel⟩

end Architecture
end Minicomputer
