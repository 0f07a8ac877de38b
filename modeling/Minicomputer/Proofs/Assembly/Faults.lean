import Minicomputer.Proofs.Architecture
import Minicomputer.Proofs.Assembly.Encoding
import Minicomputer.Proofs.Machine.Lifecycle
import Minicomputer.Proofs.Program

/-!
# Faults of assembled programs

The assembler takes every opcode from the table, and it accepts no more statements than there are
addresses.  Whatever way control reaches an instruction, it is one of these: so a processor with the
same table never meets an opcode that it does not know, and only the last of all addresses is one
that `CALL` cannot come back to.

* `Assembler.exists_spec_of_assemble`, `Assembler.size_le_of_assemble` -- what assembled programs
  are like;
* `Assembler.opcodes_stay_known` -- what follows for every sequence of calls.
-/

namespace Minicomputer

/-! ## What raises these faults -/

namespace Core

variable {architecture : Architecture} {program : Program} {state : MachineState}

/-- A program of known opcodes does not raise an unknown one. -/
theorem Raises.ne_unknownOpcode
    (known : ∀ instruction ∈ program, ∃ spec ∈ architecture.specs,
      spec.opcode = instruction.opcode)
    {fault : Fault} (raises : Raises architecture program state fault) (pc : Nat)
    (opcode : UInt8) : fault ≠ .unknownOpcode pc opcode := by
  intro unknown
  cases raises with
  | unknownOpcode fetched unlisted =>
    obtain ⟨spec, listed, same⟩ := known _ (Array.mem_of_getElem? fetched)
    exact unlisted spec listed same
  | refused fetched decoded refuses =>
    -- No operation is refused for its opcode.
    subst unknown
    cases refuses

/-- Below the last address there is always a return address. -/
theorem Raises.pc_eq_of_returnAddress (short : program.size ≤ 0x10000) {pc : Nat}
    (raises : Raises architecture program state (.returnAddressOutOfRange pc)) : pc = 65535 := by
  have inside := raises.pc_lt_size
  cases raises with
  | refused fetched decoded refuses =>
    cases refuses with
    | call far => omega

end Core

/-! ## Assembled programs -/

namespace Assembler

open Lifecycle

variable {architecture : Architecture} {text : String} {program : Program}
  {summary : AssemblySummary}

theorem exists_spec_of_assemble
    (assembled : assemble architecture text = .ok (program, summary)) :
    ∀ instruction ∈ program, ∃ spec ∈ architecture.specs, spec.opcode = instruction.opcode := by
  intro instruction member
  obtain ⟨lines, -, -, encodes⟩ := assemble_eq_ok_iff.mp ⟨summary, assembled⟩
  obtain ⟨statement, spec, fields, found, -, rfl⟩ := exists_of_mem_right encodes member.val
  exact ⟨spec, (Architecture.lookupMnemonic_eq_some_iff.mp found).1, rfl⟩

theorem size_le_of_assemble (assembled : assemble architecture text = .ok (program, summary)) :
    program.size ≤ 0x10000 := by
  obtain ⟨lines, -, acceptable, encodes⟩ := assemble_eq_ok_iff.mp ⟨summary, assembled⟩
  calc program.size = (Source.statementsOf lines).length := encodes.length_eq.symm
    _ ≤ 0x10000 := acceptable.fits

/-- An assembled program is read back from its image as it was.  A processor with the same table
that has the program, from the assembler or from its image, is never stopped by an unknown opcode,
whatever has been done with it and whoever has answered it; and it misses a return address at the
last address only. -/
theorem opcodes_stay_known (assembled : assemble architecture text = .ok (program, summary)) :
    Program.ofImage program.image = .ok program ∧
      ∀ loaded, loaded = program ∨ Program.ofImage program.image = .ok loaded →
        ∀ (config : Config) (calls : List Call) (cycles : List Cpu) (rig : Rig),
          Leads calls (.new architecture config) cycles rig → rig.cpu.program = loaded →
            (∀ pc opcode, rig.cpu.status ≠ .faulted (.unknownOpcode pc opcode)) ∧
              ∀ pc, rig.cpu.status = .faulted (.returnAddressOutOfRange pc) → pc = 65535 := by
  have image := Program.ofImage_image program
  refine ⟨image, ?_⟩
  intro loaded origin config calls cycles rig led has
  have same : loaded = program := by
    rcases origin with same | read
    · exact same
    · exact Except.ok.inj (read.symm.trans image)
  subst same
  -- A fault that the processor is in is raised by its state.
  have raised := (led.kept kept_new).sound.raises
  rw [has] at raised
  constructor
  · intro pc opcode faulted
    exact (raised _ faulted).ne_unknownOpcode (exists_spec_of_assemble assembled) pc opcode rfl
  · intro pc faulted
    exact (raised _ faulted).pc_eq_of_returnAddress (size_le_of_assemble assembled)

/-- A program that returns to where it has never been called from, and halts there. -/
theorem opcodes_stay_known_return :
    let text := "LDI r15, 3\nRET\nDIV r0, r0"
    ∃ program summary, assemble .standard text = .ok (program, summary) ∧
      ∃ calls cycles rig, Leads calls (.new .standard ⟨0, 1⟩) cycles rig ∧
        rig.cpu.program = program ∧ rig.cpu.status = .halted ∧
          ∀ pc opcode, rig.cpu.status ≠ .faulted (.unknownOpcode pc opcode) := by
  have assembled : assemble .standard "LDI r15, 3\nRET\nDIV r0, r0" =
      .ok (#[⟨0x11, 15, 0, 3⟩, ⟨0x59, 0, 0, 0⟩, ⟨0x24, 0, 0, 0⟩],
        ⟨3, 0, [.noHalt]⟩) := eq_ok_of_toOption (by decide +kernel)
  obtain ⟨rig, led, has, halted⟩ : ∃ rig,
      Leads [.load #[⟨0x11, 15, 0, 3⟩, ⟨0x59, 0, 0, 0⟩, ⟨0x24, 0, 0, 0⟩], .step .silent (),
          .step .silent (), .step .silent ()] (.new .standard ⟨0, 1⟩) _ rig ∧
        rig.cpu.program = #[⟨0x11, 15, 0, 3⟩, ⟨0x59, 0, 0, 0⟩, ⟨0x24, 0, 0, 0⟩] ∧
          rig.cpu.status = .halted :=
    ⟨_, .cons (.load _ _) (.cons (.step _ _ _) (.cons (.step _ _ _) (.cons (.step _ _ _)
      (.nil _)))), by decide +kernel, by decide +kernel⟩
  have read := (opcodes_stay_known assembled).1
  exact ⟨_, _, assembled, _, _, rig, led, has, halted,
    ((opcodes_stay_known assembled).2 _ (.inr read) _ _ _ rig led has).1⟩

end Assembler
end Minicomputer
