import Minicomputer.ImageFile
import Minicomputer.Proofs.FileSystem
import Minicomputer.Proofs.Program
import Minicomputer.Proofs.Results

/-!
# Programs in files

Programs and byte strings of whole words are the same thing, and a file keeps what has been written
to it.  So a program comes back from any file that it could be written to.

* `ImageFile.read_of_write` -- what is read after writing;
* `ImageFile.images_are_programs` -- words, images and files taken together.
-/

namespace Minicomputer
namespace ImageFile

variable {files files' : FileSystem} {path : String} {program : Program}

theorem write_eq_ok_iff :
    write files path program = .ok files' ↔ files.write path program.image = .ok files' := by
  unfold write
  cases files.write path program.image with
  | error cause => simp
  | ok changed => simp

theorem read_of_write (written : write files path program = .ok files') :
    read files' path = .ok program := by
  rw [read, FileSystem.read_of_write (write_eq_ok_iff.mp written), programOf,
    Program.ofImage_image]

/-- An instruction and its word determine each other, and the fields have their own bits of the
word.  A program and its image determine each other: every program is read back from its image, and
all bytes that are whole words are the image of the program that they are read as, with one
instruction for every four bytes.  Other bytes are not read, and what is reported is how many are
over.  A program that is written where a file can be, whether there is one of whatever content or
none, is read back from there. -/
theorem images_are_programs :
    (∀ instruction, Instruction.decode instruction.encode = instruction ∧
      instruction.encode =
        instruction.opcode.toUInt32 ||| UInt32.ofNat instruction.dest.val <<< 8 |||
          UInt32.ofNat instruction.src.val <<< 12 ||| instruction.immediate.toUInt32 <<< 16) ∧
    (∀ word, (Instruction.decode word).encode = word ∧
      (Instruction.decode word).opcode = (word &&& 0xFF).toUInt8 ∧
      (Instruction.decode word).dest.val = (word >>> 8 &&& 0xF).toNat ∧
      (Instruction.decode word).src.val = (word >>> 12 &&& 0xF).toNat ∧
      (Instruction.decode word).immediate = (word >>> 16).toUInt16 ∧
      (Instruction.decode word).dest.val ≤ 15 ∧ (Instruction.decode word).src.val ≤ 15) ∧
    (∀ program : Program, Program.ofImage program.image = .ok program ∧
      program.image.length = 4 * program.size) ∧
    (∀ bytes : Bytes, bytes.length % 4 = 0 →
      ∃ program, Program.ofImage bytes = .ok program ∧ program.size = bytes.length / 4 ∧
        program.image = bytes) ∧
    (∀ bytes : Bytes, bytes.length % 4 ≠ 0 →
      Program.ofImage bytes = .error (bytes.length % 4)) ∧
    (∀ files path program files', write files path program = .ok files' →
      read files' path = .ok program) ∧
    ∀ files path location program, files.target path = .ok location →
      (files.node? location = none ∨ ∃ content, files.node? location = some (.file content)) →
        ∃ files', write files path program = .ok files' ∧ read files' path = .ok program := by
  refine ⟨fun instruction => ⟨instruction.decode_encode, instruction.encode_eq_fields⟩,
    fun word => ?_, fun program => ⟨program.ofImage_image, program.length_image⟩,
    fun bytes => Program.exists_ofImage_of_whole, fun bytes => Program.ofImage_of_part,
    fun files path program files' => read_of_write, ?_⟩
  · obtain ⟨opcode, dest, src, immediate⟩ := Instruction.decode_fields word
    exact ⟨Instruction.encode_decode word, opcode, dest, src, immediate,
      Nat.le_of_lt_succ (Fin.isLt _), Nat.le_of_lt_succ (Fin.isLt _)⟩
  · intro files path location program target free
    have noDirectory : files.node? location ≠ some .directory := by
      rcases free with absent | ⟨content, present⟩
      · simp [absent]
      · simp [present]
    obtain ⟨files', written⟩ := FileSystem.exists_write target noDirectory program.image
    have written' := write_eq_ok_iff.mpr written
    exact ⟨files', written', read_of_write written'⟩

/-- A program in place of bytes that are not an image and are more than its own. -/
theorem images_are_programs_overwrite :
    let files : FileSystem :=
      ⟨[(["work"], .directory), (["work", "old.img"], .file [1, 2, 3, 4, 5, 6, 7])], ["work"]⟩
    (∃ files', write files "./old.img" #[.nullary 0x01] = .ok files' ∧
      read files' "./old.img" = .ok #[.nullary 0x01]) ∧
    Program.ofImage [1, 2, 3, 4, 5, 6, 7] = .error 3 ∧
    ∃ program, Program.ofImage [0xFF, 0xFF, 0xFF, 0xFF] = .ok program ∧
      program.image = [0xFF, 0xFF, 0xFF, 0xFF] := by
  intro files
  obtain ⟨-, -, -, whole, part, -, written⟩ := images_are_programs
  refine ⟨written files "./old.img" ["work", "old.img"] _ (eq_ok_of_toOption (by decide))
    (.inr ⟨[1, 2, 3, 4, 5, 6, 7], by decide⟩), part _ (by decide), ?_⟩
  obtain ⟨program, read, -, image⟩ := whole [0xFF, 0xFF, 0xFF, 0xFF] (by decide)
  exact ⟨program, read, image⟩

end ImageFile
end Minicomputer
