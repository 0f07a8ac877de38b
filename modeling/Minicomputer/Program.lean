import Minicomputer.Instruction
import Minicomputer.Text.Utf8

/-!
# Programs and their images

A program is a sequence of instructions; the address of an instruction is its index.  The image of
a program is the sequence of its words, four bytes each, the lowest byte first, with no header and
no length: the end of the image is the end of the program.

Reading an image therefore fails in one way only, when its last word is cut short.  Where images are
kept is the matter of `Minicomputer.ImageFile`.
-/

namespace Minicomputer

/-- An instruction for every address below the length. -/
abbrev Program := Array Instruction

namespace Program

/-! ## Words as bytes -/

/-- The four bytes of a word, lowest first. -/
def wordBytes (word : UInt32) : Bytes :=
  [ UInt8.ofNat word.toNat,
    UInt8.ofNat (word.toNat / 0x100),
    UInt8.ofNat (word.toNat / 0x10000),
    UInt8.ofNat (word.toNat / 0x1000000) ]

/-- The word of four bytes, lowest first. -/
def wordOfBytes (a b c d : UInt8) : UInt32 :=
  UInt32.ofNat (a.toNat + 0x100 * b.toNat + 0x10000 * c.toNat + 0x1000000 * d.toNat)

/-! ## Images -/

def ofWords (words : List UInt32) : Program :=
  (words.map Instruction.decode).toArray

def words (program : Program) : List UInt32 :=
  program.toList.map Instruction.encode

def image (program : Program) : Bytes :=
  program.words.flatMap wordBytes

/-- Reads words off the front of an image and puts their instructions behind `done`.  What is left
when fewer than four bytes remain is an error unless it is nothing. -/
def readWords (done : Program) : Bytes → Except Nat Program
  | a :: b :: c :: d :: rest =>
    readWords (done.push (Instruction.decode (wordOfBytes a b c d))) rest
  | [] => .ok done
  | trailing => .error trailing.length

/-- The program of an image, or the number of bytes after its last whole word. -/
def ofImage (image : Bytes) : Except Nat Program :=
  readWords #[] image

/-! ## Reading undoes writing -/

theorem wordOfBytes_of_wordBytes (word : UInt32) :
    ∃ a b c d, wordBytes word = [a, b, c, d] ∧ wordOfBytes a b c d = word := by
  refine ⟨_, _, _, _, rfl, ?_⟩
  have hword := word.toNat_lt
  apply UInt32.toNat_inj.mp
  simp only [wordOfBytes, UInt32.toNat_ofNat', UInt8.toNat_ofNat']
  omega

end Program
end Minicomputer
