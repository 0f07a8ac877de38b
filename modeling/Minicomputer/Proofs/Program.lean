import Minicomputer.Program

/-!
# Programs and their images

Reading an image goes word by word, and every word is the one that has been written.  So what is
written as an image is read back as it was, whatever is in it.  Every word is the word of an
instruction, so whole words that have been read are written as they were; a part of a word at the
end is never read.

* `Instruction.encode_eq_fields`, `Instruction.decode_fields` -- the bits of a word that a field
  has;
* `Program.ofImage_image`, `Program.exists_ofImage_of_whole` -- programs, and bytes that are whole
  words;
* `Program.ofImage_of_part` -- other bytes.
-/

namespace Minicomputer

/-! ## Fields -/

namespace Instruction

/-- The fields stand side by side, and none reaches into another. -/
theorem encode_eq_fields (instruction : Instruction) :
    instruction.encode =
      instruction.opcode.toUInt32 ||| UInt32.ofNat instruction.dest.val <<< 8 |||
        UInt32.ofNat instruction.src.val <<< 12 ||| instruction.immediate.toUInt32 <<< 16 := by
  have opcode := instruction.opcode.toNat_lt
  have immediate := instruction.immediate.toNat_lt
  have dest := instruction.dest.isLt
  have src := instruction.src.isLt
  have joined {low width : Nat} (high : Nat) (narrow : low < 2 ^ width) :
      low ||| high <<< width = low + 2 ^ width * high := by
    rw [Nat.or_comm, ← Nat.shiftLeft_add_eq_or_of_lt narrow, Nat.shiftLeft_eq, Nat.mul_comm,
      Nat.add_comm]
  have destField : (UInt32.ofNat instruction.dest.val <<< 8).toNat =
      instruction.dest.val <<< 8 := by
    simp [Nat.shiftLeft_eq]
    omega
  have srcField : (UInt32.ofNat instruction.src.val <<< 12).toNat =
      instruction.src.val <<< 12 := by
    simp [Nat.shiftLeft_eq]
    omega
  have immediateField : (instruction.immediate.toUInt32 <<< 16).toNat =
      instruction.immediate.toNat <<< 16 := by
    simp [Nat.shiftLeft_eq]
    omega
  have twelve : instruction.opcode.toNat + 2 ^ 8 * instruction.dest.val < 2 ^ 12 := by omega
  have sixteen : instruction.opcode.toNat + 2 ^ 8 * instruction.dest.val +
      2 ^ 12 * instruction.src.val < 2 ^ 16 := by omega
  apply UInt32.toNat_inj.mp
  rw [UInt32.toNat_or, UInt32.toNat_or, UInt32.toNat_or, destField, srcField, immediateField,
    UInt8.toNat_toUInt32, joined _ opcode, joined _ twelve, joined _ sixteen, encode,
    UInt32.toNat_ofNat']
  omega

theorem decode_fields (word : UInt32) :
    (decode word).opcode = (word &&& 0xFF).toUInt8 ∧
      (decode word).dest.val = (word >>> 8 &&& 0xF).toNat ∧
      (decode word).src.val = (word >>> 12 &&& 0xF).toNat ∧
      (decode word).immediate = (word >>> 16).toUInt16 := by
  have byte (n : Nat) : n &&& 0xFF = n % 0x100 := Nat.and_two_pow_sub_one_eq_mod n 8
  have digit (n : Nat) : n &&& 0xF = n % 0x10 := Nat.and_two_pow_sub_one_eq_mod n 4
  refine ⟨?_, ?_, ?_, ?_⟩
  · apply UInt8.toNat_inj.mp
    simp [decode, byte]
  · simp [decode, Register.ofField, digit, Nat.shiftRight_eq_div_pow]
  · simp [decode, Register.ofField, digit, Nat.shiftRight_eq_div_pow]
  · apply UInt16.toNat_inj.mp
    simp [decode, Nat.shiftRight_eq_div_pow]

end Instruction

namespace Program

variable {bytes trailing : Bytes}

/-! ## Programs -/

theorem readWords_wordBytes (done : Program) (word : UInt32) (rest : Bytes) :
    readWords done (wordBytes word ++ rest) =
      readWords (done.push (Instruction.decode word)) rest := by
  obtain ⟨a, b, c, d, bytes, same⟩ := wordOfBytes_of_wordBytes word
  rw [bytes, ← same]
  rfl

/-- The instructions of an image come behind those that have been read before. -/
theorem readWords_instructions (done : Program) (instructions : List Instruction) :
    readWords done ((instructions.map Instruction.encode).flatMap wordBytes) =
      .ok (done ++ instructions.toArray) := by
  induction instructions generalizing done with
  | nil => simp [readWords]
  | cons instruction rest ih =>
    rw [List.map_cons, List.flatMap_cons, readWords_wordBytes, Instruction.decode_encode, ih]
    simp

theorem ofImage_image (program : Program) : ofImage program.image = .ok program := by
  rw [ofImage, image, words, readWords_instructions]
  simp

theorem length_image (program : Program) : program.image.length = 4 * program.size := by
  rw [image, words, List.length_flatMap]
  simp [wordBytes, Function.comp_def, List.map_const', Nat.mul_comm]

/-! ## Bytes -/

/-- The bytes of a word are those that it has been read from. -/
theorem wordBytes_wordOfBytes (a b c d : UInt8) :
    wordBytes (wordOfBytes a b c d) = [a, b, c, d] := by
  have ha := a.toNat_lt
  have hb := b.toNat_lt
  have hc := c.toNat_lt
  have hd := d.toNat_lt
  have value : (wordOfBytes a b c d).toNat =
      a.toNat + 0x100 * b.toNat + 0x10000 * c.toNat + 0x1000000 * d.toNat := by
    rw [wordOfBytes, UInt32.toNat_ofNat']
    omega
  have digit (byte : UInt8) (n : Nat) (low : n % 0x100 = byte.toNat) : UInt8.ofNat n = byte := by
    apply UInt8.toNat_inj.mp
    rw [UInt8.toNat_ofNat']
    exact low
  rw [wordBytes, value, digit a _ (by omega), digit b _ (by omega), digit c _ (by omega),
    digit d _ (by omega)]

theorem length_cons_word (a b c d : UInt8) (rest : Bytes) :
    (a :: b :: c :: d :: rest).length = rest.length + 4 :=
  rfl

theorem length_lt_of_part
    (part : ∀ (a b c d : UInt8) (rest : List UInt8), trailing = a :: b :: c :: d :: rest → False) :
    trailing.length < 4 := by
  match trailing, part with
  | [], _ | [_], _ | [_, _], _ | [_, _, _], _ => simp
  | a :: b :: c :: d :: rest, part => exact (part a b c d rest rfl).elim

/-- Whole words are the image of what they are read as. -/
theorem readWords_of_whole (done : Program) (whole : bytes.length % 4 = 0) :
    ∃ instructions : List Instruction, readWords done bytes = .ok (done ++ instructions.toArray) ∧
      (instructions.map Instruction.encode).flatMap wordBytes = bytes := by
  induction done, bytes using readWords.induct with
  | case1 done a b c d rest ih =>
    have whole' : rest.length % 4 = 0 := by
      rw [length_cons_word, Nat.add_mod_right] at whole
      exact whole
    obtain ⟨instructions, read, written⟩ := ih whole'
    refine ⟨Instruction.decode (wordOfBytes a b c d) :: instructions, ?_, ?_⟩
    · rw [readWords, read]
      simp
    · rw [List.map_cons, List.flatMap_cons, Instruction.encode_decode, wordBytes_wordOfBytes,
        written]
      rfl
  | case2 done => exact ⟨[], by simp [readWords], rfl⟩
  | case3 done trailing part some =>
    have short := length_lt_of_part part
    have nothing : trailing = [] := List.length_eq_zero_iff.mp (by omega)
    exact (some nothing).elim

theorem readWords_of_part (done : Program) (part : bytes.length % 4 ≠ 0) :
    readWords done bytes = .error (bytes.length % 4) := by
  induction done, bytes using readWords.induct with
  | case1 done a b c d rest ih =>
    rw [length_cons_word, Nat.add_mod_right] at part ⊢
    rw [readWords, ih part]
  | case2 done => exact (part rfl).elim
  | case3 done trailing part' some =>
    have short := length_lt_of_part part'
    rw [Nat.mod_eq_of_lt short]
    exact readWords.eq_3 done trailing part' some

/-- Bytes that are whole words are an image, of one instruction for every four of them. -/
theorem exists_ofImage_of_whole (whole : bytes.length % 4 = 0) :
    ∃ program, ofImage bytes = .ok program ∧ program.size = bytes.length / 4 ∧
      program.image = bytes := by
  obtain ⟨instructions, read, written⟩ := readWords_of_whole #[] whole
  have read' : ofImage bytes = .ok instructions.toArray := by
    rw [ofImage, read]
    simp
  have written' : image instructions.toArray = bytes := written
  have size := length_image instructions.toArray
  rw [written'] at size
  exact ⟨instructions.toArray, read', by omega, written'⟩

/-- Other bytes are not read, and what is over is counted. -/
theorem ofImage_of_part (part : bytes.length % 4 ≠ 0) :
    ofImage bytes = .error (bytes.length % 4) :=
  readWords_of_part #[] part

end Program
end Minicomputer
