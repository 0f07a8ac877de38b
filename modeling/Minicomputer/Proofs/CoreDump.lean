import Mathlib.Data.List.Basic
import Minicomputer.CoreDump
import Minicomputer.Proofs.Assembly.Spelling
import Minicomputer.Proofs.Text.Lines

/-!
# What a dump shows of the memory

The memory table leaves out the blocks that hold nothing but zeros.  The address in front of a row
says which block it is, so the others are known to be zero, and the memory can be told from its size
and the rows.

* `CoreDump.Touched`, `CoreDump.wordsAt`, `CoreDump.blockRow` -- a block by the address of its first
  word;
* `CoreDump.touchedBlocks_eq`, `CoreDump.mem_starts_iff` -- the blocks that are shown are those that
  are touched;
* `CoreDump.eq_of_rows_eq` -- the rows determine the memory;
* `CoreDump.memory_is_shown` -- the table.
-/

namespace Minicomputer

/-! ## Numerals in cells -/

namespace Text

theorem decimal_injective : Function.Injective decimal := by
  intro m n same
  have digits : Nat.toDigits 10 m = Nat.toDigits 10 n := by
    simpa [decimal] using congrArg String.toList same
  calc m = Nat.ofDigitChars 10 (Nat.toDigits 10 m) 0 := Nat.ofDigitChars_ten_toDigits.symm
    _ = Nat.ofDigitChars 10 (Nat.toDigits 10 n) 0 := by rw [digits]
    _ = n := Nat.ofDigitChars_ten_toDigits

variable {width : Nat}

theorem hexadecimal_injective : Function.Injective (hexadecimal width) := by
  intro m n same
  have digits : (Nat.toDigits 16 m).leftpad width '0' = (Nat.toDigits 16 n).leftpad width '0' := by
    simpa [hexadecimal] using congrArg String.toList same
  have denote (k : Nat) :
      Grammar.denoted .hexadecimal ((Nat.toDigits 16 k).leftpad width '0') = k :=
    Grammar.Digits.value_ofNat .hexadecimal width k
  rw [← denote m, digits, denote]

theorem newline_not_mem_hexadecimal (n : Nat) : '\n' ∉ (hexadecimal width n).toList := by
  rw [hexadecimal, String.toList_ofList]
  intro newline
  have digit := (Grammar.Digits.ofNat .hexadecimal width n).areDigits '\n' newline
  exact absurd digit (by decide)

/-- A number is one line. -/
theorem lines_hexadecimal (n : Nat) :
    lines (hexadecimal width n).toList = [(hexadecimal width n).toList] := by
  refine lines_singleton (newline_not_mem_hexadecimal n) ?_
  rw [hexadecimal, String.toList_ofList]
  exact (Grammar.Digits.ofNat .hexadecimal width n).some_digit

theorem lines_prefixedHex (n : Nat) :
    lines (prefixedHex width n).toList = ['0' :: 'x' :: (hexadecimal width n).toList] := by
  have text : (prefixedHex width n).toList = '0' :: 'x' :: (hexadecimal width n).toList := by
    simp [prefixedHex]
  rw [text]
  refine lines_singleton ?_ (List.cons_ne_nil _ _)
  simp [newline_not_mem_hexadecimal]

theorem left_hexadecimal_injective {m n : Nat}
    (same : Cell.left (hexadecimal width m) = Cell.left (hexadecimal width n)) : m = n := by
  have lines := congrArg Cell.lines same
  rw [Cell.left, Cell.left, lines_hexadecimal, lines_hexadecimal] at lines
  exact hexadecimal_injective (String.toList_inj.mp (List.cons.inj lines).1)

theorem right_prefixedHex_injective {m n : Nat}
    (same : Cell.right (prefixedHex width m) = Cell.right (prefixedHex width n)) : m = n := by
  have lines := congrArg Cell.lines same
  rw [Cell.right, Cell.right, lines_prefixedHex, lines_prefixedHex] at lines
  simp only [List.cons.injEq, true_and, and_true] at lines
  exact hexadecimal_injective (String.toList_inj.mp lines)

theorem right_prefixedHex_ne_star (n : Nat) : Cell.right (prefixedHex width n) ≠ .right "*" := by
  intro same
  have lines := congrArg Cell.lines same
  rw [Cell.right, lines_prefixedHex] at lines
  simp [Cell.right, lines_singleton] at lines

end Text

/-! ## Blocks -/

namespace CoreDump

variable {memory memory' : Array UInt16} {start : Nat}

/-- The words of the block that begins there. -/
def wordsAt (memory : Array UInt16) (start : Nat) : List UInt16 :=
  (memory.toList.drop start).take blockWords

/-- A block begins there, and it holds a word that is not zero. -/
def Touched (memory : Array UInt16) (start : Nat) : Prop :=
  blockWords ∣ start ∧ ∃ i word, start ≤ i ∧ i < start + blockWords ∧
    memory[i]? = some word ∧ word ≠ 0

/-- The row of a block: its address, then its words. -/
def blockRow (memory : Array UInt16) (start : Nat) : List Text.Cell :=
  .right (Text.prefixedHex 4 start) ::
    (wordsAt memory start).map fun word => .left (Text.hexadecimal 4 word.toNat)

/-- Where the blocks begin that are shown. -/
def starts (memory : Array UInt16) : List Nat :=
  (touchedBlocks memory).map Prod.fst

theorem blocks_eq (memory : Array UInt16) :
    blocks memory = (List.range ((memory.size + (blockWords - 1)) / blockWords)).map fun row =>
      (row * blockWords, wordsAt memory (row * blockWords)) := by
  unfold blocks
  refine List.map_congr_left fun row _ => ?_
  simp [wordsAt, Array.toList_extract]

theorem getElem?_wordsAt {j : Nat} (inside : j < blockWords) :
    (wordsAt memory start)[j]? = memory[start + j]? := by
  rw [wordsAt, List.getElem?_take, if_pos inside, List.getElem?_drop, Array.getElem?_toList]

theorem mem_wordsAt_iff {word : UInt16} :
    word ∈ wordsAt memory start ↔
      ∃ i, start ≤ i ∧ i < start + blockWords ∧ memory[i]? = some word := by
  rw [List.mem_iff_getElem?]
  constructor
  · rintro ⟨j, found⟩
    have inside : j < blockWords :=
      Nat.lt_of_lt_of_le (List.getElem?_eq_some_iff.mp found).1 (List.length_take_le ..)
    rw [getElem?_wordsAt inside] at found
    exact ⟨start + j, Nat.le_add_right .., Nat.add_lt_add_left inside start, found⟩
  · rintro ⟨i, after, before, found⟩
    refine ⟨i - start, ?_⟩
    rw [getElem?_wordsAt (Nat.sub_lt_left_of_lt_add after before), Nat.add_sub_cancel' after]
    exact found

theorem touchedBlocks_eq (memory : Array UInt16) :
    touchedBlocks memory = (starts memory).map fun start => (start, wordsAt memory start) := by
  rw [starts, List.map_map]
  -- A block that is listed has the words that there are at its address.
  refine (List.map_id _).symm.trans (List.map_congr_left fun block member => ?_)
  have listed : block ∈ blocks memory := (List.mem_filter.mp member).1
  rw [blocks_eq] at listed
  obtain ⟨row, -, rfl⟩ := List.mem_map.mp listed
  rfl

theorem mem_starts_iff : start ∈ starts memory ↔ Touched memory start := by
  rw [starts, List.mem_map]
  constructor
  · rintro ⟨block, member, rfl⟩
    obtain ⟨listed, some_word⟩ := List.mem_filter.mp member
    rw [blocks_eq] at listed
    obtain ⟨row, -, rfl⟩ := List.mem_map.mp listed
    obtain ⟨word, inside, nonzero⟩ := List.any_eq_true.mp some_word
    obtain ⟨i, after, before, found⟩ := mem_wordsAt_iff.mp inside
    exact ⟨Nat.dvd_mul_left .., i, word, after, before, found, bne_iff_ne.mp nonzero⟩
  · rintro ⟨⟨row, rfl⟩, i, word, after, before, found, nonzero⟩
    have inside : word ∈ wordsAt memory (blockWords * row) :=
      mem_wordsAt_iff.mpr ⟨i, after, before, found⟩
    have small : i < memory.size := (Array.getElem?_eq_some_iff.mp found).1
    refine ⟨(_, wordsAt memory (blockWords * row)), List.mem_filter.mpr ⟨?_, ?_⟩, rfl⟩
    · -- There are enough rows for a block with a word of the memory in it.
      rw [blocks_eq, List.mem_map]
      refine ⟨row, List.mem_range.mpr ?_, by rw [Nat.mul_comm]⟩
      unfold blockWords at after ⊢
      omega
    · exact List.any_eq_true.mpr ⟨word, inside, bne_iff_ne.mpr nonzero⟩

theorem pairwise_starts (memory : Array UInt16) : (starts memory).Pairwise (· < ·) := by
  have ordered : (blocks memory).Pairwise fun a b => a.1 < b.1 := by
    rw [blocks_eq, List.pairwise_map]
    exact List.pairwise_lt_range.imp fun less => Nat.mul_lt_mul_of_pos_right less (by decide)
  exact List.pairwise_map.mpr (ordered.sublist List.filter_sublist)

/-! ## Rows -/

/-- The row of a memory of zeros. -/
def zeroRow : List Text.Cell :=
  [.right "*", .left "all zero"]

theorem rows_eq (memory : Array UInt16) :
    (memoryTable memory).rows =
      if starts memory = [] then [zeroRow] else (starts memory).map (blockRow memory) := by
  have listed := touchedBlocks_eq memory
  unfold memoryTable memoryRows
  dsimp only
  generalize starts memory = here at listed ⊢
  cases here with
  | nil =>
    rw [listed]
    rfl
  | cons first rest =>
    rw [listed, if_neg (List.cons_ne_nil _ _)]
    simp [blockTexts, blockRow, Function.comp_def]

theorem blockRow_ne_zeroRow (memory : Array UInt16) (start : Nat) :
    blockRow memory start ≠ zeroRow := by
  intro same
  exact Text.right_prefixedHex_ne_star start (List.cons.inj same).1

theorem zeroRow_mem_rows_iff :
    zeroRow ∈ (memoryTable memory).rows ↔ ∀ start, ¬ Touched memory start := by
  simp only [← mem_starts_iff, ← List.eq_nil_iff_forall_not_mem, rows_eq]
  split
  next nothing => simp [nothing]
  next touched =>
    refine iff_of_false (fun member => ?_) touched
    obtain ⟨start, -, same⟩ := List.mem_map.mp member
    exact blockRow_ne_zeroRow memory start same

theorem wordsAt_eq_of_blockRow_eq (same : blockRow memory start = blockRow memory' start) :
    wordsAt memory start = wordsAt memory' start := by
  have cell_injective : Function.Injective fun word : UInt16 =>
      Text.Cell.left (Text.hexadecimal 4 word.toNat) :=
    fun _ _ same => UInt16.toNat_inj.mp (Text.left_hexadecimal_injective same)
  exact List.map_injective_iff.mpr cell_injective (List.cons.inj same).2

theorem starts_eq_of_rows_eq (same : (memoryTable memory).rows = (memoryTable memory').rows) :
    starts memory = starts memory' := by
  rw [rows_eq, rows_eq] at same
  have head_injective : Function.Injective fun start =>
      (some (Text.Cell.right (Text.prefixedHex 4 start))) :=
    fun _ _ same => Text.right_prefixedHex_injective (Option.some.inj same)
  split at same
  next nothing =>
    split at same
    next nothing' => rw [nothing, nothing']
    next touched' =>
      obtain ⟨start, -, row⟩ := List.mem_map.mp (same ▸ List.mem_singleton_self zeroRow)
      exact absurd row (blockRow_ne_zeroRow memory' start)
  next touched =>
    split at same
    next nothing' =>
      obtain ⟨start, -, row⟩ := List.mem_map.mp (same ▸ List.mem_singleton_self zeroRow)
      exact absurd row (blockRow_ne_zeroRow memory start)
    next touched' =>
      -- The addresses are the first cells.
      have heads := congrArg (List.map List.head?) same
      rw [List.map_map, List.map_map] at heads
      exact List.map_injective_iff.mpr head_injective heads

theorem wordsAt_eq_of_rows_eq (same : (memoryTable memory).rows = (memoryTable memory').rows)
    (touched : Touched memory start) : wordsAt memory start = wordsAt memory' start := by
  have shown : start ∈ starts memory := mem_starts_iff.mpr touched
  have some_start : starts memory ≠ [] := List.ne_nil_of_mem shown
  have same_starts := starts_eq_of_rows_eq same
  rw [rows_eq, rows_eq, ← same_starts, if_neg some_start, if_neg some_start] at same
  exact wordsAt_eq_of_blockRow_eq (List.map_inj_left.mp same start shown)

/-- A word of a block that is not shown is zero. -/
theorem eq_zero_of_not_touched {i : Nat} {word : UInt16} (found : memory[i]? = some word)
    (untouched : ¬ Touched memory (i / blockWords * blockWords)) : word = 0 := by
  by_contra nonzero
  have after := Nat.div_mul_le_self i blockWords
  have before : i < i / blockWords * blockWords + blockWords := Nat.lt_div_mul_add (by decide)
  exact untouched ⟨Nat.dvd_mul_left .., i, word, after, before, found, nonzero⟩

/-- Memories of one size that are shown alike are alike. -/
theorem eq_of_rows_eq (size : memory.size = memory'.size)
    (same : (memoryTable memory).rows = (memoryTable memory').rows) : memory = memory' := by
  have touched_iff (start : Nat) : Touched memory start ↔ Touched memory' start := by
    rw [← mem_starts_iff, ← mem_starts_iff, starts_eq_of_rows_eq same]
  refine Array.ext size fun i inside inside' => ?_
  have found := Array.getElem?_eq_getElem inside
  have found' := Array.getElem?_eq_getElem inside'
  by_cases touched : Touched memory (i / blockWords * blockWords)
  · -- The block is shown, and the word is in its place in the row.
    have words := wordsAt_eq_of_rows_eq same touched
    have place : i % blockWords < blockWords := Nat.mod_lt i (by decide)
    have word := congrArg (·[i % blockWords]?) words
    rw [getElem?_wordsAt place, getElem?_wordsAt place, Nat.mul_comm, Nat.div_add_mod, found,
      found'] at word
    exact Option.some.inj word
  · rw [eq_zero_of_not_touched found touched,
      eq_zero_of_not_touched found' (mt (touched_iff _).mpr touched)]

/-- The rows of the memory table, from the lowest address on, are those of exactly the blocks of
eight words, of which the last may be shorter, that hold a word other than zero: the address of the
first word, then all words in their order.  The row that says that all is zero is there exactly if
there are no such blocks.  What is printed of the size and the rows determine the memory. -/
theorem memory_is_shown (memory : Array UInt16) :
    (∃ starts : List Nat, starts.Pairwise (· < ·) ∧
      (∀ start, start ∈ starts ↔ Touched memory start) ∧
      (memoryTable memory).rows =
        if starts = [] then [zeroRow] else starts.map (blockRow memory)) ∧
    (zeroRow ∈ (memoryTable memory).rows ↔ ∀ start, ¬ Touched memory start) ∧
    ∀ memory' : Array UInt16, Text.decimal memory.size = Text.decimal memory'.size →
      (memoryTable memory).rows = (memoryTable memory').rows → memory = memory' :=
  ⟨⟨starts memory, pairwise_starts memory, fun _ => mem_starts_iff, rows_eq memory⟩,
    zeroRow_mem_rows_iff, fun _ size => eq_of_rows_eq (Text.decimal_injective size)⟩

/-- Eleven words, of which the last is not zero: the second block is shown, and it has three
words. -/
theorem memory_is_shown_short :
    let memory : Array UInt16 := #[0, 0, 0, 0, 0, 0, 0, 0, 0, 0, 0xBEEF]
    (memoryTable memory).rows =
        [[.right "0x0008", .left "0000", .left "0000", .left "beef"]] ∧
      ∀ memory' : Array UInt16, Text.decimal memory'.size = "11" →
        (memoryTable memory').rows =
          [[.right "0x0008", .left "0000", .left "0000", .left "beef"]] → memory' = memory := by
  intro memory
  have rows : (memoryTable memory).rows =
      [[.right "0x0008", .left "0000", .left "0000", .left "beef"]] := by decide +kernel
  have size : Text.decimal memory.size = "11" := by decide +kernel
  refine ⟨rows, fun memory' size' rows' => ?_⟩
  exact (memory_is_shown memory').2.2 memory (size'.trans size.symm) (rows'.trans rows.symm)

end CoreDump
end Minicomputer
