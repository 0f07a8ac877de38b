import Minicomputer.Proofs.Text.Lines
import Minicomputer.Text.Utf8

/-!
# Lines of a text as bytes

The byte of a line feed is in no character but the line feed.  So it makes no difference whether a
text is cut into lines or its bytes are.

* `Text.pieces_toBytes` -- the pieces of the bytes are the bytes of the pieces;
* `Text.exists_text_of_mem_linesAt` -- every line of the bytes of a text is a text.
-/

namespace Minicomputer
namespace Text

theorem eq_toBytes_of_ofBytes? {bytes : Bytes} {text : String} (read : ofBytes? bytes = some text) :
    bytes = toBytes text := by
  unfold ofBytes? String.fromUTF8? at read
  split at read
  next valid =>
    cases read
    rfl
  next => cases read

/-! ## One character -/

theorem toBytes_ofList_cons (c : Char) (cs : List Char) :
    toBytes (String.ofList (c :: cs)) =
      String.utf8EncodeChar c ++ toBytes (String.ofList cs) := by
  simp [toBytes, List.utf8Encode]

/-- A byte of a character is the number of the character, or it is beyond those of ASCII. -/
theorem toNat_of_mem_utf8EncodeChar {c : Char} {byte : UInt8}
    (member : byte ∈ String.utf8EncodeChar c) : byte.toNat = c.val.toNat ∨ 128 ≤ byte.toNat := by
  unfold String.utf8EncodeChar at member
  dsimp only at member
  generalize c.val.toNat = number at member ⊢
  split at member
  next small =>
    left
    rw [List.mem_singleton.mp member, UInt8.toNat_ofNat']
    omega
  next =>
    right
    split at member
    · simp only [List.mem_cons, List.not_mem_nil, or_false] at member
      rcases member with rfl | rfl <;> rw [UInt8.toNat_ofNat'] <;> omega
    · split at member
      · simp only [List.mem_cons, List.not_mem_nil, or_false] at member
        rcases member with rfl | rfl | rfl <;> rw [UInt8.toNat_ofNat'] <;> omega
      · simp only [List.mem_cons, List.not_mem_nil, or_false] at member
        rcases member with rfl | rfl | rfl | rfl <;> rw [UInt8.toNat_ofNat'] <;> omega

theorem newline_not_mem_utf8EncodeChar {c : Char} (other : c ≠ '\n') :
    10 ∉ String.utf8EncodeChar c := by
  intro newline
  rcases toNat_of_mem_utf8EncodeChar newline with same | beyond
  · exact other (Char.ext (UInt32.toNat_inj.mp same.symm))
  · exact absurd beyond (by decide)

/-! ## Lines -/

section

variable {α : Type} [DecidableEq α] {mark : α} {xs : List α}

theorem pieces_cons_self (ys : List α) : pieces mark (mark :: ys) = [] :: pieces mark ys :=
  if_pos rfl

/-- What is in front of a list and has no mark in it is in front of the first piece. -/
theorem pieces_append_of_not_mem (clean : mark ∉ xs) (ys : List α) :
    pieces mark (xs ++ ys) = (pieces mark ys).modifyHead (xs ++ ·) := by
  obtain ⟨piece, rest, cut⟩ : ∃ piece rest, pieces mark ys = piece :: rest := by
    rw [pieces_eq_splitOn]
    exact List.exists_cons_of_ne_nil (List.splitOn_ne_nil mark ys)
  rw [cut, List.modifyHead_cons]
  induction xs with
  | nil => exact cut
  | cons x xs ih =>
    obtain ⟨other, clean'⟩ := List.ne_and_not_mem_of_not_mem_cons clean
    have later := ih clean'
    unfold pieces at later ⊢
    rw [List.cons_append, List.foldr_cons, later, if_neg (Ne.symm other)]
    rfl

end

theorem pieces_toBytes (cs : List Char) :
    pieces 10 (toBytes (String.ofList cs)) =
      (pieces '\n' cs).map fun piece => toBytes (String.ofList piece) := by
  induction cs with
  | nil => rfl
  | cons c cs ih =>
    rw [toBytes_ofList_cons]
    by_cases newline : c = '\n'
    · subst newline
      rw [pieces_cons_self, List.map_cons, ← ih]
      exact pieces_cons_self _
    · -- The character goes to the front of the first piece, and so do its bytes.
      rw [pieces_append_of_not_mem (newline_not_mem_utf8EncodeChar newline), ih,
        ← List.singleton_append, pieces_append_of_not_mem (by simpa using Ne.symm newline)]
      cases pieces '\n' cs with
      | nil => rfl
      | cons piece rest =>
        rw [List.map_cons, List.modifyHead_cons, List.modifyHead_cons, List.map_cons,
          List.singleton_append, toBytes_ofList_cons]

/-- The lines of a text are texts. -/
theorem exists_text_of_mem_linesAt {bytes line : Bytes} {text : String}
    (read : ofBytes? bytes = some text) (member : line ∈ linesAt 10 bytes) :
    ∃ text', ofBytes? line = some text' := by
  have inside : line ∈ pieces 10 bytes := by
    unfold linesAt at member
    dsimp only at member
    split at member
    · exact List.dropLast_subset _ member
    · exact member
  rw [eq_toBytes_of_ofBytes? read, ← String.ofList_toList (s := text), pieces_toBytes] at inside
  obtain ⟨piece, -, rfl⟩ := List.mem_map.mp inside
  exact ⟨_, ofBytes?_toBytes _⟩

end Text
end Minicomputer
