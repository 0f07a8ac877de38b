import Minicomputer.Proofs.Architecture.Catalogue
import Minicomputer.Proofs.Machine.Bounds
import Minicomputer.Proofs.Program

/-!
# Nothing goes wrong

The machine is described with total functions: a quotient by zero is a number, a sum has no bounds,
and what is looked up where nothing is gives nothing.  A machine of arrays and words of fixed size
has no such functions.  Here its cycle is described once more, step by step, from the words of a
program on, with a check in front of every step that such a machine cannot always take, and none of
the checks ever fails.

* `Hazard` -- what a step may come to;
* `Fields` -- the fields of a word, as plain bytes;
* `Guarded.execute`, `Guarded.cycle` -- an instruction and a cycle, with all checks;
* `Guarded.cycle_eq` -- within the bounds of the machine every check is passed, and what is left
  behind is what `Core.cycle` says;
* `Guarded.no_hazard` -- so it is at any time, whatever is done with a processor.

The counter of cycles is not checked: it would take 2^64 cycles to fill sixty-four bits.
-/

namespace Minicomputer

/-- What a machine of arrays and words of fixed size cannot do. -/
inductive Hazard where
  | outOfRange (index size : Nat)
  | zeroDivisor
  | shiftTooFar (amount : UInt16)
  | overflow (value : Int)
  deriving DecidableEq, Repr

namespace Guarded

/-! ## Checks -/

section

variable {α : Type}

/-- As many numbers as sixty-four bits can tell apart. -/
def wordLimit : Nat := 0x10000000000000000

/-- The element of an array. -/
def element (elements : Array α) (index : Nat) : Except Hazard α :=
  if h : index < elements.size then .ok elements[index]
  else .error (.outOfRange index elements.size)

/-- A sum in sixty-four bits. -/
def sum (a b : Nat) : Except Hazard Nat :=
  if a + b < wordLimit then .ok (a + b) else .error (.overflow (a + b : Nat))

/-- A sum in sixty-four bits of two's complement. -/
def signedSum (a b : Int) : Except Hazard Int :=
  if -0x8000000000000000 ≤ a + b ∧ a + b < 0x8000000000000000 then .ok (a + b)
  else .error (.overflow (a + b))

/-- A number as an index of sixty-four bits. -/
def toIndex (value : Int) : Except Hazard Nat :=
  if 0 ≤ value ∧ value < wordLimit then .ok value.toNat else .error (.overflow value)

/-- A difference of words. -/
def minus (a b : UInt16) : Except Hazard UInt16 :=
  if b ≤ a then .ok (a - b) else .error (.overflow (a.toNat - b.toNat))

/-- A quotient of words. -/
def quotient (a b : UInt16) : Except Hazard UInt16 :=
  if b = 0 then .error .zeroDivisor else .ok (a / b)

/-- A remainder of words. -/
def remainder (a b : UInt16) : Except Hazard UInt16 :=
  if b = 0 then .error .zeroDivisor else .ok (a % b)

/-- A remainder of counters. -/
def counterRemainder (a b : Nat) : Except Hazard Nat :=
  if b = 0 then .error .zeroDivisor else .ok (a % b)

/-- A word shifted to the left. -/
def shiftedLeft (value amount : UInt16) : Except Hazard UInt16 :=
  if amount < 16 then .ok (value <<< amount) else .error (.shiftTooFar amount)

/-- A word shifted to the right. -/
def shiftedRight (value amount : UInt16) : Except Hazard UInt16 :=
  if amount < 16 then .ok (value >>> amount) else .error (.shiftTooFar amount)

/-- A word shifted to the right, and zero if the amount is too large for that. -/
def shiftedRightOrZero (value amount : UInt16) : Except Hazard UInt16 :=
  if amount < 16 then shiftedRight value amount else .ok 0

end

/-! ## Fields of a word -/

/-- The fields of a word as bytes and a word of sixteen bits.  A byte may be any byte, and need not
be a place of the register file. -/
structure Fields where
  opcode : UInt8
  dest : UInt8
  src : UInt8
  immediate : UInt16
  deriving DecidableEq, Repr

namespace Fields

/-- The fields that are cut out of a word. -/
def ofWord (word : UInt32) : Fields where
  opcode := (word &&& 0xFF).toUInt8
  dest := (word >>> 8 &&& 0xF).toUInt8
  src := (word >>> 12 &&& 0xF).toUInt8
  immediate := (word >>> 16).toUInt16

/-- The immediate field as a two's complement number. -/
def signedImmediate (fields : Fields) : Int :=
  fields.immediate.toInt16.toInt

/-- The place of the register file that a field names.  Only its low four bits count. -/
def place (field : UInt8) : Nat :=
  (field &&& 0xF).toNat

/-- The fields are those of the instruction. -/
structure Match (fields : Fields) (instruction : Instruction) : Prop where
  opcode : fields.opcode = instruction.opcode
  dest : place fields.dest = instruction.dest
  src : place fields.src = instruction.src
  immediate : fields.immediate = instruction.immediate

end Fields

/-! ## Registers, memory and table -/

/-- The register at a place of the register file. -/
def register (state : MachineState) (place : Nat) : Except Hazard UInt16 :=
  element state.registers.toArray place

/-- The state with another value at a place of the register file. -/
def setRegister (state : MachineState) (place : Nat) (value : UInt16) :
    Except Hazard MachineState :=
  if h : place < 16 then .ok (state.setRegister ⟨place, h⟩ value)
  else .error (.outOfRange place 16)

/-- The state with another value in a word of memory. -/
def setMemory (state : MachineState) (address : Nat) (value : UInt16) :
    Except Hazard MachineState :=
  if h : address < state.memory.size then .ok (state.setMemory ⟨address, h⟩ value)
  else .error (.outOfRange address state.memory.size)

/-- The entry at the position of an opcode. -/
def lookup (catalogue : Catalogue) (opcode : UInt8) : Except Hazard (Option CatalogueEntry) := do
  match ← element catalogue.positions opcode.toNat with
  | none => return none
  | some position => return some (← element catalogue.entries position)

/-! ## Operations -/

/-- Where execution goes on. -/
inductive Flow where
  | next
  | jump (target : Nat)
  | halt
  deriving DecidableEq, Repr

/-- The memory word at `base + offset`, if there is one.  It is an index only if it is not
negative. -/
def effectiveAddress (state : MachineState) (base : UInt16) (offset : Int) :
    Except Hazard (Except Fault Nat) := do
  let address ← signedSum base.toNat offset
  if 0 ≤ address then
    let index ← toIndex address
    if index < state.memory.size then return .ok index
    else return .error (.memoryOutOfRange state.pc address)
  else return .error (.memoryOutOfRange state.pc address)

/-- A left shift, by cases of the amount. -/
def shiftLeft (value amount : UInt16) : Except Hazard (UInt16 × Bool) :=
  if amount = 0 then return (value, false)
  else if amount ≤ 15 then do
    let shifted ← shiftedLeft value amount
    let out ← shiftedRight value (← minus 16 amount)
    return (shifted, out &&& 1 == 1)
  else if amount = 16 then return (0, value &&& 1 == 1)
  else return (0, false)

/-- A right shift, by cases of the amount. -/
def shiftRight (value amount : UInt16) : Except Hazard (UInt16 × Bool) :=
  if amount = 0 then return (value, false)
  else if amount ≤ 16 then do
    let shifted ← shiftedRightOrZero value amount
    let out ← shiftedRight value (← minus amount 1)
    return (shifted, out &&& 1 == 1)
  else return (0, false)

/-- A result goes to a register and to the flags. -/
def writeResult (state : MachineState) (dest : Nat) (result : UInt16 × Bool) :
    Except Hazard (Except Fault (MachineState × Flow)) := do
  let state ← setRegister state dest result.1
  return .ok (state.setFlags result.1 result.2, .next)

/-- What an operation with these fields does in a state.  The value is the one that is read, if one
is. -/
def execute (operation : Operation) (fields : Fields) (value : UInt16) (state : MachineState) :
    Except Hazard (Except Fault (MachineState × Flow)) := do
  let dest := Fields.place fields.dest
  let rd ← register state dest
  let rs ← register state (Fields.place fields.src)
  let target := fields.immediate.toNat
  let offset : Int :=
    if operation.hasSignedImmediate then fields.signedImmediate else fields.immediate.toNat
  let jumpIf (condition : Bool) : Except Hazard (Except Fault (MachineState × Flow)) :=
    return .ok (state, if condition then .jump target else .next)
  match operation with
  | .nop => return .ok (state, .next)
  | .hlt => return .ok (state, .halt)
  | .mov => return .ok (← setRegister state dest rs, .next)
  | .ldi => return .ok (← setRegister state dest fields.immediate, .next)
  | .ld =>
    match ← effectiveAddress state rs offset with
    | .error fault => return .error fault
    | .ok address =>
      return .ok (← setRegister state dest (← element state.memory address), .next)
  | .st =>
    match ← effectiveAddress state rd offset with
    | .error fault => return .error fault
    | .ok address => return .ok (← setMemory state address rs, .next)
  -- Sums, differences and products wrap, and say so in the carry.
  | .add => writeResult state dest (Machine.truncated (rd.toNat + rs.toNat))
  | .addi => writeResult state dest (Machine.truncated (rd.toNat + fields.immediate.toNat))
  | .sub => writeResult state dest (Machine.difference rd rs)
  | .mul => writeResult state dest (Machine.truncated (rd.toNat * rs.toNat))
  | .div =>
    if rs = 0 then return .error (.divideByZero state.pc)
    else writeResult state dest (← quotient rd rs, false)
  | .mod =>
    if rs = 0 then return .error (.divideByZero state.pc)
    else writeResult state dest (← remainder rd rs, false)
  | .and => writeResult state dest (rd &&& rs, false)
  | .or => writeResult state dest (rd ||| rs, false)
  | .xor => writeResult state dest (rd ^^^ rs, false)
  | .not => writeResult state dest (~~~rd, false)
  | .shl => writeResult state dest (← shiftLeft rd fields.immediate)
  | .shr => writeResult state dest (← shiftRight rd fields.immediate)
  | .cmp =>
    let (difference, borrow) := Machine.difference rd rs
    return .ok (state.setFlags difference borrow, .next)
  | .jmp => return .ok (state, .jump target)
  | .jz => jumpIf state.flags.zero
  | .jnz => jumpIf !state.flags.zero
  | .jc => jumpIf state.flags.carry
  | .jnc => jumpIf !state.flags.carry
  | .call =>
    let link ← sum state.pc 1
    if link < 0x10000 then
      return .ok (← setRegister state Register.link (UInt16.ofNat link), .jump target)
    else return .error (.returnAddressOutOfRange state.pc)
  | .ret => return .ok (state, .jump (← register state Register.link).toNat)
  | .input => return .ok (← setRegister state dest value, .next)
  | .output => return .ok (state, .next)

/-! ## Cycles -/

/-- Completes an instruction that was at `pc`. -/
def complete (pc : Nat) (state : MachineState) : Flow → Except Hazard Core
  | .next => return ⟨.running, state.complete (← sum pc 1)⟩
  | .jump target => return ⟨.running, state.complete target⟩
  | .halt => return ⟨.halted, (state.complete pc).halt⟩

/-- Carries out a decoded instruction. -/
def perform (operation : Operation) (fields : Fields) (value : UInt16) (state : MachineState) :
    Except Hazard Core := do
  match ← execute operation fields value state with
  | .error fault => return ⟨.faulted fault, state⟩
  | .ok (after, flow) => complete state.pc after flow

/-- Whether the observer gets a copy of the state now. -/
def snapshotDue (interval : Nat) (core : Core) : Except Hazard Bool :=
  if core.status = .running ∧ 0 < interval then do
    return (← counterRemainder core.state.cycles interval) == 0
  else return false

/-- One cycle of a program of these words: what it leaves behind, and whether a copy of it is
due. -/
def cycle (catalogue : Catalogue) (words : List UInt32) (interval : Nat) (value : UInt16)
    (core : Core) : Except Hazard (Core × Bool) :=
  if core.status.isTerminal then return (core, false)
  else match words[core.state.pc]? with
    | none => return (⟨.halted, core.state.halt⟩, false)
    | some word => do
      let fields := Fields.ofWord word
      match ← lookup catalogue fields.opcode with
      | none =>
        return (⟨.faulted (.unknownOpcode core.state.pc fields.opcode), core.state⟩, false)
      | some entry =>
        let after ← perform entry.operation fields value core.state
        return (after, ← snapshotDue interval after)

/-! ## Checks that are passed -/

variable {α β : Type}

theorem ok_bind (a : α) (f : α → Except Hazard β) : (Except.ok a >>= f) = f a :=
  rfl

theorem element_of_getElem? {elements : Array α} {index : Nat} {found : α}
    (h : elements[index]? = some found) : element elements index = .ok found := by
  obtain ⟨inRange, rfl⟩ := Array.getElem?_eq_some_iff.mp h
  exact dif_pos inRange

theorem register_val (state : MachineState) (place : Register) :
    register state place = .ok (state.register place) := by
  refine element_of_getElem? ?_
  simp [MachineState.register]

theorem setRegister_val (state : MachineState) (place : Register) (value : UInt16) :
    setRegister state place value = .ok (state.setRegister place value) :=
  dif_pos place.isLt

theorem setMemory_val (state : MachineState) (address : Fin state.memory.size) (value : UInt16) :
    setMemory state address value = .ok (state.setMemory address value) :=
  dif_pos address.isLt

theorem writeResult_val (state : MachineState) (dest : Register) (result : UInt16 × Bool) :
    writeResult state dest result = .ok (.ok (state.writeResult dest result, .next)) := by
  rw [writeResult, setRegister_val]
  rfl

/-! ## Fields that are known -/

namespace Fields

theorem place_toUInt8 (word : UInt32) : place (word &&& 0xF).toUInt8 = (word &&& 0xF).toNat := by
  have digit (n : Nat) : n &&& 0xF = n % 0x10 := Nat.and_two_pow_sub_one_eq_mod n 4
  rw [place, UInt8.toNat_and, UInt32.toNat_toUInt8, UInt32.toNat_and]
  change (word.toNat &&& 0xF) % 0x100 &&& 0xF = word.toNat &&& 0xF
  rw [digit, digit]
  omega

/-- Every word is cut into the fields of its instruction. -/
theorem ofWord_match (word : UInt32) : (ofWord word).Match (Instruction.decode word) := by
  obtain ⟨opcode, dest, src, immediate⟩ := Instruction.decode_fields word
  exact ⟨opcode.symm, (place_toUInt8 _).trans dest.symm, (place_toUInt8 _).trans src.symm,
    immediate.symm⟩

theorem Match.signedImmediate {fields : Fields} {instruction : Instruction}
    (same : fields.Match instruction) : fields.signedImmediate = instruction.signedImmediate := by
  rw [Fields.signedImmediate, Instruction.signedImmediate, same.immediate]
  change instruction.immediate.toBitVec.toInt = _
  rw [BitVec.toInt, UInt16.toNat_toBitVec]
  split <;> split <;> omega

end Fields

/-! ## Addresses -/

/-- An address is a small number, and an index only where it is not negative. -/
theorem effectiveAddress_eq (state : MachineState) (base : UInt16) {offset : Int}
    (low : -0x8000 ≤ offset) (high : offset < 0x10000) :
    effectiveAddress state base offset =
      .ok ((Machine.effectiveAddress state base offset).map Fin.val) := by
  have bound := base.toNat_lt
  have limit : (wordLimit : Int) = 0x10000000000000000 := rfl
  have inside : -0x8000000000000000 ≤ (base.toNat : Int) + offset ∧
      (base.toNat : Int) + offset < 0x8000000000000000 := by
    omega
  rw [effectiveAddress, signedSum, if_pos inside, ok_bind, Machine.effectiveAddress]
  by_cases negative : 0 ≤ (base.toNat : Int) + offset
  · have index : 0 ≤ (base.toNat : Int) + offset ∧ (base.toNat : Int) + offset < wordLimit := by
      omega
    rw [if_pos negative, toIndex, if_pos index, ok_bind]
    by_cases present : ((base.toNat : Int) + offset).toNat < state.memory.size
    · rw [if_pos present, dif_pos ⟨negative, present⟩]
      rfl
    · rw [if_neg present, dif_neg fun h => present h.2]
      rfl
  · rw [if_neg negative, dif_neg fun h => negative h.1]
    rfl

theorem signedImmediate_bounds (instruction : Instruction) :
    -0x8000 ≤ instruction.signedImmediate ∧ instruction.signedImmediate < 0x10000 := by
  have bound := instruction.immediate.toNat_lt
  rw [Instruction.signedImmediate]
  split <;> omega

/-! ## Shifts -/

theorem minus_eq {a b : UInt16} (h : b ≤ a) : minus a b = .ok (a - b) :=
  if_pos h

theorem shiftedLeft_eq {value amount : UInt16} (low : amount < 16) :
    shiftedLeft value amount = .ok (UInt16.ofNat (value.toNat <<< amount.toNat)) := by
  have low' : amount.toNat < 16 := UInt16.lt_iff_toNat_lt.mp low
  rw [shiftedLeft, if_pos low]
  refine congrArg Except.ok (UInt16.toNat_inj.mp ?_)
  rw [UInt16.toNat_shiftLeft, UInt16.toNat_ofNat', Nat.mod_eq_of_lt low']

theorem shiftRight_lt (value : UInt16) (amount : Nat) : value.toNat >>> amount < 0x10000 :=
  Nat.lt_of_le_of_lt (Nat.shiftRight_le ..) value.toNat_lt

theorem shiftedRight_eq {value amount : UInt16} (low : amount < 16) :
    shiftedRight value amount = .ok (UInt16.ofNat (value.toNat >>> amount.toNat)) := by
  have low' : amount.toNat < 16 := UInt16.lt_iff_toNat_lt.mp low
  rw [shiftedRight, if_pos low]
  refine congrArg Except.ok (UInt16.toNat_inj.mp ?_)
  rw [UInt16.toNat_shiftRight, UInt16.toNat_ofNat', Nat.mod_eq_of_lt low',
    Nat.mod_eq_of_lt (shiftRight_lt ..)]

/-- Nothing is left of a word that is shifted by sixteen bits or more. -/
theorem shiftRight_eq_zero (value : UInt16) {amount : Nat} (far : 16 ≤ amount) :
    value.toNat >>> amount = 0 := by
  rw [Nat.shiftRight_eq_div_pow]
  exact Nat.div_eq_of_lt
    (Nat.lt_of_lt_of_le value.toNat_lt (Nat.pow_le_pow_right (by decide) far))

theorem shiftedRightOrZero_eq (value amount : UInt16) :
    shiftedRightOrZero value amount = .ok (UInt16.ofNat (value.toNat >>> amount.toNat)) := by
  unfold shiftedRightOrZero
  split
  next low => exact shiftedRight_eq low
  next far =>
    have far' : 16 ≤ amount.toNat := Nat.le_of_not_lt fun h => far (UInt16.lt_iff_toNat_lt.mpr h)
    rw [shiftRight_eq_zero _ far']
    rfl

theorem lowBit_eq (word : UInt16) : (word &&& 1 == 1) = (word.toNat % 2 == 1) := by
  rw [Bool.eq_iff_iff, beq_iff_eq, beq_iff_eq, ← UInt16.toNat_inj, UInt16.toNat_and]
  simp

/-- The last bit that is shifted out is the lowest one before the last step. -/
theorem out_eq (value : UInt16) (amount : Nat) :
    (UInt16.ofNat (value.toNat >>> amount) &&& 1 == 1) = (value.toNat >>> amount % 2 == 1) := by
  rw [lowBit_eq, UInt16.toNat_ofNat', Nat.mod_eq_of_lt (shiftRight_lt ..)]

/-- What a shift to the left moves past bit 15. -/
theorem shiftLeft_div (value : Nat) {amount : Nat} (h : amount ≤ 16) :
    value <<< amount / 0x10000 = value >>> (16 - amount) := by
  have split : 0x10000 = 2 ^ (16 - amount) * 2 ^ amount := by
    rw [← Nat.pow_add, Nat.sub_add_cancel h]
  rw [Nat.shiftLeft_eq, Nat.shiftRight_eq_div_pow, split,
    Nat.mul_div_mul_right _ _ (Nat.two_pow_pos amount)]

theorem exists_shiftLeft_eq (value : Nat) {amount : Nat} (h : 16 < amount) :
    ∃ rest, value <<< amount = rest * 2 * 0x10000 := by
  obtain ⟨more, rfl⟩ := Nat.exists_eq_add_of_le h
  refine ⟨value * 2 ^ more, ?_⟩
  rw [Nat.shiftLeft_eq, Nat.pow_add, Nat.mul_comm (2 ^ _), ← Nat.mul_assoc]
  omega

theorem shiftLeft_eq (value amount : UInt16) :
    shiftLeft value amount = .ok (Machine.shiftLeft value amount) := by
  have bound := value.toNat_lt
  unfold shiftLeft Machine.shiftLeft
  dsimp only
  split
  next nothing =>
    subst nothing
    have out : value.toNat / 0x10000 = 0 := Nat.div_eq_of_lt bound
    simp [out, pure, Except.pure]
  next something =>
  have positive : amount.toNat ≠ 0 := fun zero => something (UInt16.toNat_inj.mp zero)
  split
  next within =>
    have within' : amount.toNat ≤ 15 := UInt16.le_iff_toNat_le.mp within
    have low : amount < 16 := UInt16.lt_iff_toNat_lt.mpr (Nat.lt_succ_of_le within')
    have le : amount ≤ 16 := UInt16.le_iff_toNat_le.mpr (Nat.le_succ_of_le within')
    have left : (16 - amount).toNat = 16 - amount.toNat := UInt16.toNat_sub_of_le _ _ le
    have low' : 16 - amount < 16 := by
      rw [UInt16.lt_iff_toNat_lt, left]
      exact Nat.sub_lt (by decide) (Nat.pos_of_ne_zero positive)
    rw [shiftedLeft_eq low, ok_bind, minus_eq le, ok_bind, shiftedRight_eq low', ok_bind, left,
      out_eq, shiftLeft_div _ (Nat.le_succ_of_le within')]
    rfl
  next beyond =>
  split
  next all =>
    subst all
    have cleared : UInt16.ofNat (value.toNat <<< 16) = 0 := by
      apply UInt16.toNat_inj.mp
      rw [UInt16.toNat_ofNat', Nat.shiftLeft_eq]
      exact Nat.mul_mod_left _ _
    have out : value.toNat <<< 16 / 0x10000 = value.toNat := shiftLeft_div _ (Nat.le_refl 16)
    rw [lowBit_eq, show (16 : UInt16).toNat = 16 from rfl, cleared, out]
    rfl
  next other =>
    have far : 16 < amount.toNat := by
      have beyond' : ¬ amount.toNat ≤ 15 := fun h => beyond (UInt16.le_iff_toNat_le.mpr h)
      have other' : amount.toNat ≠ 16 := fun h => other (UInt16.toNat_inj.mp h)
      omega
    obtain ⟨rest, shifted⟩ := exists_shiftLeft_eq value.toNat far
    have cleared : UInt16.ofNat (rest * 2 * 0x10000) = 0 := by
      apply UInt16.toNat_inj.mp
      rw [UInt16.toNat_ofNat']
      exact Nat.mul_mod_left _ _
    rw [shifted, cleared, Nat.mul_div_cancel _ (by decide), Nat.mul_mod_left]
    rfl

theorem shiftRight_eq (value amount : UInt16) :
    shiftRight value amount = .ok (Machine.shiftRight value amount) := by
  unfold shiftRight Machine.shiftRight
  split
  next nothing => rfl
  next something =>
  have positive : amount.toNat ≠ 0 := fun zero => something (UInt16.toNat_inj.mp zero)
  split
  next within =>
    have within' : amount.toNat ≤ 16 := UInt16.le_iff_toNat_le.mp within
    have one : 1 ≤ amount := UInt16.le_iff_toNat_le.mpr (Nat.pos_of_ne_zero positive)
    have before : (amount - 1).toNat = amount.toNat - 1 := UInt16.toNat_sub_of_le _ _ one
    have low : amount - 1 < 16 := by
      rw [UInt16.lt_iff_toNat_lt, before]
      show _ < 16
      omega
    rw [shiftedRightOrZero_eq, ok_bind, minus_eq one, ok_bind, shiftedRight_eq low, ok_bind, before,
      out_eq]
    rfl
  next beyond =>
    have beyond' : 16 < amount.toNat :=
      Nat.lt_of_not_le fun h => beyond (UInt16.le_iff_toNat_le.mpr h)
    rw [shiftRight_eq_zero _ (Nat.le_of_lt beyond'), shiftRight_eq_zero _ (by omega)]
    rfl

/-! ## Instructions -/

/-- Both say the same about how it goes on. -/
inductive Agrees (value : UInt16) (state : MachineState) :
    Except Fault (MachineState × Flow) → Except Fault (Machine.Effect state.memory.size) → Prop
  | fault (fault : Fault) : Agrees value state (.error fault) (.error fault)
  | next (after : MachineState) :
      Agrees value state (.ok (after, .next)) (.ok (.proceed after (state.pc + 1)))
  | jump (after : MachineState) (target : Nat) :
      Agrees value state (.ok (after, .jump target)) (.ok (.proceed after target))
  | store (address : Fin state.memory.size) (word : UInt16) :
      Agrees value state (.ok (state.setMemory address word, .next)) (.ok (.store address word))
  | halt : Agrees value state (.ok (state, .halt)) (.ok .halt)
  | output (shown : UInt16) : Agrees value state (.ok (state, .next)) (.ok (.output shown))
  | input (dest : Register) :
      Agrees value state (.ok (state.setRegister dest value, .next)) (.ok (.input dest))

theorem writeResult_agrees (value : UInt16) (state : MachineState) (dest : Register)
    (result : UInt16 × Bool) :
    ∃ turn, writeResult state dest result = .ok turn ∧
      Agrees value state turn (.ok (.proceed (state.writeResult dest result) (state.pc + 1))) :=
  ⟨_, writeResult_val state dest result, .next _⟩

/-- An instruction passes all checks as long as there may be a next one. -/
theorem execute_agrees (operation : Operation) {fields : Fields} {instruction : Instruction}
    (same : fields.Match instruction) (value : UInt16) {state : MachineState}
    (small : state.pc + 1 < wordLimit) :
    ∃ turn, execute operation fields value state = .ok turn ∧
      Agrees value state turn (Machine.execute operation instruction state) := by
  have following : sum state.pc 1 = .ok (state.pc + 1) := if_pos small
  obtain ⟨low, high⟩ := signedImmediate_bounds instruction
  unfold execute
  rw [same.dest, same.src, same.immediate, same.signedImmediate]
  dsimp only
  rw [register_val, register_val, ok_bind, ok_bind]
  cases operation
  case nop => exact ⟨_, rfl, .next _⟩
  case hlt => exact ⟨_, rfl, .halt⟩
  case mov | ldi =>
    dsimp only
    rw [setRegister_val]
    exact ⟨_, rfl, .next _⟩
  case ld =>
    simp only [Operation.hasSignedImmediate, if_true]
    rw [effectiveAddress_eq _ _ low high, ok_bind, Machine.execute]
    cases Machine.effectiveAddress state (state.register instruction.src)
      instruction.signedImmediate with
    | error fault => exact ⟨_, rfl, .fault _⟩
    | ok address =>
      have word : element state.memory address = .ok state.memory[address] := dif_pos address.isLt
      refine ⟨_, ?_, .next _⟩
      dsimp only [Except.map]
      rw [word, ok_bind, setRegister_val]
      rfl
  case st =>
    simp only [Operation.hasSignedImmediate, if_true]
    rw [effectiveAddress_eq _ _ low high, ok_bind, Machine.execute]
    cases Machine.effectiveAddress state (state.register instruction.dest)
      instruction.signedImmediate with
    | error fault => exact ⟨_, rfl, .fault _⟩
    | ok address =>
      refine ⟨_, ?_, .store address _⟩
      dsimp only [Except.map]
      rw [setMemory_val]
      rfl
  case div | mod =>
    dsimp only [Machine.execute]
    by_cases zero : state.register instruction.src = 0
    · rw [if_pos zero, if_pos zero]
      exact ⟨_, rfl, .fault _⟩
    · rw [if_neg zero, if_neg zero]
      first
      | rw [quotient, if_neg zero, ok_bind]
      | rw [remainder, if_neg zero, ok_bind]
      exact writeResult_agrees ..
  case add | addi | sub | mul | and | or | xor | not => exact writeResult_agrees ..
  case shl =>
    dsimp only
    rw [shiftLeft_eq, ok_bind]
    exact writeResult_agrees ..
  case shr =>
    dsimp only
    rw [shiftRight_eq, ok_bind]
    exact writeResult_agrees ..
  case cmp => exact ⟨_, rfl, .next _⟩
  case jmp => exact ⟨_, rfl, .jump _ _⟩
  case jz | jnz | jc | jnc =>
    refine ⟨_, rfl, ?_⟩
    dsimp only [Machine.execute]
    split
    · exact .jump _ _
    · exact .next _
  case call =>
    dsimp only [Machine.execute]
    rw [following, ok_bind]
    by_cases fits : state.pc + 1 < 0x10000
    · rw [if_pos fits, if_pos fits, setRegister_val]
      exact ⟨_, rfl, .jump _ _⟩
    · rw [if_neg fits, if_neg fits]
      exact ⟨_, rfl, .fault _⟩
  case ret =>
    dsimp only
    rw [register_val]
    exact ⟨_, rfl, .jump _ _⟩
  case input =>
    dsimp only
    rw [setRegister_val]
    exact ⟨_, rfl, .input _⟩
  case output => exact ⟨_, rfl, .output _⟩

/-- An instruction that passes all checks leaves behind what it is said to. -/
theorem perform_eq (operation : Operation) {fields : Fields} {instruction : Instruction}
    (same : fields.Match instruction) (value : UInt16) {state : MachineState}
    (small : state.pc + 1 < wordLimit) :
    perform operation fields value state =
      .ok (Core.perform operation instruction value state) := by
  have following : sum state.pc 1 = .ok (state.pc + 1) := if_pos small
  have completed (after : MachineState) :
      complete state.pc after .next = .ok ⟨.running, after.complete (state.pc + 1)⟩ := by
    rw [complete, following]
    rfl
  obtain ⟨turn, executed, agrees⟩ := execute_agrees operation same value small
  rw [perform, executed, ok_bind, Core.perform]
  generalize Machine.execute operation instruction state = result at agrees ⊢
  cases agrees with
  | fault fault => rfl
  | next after => exact completed after
  | jump after target => rfl
  | store address word => exact completed _
  | halt => rfl
  | output shown => exact completed state
  | input dest => exact completed _

/-! ## Cycles -/

/-- Positions are those of entries. -/
theorem lookup_of (architecture : Architecture) (opcode : UInt8) :
    lookup (.of architecture) opcode =
      .ok ((architecture.lookupOpcode opcode).map CatalogueEntry.ofSpec) := by
  have indexed := Catalogue.lookupOpcode_of architecture opcode
  have place := Catalogue.positions_of architecture opcode
  rw [Catalogue.lookupOpcode, place] at indexed
  rw [lookup, element_of_getElem? place, ok_bind, ← indexed]
  cases found : architecture.specs.findIdx? fun spec => spec.opcode == opcode with
  | none => rfl
  | some position =>
    obtain ⟨spec, listed, -⟩ := Catalogue.findIdx?_opcode_eq_some_iff.mp found
    have entry : (Catalogue.of architecture).entries[position]? = some (.ofSpec spec) := by
      simp [Catalogue.of, listed]
    dsimp only [Option.join_some, Option.bind_some]
    rw [element_of_getElem? entry, entry]
    rfl

/-- A position that is not that of an entry is noticed. -/
example : lookup ⟨#[], [], #[some 3]⟩ 0 = .error (.outOfRange 3 0) := rfl

theorem exists_snapshotDue (interval : Nat) (core : Core) :
    ∃ due, snapshotDue interval core = .ok due := by
  unfold snapshotDue
  split
  next due =>
    rw [counterRemainder, if_neg (Nat.ne_of_gt due.2)]
    exact ⟨_, rfl⟩
  next => exact ⟨_, rfl⟩

/-- A cycle passes all checks, and leaves behind what it is said to. -/
theorem cycle_eq (architecture : Architecture) {words : List UInt32}
    (small : words.length < wordLimit) (interval : Nat) (value : UInt16) (core : Core) :
    (cycle (.of architecture) words interval value core).map Prod.fst =
      .ok (core.cycle architecture (.ofWords words) value) := by
  have fetches (pc : Nat) :
      (Program.ofWords words)[pc]? = words[pc]?.map Instruction.decode := by
    simp [Program.ofWords]
  unfold cycle
  by_cases terminal : core.status.isTerminal
  · rw [if_pos terminal, Core.cycle_of_terminal terminal]
    rfl
  · rw [if_neg terminal]
    have fetched := fetches core.state.pc
    cases found : words[core.state.pc]? with
    | none =>
      rw [found] at fetched
      rw [Core.cycle_of_pastEnd terminal fetched]
      rfl
    | some word =>
      rw [found] at fetched
      have inside := (List.getElem?_eq_some_iff.mp found).1
      have same := Fields.ofWord_match word
      dsimp only
      rw [lookup_of, ok_bind, same.opcode]
      cases decoded : architecture.lookupOpcode (Instruction.decode word).opcode with
      | none =>
        have unknown : architecture.operation? (Instruction.decode word).opcode = none := by
          rw [Architecture.operation?, decoded]
          rfl
        rw [Core.cycle_of_unknown terminal fetched unknown]
        rfl
      | some spec =>
        have known :
            architecture.operation? (Instruction.decode word).opcode = some spec.operation := by
          rw [Architecture.operation?, decoded]
          rfl
        rw [Core.cycle_of_operation terminal fetched known]
        dsimp only [Option.map_some, CatalogueEntry.ofSpec]
        rw [perform_eq _ same _ (by omega), ok_bind]
        obtain ⟨due, checked⟩ := exists_snapshotDue interval
          (Core.perform spec.operation (Instruction.decode word) value core.state)
        rw [checked]
        rfl

/-! ## At any time -/

open Lifecycle

/-- Whatever has been done with a processor whose table is made of definitions, and whenever a cycle
of it has begun: its memory has the size that was asked for, but at most as many words as can be
addressed, and the program counter is at most the length of the program or the largest address.  A
cycle that begins there passes every check, from whatever words the program is and with the same
table indexed, and leaves behind what the cycle of the processor does, whoever answers it.  Only a
program that is longer than there are indices is left out. -/
theorem no_hazard {definitions : List Definition} {architecture : Architecture}
    (made : Architecture.ofDefinitions definitions = .ok architecture) :
    ∃ catalogue, Catalogue.ofDefinitions definitions = .ok catalogue ∧
      ∀ (config : Config) (calls : List Call) (cycles : List Cpu) (rig : Rig),
        Leads calls (.new architecture config) cycles rig →
          ∀ cpu ∈ rig.cpu :: cycles,
            cpu.state.memory.size = min config.memoryWords 65536 ∧
              cpu.state.pc ≤ max cpu.program.size 65535 ∧
              ∀ words, Program.ofWords words = cpu.program → words.length < wordLimit →
                ∀ (σ : Type) (host : Host σ) (world : σ),
                  (cycle catalogue words cpu.snapshotInterval
                      ((cpu.valueRead? host world).getD 0) cpu.core).map Prod.fst =
                    .ok (cpu.step.run host world).1.core := by
  have indexed : Catalogue.ofDefinitions definitions = .ok (.of architecture) := by
    rw [Catalogue.ofDefinitions_eq, made]
    rfl
  refine ⟨_, indexed, fun config calls cycles rig led => ?_⟩
  obtain ⟨before, after⟩ := led.inBounds
  intro cpu member
  obtain ⟨table, bounded⟩ : InBounds architecture config cpu :=
    List.forall_mem_cons.mpr ⟨after, before⟩ cpu member
  refine ⟨bounded.memory, bounded.pc, fun words same small σ host world => ?_⟩
  rw [cycle_eq architecture small, Cpu.step_run_core, table, same]

/-- A program that returns as far as an instruction can go, far behind its end.  The second word has
bits in fields that are not read. -/
theorem no_hazard_return :
    let definitions : List Definition :=
      [⟨"ldi", 0x11, [.register, .unsigned], "Load", ""⟩, ⟨"ret", 0x59, [], "Return", ""⟩]
    let words : List UInt32 := [0xFFFF0F11, 0xABCDEF59]
    ∃ architecture catalogue cycles rig,
      Architecture.ofDefinitions definitions = .ok architecture ∧
        Leads [.load (.ofWords words), .step .silent (), .step .silent ()]
          (.new architecture ⟨2, 1⟩) cycles rig ∧
        rig.cpu.state.pc = 65535 ∧ rig.cpu.state.memory.size = 2 ∧
        (cycle catalogue words rig.cpu.snapshotInterval
            ((rig.cpu.valueRead? Host.silent ()).getD 0) rig.cpu.core).map Prod.fst =
          .ok (rig.cpu.step.run Host.silent ()).1.core := by
  intro definitions words
  let architecture : Architecture := ⟨[⟨.ldi, "Load", ""⟩, ⟨.ret, "Return", ""⟩], by decide⟩
  have made : Architecture.ofDefinitions definitions = .ok architecture := rfl
  obtain ⟨catalogue, -, safe⟩ := no_hazard made
  obtain ⟨cycles, rig, led, far, same⟩ : ∃ cycles rig,
      Leads [.load (.ofWords words), .step .silent (), .step .silent ()]
        (.new architecture ⟨2, 1⟩) cycles rig ∧
      rig.cpu.state.pc = 65535 ∧ rig.cpu.program = .ofWords words :=
    ⟨_, _, .cons (.load _ _) (.cons (.step _ _ _) (.cons (.step _ _ _) (.nil _))),
      by decide +kernel, by decide +kernel⟩
  obtain ⟨memory, -, passed⟩ := safe _ _ _ rig led rig.cpu List.mem_cons_self
  exact ⟨architecture, catalogue, cycles, rig, made, led, far, memory,
    passed words same.symm (by decide) Unit Host.silent ()⟩

end Guarded
end Minicomputer
