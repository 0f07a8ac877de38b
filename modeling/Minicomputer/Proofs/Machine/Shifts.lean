import Mathlib.Algebra.Group.Nat.Defs
import Mathlib.Logic.Function.Iterate
import Minicomputer.Proofs.Machine.Arithmetic

/-!
# Shifts are made bit by bit

A shift by any amount comes to the same as so many shifts by a single bit, one after the other, with
the carry of the last of them.  That holds beyond sixteen bits as well, where nothing is left of the
word, and with a shift by nothing, which leaves the word and has no carry.

* `Machine.Shift` -- the two ways to shift, and what a single bit and many bits come to;
* `Machine.Shift.apply_eq_iterate` -- a shift as single bits in succession;
* `Machine.Shift.apply_apply` -- two shifts as one;
* `Cpu.shifts_are_iterated` -- what that means for `SHL` and `SHR`.
-/

namespace Minicomputer
namespace Machine

/-- The two ways to shift. -/
inductive Shift where
  | left
  | right
  deriving DecidableEq, Repr

namespace Shift

/-- The operation that shifts. -/
def operation : Shift → Operation
  | left => .shl
  | right => .shr

/-- A shift by any amount, with the carry. -/
def apply : Shift → UInt16 → UInt16 → UInt16 × Bool
  | left => shiftLeft
  | right => shiftRight

/-- A shift by a single bit, and whether the bit that falls out is set. -/
def once : Shift → UInt16 → UInt16 × Bool
  | left, value => (value + value, 0x8000 ≤ value)
  | right, value => (value / 2, value % 2 == 1)

/-- The number that is left of a number. -/
def whole : Shift → Nat → Nat → Nat
  | left, value, amount => value * 2 ^ amount % 0x10000
  | right, value, amount => value / 2 ^ amount

/-! ## Bit by bit -/

/-- So many shifts by a single bit, one after the other. -/
def repeatedly (way : Shift) (amount : Nat) : UInt16 × Bool → UInt16 × Bool :=
  (fun shifted => way.once shifted.1)^[amount]

variable (way : Shift) (value : UInt16)

theorem repeatedly_succ (amount : Nat) (shifted : UInt16 × Bool) :
    way.repeatedly (amount + 1) shifted = way.once (way.repeatedly amount shifted).1 :=
  Function.iterate_succ_apply' ..

/-- What has been carried before is forgotten with the first bit. -/
theorem repeatedly_of_pos {amount : Nat} (something : 0 < amount) (carry carry' : Bool) :
    way.repeatedly amount (value, carry) = way.repeatedly amount (value, carry') := by
  obtain ⟨fewer, rfl⟩ := Nat.exists_eq_add_one_of_ne_zero (Nat.ne_of_gt something)
  rfl

/-- The highest bit of a word is the first one beyond it after another step. -/
theorem once_left_ofNat (number : Nat) :
    left.once (UInt16.ofNat number) =
      (UInt16.ofNat (2 * number), 2 * number / 0x10000 % 2 == 1) := by
  apply Prod.ext
  · apply UInt16.toNat_inj.mp
    simp only [once, UInt16.toNat_add, UInt16.toNat_ofNat']
    omega
  · apply Bool.eq_iff_iff.mpr
    simp only [once, UInt16.le_iff_toNat_le, UInt16.toNat_ofNat', decide_eq_true_iff, beq_iff_eq]
    show 0x8000 ≤ _ ↔ _
    omega

theorem once_right_ofNat {number : Nat} (inside : number < 0x10000) :
    right.once (UInt16.ofNat number) = (UInt16.ofNat (number / 2), number % 2 == 1) := by
  apply Prod.ext
  · apply UInt16.toNat_inj.mp
    simp only [once, UInt16.toNat_div, UInt16.toNat_ofNat']
    show _ / 2 = _
    omega
  · apply Bool.eq_iff_iff.mpr
    simp only [once, beq_iff_eq, ← UInt16.toNat_inj, UInt16.toNat_mod, UInt16.toNat_ofNat']
    show _ % 2 = 1 ↔ _
    omega

theorem repeatedly_left (amount : Nat) :
    left.repeatedly amount (value, false) =
      (UInt16.ofNat (value.toNat <<< amount), value.toNat <<< amount / 0x10000 % 2 == 1) := by
  induction amount with
  | zero =>
    have inside : value.toNat / 0x10000 = 0 := Nat.div_eq_of_lt value.toNat_lt
    simp [repeatedly, inside]
  | succ amount ih => rw [repeatedly_succ, ih, once_left_ofNat, Nat.shiftLeft_succ]

theorem repeatedly_right (amount : Nat) :
    right.repeatedly amount (value, false) =
      (UInt16.ofNat (value.toNat >>> amount),
        amount != 0 && value.toNat >>> (amount - 1) % 2 == 1) := by
  induction amount with
  | zero => simp [repeatedly]
  | succ amount ih =>
    have inside : value.toNat >>> amount < 0x10000 :=
      Nat.lt_of_le_of_lt (Nat.shiftRight_le ..) value.toNat_lt
    rw [repeatedly_succ, ih, once_right_ofNat inside, Nat.shiftRight_succ, Nat.add_sub_cancel]
    rfl

/-- A shift by any amount is so many shifts by a single bit. -/
theorem apply_eq_repeatedly (amount : UInt16) :
    way.apply value amount = way.repeatedly amount.toNat (value, false) := by
  cases way with
  | left => exact (repeatedly_left value amount.toNat).symm
  | right =>
    rw [repeatedly_right]
    show shiftRight value amount = _
    unfold shiftRight
    split
    next nothing =>
      subst nothing
      simp
    next something =>
      have positive : amount.toNat ≠ 0 := fun zero => something (UInt16.toNat_inj.mp zero)
      simp [positive]

theorem apply_one : way.apply value 1 = way.once value :=
  way.apply_eq_repeatedly value 1

/-- The single bits are shifts by one. -/
theorem apply_eq_iterate (amount : UInt16) :
    way.apply value amount =
      (fun shifted => way.apply shifted.1 1)^[amount.toNat] (value, false) := by
  simp only [apply_one]
  exact way.apply_eq_repeatedly value amount

/-- What is left, as a number. -/
theorem toNat_apply (amount : UInt16) :
    (way.apply value amount).1.toNat = way.whole value.toNat amount.toNat := by
  rw [apply_eq_repeatedly]
  cases way with
  | left =>
    rw [repeatedly_left, UInt16.toNat_ofNat', Nat.shiftLeft_eq]
    rfl
  | right =>
    have inside : value.toNat >>> amount.toNat < 2 ^ 16 :=
      Nat.lt_of_le_of_lt (Nat.shiftRight_le ..) value.toNat_lt
    rw [repeatedly_right, UInt16.toNat_ofNat', Nat.mod_eq_of_lt inside, Nat.shiftRight_eq_div_pow]
    rfl

/-- Two shifts one after the other are a shift by the sum, if the second one shifts at all. -/
theorem apply_apply {amount more total : UInt16} (something : 0 < more)
    (sum : amount.toNat + more.toNat = total.toNat) :
    way.apply (way.apply value amount).1 more = way.apply value total := by
  have positive : 0 < more.toNat := UInt16.lt_iff_toNat_lt.mp something
  calc way.apply (way.apply value amount).1 more
      = way.repeatedly more.toNat ((way.repeatedly amount.toNat (value, false)).1, false) := by
        rw [apply_eq_repeatedly, apply_eq_repeatedly]
    _ = way.repeatedly more.toNat (way.repeatedly amount.toNat (value, false)) :=
        way.repeatedly_of_pos _ positive _ _
    _ = way.repeatedly (more.toNat + amount.toNat) (value, false) :=
        (Function.iterate_add_apply ..).symm
    _ = way.apply value total := by rw [Nat.add_comm, sum, apply_eq_repeatedly]

/-- What the processor does with a shift. -/
theorem execute_eq (instruction : Instruction) (state : MachineState) :
    execute way.operation instruction state =
      .ok (.proceed (state.writeResult instruction.dest
        (way.apply (state.register instruction.dest) instruction.immediate)) (state.pc + 1)) := by
  cases way with
  | left => rfl
  | right => rfl

end Shift
end Machine

/-! ## Cycles -/

namespace Cpu

variable {σ : Type} (host : Host σ) {cpu : Cpu} (world : σ) {way : Machine.Shift}
  {instruction : Instruction} {a b : UInt16}

/-- A cycle that shifts leaves what the shift comes to. -/
theorem step_shifts (faces : cpu.Faces way.operation instruction a b) :
    let shifted := way.apply a instruction.immediate
    cpu.Concludes (cpu.step.run host world).1 (some instruction.dest) shifted.1 shifted.2 := by
  obtain ⟨going, upcoming, rfl, rfl⟩ := faces
  exact .of_core (step_of_proceed host world going upcoming (way.execute_eq instruction cpu.state))

/-- The flags of a result are the same wherever it comes from. -/
theorem Concludes.flags_eq {cpu' after after' : Cpu} {dest? dest?' : Option Register}
    {result : UInt16} {carry : Bool} (concludes : cpu.Concludes after dest? result carry)
    (concludes' : cpu'.Concludes after' dest?' result carry) :
    after.state.flags.zero = after'.state.flags.zero ∧
      after.state.flags.carry = after'.state.flags.carry :=
  ⟨Bool.eq_iff_iff.mpr (concludes.zero.trans concludes'.zero.symm),
    concludes.carry.trans concludes'.carry.symm⟩

theorem Concludes.register_eq {after : Cpu} {dest : Register} {result : UInt16} {carry : Bool}
    (concludes : cpu.Concludes after (some dest) result carry) :
    after.state.register dest = result :=
  (concludes.registers dest).trans (if_pos rfl)

/-- Either way, a shift by any amount from 0 to 65535 is so many shifts by a single bit, one after
the other, with the carry of the last, and a shift by nothing leaves the word and has no carry.  So
an instruction leaves the word times or divided by that power of two; and two instructions one after
the other, the second of which shifts at all, leave the register and the flags that one instruction
with the sum of their amounts leaves, if the sum is an amount. -/
theorem shifts_are_iterated (way : Machine.Shift) :
    (∀ value amount, way.apply value amount =
      (fun shifted => way.apply shifted.1 1)^[amount.toNat] (value, false)) ∧
    (∀ value, way.apply value 1 = way.once value) ∧
    (∀ value, way.apply value 0 = (value, false)) ∧
    ∀ {σ : Type} (host : Host σ) (cpu : Cpu) (world : σ) (instruction : Instruction)
        (a b : UInt16), cpu.Faces way.operation instruction a b →
      let dest := instruction.dest
      let after := (cpu.step.run host world).1
      let shifted := way.apply a instruction.immediate
      cpu.Concludes after (some dest) shifted.1 shifted.2 ∧
        (after.state.register dest).toNat = way.whole a.toNat instruction.immediate.toNat ∧
        ∀ (world' : σ) (more : Instruction) (a' b' : UInt16),
          after.Faces way.operation more a' b' → more.dest = dest → 0 < more.immediate →
          let twice := (after.step.run host world').1
          ∀ (cpu' : Cpu) (world'' : σ) (total : Instruction) (b'' : UInt16),
            cpu'.Faces way.operation total a b'' → total.dest = dest →
            total.immediate.toNat = instruction.immediate.toNat + more.immediate.toNat →
            let once := (cpu'.step.run host world'').1
            twice.state.register dest = once.state.register dest ∧
              twice.state.flags.zero = once.state.flags.zero ∧
              twice.state.flags.carry = once.state.flags.carry := by
  refine ⟨way.apply_eq_iterate, way.apply_one, fun value => way.apply_eq_repeatedly value 0, ?_⟩
  intro σ host cpu world instruction a b faces dest after shifted
  have concludes : cpu.Concludes after (some dest) shifted.1 shifted.2 :=
    step_shifts host world faces
  refine ⟨concludes, ?_, ?_⟩
  · rw [concludes.register_eq]
    exact way.toNat_apply a instruction.immediate
  · intro world' more a' b' faces' dest' something twice cpu' world'' total b'' faces'' dest'' sum
      once
    have found : a' = shifted.1 := by rw [← faces'.first, dest', concludes.register_eq]
    have together : way.apply a' more.immediate = way.apply a total.immediate := by
      rw [found]
      exact way.apply_apply a something sum.symm
    have second := step_shifts host world' faces'
    have single := step_shifts host world'' faces''
    rw [together, dest'] at second
    rw [dest''] at single
    exact ⟨second.register_eq.trans single.register_eq.symm, second.flags_eq single⟩

/-- The lowest bit goes all the way and is the carry, in two steps or in one. -/
theorem shifts_are_iterated_sixteen :
    let state := (MachineState.initial 4).setRegister 1 0x8001
    let cpu : Cpu := { boot .standard ⟨4, 0⟩ #[⟨0x34, 1, 0, 5⟩, ⟨0x34, 1, 0, 11⟩] with state }
    let cpu' : Cpu := { boot .standard ⟨4, 0⟩ #[⟨0x34, 1, 0, 16⟩] with state }
    let twice := (cpu.cycles .silent 2 ()).1.state
    let once := (cpu'.cycles .silent 1 ()).1.state
    twice.register 1 = once.register 1 ∧ once.register 1 = 0 ∧ twice.flags.carry = true := by
  intro state cpu cpu' twice once
  have faces : cpu.Faces .shl ⟨0x34, 1, 0, 5⟩ 0x8001 0 :=
    ⟨by decide, by decide +kernel, by decide +kernel, by decide +kernel⟩
  have faces' : (cpu.step.run .silent ()).1.Faces .shl ⟨0x34, 1, 0, 11⟩ 0x20 0 :=
    ⟨by decide +kernel, by decide +kernel, by decide +kernel, by decide +kernel⟩
  have faces'' : cpu'.Faces .shl ⟨0x34, 1, 0, 16⟩ 0x8001 0 :=
    ⟨by decide, by decide +kernel, by decide +kernel, by decide +kernel⟩
  obtain ⟨-, -, -, shifts⟩ := shifts_are_iterated .left
  obtain ⟨-, -, composed⟩ := shifts .silent cpu () _ _ _ faces
  obtain ⟨register, -, carry⟩ :=
    composed (cpu.step.run .silent ()).2 _ _ _ faces' rfl (by decide) cpu' () _ _ faces'' rfl
      (by decide)
  refine ⟨?_, by decide +kernel, ?_⟩
  · simp only [twice, once, cycles]
    exact register
  · simp only [twice, cycles]
    exact carry.trans (by decide +kernel)

end Cpu
end Minicomputer
