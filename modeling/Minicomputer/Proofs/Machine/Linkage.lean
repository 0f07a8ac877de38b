import Minicomputer.Proofs.Machine.LastWriter

/-!
# Calls and returns match

`CALL` leaves the address of the next instruction in the link register, and `RET` goes on at the
address that is there.  The register is one like the others, so a return is only as good as what has
happened to it in between.

* `Cpu.openCalls` -- the calls of a run that no `RET` has answered yet, as a stack;
* `Cpu.openCalls_eq_of_suffix` -- what lies below a call is the stack on which it was made;
* `Cpu.calls_and_returns_match` -- a `RET` that finds in the link register what its own call has
  left there goes on behind that call, and without another writer it does find that.
-/

namespace Minicomputer
namespace Cpu

variable {σ : Type} (host : Host σ)

/-! ## One cycle -/

section

variable {cpu : Cpu} {world : σ} {deed : Deed}

/-- What has been carried out was next, on a processor that had not stopped. -/
theorem upcoming?_of_deed? (done : cpu.deed? host world = some deed) :
    ¬ cpu.status.isTerminal ∧ cpu.upcoming? = some (deed.operation, deed.instruction) := by
  unfold deed? at done
  split at done
  next completes =>
    obtain ⟨⟨operation, instruction⟩, upcoming, same⟩ := Option.map_eq_some_iff.mp done
    cases same
    exact ⟨completes.1, upcoming⟩
  next => cases done

/-- A call that is carried out leaves its return address, which is not cut off. -/
theorem step_call (done : cpu.deed? host world = some deed) (calls : deed.operation = .call) :
    ((cpu.step.run host world).1.state.register .link).toNat = cpu.state.pc + 1 := by
  obtain ⟨before, effect, executed⟩ := executed_of_deed? host done
  have inside : cpu.state.pc + 1 < 0x10000 := by
    rw [calls] at executed
    rw [← before]
    simp only [Machine.execute] at executed
    split at executed
    next inside => exact inside
    next => cases executed
  have written : deed.writtenTo? .link = some (UInt16.ofNat (cpu.state.pc + 1)) := by
    rw [Deed.writtenTo?, Deed.write?, calls, before]
    rfl
  rw [(step_leaves host cpu world).registers, done, Option.bind_some, written, Option.getD_some,
    UInt16.toNat_ofNat', Nat.mod_eq_of_lt inside]

/-- A return that is carried out goes where the link register says, and leaves it. -/
theorem step_ret (done : cpu.deed? host world = some deed) (returns : deed.operation = .ret) :
    let after := (cpu.step.run host world).1.state
    after.pc = (cpu.state.register .link).toNat ∧
      after.register .link = cpu.state.register .link := by
  intro after
  obtain ⟨going, upcoming⟩ := upcoming?_of_deed? host done
  rw [returns] at upcoming
  have left : after = cpu.state.complete (cpu.state.register .link).toNat :=
    congrArg Core.state (step_of_proceed host world going upcoming rfl)
  rw [left]
  exact ⟨rfl, rfl⟩

/-- A call without a return address of sixteen bits is a fault that leaves everything. -/
theorem step_call_of_outside {instruction : Instruction} (going : ¬ cpu.status.isTerminal)
    (upcoming : cpu.upcoming? = some (.call, instruction)) (outside : 0xFFFF ≤ cpu.state.pc) :
    let after := (cpu.step.run host world).1
    after.status = .faulted (.returnAddressOutOfRange cpu.state.pc) ∧ after.state = cpu.state := by
  intro after
  obtain ⟨fetched, decoded⟩ := upcoming?_eq_some_iff.mp upcoming
  have raises : Core.Raises cpu.architecture cpu.program cpu.state
      (.returnAddressOutOfRange cpu.state.pc) :=
    .refused fetched decoded (.call (Nat.lt_succ_of_le outside))
  have left := step_run_core host cpu world
  have faulted : (cpu.core.cycle cpu.architecture cpu.program
      ((cpu.valueRead? host world).getD 0)).status =
        .faulted (.returnAddressOutOfRange cpu.state.pc) :=
    (Core.cycle_faulted_iff going).mpr raises
  exact ⟨(congrArg Core.status left).trans faulted,
    (congrArg Core.state left).trans (Core.state_cycle_of_faulted faulted)⟩

end

/-! ## A run -/

variable (cpu : Cpu) (world : σ)

/-- The state before the cycle with that number. -/
def stateAt (i : Nat) : MachineState :=
  (cpu.cycles host i world).1.state

/-- What the cycle with that number carries out. -/
def deedAt (i : Nat) : Option Deed :=
  (cpu.cycles host i world).1.deed? host (cpu.cycles host i world).2

/-- The operation that the cycle with that number carries out. -/
def operationAt (i : Nat) : Option Operation :=
  (cpu.deedAt host world i).map Deed.operation

/-- What the cycle with that number writes to a register. -/
def writtenAt (register : Register) (i : Nat) : Option UInt16 :=
  (cpu.deedAt host world i).bind fun deed => deed.writtenTo? register

/-- The cycles of the calls that have not been returned from before the cycle with that number, the
latest one first.  A return answers the latest of them. -/
def openCalls : Nat → List Nat
  | 0 => []
  | n + 1 =>
    match cpu.operationAt host world n with
    | some .call => n :: openCalls n
    | some .ret => (openCalls n).tail
    | _ => openCalls n

theorem stateAt_succ (i : Nat) :
    cpu.stateAt host world (i + 1) =
      ((cpu.cycles host i world).1.step.run host (cpu.cycles host i world).2).1.state := by
  rw [stateAt, cycles_succ]

section

variable {cpu world}

theorem link_of_call {i : Nat} (calls : cpu.operationAt host world i = some .call) :
    ((cpu.stateAt host world (i + 1)).register .link).toNat =
      (cpu.stateAt host world i).pc + 1 := by
  obtain ⟨call, done, isCall⟩ := Option.map_eq_some_iff.mp calls
  rw [stateAt_succ]
  exact step_call host done isCall

theorem pc_of_ret {n : Nat} (returns : cpu.operationAt host world n = some .ret) :
    (cpu.stateAt host world (n + 1)).pc = ((cpu.stateAt host world n).register .link).toNat ∧
      (cpu.stateAt host world (n + 1)).register .link =
        (cpu.stateAt host world n).register .link := by
  obtain ⟨ret, done, isRet⟩ := Option.map_eq_some_iff.mp returns
  rw [stateAt_succ]
  exact step_ret host done isRet

/-- A register that nobody writes stays. -/
theorem register_kept {register : Register} {i m : Nat}
    (quiet : ∀ k < m, cpu.writtenAt host world register (i + k) = none) :
    (cpu.stateAt host world (i + m)).register register =
      (cpu.stateAt host world i).register register := by
  induction m with
  | zero => rfl
  | succ m ih =>
    have earlier := ih fun k below => quiet k (Nat.lt_succ_of_lt below)
    have now : cpu.writtenAt host world register (i + m) = none := quiet m (Nat.lt_succ_self m)
    calc (cpu.stateAt host world (i + m + 1)).register register
        = (cpu.writtenAt host world register (i + m)).getD
            ((cpu.stateAt host world (i + m)).register register) := by
          rw [stateAt_succ]
          exact (step_leaves host _ _).registers register
      _ = (cpu.stateAt host world (i + m)).register register := by rw [now, Option.getD_none]
      _ = (cpu.stateAt host world i).register register := earlier

/-! ## Open calls -/

theorem openCalls_of_ret {n : Nat} (returns : cpu.operationAt host world n = some .ret) :
    cpu.openCalls host world (n + 1) = (cpu.openCalls host world n).tail := by
  rw [openCalls, returns]

/-- A cycle opens a call on top of the others, or it leaves the stack or what is under its top. -/
theorem openCalls_succ (n : Nat) :
    (cpu.openCalls host world (n + 1) = n :: cpu.openCalls host world n ∧
        cpu.operationAt host world n = some .call) ∨
      cpu.openCalls host world (n + 1) <:+ cpu.openCalls host world n := by
  rw [openCalls]
  split
  next calls => exact .inl ⟨rfl, calls⟩
  next returns => exact .inr (List.tail_suffix _)
  next => exact .inr (List.suffix_refl _)

/-- What lies below a call is the stack on which it was made. -/
theorem openCalls_eq_of_suffix {n i : Nat} {outer : List Nat}
    (open? : i :: outer <:+ cpu.openCalls host world n) :
    outer = cpu.openCalls host world i ∧ i < n ∧ cpu.operationAt host world i = some .call := by
  induction n with
  | zero => cases List.suffix_nil.mp open?
  | succ n ih =>
    have earlier (still : i :: outer <:+ cpu.openCalls host world n) :=
      (ih still).imp_right fun rest => rest.imp_left Nat.lt_succ_of_lt
    rcases openCalls_succ host n with ⟨pushed, calls⟩ | fewer
    · -- What ends at the new top is that call; anything else ended there before.
      rw [pushed] at open?
      rcases List.suffix_cons_iff.mp open? with top | below
      · cases top
        exact ⟨rfl, Nat.lt_succ_self _, calls⟩
      · exact earlier below
    · exact earlier (open?.trans fewer)

end

/-- In every run, whoever is around, a call that is carried out puts the address behind it into the
link register, all of it, and until an instruction writes the register a `RET` goes there.  More
generally, a `RET` goes on behind its own call, which is the latest one that has not been returned
from, if the register has the value that it had when the call was made; and then the open calls are
those of that time.  A call without an address of sixteen bits behind it ends in a fault and changes
no register. -/
theorem calls_and_returns_match :
    let operationAt := cpu.operationAt host world
    let stateAt := cpu.stateAt host world
    let openCalls := cpu.openCalls host world
    let link i := (stateAt i).register .link
    (∀ i, operationAt i = some .call →
      (link (i + 1)).toNat = (stateAt i).pc + 1 ∧
      ∀ m, (∀ k < m, cpu.writtenAt host world .link (i + 1 + k) = none) →
        operationAt (i + 1 + m) = some .ret →
          (stateAt (i + 1 + m + 1)).pc = (stateAt i).pc + 1 ∧
            (link (i + 1 + m + 1)).toNat = (stateAt i).pc + 1) ∧
    (∀ n i outer, openCalls n = i :: outer → operationAt n = some .ret →
      i < n ∧ operationAt i = some .call ∧ openCalls (n + 1) = openCalls i ∧
        (link n = link (i + 1) → (stateAt (n + 1)).pc = (stateAt i).pc + 1)) ∧
    (∀ n instruction, ¬ (cpu.cycles host n world).1.status.isTerminal →
      (cpu.cycles host n world).1.upcoming? = some (.call, instruction) →
      0xFFFF ≤ (stateAt n).pc →
        (cpu.cycles host (n + 1) world).1.status =
            .faulted (.returnAddressOutOfRange (stateAt n).pc) ∧
          stateAt (n + 1) = stateAt n) := by
  intro operationAt stateAt openCalls link
  refine ⟨?_, ?_, ?_⟩
  · intro i calls
    have linked := link_of_call host calls
    refine ⟨linked, ?_⟩
    intro m quiet returns
    have kept := register_kept host quiet
    obtain ⟨goes, stays⟩ := pc_of_ret host returns
    have found : (link (i + 1 + m)).toNat = (stateAt i).pc + 1 :=
      (congrArg UInt16.toNat kept).trans linked
    exact ⟨goes.trans found, (congrArg UInt16.toNat stays).trans found⟩
  · intro n i outer stack returns
    have open? : i :: outer <:+ cpu.openCalls host world n := ⟨[], stack.symm⟩
    obtain ⟨below, before, calls⟩ := openCalls_eq_of_suffix host open?
    refine ⟨before, calls, ?_, ?_⟩
    · calc openCalls (n + 1)
          = (openCalls n).tail := openCalls_of_ret host returns
        _ = outer := by rw [stack, List.tail_cons]
        _ = openCalls i := below
    · intro restored
      calc (stateAt (n + 1)).pc
          = (link n).toNat := (pc_of_ret host returns).1
        _ = (link (i + 1)).toNat := congrArg UInt16.toNat restored
        _ = (stateAt i).pc + 1 := link_of_call host calls
  · intro n instruction going upcoming outside
    rw [show stateAt (n + 1) = (cpu.cycles host (n + 1) world).1.state from rfl, cycles_succ]
    exact step_call_of_outside host going upcoming outside

/-- The outer call goes to 2, where the link register is saved in `r1`, so that another call can be
made and the outer one be returned from. -/
theorem calls_and_returns_match_nested :
    let program : Program := #[⟨0x58, 0, 0, 2⟩, ⟨0x01, 0, 0, 0⟩, ⟨0x10, 1, 15, 0⟩, ⟨0x58, 0, 0, 6⟩,
      ⟨0x10, 15, 1, 0⟩, ⟨0x59, 0, 0, 0⟩, ⟨0x59, 0, 0, 0⟩]
    let cpu := boot .standard ⟨4, 0⟩ program
    cpu.openCalls .silent () 3 = [2, 0] ∧ (cpu.stateAt .silent () 4).pc = 4 ∧
      (cpu.stateAt .silent () 6).pc = 1 := by
  intro program cpu
  obtain ⟨leaf, nested, -⟩ := calls_and_returns_match .silent cpu ()
  have inner := (leaf 2 (by decide +kernel)).2 0 (by simp) (by decide +kernel)
  obtain ⟨-, -, -, outer⟩ := nested 5 0 [] (by decide +kernel) (by decide +kernel)
  refine ⟨by decide +kernel, inner.1.trans (by decide +kernel), ?_⟩
  exact (outer (by decide +kernel)).trans (by decide +kernel)

end Cpu
end Minicomputer
