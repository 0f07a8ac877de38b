import Minicomputer.Proofs.Machine.Lifecycle

/-!
# What an observer is told

An observer who stays from the beginning of a run to its end gets an account of it: for every cycle
in its turn, what the instruction shows or asks for, and then a copy of the state if one is due, or
how the run has ended.

* `Cpu.utters`, `Core.news` -- what there is to tell about a cycle, said without dialogues;
* `Dialogue.Tells` -- what a dialogue publishes to an observer who stays, whatever it receives;
* `Cpu.step_tells` -- a cycle publishes what there is to tell about it;
* `Cpu.run_account` -- so does a run, with one event about its end, which is the last.

Who supplies values is left open.
-/

namespace Minicomputer

/-! ## The account -/

namespace Event

/-- Whether the event says that a run has ended. -/
def isFinal : Event → Bool
  | halted _ | faulted .. => true
  | snapshot _ | output _ | inputRequested => false

/-- The number of completed instructions in a copy of the state between two instructions. -/
def snapshotCycles? : Event → Option Nat
  | snapshot state => some state.cycles
  | output _ | inputRequested | halted _ | faulted .. => none

end Event

/-- What there is to tell about where a cycle has led.  A copy of the state is due after every
`interval` completed instructions. -/
def Core.news (interval : Nat) (core : Core) : List Event :=
  match core.status with
  | .ready => []
  | .running =>
    if 0 < interval ∧ interval ∣ core.state.cycles then [.snapshot core.state] else []
  | .halted => [.halted core.state]
  | .faulted fault => [.faulted fault core.state]

namespace Cpu

/-- What the instruction of the next cycle shows or asks for. -/
def utters (cpu : Cpu) : List Event :=
  match cpu.upcoming? with
  | some (.output, instruction) => [.output (cpu.state.register instruction.dest)]
  | some (.input, _) => if cpu.supplied then [.inputRequested] else []
  | _ => []

/-- The processor has stopped at a `HLT`. -/
def EndedByHalt (cpu : Cpu) : Prop :=
  cpu.status = .halted ∧ cpu.upcoming?.map Prod.fst = some .hlt

instance : DecidablePred EndedByHalt :=
  fun _ => inferInstanceAs (Decidable (_ ∧ _))

section

variable {σ : Type} (host : Host σ) (interruptRequested : σ → Bool)

/-- The processors with which the cycles of `loop` begin and end. -/
def passes : Nat → Cpu → σ → List (Cpu × Cpu)
  | fuel, cpu, world =>
    if cpu.status.isTerminal then []
    else if interruptRequested world then []
    else match fuel with
      | 0 => []
      | fuel + 1 =>
        match cpu.step.run host world with
        | (next, world) => (cpu, next) :: passes fuel next world

/-- The processors with which the cycles of `run` begin and end. -/
def passesOfRun (fuel : Nat) (cpu : Cpu) (world : σ) : List (Cpu × Cpu) :=
  passes host interruptRequested fuel (cpu.start.run host world).1 (cpu.start.run host world).2

end

/-- What there is to tell about the cycle between two processors. -/
def account (interval : Nat) (pass : Cpu × Cpu) : List Event :=
  pass.1.utters ++ pass.2.core.news interval

variable {cpu : Cpu}

theorem utters_of_none (nothing : cpu.upcoming? = none) : cpu.utters = [] := by
  rw [utters, nothing]

/-- Only `OUT` and `IN` have something to say. -/
theorem utters_of_silent {operation : Operation} {instruction : Instruction}
    (upcoming : cpu.upcoming? = some (operation, instruction)) (shows : operation ≠ .output)
    (reads : operation ≠ .input) : cpu.utters = [] := by
  rw [utters, upcoming]
  split
  next same =>
    cases same
    exact absurd rfl shows
  next same =>
    cases same
    exact absurd rfl reads
  next => rfl

theorem isFinal_of_mem_utters {event : Event} (member : event ∈ cpu.utters) :
    event.isFinal = false := by
  unfold utters at member
  split at member
  · cases List.mem_singleton.mp member
    rfl
  · split at member
    · cases List.mem_singleton.mp member
      rfl
    · cases member
  · cases member

theorem filterMap_utters : cpu.utters.filterMap Event.snapshotCycles? = [] := by
  unfold utters
  split
  · rfl
  · split
    · rfl
    · rfl
  · rfl

end Cpu

/-! ## Dialogues with an observer who stays -/

namespace Dialogue

variable {α β : Type} {post : α → List Event → Prop}

/-- However the dialogue goes on with an observer who stays, the condition holds at its end, of its
value and of everything that the observer has been told. -/
def Tells (post : α → List Event → Prop) : Dialogue α → List Event → Prop
  | done value, told => post value told
  | note _ next, told => next.Tells post told
  | publish event next, told => (next true).Tells post (told ++ [event])
  | receive next, told => ∀ value, (next value).Tells post told

theorem tells_bind {dialogue : Dialogue α} {next : α → Dialogue β}
    {post : β → List Event → Prop} {told : List Event}
    (h : dialogue.Tells (fun value told => (next value).Tells post told) told) :
    (dialogue.bind next).Tells post told := by
  induction dialogue generalizing told with
  | done value => exact h
  | note n rest ih => exact ih h
  | publish event rest ih => exact ih true h
  | receive rest ih => exact fun value => ih value (h value)

end Dialogue

/-- The host, and an observer who stays and keeps what he is told. -/
def Host.recording {σ : Type} (host : Host σ) : Host (σ × List Event) where
  note n world := (host.note n world.1, world.2)
  publish event world := (true, (host.publish event world.1).2, world.2 ++ [event])
  receive world := ((host.receive world.1).1, (host.receive world.1).2, world.2)

theorem Dialogue.Tells.run {α σ : Type} {post : α → List Event → Prop} {dialogue : Dialogue α}
    {told : List Event} (h : dialogue.Tells post told) (host : Host σ) (world : σ) :
    post (dialogue.run host.recording (world, told)).1
      (dialogue.run host.recording (world, told)).2.2 := by
  induction dialogue generalizing told world with
  | done value => exact h
  | note n next ih => exact ih h _
  | publish event next ih => exact ih true h _
  | receive next ih => exact ih _ (h _) _

namespace Cpu

theorem publish_tells {post : Cpu → List Event → Prop} (cpu : Cpu)
    (observed : cpu.observed = true) (event : Event) {told : List Event}
    (h : post cpu (told ++ [event])) : (cpu.publish event).Tells post told := by
  rw [publish, if_pos observed]
  exact h

theorem snapshotDue_iff {cpu : Cpu} :
    cpu.snapshotDue = true ↔
      0 < cpu.snapshotInterval ∧ cpu.snapshotInterval ∣ cpu.state.cycles := by
  simp [snapshotDue, Nat.pos_iff_ne_zero, Nat.dvd_iff_mod_eq_zero]

/-- What a cycle has come to that was expected to tell so much, and then where it has led. -/
structure Told (interval : Nat) (expected : List Event) (after : Cpu) (told : List Event) :
    Prop where
  told_eq : told = expected ++ after.core.news interval
  observed : after.observed = true
  interval_eq : after.snapshotInterval = interval

theorem complete_tells (cpu : Cpu) (observed : cpu.observed = true)
    (running : cpu.status = .running) (target : Nat) (told : List Event) :
    (cpu.complete target).Tells (Told cpu.snapshotInterval told) told := by
  let after := { cpu with state := cpu.state.complete target }
  have news : after.core.news cpu.snapshotInterval =
      if 0 < after.snapshotInterval ∧ after.snapshotInterval ∣ after.state.cycles then
        [.snapshot after.state]
      else [] := by
    rw [Core.news, show after.core.status = .running from running]
    rfl
  show (if after.snapshotDue then after.publish (.snapshot after.state) else .done after).Tells _ _
  split
  next due =>
    rw [if_pos (snapshotDue_iff.mp due)] at news
    exact publish_tells after observed _ ⟨congrArg _ news.symm, observed, rfl⟩
  next early =>
    rw [if_neg (fun due => early (snapshotDue_iff.mpr due))] at news
    exact ⟨by rw [news, List.append_nil], observed, rfl⟩

theorem halt_tells (cpu : Cpu) (observed : cpu.observed = true) (told : List Event) :
    cpu.halt.Tells (Told cpu.snapshotInterval told) told := by
  let after := { cpu with status := .halted, state := cpu.state.halt }
  exact publish_tells after observed (.halted after.state) ⟨rfl, observed, rfl⟩

theorem fail_tells (cpu : Cpu) (observed : cpu.observed = true) (fault : Fault)
    (told : List Event) : (cpu.fail fault).Tells (Told cpu.snapshotInterval told) told := by
  let after := { cpu with status := .faulted fault }
  exact publish_tells after observed (.faulted fault after.state) ⟨rfl, observed, rfl⟩

/-- Whatever comes in answer to the request, it is one request, and none without a supplier. -/
theorem read_tells {post : UInt16 × Cpu → List Event → Prop} (cpu : Cpu)
    (observed : cpu.observed = true) {told : List Event}
    (h : ∀ value supplied,
      post (value, { cpu with supplied })
        (told ++ if cpu.supplied then [.inputRequested] else [])) :
    cpu.read.Tells post told := by
  unfold read
  split
  next supplied =>
    rw [if_pos supplied] at h
    apply Dialogue.tells_bind
    apply publish_tells cpu observed
    intro answer
    cases answer with
    | some value => exact h value cpu.supplied
    | none => exact h 0 false
  next unsupplied =>
    rw [if_neg unsupplied, List.append_nil] at h
    exact h 0 cpu.supplied

theorem perform_tells (cpu : Cpu) (observed : cpu.observed = true)
    (running : cpu.status = .running) {operation : Operation} {instruction : Instruction}
    (upcoming : cpu.upcoming? = some (operation, instruction)) (told : List Event) :
    (cpu.perform operation instruction).Tells
      (Told cpu.snapshotInterval (told ++ cpu.utters)) told := by
  by_cases shows : operation = .output
  · subst shows
    have utters : cpu.utters = [.output (cpu.state.register instruction.dest)] := by
      rw [Cpu.utters, upcoming]
    rw [utters]
    apply Dialogue.tells_bind
    rw [emit, if_pos observed]
    apply publish_tells cpu observed
    exact complete_tells cpu observed running _ _
  · by_cases reads : operation = .input
    · subst reads
      have utters : cpu.utters = if cpu.supplied then [.inputRequested] else [] := by
        rw [Cpu.utters, upcoming]
      rw [utters]
      apply Dialogue.tells_bind
      apply read_tells cpu observed
      intro value supplied
      exact complete_tells
        { cpu with supplied, state := cpu.state.setRegister instruction.dest value } observed
        running _ _
    · rw [utters_of_silent upcoming shows reads, List.append_nil]
      unfold perform
      dsimp only
      cases executed : Machine.execute operation instruction cpu.state with
      | error fault => exact fail_tells cpu observed fault told
      | ok effect =>
        cases effect with
        | proceed state target => exact complete_tells { cpu with state } observed running _ _
        | store address value =>
          exact complete_tells { cpu with state := cpu.state.setMemory address value } observed
            running _ _
        | halt => exact halt_tells { cpu with state := cpu.state.complete cpu.state.pc } observed _
        | output value => exact absurd (Machine.eq_of_operation? rfl executed) shows
        | input dest => exact absurd (Machine.eq_of_operation? rfl executed) reads

/-- A cycle tells what its instruction has to say, and then where it has led. -/
theorem step_tells (cpu : Cpu) (observed : cpu.observed = true) (going : ¬ cpu.status.isTerminal)
    (told : List Event) :
    cpu.step.Tells (Told cpu.snapshotInterval (told ++ cpu.utters)) told := by
  let started : Cpu := { cpu with status := .running }
  rw [step, if_neg going]
  dsimp only
  cases fetched : cpu.program[cpu.state.pc]? with
  | none =>
    rw [utters_of_none (upcoming?_of_pastEnd fetched), List.append_nil]
    exact halt_tells started observed told
  | some instruction =>
    dsimp only
    cases decoded : cpu.architecture.operation? instruction.opcode with
    | none =>
      rw [utters_of_none (upcoming?_of_unknown fetched decoded), List.append_nil]
      exact fail_tells started observed _ told
    | some operation =>
      exact perform_tells started observed rfl (upcoming?_of_operation fetched decoded) told

/-! ## Where a cycle leads -/

/-- What a cycle can come to, and whether it counts. -/
inductive Outcome (before after : Cpu) : Prop
  | goesOn (status : after.status = .running)
      (counted : after.state.cycles = before.state.cycles + 1)
  | stops (ended : after.EndedByHalt) (counted : after.state.cycles = before.state.cycles + 1)
  | runsOff (status : after.status = .halted) (other : ¬ after.EndedByHalt)
      (uncounted : after.state.cycles = before.state.cycles)
  | fails {fault : Fault} (status : after.status = .faulted fault)
      (uncounted : after.state.cycles = before.state.cycles)

theorem step_outcome {σ : Type} {cpu : Cpu} (going : ¬ cpu.status.isTerminal) (host : Host σ)
    (world : σ) : cpu.Outcome (cpu.step.run host world).1 := by
  obtain ⟨table, program⟩ := step_run_program host cpu world
  have core := step_run_core host cpu world
  have status := congrArg Core.status core
  have state := congrArg Core.state core
  generalize (cpu.step.run host world).1 = after at table program status state ⊢
  replace status : after.status = _ := status
  replace state : after.state = _ := state
  cases fetched : cpu.program[cpu.state.pc]? with
  | none =>
    rw [Core.cycle_of_pastEnd going fetched] at status state
    refine .runsOff status ?_ (by rw [state]; rfl)
    rintro ⟨-, ended⟩
    have outside : after.program[after.state.pc]? = none := by
      rw [program, state]
      exact fetched
    rw [upcoming?_of_pastEnd outside] at ended
    cases ended
  | some instruction =>
    cases decoded : cpu.architecture.operation? instruction.opcode with
    | none =>
      rw [Core.cycle_of_unknown going fetched decoded] at status state
      exact .fails status (congrArg MachineState.cycles state)
    | some operation =>
      rw [Core.cycle_of_operation going fetched decoded] at status state
      unfold Core.perform at status state
      cases executed : Machine.execute operation instruction cpu.core.state with
      | error fault =>
        rw [executed] at status state
        exact .fails status (congrArg MachineState.cycles state)
      | ok effect =>
        rw [executed] at status state
        obtain ⟨counted, running | ⟨rfl, halted, -, pc⟩⟩ :=
          Core.complete_kept executed ((cpu.valueRead? host world).getD 0)
        · exact .goesOn (status.trans running.1) (state ▸ counted)
        · -- Execution has stayed at the instruction, so it is still the one that comes next.
          refine .stops ⟨status.trans halted, ?_⟩ (state ▸ counted)
          have here : after.program[after.state.pc]? = some instruction := by
            rw [program, state, pc]
            exact fetched
          rw [upcoming?_of_operation here (table ▸ decoded)]
          rfl

/-! ## Runs -/

/-- Cycles from one processor to the other, which has stopped. -/
inductive Leads : Cpu → List (Cpu × Cpu) → Cpu → Prop
  | stopped {last : Cpu} (terminal : last.status.isTerminal) : Leads last [] last
  | cycle {cpu next last : Cpu} {passes : List (Cpu × Cpu)} (going : ¬ cpu.status.isTerminal)
      (outcome : cpu.Outcome next) (rest : Leads next passes last) :
      Leads cpu ((cpu, next) :: passes) last

/-- A run that is not interrupted goes on until the processor has stopped, and tells what there is
to tell about its cycles. -/
theorem loop_account {σ : Type} {host : Host σ} {interruptRequested : σ × List Event → Bool}
    {interval fuel : Nat} {cpu last : Cpu} {world world' : σ} {told events : List Event}
    (observed : cpu.observed = true) (interval_eq : cpu.snapshotInterval = interval)
    (returned : loop host.recording interruptRequested fuel cpu (world, told) =
      some (false, last, world', events)) :
    let passes := cpu.passes host.recording interruptRequested fuel (world, told)
    cpu.Leads passes last ∧ events = told ++ passes.flatMap (account interval) := by
  induction fuel generalizing cpu world told with
  | zero =>
    unfold loop at returned
    unfold passes
    split at returned
    next terminal =>
      cases returned
      rw [if_pos terminal]
      exact ⟨.stopped terminal, (List.append_nil _).symm⟩
    next =>
      split at returned
      · cases returned
      · cases returned
  | succ fuel ih =>
    unfold loop at returned
    unfold passes
    split at returned
    next terminal =>
      cases returned
      rw [if_pos terminal]
      exact ⟨.stopped terminal, (List.append_nil _).symm⟩
    next going =>
      split at returned
      next => cases returned
      next unasked =>
        rw [if_neg going, if_neg unasked]
        have tells := (cpu.step_tells observed going told).run host world
        have outcome := step_outcome going host.recording (world, told)
        generalize cpu.step.run host.recording (world, told) = left at returned tells outcome ⊢
        obtain ⟨next, world'', told'⟩ := left
        obtain ⟨told_eq, observed', interval_eq'⟩ := tells
        obtain ⟨leads, events_eq⟩ := ih observed' (interval_eq'.trans interval_eq) returned
        refine ⟨.cycle going outcome leads, ?_⟩
        replace told_eq : told' = told ++ account interval (cpu, next) := by
          rw [account, ← List.append_assoc, ← interval_eq]
          exact told_eq
        rw [events_eq, List.flatMap_cons, ← List.append_assoc]
        exact congrArg (· ++ _) told_eq

/-! ### The end of the account -/

theorem news_of_going {interval : Nat} {cpu : Cpu} (going : ¬ cpu.status.isTerminal) {event : Event}
    (member : event ∈ cpu.core.news interval) : event.isFinal = false := by
  unfold Core.news at member
  cases status : cpu.core.status with
  | ready =>
    rw [status] at member
    cases member
  | running =>
    rw [status] at member
    dsimp only at member
    split at member
    · cases List.mem_singleton.mp member
      rfl
    · cases member
  | halted => exact absurd (congrArg Status.isTerminal status) going
  | faulted fault => exact absurd (congrArg Status.isTerminal status) going

section

variable {cpu last : Cpu} {interval : Nat} {passes : List (Cpu × Cpu)}

theorem Leads.terminal (leads : cpu.Leads passes last) : last.status.isTerminal := by
  induction leads with
  | stopped terminal => exact terminal
  | cycle _ _ _ ih => exact ih

theorem Leads.of_terminal (leads : cpu.Leads passes last) (terminal : cpu.status.isTerminal) :
    passes = [] ∧ last = cpu := by
  cases leads with
  | stopped => exact ⟨rfl, rfl⟩
  | cycle going => exact absurd terminal going

/-- A cycle that leaves the processor running has completed an instruction. -/
theorem Leads.counted (leads : cpu.Leads passes last) {pass : Cpu × Cpu} (member : pass ∈ passes)
    (running : pass.2.status = .running) : pass.2.state.cycles = pass.1.state.cycles + 1 := by
  induction leads with
  | stopped => cases member
  | cycle _ outcome _ ih =>
    rcases List.mem_cons.mp member with rfl | later
    · cases outcome with
      | goesOn _ counted => exact counted
      | stops _ counted => exact counted
      | runsOff halted => cases running.symm.trans halted
      | fails faulted => cases running.symm.trans faulted
    · exact ih later

/-- What is told about the end comes last and once. -/
theorem Leads.final (interval : Nat) (leads : cpu.Leads passes last)
    (going : ¬ cpu.status.isTerminal) :
    ∃ earlier, passes.flatMap (account interval) = earlier ++ last.core.news interval ∧
      ∀ event ∈ earlier, event.isFinal = false := by
  induction leads with
  | stopped terminal => exact absurd terminal going
  | @cycle cpu next last passes _ _ rest ih =>
    rw [List.flatMap_cons]
    by_cases terminal : next.status.isTerminal
    · obtain ⟨rfl, rfl⟩ := rest.of_terminal terminal
      exact ⟨cpu.utters, List.append_nil _, fun _ => isFinal_of_mem_utters⟩
    · obtain ⟨earlier, events_eq, ordinary⟩ := ih terminal
      refine ⟨account interval (cpu, next) ++ earlier, ?_, ?_⟩
      · rw [events_eq, List.append_assoc]
      · intro event member
        rcases List.mem_append.mp member with here | later
        · rcases List.mem_append.mp here with uttered | told
          · exact isFinal_of_mem_utters uttered
          · exact news_of_going terminal told
        · exact ordinary event later

/-! ### Copies of the state -/

theorem filterMap_news_of_running (running : cpu.status = .running)
    (counted : 0 < cpu.state.cycles) :
    (cpu.core.news interval).filterMap Event.snapshotCycles? =
      if interval ∣ cpu.state.cycles then [cpu.state.cycles] else [] := by
  rw [Core.news, show cpu.core.status = .running from running]
  show List.filterMap _ (if 0 < interval ∧ interval ∣ cpu.state.cycles then _ else _) = _
  by_cases divides : interval ∣ cpu.state.cycles
  · rw [if_pos divides, if_pos ⟨Nat.pos_of_dvd_of_pos divides counted, divides⟩]
    rfl
  · rw [if_neg divides, if_neg (fun due => divides due.2)]
    rfl

theorem filterMap_news_of_terminal (terminal : cpu.status.isTerminal) :
    (cpu.core.news interval).filterMap Event.snapshotCycles? = [] := by
  unfold Core.news
  cases status : cpu.core.status with
  | ready => rfl
  | running => cases terminal.symm.trans (congrArg Status.isTerminal status)
  | halted => rfl
  | faulted fault => rfl

/-- The counts with a copy of the state among the next ones that are completed. -/
def shownCounts (interval : Nat) (cpu last : Cpu) (completed : Nat) : List Nat :=
  (List.range' (cpu.state.cycles + 1) completed).filter fun count =>
    interval ∣ count ∧ ¬ (last.EndedByHalt ∧ count = last.state.cycles)

/-- Every number is counted, and there is a copy at each one in its turn, but not behind `HLT`. -/
theorem Leads.snapshots (interval : Nat) (leads : cpu.Leads passes last) :
    ∃ completed, last.state.cycles = cpu.state.cycles + completed ∧
      (¬ cpu.status.isTerminal → last.EndedByHalt → 0 < completed) ∧
      (passes.flatMap (account interval)).filterMap Event.snapshotCycles? =
        shownCounts interval cpu last completed := by
  induction leads with
  | stopped terminal => exact ⟨0, rfl, fun going => absurd terminal going, rfl⟩
  | @cycle cpu next last passes _ outcome rest ih =>
    rw [List.flatMap_cons, List.filterMap_append, account, List.filterMap_append, filterMap_utters,
      List.nil_append]
    cases outcome with
    | goesOn running counted =>
      obtain ⟨completed, total, ended, shown⟩ := ih
      have going : ¬ next.status.isTerminal := by
        rw [running]
        exact Bool.false_ne_true
      refine ⟨completed + 1, by omega, fun _ _ => Nat.succ_pos _, ?_⟩
      -- The instruction that has been completed here is not the last one if the last one is `HLT`.
      have other : ¬ (last.EndedByHalt ∧ next.state.cycles = last.state.cycles) := by
        rintro ⟨byHalt, same⟩
        have := ended going byHalt
        omega
      have counted' : 0 < next.state.cycles := by omega
      rw [filterMap_news_of_running running counted', shown, shownCounts, shownCounts, ← counted,
        List.range'_succ, List.filter_cons]
      simp only [other, not_false_eq_true, and_true, decide_eq_true_eq]
      split
      · rfl
      · rfl
    | stops byHalt counted =>
      have terminal : next.status.isTerminal := by
        rw [byHalt.1]
        rfl
      obtain ⟨rfl, rfl⟩ := rest.of_terminal terminal
      refine ⟨1, counted, fun _ _ => Nat.one_pos, ?_⟩
      rw [filterMap_news_of_terminal terminal, shownCounts, ← counted]
      simp [byHalt]
    | runsOff halted _ uncounted =>
      have terminal : next.status.isTerminal := by
        rw [halted]
        rfl
      obtain ⟨rfl, rfl⟩ := rest.of_terminal terminal
      refine ⟨0, uncounted, ?_, ?_⟩
      · intro _ byHalt
        contradiction
      · rw [filterMap_news_of_terminal terminal]
        rfl
    | fails faulted uncounted =>
      have terminal : next.status.isTerminal := by
        rw [faulted]
        rfl
      obtain ⟨rfl, rfl⟩ := rest.of_terminal terminal
      refine ⟨0, uncounted, ?_, ?_⟩
      · rintro _ ⟨halted, -⟩
        cases halted.symm.trans faulted
      · rw [filterMap_news_of_terminal terminal]
        rfl

end

/-! ### Whole runs -/

theorem news_of_terminal {cpu : Cpu} (terminal : cpu.status.isTerminal) (interval : Nat) :
    (cpu.status = .halted ∧ cpu.core.news interval = [.halted cpu.state]) ∨
      ∃ fault, cpu.status = .faulted fault ∧
        cpu.core.news interval = [.faulted fault cpu.state] := by
  unfold Core.news
  cases status : cpu.status with
  | ready => cases terminal.symm.trans (congrArg Status.isTerminal status)
  | running => cases terminal.symm.trans (congrArg Status.isTerminal status)
  | halted =>
    rw [show cpu.core.status = .halted from status]
    exact .inl ⟨rfl, rfl⟩
  | faulted fault =>
    rw [show cpu.core.status = .faulted fault from status]
    exact .inr ⟨fault, rfl, rfl⟩

/-- What an observer who is there from the beginning and stays is told about a run that stops
without an interrupt, whatever values come from whomever: what there is to tell about each of its
cycles in turn, where the cycles that leave the processor running have completed an instruction.
The last event, and no other, is about the end, and carries the status and state that are left.  The
copies of the state are made whenever the count of completed instructions has become a multiple of
the interval, except behind `HLT`. -/
theorem run_account {σ : Type} (architecture : Architecture) (config : Config) (program : Program)
    (supplied : Bool) (host : Host σ) (interruptRequested : σ × List Event → Bool) (fuel : Nat)
    (world world' : σ) (last : Cpu) (events : List Event)
    (returned :
      ((boot architecture config program).attached true supplied).run host.recording
        interruptRequested fuel (world, []) = some (false, last, world', events)) :
    let cpu := (boot architecture config program).attached true supplied
    let interval := config.snapshotInterval
    let passes := cpu.passesOfRun host.recording interruptRequested fuel (world, [])
    events = passes.flatMap (account interval) ∧
      (∀ pass ∈ passes, pass.2.status = .running →
        pass.2.state.cycles = pass.1.state.cycles + 1) ∧
      (∃ earlier, (∀ event ∈ earlier, event.isFinal = false) ∧
        ((last.status = .halted ∧ events = earlier ++ [.halted last.state]) ∨
          ∃ fault, last.status = .faulted fault ∧
            events = earlier ++ [.faulted fault last.state])) ∧
      events.filterMap Event.snapshotCycles? =
        (List.range' 1 last.state.cycles).filter (fun count =>
          interval ∣ count ∧ ¬ (last.EndedByHalt ∧ count = last.state.cycles)) ∧
      last.observed = false := by
  intro cpu interval passes
  let started : Cpu := { cpu with status := .running }
  have looped : (loop host.recording interruptRequested fuel started
      (host.note (.running program.size) world, [])).map (fun (interrupted, cpu, world) =>
        (interrupted, { cpu with observed := false, supplied := false }, world)) =
      some (false, last, world', events) := returned
  obtain ⟨⟨interrupted, stopped, world'', events'⟩, stops, left⟩ := Option.map_eq_some_iff.mp looped
  cases left
  obtain ⟨leads, events_eq⟩ := loop_account rfl rfl stops
  rw [List.nil_append] at events_eq
  refine ⟨events_eq, fun pass => leads.counted, ?_, ?_, rfl⟩
  · obtain ⟨earlier, told, ordinary⟩ := leads.final interval Bool.false_ne_true
    refine ⟨earlier, ordinary, ?_⟩
    rcases news_of_terminal leads.terminal interval with ⟨halted, news⟩ | ⟨fault, faulted, news⟩
    · exact .inl ⟨halted, (events_eq.trans told).trans (congrArg _ news)⟩
    · exact .inr ⟨fault, faulted, (events_eq.trans told).trans (congrArg _ news)⟩
  · obtain ⟨completed, total, -, shown⟩ := leads.snapshots interval
    obtain rfl : stopped.state.cycles = completed := total.trans (Nat.zero_add completed)
    exact (congrArg _ events_eq).trans shown

/-- A program that reads a value, shows it and halts, with a copy of the state between any two
instructions. -/
theorem run_account_echo :
    let program : Program := #[.nullary 0x60, .nullary 0x61, .nullary 0x01]
    let cpu := (boot .standard ⟨0, 1⟩ program).attached true true
    ∃ last count events,
      cpu.run (Host.answering fun _ => 7).recording (fun _ => false) 3 (0, []) =
          some (false, last, count, events) ∧
        last.EndedByHalt ∧ events.filterMap Event.snapshotCycles? = [1, 2] := by
  intro program cpu
  have ended : (cpu.run (Host.answering fun _ => 7).recording (fun _ => false) 3 (0, [])).map
      (fun left => (left.1, decide left.2.1.EndedByHalt, left.2.1.state.cycles)) =
        some (false, true, 3) := by
    decide +kernel
  obtain ⟨⟨interrupted, last, count, events⟩, returned, left⟩ := Option.map_eq_some_iff.mp ended
  obtain ⟨rfl, byHalt, counted⟩ : interrupted = false ∧ decide last.EndedByHalt = true ∧
      last.state.cycles = 3 := by
    simpa using left
  refine ⟨last, count, events, returned, of_decide_eq_true byHalt, ?_⟩
  have shown := (run_account .standard ⟨0, 1⟩ program true (.answering fun _ => 7)
    (fun _ => false) 3 0 count last events returned).2.2.2.1
  rw [shown, counted]
  simp only [of_decide_eq_true byHalt, Nat.one_dvd, true_and]
  decide

end Cpu
end Minicomputer
