import Mathlib.Data.Nat.Find
import Minicomputer.Proofs.Channel
import Minicomputer.Proofs.Machine.Observation
import Minicomputer.Proofs.Machine.Trajectory

/-!
# Stepping, running and interrupting

A session that nobody attends to has one trajectory: the states after so many single steps.  Here
steps, runs and requests are mixed.  A request may be there when a run begins, or somebody may raise
it while the run goes on; the processor sees it at the next boundary between two cycles.

* `Session.runWith` -- a run during which somebody may raise a request;
* `Session.call?`, `Session.Reaches` -- the calls, and what a sequence of them comes to;
* `Session.OnTrack` -- the position on the trajectory, which every call keeps;
* `calls_follow_one_trajectory` -- the result.

The dump that an interrupted run hands over has to have room.  A run that finds no room does not
come back, so nothing is said about it.
-/

namespace Minicomputer

/-- Nobody has left a core dump there, and somebody takes the next one. -/
def Interrupt.HasRoom (interrupt : Interrupt) : Prop :=
  interrupt.dumps.receiving = true ∧ interrupt.dumps.queue.toList = []

namespace Session

/-! ## Runs during which a request is raised -/

/-- Whether a request is seen at a boundary: one that has been there before the run, or one that
somebody raises at that time. -/
def seesRequest (session : Session) (raised : Connections → Bool) (connections : Connections) :
    Bool :=
  session.interrupt.any fun interrupt => interrupt.requested || raised connections

/-- The end of a run.  If it is interrupted the core dump is handed over first. -/
def finish (session : Session) : Bool → Option (RunSummary × Session)
  | false =>
    some (session.cpu.summary false,
      { session with connections := session.connections.close })
  | true =>
    let noted : Session :=
      { session.requestInterrupt with
        connections := session.connections.note (.interrupted session.cpu.state.pc) }
    noted.deliverDump.map fun session =>
      (session.cpu.summary true, { session with connections := session.connections.close })

/-- A run of at most that many cycles during which somebody may raise a request. -/
def runWith (session : Session) (raised : Connections → Bool) (fuel : Nat) :
    Option (RunSummary × Session) :=
  (Cpu.run Connections.host (session.seesRequest raised) fuel session.cpu
    session.connections).bind fun (interrupted, cpu, connections) =>
      ({ session with cpu, connections } : Session).finish interrupted

/-- The session with its processor started. -/
def begun (session : Session) : Session :=
  match session.cpu.start.run Connections.host session.connections with
  | (cpu, connections) => { session with cpu, connections }

/-- How many cycles a run executes. -/
def cyclesOfRun (session : Session) (raised : Connections → Bool) (fuel : Nat) : Nat :=
  (session.begun.cpu.visited Connections.host (session.seesRequest raised) fuel
    session.begun.connections).length

theorem steps_eq (session : Session) (n : Nat) :
    session.steps n =
      { session with
        cpu := (session.cpu.cycles Connections.host n session.connections).1
        connections := (session.cpu.cycles Connections.host n session.connections).2 } := by
  induction n generalizing session with
  | zero => rfl
  | succ n ih => exact ih session.step

/-- The session at the boundary where a run ends; the processor has let go of whoever was
attached. -/
def boundary (session : Session) (n : Nat) : Session :=
  { session.begun.steps n with cpu := (session.begun.steps n).cpu.detached }

variable {session after : Session} {raised : Connections → Bool} {fuel : Nat}
  {summary : RunSummary} {interrupted : Bool}

theorem runWith_eq_some_iff :
    session.runWith raised fuel = some (summary, after) ↔
      ∃ n ≤ fuel, ∃ interrupted,
        Cpu.LoopsFor Connections.host (session.seesRequest raised) session.begun.cpu
            session.begun.connections n interrupted ∧
          (session.boundary n).finish interrupted = some (summary, after) := by
  have boundary_eq (n : Nat) (last : Cpu) (world : Connections)
      (ended : session.begun.cpu.cycles Connections.host n session.begun.connections =
        (last, world)) :
      session.boundary n = { session with cpu := last.detached, connections := world } := by
    rw [boundary, steps_eq, ended]
    rfl
  unfold runWith
  rw [Option.bind_eq_some_iff]
  constructor
  · rintro ⟨⟨interrupted, cpu, world⟩, returned, finished⟩
    obtain ⟨⟨_, last, _⟩, looped, same⟩ := Option.map_eq_some_iff.mp returned
    cases same
    obtain ⟨n, within, loops, ended⟩ := Cpu.loop_eq_some_iff.mp looped
    refine ⟨n, within, interrupted, loops, ?_⟩
    rw [boundary_eq n last world ended]
    exact finished
  · rintro ⟨n, within, interrupted, loops, finished⟩
    rcases ended : session.begun.cpu.cycles Connections.host n session.begun.connections with
      ⟨last, world⟩
    rw [boundary_eq n last world ended] at finished
    refine ⟨(interrupted, last.detached, world), ?_, finished⟩
    exact Option.map_eq_some_iff.mpr
      ⟨(interrupted, last, world), Cpu.loop_eq_some_iff.mpr ⟨n, within, loops, ended⟩, rfl⟩

theorem cyclesOfRun_eq {n : Nat}
    (loops : Cpu.LoopsFor Connections.host (session.seesRequest raised) session.begun.cpu
      session.begun.connections n interrupted) (within : n ≤ fuel) :
    session.cyclesOfRun raised fuel = n :=
  Cpu.length_visited loops within

theorem begun_cpu (session : Session) :
    session.begun.cpu = session.cpu.withCore session.cpu.core.begun := by
  unfold begun Cpu.start Core.begun
  by_cases ready : session.cpu.status = .ready
  · rw [if_pos ready, if_pos (show session.cpu.core.status = .ready from ready)]
    rfl
  · rw [if_neg ready, if_neg (show session.cpu.core.status ≠ .ready from ready)]
    rfl

/-! ## The end of a run -/

/-- Every interrupt has room for one core dump, taken or not. -/
def OneSlot (session : Session) : Prop :=
  ∀ interrupt, session.interrupt = some interrupt → interrupt.dumps.capacity = some 1

theorem finish_false (session : Session) :
    session.finish false =
      some (session.cpu.summary false,
        { session with connections := session.connections.close }) :=
  rfl

theorem OneSlot.requestInterrupt (oneSlot : session.OneSlot) : session.requestInterrupt.OneSlot := by
  intro interrupt attached
  obtain ⟨before, attached', rfl⟩ := Option.map_eq_some_iff.mp attached
  exact oneSlot before attached'

theorem boundary_interrupt (session : Session) (n : Nat) :
    (session.boundary n).interrupt = session.interrupt := by
  rw [boundary, steps_eq]
  rfl

theorem OneSlot.boundary (oneSlot : session.OneSlot) (n : Nat) :
    (session.boundary n).OneSlot := by
  intro interrupt attached
  rw [boundary_interrupt] at attached
  exact oneSlot interrupt attached

theorem of_deliverDump (delivered : session.deliverDump = some after) :
    after.cpu = session.cpu ∧ (session.OneSlot → after.OneSlot) := by
  unfold deliverDump at delivered
  split at delivered
  next =>
    cases delivered
    exact ⟨rfl, id⟩
  next interrupt attached =>
    split at delivered
    next dumps sent =>
      cases delivered
      refine ⟨rfl, ?_⟩
      intro oneSlot changed same
      cases same
      obtain ⟨-, rfl⟩ := Channel.of_accepted sent
      exact oneSlot interrupt attached
    next =>
      cases delivered
      exact ⟨rfl, id⟩
    next => cases delivered

/-- A run that comes back leaves the processor at the boundary where it has ended. -/
theorem of_finish (finished : session.finish interrupted = some (summary, after)) :
    summary = session.cpu.summary interrupted ∧ after.cpu = session.cpu ∧
      (session.OneSlot → after.OneSlot) := by
  cases interrupted with
  | false =>
    cases finished
    exact ⟨rfl, rfl, id⟩
  | true =>
    obtain ⟨delivered, handed, same⟩ := Option.map_eq_some_iff.mp finished
    cases same
    obtain ⟨cpu, oneSlot⟩ := of_deliverDump handed
    exact ⟨congrArg (Cpu.summary · true) cpu, cpu, fun before => oneSlot before.requestInterrupt⟩

theorem takeDump_of_waiting {interrupt : Interrupt} {dump : String}
    (attached : session.interrupt = some interrupt)
    (waiting : interrupt.dumps.queue.toList = [dump]) : session.takeDump.1 = some dump := by
  cases popped : interrupt.dumps.queue.pop? with
  | none => cases waiting.symm.trans (Queue.pop?_eq_none_iff.mp popped)
  | some pair =>
    obtain ⟨first, rest⟩ := pair
    obtain ⟨rfl, -⟩ := List.cons.inj (waiting.symm.trans (Queue.toList_of_pop? popped))
    rw [takeDump, attached]
    dsimp only
    rw [Channel.receive_of_pop popped]

/-- With room for the dump an interrupted run comes back, and the dump is there to be taken. -/
theorem exists_finish {interrupt : Interrupt} (attached : session.interrupt = some interrupt)
    (room : interrupt.HasRoom) (oneSlot : session.OneSlot) :
    ∃ after, session.finish true = some (session.cpu.summary true, after) ∧
      after.takeDump.1 = some session.cpu.dumpCore.text := by
  obtain ⟨receiving, empty⟩ := room
  have notFull : interrupt.dumps.isFull = false := by
    have size : interrupt.dumps.queue.size = 0 := by
      rw [← Queue.length_toList, empty, List.length_nil]
    simp [Channel.isFull, oneSlot interrupt attached, size]
  let dump := session.cpu.dumpCore.text
  let dumps : Channel String :=
    { interrupt.dumps with queue := interrupt.dumps.queue.push dump }
  have sent : interrupt.dumps.send dump = .accepted dumps :=
    Channel.send_of_room receiving notFull
  let noted : Session :=
    { session with
      connections := session.connections.note (.interrupted session.cpu.state.pc)
      interrupt := some { interrupt with requested := true } }
  have handed : noted.deliverDump =
      some { noted with interrupt := some { requested := true, dumps } } := by
    have sent' : interrupt.dumps.send session.cpu.dumpCore.text = .accepted dumps := sent
    unfold Session.deliverDump
    dsimp only [noted]
    rw [sent']
  have finished : session.finish true = noted.deliverDump.map fun session =>
      (session.cpu.summary true,
        { session with connections := session.connections.close }) := by
    rw [finish, requestInterrupt, attached]
    rfl
  rw [handed] at finished
  refine ⟨_, finished, takeDump_of_waiting rfl ?_⟩
  rw [Queue.toList_push, empty, List.nil_append]

/-- Without anybody who raises a request, this is the run of a session. -/
theorem run_eq_runWith (session : Session) :
    session.run = session.runWith (fun _ => false) Cpu.patience := by
  obtain ⟨cpu, connections, interrupt⟩ := session
  have sees : seesRequest ⟨cpu, connections, interrupt⟩ (fun _ => false) =
      fun _ => interruptRequested ⟨cpu, connections, interrupt⟩ := by
    funext world
    simp [seesRequest, interruptRequested]
  unfold run runWith
  rw [sees]
  dsimp only
  cases returned : Cpu.run Connections.host
      (fun _ => interruptRequested ⟨cpu, connections, interrupt⟩) Cpu.patience cpu connections with
  | none => rfl
  | some ended =>
    obtain ⟨interrupted, last, world⟩ := ended
    cases interrupted with
    | false => rfl
    | true =>
      obtain ⟨⟨_, _, _⟩, looped, same⟩ := Option.map_eq_some_iff.mp returned
      cases same
      obtain ⟨n, -, loops, -⟩ := Cpu.loop_eq_some_iff.mp looped
      -- The request was there before, so raising it once more changes nothing.
      have requested := (loops.asked rfl).2
      cases interrupt with
      | none => cases requested
      | some interrupt =>
        obtain ⟨isRequested, dumps⟩ := interrupt
        obtain rfl : isRequested = true := requested
        rfl

theorem takeDump_cpu : session.takeDump.2.cpu = session.cpu := by
  unfold takeDump
  split
  next => rfl
  next =>
    split
    next => rfl
    next => rfl

theorem OneSlot.takeDump (oneSlot : session.OneSlot) : session.takeDump.2.OneSlot := by
  unfold Session.takeDump
  split
  next => exact oneSlot
  next interrupt attached =>
    split
    next received =>
      intro emptied same
      cases same
      obtain ⟨-, rest⟩ := Channel.of_message received
      rw [rest]
      exact oneSlot interrupt attached
    next => exact oneSlot

/-! ## Calls -/

/-- Something that is done with a session that nobody attends to. -/
inductive Call where
  | step
  /-- A run of at most that many cycles, and when a request is raised during it. -/
  | run (raised : Connections → Bool) (fuel : Nat)
  | dumpCore
  | snapshot
  | attachInterrupt
  | requestInterrupt
  | takeDump
  | releaseInterrupt

/-- How many cycles a call executes and what it leaves behind, if it comes back. -/
def call? (session : Session) : Call → Option (Nat × Session)
  | .step => some (if session.cpu.status.isTerminal then 0 else 1, session.step)
  | .run raised fuel =>
    (session.runWith raised fuel).map fun (_, after) => (session.cyclesOfRun raised fuel, after)
  | .dumpCore | .snapshot => some (0, session)
  | .attachInterrupt => some (0, session.attachInterrupt)
  | .requestInterrupt => some (0, session.requestInterrupt)
  | .takeDump => some (0, session.takeDump.2)
  | .releaseInterrupt => some (0, session.releaseInterrupt)

/-- What a sequence of calls on the first session has come to, with so many cycles executed. -/
inductive Reaches (first : Session) : Nat → Session → Prop
  | start : Reaches first 0 first
  | call {k n : Nat} {here next : Session} (reached : Reaches first k here) (call : Call)
      (did : here.call? call = some (n, next)) : Reaches first (k + n) next

/-! ## The position on the trajectory -/

/-- The session has the processor it began with, as it is after so many cycles.  It may have been
started without having executed anything. -/
structure OnTrack (origin : Cpu) (k : Nat) (session : Session) : Prop where
  cpu_eq : session.cpu = origin.withCore session.cpu.core
  begun_eq : session.cpu.core.begun =
    origin.core.begun.alone origin.architecture origin.program k
  oneSlot : session.OneSlot

variable {origin : Cpu} {k : Nat}

namespace OnTrack

theorem architecture_eq (onTrack : OnTrack origin k session) :
    session.cpu.architecture = origin.architecture := by
  have same := congrArg Cpu.architecture onTrack.cpu_eq
  exact same

theorem program_eq (onTrack : OnTrack origin k session) :
    session.cpu.program = origin.program := by
  have same := congrArg Cpu.program onTrack.cpu_eq
  exact same

theorem unattended (onTrack : OnTrack origin k session) (alone : origin.Unattended) :
    session.cpu.Unattended := by
  rw [onTrack.cpu_eq]
  exact alone.withCore _

/-- So many cycles further. -/
theorem advance (onTrack : OnTrack origin k session) {n : Nat} {after : Session} {core : Core}
    (cpu_eq : after.cpu = session.cpu.withCore core)
    (begun_eq : core.begun = session.cpu.core.begun.alone origin.architecture origin.program n)
    (oneSlot : after.OneSlot) : OnTrack origin (k + n) after where
  cpu_eq := by
    rw [cpu_eq, onTrack.cpu_eq]
    rfl
  begun_eq := by
    rw [cpu_eq]
    show core.begun = _
    rw [begun_eq, onTrack.begun_eq, Core.alone_add]
  oneSlot := oneSlot

theorem step (onTrack : OnTrack origin k session) (alone : origin.Unattended) :
    OnTrack origin (k + if session.cpu.status.isTerminal then 0 else 1) session.step := by
  have stepped : session.step.cpu = session.cpu.withCore
      (session.cpu.core.cycle session.cpu.architecture session.cpu.program 0) :=
    Cpu.step_of_unattended Connections.host session.connections (onTrack.unattended alone)
  refine onTrack.advance stepped ?_ onTrack.oneSlot
  rw [onTrack.architecture_eq, onTrack.program_eq]
  by_cases terminal : session.cpu.status.isTerminal
  · rw [if_pos terminal, Core.cycle_of_terminal terminal]
    rfl
  · rw [if_neg terminal, Core.alone, Core.alone, Core.cycle_begun,
      Core.begun_of_ne_ready (Core.status_cycle_ne_ready 0)]

/-- What the processor of the session has come to after so many cycles of a run. -/
theorem core_cycles (onTrack : OnTrack origin k session) (alone : origin.Unattended) (n : Nat) :
    (session.begun.cpu.cycles Connections.host n session.begun.connections).1 =
      session.cpu.withCore
        (origin.core.begun.alone origin.architecture origin.program (k + n)) := by
  have gone : session.begun.cpu.Unattended := by
    rw [begun_cpu]
    exact (onTrack.unattended alone).withCore _
  rw [Cpu.cycles_of_unattended _ _ gone, begun_cpu, Core.alone_add, ← onTrack.begun_eq,
    ← onTrack.architecture_eq, ← onTrack.program_eq]
  rfl

theorem boundary_cpu (onTrack : OnTrack origin k session) (alone : origin.Unattended) (n : Nat) :
    (session.boundary n).cpu =
      session.cpu.withCore
        (origin.core.begun.alone origin.architecture origin.program (k + n)) := by
  have cycles := onTrack.core_cycles alone n
  have gone := (onTrack.unattended alone).withCore
    (origin.core.begun.alone origin.architecture origin.program (k + n))
  calc (session.boundary n).cpu
      = (session.begun.cpu.cycles Connections.host n session.begun.connections).1.detached := by
        rw [boundary, steps_eq]
    _ = (session.cpu.withCore
          (origin.core.begun.alone origin.architecture origin.program (k + n))).detached := by
        rw [cycles]
    _ = _ := gone.detached_eq

/-- What a run that comes back has executed, and where it ends. -/
theorem run (onTrack : OnTrack origin k session) (alone : origin.Unattended)
    (returned : session.runWith raised fuel = some (summary, after)) :
    let n := session.cyclesOfRun raised fuel
    OnTrack origin (k + n) after ∧
      after.cpu.core = origin.core.begun.alone origin.architecture origin.program (k + n) ∧
      Cpu.LoopsFor Connections.host (session.seesRequest raised) session.begun.cpu
        session.begun.connections n summary.interrupted ∧
      (session.boundary n).finish summary.interrupted = some (summary, after) := by
  intro n
  obtain ⟨n', within, interrupted, loops, finished⟩ := runWith_eq_some_iff.mp returned
  obtain rfl : n = n' := cyclesOfRun_eq loops within
  obtain ⟨rfl, cpu, oneSlot⟩ := of_finish finished
  have cpu' := cpu.trans (onTrack.boundary_cpu alone n)
  have kept := oneSlot (onTrack.oneSlot.boundary n)
  refine ⟨onTrack.advance cpu' ?_ kept, congrArg Cpu.core cpu', loops, finished⟩
  -- From there on the processor is not ready any more, so it has been started already.
  rw [onTrack.begun_eq, ← Core.alone_add, Core.begun_alone,
    Core.begun_of_ne_ready Core.status_begun_ne_ready]

theorem call (onTrack : OnTrack origin k session) (alone : origin.Unattended) {call : Call} {n : Nat}
    (did : session.call? call = some (n, after)) : OnTrack origin (k + n) after := by
  have unmoved {next : Session} (cpu : next.cpu = session.cpu) (oneSlot : next.OneSlot) :
      OnTrack origin (k + 0) next :=
    onTrack.advance (cpu.trans rfl) rfl oneSlot
  cases call with
  | step =>
    cases did
    exact onTrack.step alone
  | run raised fuel =>
    obtain ⟨⟨summary, next⟩, returned, same⟩ := Option.map_eq_some_iff.mp did
    cases same
    exact (onTrack.run alone returned).1
  | dumpCore | snapshot =>
    cases did
    exact onTrack
  | attachInterrupt =>
    cases did
    refine unmoved rfl ?_
    intro interrupt attached
    cases attached
    rfl
  | requestInterrupt =>
    cases did
    exact unmoved rfl onTrack.oneSlot.requestInterrupt
  | takeDump =>
    cases did
    exact unmoved takeDump_cpu onTrack.oneSlot.takeDump
  | releaseInterrupt =>
    cases did
    refine unmoved rfl ?_
    intro interrupt attached
    obtain ⟨before, attached', rfl⟩ := Option.map_eq_some_iff.mp attached
    exact onTrack.oneSlot before attached'

theorem status_cycles (onTrack : OnTrack origin k session) (alone : origin.Unattended) (n : Nat) :
    (session.begun.cpu.cycles Connections.host n session.begun.connections).1.status =
      (origin.core.begun.alone origin.architecture origin.program (k + n)).status :=
  congrArg Cpu.status (onTrack.core_cycles alone n)

/-- A run of a processor that has stopped comes back at once. -/
theorem run_of_terminal (onTrack : OnTrack origin k session) (alone : origin.Unattended)
    (terminal : session.cpu.status.isTerminal) (raised : Connections → Bool) (fuel : Nat) :
    ∃ after, session.runWith raised fuel = some (after.cpu.summary false, after) ∧
      after.cpu.core = session.cpu.core := by
  have begun : session.begun.cpu.status.isTerminal := by
    rw [begun_cpu]
    exact Core.isTerminal_begun.trans terminal
  have loops : Cpu.LoopsFor Connections.host (session.seesRequest raised) session.begun.cpu
      session.begun.connections 0 false :=
    (Cpu.loopsFor_iff_of_terminal begun).mpr ⟨rfl, rfl⟩
  have returned := runWith_eq_some_iff.mpr
    ⟨0, Nat.zero_le fuel, false, loops, finish_false (session.boundary 0)⟩
  refine ⟨{ session.boundary 0 with connections := (session.boundary 0).connections.close },
    returned, ?_⟩
  show (session.boundary 0).cpu.core = session.cpu.core
  rw [onTrack.boundary_cpu alone, Nat.add_zero, ← onTrack.begun_eq,
    Core.begun_of_ne_ready (Core.ne_ready_of_isTerminal terminal)]
  rfl

/-- A run that finds a request at once and has room for the dump comes back, and nothing has been
executed. -/
theorem run_of_requested (onTrack : OnTrack origin k session)
    (going : ¬ session.cpu.status.isTerminal) {interrupt : Interrupt}
    (attached : session.interrupt = some interrupt) (requested : interrupt.requested = true)
    (room : interrupt.HasRoom) (raised : Connections → Bool) (fuel : Nat) :
    ∃ after, session.runWith raised fuel = some (after.cpu.summary true, after) ∧
      session.cyclesOfRun raised fuel = 0 := by
  have begun : ¬ session.begun.cpu.status.isTerminal := by
    rw [begun_cpu]
    exact Core.isTerminal_begun.trans_ne going
  have asked : session.seesRequest raised session.begun.connections = true := by
    simp [seesRequest, attached, requested]
  have loops : Cpu.LoopsFor Connections.host (session.seesRequest raised) session.begun.cpu
      session.begun.connections 0 true :=
    (Cpu.loopsFor_iff_of_asked begun asked).mpr ⟨rfl, rfl⟩
  have attached' : (session.boundary 0).interrupt = some interrupt := attached
  obtain ⟨after, finished, -⟩ := exists_finish attached' room (onTrack.oneSlot.boundary 0)
  have returned := runWith_eq_some_iff.mpr ⟨0, Nat.zero_le fuel, true, loops, finished⟩
  refine ⟨after, ?_, cyclesOfRun_eq loops (Nat.zero_le fuel)⟩
  rw [(of_finish finished).2.1]
  exact returned

/-- An interrupted run leaves the processor running, at the first boundary at which the request is
seen. -/
theorem run_interrupted (onTrack : OnTrack origin k session) (alone : origin.Unattended)
    (returned : session.runWith raised fuel = some (summary, after))
    (interrupted : summary.interrupted = true) :
    after.cpu.status = .running ∧
      (∀ i ≤ session.cyclesOfRun raised fuel,
        session.seesRequest raised (session.begun.steps i).connections =
          decide (i = session.cyclesOfRun raised fuel)) ∧
      ∀ interrupt, session.interrupt = some interrupt → interrupt.HasRoom →
        after.takeDump.1 = some after.cpu.dumpCore.text := by
  obtain ⟨-, core, loops, finished⟩ := onTrack.run alone returned
  obtain ⟨going, asked⟩ := loops.asked interrupted
  generalize session.cyclesOfRun raised fuel = n at core loops finished going asked ⊢
  refine ⟨?_, ?_, ?_⟩
  · rw [onTrack.status_cycles alone] at going
    have status : after.cpu.status = _ := congrArg Core.status core
    rw [status]
    exact Core.running_of_going Core.status_alone_begun_ne_ready going
  · intro i within
    rw [steps_eq]
    dsimp only
    by_cases last : i = n
    · rw [last, asked, decide_eq_true rfl]
    · rw [loops.unasked i (Nat.lt_of_le_of_ne within last), decide_eq_false last]
  · intro interrupt attached room
    have attached' : (session.boundary n).interrupt = some interrupt :=
      (session.boundary_interrupt n).trans attached
    rw [interrupted] at finished
    obtain ⟨-, cpu, -⟩ := of_finish finished
    obtain ⟨after', finished', dump⟩ := exists_finish attached' room (onTrack.oneSlot.boundary n)
    -- There is room, so the run has come back with the dump handed over.
    cases finished.symm.trans finished'
    rw [dump, cpu]

/-- Without a request the run goes on to the end of the trajectory, if it has one. -/
theorem exists_run (onTrack : OnTrack origin k session) (alone : origin.Unattended) {m : Nat}
    (terminal :
      (origin.core.begun.alone origin.architecture origin.program m).status.isTerminal)
    (unasked : ∀ connections, session.seesRequest raised connections = false) :
    ∃ fuel summary after, session.runWith raised fuel = some (summary, after) ∧
      summary.interrupted = false := by
  have ends : ∃ n,
      (origin.core.begun.alone origin.architecture origin.program (k + n)).status.isTerminal := by
    refine ⟨m, ?_⟩
    rw [Nat.add_comm, Core.alone_add, Core.alone_of_terminal terminal]
    exact terminal
  -- The run takes the cycles up to the first boundary at which the processor has stopped.
  have loops : Cpu.LoopsFor Connections.host (session.seesRequest raised) session.begun.cpu
      session.begun.connections (Nat.find ends) false := by
    refine ⟨?_, fun i _ => unasked _, fun _ => ?_, nofun⟩
    · intro i before
      rw [onTrack.status_cycles alone]
      exact Nat.find_min ends before
    · rw [onTrack.status_cycles alone]
      exact Nat.find_spec ends
  have finished := finish_false (session.boundary (Nat.find ends))
  exact ⟨Nat.find ends, _, _,
    runWith_eq_some_iff.mpr ⟨Nat.find ends, Nat.le_refl _, false, loops, finished⟩, rfl⟩

end OnTrack

theorem Reaches.onTrack {first : Session} (reached : first.Reaches k session)
    (alone : origin.Unattended) (begins : OnTrack origin 0 first) : OnTrack origin k session := by
  induction reached with
  | start => exact begins
  | call _ call did ih => exact ih.call alone did

/-! ## One trajectory -/

section

variable {architecture : Architecture} {config : Config} {program : Program}

/-- Single steps, with nothing else in between. -/
theorem core_steps (n : Nat) :
    ((headless architecture config program).steps n).cpu.core =
      (Cpu.boot architecture config program).core.alone architecture program n := by
  rw [steps_cpu]
  exact congrArg Cpu.core (Cpu.cycles_of_unattended Connections.host _ ⟨rfl, rfl⟩ n)

theorem begun_steps (n : Nat) :
    ((headless architecture config program).steps n).cpu.core.begun =
      (Cpu.boot architecture config program).core.begun.alone architecture program n := by
  rw [core_steps, Core.begun_alone]

theorem isTerminal_steps (n : Nat) :
    ((headless architecture config program).steps n).cpu.status.isTerminal =
      ((Cpu.boot architecture config program).core.begun.alone architecture program
        n).status.isTerminal := by
  rw [← begun_steps, Core.isTerminal_begun]
  rfl

theorem state_steps (n : Nat) :
    ((headless architecture config program).steps n).cpu.state =
      ((Cpu.boot architecture config program).core.begun.alone architecture program n).state := by
  rw [← begun_steps, Core.state_begun]
  rfl

end

/-- Whatever sequence of calls has come to this session, its state is that of the trajectory after
as many single steps as cycles have been executed.  A run of a processor that has stopped comes back
at once and does not report an interrupt.  Otherwise, if a request has been raised before the run and
there is room for the dump, the run comes back interrupted and has executed nothing.  In general
somebody may raise the request during the run: then it ends at the first boundary at which the
request is seen, with the processor running, and what it hands over is the dump of the processor that
it leaves.  A run that is not interrupted ends with the one status and state in which the trajectory
ends; and if the trajectory ends, then a run that sees no request comes back. -/
theorem calls_follow_one_trajectory (architecture : Architecture) (config : Config)
    (program : Program) {k : Nat} {session : Session}
    (reached : (headless architecture config program).Reaches k session) :
    let trajectory (n : Nat) : Cpu := ((headless architecture config program).steps n).cpu
    session.cpu.state = (trajectory k).state ∧
      session.run = session.runWith (fun _ => false) Cpu.patience ∧
      (session.cpu.status.isTerminal → ∀ raised fuel, ∃ after,
        session.runWith raised fuel = some (after.cpu.summary false, after) ∧
          after.cpu.status = session.cpu.status ∧ after.cpu.state = session.cpu.state) ∧
      (¬ session.cpu.status.isTerminal → ∀ interrupt, session.interrupt = some interrupt →
        interrupt.requested = true → interrupt.HasRoom → ∀ raised fuel, ∃ after,
          session.runWith raised fuel = some (after.cpu.summary true, after) ∧
            session.cyclesOfRun raised fuel = 0) ∧
      (∀ raised fuel summary after, session.runWith raised fuel = some (summary, after) →
        let n := session.cyclesOfRun raised fuel
        after.cpu.state = (trajectory (k + n)).state ∧
          summary = after.cpu.summary summary.interrupted ∧
          (summary.interrupted = true → after.cpu.status = .running ∧
            (∀ i ≤ n, session.seesRequest raised (session.begun.steps i).connections =
              decide (i = n)) ∧
            ∀ interrupt, session.interrupt = some interrupt → interrupt.HasRoom →
              after.takeDump.1 = some after.cpu.dumpCore.text) ∧
          (summary.interrupted = false → (trajectory (k + n)).status.isTerminal ∧
            ∀ m, (trajectory m).status.isTerminal →
              after.cpu.status = (trajectory m).status ∧
                after.cpu.state = (trajectory m).state)) ∧
      ∀ m raised, (trajectory m).status.isTerminal →
        (∀ connections, session.seesRequest raised connections = false) →
        ∃ fuel summary after, session.runWith raised fuel = some (summary, after) ∧
          summary.interrupted = false := by
  intro trajectory
  let origin := Cpu.boot architecture config program
  have alone : origin.Unattended := ⟨rfl, rfl⟩
  have onTrack : OnTrack origin k session := reached.onTrack alone ⟨rfl, rfl, nofun⟩
  have ends {n : Nat} (terminal : (trajectory n).status.isTerminal) :
      (origin.core.begun.alone architecture program n).status.isTerminal :=
    (isTerminal_steps n).symm.trans terminal
  refine ⟨?_, session.run_eq_runWith, ?_, ?_, ?_, ?_⟩
  · have started : session.cpu.core.begun.state = session.cpu.state := Core.state_begun
    calc session.cpu.state
        = session.cpu.core.begun.state := started.symm
      _ = (origin.core.begun.alone architecture program k).state :=
        congrArg Core.state onTrack.begun_eq
      _ = (trajectory k).state := (state_steps k).symm
  · intro terminal raised fuel
    obtain ⟨after, returned, core⟩ := onTrack.run_of_terminal alone terminal raised fuel
    exact ⟨after, returned, congrArg Core.status core, congrArg Core.state core⟩
  · intro going interrupt attached requested room raised fuel
    exact onTrack.run_of_requested going attached requested room raised fuel
  · intro raised fuel summary after returned n
    obtain ⟨onTrack', core, loops, finished⟩ := onTrack.run alone returned
    obtain ⟨summary_eq, cpu, -⟩ := of_finish finished
    refine ⟨?_, ?_, onTrack.run_interrupted alone returned, ?_⟩
    · rw [state_steps]
      exact congrArg Core.state core
    · rw [cpu]
      exact summary_eq
    · intro uninterrupted
      have stopped := loops.stopped uninterrupted
      rw [onTrack.status_cycles alone] at stopped
      refine ⟨(isTerminal_steps (k + n)).trans stopped, ?_⟩
      intro m terminal
      have same : after.cpu.core = (trajectory m).core := by
        calc after.cpu.core
            = origin.core.begun.alone architecture program (k + n) := core
          _ = origin.core.begun.alone architecture program m :=
            Core.alone_eq_of_terminal stopped (ends terminal)
          _ = (trajectory m).core.begun := (begun_steps m).symm
          _ = (trajectory m).core :=
            Core.begun_of_ne_ready (Core.ne_ready_of_isTerminal terminal)
      exact ⟨congrArg Core.status same, congrArg Core.state same⟩
  · intro m raised terminal unasked
    exact onTrack.exists_run alone (ends terminal) unasked

/-- A program that is interrupted after its first instruction, then run to its end. -/
theorem calls_follow_one_trajectory_resumed :
    let first := headless .standard ⟨0, 1⟩
      #[⟨0x11, 1, 0, 5⟩, ⟨0x11, 2, 0, 7⟩, .nullary 0x01]
    ∃ asked stopped resumed, first.Reaches 1 asked ∧
      asked.run = some (stopped.cpu.summary true, stopped) ∧
      stopped.takeDump.1 = some stopped.cpu.dumpCore.text ∧
      first.Reaches 1 resumed ∧ resumed.cpu = stopped.cpu ∧
      ∃ fuel last, resumed.runWith (fun _ => false) fuel = some (last.cpu.summary false, last) ∧
        last.cpu.status = .halted ∧ last.cpu.state = (first.steps 3).cpu.state := by
  intro first
  let asked := first.step.attachInterrupt.requestInterrupt
  have reached : first.Reaches 1 asked :=
    ((Reaches.start.call .step rfl).call .attachInterrupt rfl).call .requestInterrupt rfl
  obtain ⟨-, run_eq, -, requested, runs, -⟩ := calls_follow_one_trajectory _ _ _ reached
  obtain ⟨stopped, returned, nothing⟩ := requested (by decide +kernel)
    { Interrupt.fresh with requested := true } rfl rfl ⟨rfl, rfl⟩ (fun _ => false) Cpu.patience
  obtain ⟨-, -, interrupted, -⟩ := runs _ _ _ _ returned
  obtain ⟨-, -, dump⟩ := interrupted rfl
  -- A fresh interrupt takes the place of the one that has been requested.
  have did : asked.call? (.run (fun _ => false) Cpu.patience) = some (0, stopped) := by
    rw [call?, returned, Option.map_some, nothing]
  have resumed : first.Reaches 1 stopped.attachInterrupt :=
    (reached.call _ did).call .attachInterrupt rfl
  have ended : (first.steps 3).cpu.status = .halted := by decide +kernel
  have terminal : (first.steps 3).cpu.status.isTerminal := congrArg Status.isTerminal ended
  obtain ⟨-, -, -, -, runs', comesBack⟩ := calls_follow_one_trajectory _ _ _ resumed
  obtain ⟨fuel, summary, last, returned', uninterrupted⟩ :=
    comesBack 3 (fun _ => false) terminal fun _ => rfl
  obtain ⟨-, summary_eq, -, stops⟩ := runs' _ _ _ _ returned'
  obtain ⟨status, state⟩ := (stops uninterrupted).2 3 terminal
  rw [uninterrupted] at summary_eq
  exact ⟨asked, stopped, stopped.attachInterrupt, reached, run_eq.trans returned,
    dump _ rfl ⟨rfl, rfl⟩, resumed, rfl, fuel, last, summary_eq ▸ returned', status.trans ended,
    state⟩

end Session
end Minicomputer
