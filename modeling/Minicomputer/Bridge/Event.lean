import Minicomputer.Machine.State
import Minicomputer.Machine.Status

/-!
# What the processor tells its observer

An observer -- a console, for instance -- learns about a run from events.  Every event carries
copies of what it reports, so an observer never sees a state that is still changing.
-/

namespace Minicomputer

/-- Something an observer is told. -/
inductive Event where
  /-- The state between two instructions. -/
  | snapshot (state : MachineState)
  /-- A value that the program shows. -/
  | output (value : UInt16)
  /-- The program waits for a value. -/
  | inputRequested
  /-- Execution has ended. -/
  | halted (state : MachineState)
  /-- Execution cannot go on. -/
  | faulted (fault : Fault) (state : MachineState)
  deriving DecidableEq, Repr

end Minicomputer
