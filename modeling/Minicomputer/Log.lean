/-!
# Log entries

Everything the machine reports about itself, apart from its results, is a log entry: a level and a
line of text.  Functions return the entries they cause, oldest first; who keeps them, and from which
level on, is decided outside.
-/

namespace Minicomputer
namespace Log

/-- How important an entry is, the gravest first. -/
inductive Level where
  | error
  | warn
  | info
  | debug
  | trace
  deriving DecidableEq, Repr

namespace Level

def rank : Level → Nat
  | error => 1
  | warn => 2
  | info => 3
  | debug => 4
  | trace => 5

end Level

structure Entry where
  level : Level
  text : String
  deriving DecidableEq, Repr

namespace Entry

/-- Whether the entry is kept by a reader who asked for `level`. -/
def isWithin (entry : Entry) (level : Level) : Bool :=
  entry.level.rank ≤ level.rank

end Entry
end Log
end Minicomputer
