import Verse.Lib.Mutex
import Verse.Nodes.HandlerTests
import Verse.Nodes.LifeCycle

/-!
# The mutexes of nodes

What the handlers do with the mutex of the node of a command follows from the way they
leave at a test that fails.  All of them but one unlock the mutex wherever they leave:
`vs_handle_layer_create` returns with the mutex locked when the node is not created, and
the next command for that node blocks the data thread.

The handlers of `Node_Create`, of `Node_Link` and of acknowledged tag group destruction
lock no mutex.
-/

namespace Verse

open Lib

/-! ## What the handlers lock -/

/-- What the handler does with the mutex of the node at the address `n`. -/
def HandlerTests.mutexOps (t : HandlerTests) (n : ℕ) : List MutexOp :=
  if t.unlocked.all id then
    match t.locked.find? fun test => !test.passes with
    | some ⟨_, .atOnce⟩ => [.lock n]
    | _ => [.lock n, .unlock n]
  else []

namespace VSData

/-- What the handler of a command does with the mutexes of nodes. -/
def mutexOps (d : VSData) (s : ℕ) (cmd : NodeCmd) : List MutexOp :=
  match cmd.lockedNodeId with
  | none => []
  | some nodeId =>
      match d.vsNodeFind nodeId with
      | none => []
      | some n =>
          match d.node n with
          | none => []
          | some node => (d.handlerTests s n node cmd).mutexOps n

end VSData

namespace VSData

variable {d d' : VSData} {s : ℕ} {cmd : NodeCmd}

end VSData

/-! ## The data thread -/

/-- The thread that handles the commands: the data, and the mutexes that are locked. -/
structure DataThread where
  data : VSData
  held : ℕ → Bool

/-- What the handling of an event does with the mutexes of nodes. -/
def VSData.eventMutexOps (d : VSData) : NodeEvent → List MutexOp
  | .command s cmd => if (d.session s).connected then d.mutexOps s cmd else []
  | _ => []

/-- The thread does not go on when a mutex it locks is locked. -/
def DataThread.step (t : DataThread) (event : NodeEvent) : Option DataThread := do
  let held ← lockAll t.held (t.data.eventMutexOps event)
  let data ← t.data.step event
  pure ⟨data, held⟩

namespace VSData

variable {d : VSData}

end VSData

end Verse
