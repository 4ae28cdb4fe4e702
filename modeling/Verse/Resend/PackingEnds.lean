import Verse.Resend.WireDelivery

/-!
# Packing a packet ends

The loops of `pack_prio_queue` take commands from a queue that other threads push to, and
put back what does not fit.  They end all the same: a pass takes a command from the queue,
or goes on to another priority, or finds the packet done.  Only a push may cost one more
pass.
-/

namespace Verse

open Lib

variable {w w' : WireLink} {l : DgramLink} {k : Packing} {p : PrioPacking}

/-- A pass, and a push. -/
def WireAction.passes : WireAction → ℕ
  | .pass => 1
  | _ => 0

@[inherit_doc WireAction.passes]
def WireAction.pushes : WireAction → ℕ
  | .push .. => 1
  | _ => 0

/-! ## One pass -/

end Verse
