import CksRuntime.Storage.Proof.Outbox

/-!
# Calls of overtaken workers

A row says that a task is claimed but not by whom, so a call does the same whoever makes it. What
keeps an overtaken worker from the task of the next is only that it comes too late to find it.
-/

set_option autoImplicit false

namespace CksRuntime

open Lease Transition

namespace StaleCall

/-- The call did to the row it found what it does to any. -/
def Faithful (c : StaleCall) : Prop :=
  ∃ now taskId o, c.before = o.rows taskId ∧ c.after = (c.call.run now taskId o).2.rows taskId ∧
    c.reply = (c.call.run now taskId o).1

end StaleCall

namespace OutboxWorld

section
variable {ω : Type} [DecidableEq ω] {datetime : Nat → Text} {w : OutboxWorld ω}

end

end OutboxWorld

end CksRuntime
