import CksRuntime.Operations.Types

/-!
# The executor and the dispatcher

`execution/operation_executor.py` and `dispatcher/dispatcher.py`. The executor turns whatever an
operation raises into a FAILED result; the dispatcher does so only for an unknown operation and for
parameters the constructor rejects with a `TypeError`.
-/

set_option autoImplicit false

namespace CksRuntime

variable {K : Core}

/-- `OperationExecutor.execute`: the result, and the session as the operation left it. -/
def OperationExecutor.execute (op : Operation K) (storage : Storage K) (session : Session K) :
    ExecutionResult K × Session K :=
  match op.execute storage session with
  | (.ok result, session') => ({ result with operation := some op }, session')
  | (.error exc, session') =>
    ({ operationId := op.operationId
       status := .failed
       error := some exc
       diagnostics := [{ message := exc.message, source := .runtime, severity := .error }]
       operation := some op }, session')

/-- A request for an operation by its id. -/
structure DispatchRequest (K : Core) where
  operationId : String
  parameters : List (String × K.Arg) := []

/-- The registered operation types, as constructors from keyword arguments. -/
abbrev OperationRegistry (K : Core) :=
  String → Option (List (String × K.Arg) → Except (Err K.Obj) (Operation K))

/-- `OperationRegistry.create`. -/
def OperationRegistry.create (registry : OperationRegistry K) (operationId : String)
    (parameters : List (String × K.Arg)) : Except (Err K.Obj) (Operation K) :=
  match registry operationId with
  | none => .error (.keyError ("Unknown operation '" ++ operationId ++ "'."))
  | some operationType => operationType parameters

/-- The FAILED result of a request that has no operation. -/
def Dispatcher.unresolved (request : DispatchRequest K) (message : String) (error : Err K.Obj) :
    ExecutionResult K :=
  { operationId := request.operationId
    status := .failed
    diagnostics := [{ message, source := .runtime, severity := .error }]
    error := some error }

/-- `Dispatcher.dispatch`: anything else the construction raises goes through to the caller. -/
def Dispatcher.dispatch (registry : OperationRegistry K) (request : DispatchRequest K)
    (storage : Storage K) (session : Session K) :
    Except (Err K.Obj) (ExecutionResult K × Session K) :=
  match registry.create request.operationId request.parameters with
  | .ok op => .ok (OperationExecutor.execute op storage session)
  | .error (.keyError _) =>
    .ok (unresolved request ("Operation '" ++ request.operationId ++ "' is not registered.")
      (.lookupError ("Unknown operation '" ++ request.operationId ++ "'.")), session)
  | .error (.typeError m) =>
    .ok (unresolved request ("Operation '" ++ request.operationId ++
      "' could not be constructed from the given parameters: " ++ m) (.typeError m), session)
  | .error exc => .error exc

end CksRuntime
