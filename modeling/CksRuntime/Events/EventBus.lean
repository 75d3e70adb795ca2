import Mathlib.Logic.Function.Basic

/-!
# The event bus

`events/event_bus.py`. A `publish` goes through the subscribers of the event's exact type and then
through those of `RuntimeEvent`, by index and over the list itself. It waits for each handler, and
meanwhile anything may be subscribed, unsubscribed and published, by the handler or by others. A
step is what runs without waiting.
-/

set_option autoImplicit false

namespace CksRuntime

/-- `type(event)`, and the type `RuntimeEvent` itself. -/
structure EventTypes (E T : Type) where
  typeOf : E → T
  runtimeEvent : T

/-- A call of `publish` that has not returned. -/
structure Publishing (E : Type) where
  event : E
  /-- Past the subscribers of the exact type. -/
  onGlobal : Bool := false
  index : Nat := 0

/-- The bus, the calls of `publish` by number, and the handlers each has called. -/
structure EventBus (E T H : Type) where
  subscribers : T → List H := fun _ => []
  history : List E := []
  publishing : Nat → Option (Publishing E) := fun _ => none
  published : Nat := 0
  called : List (Nat × Bool × H) := []

/-- What is done with a bus; handlers run between two steps of a `publish`. -/
inductive BusCall (E T H : Type)
  | subscribe (eventType : T) (handler : H)
  | unsubscribe (eventType : T) (handler : H)
  | clear
  | publish (event : E)
  /-- A `publish` goes on to its next handler, to its next list, or returns. -/
  | resume (i : Nat)
  /-- The handler raises, and so does `publish`. -/
  | raises (i : Nat)

namespace EventBus

variable {E T H : Type} [DecidableEq T] [DecidableEq H]

/-- The handlers of a type after `f`. -/
def onType (bus : EventBus E T H) (eventType : T) (f : List H → List H) : EventBus E T H :=
  { bus with
    subscribers := Function.update bus.subscribers eventType (f (bus.subscribers eventType)) }

/-- `subscribe`: a handler already there is not added. -/
def subscribe (eventType : T) (handler : H) (bus : EventBus E T H) : EventBus E T H :=
  bus.onType eventType fun handlers =>
    if handler ∉ handlers then handlers ++ [handler] else handlers

/-- `unsubscribe`, of the one that is there. -/
def unsubscribe (eventType : T) (handler : H) (bus : EventBus E T H) : EventBus E T H :=
  bus.onType eventType fun handlers =>
    if handler ∈ handlers then handlers.erase handler else handlers

/-- `clear`: the history only. -/
def clear (bus : EventBus E T H) : EventBus E T H := { bus with history := [] }

/-- `publish`, up to its first handler. -/
def publish (event : E) (bus : EventBus E T H) : EventBus E T H :=
  { bus with
    history := bus.history ++ [event]
    publishing := Function.update bus.publishing bus.published (some { event := event })
    published := bus.published + 1 }

/-- The `publish` numbered `i` is at `p`. -/
def setPublishing (i : Nat) (p : Option (Publishing E)) (bus : EventBus E T H) : EventBus E T H :=
  { bus with publishing := Function.update bus.publishing i p }

variable (types : EventTypes E T)

/-- The list a `publish` is at. -/
def listed (event : E) (onGlobal : Bool) : T :=
  if onGlobal then types.runtimeEvent else types.typeOf event

/-- A `publish` goes on, on the live list: to the handler at its index, or to the next list. -/
def resume (i : Nat) (bus : EventBus E T H) : EventBus E T H :=
  match bus.publishing i with
  | none => bus
  | some p =>
    match (bus.subscribers (listed types p.event p.onGlobal))[p.index]? with
    | some handler =>
      { bus.setPublishing i (some { p with index := p.index + 1 }) with
        called := bus.called ++ [(i, p.onGlobal, handler)] }
    | none =>
      bus.setPublishing i (if p.onGlobal then none else some { p with onGlobal := true, index := 0 })

/-- What a call leaves. -/
def step (bus : EventBus E T H) : BusCall E T H → EventBus E T H
  | .subscribe eventType handler => subscribe eventType handler bus
  | .unsubscribe eventType handler => unsubscribe eventType handler bus
  | .clear => clear bus
  | .publish event => publish event bus
  | .resume i => resume types i bus
  | .raises i => bus.setPublishing i none

/-- What a new bus has become after these steps. -/
def run (calls : List (BusCall E T H)) : EventBus E T H := calls.foldl (step types) {}

/-! ## One list -/

/-- `publish` number `i` is at the list, with this many handlers behind it. -/
def At (bus : EventBus E T H) (i : Nat) (event : E) (onGlobal : Bool) (index : Nat) : Prop :=
  bus.publishing i = some ⟨event, onGlobal, index⟩

/-- How often it has called a handler of the list. -/
def callsOf (bus : EventBus E T H) (i : Nat) (onGlobal : Bool) (handler : H) : Nat :=
  bus.called.count (i, onGlobal, handler)

end EventBus

end CksRuntime
