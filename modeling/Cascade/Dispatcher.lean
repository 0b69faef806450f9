-- SUMMARY: Which handler takes which action: handlers by action, and one for all actions without a handler of their own.
import Cascade.Fault

/-! # Dispatching actions

An action is a name that a rule gives; the host says what is to happen. What a
handler is stays open here: `η` is whatever the host can run. -/

namespace Cascade

/-- Handlers by the actions they take, and the fallback for all others. -/
structure Dispatcher (η : Type) where
  handlers : List (String × η)
  fallback : Option η

namespace Dispatcher

variable {η : Type}

def empty : Dispatcher η := ⟨[], none⟩

/-- The handler registered for an action. -/
def own? (d : Dispatcher η) (action : String) : Option η :=
  (d.handlers.find? (·.1 = action)).map (·.2)

/-- The handler that takes an action: its own one, else the fallback. -/
def handler? (d : Dispatcher η) (action : String) : Option η :=
  (d.own? action).or d.fallback

def contains (d : Dispatcher η) (action : String) : Bool := (d.own? action).isSome

/-- Registers a handler. The action must be a name and have no handler yet. -/
def register (d : Dispatcher η) (action : Document) (handler : η) :
    Except Fault (Dispatcher η) :=
  match action with
  | .str name =>
    if name = "" then .error .emptyAction
    else if d.contains name then .error (.duplicateAction name)
    else .ok { d with handlers := d.handlers ++ [(name, handler)] }
  | _ => .error .emptyAction

def unregister (d : Dispatcher η) (action : String) : Option η × Dispatcher η :=
  (d.own? action, { d with handlers := d.handlers.filter (·.1 ≠ action) })

def setFallback (d : Dispatcher η) (handler : Option η) : Dispatcher η :=
  { d with fallback := handler }

end Dispatcher

end Cascade
