import FrontEnd.Action

/-!
# Scripts

A script makes a machine follow orders that are given as data.  It holds a list of commands
for each call, taken in turn, and starts again from its first list when it comes to its end.
A command is an operation, whose outcome is logged, or the result that ends the call.
-/

namespace FrontEnd

namespace Script

/-- A command of a script. -/
inductive Command (Op Result : Type) where
  | perform (op : Op)
  | answer (result : Result)
  deriving DecidableEq, Repr

/-- What is remembered from one call to the next. -/
structure Memory (Entry : Type) where
  /-- The number of calls so far. -/
  calls : Nat
  /-- The log, the latest entry first. -/
  latestFirst : List Entry
  deriving DecidableEq, Repr

namespace Memory

variable {Entry : Type}

/-- The memory before the first call. -/
def empty : Memory Entry := ⟨0, []⟩

/-- The log in the order of its entries. -/
def log (m : Memory Entry) : List Entry := m.latestFirst.reverse

end Memory

variable {S : Type} {step : S → S → Prop} {Op Entry Result : Type}

/-- Runs commands up to the first result; without one, the result is `usual`.  The entries
of the operations are put in front of `log`. -/
def run (perform : Op → Action step Entry) (usual : Result) (log : List Entry) :
    List (Command Op Result) → Action step (Result × List Entry)
  | [] => return (usual, log)
  | .answer result :: _ => return (result, log)
  | .perform op :: rest => do
    let entry ← perform op
    run perform usual (entry :: log) rest

/-- Runs commands outside of the calls, where their result means nothing. -/
def runAside (perform : Op → Action step Entry) (usual : Result)
    (commands : List (Command Op Result)) (memory : Memory Entry) :
    Action step (Memory Entry) := do
  let (_, log) ← run perform usual memory.latestFirst commands
  return { memory with latestFirst := log }

/-- Makes the next call.  A script without any lists always has the result `idle`. -/
def call (perform : Op → Action step Entry) (usual idle : Result)
    (calls : List (List (Command Op Result))) (memory : Memory Entry) :
    Action step (Result × Memory Entry) :=
  match calls[memory.calls % calls.length]? with
  | none => return (idle, memory)
  | some commands => do
    let (result, log) ← run perform usual memory.latestFirst commands
    return (result, ⟨memory.calls + 1, log⟩)

end Script

end FrontEnd
