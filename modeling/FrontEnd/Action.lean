/-!
# Actions on a machine

A machine is given by its states and the single steps between them.  An action is a
program that reads the state and changes it, but only by steps of the machine: it
carries the proof that every state it leaves behind is reached by steps from the state
it found.  Whatever every step of a machine keeps, every action keeps.

Scanners and parsers are such machines, and the parts of them that a language supplies
are actions.
-/

namespace FrontEnd

/-- `Steps step s t`: the machine with the single steps `step` gets from `s` to `t`. -/
inductive Steps {S : Type} (step : S → S → Prop) : S → S → Prop where
  | refl (s : S) : Steps step s s
  | tail {s t u : S} : Steps step s t → step t u → Steps step s u

namespace Steps

variable {S : Type} {step : S → S → Prop} {s t u : S}

theorem single (h : step s t) : Steps step s t := .tail (.refl s) h

theorem trans (h : Steps step s t) (k : Steps step t u) : Steps step s u := by
  induction k with
  | refl => exact h
  | tail _ k ih => exact .tail ih k

/-- What every single step keeps, every sequence of steps keeps. -/
theorem invariant {P : S → Prop} (keep : ∀ s t, step s t → P s → P t)
    (h : Steps step s t) (start : P s) : P t := by
  induction h with
  | refl => exact start
  | tail _ k ih => exact keep _ _ k ih

end Steps

/-- A program on the states of a machine that moves only by steps of the machine. -/
structure Action {S : Type} (step : S → S → Prop) (α : Type) where
  run : S → α × S
  reaches : ∀ s, Steps step s (run s).2

namespace Action

variable {S : Type} {step : S → S → Prop} {α β : Type}

/-- The action that returns `a` and does nothing. -/
protected def pure (a : α) : Action step α := ⟨fun s => (a, s), .refl⟩

/-- The action `x`, then the action that `f` chooses by its result. -/
protected def bind (x : Action step α) (f : α → Action step β) : Action step β where
  run s :=
    match x.run s with
    | (a, t) => (f a).run t
  reaches s := (x.reaches s).trans ((f (x.run s).1).reaches (x.run s).2)

instance : Monad (Action step) where
  pure := Action.pure
  bind := Action.bind

/-- The action that reads a property of the state. -/
def read (f : S → α) : Action step α := ⟨fun s => (f s, s), .refl⟩

/-- The action that changes the state by steps. -/
def move (f : S → S) (reaches : ∀ s, Steps step s (f s)) : Action step Unit :=
  ⟨fun s => ((), f s), reaches⟩

@[simp] theorem run_pure (a : α) (s : S) : (pure a : Action step α).run s = (a, s) := rfl

@[simp] theorem run_bind (x : Action step α) (f : α → Action step β) (s : S) :
    (x >>= f).run s = (f (x.run s).1).run (x.run s).2 := rfl

@[simp] theorem run_read (f : S → α) (s : S) :
    (read f : Action step α).run s = (f s, s) := rfl

@[simp] theorem run_move (f : S → S) (reaches : ∀ s, Steps step s (f s)) (s : S) :
    (move f reaches).run s = ((), f s) := rfl

instance : LawfulMonad (Action step) :=
  LawfulMonad.mk' _ (fun _ => rfl) (fun _ _ => rfl) (fun _ _ _ => rfl)

end Action

end FrontEnd
