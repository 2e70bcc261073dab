import FrontEnd.Location

/-!
# Diagnostics

Errors in a source text are collected, not thrown.  A diagnostic says where an error
is and what it is; `Diagnostics` is the list of them in the order in which they were
found.
-/

namespace FrontEnd

/-- An error in a source text. -/
structure Diagnostic where
  location : Location
  message : Text
  deriving DecidableEq, Repr, Inhabited

namespace Diagnostic

/-- A diagnostic in the form `line:column message`. -/
def toText (d : Diagnostic) : Text :=
  d.location.toText ++ Text.ofString " " ++ d.message

end Diagnostic

/-- Diagnostics in the order in which they were found. -/
structure Diagnostics where
  /-- The diagnostics, the latest one first. -/
  latestFirst : List Diagnostic
  deriving DecidableEq, Repr, Inhabited

namespace Diagnostics

/-- No diagnostics. -/
def empty : Diagnostics := ⟨[]⟩

/-- The diagnostics, in the order in which they were found. -/
def toList (ds : Diagnostics) : List Diagnostic := ds.latestFirst.reverse

/-- The diagnostics of a list. -/
def ofList (ds : List Diagnostic) : Diagnostics := ⟨ds.reverse⟩

/-- Adds a diagnostic behind the others. -/
def add (ds : Diagnostics) (location : Location) (message : Text) : Diagnostics :=
  ⟨⟨location, message⟩ :: ds.latestFirst⟩

/-- The diagnostics of `ds`, then those of `es`. -/
def append (ds es : Diagnostics) : Diagnostics := ⟨es.latestFirst ++ ds.latestFirst⟩

/-- The number of diagnostics. -/
def count (ds : Diagnostics) : Nat := ds.latestFirst.length

/-- Whether there are no diagnostics. -/
def isEmpty (ds : Diagnostics) : Bool := ds.latestFirst.isEmpty

@[simp] theorem toList_empty : empty.toList = [] := rfl

@[simp] theorem toList_ofList (ds : List Diagnostic) : (ofList ds).toList = ds := by
  simp [ofList, toList]

@[simp] theorem toList_add (ds : Diagnostics) (location : Location) (message : Text) :
    (ds.add location message).toList = ds.toList ++ [⟨location, message⟩] := by
  simp [add, toList]

@[simp] theorem toList_append (ds es : Diagnostics) :
    (ds.append es).toList = ds.toList ++ es.toList := by
  simp [append, toList]

/-- The text of a list of diagnostics: one line for each of them. -/
def reportOf : List Diagnostic → Text
  | [] => Text.ofString "no errors"
  | ds => Text.join (Text.ofString "\n") (ds.map Diagnostic.toText)

/-- One line for each diagnostic. -/
def report (ds : Diagnostics) : Text := reportOf ds.toList

/-- One line for each diagnostic, if there is any. -/
def failure? (ds : Diagnostics) : Option Text :=
  if ds.isEmpty then none else some ds.report

end Diagnostics

end FrontEnd
