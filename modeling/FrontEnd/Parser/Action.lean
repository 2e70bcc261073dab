import FrontEnd.Parser.Basic

/-!
# What a grammar can do

The operations through which a grammar looks at the tokens and acts on the parser.  Each is
an action: it moves the parser by single steps only.
-/

namespace FrontEnd

/-- A program that acts on a parser by its single steps. -/
abbrev ParseAction (α : Type) := Action Parser.Step α

namespace ParseAction

/-- Passes over the token in front of the cursor and returns it. -/
def advance : ParseAction Token where
  run p := (p.peek, p.advance)
  reaches p := .single (.advance p)

/-- Passes over the token in front of the cursor if it has one of the given kinds.  The end
of the source has none of them. -/
def accept (kinds : List TokenKind) : ParseAction Bool where
  run p := if !p.atEnd && kinds.contains p.peek.kind then (true, p.advance) else (false, p)
  reaches p := by
    split
    · exact .single (.advance p)
    · exact .refl p

/-- Notes an error. -/
def report (location : Location) (message : Text) : ParseAction Unit :=
  .move (·.report location message) fun p => .single (.report p location message)

/-- Passes over the token in front of the cursor if it has the given kind, and notes an
error otherwise. -/
def expect (kind : TokenKind) (message : Text) : ParseAction Bool := do
  if ← accept [kind] then return true
  report (← Action.read (·.errorLocation)) message
  return false

/-- Skips tokens up to a place where a statement may start. -/
def synchronize : ParseAction Unit :=
  .move (·.synchronize) fun p => Parser.Reaches.synchronize p

end ParseAction

/-- Whether a grammar wants to go on. -/
inductive Verdict where
  | proceed
  | stop
  deriving DecidableEq, Repr

/-- The grammar-specific part of a parser, with a memory of type `σ` of its own. -/
structure Grammar (σ : Type) where
  /-- Runs before the first token. -/
  begin : σ → ParseAction σ
  /-- Reads one construct from the cursor on.  It passes over at least one token, unless it
  wants to stop. -/
  parse : σ → ParseAction (Verdict × σ)
  /-- Runs behind the last construct. -/
  finish : σ → ParseAction σ

/-- A parser for a grammar, without which it cannot do anything. -/
def Parser.forGrammar {σ : Type} (g : Option (Grammar σ)) (recovery : Recovery) :
    Except Text (Grammar σ × Parser) :=
  match g with
  | none => .error (Text.ofString "parser needs a grammar")
  | some g => .ok (g, .new recovery)

end FrontEnd
