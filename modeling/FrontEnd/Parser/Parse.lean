import FrontEnd.Parser.Action

/-!
# Parsing a list of tokens

A parse lets a grammar read one construct after the other, until all tokens are read, the
grammar wants to stop, or the grammar goes on without having read anything.  The last case
is an error, and a strict parse gives up there.

A grammar is not asked anything about an empty list of tokens.
-/

namespace FrontEnd

namespace Parser

/-- The wording of the error for a grammar that does not move. -/
def stuckDiagnostic (lexeme : Text) : Text :=
  Text.ofString "parser stuck at " ++ lexeme.quoted

/-- The complaint of a strict parse that gave up. -/
def stuckMessage (position : Nat) : Text :=
  Text.ofString "grammar did not consume token #" ++ Text.ofNat position

/-- The outcome of a parse. -/
structure Outcome (σ : Type) where
  parser : Parser
  memory : σ
  /-- The position where a strict parse gave up. -/
  stuck : Option Nat

/-- Reads constructs from the cursor on. -/
def parseRest {σ : Type} (g : Grammar σ) (strict : Bool) (memory : σ) (p : Parser) :
    Outcome σ :=
  if p.atEnd then ⟨p, memory, none⟩
  else
    let result := (g.parse memory).run p
    let q := result.2
    if result.1.1 = .stop then ⟨q, result.1.2, none⟩
    else if _h : q.position = p.position then
      if strict then ⟨q, result.1.2, some p.position⟩
      else ⟨q.report q.peek.location (stuckDiagnostic q.peek.lexeme), result.1.2, none⟩
    else parseRest g strict result.1.2 q
termination_by p.rest.length
decreasing_by exact Reaches.length_lt ((g.parse memory).reaches p) _h

/-- Parses a list of tokens. -/
def parse {σ : Type} (g : Grammar σ) (strict : Bool) (memory : σ) (p : Parser)
    (tokens : List Token) : Outcome σ :=
  let p := p.load tokens
  if tokens.isEmpty then ⟨p, memory, none⟩
  else
    let begun := (g.begin memory).run p
    let outcome := parseRest g strict begun.1 begun.2
    if outcome.stuck.isSome then outcome
    else
      let finished := (g.finish outcome.memory).run outcome.parser
      ⟨finished.2, finished.1, none⟩

end Parser

end FrontEnd
