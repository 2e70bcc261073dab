import FrontEnd.Expr.Basic
import FrontEnd.Lox.Grammar
import FrontEnd.Lox.Recognizer
import FrontEnd.Parser.Parse

/-!
# Parsing Lox

A Lox program is a sequence of expressions, each with an optional semicolon behind it.  An
expression with an error in it is left out: the error is noted, and reading goes on behind
the next semicolon or in front of the next keyword that starts a statement.
-/

namespace FrontEnd

namespace Lox

/-- Notes the error of an expression and skips to the next statement. -/
def recover (p : FrontEnd.Parser) (failure : Failure) : FrontEnd.Parser :=
  let q := p.advanceBy (p.rest.length - failure.rest.length)
  (q.report q.errorLocation (failure.cause.message failure.rest)).synchronize

theorem reaches_recover (p : FrontEnd.Parser) (failure : Failure) :
    Parser.Reaches p (recover p failure) :=
  ((Parser.Reaches.advanceBy p _).trans (.single (.report _ _ _))).trans
    (Parser.Reaches.synchronize _)

/-- Reads an expression from the cursor on.  If it has an error, the answer is none and the
cursor is where the next statement may start. -/
def expression : ParseAction (Option Expr) where
  run p :=
    match parseExpr p.rest with
    | .ok (e, rest) => (some e, p.advanceBy (p.rest.length - rest.length))
    | .error failure => (none, recover p failure)
  reaches p := by
    split
    · exact Parser.Reaches.advanceBy p _
    · exact reaches_recover p _

/-- Reads a statement and puts it in front of the earlier ones. -/
def statement (earlier : List Expr) : ParseAction (Verdict × List Expr) := do
  match ← expression with
  | none => return (.proceed, earlier)
  | some e =>
    let _ ← ParseAction.accept [Symbol.semicolon.kind]
    return (.proceed, e :: earlier)

/-- The grammar of Lox.  It remembers the statements read so far, the latest one first. -/
def grammar : Grammar (List Expr) where
  begin := pure
  parse := statement
  finish := pure

/-- A parser for Lox and the statements it has read. -/
structure Parser where
  base : FrontEnd.Parser
  statements : List Expr
  deriving DecidableEq, Repr

namespace Parser

/-- A parser that resumes in front of the given kinds of tokens after an error. -/
def withStarts (starts : List TokenKind) : Parser :=
  ⟨.new ⟨Symbol.semicolon.kind, some (.ofList starts)⟩, []⟩

/-- A parser that resumes in front of the keywords that start a statement. -/
def new : Parser := withStarts (Symbol.statementStarts.map Symbol.kind)

/-- The tokens that are no comments. -/
def dropComments (tokens : List Token) : List Token :=
  tokens.filter (·.kind != TokenKind.comment)

/-- Parses a list of tokens, comments left out. -/
def parse (lp : Parser) (tokens : List Token) : Parser :=
  let outcome := lp.base.parse grammar false [] (dropComments tokens)
  ⟨outcome.parser, outcome.memory.reverse⟩

/-- A parse goes through the tokens that are no comments. -/
theorem parse_eq (lp : Parser) (tokens : List Token) :
    lp.parse tokens =
      ⟨(lp.base.parse grammar false [] (tokens.filter (·.kind != TokenKind.comment))).parser,
        (lp.base.parse grammar false []
          (tokens.filter (·.kind != TokenKind.comment))).memory.reverse⟩ := rfl

/-- Reads an expression from the cursor on. -/
def parseExpression (lp : Parser) : Option Expr × Parser :=
  let result := expression.run lp.base
  (result.1, { lp with base := result.2 })

/-- The errors of the last parse. -/
def diagnostics (lp : Parser) : Diagnostics := lp.base.diagnostics

end Parser

/-- What a Lox text comes to. -/
structure Program where
  statements : List Expr
  diagnostics : Diagnostics
  deriving DecidableEq, Repr

/-- Scans and parses a Lox text.  The errors of the scan come first. -/
def parseText (text : Text) : Program :=
  let s := scan newScanner text
  let lp := Parser.new.parse s.tokens
  ⟨lp.statements, (Diagnostics.empty.append s.diagnostics).append lp.diagnostics⟩

end Lox

end FrontEnd
