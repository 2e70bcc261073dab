import FrontEnd.Binary64.Shortest
import FrontEnd.Lox.Symbol

/-!
# What a session prints

Messages have a heading in front of their first line, and their other lines are indented by
the width of the heading.  Tokens are listed in a table with one column for each property.
-/

namespace FrontEnd

namespace Repl

/-- The heading of results. -/
def infoHeading : Text := Text.ofString "   >>  "

/-- The heading of errors. -/
def errorHeading : Text := Text.ofString "   Error  "

/-- A message under a heading. -/
def message (heading text : Text) : Text :=
  let lines := text.splitOn 0x0A
  heading ++ Text.join (0x0A :: Text.blanks heading.length) lines ++ [0x0A]

/-- A result. -/
def info (text : Text) : Text := message infoHeading text

/-- An error. -/
def error (text : Text) : Text := message errorHeading text

/-- A row of a table. -/
abbrev Row := List Text

/-- A cell, filled up with blanks. -/
def padded (width : Nat) (cell : Text) : Text := cell ++ Text.blanks (width - cell.length)

/-- The greatest length of a cell in each column. -/
def columnWidths : List Row → List Nat
  | [] => []
  | row :: rows =>
    let widths := columnWidths rows
    let columns := max row.length widths.length
    (List.range columns).map fun i => max (row.getD i []).length (widths.getD i 0)

/-- A table, one line for each row. -/
def table (rows : List Row) : Text :=
  let widths := columnWidths rows
  rows.flatMap fun row =>
    Text.join (Text.ofString " | ") (List.zipWith padded widths row) ++ [0x0A]

/-- The text of a value. -/
def literalText : Literal → Text
  | .integer n => Text.ofInt n
  | .float x => x.toText
  | .text t => t
  | .boolean b => Text.ofString (if b then "true" else "false")

/-- The names of the columns of the token table. -/
def tokenHeader : Row := ["Type", "Lexeme", "Location", "Span", "Value"].map Text.ofString

/-- The row of a token. -/
def tokenRow (t : Token) : Row :=
  [Lox.kindName t.kind, t.lexeme.quoted, t.location.toText, t.span.toText,
    (t.literal.map literalText).getD []]

/-- The table of a list of tokens. -/
def tokenTable (tokens : List Token) : Text := table (tokenHeader :: tokens.map tokenRow)

end Repl

end FrontEnd
