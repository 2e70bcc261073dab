import FrontEnd.Binary64.Basic
import FrontEnd.Location
import FrontEnd.Text.Quoted

/-!
# Tokens

A scanner turns a source text into tokens, a parser turns tokens into trees.  The kinds
of tokens are numbers that each language assigns; two of them have a meaning of their
own, the end of the source and comments.
-/

namespace FrontEnd

/-- The kind of a token. -/
abbrev TokenKind := Int

namespace TokenKind

/-- The end of the source.  No scan emits it. -/
def endOfSource : TokenKind := -1

/-- A comment, which a scan emits only on request. -/
def comment : TokenKind := -8

end TokenKind

/-- The value of a token that stands for a value. -/
inductive Literal where
  | integer (value : Int)
  | float (value : Binary64)
  | text (value : Text)
  | boolean (value : Bool)
  deriving DecidableEq, Repr

/-- A piece of source text that a scanner has recognized. -/
structure Token where
  kind : TokenKind
  lexeme : Text
  location : Location
  span : Span
  literal : Option Literal
  deriving DecidableEq, Repr

namespace Token

/-- Whether a token stands for the end of the source. -/
def isEndOfSource (t : Token) : Bool := t.kind = TokenKind.endOfSource

/-- A token in the form `<kind "lexeme" @line:column>`. -/
def toText (t : Token) : Text :=
  if t.isEndOfSource then
    Text.ofString "<eof @" ++ t.location.toText ++ Text.ofString ">"
  else
    Text.ofString "<" ++ Text.ofInt t.kind ++ Text.ofString " " ++ t.lexeme.quoted
      ++ Text.ofString " @" ++ t.location.toText ++ Text.ofString ">"

end Token

end FrontEnd
