import FrontEnd.Number.Decimal
import FrontEnd.Number.Integer
import FrontEnd.Regex.Longest
import FrontEnd.Regex.Parse
import FrontEnd.Scanner.Action
import FrontEnd.Text.LowerCase

/-!
# Lexicons

A lexicon describes tokens by regular expressions.  Each rule says what to do with a text
that its expression matches: make a token of it, pass over it, or refuse it.

`Lexicon.next` finds the next token from a place on.  Matches that are passed over do not
end the search, and the search does not know about comments; the recognizer of a lexicon
therefore goes no further than the end of such matches, so that the scanner looks for
comments before the next token is read.
-/

namespace FrontEnd

/-- What a rule makes of a text that it matches. -/
inductive Reaction where
  /-- The text is passed over. -/
  | skip
  /-- The text is a token. -/
  | token (kind : TokenKind) (literal : Option Literal)
  /-- The text is refused. -/
  | reject (message : Text)
  deriving DecidableEq, Repr

namespace Reaction

/-- A token that stands for its own text. -/
def ofText (kind : TokenKind) (lexeme : Text) : Reaction := .token kind (some (.text lexeme))

/-- A token that stands for nothing. -/
def ofNothing (kind : TokenKind) (_ : Text) : Reaction := .token kind none

/-- A token that stands for the integer it spells. -/
def ofInteger (kind : TokenKind) (lexeme : Text) : Reaction :=
  match Number.integerValue lexeme with
  | .ok n => .token kind (some (.integer n))
  | .error e => .reject e.message

/-- A token that stands for the floating-point number it spells. -/
def ofFloat (kind : TokenKind) (lexeme : Text) : Reaction :=
  match Number.floatValue lexeme with
  | .ok x => .token kind (some (.float x))
  | .error e => .reject e.message

/-- Refuses every text. -/
def refuse (lexeme : Text) : Reaction := .reject (Text.ofString "rejected " ++ lexeme)

end Reaction

/-- A rule of a lexicon. -/
structure Rule where
  pattern : Regex
  react : Text → Reaction

/-- The rules for the tokens of a language.  Earlier rules win over later ones. -/
structure Lexicon where
  rules : List Rule

namespace Lexicon

/-- Why there is no lexicon. -/
inductive BuildError where
  /-- A text denotes no regular expression. -/
  | pattern
  /-- There are no rules. -/
  | noRules
  /-- A rule matches the empty text. -/
  | emptyMatch
  deriving DecidableEq, Repr

/-- The wording of an error. -/
def BuildError.message : BuildError → Text
  | .pattern => Text.ofString "malformed regular expression"
  | .noRules => Text.ofString "No patterns added"
  | .emptyMatch =>
    Text.ofString "One or more of the supplied patterns match the empty string"

/-- The notation of a rule's expression, and what the rule makes of a match. -/
abbrev Entry := Text × (Text → Reaction)

/-- The rule for an entry. -/
def Entry.rule (e : Entry) : Except BuildError Rule :=
  match Regex.parse? e.1 with
  | some r => .ok ⟨r, e.2⟩
  | none => .error .pattern

/-- The lexicon for a list of entries. -/
def ofEntries (entries : List Entry) : Except BuildError Lexicon := do
  if entries.isEmpty then throw .noRules
  let rules ← entries.mapM Entry.rule
  if rules.any (·.pattern.nullable) then throw .emptyMatch
  return ⟨rules⟩

/-- The expression for a literal text: each character with a backslash in front. -/
def literalPattern (t : Text) : Text :=
  0x5C :: Text.join [0x5C] (t.spelling.map (·.2))

/-- The number that a name has in a table, and 0 for a name that is not in it. -/
def kindOf (kinds : List (Text × TokenKind)) (name : Text) : TokenKind :=
  (kinds.lookup name).getD 0

/-- The entry for a literal text. -/
def literalEntry (kinds : List (Text × TokenKind)) (t : Text) : Entry :=
  (literalPattern t, Reaction.ofText (kindOf kinds t))

/-- The entry for a keyword, which is an expression in lower case. -/
def keywordEntry (kinds : List (Text × TokenKind)) (name : Text) : Entry :=
  (name.lower, Reaction.ofText (kindOf kinds name))

/-- The lexicon for literal texts and keywords, with the kinds of their tokens, and further
entries behind them. -/
def build (literals keywords : List Text) (kinds : List (Text × TokenKind))
    (entries : List Entry) : Except BuildError Lexicon :=
  ofEntries (literals.map (literalEntry kinds) ++ keywords.map (keywordEntry kinds) ++ entries)

/-- What comes next in a text. -/
inductive Next where
  /-- A token. -/
  | token (offset length : Nat) (kind : TokenKind) (literal : Option Literal)
  /-- A text that a rule refuses; `stop` is where it ends. -/
  | rejected (offset stop : Nat) (message : Text)
  /-- Something that no rule matches; `stop` is how far the match came. -/
  | unrecognized (offset stop : Nat) (bytes : Text)
  /-- Nothing but matches that are passed over. -/
  | endOfText
  deriving DecidableEq, Repr

/-- The longest match at the front of a text. -/
def longest (l : Lexicon) (t : Text) : Regex.Longest Rule :=
  Regex.longest (l.rules.map fun rule => (rule, rule.pattern)) t

/-- What comes next in the text `rest`, which starts at `offset`. -/
def next (l : Lexicon) (offset : Nat) (rest : Text) : Next :=
  if rest.isEmpty then .endOfText
  else
    match _h : (l.longest rest).best with
    | none =>
      let seen := (l.longest rest).seen
      .unrecognized offset (offset + seen) (rest.take seen)
    | some (n, rule) =>
      match rule.react (rest.take n) with
      | .skip => l.next (offset + n) (rest.drop n)
      | .token kind literal => .token offset n kind literal
      | .reject message => .rejected offset (offset + n) message
termination_by rest.length
decreasing_by
  have := Regex.best_longest _h
  simp only [List.length_drop]
  omega

/-- The wording of the error for bytes that no rule matches. -/
def unrecognizedMessage (bytes : Text) : Text :=
  Text.ofString "unrecognized input " ++ bytes.quoted

/-- Acts on what was found from the offset `start` on. -/
def act (start : Nat) : Next → ScanAction Bool
  | .unrecognized _ stop bytes => do
    ScanAction.report (unrecognizedMessage bytes)
    ScanAction.advanceTo stop
    return false
  | .rejected _ stop message => do
    ScanAction.report message
    ScanAction.advanceTo stop
    return false
  | .endOfText => do
    ScanAction.advanceTo (← ScanAction.text).length
    return true
  | .token offset length kind literal => do
    if start < offset then
      ScanAction.advanceTo offset
    else
      ScanAction.advanceTo (offset + length)
      ScanAction.addToken kind literal
    return true

/-- Reads a token of the lexicon. -/
def recognize (l : Lexicon) : ScanAction Bool := do
  let c ← Action.read (·.cursor)
  act c.offset (l.next c.offset c.rest)

/-- The recognizer for a lexicon.  It remembers nothing. -/
def recognizer (l : Lexicon) : Recognizer Unit where
  begin _ := pure ()
  recognize _ := do return (← l.recognize, ())

/-- The recognizer for a lexicon that may have failed to build: then each scan starts with
a diagnostic, and nothing is recognized. -/
def recognizerOrError : Except BuildError Lexicon → Recognizer Unit
  | .ok l => l.recognizer
  | .error e => {
      begin := fun _ => ScanAction.reportAt .start
        (Text.ofString "cannot create DFA scanner: " ++ e.message)
      recognize := fun _ => return (false, ()) }

end Lexicon

end FrontEnd
