import FrontEnd.Action
import FrontEnd.Diagnostic
import FrontEnd.Parser.KeywordSet

/-!
# Parsers

A parser goes through a list of tokens with a cursor and collects diagnostics.  At the end
of the list it sees an end-of-source token, which stands where the last token stands.

`Parser.Step` lists the single steps of a parser: it passes over a token or notes an error.
Everything a grammar may do to a parser is made of these steps.

After an error a parser can skip tokens up to a place where a statement may start:
`Parser.synchronize`.
-/

namespace FrontEnd

/-- Where statements end and start.  A terminator that is not positive stands for "no
terminator". -/
structure Recovery where
  terminator : TokenKind
  starts : Option KeywordSet
  deriving DecidableEq, Repr

namespace Recovery

/-- Nothing ends or starts a statement. -/
def off : Recovery := ⟨0, none⟩

/-- Whether a statement ends behind a token. -/
def endsBehind (r : Recovery) (t : Token) : Bool :=
  0 < r.terminator && t.kind = r.terminator

/-- Whether a statement starts with a token. -/
def startsWith (r : Recovery) (t : Token) : Bool :=
  r.starts.any (·.contains t.kind)

end Recovery

/-- The state of a parser. -/
structure Parser where
  /-- The tokens behind the cursor, the latest one first. -/
  consumed : List Token
  /-- The tokens in front of the cursor. -/
  rest : List Token
  /-- The token that stands for the end of the source. -/
  sentinel : Token
  diagnostics : Diagnostics
  recovery : Recovery
  deriving DecidableEq, Repr

namespace Parser

/-- The end-of-source token for a list of tokens: it stands where the last token does. -/
def sentinelFor (tokens : List Token) : Token :=
  match tokens.getLast? with
  | none => ⟨.endOfSource, [], .start, .null, none⟩
  | some last => ⟨.endOfSource, [], last.location, ⟨last.span.stop, last.span.stop⟩, none⟩

/-- A parser that has not seen any tokens yet. -/
def new (recovery : Recovery) : Parser :=
  ⟨[], [], sentinelFor [], .empty, recovery⟩

/-- A parser in front of a new list of tokens. -/
def load (p : Parser) (tokens : List Token) : Parser :=
  { p with
    consumed := []
    rest := tokens
    sentinel := sentinelFor tokens
    diagnostics := .empty }

/-- Whether all tokens are behind the cursor. -/
def atEnd (p : Parser) : Bool := p.rest.isEmpty

/-- The number of tokens behind the cursor. -/
def position (p : Parser) : Nat := p.consumed.length

/-- The number of tokens. -/
def tokenCount (p : Parser) : Nat := p.consumed.length + p.rest.length

/-- The token in front of the cursor. -/
def peek (p : Parser) : Token := p.rest.head?.getD p.sentinel

/-- The token behind the one in front of the cursor. -/
def peekNext (p : Parser) : Token := p.rest[1]?.getD p.sentinel

/-- The token right behind the cursor. -/
def peekPrevious (p : Parser) : Token := p.consumed.head?.getD p.sentinel

/-- Whether the token in front of the cursor has the given kind. -/
def check (p : Parser) (k : TokenKind) : Bool := p.peek.kind = k

/-- Where to report an error at the cursor: at the token in front of it, or at the last
token if there is none. -/
def errorLocation (p : Parser) : Location :=
  if p.atEnd then p.peekPrevious.location else p.peek.location

/-- Passes over the token in front of the cursor, if there is one. -/
def advance (p : Parser) : Parser :=
  match p.rest with
  | [] => p
  | t :: rest => { p with consumed := t :: p.consumed, rest := rest }

/-- Notes an error. -/
def report (p : Parser) (location : Location) (message : Text) : Parser :=
  { p with diagnostics := p.diagnostics.add location message }

/-- The single steps of a parser. -/
inductive Step : Parser → Parser → Prop where
  | advance (p : Parser) : Step p p.advance
  | report (p : Parser) (location : Location) (message : Text) :
      Step p (p.report location message)

/-- The parser takes single steps from one state to another. -/
abbrev Reaches : Parser → Parser → Prop := Steps Step

/-- Passes over `n` tokens, or over all if there are fewer. -/
def advanceBy (p : Parser) : Nat → Parser
  | 0 => p
  | n + 1 => p.advance.advanceBy n

theorem Reaches.advanceBy (p : Parser) (n : Nat) : Reaches p (p.advanceBy n) := by
  induction n generalizing p with
  | zero => exact .refl p
  | succ n ih => exact (Steps.single (.advance p)).trans (ih p.advance)

/-- Skips tokens until a statement ends behind the last one or starts with the next one. -/
def skipFrom (r : Recovery) (consumed : List Token) : List Token → List Token × List Token
  | [] => (consumed, [])
  | t :: rest =>
    if consumed.head?.any r.endsBehind || r.startsWith t then (consumed, t :: rest)
    else skipFrom r (t :: consumed) rest

/-- Skips at least one token, and then all tokens up to a place where a statement may
start. -/
def synchronize (p : Parser) : Parser :=
  let p := p.advance
  match skipFrom p.recovery p.consumed p.rest with
  | (consumed, rest) => { p with consumed := consumed, rest := rest }

theorem reaches_skipFrom (r : Recovery) (p : Parser) :
    Reaches p { p with
      consumed := (skipFrom r p.consumed p.rest).1
      rest := (skipFrom r p.consumed p.rest).2 } := by
  generalize hc : p.consumed = consumed
  generalize hr : p.rest = rest
  induction rest generalizing p consumed with
  | nil => subst hc; simp only [skipFrom, ← hr]; exact .refl p
  | cons t rest ih =>
    subst hc
    simp only [skipFrom]
    split
    · simp only [← hr]; exact .refl p
    · have step : Reaches p p.advance := .single (.advance p)
      have := ih p.advance (t :: p.consumed) (by simp [advance, hr]) (by simp [advance, hr])
      exact step.trans (by simpa [advance, hr] using this)

theorem Reaches.synchronize (p : Parser) : Reaches p p.synchronize :=
  (Steps.single (.advance p)).trans (reaches_skipFrom p.advance.recovery p.advance)

@[simp] theorem tokenCount_advance (p : Parser) : p.advance.tokenCount = p.tokenCount := by
  unfold advance
  split
  · rfl
  · rename_i h
    simp only [tokenCount, h, List.length_cons]
    omega

/-- No step loses or makes tokens. -/
theorem Reaches.tokenCount_eq {p q : Parser} (h : Reaches p q) :
    q.tokenCount = p.tokenCount := by
  induction h with
  | refl => rfl
  | tail _ step ih =>
    rw [← ih]
    cases step with
    | advance => exact tokenCount_advance _
    | report => rfl

/-- The cursor never moves backwards. -/
theorem Reaches.position_le {p q : Parser} (h : Reaches p q) : p.position ≤ q.position := by
  induction h with
  | refl => exact Nat.le_refl _
  | tail _ step ih =>
    refine Nat.le_trans ih ?_
    cases step with
    | advance =>
      unfold Parser.advance
      split
      · exact Nat.le_refl _
      · simp [position]
    | report => exact Nat.le_refl _

/-- A cursor that has moved has fewer tokens in front of it. -/
theorem Reaches.length_lt {p q : Parser} (h : Reaches p q) (moved : q.position ≠ p.position) :
    q.rest.length < p.rest.length := by
  have := h.tokenCount_eq
  have := h.position_le
  simp only [tokenCount, position] at *
  omega

end Parser

end FrontEnd
