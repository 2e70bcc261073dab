import FrontEnd.Parser.Action
import Mathlib.Data.List.Basic

/-!
# Tokens by their number

A parser holds the tokens behind its cursor and those in front of it, so that its operations have
nothing to look up.  An `IndexedParser` holds all tokens in one list and the number of the current
one.  It looks tokens up by their number, and this fails if there is no token with it.

Every parser is an indexed one (`Parser.indexed`), and every operation does the same to both.  So
none of the look-ups ever fails (`Parser.inRange`).
-/

namespace FrontEnd

/-- The complaint about a number that no token has. -/
structure NoSuchToken where
  number : Int
  deriving DecidableEq, Repr

/-- A parser that knows all its tokens, and the current one by its number. -/
structure IndexedParser where
  tokens : List Token
  current : Int
  sentinel : Token
  diagnostics : Diagnostics
  recovery : Recovery

namespace IndexedParser

def lookUp (p : IndexedParser) (i : Int) : Except NoSuchToken Token :=
  if i < 0 then .error ⟨i⟩
  else
    match p.tokens[i.toNat]? with
    | none => .error ⟨i⟩
    | some t => .ok t

def atEnd (p : IndexedParser) : Bool := p.tokens.length ≤ p.current

/-- The token with a number, or the end-of-source token if there is none. -/
def token (p : IndexedParser) (i : Int) : Except NoSuchToken Token :=
  if i < 0 ∨ p.tokens.length ≤ i then .ok p.sentinel else p.lookUp i

def peek (p : IndexedParser) : Except NoSuchToken Token := p.token p.current

def peekNext (p : IndexedParser) : Except NoSuchToken Token := p.token (p.current + 1)

def peekPrevious (p : IndexedParser) : Except NoSuchToken Token := p.token (p.current - 1)

def check (p : IndexedParser) (kind : TokenKind) : Except NoSuchToken Bool := do
  return (← p.peek).kind = kind

def errorLocation (p : IndexedParser) : Except NoSuchToken Location := do
  if p.atEnd then return (← p.peekPrevious).location
  return (← p.peek).location

def report (p : IndexedParser) (location : Location) (message : Text) : IndexedParser :=
  { p with diagnostics := p.diagnostics.add location message }

/-- The parser with its cursor one token further. -/
def next (p : IndexedParser) : IndexedParser := { p with current := p.current + 1 }

def advance (p : IndexedParser) : Except NoSuchToken (Token × IndexedParser) :=
  if p.atEnd then .ok (p.sentinel, p)
  else do return (← p.next.lookUp (p.next.current - 1), p.next)

/-- Passes over the current token if it has one of the kinds, which are tried one by one. -/
def acceptOneOf (p : IndexedParser) :
    List TokenKind → Except NoSuchToken (Bool × IndexedParser)
  | [] => .ok (false, p)
  | kind :: kinds => do
    if ← p.check kind then return (true, (← p.advance).2)
    p.acceptOneOf kinds

def accept (p : IndexedParser) (kinds : List TokenKind) :
    Except NoSuchToken (Bool × IndexedParser) :=
  if p.atEnd then .ok (false, p) else p.acceptOneOf kinds

def expect (p : IndexedParser) (kind : TokenKind) (message : Text) :
    Except NoSuchToken (Bool × IndexedParser) := do
  if ← (if p.atEnd then .ok false else p.check kind) then return (true, (← p.advance).2)
  return (false, p.report (← p.errorLocation) message)

theorem lookUp_of_getElem? {p : IndexedParser} {i : Int} {n : Nat} {t : Token} (number : i = n)
    (found : p.tokens[n]? = some t) : p.lookUp i = .ok t := by
  rw [number, lookUp, if_neg (by omega), Int.toNat_natCast, found]

theorem eq_next_of_advance {p q : IndexedParser} {t : Token} (inFront : p.atEnd = false)
    (moved : p.advance = .ok (t, q)) : q = p.next := by
  unfold advance at moved
  rw [inFront] at moved
  simp only [Bool.false_eq_true, ↓reduceIte, bind, Except.bind] at moved
  split at moved
  · cases moved
  · cases moved
    rfl

/-- Passes over tokens up to a place where a statement may start. -/
def skip (p : IndexedParser) : Except NoSuchToken IndexedParser :=
  if _inFront : p.atEnd then .ok p
  else
    match p.peekPrevious, p.peek with
    | .error e, _ => .error e
    | .ok _, .error e => .error e
    | .ok previous, .ok next =>
      if p.recovery.endsBehind previous || p.recovery.startsWith next then .ok p
      else
        match _moved : p.advance with
        | .error e => .error e
        | .ok (_, q) => q.skip
termination_by (p.tokens.length - p.current).toNat
decreasing_by
  rw [eq_next_of_advance (Bool.eq_false_iff.mpr _inFront) _moved]
  rw [atEnd, decide_eq_true_eq, Int.not_le] at _inFront
  change ((p.tokens.length : Int) - (p.current + 1)).toNat < _
  omega

def synchronize (p : IndexedParser) : Except NoSuchToken IndexedParser := do
  (← p.advance).2.skip

end IndexedParser

namespace Parser

/-- All tokens of a parser, those behind the cursor first. -/
def tokens (p : Parser) : List Token := p.consumed.reverse ++ p.rest

/-- The same parser, with its tokens in one list. -/
def indexed (p : Parser) : IndexedParser :=
  ⟨p.tokens, p.position, p.sentinel, p.diagnostics, p.recovery⟩

/-- No operation on the parser looks for a token that does not exist, and each does what it does
with the tokens on both sides of a cursor. -/
structure InRange (p : Parser) : Prop where
  peek : p.indexed.peek = .ok p.peek
  peekNext : p.indexed.peekNext = .ok p.peekNext
  peekPrevious : p.indexed.peekPrevious = .ok p.peekPrevious
  check : ∀ kind, p.indexed.check kind = .ok (p.check kind)
  errorLocation : p.indexed.errorLocation = .ok p.errorLocation
  advance : p.indexed.advance = .ok (p.peek, p.advance.indexed)
  accept : ∀ kinds, p.indexed.accept kinds =
    .ok (((ParseAction.accept kinds).run p).map id indexed)
  expect : ∀ kind message, p.indexed.expect kind message =
    .ok (((ParseAction.expect kind message).run p).map id indexed)
  synchronize : p.indexed.synchronize = .ok p.synchronize.indexed

variable (p : Parser)

theorem length_tokens : p.tokens.length = p.position + p.rest.length := by
  rw [tokens, List.length_append, List.length_reverse, position]

theorem getElem?_tokens_ahead (i : Nat) : p.tokens[p.position + i]? = p.rest[i]? := by
  rw [tokens, position, ← List.length_reverse, List.getElem?_append_right (Nat.le_add_right _ _),
    Nat.add_sub_cancel_left]

theorem getElem?_tokens_previous (t : Token) (consumed : List Token)
    (behind : p.consumed = t :: consumed) : p.tokens[p.position - 1]? = some t := by
  rw [tokens, position, behind, List.reverse_cons, List.length_cons, Nat.add_sub_cancel,
    ← List.length_reverse, List.append_assoc, List.getElem?_append_right (Nat.le_refl _),
    Nat.sub_self]
  rfl

theorem atEnd_indexed : p.indexed.atEnd = p.atEnd := by
  have length := p.length_tokens
  rw [IndexedParser.atEnd, atEnd, Bool.eq_iff_iff, decide_eq_true_iff, List.isEmpty_iff,
    ← List.length_eq_zero_iff]
  change (p.tokens.length : Int) ≤ p.position ↔ _
  omega

/-- The tokens from the cursor on are there, and behind them there is the sentinel. -/
theorem token_indexed_ahead (i : Nat) :
    p.indexed.token (p.position + i : Nat) = .ok (p.rest[i]?.getD p.sentinel) := by
  have length := p.length_tokens
  rw [IndexedParser.token]
  change (if ((p.position + i : Nat) : Int) < 0 ∨ (p.tokens.length : Int) ≤ (p.position + i : Nat)
    then _ else _) = _
  cases ahead : p.rest[i]? with
  | none =>
      have missing := List.getElem?_eq_none_iff.mp ahead
      rw [if_pos (by omega)]
      rfl
  | some t =>
      obtain ⟨present, _⟩ := List.getElem?_eq_some_iff.mp ahead
      rw [if_neg (by omega)]
      exact IndexedParser.lookUp_of_getElem? rfl ((p.getElem?_tokens_ahead i).trans ahead)

theorem peek_indexed : p.indexed.peek = .ok p.peek := by
  rw [peek, List.head?_eq_getElem?]
  exact p.token_indexed_ahead 0

theorem peekNext_indexed : p.indexed.peekNext = .ok p.peekNext := p.token_indexed_ahead 1

theorem peekPrevious_indexed : p.indexed.peekPrevious = .ok p.peekPrevious := by
  have length := p.length_tokens
  rw [IndexedParser.peekPrevious, IndexedParser.token]
  change (if (p.position : Int) - 1 < 0 ∨ (p.tokens.length : Int) ≤ (p.position : Int) - 1
    then _ else _) = _
  cases behind : p.consumed with
  | nil =>
      have first : p.position = 0 := by rw [position, behind, List.length_nil]
      rw [if_pos (by omega), peekPrevious, behind]
      rfl
  | cons t consumed =>
      have later : 0 < p.position := by
        rw [position, behind]
        exact Nat.succ_pos _
      have number : (p.position : Int) - 1 = (p.position - 1 : Nat) := by omega
      rw [if_neg (by omega), peekPrevious, behind]
      exact IndexedParser.lookUp_of_getElem? number (p.getElem?_tokens_previous t consumed behind)

theorem check_indexed (kind : TokenKind) : p.indexed.check kind = .ok (p.check kind) := by
  rw [IndexedParser.check, peek_indexed]
  rfl

theorem errorLocation_indexed : p.indexed.errorLocation = .ok p.errorLocation := by
  rw [IndexedParser.errorLocation, atEnd_indexed, peekPrevious_indexed, peek_indexed, errorLocation]
  cases p.atEnd with
  | true => rfl
  | false => rfl

theorem advance_indexed : p.indexed.advance = .ok (p.peek, p.advance.indexed) := by
  rw [IndexedParser.advance, atEnd_indexed]
  cases ahead : p.rest with
  | nil =>
      have stays : p.advance = p := by rw [advance, ahead]
      rw [atEnd, ahead, stays, peek, ahead]
      rfl
  | cons t rest =>
      have moved : p.advance.indexed = p.indexed.next := by
        rw [advance, ahead, indexed, indexed, tokens, tokens, position, ahead, List.reverse_cons,
          List.append_assoc]
        rfl
      have found : p.tokens[p.position]? = some t := by
        have here := p.getElem?_tokens_ahead 0
        rw [ahead] at here
        exact here
      have look : p.indexed.next.lookUp (p.indexed.next.current - 1) = .ok t :=
        IndexedParser.lookUp_of_getElem? (Int.add_sub_cancel _ _) found
      rw [atEnd, ahead, moved, look, peek, ahead]
      rfl

theorem acceptOneOf_indexed (kinds : List TokenKind) :
    p.indexed.acceptOneOf kinds =
      .ok (if kinds.contains p.peek.kind then (true, p.advance.indexed)
        else (false, p.indexed)) := by
  induction kinds with
  | nil => rfl
  | cons kind kinds ih =>
      rw [IndexedParser.acceptOneOf, check_indexed, advance_indexed, ih, check, List.contains_cons]
      by_cases same : p.peek.kind = kind
      · rw [decide_eq_true same, beq_iff_eq.mpr same]
        rfl
      · rw [decide_eq_false same, beq_false_of_ne same, Bool.false_or]
        rfl

theorem accept_indexed (kinds : List TokenKind) :
    p.indexed.accept kinds = .ok (((ParseAction.accept kinds).run p).map id indexed) := by
  have run : (ParseAction.accept kinds).run p =
      if !p.atEnd && kinds.contains p.peek.kind then (true, p.advance) else (false, p) := rfl
  rw [IndexedParser.accept, atEnd_indexed, acceptOneOf_indexed, run]
  cases p.atEnd with
  | true => rfl
  | false =>
      cases kinds.contains p.peek.kind with
      | true => rfl
      | false => rfl

theorem expect_indexed (kind : TokenKind) (message : Text) :
    p.indexed.expect kind message =
      .ok (((ParseAction.expect kind message).run p).map id indexed) := by
  have run : (ParseAction.expect kind message).run p =
      if !p.atEnd && p.check kind then (true, p.advance)
      else (false, p.report p.errorLocation message) := by
    have accepted : (ParseAction.accept [kind]).run p =
        if !p.atEnd && p.check kind then (true, p.advance) else (false, p) := by
      change (if !p.atEnd && [kind].contains p.peek.kind then _ else _) = _
      rw [List.contains_cons, List.contains_nil, Bool.or_false]
      rfl
    rw [ParseAction.expect, Action.run_bind, accepted]
    split
    · rfl
    · rfl
  rw [IndexedParser.expect, atEnd_indexed, check_indexed, advance_indexed, errorLocation_indexed,
    run]
  cases p.atEnd with
  | true => rfl
  | false =>
      cases p.check kind with
      | true => rfl
      | false => rfl

/-- With a token behind the cursor, skipping looks at the tokens on both sides of it. -/
theorem skip_indexed (behind : p.rest = [] ∨ p.consumed ≠ []) :
    p.indexed.skip = .ok
      { p with
        consumed := (skipFrom p.recovery p.consumed p.rest).1
        rest := (skipFrom p.recovery p.consumed p.rest).2 : Parser }.indexed := by
  generalize known : p.rest = ahead
  induction ahead generalizing p with
  | nil =>
      have ended : p.indexed.atEnd = true := by rw [atEnd_indexed, atEnd, known, List.isEmpty_nil]
      rw [IndexedParser.skip, dif_pos ended, skipFrom, ← known]
  | cons t rest ih =>
      rw [known] at behind
      obtain ⟨u, consumed, last⟩ :=
        List.exists_cons_of_ne_nil (behind.resolve_left (List.cons_ne_nil t rest))
      have inFront : ¬ p.indexed.atEnd = true := by
        rw [atEnd_indexed, atEnd, known]
        exact Bool.false_ne_true
      have next : p.peek = t := by
        rw [peek, known]
        rfl
      have previous : p.peekPrevious = u := by
        rw [peekPrevious, last]
        rfl
      have moved : p.advance = { p with consumed := t :: p.consumed, rest := rest } := by
        rw [advance, known]
      rw [IndexedParser.skip, dif_neg inFront, peekPrevious_indexed, peek_indexed, previous, next,
        skipFrom, last, List.head?_cons, Option.any_some]
      change (if (p.recovery.endsBehind u || p.recovery.startsWith t) = true then _ else _) = _
      by_cases stops : (p.recovery.endsBehind u || p.recovery.startsWith t) = true
      · rw [if_pos stops, if_pos stops, ← last, ← known]
      · rw [if_neg stops, if_neg stops]
        split
        · rename_i failed
          rw [advance_indexed] at failed
          cases failed
        · rename_i q found
          rw [advance_indexed] at found
          cases found
          have rest_eq : p.advance.rest = rest := by rw [moved]
          have consumed_ne : p.advance.consumed ≠ [] := by
            rw [moved]
            exact List.cons_ne_nil _ _
          rw [ih p.advance (Or.inr consumed_ne) rest_eq, moved, last]

theorem synchronize_indexed : p.indexed.synchronize = .ok p.synchronize.indexed := by
  have behind : p.advance.rest = [] ∨ p.advance.consumed ≠ [] := by
    unfold advance
    split
    · rename_i nothing
      exact Or.inl nothing
    · exact Or.inr (List.cons_ne_nil _ _)
  rw [IndexedParser.synchronize, advance_indexed]
  exact p.advance.skip_indexed behind

/-- Whatever state a parser is in, all look-ups of its operations succeed. -/
theorem inRange : p.InRange where
  peek := p.peek_indexed
  peekNext := p.peekNext_indexed
  peekPrevious := p.peekPrevious_indexed
  check := p.check_indexed
  errorLocation := p.errorLocation_indexed
  advance := p.advance_indexed
  accept := p.accept_indexed
  expect := p.expect_indexed
  synchronize := p.synchronize_indexed

end Parser

end FrontEnd
