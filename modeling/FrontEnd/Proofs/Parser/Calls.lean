import FrontEnd.Parser.Parse
import FrontEnd.Proofs.Parser.Indexed

/-!
# The calls of a grammar

A parse calls its grammar over and over, and the grammar is free in what it does to the parser, as
long as it takes single steps.  `Grammar.logged g` is the grammar `g` with a log of what happens to
it.  The log shows that the parser is handed on from one call to the next (`Chain`), that every call
but the last one moves the cursor, and that the loop ends for one of three reasons (`Ending`), only
one of which makes the parse note an error of its own (`parse_calls`).
-/

namespace FrontEnd

theorem Verdict.eq_proceed {verdict : Verdict} (goesOn : ¬ verdict = .stop) :
    verdict = .proceed := by
  cases verdict with
  | proceed => rfl
  | stop => exact absurd rfl goesOn

/-- A call of a grammar: the parser before and after it, and whether the grammar wants to go on. -/
structure Call where
  before : Parser
  verdict : Verdict
  after : Parser

namespace Grammar

/-- What happens to a grammar during a parse. -/
inductive Event where
  | begun (before after : Parser)
  | called (call : Call)
  | finished (before after : Parser)

/-- The grammar with a log of what happens to it, the latest event first. -/
def logged {σ : Type} (g : Grammar σ) : Grammar (σ × List Event) where
  begin m := do
    let before ← Action.read id
    let memory ← g.begin m.1
    let after ← Action.read id
    return (memory, .begun before after :: m.2)
  parse m := do
    let before ← Action.read id
    let (verdict, memory) ← g.parse m.1
    let after ← Action.read id
    return (verdict, memory, .called ⟨before, verdict, after⟩ :: m.2)
  finish m := do
    let before ← Action.read id
    let memory ← g.finish m.1
    let after ← Action.read id
    return (memory, .finished before after :: m.2)

end Grammar

namespace Call

/-- The grammar goes on, and has passed over a token. -/
def Moves (c : Call) : Prop := c.verdict = .proceed ∧ c.before.position < c.after.position

/-- The grammar goes on, but has not passed over any token. -/
def Stalls (c : Call) : Prop := c.verdict = .proceed ∧ c.after.position = c.before.position

/-- The parser is handed on from `start` through the calls, and is in the state `last` then. -/
def Chain (start : Parser) : List Call → Parser → Prop
  | [], last => last = start
  | c :: calls, last => c.before = start ∧ Chain c.after calls last

end Call

namespace Parser

/-- Why the loop of a parse ends. -/
inductive Ending where
  | consumed
  | stopped
  | stuck
  deriving DecidableEq, Repr

/-- The reason to end a loop behind a call, if it does end there. -/
def Ending.reason (c : Call) : Ending :=
  if c.verdict = .stop then .stopped
  else if c.after.position = c.before.position then .stuck
  else .consumed

/-- What it means that a loop ends for a reason: `calls` are its calls, `last` is the state of the
parser after them, and `stop` the state at the end of the loop.  These two differ only if the grammar
is stuck: then there is one more error, at the token in front of the cursor. -/
def Ending.Holds (calls : List Call) (last stop : Parser) : Ending → Prop
  | .consumed => (∀ c ∈ calls, c.Moves) ∧ last.atEnd = true ∧ stop = last
  | .stopped => (∃ c, calls.getLast? = some c ∧ c.verdict = .stop) ∧ stop = last
  | .stuck => (∃ c, calls.getLast? = some c ∧ c.Stalls) ∧
      ∃ t, last.tokens[last.position]? = some t ∧
        stop = { last with diagnostics := stop.diagnostics } ∧
        stop.diagnostics.toList =
          last.diagnostics.toList ++ [⟨t.location, stuckDiagnostic t.lexeme⟩]

/-- The loop of a parse over `tokens` from the state `start` to the state `stop`. -/
structure Loop (tokens : List Token) (start : Parser) (calls : List Call) (stop : Parser) :
    Prop where
  count : calls.length ≤ tokens.length
  inFront : ∀ c ∈ calls, c.before.atEnd = false
  reaches : ∀ c ∈ calls, Reaches c.before c.after
  moves : ∀ c ∈ calls.dropLast, c.Moves
  ends : ∃ last, Call.Chain start calls last ∧ ∃! ending : Ending, ending.Holds calls last stop

/-! ## What single steps keep -/

section Steps

variable {p q : Parser}

theorem tokens_advance (p : Parser) : p.advance.tokens = p.tokens := by
  unfold advance
  split
  · rfl
  · rename_i t rest ahead
    rw [tokens, tokens, ahead, List.reverse_cons, List.append_assoc]
    rfl

theorem diagnostics_advance (p : Parser) : p.advance.diagnostics = p.diagnostics := by
  unfold advance
  split <;> rfl

theorem recovery_advance (p : Parser) : p.advance.recovery = p.recovery := by
  unfold advance
  split <;> rfl

theorem Reaches.tokens_eq (reaches : Reaches p q) : q.tokens = p.tokens := by
  induction reaches with
  | refl => rfl
  | tail _ step ih =>
      cases step with
      | advance => exact (tokens_advance _).trans ih
      | report => exact ih

theorem Reaches.recovery_eq (reaches : Reaches p q) : q.recovery = p.recovery := by
  induction reaches with
  | refl => rfl
  | tail _ step ih =>
      cases step with
      | advance => exact (recovery_advance _).trans ih
      | report => exact ih

theorem Reaches.diagnostics_prefix (reaches : Reaches p q) :
    p.diagnostics.toList <+: q.diagnostics.toList := by
  induction reaches with
  | refl => exact List.prefix_refl _
  | tail _ step ih =>
      cases step with
      | advance =>
          rw [diagnostics_advance]
          exact ih
      | report =>
          apply ih.trans
          change _ <+: Diagnostics.toList (Diagnostics.add _ _ _)
          rw [Diagnostics.toList_add]
          exact List.prefix_append _ _

/-- In every state that a parse can get into, the tokens are those of the parse, the cursor is among
them, and no operation looks for a token that does not exist. -/
theorem Reaches.inTokens {tokens : List Token} (reaches : Reaches (p.load tokens) q) :
    q.tokens = tokens ∧ q.position ≤ tokens.length ∧ q.InRange := by
  have same : q.tokens = tokens := reaches.tokens_eq
  refine ⟨same, ?_, q.inRange⟩
  rw [← same, length_tokens]
  exact Nat.le_add_right _ _

end Steps

/-! ## The loop -/

/-- The rounds of a loop: each but the last one is a call that moves the cursor. -/
inductive Rounds : Parser → List Call → Parser → Ending → Prop where
  | consumed {p : Parser} (ended : p.atEnd = true) : Rounds p [] p .consumed
  | stopped {p q : Parser} (inFront : p.atEnd = false) (reaches : Reaches p q) :
      Rounds p [⟨p, .stop, q⟩] q .stopped
  | stuck {p q : Parser} (inFront : p.atEnd = false) (reaches : Reaches p q)
      (stays : q.position = p.position) :
      Rounds p [⟨p, .proceed, q⟩] (q.report q.peek.location (stuckDiagnostic q.peek.lexeme)) .stuck
  | next {p q stop : Parser} {calls : List Call} {ending : Ending} (inFront : p.atEnd = false)
      (reaches : Reaches p q) (moves : p.position < q.position)
      (rest : Rounds q calls stop ending) :
      Rounds p (⟨p, .proceed, q⟩ :: calls) stop ending

section Loop

variable {σ : Type} {p stop : Parser} {calls : List Call} {ending : Ending}

theorem reaches_parseRest (g : Grammar σ) (strict : Bool) (memory : σ) (p : Parser) :
    Reaches p (parseRest g strict memory p).parser := by
  fun_induction parseRest g strict memory p with
  | case1 => exact .refl _
  | case2 memory p => exact (g.parse memory).reaches p
  | case3 memory p => exact (g.parse memory).reaches p
  | case4 memory p => exact .tail ((g.parse memory).reaches p) (.report _ _ _)
  | case5 memory p _ _ _ _ _ ih => exact ((g.parse memory).reaches p).trans ih

/-- A parse takes single steps only, whatever the grammar is. -/
theorem reaches_parse (g : Grammar σ) (strict : Bool) (memory : σ) (p : Parser)
    (tokens : List Token) : Reaches (p.load tokens) (parse g strict memory p tokens).parser := by
  have rest := ((g.begin memory).reaches (p.load tokens)).trans
    (reaches_parseRest g strict ((g.begin memory).run (p.load tokens)).1 _)
  unfold parse
  dsimp only
  split
  · exact .refl _
  · split
    · exact rest
    · exact rest.trans ((g.finish _).reaches _)

/-- One round of a loop that is not strict. -/
theorem parseRest_of_run {g : Grammar σ} {memory next : σ} {p q : Parser} {verdict : Verdict}
    (inFront : ¬ p.atEnd = true) (run : (g.parse memory).run p = ((verdict, next), q)) :
    parseRest g false memory p =
      if verdict = .stop then ⟨q, next, none⟩
      else if q.position = p.position then
        ⟨q.report q.peek.location (stuckDiagnostic q.peek.lexeme), next, none⟩
      else parseRest g false next q := by
  rw [parseRest, if_neg inFront, run]
  rfl

theorem run_logged (g : Grammar σ) (memory : σ) (log : List Grammar.Event) (p : Parser) :
    (g.logged.parse (memory, log)).run p =
      ((((g.parse memory).run p).1.1, ((g.parse memory).run p).1.2,
        .called ⟨p, ((g.parse memory).run p).1.1, ((g.parse memory).run p).2⟩ :: log),
        ((g.parse memory).run p).2) := rfl

/-- Keeping a log changes nothing else, and the log of a loop is that of its rounds. -/
theorem parseRest_logged (g : Grammar σ) (memory : σ) (log : List Grammar.Event) (p : Parser) :
    ∃ calls ending, parseRest g.logged false (memory, log) p =
        ⟨(parseRest g false memory p).parser, ((parseRest g false memory p).memory,
          (calls.map Grammar.Event.called).reverse ++ log), none⟩ ∧
      (parseRest g false memory p).stuck = none ∧
      Rounds p calls (parseRest g false memory p).parser ending := by
  fun_induction parseRest g false memory p generalizing log with
  | case1 memory p ended =>
      refine ⟨[], .consumed, ?_, rfl, .consumed ended⟩
      rw [parseRest, if_pos ended]
      rfl
  | case2 memory p inFront result q stops =>
      have reaches : Reaches p q := (g.parse memory).reaches p
      refine ⟨[⟨p, .stop, q⟩], .stopped, ?_, rfl,
        .stopped (Bool.eq_false_iff.mpr inFront) reaches⟩
      rw [parseRest_of_run inFront (run_logged g memory log p), if_pos stops, ← stops]
      rfl
  | case3 memory p inFront result q goesOn stays strict => cases strict
  | case4 memory p inFront result q goesOn stays strict =>
      have reaches : Reaches p q := (g.parse memory).reaches p
      have verdict := Verdict.eq_proceed goesOn
      refine ⟨[⟨p, .proceed, q⟩], .stuck, ?_, rfl,
        .stuck (Bool.eq_false_iff.mpr inFront) reaches stays⟩
      rw [parseRest_of_run inFront (run_logged g memory log p), if_neg goesOn, if_pos stays,
        ← verdict]
      rfl
  | case5 memory p inFront result q goesOn moved ih =>
      have reaches : Reaches p q := (g.parse memory).reaches p
      have verdict := Verdict.eq_proceed goesOn
      obtain ⟨calls, ending, same, notStuck, rounds⟩ := ih (.called ⟨p, result.1.1, q⟩ :: log)
      refine ⟨⟨p, .proceed, q⟩ :: calls, ending, ?_, notStuck,
        .next (Bool.eq_false_iff.mpr inFront) reaches
          (Nat.lt_of_le_of_ne reaches.position_le (Ne.symm moved)) rounds⟩
      rw [parseRest_of_run inFront (run_logged g memory log p), if_neg goesOn, if_neg moved]
      refine same.trans ?_
      rw [verdict, List.map_cons, List.reverse_cons, List.append_assoc]
      rfl

theorem length_pos_of_inFront (inFront : p.atEnd = false) : 0 < p.rest.length := by
  rw [atEnd, List.isEmpty_eq_false_iff] at inFront
  exact List.length_pos_iff.mpr inFront

/-- Every round but the last one leaves fewer tokens. -/
theorem Rounds.count (rounds : Rounds p calls stop ending) : calls.length ≤ p.rest.length := by
  induction rounds with
  | consumed => exact Nat.zero_le _
  | stopped inFront => exact length_pos_of_inFront inFront
  | stuck inFront => exact length_pos_of_inFront inFront
  | next _ reaches moves _ ih =>
      exact Nat.succ_le_of_lt (Nat.lt_of_le_of_lt ih (reaches.length_lt (Nat.ne_of_gt moves)))

theorem Rounds.each_call (rounds : Rounds p calls stop ending) :
    ∀ c ∈ calls, c.before.atEnd = false ∧ Reaches c.before c.after := by
  induction rounds with
  | consumed => exact fun _ member => absurd member List.not_mem_nil
  | stopped inFront reaches =>
      intro c member
      obtain rfl := List.mem_singleton.mp member
      exact ⟨inFront, reaches⟩
  | stuck inFront reaches =>
      intro c member
      obtain rfl := List.mem_singleton.mp member
      exact ⟨inFront, reaches⟩
  | next inFront reaches _ _ ih =>
      intro c member
      rcases List.mem_cons.mp member with rfl | later
      · exact ⟨inFront, reaches⟩
      · exact ih c later

theorem Rounds.moves (rounds : Rounds p calls stop ending) : ∀ c ∈ calls.dropLast, c.Moves := by
  induction rounds with
  | consumed => exact fun _ member => absurd member List.not_mem_nil
  | stopped => exact fun _ member => absurd member List.not_mem_nil
  | stuck => exact fun _ member => absurd member List.not_mem_nil
  | @next p q stop calls ending _ _ moves _ ih =>
      cases calls with
      | nil => exact fun _ member => absurd member List.not_mem_nil
      | cons d calls =>
          rw [List.dropLast_cons_cons]
          intro c member
          rcases List.mem_cons.mp member with rfl | later
          · exact ⟨rfl, moves⟩
          · exact ih c later

/-- A grammar that does not move leaves a token in front of the cursor. -/
theorem exists_token_of_stays {q : Parser} (inFront : p.atEnd = false) (reaches : Reaches p q)
    (stays : q.position = p.position) :
    ∃ t, q.tokens[q.position]? = some t ∧ q.peek = t := by
  have present : q.rest ≠ [] := by
    have total := reaches.tokenCount_eq
    have some := length_pos_of_inFront inFront
    simp only [tokenCount, position] at total stays
    exact List.length_pos_iff.mp (by omega)
  obtain ⟨t, rest, ahead⟩ := List.exists_cons_of_ne_nil present
  have here := q.getElem?_tokens_ahead 0
  rw [ahead] at here
  refine ⟨t, here, ?_⟩
  rw [peek, ahead]
  rfl

theorem Rounds.ends (rounds : Rounds p calls stop ending) :
    ∃ last, Call.Chain p calls last ∧ ending.Holds calls last stop := by
  induction rounds with
  | consumed ended =>
      exact ⟨_, rfl, fun _ member => absurd member List.not_mem_nil, ended, rfl⟩
  | stopped => exact ⟨_, ⟨rfl, rfl⟩, ⟨_, rfl, rfl⟩, rfl⟩
  | stuck inFront reaches stays =>
      obtain ⟨t, here, ahead⟩ := exists_token_of_stays inFront reaches stays
      refine ⟨_, ⟨rfl, rfl⟩, ⟨_, rfl, rfl, stays⟩, t, here, rfl, ?_⟩
      rw [ahead]
      exact Diagnostics.toList_add _ _ _
  | @next p q stop calls ending _ _ moves _ ih =>
      obtain ⟨last, chain, holds⟩ := ih
      refine ⟨last, ⟨rfl, chain⟩, ?_⟩
      -- The last call of the rounds that follow is the last of all.
      have later {c : Call} (isLast : calls.getLast? = some c) :
          (⟨p, .proceed, q⟩ :: calls : List Call).getLast? = some c := by
        rw [List.getLast?_cons, isLast]
        rfl
      cases ending with
      | consumed =>
          obtain ⟨all, rest⟩ := holds
          exact ⟨List.forall_mem_cons.mpr ⟨⟨rfl, moves⟩, all⟩, rest⟩
      | stopped =>
          obtain ⟨⟨c, isLast, stops⟩, same⟩ := holds
          exact ⟨⟨c, later isLast, stops⟩, same⟩
      | stuck =>
          obtain ⟨⟨c, isLast, stalls⟩, noted⟩ := holds
          exact ⟨⟨c, later isLast, stalls⟩, noted⟩

/-- What the last call of a loop comes to tells why the loop ends, so there are no two reasons. -/
theorem Ending.Holds.eq_reason {last : Parser} (holds : ending.Holds calls last stop) :
    ending = (calls.getLast?.map reason).getD .consumed := by
  cases ending with
  | consumed =>
      obtain ⟨moves, -⟩ := holds
      cases isLast : calls.getLast? with
      | none => rfl
      | some c =>
          obtain ⟨proceeds, further⟩ := moves c (List.mem_of_getLast? isLast)
          rw [Option.map_some, reason, proceeds, if_neg Verdict.noConfusion,
            if_neg (Nat.ne_of_gt further)]
          rfl
  | stopped =>
      obtain ⟨⟨c, isLast, stops⟩, -⟩ := holds
      rw [isLast, Option.map_some, reason, if_pos stops]
      rfl
  | stuck =>
      obtain ⟨⟨c, isLast, proceeds, stays⟩, -⟩ := holds
      rw [isLast, Option.map_some, reason, proceeds, if_neg Verdict.noConfusion, if_pos stays]
      rfl

/-- The rounds of a loop, put in terms of its calls. -/
theorem Rounds.loop {tokens : List Token} (rounds : Rounds p calls stop ending)
    (ofTokens : p.tokens = tokens) : Loop tokens p calls stop := by
  obtain ⟨last, chain, holds⟩ := rounds.ends
  refine ⟨?_, fun c member => (rounds.each_call c member).1,
    fun c member => (rounds.each_call c member).2, rounds.moves,
    last, chain, ending, holds, fun _ other => other.eq_reason.trans holds.eq_reason.symm⟩
  rw [← ofTokens, length_tokens]
  exact Nat.le_trans rounds.count (Nat.le_add_left _ _)

theorem parse_of_parseRest {g : Grammar σ} {strict : Bool} {memory next : σ} {tokens : List Token}
    (nonempty : tokens ≠ [])
    (rest : parseRest g strict ((g.begin memory).run (p.load tokens)).1
      ((g.begin memory).run (p.load tokens)).2 = ⟨stop, next, none⟩) :
    parse g strict memory p tokens =
      ⟨((g.finish next).run stop).2, ((g.finish next).run stop).1, none⟩ := by
  have notEmpty : ¬ tokens.isEmpty = true := mt List.isEmpty_iff.mp nonempty
  unfold parse
  dsimp only
  rw [if_neg notEmpty, rest]
  rfl

end Loop

/-- A parser with any grammar, as a machine.  The cursor stays among the tokens and the errors only
grow, whatever the grammar does.  The log of a parse has one beginning, the calls of one loop, and
one end, and there is none of an empty list of tokens. -/
theorem parse_calls {σ : Type} (g : Grammar σ) (memory : σ) (p : Parser) (tokens : List Token) :
    (∀ t, Reaches (p.load tokens) t →
      t.tokens = tokens ∧ t.position ≤ tokens.length ∧ t.InRange ∧
        ∀ u, Reaches t u →
          t.position ≤ u.position ∧ t.diagnostics.toList <+: u.diagnostics.toList) ∧
    Reaches (p.load tokens) (parse g false memory p tokens).parser ∧
    (parse g false memory p tokens).stuck = none ∧
    ∃ events, parse g.logged false (memory, []) p tokens =
        ⟨(parse g false memory p tokens).parser,
          ((parse g false memory p tokens).memory, events), none⟩ ∧
      (tokens = [] → events = [] ∧ (parse g false memory p tokens).parser = p.load []) ∧
      (tokens ≠ [] → ∃ start calls stop,
        events.reverse = .begun (p.load tokens) start :: calls.map .called ++
          [.finished stop (parse g false memory p tokens).parser] ∧
        Reaches (p.load tokens) start ∧ Loop tokens start calls stop ∧
        Reaches stop (parse g false memory p tokens).parser) := by
  refine ⟨fun t reaches => ?_, reaches_parse g false memory p tokens, ?_⟩
  · obtain ⟨same, bound, inRange⟩ := reaches.inTokens
    exact ⟨same, bound, inRange, fun u further => ⟨further.position_le, further.diagnostics_prefix⟩⟩
  · by_cases nonempty : tokens ≠ []
    · let start := (g.begin memory).run (p.load tokens)
      have begins : Reaches (p.load tokens) start.2 := (g.begin memory).reaches _
      obtain ⟨calls, ending, logged, notStuck, rounds⟩ :=
        parseRest_logged g start.1 [.begun (p.load tokens) start.2] start.2
      generalize known : parseRest g false start.1 start.2 = rest at logged notStuck rounds
      obtain ⟨stop, next, stuck⟩ := rest
      obtain rfl : stuck = none := notStuck
      have ends : Reaches stop ((g.finish next).run stop).2 := (g.finish next).reaches _
      rw [parse_of_parseRest nonempty known, parse_of_parseRest nonempty logged]
      refine ⟨rfl, _, rfl, fun empty => absurd empty nonempty,
        fun _ => ⟨start.2, calls, stop, ?_, begins, rounds.loop begins.tokens_eq, ends⟩⟩
      simp
    · obtain rfl := not_not.mp nonempty
      exact ⟨rfl, [], rfl, fun _ => ⟨rfl, rfl⟩, fun absent => absurd rfl absent⟩

end Parser

end FrontEnd
