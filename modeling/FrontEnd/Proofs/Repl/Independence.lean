import FrontEnd.Proofs.Lox.Course
import FrontEnd.Proofs.Parser.Calls
import FrontEnd.Repl.Session

/-!
# The lines of a session are independent

A session has one scanner and one parser for all its lines.  All that a line finds of the earlier
ones is what they have set with commands: what the session shows, but no token, error, statement or
place of an earlier line.  So a session that has seen any lines answers like a new one with the same
settings (`Session.eval_after`).
-/

namespace FrontEnd

/-! ## What scanner and parser keep between two texts -/

namespace Lox

/-- A scan of Lox leaves the comments as they are set. -/
theorem comments_scanRest {style : CommentStyle} {t : Text} {fs : List (Finding × Text)}
    (course : Course style t fs) (s : Scanner) (n : Nat) (known : s.comments = style)
    (faces : s.Faces n t) :
    (Scanner.scanRest recognizer false () s).scanner.comments = style := by
  induction course generalizing s n with
  | nil =>
      rw [scanRest_of_atEnd faces]
      exact known
  | @cons f u v fs finds rest ih =>
      subst known
      obtain ⟨t, same, comments, -, next, -⟩ := scanRest_of_finds faces finds
      rw [same]
      exact ih t (n + u.length) comments next

theorem comments_scan (s : Scanner) (text : Text) : (scan s text).comments = s.comments := by
  obtain ⟨fs, course⟩ := exists_course s.comments text
  exact comments_scanRest course (s.reset text) 0 rfl (s.faces_reset text)

/-- Nothing but the set comments of a scanner matters to a scan. -/
theorem scan_congr {s t : Scanner} (same : s.comments = t.comments) (text : Text) :
    scan s text = scan t text := by
  have reset : s.reset text = t.reset text := by rw [Scanner.reset, Scanner.reset, same]
  rw [scan, scan, Scanner.scan, Scanner.scan, reset]

end Lox

namespace Parser

variable {p q : Parser}

theorem load_congr (same : p.recovery = q.recovery) (tokens : List Token) :
    p.load tokens = q.load tokens := by
  rw [load, load, same]

end Parser

namespace Lox.Parser

variable {lp lq : Parser}

theorem recovery_parse (lp : Parser) (tokens : List Token) :
    (lp.parse tokens).base.recovery = lp.base.recovery :=
  (FrontEnd.Parser.reaches_parse grammar false [] lp.base (dropComments tokens)).recovery_eq

/-- Nothing but the places to resume at matters to a parse. -/
theorem parse_congr (same : lp.base.recovery = lq.base.recovery) (tokens : List Token) :
    lp.parse tokens = lq.parse tokens := by
  rw [parse, parse, FrontEnd.Parser.parse, FrontEnd.Parser.parse, FrontEnd.Parser.load_congr same]

end Lox.Parser

namespace Repl

/-! ## Settings -/

/-- The command on a line, if there is one. -/
def command? : Text → Option Command
  | 0x3A :: words => some (.ofWords (Text.words words))
  | _ => none

namespace Command

/-- What a command sets about the display of tokens. -/
def tokens? : Command → Option Bool
  | .tokens shown => some shown
  | _ => none

/-- What a command sets about the display of trees. -/
def tree? : Command → Option Bool
  | .tree shown => some shown
  | _ => none

end Command

/-- A setting after some lines: what the last command about it says, if there is one. -/
def settingAfter (set? : Command → Option Bool) (initial : Bool) (lines : List Text) : Bool :=
  (lines.filterMap fun line => (command? line).bind set?).getLast?.getD initial

theorem settingAfter_cons (set? : Command → Option Bool) (initial : Bool) (line : Text)
    (lines : List Text) :
    settingAfter set? initial (line :: lines) =
      settingAfter set? (((command? line).bind set?).getD initial) lines := by
  unfold settingAfter
  rw [List.filterMap_cons]
  cases (command? line).bind set? with
  | none => rfl
  | some shown =>
      dsimp only
      rw [List.getLast?_cons, Option.getD_some, Option.getD_some]

namespace Session

/-- The session after it has evaluated lines. -/
def after (s : Session) (lines : List Text) : Session :=
  lines.foldl (fun s line => (s.eval line).2) s

/-- The sessions have the same settings, though what they hold of their last lines may differ. -/
structure Alike (s t : Session) : Prop where
  comments : s.scanner.comments = t.scanner.comments
  recovery : s.parser.base.recovery = t.parser.base.recovery
  showTokens : s.showTokens = t.showTokens
  showTree : s.showTree = t.showTree

variable {s t : Session}

theorem eval_eq (s : Session) (line : Text) :
    s.eval line =
      match command? line with
      | some command => s.execute command
      | none => s.evaluate line := by
  unfold eval
  split
  · rfl
  · rename_i other
    rw [command?]
    exact other

/-- A program is evaluated the same way, and leaves the same behind. -/
theorem Alike.evaluate_eq (alike : Alike s t) (line : Text) :
    s.evaluate line = t.evaluate line := by
  unfold evaluate
  dsimp only
  rw [Lox.scan_congr alike.comments, Lox.Parser.parse_congr alike.recovery, alike.showTokens,
    alike.showTree]

theorem Alike.reply_eq (alike : Alike s t) (line : Text) : (s.eval line).1 = (t.eval line).1 := by
  rw [eval_eq, eval_eq]
  cases command? line with
  | none => exact congrArg Prod.fst (alike.evaluate_eq line)
  | some command => cases command <;> rfl

/-- Of a line, only what it sets stays. -/
theorem Alike.eval {recordComments showTokens showTree : Bool}
    (alike : Alike s (new recordComments showTokens showTree)) (line : Text) :
    Alike (s.eval line).2
      (new recordComments (((command? line).bind Command.tokens?).getD showTokens)
        (((command? line).bind Command.tree?).getD showTree)) := by
  rw [eval_eq]
  cases command? line with
  | none =>
      refine ⟨?_, ?_, alike.showTokens, alike.showTree⟩
      · exact (Lox.comments_scan s.scanner line).trans alike.comments
      · exact (Lox.Parser.recovery_parse s.parser _).trans alike.recovery
  | some command =>
      cases command with
      | tokens shown => exact { alike with showTokens := rfl }
      | tree shown => exact { alike with showTree := rfl }
      | nothing => exact alike
      | quit => exact alike
      | unknown => exact alike

theorem Alike.after {recordComments showTokens showTree : Bool}
    (alike : Alike s (new recordComments showTokens showTree)) (lines : List Text) :
    Alike (s.after lines)
      (new recordComments (settingAfter Command.tokens? showTokens lines)
        (settingAfter Command.tree? showTree lines)) := by
  induction lines generalizing s showTokens showTree with
  | nil => exact alike
  | cons line lines ih =>
      rw [settingAfter_cons, settingAfter_cons]
      exact ih (alike.eval line)

/-- A line that follows other lines is answered like the first line of a session with the settings
that the commands among them leave.  If it is a program, everything the session holds then is the
same, too. -/
theorem eval_after (recordComments showTokens showTree : Bool) (earlier : List Text)
    (line : Text) :
    let used := (new recordComments showTokens showTree).after earlier
    let fresh := new recordComments (settingAfter Command.tokens? showTokens earlier)
      (settingAfter Command.tree? showTree earlier)
    (used.eval line).1 = (fresh.eval line).1 ∧
      (command? line = none → (used.eval line).2 = (fresh.eval line).2) ∧
      ∀ name, command? line = some (.unknown name) → (used.eval line).2 = used := by
  intro used fresh
  have alike : Alike used fresh := Alike.after ⟨rfl, rfl, rfl, rfl⟩ earlier
  refine ⟨alike.reply_eq line, fun program => ?_, fun name unknown => ?_⟩
  · rw [eval_eq, eval_eq, program]
    exact congrArg Prod.snd (alike.evaluate_eq line)
  · rw [eval_eq, unknown]
    rfl

end Session

end Repl

end FrontEnd
