import FrontEnd.Diagnostics.Store
import FrontEnd.Expr.Tree
import FrontEnd.Lexicon
import FrontEnd.Main
import FrontEnd.Parser.Script
import FrontEnd.Proofs.Lox.Acceptance
import FrontEnd.Proofs.Lox.Containment
import FrontEnd.Proofs.Lox.Statements
import FrontEnd.Proofs.Lox.Suggestions
import FrontEnd.Scanner.Script
import FrontEnd.Scanner.Words
import FrontEnd.Proofs.Text.Characters
import FrontEnd.Proofs.Text.Stretch
import FrontEnd.Proofs.Scanner.Place
import FrontEnd.Proofs.Scanner.Moves
import FrontEnd.Proofs.Scanner.Comment
import FrontEnd.Proofs.Scanner.Moments
import FrontEnd.Proofs.Scanner.Order
import FrontEnd.Proofs.Scanner.Locations
import FrontEnd.Proofs.Scanner.Termination
import FrontEnd.Proofs.Lox.Findings
import FrontEnd.Proofs.Lox.Recognition
import FrontEnd.Proofs.Lox.Course
import FrontEnd.Proofs.Lox.Endings
import FrontEnd.Proofs.Lox.Portions
import FrontEnd.Proofs.Lox.Classes
import FrontEnd.Proofs.Lox.Rescan
import FrontEnd.Proofs.Lox.Lines
import FrontEnd.Proofs.Lox.Recording
import FrontEnd.Proofs.Parser.Calls
import FrontEnd.Proofs.Repl.Independence
import FrontEnd.Proofs.Diagnostics.Sharing
import FrontEnd.Proofs.Lexicon.Skipping
import FrontEnd.Proofs.Lox.Resumption
import FrontEnd.Proofs.Scanner.CommentEnds
import FrontEnd.Proofs.Lexicon.Tokens
import FrontEnd.Proofs.Lexicon.Errors
import FrontEnd.Proofs.Lexicon.Progress
import FrontEnd.Proofs.Lox.Progress
import FrontEnd.Proofs.Binary64.Range
import FrontEnd.Proofs.Number.Numerals
import FrontEnd.Proofs.Lox.Numbers
import FrontEnd.Proofs.Lox.Notation
import FrontEnd.Proofs.Lexicon.Literals
import FrontEnd.Proofs.Scanner.Obstacles
import FrontEnd.Proofs.Expr.Labels
import FrontEnd.Proofs.Lox.Leftmost
