import FrontEnd.Proofs.Lox.Course
import FrontEnd.Proofs.Lox.Endings

/-!
# Scanning line by line

A line feed separates what is in front of it from what is behind it.  If a text scans without
errors, then with a line feed and any other text behind it the scan gives its tokens, and behind
them the tokens and the errors of the other text, moved down by as many lines as have ended
(`scan_append_line`).
-/

namespace FrontEnd

open Text (Whole Stretch Sweep)

/-- The location a number of lines further down. -/
def Location.below (lines : Int) (l : Location) : Location := ⟨l.line + lines, l.column⟩

/-- The token in a text with more bytes and lines in front of it. -/
def Token.behind (bytes : Nat) (lines : Int) (t : Token) : Token :=
  { t with
    location := t.location.below lines
    span := ⟨t.span.first + bytes, t.span.stop + bytes⟩ }

/-- The diagnostic for a text with more lines in front of it. -/
def Diagnostic.behind (lines : Int) (d : Diagnostic) : Diagnostic :=
  { d with location := d.location.below lines }

namespace Text

/-! ## Locations -/

theorem line_congr (text other : Text) (n : Nat)
    (same : ∀ i < n, text.endsLineAt i = other.endsLineAt i) :
    text.lineEnds n = other.lineEnds n ∧ text.lineStart n = other.lineStart n := by
  induction n with
  | zero => exact ⟨rfl, rfl⟩
  | succ n ih =>
      obtain ⟨ends, start⟩ := ih fun i below => same i (Nat.lt_succ_of_lt below)
      rw [lineEnds_succ, lineEnds_succ, lineStart, lineStart, ends, start, same n n.lt_succ_self]
      exact ⟨rfl, rfl⟩

theorem endsLineAt_append (text w : Text) {i : Nat} (inside : i + 1 < text.length) :
    (text ++ w).endsLineAt i = text.endsLineAt i := by
  rw [endsLineAt, endsLineAt, List.getElem?_append_left inside,
    List.getElem?_append_left (Nat.lt_of_succ_lt inside)]

/-- What comes behind a byte does not change its location. -/
theorem locationAt_append (text w : Text) {n : Nat} (inside : n < text.length) :
    (text ++ w).locationAt n = text.locationAt n := by
  obtain ⟨ends, start⟩ := line_congr (text ++ w) text n fun i below =>
    endsLineAt_append text w (Nat.lt_of_le_of_lt below inside)
  rw [locationAt, locationAt, lineHead, lineHead, ends, start,
    List.take_append_of_le_length (Nat.le_of_lt inside)]

section Feed

variable (front back : Text)

theorem endsLineAt_feed : (front ++ 0x0A :: back).endsLineAt front.length = true := by
  rw [endsLineAt, List.getElem?_append_right (Nat.le_refl _), Nat.sub_self]
  rfl

theorem endsLineAt_behind (i : Nat) :
    (front ++ 0x0A :: back).endsLineAt (front.length + 1 + i) = back.endsLineAt i := by
  have byte (j : Nat) : (front ++ 0x0A :: back)[front.length + 1 + j]? = back[j]? := by
    rw [List.getElem?_append_right (by omega), Nat.add_assoc, Nat.add_sub_cancel_left,
      Nat.add_comm 1 j, List.getElem?_cons_succ]
  rw [endsLineAt, endsLineAt, Nat.add_assoc _ i 1, byte, byte]

theorem line_behind (n : Nat) :
    (front ++ 0x0A :: back).lineEnds (front.length + 1 + n) =
        back.lineEnds n + (front ++ 0x0A :: back).lineEnds (front.length + 1) ∧
      (front ++ 0x0A :: back).lineStart (front.length + 1 + n) =
        front.length + 1 + back.lineStart n := by
  induction n with
  | zero =>
      refine ⟨(Nat.zero_add _).symm, ?_⟩
      exact if_pos (endsLineAt_feed front back)
  | succ n ih =>
      obtain ⟨ends, start⟩ := ih
      rw [← Nat.add_assoc, lineEnds_succ _ (front.length + 1 + n), lineStart, endsLineAt_behind,
        ends, start, lineEnds_succ back, lineStart]
      refine ⟨Nat.add_right_comm _ _ _, ?_⟩
      split <;> rfl

theorem lineHead_behind (n : Nat) :
    (front ++ 0x0A :: back).lineHead (front.length + 1 + n) = back.lineHead n := by
  have split : front ++ 0x0A :: back = (front ++ [0x0A]) ++ back := by
    rw [List.append_assoc]
    rfl
  have length : (front ++ [0x0A]).length = front.length + 1 := List.length_append
  rw [lineHead, (line_behind front back n).2, split, ← length, List.take_length_add_append,
    ← List.drop_drop, List.drop_left, lineHead]

/-- The number of lines that end in a text with a line feed behind it. -/
def lines : Int := ((front ++ [0x0A]).locationAt (front ++ [0x0A]).length).line - 1

theorem lines_eq : lines front = (front ++ 0x0A :: back).lineEnds (front.length + 1) := by
  have split : front ++ 0x0A :: back = (front ++ [0x0A]) ++ back := by
    rw [List.append_assoc]
    rfl
  have same : ∀ i < front.length + 1,
      (front ++ [0x0A]).endsLineAt i = (front ++ 0x0A :: back).endsLineAt i := by
    intro i below
    by_cases last : i = front.length
    · rw [last, endsLineAt_feed, endsLineAt_feed]
    · rw [split, endsLineAt_append (front ++ [0x0A])]
      rw [List.length_append, List.length_singleton]
      omega
  rw [lines, locationAt, List.length_append, List.length_singleton, (line_congr _ _ _ same).1]
  change 1 + _ - 1 = _
  omega

/-- Behind a line feed, the columns are those of the text behind it. -/
theorem locationAt_behind (n : Nat) :
    (front ++ 0x0A :: back).locationAt (front.length + 1 + n) =
      (back.locationAt n).below (lines front) := by
  rw [locationAt, lineHead_behind, (line_behind front back n).1, lines_eq front back, locationAt,
    Location.below, Int.natCast_add, ← Int.add_assoc]

end Feed

/-! ## Searching -/

theorem within_append (whole t w : Text) (k : Nat) :
    within (whole ++ w) k (t ++ w) = within whole k t := by
  rw [within, within, decide_eq_decide, List.length_append, List.length_append]
  omega

/-- What is found in a text lies in it, and is found there if the text goes on. -/
theorem indexFrom?_append {needle t : Text} {start n : Nat}
    (found : indexFrom? needle start t = some n) (w : Text) :
    start ≤ n ∧ n + needle.length ≤ start + t.length ∧
      indexFrom? needle start (t ++ w) = some n := by
  induction t generalizing start with
  | nil =>
      rw [indexFrom?] at found
      split at found
      · rename_i empty
        cases found
        rw [List.isEmpty_iff] at empty
        subst empty
        refine ⟨Nat.le_refl _, Nat.le_refl _, ?_⟩
        cases w <;> rfl
      · cases found
  | cons b t ih =>
      rw [indexFrom?] at found
      split at found
      · rename_i here
        cases found
        rw [List.isPrefixOf_iff_prefix] at here
        refine ⟨Nat.le_refl _, Nat.add_le_add_left here.length_le _, ?_⟩
        rw [List.cons_append, indexFrom?, if_pos]
        exact List.isPrefixOf_iff_prefix.mpr (here.trans (List.prefix_append (b :: t) w))
      · rename_i elsewhere
        obtain ⟨behind, inside, foundToo⟩ := ih found
        rw [List.length_cons]
        refine ⟨by omega, by omega, ?_⟩
        rw [List.cons_append, indexFrom?, if_neg, foundToo]
        -- The needle is not longer than the text, so it cannot reach into `w`.
        intro reaches
        rw [List.isPrefixOf_iff_prefix] at elsewhere reaches
        have short : needle.length ≤ (b :: t).length := by
          rw [List.length_cons]
          omega
        exact elsewhere (List.prefix_of_prefix_length_le reaches (List.prefix_append _ w) short)

end Text

namespace Lox

variable {f : Finding} {u v : Text}

/-! ## Findings in front of a line feed -/

theorem comment_feed (comment : Comment comments true u v) (w : Text) :
    Comment comments true u (v ++ 0x0A :: w) := by
  have like := endsLike_gap (Or.inr rfl) v w
  have assoc : u ++ (v ++ 0x0A :: w) = u ++ v ++ 0x0A :: w := (List.append_assoc _ _ _).symm
  cases comment with
  | line opens decides sweep =>
      obtain ⟨rest, split⟩ := (opensLine_iff _).mp opens
      refine .line ?_ ?_ ⟨like.stretch (t := []) sweep.stretch, Or.inr ?_⟩
      · rw [assoc, split]
        exact (opensLine_iff _).mpr ⟨rest ++ 0x0A :: w, rfl⟩
      · rw [assoc, split]
        intro block
        obtain ⟨_, other⟩ := (opensBlock_iff _).mp block
        cases other
      · rw [Text.inLine, Text.frontIs_append_ascii (by decide) (by decide)]
        exact sweep.frontIs_eq_false
  | @block _ _ n opens decides found sweep =>
      obtain ⟨rest, split⟩ := (opensBlock_iff _).mp opens
      have marker : comments.blockStart.length ≤ (u ++ v).length := by
        rw [split]
        exact Nat.le_add_left 2 _
      obtain ⟨_, inside, foundToo⟩ := Text.indexFrom?_append found (0x0A :: w)
      rw [← List.drop_append_of_le_length marker, ← assoc] at foundToo
      rw [List.length_drop] at inside
      refine .block ?_ (fun _ => Nat.le_refl _) foundToo ⟨?_, Or.inr ?_⟩
      · rw [assoc, split]
        exact (opensBlock_iff _).mpr ⟨rest ++ 0x0A :: w, rfl⟩
      -- The end of the comment is measured from its front, and does not move.
      · refine sweep.stretch.extend (ends_of_isGap (Or.inr rfl) w) fun t _ _ within => ?_
        rw [assoc, Text.within_append]
        exact within
      · rw [assoc, Text.within_append]
        rcases sweep.stops with rfl | stops
        · rw [Text.within, decide_eq_false_iff_not, List.length_nil]
          omega
        · exact stops

/-- What is found and is no fault is found in front of a line feed too. -/
theorem Finds.feed (finds : Finds comments f u v) (clean : ∀ message, f ≠ .fault message)
    (w : Text) : Finds comments f u (v ++ 0x0A :: w) := by
  have present := finds.ne_nil
  have whole := finds.whole
  have like := endsLike_gap (Or.inr rfl) v w
  cases finds with
  | blank first width isBlank => exact .blank (like.first (t := []) first width) width isBlank
  | comment seen comment =>
      exact .comment ((like.frontIs_eq (t := []) whole present).trans seen) (comment_feed comment w)
  | unclosed => exact absurd rfl (clean _)
  | lexeme seen outside lexeme =>
      rcases lexeme.token_or_fault with ⟨symbol, literal, rfl⟩ | ⟨message, rfl⟩
      · exact (Finds.lexeme seen outside lexeme).endsLike like
      · exact absurd rfl (clean message)

theorem Course.feed {A B : Text} {fs gs : List (Finding × Text)} {text : Text} {n : Nat}
    (course : Course comments A fs) (clean : diagnosticsOf text n fs = [])
    (other : Course comments B gs) :
    Course comments (A ++ 0x0A :: B) (fs ++ (.blank, [0x0A]) :: gs) := by
  induction course generalizing n with
  | nil =>
      have feed : Finds comments .blank [0x0A] B := .blank rfl rfl rfl
      exact .cons feed other
  | @cons f u v fs finds _ ih =>
      rw [diagnosticsOf, List.append_eq_nil_iff] at clean
      rw [List.append_assoc]
      refine .cons (finds.feed ?_ B) (ih clean.2)
      rintro message rfl
      cases clean.1

/-! ## Their places -/

section Places

variable {style : CommentStyle} {A t : Text} {fs : List (Finding × Text)}

theorem notes_append (recorded : Bool) (text : Text) (n : Nat) (course : Course style t fs)
    (gs : List (Finding × Text)) :
    tokensOf recorded text n (fs ++ gs) =
        tokensOf recorded text n fs ++ tokensOf recorded text (n + t.length) gs ∧
      diagnosticsOf text n (fs ++ gs) =
        diagnosticsOf text n fs ++ diagnosticsOf text (n + t.length) gs := by
  induction course generalizing n with
  | nil => exact ⟨rfl, rfl⟩
  | @cons f u v fs _ _ ih =>
      obtain ⟨tokens, diagnostics⟩ := ih (n + u.length)
      rw [List.cons_append, tokensOf, diagnosticsOf, tokens, diagnostics, List.length_append,
        ← Nat.add_assoc, tokensOf, diagnosticsOf, List.append_assoc, List.append_assoc]
      exact ⟨rfl, rfl⟩

theorem notes_front (recorded : Bool) (w : Text) {n : Nat} (course : Course style t fs)
    (ahead : A.drop n = t) :
    tokensOf recorded (A ++ w) n fs = tokensOf recorded A n fs ∧
      diagnosticsOf (A ++ w) n fs = diagnosticsOf A n fs := by
  induction course generalizing n with
  | nil => exact ⟨rfl, rfl⟩
  | @cons f u v fs finds _ ih =>
      have inside : n < A.length := by
        have present := List.length_pos_iff.mpr finds.ne_nil
        have length := congrArg List.length ahead
        rw [List.length_drop, List.length_append] at length
        omega
      obtain ⟨tokens, diagnostics⟩ := ih (Text.drop_add_of_split ahead)
      rw [tokensOf, tokensOf, diagnosticsOf, diagnosticsOf, tokens, diagnostics]
      cases f with
      | _ =>
          simp only [Finding.token?, Finding.diagnostic?, Text.locationAt_append A w inside,
            and_self]

/-- A finding behind a line feed. -/
theorem note_behind (recorded : Bool) (A B : Text) (n : Nat) (u : Text) (f : Finding) :
    f.token? recorded (A ++ 0x0A :: B) (A.length + 1 + n) u =
        (f.token? recorded B n u).map (Token.behind (A.length + 1) (Text.lines A)) ∧
      f.diagnostic? (A ++ 0x0A :: B) (A.length + 1 + n) =
        (f.diagnostic? B n).map (Diagnostic.behind (Text.lines A)) := by
  have location := Text.locationAt_behind A B n
  have token (kind : TokenKind) (literal : Option Literal) :
      (⟨kind, u, (A ++ 0x0A :: B).locationAt (A.length + 1 + n),
          ⟨(A.length + 1 + n : Nat), (A.length + 1 + n + u.length : Nat)⟩, literal⟩ : Token) =
        Token.behind (A.length + 1) (Text.lines A)
          ⟨kind, u, B.locationAt n, ⟨n, (n + u.length : Nat)⟩, literal⟩ := by
    have first : ((A.length + 1 + n : Nat) : Int) = n + (A.length + 1 : Nat) := by omega
    have stop : ((A.length + 1 + n + u.length : Nat) : Int) =
        (n + u.length : Nat) + (A.length + 1 : Nat) := by
      omega
    rw [location, first, stop]
    rfl
  cases f with
  | blank => exact ⟨rfl, rfl⟩
  | comment =>
      refine ⟨?_, rfl⟩
      cases recorded with
      | false => rfl
      | true => exact congrArg some (token .comment none)
  | token symbol literal => exact ⟨congrArg some (token symbol.kind literal), rfl⟩
  | fault message => exact ⟨rfl, congrArg (fun l => some (Diagnostic.mk l message)) location⟩

theorem notes_behind (recorded : Bool) (A B : Text) (n : Nat) (fs : List (Finding × Text)) :
    tokensOf recorded (A ++ 0x0A :: B) (A.length + 1 + n) fs =
        (tokensOf recorded B n fs).map (Token.behind (A.length + 1) (Text.lines A)) ∧
      diagnosticsOf (A ++ 0x0A :: B) (A.length + 1 + n) fs =
        (diagnosticsOf B n fs).map (Diagnostic.behind (Text.lines A)) := by
  induction fs generalizing n with
  | nil => exact ⟨rfl, rfl⟩
  | cons found fs ih =>
      obtain ⟨f, u⟩ := found
      obtain ⟨tokens, diagnostics⟩ := ih (n + u.length)
      obtain ⟨token, diagnostic⟩ := note_behind recorded A B n u f
      rw [← Nat.add_assoc] at tokens diagnostics
      rw [tokensOf, diagnosticsOf, tokens, diagnostics, token, diagnostic, tokensOf, diagnosticsOf,
        List.map_append, List.map_append, Option.toList_map, Option.toList_map]
      exact ⟨rfl, rfl⟩

end Places

/-- Scanning is compositional over lines. -/
theorem scan_append_line (A B : Text) (clean : (scan newScanner A).diagnostics.toList = []) :
    (scan newScanner (A ++ 0x0A :: B)).tokens =
        (scan newScanner A).tokens ++
          (scan newScanner B).tokens.map (Token.behind (A.length + 1) (Text.lines A)) ∧
      (scan newScanner (A ++ 0x0A :: B)).diagnostics.toList =
        (scan newScanner B).diagnostics.toList.map (Diagnostic.behind (Text.lines A)) := by
  obtain ⟨fs, course⟩ := exists_course comments A
  obtain ⟨gs, other⟩ := exists_course comments B
  obtain ⟨tokensA, diagnosticsA⟩ := scan_of_course newScanner course
  obtain ⟨tokensB, diagnosticsB⟩ := scan_of_course newScanner other
  rw [diagnosticsA] at clean
  obtain ⟨tokens, diagnostics⟩ := scan_of_course newScanner (course.feed clean other)
  obtain ⟨tokensSplit, diagnosticsSplit⟩ :=
    notes_append false (A ++ 0x0A :: B) 0 course ((.blank, [0x0A]) :: gs)
  obtain ⟨tokensFront, diagnosticsFront⟩ :=
    notes_front (A := A) (n := 0) false (0x0A :: B) course rfl
  obtain ⟨tokensBehind, diagnosticsBehind⟩ := notes_behind false A B 0 gs
  constructor
  · rw [tokens, tokensA, tokensB]
    change tokensOf false _ 0 _ = tokensOf false A 0 fs ++ (tokensOf false B 0 gs).map _
    rw [tokensSplit, tokensFront, ← tokensBehind, Nat.zero_add]
    rfl
  · rw [diagnostics, diagnosticsB, diagnosticsSplit, diagnosticsFront, clean, ← diagnosticsBehind,
      Nat.zero_add]
    rfl

/-- A carriage return in front of the line feed does not end a line of its own. -/
theorem scan_append_line_after_return :
    (scan newScanner [0x31, 0x0D]).diagnostics.toList = [] ∧ Text.lines [0x31, 0x0D] = 1 ∧
      (scan newScanner ([0x31, 0x0D] ++ 0x0A :: [0x32, 0x40])).tokens =
        (scan newScanner [0x31, 0x0D]).tokens ++
          (scan newScanner [0x32, 0x40]).tokens.map (Token.behind 3 (Text.lines [0x31, 0x0D])) ∧
      (scan newScanner ([0x31, 0x0D] ++ 0x0A :: [0x32, 0x40])).diagnostics.toList =
        (scan newScanner [0x32, 0x40]).diagnostics.toList.map
          (Diagnostic.behind (Text.lines [0x31, 0x0D])) := by
  have clean : (scan newScanner [0x31, 0x0D]).diagnostics.toList = [] := by decide +kernel
  exact ⟨clean, by decide +kernel, scan_append_line [0x31, 0x0D] [0x32, 0x40] clean⟩

end Lox

end FrontEnd
