import FrontEnd.Proofs.Lox.Recognition

/-!
# The course of a scan

A scan of Lox goes from one finding to the next.  `Course style t fs` says that the findings `fs`,
each with its bytes, make up the text `t`; it does not mention the scanner.  Every text has a
course (`exists_course`), and a scan notes the tokens and the faults of it, each at the place
where its bytes start (`scan_of_course`).
-/

namespace FrontEnd

open Text (Whole Stretch Sweep)

namespace Lox

/-- The findings of a scan over a text, each with its bytes. -/
inductive Course (style : CommentStyle) : Text → List (Finding × Text) → Prop where
  | nil : Course style [] []
  | cons {f : Finding} {u v : Text} {fs : List (Finding × Text)} (finds : Finds style f u v)
      (rest : Course style v fs) : Course style (u ++ v) ((f, u) :: fs)

theorem exists_course (style : CommentStyle) (t : Text) : ∃ fs, Course style t fs := by
  induction size : t.length using Nat.strongRecOn generalizing t with
  | ind size ih =>
      by_cases present : t = []
      · subst present
        exact ⟨[], .nil⟩
      · obtain ⟨f, u, v, rfl, finds⟩ := exists_finds style present
        have some := List.length_pos_iff.mpr finds.ne_nil
        rw [List.length_append] at size
        obtain ⟨fs, course⟩ := ih v.length (by omega) v rfl
        exact ⟨(f, u) :: fs, .cons finds course⟩

/-- The token that is emitted for a finding with the bytes `u` at the offset `n`. -/
def Finding.token? (recorded : Bool) (text : Text) (n : Nat) (u : Text) : Finding → Option Token
  | .comment =>
    if recorded then
      some ⟨.comment, u, text.locationAt n, ⟨n, (n + u.length : Nat)⟩, none⟩
    else none
  | .token symbol literal =>
    some ⟨symbol.kind, u, text.locationAt n, ⟨n, (n + u.length : Nat)⟩, literal⟩
  | _ => none

/-- The diagnostic for a finding at the offset `n`. -/
def Finding.diagnostic? (text : Text) (n : Nat) : Finding → Option Diagnostic
  | .fault message => some ⟨text.locationAt n, message⟩
  | _ => none

/-- The tokens of findings, the first of which is at the offset `n`. -/
def tokensOf (recorded : Bool) (text : Text) : Nat → List (Finding × Text) → List Token
  | _, [] => []
  | n, (f, u) :: fs =>
    (f.token? recorded text n u).toList ++ tokensOf recorded text (n + u.length) fs

/-- The diagnostics of findings, the first of which is at the offset `n`. -/
def diagnosticsOf (text : Text) : Nat → List (Finding × Text) → List Diagnostic
  | _, [] => []
  | n, (f, u) :: fs => (f.diagnostic? text n).toList ++ diagnosticsOf text (n + u.length) fs

/-- Every token of a course is found where its span starts. -/
theorem exists_finds_of_mem_tokensOf {style : CommentStyle} {recorded : Bool} {text t : Text}
    {fs : List (Finding × Text)} {x : Token} (course : Course style t fs) (n : Nat)
    (ahead : text.drop n = t) (member : x ∈ tokensOf recorded text n fs) :
    ∃ f m u v, Finds style f u v ∧ text.drop m = u ++ v ∧
      f.token? recorded text m u = some x := by
  induction course generalizing n with
  | nil => cases member
  | @cons f u v fs finds _ ih =>
      rw [tokensOf, List.mem_append, Option.mem_toList] at member
      rcases member with here | there
      · exact ⟨f, n, u, v, finds, ahead, here⟩
      · exact ih (n + u.length) (Text.drop_add_of_split ahead) there

/-! ## One turn for each finding -/

section Turns

variable {s : Scanner} {n : Nat} {f : Finding} {t u v c : Text} {r : Rune}

theorem skipBlanks_eq (faces : s.Faces n (u ++ v)) (sweep : Sweep (Text.frontIs Text.isBlank) u v) :
    s.skipBlanks = s.moveTo (n + u.length) := by
  rw [Scanner.skipBlanks, Scanner.advanceWhile,
    faces.advanceWhile_eq sweep fun c => peek?_any c Text.isBlank, Scanner.moveTo]

/-- A turn passes over a blank without noticing it. -/
theorem turn_of_blank {σ : Type} (recognizer : Recognizer σ) (strict : Bool) (memory : σ)
    (faces : s.Faces n (c ++ v)) (first : Text.rune? (c ++ v) = some r)
    (width : c.length = r.width) (isBlank : Text.isBlank r.char = true) :
    Scanner.turn recognizer strict memory s =
      Scanner.turn recognizer strict memory (s.moveTo (n + c.length)) := by
  obtain ⟨b, w, rfl, sweep⟩ := Text.exists_sweep (Text.frontIs Text.isBlank) v
  have inFront := (Text.frontIs_of_rune? first).trans isBlank
  have both : Sweep (Text.frontIs Text.isBlank) (c ++ b) w :=
    ⟨.cons first width inFront sweep.stretch, sweep.stops⟩
  have same : s.skipBlanks = (s.moveTo (n + c.length)).skipBlanks := by
    rw [skipBlanks_eq (faces.moveTo (.single first width rfl)) sweep]
    rw [← List.append_assoc] at faces
    rw [skipBlanks_eq faces both, List.length_append, Nat.add_assoc]
    rfl
  rw [Scanner.turn, same, ← Scanner.turn]

theorem skipBlanks_of_visible (faces : s.Faces n t) (seen : visible t = true) :
    s.skipBlanks = s := by
  obtain ⟨r, first, notBlank⟩ := Text.exists_rune?_of_frontIs seen
  have sweep : Sweep (Text.frontIs Text.isBlank) [] t := by
    refine ⟨.nil t, Or.inr ?_⟩
    rw [Bool.not_eq_true'] at notBlank
    rw [Text.frontIs_of_rune? first, notBlank]
  rw [skipBlanks_eq (u := []) faces sweep, List.length_nil, Nat.add_zero, faces.moveTo_self]

theorem atEnd_of_visible (faces : s.Faces n t) (seen : visible t = true) :
    s.cursor.atEnd = false := by
  rw [Cursor.atEnd, faces.rest_eq, List.isEmpty_eq_false_iff]
  rintro rfl
  cases seen

/-- The recognizer notes a lexeme behind the mark. -/
theorem attempt_of_lexeme (faces : s.Faces n (u ++ v)) (marked : s.mark = s.cursor)
    (present : u ≠ []) (lexeme : Lexeme s.comments f u v) :
    Scanner.attempt recognizer false () s = .next () (f.note (s.moveTo (n + u.length))) := by
  have offset : s.cursor.offset = n := by rw [faces.cursor_eq, Text.offset_cursorAt]
  have moved : n < n + u.length := Nat.lt_add_of_pos_right (List.length_pos_iff.mpr present)
  rcases recognize_of_lexeme lexeme with closes | ⟨r, first, width, rfl, _, nothing⟩
  · have run := closes s n rfl (marked.trans faces.cursor_eq) faces.ahead faces
    rw [List.length_nil, Nat.add_zero] at run
    have reached : (f.note (s.moveTo (n + u.length))).cursor.offset = n + u.length := by
      cases f with
      | comment => exact congrArg Cursor.offset (Scanner.cursor_emitComment _)
      | _ => rfl
    rw [Scanner.attempt]
    change (if s.cursor.offset < (recognize.run s).2.cursor.offset then
      Scanner.Turn.next () (recognize.run s).2 else _) = _
    rw [run, reached, offset, if_pos moved]
  · rw [Scanner.attempt]
    change (if s.cursor.offset < (recognize.run s).2.cursor.offset then _
      else if (!(recognize.run s).1) = true then
        Scanner.Turn.next () ((recognize.run s).2.passOver .unexpected) else _) = _
    rw [nothing s n faces, if_neg (Nat.lt_irrefl _), Bool.not_false, if_pos rfl, Scanner.passOver,
      faces.peek?_eq, first]
    have moved := faces.advance_eq first width
    exact congrArg (fun t => Scanner.Turn.next () (Scanner.report t _)) moved

theorem turn_of_visible (faces : s.Faces n t) (seen : visible t = true) :
    Scanner.turn recognizer false () s =
      match s.startToken.comment? with
      | some t => .next () t
      | none => Scanner.attempt recognizer false () s.startToken := by
  rw [Scanner.turn, skipBlanks_of_visible faces seen, atEnd_of_visible faces seen]
  rfl

/-- A turn notes what comes first, if it is no blank. -/
theorem turn_of_finds (faces : s.Faces n (u ++ v)) (finds : Finds s.comments f u v)
    (other : f ≠ .blank) :
    Scanner.turn recognizer false () s =
      .next () (f.note (s.startToken.moveTo (n + u.length))) := by
  have present := finds.ne_nil
  have begun := faces.startToken
  cases finds with
  | blank => exact absurd rfl other
  | comment seen comment =>
      rw [turn_of_visible faces seen, Scanner.comment?_of_comment begun comment]
      rfl
  | unclosed seen comment =>
      rw [turn_of_visible faces seen, Scanner.comment?_of_comment begun comment]
      rfl
  | lexeme seen outside lexeme =>
      rw [turn_of_visible faces seen, Scanner.comment?_eq_none begun outside]
      exact attempt_of_lexeme begun rfl present lexeme

end Turns

/-! ## The whole scan -/

section Scan

variable {s t : Scanner} {n : Nat} {f : Finding} {u v : Text}

theorem scanRest_eq_of_turn_eq
    (same : Scanner.turn recognizer false () s = Scanner.turn recognizer false () t) :
    Scanner.scanRest recognizer false () s = Scanner.scanRest recognizer false () t := by
  rw [Scanner.scanRest, Scanner.scanRest, same]

theorem scanRest_of_atEnd (faces : s.Faces n []) :
    (Scanner.scanRest recognizer false () s).scanner = s := by
  have nothing : Sweep (Text.frontIs Text.isBlank) [] [] := ⟨.nil [], Or.inl rfl⟩
  have same : s.skipBlanks = s := by
    rw [skipBlanks_eq (u := []) faces nothing, List.length_nil, Nat.add_zero, faces.moveTo_self]
  have ended : s.cursor.atEnd = true := by rw [Cursor.atEnd, faces.rest_eq, List.isEmpty_nil]
  have done : Scanner.turn recognizer false () s = .done s := by
    rw [Scanner.turn, same, ended]
    rfl
  rw [Scanner.scanRest_of_done done]

theorem Finding.note_frame (f : Finding) (s : Scanner) :
    (f.note s).comments = s.comments ∧ (f.note s).text = s.text ∧ (f.note s).cursor = s.cursor := by
  cases f with
  | comment =>
      change s.emitComment.comments = _ ∧ s.emitComment.text = _ ∧ s.emitComment.cursor = _
      unfold Scanner.emitComment
      split <;> exact ⟨rfl, rfl, rfl⟩
  | _ => exact ⟨rfl, rfl, rfl⟩

/-- The books of a scanner after it has noted a finding behind its mark. -/
theorem Finding.noted (f : Finding) (faces : s.Faces n (u ++ v)) (whole : Whole u v) :
    (f.note (s.startToken.moveTo (n + u.length))).tokens =
        s.tokens ++ (f.token? s.comments.recorded s.text n u).toList ∧
      (f.note (s.startToken.moveTo (n + u.length))).diagnostics.toList =
        s.diagnostics.toList ++ (f.diagnostic? s.text n).toList := by
  have mark : s.startToken.mark = s.text.cursorAt n := faces.cursor_eq
  have lexeme : (s.startToken.moveTo (n + u.length)).lexeme = u :=
    lexeme_eq mark faces.ahead (faces.startToken.moveTo whole)
  have added (kind : TokenKind) (literal : Option Literal) :
      ((s.startToken.moveTo (n + u.length)).addToken kind literal).tokens =
        s.tokens ++ [⟨kind, u, s.text.locationAt n, ⟨n, (n + u.length : Nat)⟩, literal⟩] := by
    rw [Scanner.tokens, Scanner.addToken, lexeme, List.reverse_cons]
    change s.tokens ++ [⟨kind, u, s.startToken.mark.location, ⟨s.startToken.mark.offset, _⟩, _⟩] = _
    rw [mark]
    rfl
  cases f with
  | blank => exact ⟨(List.append_nil _).symm, (List.append_nil _).symm⟩
  | token symbol literal => exact ⟨added symbol.kind literal, (List.append_nil _).symm⟩
  | fault message =>
      refine ⟨(List.append_nil _).symm, ?_⟩
      change (s.diagnostics.add s.startToken.mark.location message).toList = _
      rw [mark, Diagnostics.toList_add]
      rfl
  | comment =>
      change Scanner.tokens (Scanner.emitComment _) = _ ∧
        Diagnostics.toList (Scanner.emitComment _).diagnostics = _
      unfold Scanner.emitComment Finding.token?
      change Scanner.tokens (if s.comments.recorded = true then _ else _) = _ ∧
        Diagnostics.toList (if s.comments.recorded = true then _ else _ : Scanner).diagnostics = _
      by_cases recorded : s.comments.recorded = true
      · rw [if_pos recorded, if_pos recorded]
        exact ⟨added .comment none, (List.append_nil _).symm⟩
      · rw [if_neg recorded, if_neg recorded]
        exact ⟨(List.append_nil _).symm, (List.append_nil _).symm⟩

/-- After each finding the scan goes on behind it. -/
theorem scanRest_of_finds (faces : s.Faces n (u ++ v)) (finds : Finds s.comments f u v) :
    ∃ t, Scanner.scanRest recognizer false () s = Scanner.scanRest recognizer false () t ∧
      t.comments = s.comments ∧ t.text = s.text ∧ t.Faces (n + u.length) v ∧
      t.tokens = s.tokens ++ (f.token? s.comments.recorded s.text n u).toList ∧
      t.diagnostics.toList = s.diagnostics.toList ++ (f.diagnostic? s.text n).toList := by
  have next := faces.startToken.moveTo finds.whole
  by_cases isBlank : f = .blank
  · subst isBlank
    obtain ⟨r, first, width, isBlank⟩ := finds.exists_of_blank
    refine ⟨s.moveTo (n + u.length), ?_, rfl, rfl, faces.moveTo finds.whole,
      (List.append_nil _).symm, (List.append_nil _).symm⟩
    -- A blank takes no turn of its own: the next turn skips it.
    exact scanRest_eq_of_turn_eq (turn_of_blank recognizer false () faces first width isBlank)
  · obtain ⟨tokens, diagnostics⟩ := f.noted faces finds.whole
    obtain ⟨comments, text, cursor⟩ := f.note_frame (s.startToken.moveTo (n + u.length))
    refine ⟨_, Scanner.scanRest_of_next (turn_of_finds faces finds isBlank), comments, text, ?_, tokens,
      diagnostics⟩
    refine ⟨?_, ?_, ?_⟩
    · rw [text]
      exact next.boundary
    · rw [cursor, text]
      exact next.cursor_eq
    · rw [text]
      exact next.ahead

/-- A scan notes the findings of its course. -/
theorem scanRest_of_course {style : CommentStyle} {t : Text} {fs : List (Finding × Text)}
    (course : Course style t fs) (s : Scanner) (n : Nat) (known : s.comments = style)
    (faces : s.Faces n t) :
    (Scanner.scanRest recognizer false () s).scanner.tokens =
        s.tokens ++ tokensOf style.recorded s.text n fs ∧
      (Scanner.scanRest recognizer false () s).scanner.diagnostics.toList =
        s.diagnostics.toList ++ diagnosticsOf s.text n fs := by
  -- Along the course, for every scanner: what it holds already stays in front.
  induction course generalizing s n with
  | nil =>
      rw [scanRest_of_atEnd faces]
      exact ⟨(List.append_nil _).symm, (List.append_nil _).symm⟩
  | @cons f u v fs finds rest ih =>
      subst known
      obtain ⟨t, same, comments, text, next, tokens, diagnostics⟩ := scanRest_of_finds faces finds
      obtain ⟨tokensToo, diagnosticsToo⟩ := ih t (n + u.length) comments next
      rw [same, tokensToo, diagnosticsToo, tokens, diagnostics, text, List.append_assoc,
        List.append_assoc]
      exact ⟨rfl, rfl⟩

end Scan

theorem scan_of_course (s : Scanner) {text : Text} {fs : List (Finding × Text)}
    (course : Course s.comments text fs) :
    (scan s text).tokens = tokensOf s.comments.recorded text 0 fs ∧
      (scan s text).diagnostics.toList = diagnosticsOf text 0 fs :=
  scanRest_of_course course (s.reset text) 0 rfl (s.faces_reset text)

/-- Every token of a scan is found where its span starts. -/
theorem exists_finds_of_mem_scan {text : Text} {t : Token}
    (member : t ∈ (scan newScanner text).tokens) :
    ∃ (s : Symbol) (n : Nat) (v : Text), t.kind = s.kind ∧
      t.span = ⟨n, (n + t.lexeme.length : Nat)⟩ ∧ text.drop n = t.lexeme ++ v ∧
      Finds comments (.token s t.literal) t.lexeme v := by
  obtain ⟨fs, course⟩ := exists_course comments text
  rw [(scan_of_course newScanner course).1] at member
  obtain ⟨f, n, u, v, finds, ahead, token⟩ := exists_finds_of_mem_tokensOf course 0 rfl member
  cases f with
  | token s l =>
      cases token
      exact ⟨s, n, v, rfl, rfl, ahead, finds⟩
  | blank => cases token
  | comment => cases token
  | fault => cases token

end Lox

end FrontEnd
