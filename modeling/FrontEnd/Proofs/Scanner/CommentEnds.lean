import FrontEnd.Proofs.Scanner.Comment
import FrontEnd.Proofs.Scanner.Moments
import FrontEnd.Proofs.Text.Encoding

/-!
# Where comments end

The end of a comment is a matter of bytes: the next line break, or the next place where the end
marker occurs.  A cursor moves by characters, and what it takes for a character depends on the bytes
around it, in particular if the text is no valid UTF-8.  Still it comes to a stop exactly where the
comment ends: a line break is one byte that no character contains (`Sweep.isLeast_lineStop`), and a
marker that is valid UTF-8 neither starts nor ends inside of a character (`exists_closed`).

Main statement: `Scanner.comment_reads_exactly`, what is read as a comment at any moment of a scan.
-/

namespace FrontEnd

open Text (Whole Stretch Sweep Valid)

namespace Text

/-- The line ends in front of the offset `i`, with a line break or with the text. -/
def LineStopsAt (text : Text) (i : Nat) : Prop :=
  i = text.length ∨ text[i]? = some 0x0A ∨ text[i]? = some 0x0D

variable {text u v : Text} {p : Nat}

/-- No byte of a character is a line break, unless it is all of the character. -/
theorem Stretch.forall_inLine (stretch : Stretch inLine u v) : ∀ b ∈ u, b ≠ 0x0A ∧ b ≠ 0x0D := by
  induction stretch with
  | nil => exact fun _ member => absurd member List.not_mem_nil
  | @cons c u v r first width holds _ ih =>
      refine List.forall_mem_append.mpr ⟨fun b member => ?_, ih⟩
      rcases ascii_or_above first with ⟨x, rest, split, _, rfl⟩ | ⟨_, bytes⟩
      · obtain ⟨y, rfl⟩ := List.length_eq_one_iff.mp width
        obtain rfl : y = x := (List.cons.inj split).1
        obtain rfl : b = y := List.mem_singleton.mp member
        rw [inLine, frontIs_of_rune? first, Bool.and_eq_true, bne_iff_ne, bne_iff_ne] at holds
        refine ⟨?_, ?_⟩
        · rintro rfl
          exact holds.1 rfl
        · rintro rfl
          exact holds.2 rfl
      · rw [← width, List.take_left] at bytes
        have above := bytes b member
        refine ⟨?_, ?_⟩
        · rintro rfl
          exact absurd above (by decide)
        · rintro rfl
          exact absurd above (by decide)

theorem head?_of_inLine_eq_false (present : v ≠ []) (stops : inLine v = false) :
    v.head? = some 0x0A ∨ v.head? = some 0x0D := by
  obtain ⟨r, first⟩ := exists_rune? present
  rw [inLine, frontIs_of_rune? first, Bool.and_eq_false_iff, bne_eq_false_iff_eq,
    bne_eq_false_iff_eq] at stops
  have found {c : Char} (low : c.toNat < 0x80) (same : r.char = c) :
      v.head? = some (UInt8.ofNat c.toNat) := by
    obtain ⟨rest, rfl⟩ := exists_cons_of_frontIs low
      ((frontIs_of_rune? first).trans (beq_iff_eq.mpr same))
    rfl
  exact stops.imp (found (by decide)) (found (by decide))

theorem Sweep.isLeast_lineStop (sweep : Sweep inLine u v) (split : text.drop p = u ++ v)
    (bounded : p ≤ text.length) :
    IsLeast {i | p ≤ i ∧ text.LineStopsAt i} (p + u.length) := by
  have total : p + (u.length + v.length) = text.length := by
    rw [← List.length_append, ← split, List.length_drop]
    omega
  have behind : text[p + u.length]? = v.head? := by
    rw [← List.head?_drop, drop_add_of_split split]
  refine ⟨⟨Nat.le_add_right _ _, ?_⟩, ?_⟩
  · by_cases present : v = []
    · rw [present, List.length_nil] at total
      exact Or.inl total
    · rw [LineStopsAt, behind]
      exact Or.inr (head?_of_inLine_eq_false present (sweep.stops.resolve_left present))
  · rintro i ⟨low, stops⟩
    obtain ⟨j, rfl⟩ := Nat.exists_eq_add_of_le low
    by_contra inside
    have inside : j < u.length := by omega
    have byte : text[p + j]? = some u[j] := by
      rw [getElem?_of_split split j inside, List.getElem?_eq_getElem inside]
    obtain ⟨notFeed, notReturn⟩ := sweep.stretch.forall_inLine u[j] (List.getElem_mem inside)
    rcases stops with last | feed | carriage
    · omega
    · exact notFeed (Option.some.inj (byte.symm.trans feed))
    · exact notReturn (Option.some.inj (byte.symm.trans carriage))

/-- Whole characters are what a cursor passes over that is told to go behind their bytes. -/
theorem Whole.sweep (whole : Whole u v) : Sweep (within (u ++ v) u.length) u v := by
  have ahead {go : Text → Bool} (holds : ∀ t : Text, v.length < t.length → go t = true) :
      Stretch go u v := by
    induction whole with
    | nil v => exact .nil v
    | @cons c u v r first width _ _ ih =>
        refine .cons first width (holds _ ?_) (ih holds)
        have positive := List.length_pos_iff.mpr (ne_nil_of_width first width)
        rw [List.length_append, List.length_append]
        omega
  refine ⟨ahead fun t longer => ?_, Or.inr ?_⟩
  · rw [within, decide_eq_true_iff, List.length_append]
    omega
  · rw [within, decide_eq_false_iff_not, List.length_append]
    omega

end Text

/-! ## Markers -/

section Markers

variable {style : CommentStyle} {t : Text}

theorem CommentStyle.opensLine_eq_true_iff :
    style.opensLine t = true ↔ style.line ≠ [] ∧ style.line <+: t := by
  rw [opensLine, Bool.and_eq_true, Bool.not_eq_true', List.isEmpty_eq_false_iff,
    List.isPrefixOf_iff_prefix]

theorem CommentStyle.opensBlock_eq_true_iff :
    style.opensBlock t = true ↔ style.blockStart ≠ [] ∧ style.blockStart <+: t := by
  rw [opensBlock, Bool.and_eq_true, Bool.not_eq_true', List.isEmpty_eq_false_iff,
    List.isPrefixOf_iff_prefix]

/-- A block comment is all bytes up to the end of the first end marker. -/
theorem exists_closed {n : Nat} (startValid : Valid style.blockStart)
    (endValid : Valid style.blockEnd) (opens : style.opensBlock t = true)
    (decides : style.opensLine t = true → style.line.length ≤ style.blockStart.length)
    (first : IsLeast {i | style.blockEnd <+: (t.drop style.blockStart.length).drop i} n) :
    ∃ u v, t = u ++ v ∧ u.length = style.blockStart.length + n + style.blockEnd.length ∧
      Comment style true u v := by
  obtain ⟨_, inner, rfl⟩ := CommentStyle.opensBlock_eq_true_iff.mp opens
  have found := Text.indexOf?_eq_some_iff.mpr first
  rw [List.drop_left] at first
  obtain ⟨between, v, rfl, rfl⟩ := Text.exists_split_of_isLeast first
  have whole : Whole (style.blockStart ++ (between ++ style.blockEnd)) v :=
    (startValid.whole _).append ((endValid.whole_before first).append (endValid.whole v))
  have split : style.blockStart ++ (between ++ (style.blockEnd ++ v)) =
      style.blockStart ++ (between ++ style.blockEnd) ++ v := by
    rw [List.append_assoc, List.append_assoc]
  have size : (style.blockStart ++ (between ++ style.blockEnd)).length =
      style.blockStart.length + between.length + style.blockEnd.length := by
    rw [List.length_append, List.length_append, Nat.add_assoc]
  have sweep := whole.sweep
  rw [size] at sweep
  rw [split] at opens decides found ⊢
  exact ⟨_, v, rfl, size, .block opens decides found sweep⟩

/-- A block comment without an end is its start marker. -/
theorem comment_unclosed (startValid : Valid style.blockStart)
    (opens : style.opensBlock (style.blockStart ++ t) = true)
    (decides : style.opensLine (style.blockStart ++ t) = true →
      style.line.length ≤ style.blockStart.length)
    (missing : ∀ i, ¬ style.blockEnd <+: t.drop i) : Comment style false style.blockStart t := by
  refine .unclosed opens decides ?_ (startValid.whole t).sweep
  rw [List.drop_left]
  exact Text.indexOf?_eq_none_iff.mpr missing

end Markers

namespace Scanner

/-- What is emitted for a comment that takes the bytes from `first` to `stop`. -/
def commentTokens (style : CommentStyle) (text : Text) (first stop : Nat) : List Token :=
  if style.recorded then
    [⟨.comment, (text.take stop).drop first, text.locationAt first, ⟨first, stop⟩, none⟩]
  else []

/-- The scanner has gone on to the offset `stop`, and has emitted and noted something on its way. -/
structure GoesTo (text : Text) (s : Scanner) (stop : Nat) (emitted : List Token)
    (noted : List Diagnostic) (t : Scanner) : Prop where
  cursor_eq : t.cursor = text.cursorAt stop
  tokens_eq : t.tokens = s.tokens ++ emitted
  diagnostics_eq : t.diagnostics.toList = s.diagnostics.toList ++ noted
  comments_eq : t.comments = s.comments
  text_eq : t.text = text

variable {s t : Scanner} {text : Text}

theorem Sound.faces (sound : s.Sound text) :
    s.Faces s.cursor.offset (text.drop s.cursor.offset) := by
  obtain ⟨rfl, cursor, -⟩ := sound
  exact ⟨cursor.boundary, cursor.eq_cursorAt, rfl⟩

/-- Behind a comment that has an end. -/
theorem Sound.goesTo_emitComment (sound : s.Sound text) (marked : s.mark = s.cursor) (stop : Nat) :
    GoesTo text s stop (commentTokens s.comments text s.cursor.offset stop) []
      (s.moveTo stop).emitComment := by
  have known : (s.moveTo stop).comments.recorded = s.comments.recorded := rfl
  have moved : (s.moveTo stop).cursor = text.cursorAt stop := by rw [moveTo, sound.text_eq]
  have lexeme : (s.moveTo stop).lexeme = (text.take stop).drop s.cursor.offset := by
    rw [Scanner.lexeme, moved, List.drop_take, ← sound.cursor.rest_eq, ← marked]
    rfl
  have mark : (s.moveTo stop).mark = text.cursorAt s.cursor.offset :=
    marked.trans sound.cursor.eq_cursorAt
  rw [emitComment, known, commentTokens]
  cases s.comments.recorded with
  | false => exact ⟨moved, (List.append_nil _).symm, (List.append_nil _).symm, rfl, sound.text_eq⟩
  | true =>
      refine ⟨moved, ?_, (List.append_nil _).symm, rfl, sound.text_eq⟩
      simp only [↓reduceIte]
      rw [tokens_addToken, lexeme, mark, moved]
      rfl

/-- Behind the marker of a comment that has no end. -/
theorem Sound.goesTo_report (sound : s.Sound text) (marked : s.mark = s.cursor) (stop : Nat)
    (message : Text) :
    GoesTo text s stop [] [⟨text.locationAt s.cursor.offset, message⟩]
      ((s.moveTo stop).report message) := by
  have moved : (s.moveTo stop).cursor = text.cursorAt stop := by rw [moveTo, sound.text_eq]
  refine ⟨moved, (List.append_nil _).symm, ?_, rfl, sound.text_eq⟩
  have location : (s.moveTo stop).mark.location = text.locationAt s.cursor.offset := by
    rw [← sound.cursor.location_eq, ← marked]
    rfl
  rw [report, reportAt, location]
  exact Diagnostics.toList_add _ _ _

theorem Sound.comment?_eq_none_iff (sound : s.Sound text) :
    s.comment? = none ↔ s.comments.opens (text.drop s.cursor.offset) = false := by
  refine ⟨fun nothing => ?_, comment?_eq_none sound.faces⟩
  by_contra opens
  obtain ⟨closed, u, v, split, comment⟩ := exists_comment (Bool.not_eq_false _ ▸ opens)
  have faces := sound.faces
  rw [split] at faces
  rw [comment?_of_comment faces comment] at nothing
  cases nothing

/-- A line comment that decides. -/
theorem Sound.comment?_line (sound : s.Sound text) (marked : s.mark = s.cursor)
    (opens : s.comments.opensLine (text.drop s.cursor.offset) = true)
    (decides : s.comments.opensBlock (text.drop s.cursor.offset) = true →
      s.comments.blockStart.length < s.comments.line.length) :
    ∃ stop t, IsLeast {i | s.cursor.offset ≤ i ∧ text.LineStopsAt i} stop ∧ s.comment? = some t ∧
      GoesTo text s stop (commentTokens s.comments text s.cursor.offset stop) [] t := by
  obtain ⟨u, v, split, sweep⟩ := Text.exists_sweep Text.inLine (text.drop s.cursor.offset)
  have faces := sound.faces
  rw [split] at faces opens decides
  exact ⟨_, _, sweep.isLeast_lineStop split sound.cursor.offset_le,
    comment?_of_comment faces (.line opens decides sweep), sound.goesTo_emitComment marked _⟩

/-- A block comment that decides, and has an end. -/
theorem Sound.comment?_block {i : Nat} (sound : s.Sound text) (marked : s.mark = s.cursor)
    (startValid : Valid s.comments.blockStart) (endValid : Valid s.comments.blockEnd)
    (opens : s.comments.opensBlock (text.drop s.cursor.offset) = true)
    (decides : s.comments.opensLine (text.drop s.cursor.offset) = true →
      s.comments.line.length ≤ s.comments.blockStart.length)
    (first : IsLeast {i | s.cursor.offset + s.comments.blockStart.length ≤ i ∧
      s.comments.blockEnd <+: text.drop i} i) :
    let stop := i + s.comments.blockEnd.length
    ∃ t, s.comment? = some t ∧
      GoesTo text s stop (commentTokens s.comments text s.cursor.offset stop) [] t := by
  intro stop
  obtain ⟨n, rfl⟩ := Nat.exists_eq_add_of_le first.1.1
  have firstAhead : IsLeast {j | s.comments.blockEnd <+:
      ((text.drop s.cursor.offset).drop s.comments.blockStart.length).drop j} n := by
    simp only [List.drop_drop]
    refine ⟨first.1.2, fun j occurs => ?_⟩
    exact Nat.le_of_add_le_add_left (first.2 ⟨Nat.le_add_right _ j, occurs⟩)
  obtain ⟨u, v, split, size, comment⟩ := exists_closed startValid endValid opens decides firstAhead
  have faces := sound.faces
  rw [split] at faces
  have reached : s.cursor.offset + u.length = stop := by
    rw [size, ← Nat.add_assoc, ← Nat.add_assoc]
  rw [← reached]
  exact ⟨_, comment?_of_comment faces comment, sound.goesTo_emitComment marked _⟩

/-- A block comment that decides, and has no end. -/
theorem Sound.comment?_unclosed (sound : s.Sound text) (marked : s.mark = s.cursor)
    (startValid : Valid s.comments.blockStart)
    (opens : s.comments.opensBlock (text.drop s.cursor.offset) = true)
    (decides : s.comments.opensLine (text.drop s.cursor.offset) = true →
      s.comments.line.length ≤ s.comments.blockStart.length)
    (missing : ∀ i, s.cursor.offset + s.comments.blockStart.length ≤ i →
      ¬ s.comments.blockEnd <+: text.drop i) :
    ∃ t, s.comment? = some t ∧ GoesTo text s (s.cursor.offset + s.comments.blockStart.length) []
      [⟨text.locationAt s.cursor.offset, Fault.unterminatedComment.message⟩] t := by
  obtain ⟨_, inner, split⟩ := CommentStyle.opensBlock_eq_true_iff.mp opens
  have faces := sound.faces
  rw [← split] at faces opens decides
  have missingAhead : ∀ i, ¬ s.comments.blockEnd <+: inner.drop i := by
    intro i
    rw [← Text.drop_add_of_split split.symm, List.drop_drop]
    exact missing _ (Nat.le_add_right _ i)
  exact ⟨_, comment?_of_comment faces (comment_unclosed startValid opens decides missingAhead),
    sound.goesTo_report marked _ _⟩

/-- What is read as a comment at some moment of a scan, behind white space.  Nothing is read unless
a marker lies ahead; of two markers the longer one decides, and the one of block comments if they
have the same length.  A line comment ends in front of the next line break, a block comment behind
the next end marker; without one, only the start marker is read, and there is one complaint. -/
theorem comment_reads_exactly {before u : Scanner} (during : Reaches (before.reset text) u)
    (startValid : Valid u.comments.blockStart) (endValid : Valid u.comments.blockEnd) :
    let s := u.skipBlanks.startToken
    let p := s.cursor.offset
    let style := s.comments
    let line := style.line ≠ [] ∧ style.line <+: text.drop p
    let block := style.blockStart ≠ [] ∧ style.blockStart <+: text.drop p
    (s.comment? = none ↔ ¬ line ∧ ¬ block) ∧
      (s.comment? = none ↔ style.startsAt s.cursor = false) ∧
      (line → (block → style.blockStart.length < style.line.length) →
        ∃ stop t, IsLeast {i | p ≤ i ∧ text.LineStopsAt i} stop ∧ s.comment? = some t ∧
          GoesTo text s stop (commentTokens style text p stop) [] t) ∧
      (block → (line → style.line.length ≤ style.blockStart.length) →
        (∀ i, IsLeast {i | p + style.blockStart.length ≤ i ∧ style.blockEnd <+: text.drop i} i →
          let stop := i + style.blockEnd.length
          ∃ t, s.comment? = some t ∧
            GoesTo text s stop (commentTokens style text p stop) [] t) ∧
        ((∀ i, p + style.blockStart.length ≤ i → ¬ style.blockEnd <+: text.drop i) →
          ∃ t, s.comment? = some t ∧
            GoesTo text s (p + style.blockStart.length) []
              [⟨text.locationAt p, Fault.unterminatedComment.message⟩] t)) := by
  intro s p style line block
  have sound : s.Sound text :=
    (Reaches.sound (during.trans (Reaches.skipBlanks u)) (sound_reset before text)).startToken
  have marked : s.mark = s.cursor := rfl
  have opensLine : style.opensLine (text.drop p) = true ↔ line :=
    CommentStyle.opensLine_eq_true_iff
  have opensBlock : style.opensBlock (text.drop p) = true ↔ block :=
    CommentStyle.opensBlock_eq_true_iff
  have starts : style.startsAt s.cursor = style.opens (text.drop p) := by
    rw [CommentStyle.startsAt, startsLine_eq sound.faces, startsBlock_eq sound.faces]
    rfl
  refine ⟨?_, ?_, fun isLine decides => ?_, fun isBlock decides => ⟨fun i first => ?_, ?_⟩⟩
  · rw [sound.comment?_eq_none_iff, CommentStyle.opens, Bool.or_eq_false_iff, ← opensLine,
      ← opensBlock, Bool.not_eq_true, Bool.not_eq_true]
  · rw [starts]
    exact sound.comment?_eq_none_iff
  · exact sound.comment?_line marked (opensLine.mpr isLine) fun both => decides (opensBlock.mp both)
  · exact sound.comment?_block marked startValid endValid (opensBlock.mpr isBlock)
      (fun both => decides (opensLine.mp both)) first
  · exact sound.comment?_unclosed marked startValid (opensBlock.mpr isBlock)
      fun both => decides (opensLine.mp both)

/-! ## A cut marker in front of a marker -/

/-- A comment in guillemets, with the first byte of a closing guillemet inside of it. -/
def guillemetText : Text := [0xC2, 0xAB, 0xC2, 0xC2, 0xBB]

/-- A scanner in front of it, for which an opening guillemet starts comments of both kinds. -/
def guillemetScanner : Scanner :=
  (Scanner.new ⟨[0xC2, 0xAB], [0xC2, 0xAB], [0xC2, 0xBB], true⟩).reset guillemetText

theorem skipBlanks_guillemetScanner : guillemetScanner.skipBlanks = guillemetScanner := by
  rw [skipBlanks, advanceWhile, Cursor.advanceWhile]
  rfl

theorem isLeast_guillemet :
    IsLeast {i | 0 + 2 ≤ i ∧ [0xC2, 0xBB] <+: guillemetText.drop i} 3 := by
  refine ⟨⟨by decide, [], rfl⟩, fun i ⟨low, occurs⟩ => ?_⟩
  have other : i ≠ 2 := by
    rintro rfl
    revert occurs
    decide
  omega

theorem comment_reads_exactly_guillemets :
    ∃ t, guillemetScanner.skipBlanks.startToken.comment? = some t ∧ t.cursor.offset = 5 ∧
      t.tokens = [⟨.comment, guillemetText, .start, ⟨0, 5⟩, none⟩] ∧
      t.diagnostics.toList = [] := by
  obtain ⟨-, -, -, block⟩ := comment_reads_exactly (.refl guillemetScanner) ⟨['«'], rfl⟩ ⟨['»'], rfl⟩
  rw [skipBlanks_guillemetScanner] at block ⊢
  obtain ⟨t, read, goes⟩ :=
    (block ⟨by decide, by decide⟩ fun _ => by decide).1 3 isLeast_guillemet
  refine ⟨t, read, ?_, ?_, goes.diagnostics_eq⟩
  · rw [goes.cursor_eq]
    rfl
  · have location := congrArg Cursor.location (Text.cursorAt_zero guillemetText)
    rw [goes.tokens_eq]
    exact congrArg (fun l => [(⟨.comment, guillemetText, l, ⟨0, 5⟩, none⟩ : Token)]) location

end Scanner

end FrontEnd
