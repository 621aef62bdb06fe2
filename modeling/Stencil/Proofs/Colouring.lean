import Stencil.Proofs.ReportPlace

/-!
# What colour changes

A report in colour is the same report with escape sequences in it. As long as no piece of the layout has
an escape character of its own, each escape character begins a sequence, and without the sequences the
texts of the pieces are left. `IsClean` says so of pieces, and it goes through all that a layout is made
of: what a report draws by itself has no escape character, and all else comes from its texts.
-/

namespace Stencil

namespace Piece

theorem afterSequence?_of_ne {c : Char} (hc : c ≠ '\x1b') (s : Text) :
    afterSequence? (c :: s) = none := by
  unfold afterSequence?
  split
  · next heq => exact absurd (List.cons.inj heq).1 hc
  · rfl

theorem afterSequence?_sequence {code : Text} (hcode : ∀ c ∈ code, isCodeChar c) (rest : Text) :
    afterSequence? ('\x1b' :: '[' :: (code ++ 'm' :: rest)) = some rest := by
  have hdrop : (code ++ 'm' :: rest).dropWhile isCodeChar = 'm' :: rest := by
    rw [List.dropWhile_append_of_pos hcode]
    rfl
  simp only [afterSequence?, hdrop]

theorem withoutColour_nil : withoutColour [] = [] := by
  rw [withoutColour]

theorem withoutColour_cons {c : Char} (hc : c ≠ '\x1b') (s : Text) :
    withoutColour (c :: s) = c :: withoutColour s := by
  rw [withoutColour]
  split
  · next heq =>
    rw [afterSequence?_of_ne hc] at heq
    cases heq
  · rfl

theorem withoutColour_sequence {code : Text} (hcode : ∀ c ∈ code, isCodeChar c) (rest : Text) :
    withoutColour ('\x1b' :: '[' :: (code ++ 'm' :: rest)) = withoutColour rest := by
  rw [withoutColour]
  split
  · next heq =>
    rw [afterSequence?_sequence hcode] at heq
    rw [Option.some.inj heq]
  · next heq =>
    rw [afterSequence?_sequence hcode] at heq
    cases heq

/-- A text without escape characters is left as it is. -/
theorem withoutColour_append {s : Text} (hs : '\x1b' ∉ s) (rest : Text) :
    withoutColour (s ++ rest) = s ++ withoutColour rest := by
  induction s with
  | nil => rfl
  | cons c s ih =>
    rw [List.mem_cons, not_or] at hs
    rw [List.cons_append, withoutColour_cons (Ne.symm hs.1), ih hs.2, List.cons_append]

theorem isCodeChar_of_code? {ink : Ink} {code : Text} (h : ink.code? = some code) :
    ∀ c ∈ code, isCodeChar c := by
  rw [← List.all_eq_true]
  cases ink <;> cases h <;> decide

/-- Of a coloured piece its text is left. -/
theorem withoutColour_render_append {p : Piece} (hp : '\x1b' ∉ p.text) (rest : Text) :
    withoutColour (p.render true ++ rest) = p.text ++ withoutColour rest := by
  unfold render
  cases hcode : p.ink.code? with
  | none => exact withoutColour_append hp rest
  | some code =>
    -- One sequence stands before the text and one behind it.
    have hreset : ∀ c ∈ ['0'], isCodeChar c := List.all_eq_true.1 (by decide)
    have hpiece : '\x1b' :: '[' :: code ++ 'm' :: p.text ++ ['\x1b', '[', '0', 'm'] ++ rest =
        '\x1b' :: '[' :: (code ++ 'm' :: (p.text ++ '\x1b' :: '[' :: (['0'] ++ 'm' :: rest))) := by
      simp
    dsimp only
    rw [hpiece, withoutColour_sequence (isCodeChar_of_code? hcode), withoutColour_append hp,
      withoutColour_sequence hreset]

/-- Whether no piece has an escape character of its own. -/
def IsClean (ps : List Piece) : Prop := ∀ p ∈ ps, '\x1b' ∉ p.text

@[simp] theorem isClean_nil : IsClean [] := by simp [IsClean]

@[simp] theorem isClean_cons {p : Piece} {ps : List Piece} :
    IsClean (p :: ps) ↔ '\x1b' ∉ p.text ∧ IsClean ps := List.forall_mem_cons

@[simp] theorem isClean_append {ps qs : List Piece} :
    IsClean (ps ++ qs) ↔ IsClean ps ∧ IsClean qs := List.forall_mem_append

theorem isClean_flatMap {α : Type} {xs : List α} {f : α → List Piece}
    (h : ∀ x ∈ xs, IsClean (f x)) : IsClean (xs.flatMap f) := by
  intro p hp
  obtain ⟨x, hx, hpx⟩ := List.mem_flatMap.1 hp
  exact h x hx p hpx

theorem isClean_replicate {n : Nat} {p : Piece} (h : '\x1b' ∉ p.text) :
    IsClean (List.replicate n p) := by
  intro q hq
  rwa [List.eq_of_mem_replicate hq]

theorem isClean_single {ink : Ink} {s : Text} (h : '\x1b' ∉ s) : IsClean (single ink s) := by
  intro p hp
  obtain ⟨c, hc, rfl⟩ := List.mem_map.1 hp
  simpa using fun heq : '\x1b' = c => h (heq ▸ hc)

theorem isClean_cell {ink : Ink} {head fill : Char} (hhead : head ≠ '\x1b') (hfill : fill ≠ '\x1b')
    (n : Nat) : IsClean (cell ink head fill n) := by
  cases n with
  | zero => exact isClean_nil
  | succ n => exact isClean_cons.2 ⟨by simpa using hhead.symm,
      isClean_replicate (by simpa using hfill.symm)⟩

theorem notMem_renderAll_false {ps : List Piece} (h : IsClean ps) : '\x1b' ∉ renderAll false ps := by
  induction ps with
  | nil => simp
  | cons p ps ih =>
    rw [isClean_cons] at h
    rw [renderAll_false_cons, List.mem_append, not_or]
    exact ⟨h.1, ih h.2⟩

/-- Clean pieces in colour are the same pieces in plain text, once the escape sequences are taken out. -/
theorem withoutColour_renderAll {ps : List Piece} (h : IsClean ps) :
    withoutColour (renderAll true ps) = renderAll false ps := by
  induction ps with
  | nil => exact withoutColour_nil
  | cons p ps ih =>
    rw [isClean_cons] at h
    rw [renderAll_false_cons, ← ih h.2]
    exact withoutColour_render_append h.1 _

end Piece

namespace SourceLine

theorem flatten_split (s : Text) : (split s).flatten = s := by
  fun_induction split s with
  | case1 => rfl
  | case2 s ih => simp [ih]
  | case3 c s _ hc ih => simp [ih]
  | case4 c s _ hc hs ih => simpa [hs] using ih
  | case5 c s _ hc line lines hs ih => simpa [hs] using ih

/-- What is shown of a line stands in the source. -/
theorem mem_of_mem_shown {source : Text} {place : Nat} {l : SourceLine}
    (h : at? source place = some l) {c : Char} (hc : c ∈ l.shown) : c ∈ source := by
  obtain ⟨-, us, vs, hsplit, -⟩ := at?_eq_some_iff.1 h
  have htext : c ∈ l.text := by
    have hreverse := (List.dropWhile_suffix isBlank).mem (List.mem_reverse.1 hc)
    exact List.mem_reverse.1 hreverse
  rw [← flatten_split source, hsplit]
  exact List.mem_flatten.2 ⟨l.text, by simp, htext⟩

end SourceLine

namespace Report

open Piece

/-- Whether no text of a report has an escape character. -/
structure IsPlain (r : Report) : Prop where
  source : '\x1b' ∉ r.source
  file : '\x1b' ∉ r.file
  message : '\x1b' ∉ r.message
  label : '\x1b' ∉ r.label
  help : ∀ help ∈ r.help, '\x1b' ∉ help

theorem escape_notMem_spaces (n : Nat) : '\x1b' ∉ spaces n :=
  fun h => absurd (mem_spaces h) (by decide)

theorem escape_notMem_decimal (n : Nat) : '\x1b' ∉ decimal n :=
  notMem_decimal_of_control (by decide) n

variable {r : Report}

theorem isClean_headline (h : r.IsPlain) : IsClean r.headline := by
  simp [headline, plain, newline, h.message]

theorem isClean_location (h : r.IsPlain) (width : Nat) (line : SourceLine) :
    IsClean (r.location width line) := by
  simp [location, plain, newline, h.file, escape_notMem_spaces, escape_notMem_decimal,
    isClean_single]

theorem isClean_numberedMargin (width : Nat) (line : SourceLine) :
    IsClean (numberedMargin width line) := by
  simp [numberedMargin, plain, escape_notMem_spaces, escape_notMem_decimal]

theorem isClean_margin (width : Nat) {rule : Char} (hrule : rule ≠ '\x1b') :
    IsClean (margin width rule) := by
  simp [margin, plain, escape_notMem_spaces, hrule.symm]

theorem isClean_barMargin (width : Nat) : IsClean (margin width '│') :=
  isClean_margin width (by decide)

theorem isClean_sourceText {line : SourceLine} (h : '\x1b' ∉ line.shown) :
    IsClean (r.sourceText line) := by
  refine isClean_flatMap ?_
  intro p hp
  have hshown : p.1 ∈ line.shown := List.fst_mem_of_mem_zipIdx hp
  dsimp only
  split
  · exact isClean_replicate (by simp)
  · simpa using fun heq : '\x1b' = p.1 => h (heq ▸ hshown)

theorem isClean_cells (line : SourceLine) (n : Nat) {draw : Nat → Nat → List Piece}
    (h : ∀ i columns, IsClean (draw i columns)) : IsClean (cells line n draw) :=
  isClean_flatMap fun p _ => h p.2 p.1

theorem isClean_drawnMark (line : SourceLine) (i columns : Nat) :
    IsClean (r.drawnMark line i columns) := by
  unfold drawnMark
  dsimp only
  split
  · exact isClean_cell (by split <;> decide) (by decide) columns
  · split <;> exact isClean_cell (by decide) (by decide) columns

theorem isClean_drawnStem (line : SourceLine) (i columns : Nat) :
    IsClean (r.drawnStem line i columns) := by
  unfold drawnStem
  dsimp only
  split
  · exact isClean_cell (by decide) (by decide) columns
  · exact isClean_cell (by split <;> decide) (by decide) columns

theorem isClean_inlineMark (h : r.IsPlain) (width : Nat) {line : SourceLine}
    (hline : '\x1b' ∉ line.shown) : IsClean (r.inlineMark width line) := by
  have hmarks := fun n => isClean_cells line n (isClean_drawnMark (r := r) line)
  have hstem := fun n => isClean_cells line n (isClean_drawnStem (r := r) line)
  simp [inlineMark, plain, newline, isClean_numberedMargin, isClean_sourceText hline,
    isClean_barMargin, hmarks, hstem, h.label]

theorem isClean_omission (width : Nat) : IsClean (omission width) := by
  have hmargin : IsClean (margin width '┆') := isClean_margin width (by decide)
  simp [omission, plain, newline, hmargin, escape_notMem_spaces]

theorem isClean_bracketEnd (h : r.IsPlain) (width : Nat) {last : SourceLine}
    (hlast : '\x1b' ∉ last.shown) : IsClean (r.bracketEnd width last) := by
  have hblank : ∀ i columns : Nat, IsClean (cell .plain ' ' ' ' columns) :=
    fun _ => isClean_cell (by decide) (by decide)
  have hrule : ∀ i columns : Nat, IsClean (cell .alert '─' '─' columns) :=
    fun _ => isClean_cell (by decide) (by decide)
  simp [bracketEnd, plain, newline, isClean_numberedMargin, isClean_sourceText hlast,
    isClean_barMargin, isClean_single, isClean_cells last _ hblank, isClean_cells last _ hrule,
    escape_notMem_spaces, h.label]

theorem isClean_bracketMark (h : r.IsPlain) (width : Nat) {first last : SourceLine}
    (hfirst : '\x1b' ∉ first.shown) (hlast : '\x1b' ∉ last.shown) :
    IsClean (r.bracketMark width first last) := by
  have hbegin : IsClean (numberedMargin width first ++ single .alert ['╭', '─', '▶', ' '] ++
      r.sourceText first ++ [newline]) := by
    simp [newline, plain, isClean_numberedMargin, isClean_sourceText hfirst, isClean_single]
  unfold bracketMark
  rw [isClean_append]
  refine ⟨hbegin, ?_⟩
  split
  · exact isClean_omission width
  · rw [isClean_append]
    refine ⟨?_, isClean_bracketEnd h width hlast⟩
    split
    · exact isClean_omission width
    · exact isClean_nil

theorem isClean_bracketGap : IsClean r.bracketGap := by
  have hblank : IsClean [plain (spaces 4)] := by simp [plain, escape_notMem_spaces]
  unfold bracketGap
  split
  · split
    · simp [plain, escape_notMem_spaces]
    · exact hblank
  · exact hblank

theorem isClean_helpLines (h : r.IsPlain) (width : Nat) (bracket : Bool) :
    IsClean (r.helpLines width bracket) := by
  have hgap : IsClean (if bracket then r.bracketGap else []) := by
    split
    · exact isClean_bracketGap
    · exact isClean_nil
  unfold helpLines
  split
  · exact isClean_nil
  · next help hhelp =>
    have htext : '\x1b' ∉ help := h.help help hhelp
    simp [plain, newline, isClean_barMargin, hgap, htext]

/-- The first word of a report is coloured. -/
theorem escape_mem_layout (r : Report) : '\x1b' ∈ renderAll true r.layout := by
  have hheadline : '\x1b' ∈ renderAll true r.headline := List.mem_cons_self
  unfold layout
  split
  · exact hheadline
  · simp only [renderAll_append, List.mem_append, hheadline, true_or]

/-- A report draws no escape character that is not in one of its texts. -/
theorem isClean_layout (h : r.IsPlain) : IsClean r.layout := by
  unfold layout
  split
  · exact isClean_headline h
  · next first last hends =>
    obtain ⟨hat, hat'⟩ := ends?_eq_some_iff.1 hends
    have hfirst : '\x1b' ∉ first.shown := fun hc => h.source (SourceLine.mem_of_mem_shown hat hc)
    have hlast : '\x1b' ∉ last.shown := fun hc => h.source (SourceLine.mem_of_mem_shown hat' hc)
    dsimp only
    simp only [isClean_append]
    refine ⟨⟨⟨⟨isClean_headline h, isClean_location h _ first⟩, ?_⟩,
      isClean_helpLines h _ _⟩, by simp [newline, plain]⟩
    split
    · exact isClean_bracketMark h _ hfirst hlast
    · split
      · simp [newline, plain, isClean_barMargin]
      · exact isClean_inlineMark h _ hfirst

end Report

namespace TemplateError

/-- The texts of an error that are not its own: a name of the template, and names of the table. -/
def texts : TemplateError → List Text
  | undefined name _ suggestions => name :: suggestions
  | invalid .. => []

theorem mem_joinWith {separator : Text} {texts : List Text} {c : Char}
    (h : c ∈ joinWith separator texts) : c ∈ separator ∨ ∃ text ∈ texts, c ∈ text := by
  induction texts using joinWith.induct with
  | case1 => cases h
  | case2 s => exact Or.inr ⟨s, List.mem_singleton_self s, h⟩
  | case3 s t rest ih =>
    rw [joinWith, List.mem_append, List.mem_append] at h
    rcases h with (hs | hseparator) | hrest
    · exact Or.inr ⟨s, List.mem_cons_self, hs⟩
    · exact Or.inl hseparator
    · rcases ih hrest with hseparator | ⟨text, htext, hc⟩
      · exact Or.inl hseparator
      · exact Or.inr ⟨text, List.mem_cons_of_mem s htext, hc⟩

section

variable {c : Char} (hc : c.toNat < 0x20)

include hc

theorem notMem_label_invalid (span : Span) (p : Position) : c ∉ (invalid span p).label := by
  have hlabel : c ∉ "expected '@@@@', '@@NAME' or '@@\x7bNAME\x7d'".toList :=
    notMem_of_control hc (by decide)
  exact hlabel

theorem notMem_label_undefined {name : Text} (hname : c ∉ name) (span : Span)
    (suggestions : List Text) : c ∉ (undefined name span suggestions).label := by
  have hclose : c ∉ "' is not in the substitution table".toList := notMem_of_control hc (by decide)
  have hopen : c ∉ ['\''] := notMem_of_control hc (by decide)
  change c ∉ ['\''] ++ (name ++ "' is not in the substitution table".toList)
  simp only [List.mem_append, not_or]
  exact ⟨hopen, hname, hclose⟩

theorem notMem_help {e : TemplateError} (htexts : ∀ text ∈ e.texts, c ∉ text) {help : Text}
    (hhelp : help ∈ e.help?) : c ∉ help := by
  cases e with
  | invalid span p => cases hhelp
  | undefined name span suggestions =>
    cases suggestions with
    | nil => cases hhelp
    | cons text rest =>
      have hbegin : c ∉ "did you mean ".toList := notMem_of_control hc (by decide)
      have hend : c ∉ ['?'] := notMem_of_control hc (by decide)
      have hjoined : c ∉ joinWith ", ".toList (text :: rest) := by
        intro hmem
        rcases mem_joinWith hmem with hseparator | ⟨text', htext', hmem'⟩
        · exact notMem_of_control hc (by decide) hseparator
        · exact htexts text' (List.mem_cons_of_mem name htext') hmem'
      have heq : "did you mean ".toList ++ joinWith ", ".toList (text :: rest) ++ ['?'] = help :=
        Option.some.inj hhelp
      rw [← heq]
      simp only [List.mem_append, not_or]
      exact ⟨⟨hbegin, hjoined⟩, hend⟩

end

/-- The texts of a report come from the source, from the file and from the error. -/
theorem isPlain_report {e : TemplateError} {source file : Text} (hsource : '\x1b' ∉ source)
    (hfile : '\x1b' ∉ file) (htexts : ∀ text ∈ e.texts, '\x1b' ∉ text) :
    (e.report source file).IsPlain := by
  have hcontrol : '\x1b'.toNat < 0x20 := by decide
  have hown : '\x1b' ∉ e.message ∧ '\x1b' ∉ e.label := by
    cases e with
    | undefined name span suggestions =>
      have hname : '\x1b' ∉ name := htexts name (by simp [texts])
      exact ⟨notMem_message_undefined hcontrol hname span suggestions,
        notMem_label_undefined hcontrol hname span suggestions⟩
    | invalid span p =>
      exact ⟨notMem_message_invalid hcontrol span p, notMem_label_invalid hcontrol span p⟩
  exact ⟨hsource, hfile, hown.1, hown.2, fun help => notMem_help hcontrol htexts⟩

/-- Colour changes nothing but colour. When neither the source nor the name of the file nor a text of
the error has an escape character, whatever stretch the error has, its report in colour has escape
characters, its report in plain text has none, and the one is the other once the escape sequences are
taken out. -/
theorem colour_changes_only_colour {e : TemplateError} {source file : Text}
    (hspan : e.span.start ≤ e.span.stop) (hsource : '\x1b' ∉ source) (hfile : '\x1b' ∉ file)
    (htexts : ∀ text ∈ e.texts, '\x1b' ∉ text) :
    ∃ coloured uncoloured, e.format? source file true = some coloured ∧
      e.format? source file false = some uncoloured ∧
      '\x1b' ∈ coloured ∧ '\x1b' ∉ uncoloured ∧ Piece.withoutColour coloured = uncoloured := by
  have hclean := Report.isClean_layout (isPlain_report hsource hfile htexts)
  exact ⟨_, _, if_pos hspan, if_pos hspan, Report.escape_mem_layout _,
    Piece.notMem_renderAll_false hclean, Piece.withoutColour_renderAll hclean⟩

/-- A stretch over two lines, behind a tab and a character of two columns, with a suggestion. -/
theorem colour_changes_only_colour_over_two_lines :
    let e : TemplateError := .undefined ['a'] ⟨1, 4⟩ [['A'], ['B', 'A']]
    let source : Text := "\t漢\nb".toList
    e.span.start ≤ e.span.stop ∧ '\x1b' ∉ source ∧ '\x1b' ∉ ['f'] ∧
      (∀ text ∈ e.texts, '\x1b' ∉ text) ∧ ['A'] ∈ e.texts ∧
      ∃ coloured, e.format? source ['f'] true = some coloured ∧
        e.format? source ['f'] false = some (Piece.withoutColour coloured) ∧
        '\x1b' ∈ coloured ∧ '\x1b' ∉ Piece.withoutColour coloured := by
  intro e source
  have hspan : e.span.start ≤ e.span.stop := by decide
  have hsource : '\x1b' ∉ source := by decide
  have hfile : '\x1b' ∉ ['f'] := by decide
  have htexts : ∀ text ∈ e.texts, '\x1b' ∉ text := by decide
  obtain ⟨coloured, uncoloured, hcoloured, huncoloured, hmem, hnotMem, rfl⟩ :=
    colour_changes_only_colour hspan hsource hfile htexts
  exact ⟨hspan, hsource, hfile, htexts, by decide, coloured, hcoloured, huncoloured, hmem, hnotMem⟩

end TemplateError

end Stencil
