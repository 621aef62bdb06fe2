import Stencil.Proofs.ErrorLists
import Stencil.Template.Cutting

/-!
# Cuts that never fail

Whatever the source is, each of its cuts succeeds, and what is cut out is what reading the source
character by character comes to. The lexemes stand on their own characters, so a cut by a span of theirs
gives these back, and a cut inside such a stretch comes right behind a name or a bracket, which is the
end of a character. The tokens stand on their spellings, and lines end behind a newline.
-/

namespace Stencil

/-- What is cut out of a text stands between the ends of the span. -/
theorem slice?_eq_some_iff {source text : Text} {span : Span} :
    slice? source span = some text ↔
      ∃ before after, source = before ++ text ++ after ∧
        span = ⟨byteLength before, byteLength before + byteLength text⟩ := by
  constructor
  · intro h
    unfold slice? at h
    split at h
    · next hle =>
      split at h
      · next before rest hbefore =>
        obtain ⟨⟨_, after⟩, hafter, rfl⟩ := Option.map_eq_some_iff.1 h
        obtain ⟨rfl, hstart⟩ := eq_append_of_cutAt? hbefore
        obtain ⟨rfl, hlength⟩ := eq_append_of_cutAt? hafter
        refine ⟨before, after, by rw [List.append_assoc], ?_⟩
        obtain ⟨start, stop⟩ := span
        simp only [Span.mk.injEq] at hle hstart hlength ⊢
        omega
      · cases h
    · cases h
  · rintro ⟨before, after, rfl, rfl⟩
    exact slice?_append before text after

theorem slice?_prefix (s rest : Text) : slice? (s ++ rest) ⟨0, byteLength s⟩ = some s :=
  slice?_eq_some_iff.2 ⟨[], rest, rfl, by simp⟩

theorem slice?_suffix (s rest : Text) :
    slice? (s ++ rest) ⟨byteLength s, byteLength (s ++ rest)⟩ = some rest :=
  slice?_eq_some_iff.2 ⟨s, [], by simp, by simp⟩

/-- The end of what was cut out can be cut out itself. -/
theorem slice?_of_suffix {source text rest : Text} {span : Span} (h : slice? source span = some text)
    (hrest : rest <:+ text) :
    slice? source ⟨span.start + (byteLength text - byteLength rest), span.stop⟩ = some rest := by
  obtain ⟨front, rfl⟩ := hrest
  obtain ⟨before, after, rfl, rfl⟩ := slice?_eq_some_iff.1 h
  refine slice?_eq_some_iff.2 ⟨before ++ front, after, by simp, ?_⟩
  simp only [byteLength_append, Nat.add_sub_cancel, Nat.add_assoc]

namespace Lexeme

def kind : Lexeme → Kind
  | delimiter => .delimiter
  | atSign => .atSign
  | run _ => .run

/-- The characters of a lexeme. -/
def text : Lexeme → Text
  | delimiter => ['@', '@']
  | atSign => ['@']
  | run text => text

theorem byteLength_text (l : Lexeme) : byteLength l.text = l.width := by
  cases l <;> rfl

/-- What cutting knows of a lexeme: its characters are looked up in the source. -/
def Placed.outline (l : Placed) : Kind × Span := (l.lexeme.kind, l.span)

theorem outline_delimiter (span : Span) : Placed.outline ⟨delimiter, span⟩ = (.delimiter, span) := rfl

theorem outline_atSign (span : Span) : Placed.outline ⟨atSign, span⟩ = (.atSign, span) := rfl

theorem outline_run (text : Text) (span : Span) : Placed.outline ⟨run text, span⟩ = (.run, span) := rfl

/-- Whether a text that goes on with `rest` behind a lexeme begins with this lexeme. -/
structure IsFirst (l : Lexeme) (rest : Text) : Prop where
  ne_nil : l.text ≠ []
  split_eq : split (l.text ++ rest) = l :: split rest
  longest?_eq : Kind.longest? (l.text ++ rest) = some l.kind
  taken_eq : l.kind.taken (l.text ++ rest) = l.text

theorem isFirst_delimiter (rest : Text) : delimiter.IsFirst rest where
  ne_nil := List.cons_ne_nil _ _
  split_eq := rfl
  longest?_eq := rfl
  taken_eq := rfl

theorem isFirst_atSign {rest : Text} (h : rest.head? ≠ some '@') : atSign.IsFirst rest where
  ne_nil := List.cons_ne_nil _ _
  split_eq := split_at h
  longest?_eq := by
    cases rest with
    | nil => rfl
    | cons c rest =>
      have hc : c ≠ '@' := by simpa using h
      simp [Kind.longest?, Kind.taken, text, kind, hc.symm]
  taken_eq := rfl

theorem isFirst_run {text rest : Text} (hne : text ≠ []) (htext : '@' ∉ text)
    (hrest : ∀ c ∈ rest.head?, c = '@') : (run text).IsFirst rest where
  ne_nil := hne
  split_eq := split_run hne htext hrest
  longest?_eq := by
    cases text with
    | nil => exact absurd rfl hne
    | cons c text =>
      have hc : '@' ≠ c := by
        rintro rfl
        exact htext List.mem_cons_self
      simp [Kind.longest?, Kind.taken, Lexeme.text, kind, hc, hc.symm]
  taken_eq := by
    have hall : ∀ c ∈ text, (c != '@') = true := by
      intro c hc
      rw [bne_iff_ne]
      rintro rfl
      exact htext hc
    exact (Token.takeWhile_dropWhile_eq_iff.2 ⟨rfl, hall, by simpa using hrest⟩).1

/-- A text is empty or begins with a lexeme. -/
theorem exists_isFirst {s : Text} (hs : s ≠ []) :
    ∃ (l : Lexeme) (rest : Text), s = l.text ++ rest ∧ l.IsFirst rest := by
  obtain ⟨text, rest, rfl, htext, hrest⟩ := Token.exists_run s
  by_cases hne : text = []
  · subst hne
    cases rest with
    | nil => exact absurd rfl hs
    | cons c rest =>
      obtain rfl : c = '@' := hrest c rfl
      by_cases hhead : rest.head? = some '@'
      · obtain ⟨rest, rfl⟩ := List.head?_eq_some_iff.1 hhead
        exact ⟨delimiter, rest, rfl, isFirst_delimiter rest⟩
      · exact ⟨atSign, rest, rfl, isFirst_atSign hhead⟩
  · exact ⟨run text, rest, rfl, isFirst_run hne htext hrest⟩

/-- Every text is empty, or a lexeme before a rest. -/
@[elab_as_elim]
theorem split_induction {motive : Text → Prop} (nil : motive [])
    (lexeme : ∀ (l : Lexeme) (rest : Text), l.IsFirst rest → motive rest → motive (l.text ++ rest))
    (s : Text) : motive s := by
  by_cases hs : s = []
  · rw [hs]
    exact nil
  · obtain ⟨l, rest, heq, hfirst⟩ := exists_isFirst hs
    have hpos := List.length_pos_iff.2 hfirst.ne_nil
    have hlt : rest.length < s.length := by
      rw [heq, List.length_append]
      omega
    rw [heq]
    exact lexeme l rest hfirst (split_induction nil lexeme rest)
termination_by s.length

theorem flatMap_text_split (s : Text) : (split s).flatMap text = s := by
  induction s using split_induction with
  | nil => rfl
  | lexeme l rest hfirst ih => rw [hfirst.split_eq, List.flatMap_cons, ih]

theorem scan_text_append {l : Lexeme} {rest : Text} (h : l.IsFirst rest) (start : Nat) :
    scan start (l.text ++ rest) =
      (some l.kind, ⟨start, start + l.width⟩) :: scan (start + l.width) rest := by
  obtain ⟨hne, -, hlongest, htaken⟩ := h
  cases htext : l.text with
  | nil => exact absurd htext hne
  | cons c s =>
    rw [htext] at hlongest htaken
    rw [List.cons_append] at hlongest htaken ⊢
    have hdrop : (s ++ rest).drop ((c :: s).length - 1) = rest := List.drop_left
    rw [scan]
    simp only [hlongest, Option.elim_some, htaken, hdrop]
    rw [← htext, byteLength_text]

/-- The longest match finds the lexemes of a text, and there is one at every place. -/
theorem scan_eq (start : Nat) (s : Text) :
    scan start s = (placeAll start (split s)).map fun l => (some l.outline.1, l.outline.2) := by
  induction s using split_induction generalizing start with
  | nil => rw [scan, split, placeAll, List.map_nil]
  | lexeme l rest hfirst ih =>
    rw [hfirst.split_eq, placeAll, List.map_cons, scan_text_append hfirst, ih]
    rfl

/-- Each lexeme stands on its own characters. -/
theorem slice?_of_mem_placeAll (before : Text) {ls : List Lexeme} {l : Placed}
    (h : l ∈ placeAll (byteLength before) ls) :
    slice? (before ++ ls.flatMap text) l.span = some l.lexeme.text := by
  induction ls generalizing before with
  | nil => cases h
  | cons m ls ih =>
    rw [List.flatMap_cons, ← List.append_assoc]
    rcases List.mem_cons.1 h with rfl | h
    · exact slice?_eq_some_iff.2 ⟨before, _, rfl, by rw [byteLength_text]⟩
    · rw [← byteLength_text, ← byteLength_append] at h
      exact ih _ h

end Lexeme

namespace Cutting

open Token (Placed bareName? placeholderBody?)

theorem nameLength?_eq (s : Text) :
    nameLength? s = some ((bareName? s).elim 0 fun (name, _) => byteLength name) := by
  have hname : slice? s ⟨0, byteLength (s.takeWhile isNamePart)⟩ =
      some (s.takeWhile isNamePart) := by
    have h := slice?_prefix (s.takeWhile isNamePart) (s.dropWhile isNamePart)
    rwa [List.takeWhile_append_dropWhile] at h
  simp only [nameLength?, hname, bareName?]
  by_cases hid : isIdentifier (s.takeWhile isNamePart) <;> simp [hid]

theorem byteLength_pos_of_isIdentifier {name : Text} (h : isIdentifier name) :
    0 < byteLength name := by
  apply byteLength_pos
  rintro rfl
  cases h

/-- The body of a placeholder is cut out as it is read. -/
theorem body?_eq (s : Text) :
    body? s = some ((placeholderBody? s).map fun (t, rest) =>
      (t, byteLength s - byteLength rest)) := by
  have hopen : '{'.utf8Size = 1 := rfl
  have hclose : '}'.utf8Size = 1 := rfl
  -- Both read a name first; behind an opening brace they ask for the closing one as well.
  by_cases hb : s.head? = some '{'
  · obtain ⟨s, rfl⟩ := List.head?_eq_some_iff.1 hb
    rw [Token.placeholderBody?_brace, body?, nameLength?_eq]
    cases hbare : bareName? s with
    | none => rfl
    | some step =>
      obtain ⟨name, rest⟩ := step
      obtain ⟨rfl, hid, -⟩ := Token.bareName?_eq_some_iff.1 hbare
      simp only [Option.elim_some, Option.bind_eq_bind, Option.bind_some,
        if_pos (byteLength_pos_of_isIdentifier hid), slice?_prefix, slice?_suffix]
      cases rest with
      | nil => rfl
      | cons c rest =>
        by_cases hc : c = '}'
        · subst hc
          simp [hopen, hclose]
          omega
        · simp [hc]
  · rw [Token.placeholderBody?_of_ne_brace hb, body?.eq_2, nameLength?_eq]
    · cases hbare : bareName? s with
      | none => rfl
      | some step =>
        obtain ⟨name, rest⟩ := step
        obtain ⟨rfl, hid, -⟩ := Token.bareName?_eq_some_iff.1 hbare
        simp only [Option.elim_some, Option.bind_eq_bind, Option.bind_some,
          if_pos (byteLength_pos_of_isIdentifier hid), slice?_prefix]
        simp
    · intro s' hs
      rw [hs] at hb
      exact hb rfl

theorem suffix_of_placeholderBody? {s rest : Text} {t : Token}
    (h : placeholderBody? s = some (t, rest)) : rest <:+ s := by
  rcases Token.placeholderBody?_eq_some_iff.1 h with ⟨name, -, -, rfl⟩ | ⟨name, -, -, rfl, -⟩
  · exact ⟨'{' :: name ++ ['}'], by simp⟩
  · exact List.suffix_append name rest

/-- The lexemes of a source are joined from their kinds and spans as from themselves. -/
theorem join?_eq {source : Text} {ls : List Lexeme.Placed}
    (h : ∀ l ∈ ls, slice? source l.span = some l.lexeme.text) :
    join? source (ls.map (·.outline)) = some (Token.fuse ls) := by
  fun_induction Token.fuse ls with
  | case1 => rfl
  | case2 text span ls ih =>
    obtain ⟨hcut, hls⟩ := List.forall_mem_cons.1 h
    rw [List.map_cons, Lexeme.outline_run, join?, hcut, ih hls]
    rfl
  | case3 span ls ih =>
    rw [List.map_cons, Lexeme.outline_atSign, join?, ih (List.forall_mem_cons.1 h).2]
    rfl
  | case4 span next ls ih =>
    have hls := (List.forall_mem_cons.1 (List.forall_mem_cons.1 h).2).2
    rw [List.map_cons, List.map_cons, Lexeme.outline_delimiter, Lexeme.outline_delimiter, join?,
      ih hls]
    rfl
  | case5 span text next ls token rest hbody stop ih =>
    obtain ⟨hcut, hls⟩ := List.forall_mem_cons.1 (List.forall_mem_cons.1 h).2
    -- The delimiter takes in the body, and what is left of the stretch is cut off behind it.
    have hrest : slice? source ⟨stop, next.stop⟩ = some rest :=
      slice?_of_suffix hcut (suffix_of_placeholderBody? hbody)
    have hread : body? text = some (some (token, byteLength text - byteLength rest)) := by
      rw [body?_eq, hbody]
      rfl
    rw [List.map_cons, List.map_cons, Lexeme.outline_delimiter, Lexeme.outline_run, join?, hcut]
    simp only [Lexeme.text, hread, ih hls, Option.bind_eq_bind, Option.bind_some]
    change (if stop < next.stop then _ else _) = _
    split
    · rw [hrest]
      rfl
    · rfl
  | case6 span text next ls hbody ih =>
    have hcut := (List.forall_mem_cons.1 (List.forall_mem_cons.1 h).2).1
    have hls := ih (List.forall_mem_cons.1 h).2
    have hread : body? text = some none := by
      rw [body?_eq, hbody]
      rfl
    rw [List.map_cons, Lexeme.outline_run] at hls
    rw [List.map_cons, List.map_cons, Lexeme.outline_delimiter, Lexeme.outline_run, join?, hcut]
    simp only [Lexeme.text, hread, hls, Option.bind_eq_bind, Option.bind_some]
    rfl
  | case7 span ls hdelimiter hrun ih =>
    have hls := ih (List.forall_mem_cons.1 h).2
    -- Behind the delimiter is nothing or an at sign, and `join?` takes these apart.
    have hjoin : join? source ((Lexeme.Kind.delimiter, span) :: ls.map (·.outline)) =
      (do return ⟨.dangling, span⟩ :: (← join? source (ls.map (·.outline)))) := by
      cases ls with
      | nil => rfl
      | cons l ls =>
        obtain ⟨lexeme, next⟩ := l
        cases lexeme with
        | delimiter => exact absurd rfl (hdelimiter next ls)
        | run text => exact absurd rfl (hrun text next ls)
        | atSign => rfl
    rw [List.map_cons, Lexeme.outline_delimiter, hjoin, hls]
    rfl

/-- Cutting comes to the same tokens as lexing. -/
theorem lex?_eq (source : Text) : lex? source = some (Token.lex source) := by
  have hplaced : ∀ l ∈ Lexeme.placeAll 0 (Lexeme.split source),
      slice? source l.span = some l.lexeme.text := by
    intro l hl
    have h := Lexeme.slice?_of_mem_placeAll [] hl
    rwa [List.nil_append, Lexeme.flatMap_text_split] at h
  rw [lex?, Lexeme.scan_eq, List.map_map]
  exact join?_eq hplaced

/-- A text ends in the line behind its last newline, or has one line only. -/
theorem lastNewline?_cases (s : Text) :
    (lastNewline? s = none ∧ lastLine s = s) ∨
      ∃ above, s = above ++ '\n' :: lastLine s ∧
        lastNewline? s = some (byteLength above) := by
  have hsplit := List.takeWhile_append_dropWhile (p := (· ≠ '\n')) (l := s.reverse)
  unfold lastNewline? lastLine
  cases hdrop : s.reverse.dropWhile (· ≠ '\n') with
  | nil =>
    rw [hdrop, List.append_nil] at hsplit
    exact Or.inl ⟨rfl, by rw [hsplit, List.reverse_reverse]⟩
  | cons c before =>
    have hc := List.head?_dropWhile_not (· ≠ '\n') s.reverse
    rw [hdrop] at hc hsplit
    have hc : c = '\n' := by simpa using hc
    have hs := List.reverse_eq_iff.1 hsplit.symm
    refine Or.inr ⟨before.reverse, hs.trans ?_, rfl⟩
    rw [List.reverse_append, List.reverse_cons, hc, List.append_assoc, List.singleton_append]

theorem slice?_lastLine (s : Text) :
    slice? s ⟨((lastNewline? s).map (· + 1)).getD 0, byteLength s⟩ = some (lastLine s) := by
  rcases lastNewline?_cases s with ⟨hnone, hline⟩ | ⟨above, hs, hsome⟩
  · have hwhole := slice?_suffix [] s
    rw [hnone, hline]
    exact hwhole
  · have hend := slice?_suffix (above ++ ['\n']) (lastLine s)
    rw [List.append_assoc, List.singleton_append, ← hs, byteLength_append] at hend
    rw [hsome]
    exact hend

/-- The position of an offset is found by cutting as by walking. -/
theorem position?_eq (source : Text) (offset : Nat) :
    position? source offset = Position.ofOffset? source offset := by
  have hcut : slice? source ⟨0, min offset (byteLength source)⟩ =
      (cutAt? source (min offset (byteLength source))).map Prod.fst := by
    cases source <;> rfl
  unfold position? Position.ofOffset?
  rw [hcut]
  cases cutAt? source (min offset (byteLength source)) with
  | none => rfl
  | some cut =>
    obtain ⟨before, after⟩ := cut
    simp only [Option.map_some, Option.bind_eq_bind, Option.bind_some, slice?_lastLine,
      Position.first_advance_eq]
    rfl

/-- There is no position inside a character. -/
example : position? ['é'] 1 = none := by decide

/-- A token contributes by its span alone what it does by its text and its position. -/
theorem contribution?_eq {source : Text} {t : Placed} {p : Position} (table : Table)
    (hspan : slice? source t.span = some t.token.spelling)
    (hp : Position.ofOffset? source t.span.start = some p) :
    contribution? source table t = some (t.fill table p) := by
  obtain ⟨token, span⟩ := t
  cases token with
  | run text =>
    rw [contribution?, hspan]
    rfl
  | atSign =>
    rw [contribution?, hspan]
    rfl
  | escaped => rfl
  | dangling =>
    rw [contribution?, position?_eq, hp]
    rfl
  | named name =>
    simp only [contribution?, Token.Placed.fill, Table.get?_toLookup, Table.suggestions_toLookup]
    cases table.get? name <;> rfl
  | braced name =>
    simp only [contribution?, Token.Placed.fill, Table.get?_toLookup, Table.suggestions_toLookup]
    cases table.get? name <;> rfl

theorem mapM_eq_some_of_forall₂ {α β : Type} {f : α → Option β} {l : List α} {bs : List β}
    (h : List.Forall₂ (fun a b => f a = some b) l bs) : l.mapM f = some bs := by
  induction h with
  | nil => rfl
  | cons hb _ ih =>
    rw [List.mapM_cons, hb, ih]
    rfl

/-- Cutting fills a template as it is filled. -/
theorem fill?_eq (source : Text) (table : Table) :
    fill? source table = some (Template.fill ⟨source⟩ table) := by
  have hparts : (Token.lex source).mapM (contribution? source table) =
      some (Template.parts ⟨source⟩ table) :=
    mapM_eq_some_of_forall₂ (Template.forall₂_parts fun _ _ => contribution?_eq table)
  rw [fill?, lex?_eq]
  simp only [Option.bind_eq_bind, Option.bind_some, hparts]
  rfl

theorem span_start_le_stop {source : Text} {table : Table} {e : TemplateError}
    (h : e ∈ Template.problems ⟨source⟩ table) : e.span.start ≤ e.span.stop := by
  obtain ⟨-, hlt, -⟩ := Template.isAccurate_of_mem_problems h
  exact hlt.le

/-- Every error that filling comes to has a report. -/
theorem reports?_eq (source : Text) (table : Table) (file : Text) (colour : Bool) :
    reports? source table file colour =
      some ((Template.fill ⟨source⟩ table).mapError (·.map (·.format source file colour))) := by
  rw [reports?, fill?_eq]
  cases hfill : Template.fill ⟨source⟩ table with
  | ok text => rfl
  | error errors =>
    obtain ⟨-, rfl⟩ := Template.fill_eq_error_iff.1 hfill
    have hreports : (Template.problems ⟨source⟩ table).mapM (·.format? source file colour) =
        some ((Template.problems ⟨source⟩ table).map (·.format source file colour)) := by
      apply mapM_eq_some_of_forall₂
      rw [List.forall₂_map_right_iff, List.forall₂_same]
      exact fun e he => if_pos (span_start_le_stop he)
    simp only [Option.bind_eq_bind, Option.bind_some, hreports]
    rfl

/-- No cut fails, for any source, table and file name: every character of the source belongs to a
lexeme of some kind, and cutting comes to the tokens, the names, the filled text and the errors of the
template, and to a report of each error, none of which has a span with crossed ends. -/
theorem cuts_never_fail (source : Text) (table : Table) (file : Text) (colour : Bool) :
    (∀ l ∈ Lexeme.scan 0 source, l.1 ≠ none) ∧
      lex? source = some (Token.lex source) ∧
      identifiers? source = some (Template.identifiers ⟨source⟩) ∧
      fill? source table = some (Template.fill ⟨source⟩ table) ∧
      (∀ e ∈ Template.problems ⟨source⟩ table, e.span.start ≤ e.span.stop) ∧
      reports? source table file colour =
        some ((Template.fill ⟨source⟩ table).mapError (·.map (·.format source file colour))) := by
  refine ⟨?_, lex?_eq source, ?_, fill?_eq source table, fun e => span_start_le_stop,
    reports?_eq source table file colour⟩
  · intro l hl
    rw [Lexeme.scan_eq] at hl
    obtain ⟨placed, -, rfl⟩ := List.mem_map.1 hl
    exact Option.some_ne_none _
  · rw [identifiers?, lex?_eq]
    rfl

end Cutting

end Stencil
