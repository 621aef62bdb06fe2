import Stencil.Proofs.Lexing
import Stencil.Template.Search

/-!
# Filling by tokens and filling by search

A template is filled token by token; the search knows no tokens and only looks for the next delimiter.
Both come to the same result. The search is followed over the spelling of one token: it puts what the
token contributes in front of what it makes of the rest, with the rest at the offset and position
behind the token. From that the two agree on every text by induction over its tokens.
-/

namespace Stencil.Template.Search

open Token (bareName?)

/-- Puts one contribution in front of a filled text and its errors. -/
def put : Except TemplateError Text → Text × List TemplateError → Text × List TemplateError
  | .ok text, (filled, errors) => (text ++ filled, errors)
  | .error e, (filled, errors) => (filled, e :: errors)

theorem put_ok_append (s t : Text) (r : Text × List TemplateError) :
    put (.ok (s ++ t)) r = put (.ok s) (put (.ok t) r) := by
  simp [put]

/-- What a placeholder contributes that takes up the given bytes. -/
def contribution (table : Table) (name : Text) (span : Span) : Except TemplateError Text :=
  match table.get? name with
  | some value => .ok value
  | none => .error (.undefined name span (table.suggestions name))

/-- What the search makes of a delimiter at byte `start` and of the text behind it. -/
def fillDelimiter (table : Table) (start : Nat) (here : Position) (after : Text) :
    Text × List TemplateError :=
  let behind := here.advance ['@', '@']
  match Match.of after with
  | .escape rest =>
    put (.ok ['@', '@']) (fillFrom table (start + 4) (behind.advance ['@', '@']) rest)
  | .placeholder name written rest =>
    let stop := start + 2 + byteLength written
    put (contribution table name ⟨start, stop⟩) (fillFrom table stop (behind.advance written) rest)
  | .nothing =>
    put (.error (.invalid ⟨start, start + 2⟩ here)) (fillFrom table (start + 2) behind after)

theorem fillFrom_eq (table : Table) (offset : Nat) (p : Position) (s : Text) :
    fillFrom table offset p s =
      match splitDelimiter? s with
      | none => (s, [])
      | some (before, after) =>
        put (.ok before)
          (fillDelimiter table (offset + byteLength before) (p.advance before) after) := by
  rw [fillFrom]
  split
  · next hs => rw [hs]
  · next before after hs =>
    rw [hs]
    dsimp only [fillDelimiter]
    split
    · next ha => rw [ha]; rfl
    · next name written rest ha =>
      rw [ha]
      cases hget : table.get? name <;> simp [contribution, hget, put]
    · next ha => rw [ha]; rfl

/-- Text in which no delimiter begins is copied. -/
theorem fillFrom_append_of_split {table : Table} {offset : Nat} {p : Position} {s rest : Text}
    (h : splitDelimiter? (s ++ rest) =
      (splitDelimiter? rest).map fun (before, after) => (s ++ before, after)) :
    fillFrom table offset p (s ++ rest) =
      put (.ok s) (fillFrom table (offset + byteLength s) (p.advance s) rest) := by
  rw [fillFrom_eq, fillFrom_eq, h]
  cases splitDelimiter? rest with
  | none => rfl
  | some cut =>
    simp only [Option.map_some, put_ok_append, byteLength_append, Position.advance_append,
      Nat.add_assoc]

theorem splitDelimiter?_cons {c : Char} {s : Text} (h : c = '@' → s.head? ≠ some '@') :
    splitDelimiter? (c :: s) =
      (splitDelimiter? s).map fun (before, after) => (c :: before, after) := by
  rw [splitDelimiter?]
  rintro s' rfl rfl
  exact h rfl rfl

theorem splitDelimiter?_append_of_notMem {s : Text} (h : '@' ∉ s) (rest : Text) :
    splitDelimiter? (s ++ rest) =
      (splitDelimiter? rest).map fun (before, after) => (s ++ before, after) := by
  induction s with
  | nil => simp
  | cons c s ih =>
    have hc : c ≠ '@' := fun hc => h (hc ▸ List.mem_cons_self)
    have hs : '@' ∉ s := fun hs => h (List.mem_cons_of_mem c hs)
    rw [List.cons_append, splitDelimiter?_cons fun hat => absurd hat hc, ih hs, Option.map_map]
    rfl

theorem leadingName?_eq_bareName? (s : Text) : leadingName? s = bareName? s := by
  cases s with
  | nil => rfl
  | cons c s =>
    by_cases hc : isNameStart c
    · rw [leadingName?, if_pos hc, Token.bareName?_of_isNameStart hc]
    · rw [leadingName?, if_neg hc, Token.bareName?_of_not_isNameStart hc]

theorem match_of_escape (rest : Text) : Match.of ('@' :: '@' :: rest) = .escape rest := rfl

theorem match_of_brace (inner : Text) :
    Match.of ('{' :: inner) =
      match bareName? inner with
      | some (name, '}' :: rest) => .placeholder name ('{' :: name ++ ['}']) rest
      | _ => .nothing := by
  rw [← leadingName?_eq_bareName?]
  rfl

theorem match_of_bare {s : Text} (hesc : ¬ ['@', '@'] <+: s) (hbrace : s.head? ≠ some '{') :
    Match.of s =
      match bareName? s with
      | some (name, rest) => .placeholder name name rest
      | none => .nothing := by
  have hescape : ∀ rest, s = '@' :: '@' :: rest → False := by
    intro rest hs
    exact hesc ⟨rest, hs.symm⟩
  have hopen : ∀ inner, s = '{' :: inner → False := by
    intro inner hs
    rw [hs] at hbrace
    exact hbrace rfl
  rw [← leadingName?_eq_bareName?]
  exact Match.of.eq_3 s hescape hopen

theorem match_of_named {name rest : Text} (hname : (Token.named name).IsProper)
    (hrest : (Token.named name).Ends rest) :
    Match.of (name ++ rest) = .placeholder name name rest := by
  have hread : bareName? (name ++ rest) = some (name, rest) :=
    Token.bareName?_eq_some_iff.2 ⟨rfl, hname, hrest⟩
  have hesc := Token.not_delimiter_prefix_of_isIdentifier hname rest
  rw [match_of_bare hesc (Token.head?_ne_brace_of_isIdentifier hname rest), hread]

theorem match_of_braced {name : Text} (hname : (Token.braced name).IsProper) (rest : Text) :
    Match.of ('{' :: name ++ '}' :: rest) = .placeholder name ('{' :: name ++ ['}']) rest := by
  have hread : bareName? (name ++ '}' :: rest) = some (name, '}' :: rest) :=
    Token.bareName?_eq_some_iff.2 ⟨rfl, hname, by rintro c ⟨⟩; decide⟩
  rw [List.cons_append, match_of_brace, hread]
  rfl

/-- Where the lexer lets a delimiter dangle, the search sees nothing behind it. -/
theorem match_of_dangling {rest : Text} (hrest : Token.dangling.Ends rest) :
    Match.of rest = .nothing := by
  obtain ⟨hesc, hopen⟩ := hrest
  have hbody := Token.placeholderBody?_eq_none_iff.2 hopen
  by_cases hbrace : rest.head? = some '{'
  · obtain ⟨inner, rfl⟩ := List.head?_eq_some_iff.1 hbrace
    rw [Token.placeholderBody?_brace] at hbody
    rw [match_of_brace]
    split
    · next name tail hname =>
      rw [hname] at hbody
      cases hbody
    · rfl
  · rw [Token.placeholderBody?_of_ne_brace hbrace] at hbody
    rw [match_of_bare hesc hbrace]
    cases hname : bareName? rest with
    | none => rfl
    | some cut =>
      rw [hname] at hbody
      cases hbody

theorem fillFrom_delimiter (table : Table) (offset : Nat) (p : Position) (after : Text) :
    fillFrom table offset p ('@' :: '@' :: after) = fillDelimiter table offset p after := by
  rw [fillFrom_eq]
  rfl

/-- The search puts the contribution of a token in front of what it makes of the rest. -/
theorem fillFrom_spelling_append {t : Token} (ht : t.IsProper) {rest : Text} (hrest : t.Ends rest)
    (table : Table) (offset : Nat) (p : Position) :
    fillFrom table offset p (t.spelling ++ rest) =
      put (Token.Placed.fill table p ⟨t, offset, offset + t.width⟩)
        (fillFrom table (offset + t.width) (p.advance t.spelling) rest) := by
  cases t with
  | escaped =>
    change fillFrom table offset p ('@' :: '@' :: '@' :: '@' :: rest) = _
    rw [fillFrom_delimiter, fillDelimiter, match_of_escape]
    rfl
  | named name =>
    change fillFrom table offset p ('@' :: '@' :: (name ++ rest)) = _
    rw [fillFrom_delimiter, fillDelimiter, match_of_named ht hrest]
    have hstop : offset + 2 + byteLength name = offset + (Token.named name).width := by
      simp only [Token.width]
      omega
    simp only [hstop]
    rfl
  | braced name =>
    have hs : (Token.braced name).spelling ++ rest =
        '@' :: '@' :: ('{' :: name ++ '}' :: rest) := by
      simp [Token.spelling]
    have hstop : offset + 2 + byteLength ('{' :: name ++ ['}']) =
        offset + (Token.braced name).width := by
      have hopen : '{'.utf8Size = 1 := rfl
      have hclose : '}'.utf8Size = 1 := rfl
      simp only [Token.width, byteLength_append, byteLength_cons, byteLength_nil, hopen, hclose]
      omega
    rw [hs, fillFrom_delimiter, fillDelimiter, match_of_braced ht]
    simp only [hstop]
    rfl
  | dangling =>
    change fillFrom table offset p ('@' :: '@' :: rest) = _
    rw [fillFrom_delimiter, fillDelimiter, match_of_dangling hrest]
    rfl
  | atSign =>
    have hsplit := splitDelimiter?_cons (c := '@') fun _ => hrest
    exact fillFrom_append_of_split (s := ['@']) hsplit
  | run text => exact fillFrom_append_of_split (splitDelimiter?_append_of_notMem ht.2 rest)

/-- The contributions of tokens one after the other. -/
def putAll (parts : List (Except TemplateError Text)) : Text × List TemplateError :=
  parts.foldr put ([], [])

theorem fillFrom_eq_putAll (table : Table) (offset : Nat) (p : Position) (s : Text) :
    fillFrom table offset p s =
      putAll (Token.Placed.fillAll table p (Token.readFrom offset s)) := by
  induction s using Token.reading_induction generalizing offset p with
  | nil =>
    rw [fillFrom_eq, Token.readFrom_nil]
    rfl
  | token t rest ht hrest ih =>
    rw [fillFrom_spelling_append ht hrest, Token.readFrom_spelling_append ht hrest, ih]
    rfl

theorem putAll_eq (t : Template) (table : Table) :
    putAll (t.parts table) = (t.filling table, t.problems table) := by
  simp only [filling, problems]
  induction t.parts table with
  | nil => rfl
  | cons part parts ih =>
    change put part (putAll parts) = _
    rw [ih]
    cases part <;> rfl

theorem fillFrom_first (source : Text) (table : Table) :
    fillFrom table 0 .first source =
      (Template.filling ⟨source⟩ table, Template.problems ⟨source⟩ table) := by
  rw [fillFrom_eq_putAll, ← Token.lex_eq_readFrom]
  exact putAll_eq ⟨source⟩ table

theorem fillFrom_first_eq_iff {source text : Text} {table : Table} :
    fillFrom table 0 .first source = (text, []) ↔ Template.fill ⟨source⟩ table = .ok text := by
  rw [fillFrom_first, Prod.mk.injEq, fill_eq]
  cases Template.problems ⟨source⟩ table <;> simp

/-- Filling a template token by token and filling it by search come to the same result: the same text,
or the same errors in the same order, with the same spans, positions and suggestions. -/
theorem fill_eq_search (source : Text) (table : Table) :
    Template.fill ⟨source⟩ table = Search.fill source table := by
  rw [fill_eq, Search.fill, fillFrom_first]
  cases Template.problems ⟨source⟩ table <;> rfl

end Stencil.Template.Search
