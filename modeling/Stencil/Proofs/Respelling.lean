import Stencil.Proofs.ErrorLists
import Stencil.Proofs.SearchFilling

/-!
# Respelling placeholders

A placeholder may be written with braces or without, and a template may change from one to the other
wherever the braces do not keep a name apart from the text behind it. The lexer reads the other spelling
at the same place of the token list and nothing else changes: names, validity and filled text are the
same, and so are the errors but for the places where they stand.
-/

namespace Stencil

namespace Token

/-- The same tokens with some placeholders in the other spelling. The braces stay where letters, digits
or underscores stand right behind them. -/
inductive Respelled : List Token → List Token → Prop
  | nil : Respelled [] []
  | keep {t : Token} {ts us : List Token} (rest : Respelled ts us) : Respelled (t :: ts) (t :: us)
  | brace {name : Text} {ts us : List Token} (rest : Respelled ts us) :
      Respelled (named name :: ts) (braced name :: us)
  | bare {name : Text} {ts us : List Token}
      (apart : ∀ text, ts.head? = some (run text) → ∀ c ∈ text.head?, ¬ isNamePart c)
      (rest : Respelled ts us) : Respelled (braced name :: ts) (named name :: us)

variable {ts us : List Token}

/-- A respelled list begins with the same token, or with a placeholder where one was before. -/
theorem Respelled.head?_cases (h : Respelled ts us) :
    us.head? = ts.head? ∨ ∃ name, (ts.head? = some (named name) ∧ us.head? = some (braced name)) ∨
      ts.head? = some (braced name) ∧ us.head? = some (named name) := by
  cases h with
  | nil => exact Or.inl rfl
  | keep => exact Or.inl rfl
  | @brace name => exact Or.inr ⟨name, Or.inl ⟨rfl, rfl⟩⟩
  | @bare name => exact Or.inr ⟨name, Or.inr ⟨rfl, rfl⟩⟩

/-- What may follow a token does not depend on the spelling of a placeholder. -/
theorem mayFollow_braced_iff (t : Token) (name : Text) :
    MayFollow t (braced name) ↔ MayFollow t (named name) := by
  cases t <;> simp [MayFollow]

theorem mayFollow_named_of_apart {name : Text} {t : Token}
    (h : ∀ text, t = run text → ∀ c ∈ text.head?, ¬ isNamePart c) : MayFollow (named name) t := by
  cases t with
  | run text => exact h text rfl
  | _ => trivial

/-- What may stand before a list may stand before it respelled. -/
theorem Respelled.mayFollow (h : Respelled ts us) {t : Token}
    (hfollow : ∀ u ∈ ts.head?, MayFollow t u) : ∀ u ∈ us.head?, MayFollow t u := by
  intro u hu
  rcases h.head?_cases with heq | ⟨name, ⟨hts, hus⟩ | ⟨hts, hus⟩⟩
  · exact hfollow u (heq ▸ hu)
  · obtain rfl : braced name = u := Option.some.inj (hus.symm.trans hu)
    exact (mayFollow_braced_iff t name).2 (hfollow _ hts)
  · obtain rfl : named name = u := Option.some.inj (hus.symm.trans hu)
    exact (mayFollow_braced_iff t name).1 (hfollow _ hts)

/-- Respelled tokens are read back from their spelling if the tokens before were. -/
theorem Respelled.wellFormed (h : Respelled ts us) (hwell : WellFormed ts) : WellFormed us := by
  induction h with
  | nil => exact hwell
  | keep rest ih =>
    obtain ⟨hproper, hfollow, htail⟩ := wellFormed_cons_iff_mayFollow.1 hwell
    exact wellFormed_cons_iff_mayFollow.2 ⟨hproper, rest.mayFollow hfollow, ih htail⟩
  | @brace name _ us rest ih =>
    obtain ⟨hproper, -, htail⟩ := wellFormed_cons_iff_mayFollow.1 hwell
    have hfollow : ∀ u ∈ us.head?, MayFollow (braced name) u := by
      intro u _
      cases u <;> trivial
    exact wellFormed_cons_iff_mayFollow.2 ⟨hproper, hfollow, ih htail⟩
  | @bare name ts us apart rest ih =>
    obtain ⟨hproper, -, htail⟩ := wellFormed_cons_iff_mayFollow.1 hwell
    have hfollow : ∀ t ∈ ts.head?, MayFollow (named name) t := by
      intro t ht
      refine mayFollow_named_of_apart fun text htext => ?_
      exact apart text (htext ▸ ht)
    exact wellFormed_cons_iff_mayFollow.2 ⟨hproper, rest.mayFollow hfollow, ih htail⟩

theorem Respelled.filterMap_placeholder? (h : Respelled ts us) :
    us.filterMap (·.placeholder?) = ts.filterMap (·.placeholder?) := by
  induction h with
  | nil => rfl
  | keep _ ih => rw [List.filterMap_cons, List.filterMap_cons, ih]
  | brace _ ih => exact congrArg (_ :: ·) ih
  | bare _ _ ih => exact congrArg (_ :: ·) ih

theorem Respelled.all_ne_dangling (h : Respelled ts us) :
    us.all (· != .dangling) = ts.all (· != .dangling) := by
  induction h with
  | nil => rfl
  | keep _ ih => rw [List.all_cons, List.all_cons, ih]
  | brace _ ih => exact ih
  | bare _ _ ih => exact ih

end Token

namespace TemplateError

/-- The same error at a place that may be another one. -/
inductive Alike : TemplateError → TemplateError → Prop
  | undefined {name : Text} {span span' : Span} {suggestions : List Text} :
      Alike (.undefined name span suggestions) (.undefined name span' suggestions)
  | invalid {span span' : Span} {p p' : Position} : Alike (.invalid span p) (.invalid span' p')

end TemplateError

namespace Token.Placed

open TemplateError (Alike)
open Template.Search (contribution)

/-- Two contributions that are the same text, or the same error at two places. -/
inductive Agree : Except TemplateError Text → Except TemplateError Text → Prop
  | ok {text : Text} : Agree (.ok text) (.ok text)
  | error {e e' : TemplateError} (alike : e.Alike e') : Agree (.error e) (.error e')

variable {table : Table}

theorem agree_contribution (name : Text) (span span' : Span) :
    Agree (contribution table name span) (contribution table name span') := by
  unfold contribution
  cases table.get? name with
  | none => exact .error .undefined
  | some value => exact .ok

theorem agree_fill (t : Token) (p p' : Position) (span span' : Span) :
    Agree (fill table p ⟨t, span⟩) (fill table p' ⟨t, span'⟩) := by
  cases t with
  | named name => exact agree_contribution name span span'
  | braced name => exact agree_contribution name span span'
  | dangling => exact .error .invalid
  | _ => exact .ok

/-- Respelled tokens contribute what the tokens before contributed, wherever they stand. -/
theorem forall₂_agree {ts us : List Token} (h : Respelled ts us) (start start' : Nat)
    (p p' : Position) :
    List.Forall₂ Agree (fillAll table p (placeAll start ts))
      (fillAll table p' (placeAll start' us)) := by
  induction h generalizing start start' p p' with
  | nil => exact .nil
  | @keep t _ _ _ ih => exact .cons (agree_fill t p p' _ _) (ih _ _ _ _)
  | @brace name _ _ _ ih => exact .cons (agree_contribution name _ _) (ih _ _ _ _)
  | @bare name _ _ _ _ ih => exact .cons (agree_contribution name _ _) (ih _ _ _ _)

theorem forall₂_alike_of_agree {parts parts' : List (Except TemplateError Text)}
    (h : List.Forall₂ Agree parts parts') : List.Forall₂ Alike (errors parts) (errors parts') := by
  induction h with
  | nil => exact .nil
  | cons hhead _ ih =>
    cases hhead with
    | ok => exact ih
    | error alike => exact .cons alike ih

end Token.Placed

namespace Template

open TemplateError (Alike)
open Token.Placed (Agree)

theorem identifiers_eq_filterMap (source : Text) :
    identifiers ⟨source⟩ =
      (((Token.lex source).map (·.token)).filterMap (·.placeholder?)).eraseDups := by
  rw [List.filterMap_map]
  rfl

theorem isWellFormed_eq_all (source : Text) :
    isWellFormed ⟨source⟩ = ((Token.lex source).map (·.token)).all (· != .dangling) := by
  rw [List.all_map]
  rfl

theorem filling_eq_of_agree {t u : Template} {table : Table}
    (h : List.Forall₂ Agree (t.parts table) (u.parts table)) :
    u.filling table = t.filling table := by
  unfold filling Token.Placed.texts
  generalize t.parts table = parts, u.parts table = parts' at h ⊢
  induction h with
  | nil => rfl
  | cons hhead _ ih =>
    rw [List.flatMap_cons, List.flatMap_cons, ih]
    cases hhead <;> rfl

/-- Two templates whose contributions agree are filled to the same text, or have alike errors. -/
theorem fill_of_agree {t u : Template} {table : Table}
    (h : List.Forall₂ Agree (t.parts table) (u.parts table)) :
    (∀ text, u.fill table = .ok text ↔ t.fill table = .ok text) ∧
      ∀ errors, t.fill table = .error errors →
        ∃ errors', u.fill table = .error errors' ∧ List.Forall₂ Alike errors errors' := by
  have hproblems : List.Forall₂ Alike (t.problems table) (u.problems table) :=
    Token.Placed.forall₂_alike_of_agree h
  rw [fill_eq, fill_eq, filling_eq_of_agree h]
  generalize t.problems table = errors, u.problems table = errors' at hproblems ⊢
  cases hproblems with
  | nil => simp
  | @cons e e' errors errors' hhead htail =>
    refine ⟨by simp, fun reported hreported => ?_⟩
    obtain rfl : e :: errors = reported := Except.error.inj hreported
    exact ⟨e' :: errors', rfl, .cons hhead htail⟩

/-- Placeholders may change between their two spellings. A source is the spelling of its tokens; when
some of its bare placeholders are given braces, and some of its braces are left out that keep no name
apart from text behind it, then the lexer reads the new text as the new tokens. The names and the
validity stay, the same text is filled in or none, and the errors are alike one by one: of the same
kind, with the same name and the same suggestions. -/
theorem fill_of_respelled {source : Text} {us : List Token}
    (h : Token.Respelled ((Token.lex source).map (·.token)) us) :
    Token.spellAll ((Token.lex source).map (·.token)) = source ∧
    Token.lex (Token.spellAll us) = Token.placeAll 0 us ∧
    identifiers ⟨Token.spellAll us⟩ = identifiers ⟨source⟩ ∧
    isWellFormed ⟨Token.spellAll us⟩ = isWellFormed ⟨source⟩ ∧
    ∀ table : Table,
      (∀ text, fill ⟨Token.spellAll us⟩ table = .ok text ↔ fill ⟨source⟩ table = .ok text) ∧
      ∀ errors, fill ⟨source⟩ table = .error errors →
        ∃ errors', fill ⟨Token.spellAll us⟩ table = .error errors' ∧
          List.Forall₂ Alike errors errors' := by
  have hlex : Token.lex (Token.spellAll us) = Token.placeAll 0 us :=
    Token.lex_spellAll (h.wellFormed (Token.wellFormed_lex source))
  have htokens : (Token.lex (Token.spellAll us)).map (·.token) = us := by
    rw [hlex]
    exact Token.map_token_placeAll 0 us
  refine ⟨Token.spellAll_lex source, hlex, ?_, ?_, fun table => fill_of_agree ?_⟩
  · rw [identifiers_eq_filterMap, identifiers_eq_filterMap, htokens, h.filterMap_placeholder?]
  · rw [isWellFormed_eq_all, isWellFormed_eq_all, htokens, h.all_ne_dangling]
  · rw [parts, parts, tokens, tokens, hlex, Token.lex_eq_placeAll source]
    exact Token.Placed.forall₂_agree h 0 0 .first .first

/-- Behind an escape, and before an `@`, placeholders change to either spelling. -/
theorem fill_of_respelled_between_ats :
    let source := "@@@@@@A@@\x7bB\x7d@x".toList
    let us : List Token := [.escaped, .braced ['A'], .named ['B'], .atSign, .run ['x']]
    Token.Respelled ((Token.lex source).map (·.token)) us ∧
      Token.spellAll us = "@@@@@@\x7bA\x7d@@B@x".toList ∧
      Token.lex (Token.spellAll us) = Token.placeAll 0 us ∧
      fill ⟨source⟩ Table.empty = .error [.undefined ['A'] ⟨4, 7⟩ [], .undefined ['B'] ⟨7, 12⟩ []] ∧
      ∃ errors, fill ⟨Token.spellAll us⟩ Table.empty = .error errors ∧
        List.Forall₂ Alike [.undefined ['A'] ⟨4, 7⟩ [], .undefined ['B'] ⟨7, 12⟩ []] errors := by
  intro source us
  have htokens : (Token.lex source).map (·.token) =
      [.escaped, .named ['A'], .braced ['B'], .atSign, .run ['x']] := by decide +kernel
  have hrespelled : Token.Respelled ((Token.lex source).map (·.token)) us := by
    rw [htokens]
    refine .keep (.brace (.bare ?_ (.keep (.keep .nil))))
    intro text htext
    cases htext
  have hfill : fill ⟨source⟩ Table.empty =
      .error [.undefined ['A'] ⟨4, 7⟩ [], .undefined ['B'] ⟨7, 12⟩ []] := by decide +kernel
  obtain ⟨-, hlex, -, -, hfills⟩ := fill_of_respelled hrespelled
  exact ⟨hrespelled, by decide, hlex, hfill, (hfills .empty).2 _ hfill⟩

end Template

end Stencil
