import Stencil.Template

/-!
# Filling by search

Filling can also be told without tokens: look for the first delimiter, copy the text before it, decide
by what follows the delimiter, and go on behind that.
-/

namespace Stencil.Template.Search

/-- The text before the first delimiter and the text behind it. -/
def splitDelimiter? : Text → Option (Text × Text)
  | '@' :: '@' :: s => some ([], s)
  | c :: s => (splitDelimiter? s).map fun (before, after) => (c :: before, after)
  | [] => none

/-- The longest name at the front of a text, and what follows it. -/
def leadingName? : Text → Option (Text × Text)
  | c :: s =>
    if isNameStart c then some (c :: s.takeWhile isNamePart, s.dropWhile isNamePart) else none
  | [] => none

/-- What a delimiter introduces, by the text behind it. -/
inductive Match where
  | escape (rest : Text)
  | placeholder (name written rest : Text)
  | nothing
  deriving DecidableEq, Repr

/-- The `written` form of a placeholder is what stands behind its delimiter, braces included. -/
def Match.of (s : Text) : Match :=
  match s with
  | '@' :: '@' :: rest => escape rest
  | '{' :: inner =>
    match leadingName? inner with
    | some (name, '}' :: rest) => placeholder name ('{' :: name ++ ['}']) rest
    | _ => nothing
  | _ =>
    match leadingName? s with
    | some (name, rest) => placeholder name name rest
    | none => nothing

theorem length_splitDelimiter? {s before after : Text}
    (h : splitDelimiter? s = some (before, after)) : after.length < s.length := by
  fun_induction splitDelimiter? s generalizing before with
  | case1 s => cases h; simp only [List.length_cons]; omega
  | case2 c s _ ih =>
    obtain ⟨⟨b, a⟩, hs, he⟩ := Option.map_eq_some_iff.1 h
    cases he
    exact Nat.lt_succ_of_lt (ih hs)
  | case3 => cases h

theorem length_leadingName? {s name rest : Text} (h : leadingName? s = some (name, rest)) :
    rest.length < s.length := by
  unfold leadingName? at h
  split at h
  · split at h
    · cases h; exact Nat.lt_succ_of_le (List.dropWhile_suffix _).length_le
    · cases h
  · cases h

theorem length_of_escape {s rest : Text} (h : Match.of s = .escape rest) :
    rest.length ≤ s.length := by
  unfold Match.of at h
  split at h
  · cases h; simp only [List.length_cons]; omega
  · split at h <;> cases h
  · split at h <;> cases h

theorem length_of_placeholder {s name written rest : Text}
    (h : Match.of s = .placeholder name written rest) : rest.length ≤ s.length := by
  unfold Match.of at h
  split at h
  · cases h
  · split at h
    · next heq =>
      cases h
      have := length_leadingName? heq
      simp only [List.length_cons] at this ⊢
      omega
    · cases h
  · split at h
    · next heq => cases h; exact Nat.le_of_lt (length_leadingName? heq)
    · cases h

/-- The filled text and the errors of a text that stands at byte `offset` and position `p`. -/
def fillFrom (table : Table) (offset : Nat) (p : Position) (s : Text) :
    Text × List TemplateError :=
  match _hs : splitDelimiter? s with
  | none => (s, [])
  | some (before, after) =>
    let start := offset + byteLength before
    let here := p.advance before
    let behind := here.advance ['@', '@']
    match _ha : Match.of after with
    | .escape rest =>
      let (text, errors) := fillFrom table (start + 4) (behind.advance ['@', '@']) rest
      (before ++ '@' :: '@' :: text, errors)
    | .placeholder name written rest =>
      let stop := start + 2 + byteLength written
      let (text, errors) := fillFrom table stop (behind.advance written) rest
      match table.get? name with
      | some value => (before ++ value ++ text, errors)
      | none =>
        (before ++ text, .undefined name ⟨start, stop⟩ (table.suggestions name) :: errors)
    | .nothing =>
      let (text, errors) := fillFrom table (start + 2) behind after
      (before ++ text, .invalid ⟨start, start + 2⟩ here :: errors)
termination_by s.length
decreasing_by
  · exact Nat.lt_of_le_of_lt (length_of_escape _ha) (length_splitDelimiter? _hs)
  · exact Nat.lt_of_le_of_lt (length_of_placeholder _ha) (length_splitDelimiter? _hs)
  · exact length_splitDelimiter? _hs

def fill (source : Text) (table : Table) : Except (List TemplateError) Text :=
  match fillFrom table 0 .first source with
  | (text, []) => .ok text
  | (_, errors) => .error errors

end Stencil.Template.Search
