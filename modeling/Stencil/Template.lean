import Stencil.Position
import Stencil.Table
import Stencil.Token.Lexeme

/-!
# Filling templates

Filling a template puts the text of its table entry in the place of every placeholder. Replacement
texts are taken as they are and never read again for placeholders. A template is filled as a whole
or not at all: every placeholder without an entry and every dangling delimiter is reported, in the
order of the source. All that filling needs of a table is what it answers for a name.
-/

namespace Stencil

inductive TemplateError where
  | undefined (name : Text) (span : Span) (suggestions : List Text)
  | invalid (span : Span) (position : Position)
  deriving DecidableEq, Repr

namespace TemplateError

def span : TemplateError → Span
  | undefined _ span _ => span
  | invalid span _ => span

def message : TemplateError → Text
  | undefined name _ _ => "undefined placeholder '".toList ++ name ++ ['\'']
  | invalid _ position =>
    "invalid placeholder in template: line ".toList ++ decimal position.line ++
      ", column ".toList ++ decimal position.column

end TemplateError

namespace Token.Placed

/-- What a token at position `p` contributes to the filled text. -/
def fill (table : Lookup) (p : Position) (t : Placed) : Except TemplateError Text :=
  match t.token with
  | .escaped => .ok ['@', '@']
  | .atSign => .ok ['@']
  | .run text => .ok text
  | .named name | .braced name =>
    match table.get? name with
    | some value => .ok value
    | none => .error (.undefined name t.span (table.suggestions name))
  | .dangling => .error (.invalid t.span p)

/-- The contributions of a list of tokens of which the first stands at position `p`. -/
def fillAll (table : Lookup) (p : Position) : List Placed → List (Except TemplateError Text)
  | [] => []
  | t :: ts => t.fill table p :: fillAll table (p.advance t.token.spelling) ts

/-- The errors among contributions. -/
def errors (parts : List (Except TemplateError Text)) : List TemplateError :=
  parts.filterMap fun
    | .error e => some e
    | .ok _ => none

/-- The texts among contributions, one behind the other. -/
def texts (parts : List (Except TemplateError Text)) : Text :=
  parts.flatMap fun
    | .ok text => text
    | .error _ => []

/-- What contributions come to: their text, or their errors when there are any. -/
def assemble (parts : List (Except TemplateError Text)) : Except (List TemplateError) Text :=
  match errors parts with
  | [] => .ok (texts parts)
  | errors => .error errors

end Token.Placed

structure Template where
  source : Text
  deriving DecidableEq, Repr

namespace Template

def tokens (t : Template) : List Token.Placed := Token.lex t.source

/-- The placeholder names, each once, in the order of their first appearance. -/
def identifiers (t : Template) : List Text :=
  (t.tokens.filterMap (·.token.placeholder?)).eraseDups

/-- A template is well formed when no delimiter dangles. -/
def isWellFormed (t : Template) : Bool := t.tokens.all (·.token != .dangling)

def parts (t : Template) (table : Lookup) : List (Except TemplateError Text) :=
  Token.Placed.fillAll table .first t.tokens

/-- The problems that keep a template from being filled, in source order. -/
def problems (t : Template) (table : Lookup) : List TemplateError := Token.Placed.errors (t.parts table)

/-- The replacement texts and the literal text in between, problems left out. -/
def filling (t : Template) (table : Lookup) : Text := Token.Placed.texts (t.parts table)

def fill (t : Template) (table : Lookup) : Except (List TemplateError) Text :=
  Token.Placed.assemble (t.parts table)

theorem fill_eq (t : Template) (table : Lookup) :
    t.fill table =
      match t.problems table with
      | [] => .ok (t.filling table)
      | problems => .error problems := rfl

/-- The placeholder names of a template that can be filled. -/
def check (t : Template) (table : Lookup) : Except (List TemplateError) (List Text) :=
  match t.fill table with
  | .ok _ => .ok t.identifiers
  | .error problems => .error problems

end Template

end Stencil
