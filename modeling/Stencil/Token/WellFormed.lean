import Mathlib.Data.List.Chain
import Stencil.Token.Lexeme
import Stencil.Token.Reader

/-!
# Token lists that spell what they say

Not every list of tokens is what the lexer reads from its spelling: tokens may run together, as a name
and letters right behind it do. `WellFormed` says when they do not, by looking at single tokens and at
neighbours only. `placeAll` gives such a list the spans that the lexer finds.
-/

namespace Stencil.Token

/-- Whether a token is fit to stand in a template. -/
def IsProper : Token → Prop
  | named name | braced name => isIdentifier name
  | run text => text ≠ [] ∧ '@' ∉ text
  | escaped | dangling | atSign => True

/-- Whether a delimiter before a text would make a placeholder. -/
def OpensPlaceholder (s : Text) : Prop :=
  (∃ c rest, s = c :: rest ∧ isNameStart c) ∨
    ∃ name rest, isIdentifier name ∧ s = '{' :: name ++ '}' :: rest

/-- Whether the second token may stand right behind the first one. -/
def MayFollow : Token → Token → Prop
  | run _, run _ => False
  | named _, run s => ∀ c ∈ s.head?, ¬ isNamePart c
  | atSign, t => ∃ s, t = run s
  | dangling, atSign => True
  | dangling, run s => ¬ OpensPlaceholder s
  | dangling, _ => False
  | _, _ => True

def WellFormed (ts : List Token) : Prop := (∀ t ∈ ts, t.IsProper) ∧ ts.IsChain MayFollow

/-- The tokens one after the other from byte `start` on. -/
def placeAll (start : Nat) : List Token → List Placed
  | [] => []
  | t :: ts => ⟨t, start, start + t.width⟩ :: placeAll (start + t.width) ts

@[simp] theorem placeAll_nil (start : Nat) : placeAll start [] = [] := rfl

@[simp] theorem placeAll_cons (start : Nat) (t : Token) (ts : List Token) :
    placeAll start (t :: ts) = ⟨t, start, start + t.width⟩ :: placeAll (start + t.width) ts := rfl

theorem map_token_placeAll (start : Nat) (ts : List Token) :
    (placeAll start ts).map (·.token) = ts := by
  induction ts generalizing start with
  | nil => rfl
  | cons t ts ih => simp [ih]

/-- The spans that reading finds are those of its tokens in a row. -/
theorem readFrom_eq_placeAll (start : Nat) (s : Text) :
    readFrom start s = placeAll start ((readFrom start s).map (·.token)) := by
  fun_induction readFrom start s with
  | case1 => rfl
  | case2 start s token rest h ih => rw [List.map_cons, placeAll_cons, ← ih]

end Stencil.Token
