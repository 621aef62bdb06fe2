import Stencil.Text

/-!
# Placeholder names

A placeholder name is a letter or an underscore followed by letters, digits and underscores, all of
them ASCII.
-/

namespace Stencil

def isNameStart (c : Char) : Bool := c.isAlpha || c == '_'

def isNamePart (c : Char) : Bool := c.isAlphanum || c == '_'

def isIdentifier : Text → Bool
  | [] => false
  | c :: s => isNameStart c && s.all isNamePart

@[simp] theorem isIdentifier_nil : isIdentifier [] = false := rfl

@[simp] theorem isIdentifier_cons (c : Char) (s : Text) :
    isIdentifier (c :: s) = (isNameStart c && s.all isNamePart) := rfl

theorem isNamePart_of_isNameStart {c : Char} (h : isNameStart c) : isNamePart c := by
  simp only [isNameStart, isNamePart, Char.isAlphanum, Bool.or_eq_true] at h ⊢
  rcases h with h | h <;> simp [h]

end Stencil
