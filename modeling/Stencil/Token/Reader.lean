import Stencil.Token

/-!
# Reading tokens one at a time

The tokens of a text can also be read in one go, each from the front of what is left: the longest form
that fits there is the token, and reading goes on behind it.
-/

namespace Stencil.Token

/-- The first token of a text and what is left after it. -/
def next? : Text → Option (Token × Text)
  | [] => none
  | '@' :: '@' :: '@' :: '@' :: s => some (escaped, s)
  | '@' :: '@' :: s =>
    match placeholderBody? s with
    | some (token, rest) => some (token, rest)
    | none => some (dangling, s)
  | '@' :: s => some (atSign, s)
  | c :: s => some (run ((c :: s).takeWhile (· != '@')), (c :: s).dropWhile (· != '@'))

theorem length_bareName? {s name rest : Text} (h : bareName? s = some (name, rest)) :
    rest.length ≤ s.length := by
  simp only [bareName?] at h
  split at h
  · cases h; exact (List.dropWhile_suffix _).length_le
  · cases h

theorem length_placeholderBody? {s rest : Text} {t : Token}
    (h : placeholderBody? s = some (t, rest)) : rest.length ≤ s.length := by
  unfold placeholderBody? at h
  split at h
  · split at h
    · next heq =>
      cases h
      have := length_bareName? heq
      simp only [List.length_cons] at this ⊢
      omega
    · cases h
  · split at h
    · next heq => cases h; exact length_bareName? heq
    · cases h

theorem length_next? {s rest : Text} {t : Token} (h : next? s = some (t, rest)) :
    rest.length < s.length := by
  unfold next? at h
  split at h
  · cases h
  · cases h; simp only [List.length_cons]; omega
  · split at h
    · next heq =>
      cases h
      have := length_placeholderBody? heq
      simp only [List.length_cons]; omega
    · cases h; simp only [List.length_cons]; omega
  · cases h; simp only [List.length_cons]; omega
  · next c s _ _ hc =>
    cases h
    have : (c :: s).dropWhile (· != '@') = s.dropWhile (· != '@') := by
      simp [show c ≠ '@' from hc]
    rw [this]
    exact Nat.lt_succ_of_le (List.dropWhile_suffix _).length_le

/-- The tokens of a text that begins at byte `start`. -/
def readFrom (start : Nat) (s : Text) : List Placed :=
  match _h : next? s with
  | none => []
  | some (token, rest) =>
    ⟨token, start, start + token.width⟩ :: readFrom (start + token.width) rest
termination_by s.length
decreasing_by exact length_next? _h

end Stencil.Token
