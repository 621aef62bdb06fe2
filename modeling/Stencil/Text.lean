/-!
# Texts and byte offsets

A text is a list of characters. Places in a text are counted in bytes of its UTF-8 form, so that
they agree with what an editor or a file viewer shows; `byteLength` is the count, and an offset that
falls inside a character is not a place at all (`cutAt?` refuses it).
-/

namespace Stencil

abbrev Text := List Char

/-- Number of bytes of the UTF-8 form. -/
def byteLength : Text → Nat
  | [] => 0
  | c :: s => c.utf8Size + byteLength s

@[simp] theorem byteLength_nil : byteLength [] = 0 := rfl

@[simp] theorem byteLength_cons (c : Char) (s : Text) :
    byteLength (c :: s) = c.utf8Size + byteLength s := rfl

@[simp] theorem byteLength_append (s t : Text) :
    byteLength (s ++ t) = byteLength s + byteLength t := by
  induction s with
  | nil => simp
  | cons c s ih => simp only [List.cons_append, byteLength_cons, ih, Nat.add_assoc]

theorem byteLength_pos {s : Text} (hs : s ≠ []) : 0 < byteLength s := by
  cases s with
  | nil => exact absurd rfl hs
  | cons c s => exact Nat.add_pos_left c.utf8Size_pos _

/-- A stretch of a text, from byte `start` up to and without byte `stop`. -/
structure Span where
  start : Nat
  stop : Nat
  deriving DecidableEq, Repr

/-- The two parts of a text around a byte offset; none inside a character or past the end. -/
def cutAt? : Text → Nat → Option (Text × Text)
  | s, 0 => some ([], s)
  | [], _ + 1 => none
  | c :: s, n + 1 =>
    if c.utf8Size ≤ n + 1 then
      match cutAt? s (n + 1 - c.utf8Size) with
      | some (before, after) => some (c :: before, after)
      | none => none
    else none

theorem cutAt?_append (s t : Text) : cutAt? (s ++ t) (byteLength s) = some (s, t) := by
  induction s with
  | nil => cases t <;> rfl
  | cons c s ih =>
    have hc : 0 < c.utf8Size := c.utf8Size_pos
    obtain ⟨k, hk⟩ : ∃ k, c.utf8Size + byteLength s = k + 1 :=
      ⟨c.utf8Size + byteLength s - 1, by omega⟩
    simp only [List.cons_append, byteLength_cons, hk, cutAt?]
    have : k + 1 - c.utf8Size = byteLength s := by omega
    simp [this, ih, show c.utf8Size ≤ k + 1 by omega]

theorem eq_append_of_cutAt? {s before after : Text} {n : Nat}
    (h : cutAt? s n = some (before, after)) : s = before ++ after ∧ byteLength before = n := by
  fun_induction cutAt? s n generalizing before with
  | case1 s => simp_all
  | case2 n => simp at h
  | case3 c s n hc b a hrec ih =>
    simp only [Option.some.injEq, Prod.mk.injEq] at h
    obtain ⟨rfl, rfl⟩ := h
    obtain ⟨rfl, hb⟩ := ih hrec
    exact ⟨rfl, by simp only [byteLength_cons, hb]; omega⟩
  | case4 => simp at h
  | case5 => simp at h

/-- The characters of a span; none when an end is no place in the text or the ends are crossed. -/
def slice? (s : Text) (span : Span) : Option Text :=
  if span.start ≤ span.stop then
    match cutAt? s span.start with
    | some (_, rest) => (cutAt? rest (span.stop - span.start)).map Prod.fst
    | none => none
  else none

/-- Whether `pattern` stands somewhere in a text, as neighbouring characters. -/
def occursIn (pattern : Text) : Text → Bool
  | [] => pattern.isEmpty
  | c :: s => pattern.isPrefixOf (c :: s) || occursIn pattern s

/-- The texts one after the other, with `separator` between neighbours. -/
def joinWith (separator : Text) : List Text → Text
  | [] => []
  | [s] => s
  | s :: t :: rest => s ++ separator ++ joinWith separator (t :: rest)

/-- A number in decimal digits. -/
def decimal (n : Nat) : Text := Nat.toDigits 10 n

end Stencil
