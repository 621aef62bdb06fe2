import Mathlib.Tactic.SplitIfs
import Stencil.Text

/-!
# The bytes of a text

Texts are compared by their characters. Sorting them by the bytes of their UTF-8 form comes to the same,
as the form of a greater character has the greater byte at the first place where two forms differ.
-/

namespace Stencil

/-- The UTF-8 form of a text. -/
def bytes (s : Text) : List UInt8 := s.flatMap String.utf8EncodeChar

@[simp] theorem bytes_nil : bytes [] = [] := rfl

@[simp] theorem bytes_cons (c : Char) (s : Text) :
    bytes (c :: s) = String.utf8EncodeChar c ++ bytes s := rfl

theorem ofNat_cons_lt_cons_iff {a b : Nat} (ha : a < 256) (hb : b < 256) (s t : List UInt8) :
    UInt8.ofNat a :: s < UInt8.ofNat b :: t ↔ a < b ∨ a = b ∧ s < t := by
  rw [List.cons_lt_cons_iff, UInt8.lt_iff_toNat_lt, ← UInt8.toNat_inj, UInt8.toNat_ofNat_of_lt' ha,
    UInt8.toNat_ofNat_of_lt' hb]

theorem utf8EncodeChar_append_lt {c d : Char} (h : c < d) (s t : List UInt8) :
    String.utf8EncodeChar c ++ s < String.utf8EncodeChar d ++ t := by
  have hcd : c.val.toNat < d.val.toNat := h
  have hd : d.val.toNat < 0x110000 := by
    rcases d.valid with hd | ⟨-, hd⟩ <;> simp at hd ⊢ <;> omega
  unfold String.utf8EncodeChar
  generalize c.val.toNat = n at hcd
  generalize d.val.toNat = m at hcd hd
  dsimp only
  -- The digits to the base of 64 decide, from the first one on.
  have hdigits : ∀ k : Nat, k / 4096 = k / 64 / 64 ∧ k / 262144 = k / 64 / 64 / 64 := by omega
  simp only [(hdigits _).1, (hdigits _).2]
  split_ifs <;>
    simp (disch := omega) only [List.cons_append, List.nil_append, ofNat_cons_lt_cons_iff] <;> omega

theorem compare_cons_cons (c d : Char) (s t : Text) :
    compare (c :: s) (d :: t) = (compare c d).then (compare s t) :=
  List.compareLex_cons_cons

/-- Texts are ordered as their bytes are. -/
theorem bytes_lt_of_compare {s t : Text} (h : compare s t = .lt) : bytes s < bytes t := by
  induction s generalizing t with
  | nil =>
    cases t with
    | nil => cases h
    | cons d t =>
      obtain ⟨b, bs, hb⟩ := List.exists_cons_of_ne_nil (String.utf8EncodeChar_ne_nil (c := d))
      rw [bytes_nil, bytes_cons, hb]
      exact List.nil_lt_cons b _
  | cons c s ih =>
    cases t with
    | nil => cases h
    | cons d t =>
      rw [compare_cons_cons, Ordering.then_eq_lt] at h
      rw [bytes_cons, bytes_cons]
      rcases h with hlt | ⟨heq, hrest⟩
      · exact utf8EncodeChar_append_lt (compareOfLessAndEq_eq_lt.1 hlt) _ _
      · rw [Std.LawfulEqCmp.eq_of_compare heq]
        exact List.append_left_lt (ih hrest)

end Stencil
