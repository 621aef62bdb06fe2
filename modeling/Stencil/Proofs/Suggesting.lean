import Mathlib.Data.List.Forall2
import Stencil.Proofs.TableOrders

/-!
# Suggestions

A name is suggested for another one when it is a name of the table and, capitals or not, one of the two
stands within the other. Capitals are those of ASCII alone: `SameButCase` says it character by character,
and texts are the same up to case exactly when their capitals are. So case does not matter to what is
suggested, to look alike is symmetric, every name looks like itself, and the empty name stands within
every name.
-/

namespace Stencil

/-- A text occurs in another one when it stands there as a stretch of neighbours. -/
theorem occursIn_iff_isInfix {pattern s : Text} : occursIn pattern s = true ↔ pattern <:+: s := by
  induction s with
  | nil => rw [occursIn, List.isEmpty_iff, List.infix_nil]
  | cons c s ih =>
    rw [occursIn, Bool.or_eq_true, List.isPrefixOf_iff_prefix, ih, List.infix_cons_iff]

/-- Whether a character is a capital letter of ASCII, and another one the small form of it. -/
def IsCapitalOf (c d : Char) : Prop := c.isUpper ∧ d.toNat = c.toNat + 32

/-- Whether two texts agree character by character, capitals or not. -/
def SameButCase (s t : Text) : Prop :=
  List.Forall₂ (fun c d => c = d ∨ IsCapitalOf c d ∨ IsCapitalOf d c) s t

theorem toNat_toUpper (c : Char) :
    c.toUpper.toNat = if 97 ≤ c.toNat ∧ c.toNat ≤ 122 then c.toNat - 32 else c.toNat := by
  have hrange : ('a'.val ≤ c.val ∧ c.val ≤ 'z'.val) ↔ 97 ≤ c.toNat ∧ c.toNat ≤ 122 := Iff.rfl
  unfold Char.toUpper
  by_cases h : 97 ≤ c.toNat ∧ c.toNat ≤ 122
  · -- The capitals stand before the small letters, so the way to them is a sum that wraps around.
    have hsub : (c.val + ('A'.val - 'a'.val)).toNat = c.toNat - 32 := by
      have hval : c.val.toNat = c.toNat := rfl
      have hshift : ('A'.val - 'a'.val).toNat = 4294967264 := rfl
      rw [UInt32.toNat_add, hval, hshift]
      omega
    rw [dif_pos (hrange.2 h), if_pos h]
    exact hsub
  · rw [dif_neg (hrange.not.2 h), if_neg h]

/-- Characters have the same capital when they are equal or one is the capital of the other. -/
theorem toUpper_eq_toUpper_iff {c d : Char} :
    c.toUpper = d.toUpper ↔ c = d ∨ IsCapitalOf c d ∨ IsCapitalOf d c := by
  have hupper : ∀ e : Char, e.isUpper = true ↔ 65 ≤ e.toNat ∧ e.toNat ≤ 90 :=
    fun _ => decide_eq_true_iff
  unfold IsCapitalOf
  rw [← Char.toNat_inj, ← Char.toNat_inj, toNat_toUpper, toNat_toUpper, hupper, hupper]
  split <;> split <;> omega

theorem sameButCase_iff {s t : Text} :
    SameButCase s t ↔ s.map Char.toUpper = t.map Char.toUpper := by
  unfold SameButCase
  simp only [← toUpper_eq_toUpper_iff]
  rw [← List.forall₂_eq_eq_eq, List.forall₂_map_left_iff, List.forall₂_map_right_iff]

namespace Table

theorem lookAlike_iff {a b : Text} :
    lookAlike a b = true ↔
      a.map Char.toUpper <:+: b.map Char.toUpper ∨ b.map Char.toUpper <:+: a.map Char.toUpper := by
  rw [lookAlike, Bool.or_eq_true, occursIn_iff_isInfix, occursIn_iff_isInfix]

theorem lookAlike_comm (a b : Text) : lookAlike a b = lookAlike b a :=
  Bool.or_comm _ _

/-- Case does not matter to what a name looks like. -/
theorem lookAlike_eq_of_sameButCase {a b : Text} (h : SameButCase a b) :
    lookAlike a = lookAlike b := by
  funext k
  rw [lookAlike, lookAlike, sameButCase_iff.1 h]

theorem lookAlike_of_sameButCase {a b : Text} (h : SameButCase a b) : lookAlike a b = true := by
  have hupper := sameButCase_iff.1 h
  rw [lookAlike_iff, hupper]
  exact Or.inl (List.infix_refl _)

theorem lookAlike_self (a : Text) : lookAlike a a = true :=
  lookAlike_of_sameButCase (sameButCase_iff.2 rfl)

theorem lookAlike_nil (a : Text) : lookAlike [] a = true :=
  lookAlike_iff.2 (Or.inl (List.nil_infix))

variable {t : Table}

theorem mem_suggestions_iff {name k : Text} :
    k ∈ t.suggestions name ↔ k ∈ t.names ∧ lookAlike name k = true := List.mem_filter

/-- What is suggested for a name. It stands in increasing order of the bytes, and it is exactly those
names of the table that, all letters made capitals, stand within the name or have the name within them.
Names that are the same but for case are suggested the same, and a name of the table that is the same as
the given one but for case is suggested. A listing of the table suggests the same in whatever order it
goes over its entries. A name of the table is suggested for itself, two names of the table are suggested
for each other or neither for the other, and for the empty name all names are suggested. -/
theorem suggestions_are_alike (t : Table) :
    (∀ name : Text,
      (t.suggestions name).Pairwise (fun a b => bytes a < bytes b) ∧
      (∀ k, k ∈ t.suggestions name ↔ k ∈ t.names ∧
        (k.map Char.toUpper <:+: name.map Char.toUpper ∨
          name.map Char.toUpper <:+: k.map Char.toUpper)) ∧
      (∀ other, SameButCase name other → t.suggestions other = t.suggestions name) ∧
      (∀ k ∈ t.names, SameButCase k name → k ∈ t.suggestions name) ∧
      ∀ l : Listing, (∀ k, l.get? k = t.get? k) → l.suggestions name = t.suggestions name) ∧
    (∀ k ∈ t.names, k ∈ t.suggestions k) ∧
    (∀ k ∈ t.names, ∀ k' ∈ t.names, k ∈ t.suggestions k' ↔ k' ∈ t.suggestions k) ∧
    t.suggestions [] = t.names := by
  refine ⟨fun name => ⟨t.pairwise_suggestions name, ?exact, ?caseless, ?variants, ?listings⟩,
    ?itself, ?symmetric, ?empty⟩
  case exact =>
    intro k
    rw [mem_suggestions_iff, lookAlike_comm, lookAlike_iff]
  case caseless =>
    intro other h
    rw [suggestions, suggestions, lookAlike_eq_of_sameButCase h]
  case variants =>
    intro k hk h
    have halike := lookAlike_of_sameButCase h
    rw [lookAlike_comm] at halike
    exact mem_suggestions_iff.2 ⟨hk, halike⟩
  case listings =>
    intro l h
    exact (Listing.agrees_of_get?_eq h).suggestions_eq name
  case itself =>
    intro k hk
    exact mem_suggestions_iff.2 ⟨hk, lookAlike_self k⟩
  case symmetric =>
    intro k hk k' hk'
    rw [mem_suggestions_iff, mem_suggestions_iff, lookAlike_comm]
    exact and_congr_left fun _ => iff_of_true hk hk'
  case empty =>
    exact List.filter_eq_self.2 fun k _ => lookAlike_nil k

/-- Names in small letters and in capitals, one within the other, and a listing in the other order. -/
theorem suggestions_are_alike_of_user :
    let user : Text := "user".toList
    let creation : Text := "USER_CREATION".toList
    let pairs : List (Text × Text) := [(user, ['1']), (creation, ['2'])]
    ∃ t, ofEntries pairs = .ok t ∧ user ∈ t.names ∧ creation ∈ t.names ∧
      SameButCase user "User".toList ∧ t.suggestions "User".toList = t.suggestions user ∧
      user ∈ t.suggestions "User".toList ∧ user ∈ t.suggestions user ∧
      creation ∈ t.suggestions user ∧ user ∈ t.suggestions creation ∧
      ∃ l : Listing, l.entries = pairs.reverse ∧ (∀ k, l.get? k = t.get? k) ∧
        l.suggestions "sER".toList = [creation, user] := by
  intro user creation pairs
  obtain ⟨t, ht⟩ : ∃ t, ofEntries pairs = .ok t := ⟨_, rfl⟩
  have hnames : ∀ k, k ∈ t.names ↔ k ∈ pairs.map Prod.fst := fun k => mem_names_of_ofEntries ht
  have huser : user ∈ t.names := (hnames user).2 (by decide)
  have hcreation : creation ∈ t.names := (hnames creation).2 (by decide)
  have hcase : SameButCase user "User".toList := sameButCase_iff.2 (by decide)
  let l : Listing := ⟨pairs.reverse, by decide⟩
  have hget : ∀ k, l.get? k = t.get? k := fun k => (get?_of_ofEntries ht k).symm
  obtain ⟨hname, hself, hsymmetric, -⟩ := suggestions_are_alike t
  obtain ⟨-, -, hcaseless, -, -⟩ := hname user
  obtain ⟨-, -, -, hvariants, -⟩ := hname "User".toList
  obtain ⟨-, hexact, -, -, -⟩ := hname creation
  obtain ⟨-, -, -, -, hlistings⟩ := hname "sER".toList
  have hwithin : user ∈ t.suggestions creation :=
    (hexact user).2 ⟨huser, Or.inl (occursIn_iff_isInfix.1 (by decide))⟩
  have hser : t.suggestions "sER".toList = [creation, user] := by
    cases ht
    decide +kernel
  exact ⟨t, ht, huser, hcreation, hcase, hcaseless _ hcase, hvariants user huser hcase,
    hself user huser, (hsymmetric user huser creation hcreation).1 hwithin, hwithin, l, rfl, hget,
    (hlistings l hget).trans hser⟩

end Table

end Stencil
