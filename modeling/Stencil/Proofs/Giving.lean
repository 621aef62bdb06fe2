import Stencil.Proofs.Taking

/-!
# What parsers give

Whatever a parser may have taken, what it gives can be known to have a property. `Gives` says so, and
each combinator hands the property on, so that it is known of all documents that are read, whoever wrote
them.
-/

namespace Stencil.Toml.Parser

variable {α β : Type} {p : Parser α} {P : α → Prop} {Q : β → Prop}

/-- All that the parser gives has property `P`. -/
def Gives (p : Parser α) (P : α → Prop) : Prop := ∀ ⦃c a c'⦄, p c = .ok (a, c') → P a

theorem gives_any (p : Parser α) : Gives p fun _ => True := fun _ _ _ _ => trivial

theorem gives_pure {a : α} (ha : P a) : Gives (pure a) P := by
  intro c b c' h
  cases h
  exact ha

theorem gives_fail : Gives (fail : Parser α) P := by
  intro c a c' h
  cases h

theorem gives_refuse {fault : Fault} : Gives (refuse fault : Parser α) P := by
  intro c a c' h
  cases h

theorem Gives.bind {q : α → Parser β} (hp : Gives p P) (hq : ∀ a, P a → Gives (q a) Q) :
    Gives (p >>= q) Q := by
  intro c b c' h
  rw [bind_apply] at h
  split at h
  · next a c₁ ha => exact hq a (hp ha) h
  · cases h

/-- What is given last decides, where nothing is known of what comes before. -/
theorem Gives.after {q : α → Parser β} (hq : ∀ a, Gives (q a) Q) : Gives (p >>= q) Q :=
  (gives_any p).bind fun a _ => hq a

theorem Gives.mapFailure (h : Gives p P) (f : Failure → Failure) : Gives (p.mapFailure f) P := by
  intro c a c' heq
  unfold Parser.mapFailure at heq
  split at heq
  · next r hr =>
    cases heq
    exact h hr
  · cases heq

theorem Gives.commit (h : Gives p P) : Gives (commit p) P := h.mapFailure _

theorem Gives.inside (h : Gives p P) (k : Construct) : Gives (inside k p) P := h.mapFailure _

theorem Gives.expecting (h : Gives p P) (ws : List Expectation) : Gives (expecting ws p) P :=
  h.mapFailure _

theorem Gives.checked (h : Gives p P) {check : α → Except Fault β}
    (hcheck : ∀ a b, P a → check a = .ok b → Q b) : Gives (checked p check) Q := by
  intro c b c' heq
  unfold Parser.checked checkedWith at heq
  split at heq
  · cases heq
  · next a c₁ ha =>
    dsimp only at heq
    cases hb : check a with
    | error fault =>
      rw [hb] at heq
      cases heq
    | ok b' =>
      rw [hb] at heq
      cases heq
      exact hcheck a b (h ha) hb

theorem Gives.either {q : Parser α} (hp : Gives p P) (hq : Gives q P) : Gives (either p q) P := by
  intro c a c' heq
  unfold Parser.either at heq
  split at heq
  · next r hr =>
    cases heq
    exact hp hr
  · split at heq
    · cases heq
    · exact hq heq

theorem Gives.optional (h : Gives p P) : Gives (optional p) fun o => ∀ a ∈ o, P a := by
  intro c o c' heq
  unfold Parser.optional at heq
  split at heq
  · next a c₁ ha =>
    cases heq
    intro b hb
    cases hb
    exact h ha
  · split at heq
    · cases heq
    · cases heq
      intro b hb
      cases hb

theorem Gives.upTo (h : Gives p P) (n : Nat) : Gives (upTo n p) fun l => ∀ a ∈ l, P a := by
  induction n with
  | zero => exact gives_pure (by simp)
  | succ n ih =>
    refine h.optional.bind ?_
    intro o ho
    cases o with
    | none => exact gives_pure (by simp)
    | some a =>
      refine ih.bind ?_
      intro l hl
      exact gives_pure (List.forall_mem_cons.2 ⟨ho a rfl, hl⟩)

theorem Gives.many (h : Gives p P) : Gives (many p) fun l => ∀ a ∈ l, P a :=
  fun c _ _ heq => h.upTo c.rest.length heq

theorem Gives.separated1 (h : Gives p P) (separator : Parser Unit) :
    Gives (separated1 separator p) fun l => ∀ a ∈ l, P a := by
  refine h.bind ?_
  intro a ha
  refine (Gives.many (Gives.after fun _ => h)).bind ?_
  intro l hl
  exact gives_pure (List.forall_mem_cons.2 ⟨ha, hl⟩)

theorem Gives.separated (h : Gives p P) (separator : Parser Unit) :
    Gives (separated separator p) fun l => ∀ a ∈ l, P a := by
  refine (h.separated1 separator).optional.bind ?_
  intro o ho
  cases o with
  | none => exact gives_pure (by simp)
  | some l => exact gives_pure (ho l rfl)

theorem Gives.withSpan (h : Gives p P) : Gives (withSpan p) fun r => P r.1 := by
  intro c r c' heq
  unfold Parser.withSpan at heq
  split at heq
  · next a c₁ ha =>
    cases heq
    exact h ha
  · cases heq

end Stencil.Toml.Parser
