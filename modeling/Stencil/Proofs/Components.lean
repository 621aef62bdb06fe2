import Stencil.Proofs.OutputPaths

/-!
# The components of paths

The components of a path are those of its steps, behind the root or the `.` that it begins with. Joined
to a directory a path keeps its components, save that a `.` in front no longer counts; and the path below
a leading `~` has the components behind that one.
-/

namespace Stencil.Path

/-- The component that a path has in front of its steps. -/
def front (p : Path) : List Component :=
  if p.split.1 = ['/'] then [.root]
  else if p.split.1 = ['.'] then [.current]
  else []

/-- Components as they stand behind others: a `.` in front adds nothing there. -/
def withoutCurrent : List Component → List Component
  | .current :: rest => rest
  | components => components

theorem components_eq (p : Path) : p.components = p.front ++ p.steps.map component := by
  rw [steps_eq_filter_body]
  rfl

theorem component_ne_current (piece : Text) : component piece ≠ .current := by
  unfold component
  split <;> simp

theorem eq_name_of_component {piece name : Text} (h : component piece = .name name) :
    piece = name := by
  unfold component at h
  split at h
  · cases h
  · exact Component.name.inj h

theorem withoutCurrent_steps (l : List Text) :
    withoutCurrent (l.map component) = l.map component := by
  cases l with
  | nil => rfl
  | cons piece l =>
    rw [List.map_cons]
    unfold withoutCurrent
    split
    · next heq => exact absurd (List.cons.inj heq).1 (component_ne_current piece)
    · rfl

theorem front_cases (p : Path) :
    (p.isAbsolute = true ∧ p.front = [.root]) ∨
      p.isAbsolute = false ∧ (p.front = [.current] ∨ p.front = []) := by
  unfold front
  rcases split_cases p with ⟨s, htext, hsplit⟩ | ⟨htext, hsplit⟩ | ⟨s, htext, hsplit⟩ |
    ⟨hrelative, hsplit⟩
  · exact Or.inl ⟨by rw [isAbsolute, htext]; rfl, by rw [hsplit]; rfl⟩
  · exact Or.inr ⟨by rw [isAbsolute, htext]; rfl, Or.inl (by rw [hsplit]; rfl)⟩
  · exact Or.inr ⟨by rw [isAbsolute, htext]; rfl, Or.inl (by rw [hsplit]; rfl)⟩
  · exact Or.inr ⟨hrelative, Or.inr (by rw [hsplit]; rfl)⟩

theorem isAbsolute_of_front_eq_nil {p : Path} (h : p.front = []) : p.isAbsolute = false := by
  rcases front_cases p with ⟨-, hfront⟩ | ⟨hrelative, -⟩
  · rw [h] at hfront
    cases hfront
  · exact hrelative

theorem withoutCurrent_components {p : Path} (h : p.isAbsolute = false) :
    withoutCurrent p.components = p.steps.map component := by
  rw [components_eq]
  rcases front_cases p with ⟨habsolute, -⟩ | ⟨-, hfront | hfront⟩
  · rw [h] at habsolute
    cases habsolute
  · rw [hfront]
    rfl
  · rw [hfront, List.nil_append, withoutCurrent_steps]

theorem steps_join (d : Path) {q : Path} (hq : q.isAbsolute = false) :
    (d.join q).steps = d.steps ++ q.steps := by
  obtain ⟨front, hpieces, hfront⟩ := exists_pieces_join d hq
  rw [← hfront, steps, hpieces, List.filter_append]
  rfl

theorem front_cons_of_ne {c : Char} (hroot : c ≠ '/') {s : Text}
    (hdot : c = '.' → s ≠ [] ∧ s.head? ≠ some '/') : front ⟨c :: s⟩ = [] := by
  have hsplit : split ⟨c :: s⟩ = ([], c :: s) := by
    unfold split
    split
    · next heq => exact absurd (List.cons.inj heq).1 hroot
    · next heq => exact absurd (List.cons.inj heq).2 (hdot (List.cons.inj heq).1).1
    · next heq =>
      obtain ⟨hc, rfl⟩ := List.cons.inj heq
      exact absurd rfl (hdot hc).2
    · rfl
  rw [front, hsplit]
  rfl

/-- Nothing stands in front of the steps of a path that begins with a name. -/
theorem front_name_append {name : Text} (hfiller : isFiller name = false) (hslash : '/' ∉ name)
    (t : Text) : front ⟨name ++ t⟩ = [] := by
  cases name with
  | nil => cases hfiller
  | cons c name =>
    have hc : c ≠ '/' := by
      rintro rfl
      exact hslash List.mem_cons_self
    refine front_cons_of_ne hc fun hdot => ?_
    cases name with
    | nil =>
      rw [hdot] at hfiller
      cases hfiller
    | cons d name =>
      refine ⟨by simp, fun hd => ?_⟩
      have hd : d = '/' := Option.some.inj hd
      exact hslash (by simp [hd])

/-- Text at a slash behind a path leaves alone what the path begins with. -/
theorem front_append {s t : Text} (hs : s ≠ []) (h : s.getLast? = some '/' ∨ t.head? = some '/') :
    front ⟨s ++ t⟩ = front ⟨s⟩ := by
  cases s with
  | nil => exact absurd rfl hs
  | cons c s =>
    by_cases hroot : c = '/'
    · rw [hroot]
      rfl
    · by_cases hdot : c = '.' ∧ (s = [] ∨ s.head? = some '/')
      · obtain ⟨rfl, rfl | hslash⟩ := hdot
        · -- A `.` alone does not end in a slash, so one follows.
          obtain ⟨t, rfl⟩ := List.head?_eq_some_iff.1 (h.resolve_left (by decide))
          rfl
        · obtain ⟨s, rfl⟩ := List.head?_eq_some_iff.1 hslash
          rfl
      · simp only [not_and, not_or] at hdot
        have happend : c = '.' → s ++ t ≠ [] ∧ (s ++ t).head? ≠ some '/' := by
          intro hc
          obtain ⟨hne, hhead⟩ := hdot hc
          refine ⟨by simp [hne], ?_⟩
          rwa [List.head?_append_of_ne_nil _ hne]
        rw [List.cons_append, front_cons_of_ne hroot happend, front_cons_of_ne hroot hdot]

theorem front_join {d : Path} (hd : d.text ≠ []) {q : Path} (hq : q.isAbsolute = false) :
    (d.join q).front = d.front := by
  unfold join
  rw [if_neg (by simp [hq])]
  split
  · next hopen =>
    have hslash : d.text.getLast? = some '/' := by simpa [hd] using hopen
    exact front_append hd (Or.inl hslash)
  · exact front_append hd (Or.inr rfl)

theorem components_join {d : Path} (hd : d.text ≠ []) {q : Path} (hq : q.isAbsolute = false) :
    (d.join q).components = d.components ++ withoutCurrent q.components := by
  rw [components_eq, components_eq d, front_join hd hq, steps_join d hq,
    withoutCurrent_components hq, List.map_append, List.append_assoc]

/-- A text has one piece, or a first piece that ends at a slash. -/
theorem pieces_cases (s : Text) :
    pieces s = [s] ∨ ∃ first t, s = first ++ '/' :: t ∧ pieces s = first :: pieces t := by
  have hwhole : ∀ t : Text, '/' ∉ t → pieces t = [t] := by
    intro t ht
    exact pieces_joinWith (l := [t]) (List.cons_ne_nil t []) (by simpa using ht)
  by_cases hslash : '/' ∈ s
  · obtain ⟨first, t, rfl, hfirst⟩ := List.eq_append_cons_of_mem hslash
    refine Or.inr ⟨first, t, rfl, ?_⟩
    rw [pieces_append_slash, hwhole first hfirst]
    rfl
  · exact Or.inl (hwhole s hslash)

theorem isFiller_eq_true_iff {piece : Text} : isFiller piece = true ↔ piece = [] ∨ piece = ['.'] := by
  simp [isFiller]

theorem steps_of_head?_components {p : Path} {name : Text}
    (h : p.components.head? = some (.name name)) : p.front = [] ∧ p.steps.head? = some name := by
  rw [components_eq] at h
  rcases front_cases p with ⟨-, hfront⟩ | ⟨-, hfront | hfront⟩
  · rw [hfront] at h
    cases h
  · rw [hfront] at h
    cases h
  · rw [hfront, List.nil_append, List.head?_map, Option.map_eq_some_iff] at h
    obtain ⟨piece, hpiece, hname⟩ := h
    rw [eq_name_of_component hname] at hpiece
    exact ⟨hfront, hpiece⟩

/-- Only a path that begins with a name has it for its first component. -/
theorem text_of_head?_components {p : Path} {name : Text}
    (h : p.components.head? = some (.name name)) :
    p.text = name ∨ ∃ s, p.text = name ++ '/' :: s := by
  obtain ⟨hfront, hhead⟩ := steps_of_head?_components h
  obtain ⟨s⟩ := p
  rcases pieces_cases s with hpieces | ⟨first, t, rfl, hpieces⟩
  · rw [steps, hpieces] at hhead
    have hmem := List.mem_of_mem_filter (List.mem_of_head? hhead)
    exact Or.inl (List.mem_singleton.1 hmem).symm
  · -- A filler in front of a slash would be a root, or a `.` that counts.
    have hfirst : isFiller first = false := by
      rw [Bool.eq_false_iff, Ne, isFiller_eq_true_iff]
      rintro (rfl | rfl)
      · cases hfront
      · cases hfront
    rw [steps, hpieces, List.filter_cons_of_pos (by simp [hfirst])] at hhead
    obtain rfl : first = name := Option.some.inj hhead
    exact Or.inr ⟨t, rfl⟩

theorem front_joinWith {l : List Text} (hhead : ∀ first ∈ l.head?, isFiller first = false)
    (hslash : ∀ piece ∈ l, '/' ∉ piece) : front ⟨joinWith ['/'] l⟩ = [] := by
  cases l with
  | nil => rfl
  | cons first rest =>
    have htext := append_joinWith_cons ['/'] first [] rest
    rw [List.append_nil] at htext
    rw [← htext]
    exact front_name_append (hhead first rfl) (hslash first List.mem_cons_self) _

theorem steps_joinWith {l : List Text} (hslash : ∀ piece ∈ l, '/' ∉ piece) :
    steps ⟨joinWith ['/'] l⟩ = l.filter fun piece => !isFiller piece := by
  cases l with
  | nil => rfl
  | cons first rest => rw [steps, pieces_joinWith (List.cons_ne_nil first rest) hslash]

/-- Nothing but fillers is dropped. -/
theorem filter_dropWhile (l : List Text) :
    (l.dropWhile isFiller).filter (fun piece => !isFiller piece) =
      l.filter fun piece => !isFiller piece := by
  induction l with
  | nil => rfl
  | cons piece l ih =>
    by_cases hfiller : isFiller piece
    · rw [List.dropWhile_cons_of_pos hfiller, ih, List.filter_cons_of_neg (by simp [hfiller])]
    · rw [List.dropWhile_cons_of_neg hfiller]

/-- The path behind a `~` and a slash begins with a step, and has all steps behind the slash. -/
theorem front_steps_below (s : Text) :
    let p : Path := ⟨joinWith ['/'] (trimEnd ((pieces s).dropWhile isFiller))⟩
    p.front = [] ∧ p.steps = (pieces s).filter fun piece => !isFiller piece := by
  have htrim := trimEnd_isPrefix ((pieces s).dropWhile isFiller)
  have hslash : ∀ piece ∈ trimEnd ((pieces s).dropWhile isFiller), '/' ∉ piece := by
    intro piece hpiece
    exact slash_notMem_of_mem_pieces ((List.dropWhile_suffix _).subset (htrim.subset hpiece))
  constructor
  · refine front_joinWith ?_ hslash
    intro first hfirst
    have hhead := List.head?_dropWhile_not isFiller (pieces s)
    obtain ⟨rest, hrest⟩ := htrim
    rw [← hrest, List.head?_append, Option.mem_def.1 hfirst] at hhead
    exact hhead
  · rw [steps_joinWith hslash, filter_trimEnd, filter_dropWhile]

/-- Only a first component `~` stands for the home, and the path below it has the other components. -/
theorem belowHome?_cases (p : Path) :
    (∃ q, p.belowHome? = some q ∧ q.isAbsolute = false ∧ q.components = q.steps.map component ∧
        p.components = .name ['~'] :: q.components) ∨
      p.belowHome? = none ∧ p.components.head? ≠ some (.name ['~']) := by
  obtain ⟨text⟩ := p
  by_cases hshape : text = ['~'] ∨ ∃ s, text = '~' :: '/' :: s
  · refine Or.inl ?_
    rcases hshape with rfl | ⟨s, rfl⟩
    · exact ⟨⟨[]⟩, rfl, rfl, by decide, by decide⟩
    · obtain ⟨hfront, hsteps⟩ := front_steps_below s
      have hname : isFiller ['~'] = false := by decide
      have htilde : front ⟨'~' :: '/' :: s⟩ = [] := front_name_append hname (by decide) ('/' :: s)
      have hpieces : pieces ('~' :: '/' :: s) = ['~'] :: pieces s := pieces_append_slash ['~'] s
      refine ⟨_, rfl, isAbsolute_of_front_eq_nil hfront, ?_, ?_⟩
      · rw [components_eq, hfront, List.nil_append]
      · rw [components_eq, components_eq, htilde, hfront, hsteps, steps, hpieces]
        rfl
  · refine Or.inr ⟨?_, fun hhead => hshape (text_of_head?_components hhead)⟩
    unfold belowHome?
    split
    · next s htext =>
      obtain rfl : text = '~' :: s := htext
      split
      · exact absurd (Or.inl rfl) hshape
      · exact absurd (Or.inr ⟨_, rfl⟩) hshape
      · rfl
    · rfl

end Stencil.Path
