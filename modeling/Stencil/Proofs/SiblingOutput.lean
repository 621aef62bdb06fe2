import Stencil.Proofs.Components

/-!
# The output beside the template

The output of a path has its components, with the name of the Dockerfile in the place of the last one. The
parent of a path is written as the front of the path is, so the two begin alike; and the parent of the
output is the same text again, so the output of an output is the output. A path that goes nowhere, be it
empty or a root, has a Dockerfile in the current directory for its output.
-/

namespace Stencil.Path

theorem trimEnd_eq_nil_iff {l : List Text} :
    trimEnd l = [] ↔ l.filter (fun piece => !isFiller piece) = [] := by
  constructor
  · intro h
    rw [← filter_trimEnd, h]
    rfl
  · intro h
    rw [trimEnd_eq_rdropWhile, List.rdropWhile_eq_nil_iff]
    simpa using h

theorem trimEnd_concat {piece : Text} (h : isFiller piece = false) (l : List Text) :
    trimEnd (l ++ [piece]) = l ++ [piece] :=
  List.rdropWhile_concat_neg isFiller l piece (by simp [h])

theorem trimEnd_concat_filler {piece : Text} (h : isFiller piece) (l : List Text) :
    trimEnd (l ++ [piece]) = trimEnd l :=
  List.rdropWhile_concat_pos isFiller l piece h

theorem trimEnd_trimEnd (l : List Text) : trimEnd (trimEnd l) = trimEnd l :=
  List.rdropWhile_idempotent isFiller l

theorem joinWith_append (separator : Text) {l r : List Text} (hl : l ≠ []) (hr : r ≠ []) :
    joinWith separator (l ++ r) = joinWith separator l ++ separator ++ joinWith separator r := by
  induction l with
  | nil => exact absurd rfl hl
  | cons s l ih =>
    cases l with
    | nil =>
      obtain ⟨t, r, rfl⟩ := List.exists_cons_of_ne_nil hr
      rfl
    | cons t l =>
      have ih := ih (List.cons_ne_nil t l)
      rw [List.cons_append] at ih
      rw [List.cons_append, List.cons_append, joinWith, ih, joinWith]
      simp only [List.append_assoc]

theorem isFiller_dockerfileName : isFiller dockerfileName.text = false := by decide

theorem slash_notMem_dockerfileName : '/' ∉ dockerfileName.text := by decide

theorem component_dockerfileName : component dockerfileName.text = .name dockerfileName.text := by
  decide

/-- The pieces that the parent of a path keeps, behind what the path starts from. -/
def kept (p : Path) : List Text := trimEnd (trimEnd (pieces p.split.2)).dropLast

variable {p : Path}

theorem trimEnd_kept (p : Path) : trimEnd p.kept = p.kept := trimEnd_trimEnd _

theorem slash_notMem_kept {piece : Text} (h : piece ∈ p.kept) : '/' ∉ piece := by
  have hkept : p.kept <+: pieces p.split.2 :=
    (trimEnd_isPrefix _).trans ((List.dropLast_prefix _).trans (trimEnd_isPrefix _))
  exact slash_notMem_of_mem_pieces (hkept.subset h)

theorem trimEnd_ne_nil (h : p.steps ≠ []) : trimEnd (pieces p.split.2) ≠ [] := by
  rwa [Ne, trimEnd_eq_nil_iff, ← steps_eq_filter_body]

/-- The parent keeps less than all pieces. -/
theorem exists_pieces_eq_kept_append (h : p.steps ≠ []) :
    ∃ r, r ≠ [] ∧ pieces p.split.2 = p.kept ++ r := by
  obtain ⟨r, hr⟩ := trimEnd_isPrefix (trimEnd (pieces p.split.2)).dropLast
  obtain ⟨t, ht⟩ := trimEnd_isPrefix (pieces p.split.2)
  refine ⟨r ++ (trimEnd (pieces p.split.2)).getLast (trimEnd_ne_nil h) :: t, by simp, ?_⟩
  conv_lhs => rw [← ht, ← List.dropLast_append_getLast (trimEnd_ne_nil h), ← hr]
  simp [kept]

theorem parent?_of_steps_ne_nil (h : p.steps ≠ []) :
    p.parent? = some ⟨p.split.1 ++ joinWith ['/'] p.kept⟩ := by
  unfold parent? kept
  cases htrim : trimEnd (pieces p.split.2) with
  | nil => exact absurd htrim (trimEnd_ne_nil h)
  | cons first rest => simp only [htrim]

theorem output_of_steps_ne_nil (h : p.steps ≠ []) :
    p.output = join ⟨p.split.1 ++ joinWith ['/'] p.kept⟩ dockerfileName := by
  rw [output, parent?_of_steps_ne_nil h]

theorem output_of_steps_eq_nil (h : p.steps = []) : p.output = dockerfileName := by
  have htrim : trimEnd (pieces p.split.2) = [] := by
    rwa [trimEnd_eq_nil_iff, ← steps_eq_filter_body]
  unfold output parent?
  simp only [htrim]
  split_ifs <;> rfl

theorem joinWith_kept_ne_nil (h : p.kept ≠ []) : joinWith ['/'] p.kept ≠ [] := by
  intro hnil
  have hpieces := pieces_joinWith h fun piece => slash_notMem_kept
  rw [hnil, pieces_nil] at hpieces
  -- A single empty piece is a filler, and would have been trimmed.
  have htrim := trimEnd_kept p
  rw [← hpieces] at htrim
  cases htrim

theorem getLast?_joinWith_kept_ne (p : Path) : (joinWith ['/'] p.kept).getLast? ≠ some '/' := by
  intro hslash
  obtain ⟨s, hs⟩ := List.getLast?_eq_some_iff.1 hslash
  have hne : p.kept ≠ [] := by
    intro hnil
    rw [hnil] at hslash
    cases hslash
  have hpieces := pieces_joinWith hne fun piece => slash_notMem_kept
  rw [hs, pieces_append_slash, pieces_nil] at hpieces
  have htrim := trimEnd_kept p
  rw [← hpieces, trimEnd_concat_filler rfl] at htrim
  have hlength := (trimEnd_isPrefix (pieces s)).length_le
  rw [htrim, List.length_append, List.length_singleton] at hlength
  omega

/-- A directory that does not end in a slash gets one. -/
theorem text_join_of_getLast?_ne {d q : Path} (hd : d.text ≠ []) (hlast : d.text.getLast? ≠ some '/')
    (hq : q.isAbsolute = false) : (d.join q).text = d.text ++ '/' :: q.text := by
  unfold join
  rw [if_neg (by simp [hq]), if_neg]
  rw [Bool.or_eq_true, decide_eq_true_eq, decide_eq_true_eq, not_or]
  exact ⟨hd, hlast⟩

theorem front_split (p : Path) : front ⟨p.split.1⟩ = p.front := by
  unfold front
  rcases split_cases p with ⟨s, -, hsplit⟩ | ⟨-, hsplit⟩ | ⟨s, -, hsplit⟩ | ⟨-, hsplit⟩ <;>
    rw [hsplit] <;> rfl

/-- The front tells what a path starts from. -/
theorem split_fst_eq_of_front_eq {q : Path} (h : p.front = q.front) : p.split.1 = q.split.1 := by
  unfold front at h
  rcases split_cases p with ⟨s, -, hp⟩ | ⟨-, hp⟩ | ⟨s, -, hp⟩ | ⟨-, hp⟩ <;>
  rcases split_cases q with ⟨t, -, hq⟩ | ⟨-, hq⟩ | ⟨t, -, hq⟩ | ⟨-, hq⟩ <;>
    simp [hp, hq] at h ⊢

theorem split_snd_eq_of_text_eq {start body : Text} (hstart : p.split.1 = start)
    (htext : p.text = start ++ body) : p.split.2 = body := by
  rw [split_eq_append p, hstart] at htext
  exact List.append_cancel_left htext

theorem text_ne_nil_of_kept_ne_nil (h : p.kept ≠ []) : p.split.1 ++ joinWith ['/'] p.kept ≠ [] := by
  simp [joinWith_kept_ne_nil h]

/-- Behind what the parent keeps there is a slash, and behind that the other pieces. -/
theorem exists_text_eq_kept_append (h : p.steps ≠ []) (hkept : p.kept ≠ []) :
    ∃ r, r ≠ [] ∧ pieces p.split.2 = p.kept ++ r ∧
      p.text = (p.split.1 ++ joinWith ['/'] p.kept) ++ '/' :: joinWith ['/'] r := by
  obtain ⟨r, hr, hpieces⟩ := exists_pieces_eq_kept_append h
  refine ⟨r, hr, hpieces, ?_⟩
  conv_lhs => rw [split_eq_append p, ← joinWith_pieces p.split.2, hpieces]
  rw [joinWith_append _ hkept hr]
  simp only [List.append_assoc, List.singleton_append]

/-- A path and its parent begin alike. -/
theorem front_kept (h : p.steps ≠ []) : front ⟨p.split.1 ++ joinWith ['/'] p.kept⟩ = p.front := by
  by_cases hkept : p.kept = []
  · rw [hkept]
    change front ⟨p.split.1 ++ []⟩ = _
    rw [List.append_nil, front_split]
  · obtain ⟨r, -, -, htext⟩ := exists_text_eq_kept_append h hkept
    have happend := front_append (t := '/' :: joinWith ['/'] r)
      (text_ne_nil_of_kept_ne_nil hkept) (Or.inr rfl)
    rw [← happend, ← htext]

theorem front_output (h : p.steps ≠ []) : p.output.front = p.front := by
  rw [output_of_steps_ne_nil h, ← front_kept h]
  by_cases hempty : p.split.1 ++ joinWith ['/'] p.kept = []
  · rw [hempty]
    rfl
  · exact front_join hempty isAbsolute_dockerfileName

theorem steps_output (p : Path) : p.output.steps = p.steps.dropLast ++ [dockerfileName.text] := by
  obtain ⟨front, hpieces, hfront⟩ := exists_pieces_output p
  rw [steps, hpieces, List.filter_append, hfront]
  rfl

theorem components_output_of_steps_ne_nil (h : p.steps ≠ []) :
    p.output.components = p.components.dropLast ++ [.name dockerfileName.text] := by
  have hmap : p.steps.map component ≠ [] := by simpa using h
  rw [components_eq, components_eq, front_output h, steps_output, List.map_append,
    List.dropLast_append_of_ne_nil hmap, List.map_dropLast, List.append_assoc, List.map_singleton,
    component_dockerfileName]

/-- The text of the output, with the pieces that its parent keeps. -/
theorem exists_text_output (h : p.steps ≠ []) :
    ∃ l, p.output.text = p.split.1 ++ joinWith ['/'] (l ++ [dockerfileName.text]) ∧
      trimEnd l = p.kept ∧ ∀ piece ∈ l, '/' ∉ piece := by
  rw [output_of_steps_ne_nil h]
  by_cases hkept : p.kept = []
  · rw [hkept]
    rcases split_cases p with ⟨s, -, hsplit⟩ | ⟨-, hsplit⟩ | ⟨s, -, hsplit⟩ | ⟨-, hsplit⟩ <;>
      rw [hsplit]
    · exact ⟨[], rfl, rfl, by simp⟩
    -- Behind a `.` the name of the Dockerfile comes after a slash, so an empty piece is before it.
    · exact ⟨[[]], rfl, rfl, by simp⟩
    · exact ⟨[[]], rfl, rfl, by simp⟩
    · exact ⟨[], rfl, rfl, by simp⟩
  · refine ⟨p.kept, ?_, trimEnd_kept p, fun piece => slash_notMem_kept⟩
    have hlast : (p.split.1 ++ joinWith ['/'] p.kept).getLast? ≠ some '/' := by
      rw [List.getLast?_append_of_ne_nil _ (joinWith_kept_ne_nil hkept)]
      exact getLast?_joinWith_kept_ne p
    rw [text_join_of_getLast?_ne (text_ne_nil_of_kept_ne_nil hkept) hlast isAbsolute_dockerfileName,
      joinWith_append _ hkept (List.cons_ne_nil _ [])]
    simp only [List.append_assoc, List.singleton_append, joinWith]

/-- The output has the parent of the path, written the same. -/
theorem parent?_output (h : p.steps ≠ []) : p.output.parent? = p.parent? := by
  obtain ⟨l, htext, hkept, hslash⟩ := exists_text_output h
  have hstart := split_fst_eq_of_front_eq (front_output h)
  have hsteps : p.output.steps ≠ [] := by simp [steps_output]
  have hbody : p.output.split.2 = joinWith ['/'] (l ++ [dockerfileName.text]) :=
    split_snd_eq_of_text_eq hstart htext
  have hslashes : ∀ piece ∈ l ++ [dockerfileName.text], '/' ∉ piece := by
    intro piece hpiece
    rcases List.mem_append.1 hpiece with hpiece | hpiece
    · exact hslash piece hpiece
    · rw [List.mem_singleton.1 hpiece]
      exact slash_notMem_dockerfileName
  have hsame : p.output.kept = p.kept := by
    rw [kept, hbody, pieces_joinWith (by simp) hslashes, trimEnd_concat isFiller_dockerfileName,
      List.dropLast_concat, hkept]
  rw [parent?_of_steps_ne_nil hsteps, parent?_of_steps_ne_nil h, hstart, hsame]

/-- Once more the output of a path is the same text. -/
theorem output_output (p : Path) : p.output.output = p.output := by
  by_cases h : p.steps = []
  · rw [output_of_steps_eq_nil h]
    decide
  · rw [output, parent?_output h, ← output]

/-- Without steps a path has nothing but what stands in front. -/
theorem components_of_steps_eq_nil (h : p.steps = []) :
    p.components = [] ∨ p.components = [.root] ∨ p.components = [.current] := by
  rw [components_eq, h, List.map_nil, List.append_nil]
  rcases front_cases p with ⟨-, hfront⟩ | ⟨-, hfront | hfront⟩ <;> simp [hfront]

theorem steps_eq_nil_of_components (h : p.components = [] ∨ p.components = [.root]) :
    p.steps = [] := by
  have hnone : ∀ piece ∈ p.steps, component piece = .root := by
    intro piece hpiece
    have hmem : component piece ∈ p.components := by
      rw [components_eq]
      exact List.mem_append_right _ (List.mem_map_of_mem hpiece)
    rcases h with h | h <;> rw [h] at hmem
    · cases hmem
    · exact List.mem_singleton.1 hmem
  rw [List.eq_nil_iff_forall_not_mem]
  intro piece hpiece
  have hroot := hnone piece hpiece
  unfold component at hroot
  split at hroot <;> cases hroot

theorem components_output (h : ∃ c ∈ p.components, c ≠ .root) :
    p.output.components = p.components.dropLast ++ [.name dockerfileName.text] := by
  by_cases hsteps : p.steps = []
  · obtain ⟨c, hc, hne⟩ := h
    rw [output_of_steps_eq_nil hsteps]
    rcases components_of_steps_eq_nil hsteps with hnone | hroot | hcurrent
    · rw [hnone] at hc
      cases hc
    · rw [hroot] at hc
      exact absurd (List.mem_singleton.1 hc) hne
    · rw [hcurrent]
      decide
  · exact components_output_of_steps_ne_nil hsteps

theorem isAbsolute_output_of_components (h : ∃ c ∈ p.components, c ≠ .root) :
    p.output.isAbsolute = p.isAbsolute := by
  by_cases hsteps : p.steps = []
  · rw [output_of_steps_eq_nil hsteps, isAbsolute_dockerfileName]
    obtain ⟨c, hc, hne⟩ := h
    rw [components_eq, hsteps, List.map_nil, List.append_nil] at hc
    rcases front_cases p with ⟨-, hfront⟩ | ⟨hrelative, -⟩
    · rw [hfront] at hc
      exact absurd (List.mem_singleton.1 hc) hne
    · exact hrelative.symm
  · exact isAbsolute_output hsteps

theorem dropLast_append_eq_self_iff {l : List Component} {c : Component} :
    l.dropLast ++ [c] = l ↔ l.getLast? = some c := by
  constructor
  · intro h
    rw [← h, List.getLast?_concat]
  · exact List.dropLast_append_getLast? c

/-- The output is the sibling of the path that is called Dockerfile: with at least one component other
than the root, the components of the output are those of the path with the last one replaced. So the
output is absolute exactly when the path is, two such paths have the same output exactly when they agree
on all components but the last, and a path is its own output exactly when its last component is the name
of the Dockerfile. The output of an empty path and of a root is that name in the current directory. For
every path the output of the output is the same text again. -/
theorem output_is_sibling (p : Path) :
    ((∃ c ∈ p.components, c ≠ .root) →
      p.output.components = p.components.dropLast ++ [.name dockerfileName.text] ∧
      p.output.isAbsolute = p.isAbsolute ∧
      (∀ q : Path, (∃ c ∈ q.components, c ≠ .root) →
        (p.output.components = q.output.components ↔
          p.components.dropLast = q.components.dropLast)) ∧
      (p.output.components = p.components ↔
        p.components.getLast? = some (.name dockerfileName.text))) ∧
    ((p.components = [] ∨ p.components = [.root]) →
      p.output = dockerfileName ∧ p.output.isAbsolute = false) ∧
    p.output.output = p.output := by
  refine ⟨?named, ?bare, output_output p⟩
  case named =>
    intro hp
    have hcomponents := components_output hp
    refine ⟨hcomponents, isAbsolute_output_of_components hp, ?_, ?_⟩
    · intro q hq
      rw [hcomponents, components_output hq, List.append_left_inj]
    · rw [hcomponents, dropLast_append_eq_self_iff]
  case bare =>
    intro h
    rw [output_of_steps_eq_nil (steps_eq_nil_of_components h)]
    exact ⟨rfl, rfl⟩

/-- A `.` in front stays, slashes in a row and a `.` at the end do not. -/
theorem output_is_sibling_of_dots :
    let p : Path := ⟨"./a//b/.".toList⟩
    let q : Path := ⟨"./a/..".toList⟩
    let r : Path := ⟨"//.".toList⟩
    (∃ c ∈ p.components, c ≠ .root) ∧ (∃ c ∈ q.components, c ≠ .root) ∧ r.components = [.root] ∧
      p.output.components = [.current, .name ['a'], .name dockerfileName.text] ∧
      p.output.components = q.output.components ∧ p.output.components ≠ p.components ∧
      r.output = dockerfileName ∧ p.output.output = p.output := by
  intro p q r
  have hp : ∃ c ∈ p.components, c ≠ .root := ⟨.name ['a'], by decide, by decide⟩
  have hq : ∃ c ∈ q.components, c ≠ .root := ⟨.parent, by decide, by decide⟩
  have hr : r.components = [.root] := by decide
  obtain ⟨hnamed, -, hagain⟩ := output_is_sibling p
  obtain ⟨hcomponents, -, hsame, hself⟩ := hnamed hp
  have hbare := (output_is_sibling r).2.1 (Or.inr hr)
  exact ⟨hp, hq, hr, hcomponents.trans (by decide), (hsame q hq).2 (by decide),
    fun h => absurd (hself.1 h) (by decide), hbare.1, hagain⟩

end Stencil.Path
