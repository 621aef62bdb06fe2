import Mathlib.Data.List.DropRight
import Stencil.Dockerfile
import Stencil.Proofs.Routes

/-!
# Where the output goes

Apart from fillers, the pieces of the output path are those of the template path with the name of the
Dockerfile in the place of the last one, and the name of the Dockerfile is the very last piece. So
whatever the template path is, the output leads to a place of that name; and if the template can be read,
the output leads there in its directory.
-/

namespace Stencil

namespace Path

/-- The pieces of a path that are no fillers. -/
def steps (p : Path) : List Text := (pieces p.text).filter fun piece => !isFiller piece

@[simp] theorem pieces_nil : pieces [] = [[]] := List.splitOn_nil '/'

theorem pieces_append_slash (s t : Text) : pieces (s ++ '/' :: t) = pieces s ++ pieces t :=
  List.splitOn_append_cons_self s t

theorem pieces_ne_nil (s : Text) : pieces s ≠ [] := List.splitOn_ne_nil '/' s

theorem slash_notMem_of_mem_pieces {s piece : Text} (h : piece ∈ pieces s) : '/' ∉ piece := by
  induction s generalizing piece with
  | nil =>
    rw [pieces_nil, List.mem_singleton] at h
    simp [h]
  | cons c s ih =>
    unfold pieces at h ih
    rw [List.splitOn_cons_eq_if_modifyHead] at h
    split at h
    · rcases List.mem_cons.1 h with rfl | h
      · simp
      · exact ih h
    · next hc =>
      obtain ⟨first, rest, hs⟩ := List.exists_cons_of_ne_nil (List.splitOn_ne_nil '/' s)
      rw [hs] at h ih
      rcases List.mem_cons.1 h with rfl | h
      · have hfirst := ih List.mem_cons_self
        simp only [beq_iff_eq] at hc
        simp [hfirst, Ne.symm hc]
      · exact ih (List.mem_cons_of_mem first h)

theorem joinWith_eq_intercalate (separator : Text) (l : List Text) :
    joinWith separator l = separator.intercalate l := by
  fun_induction joinWith separator l with
  | case1 => simp
  | case2 s => simp
  | case3 s t rest ih => rw [ih, List.intercalate_cons_cons]

theorem pieces_joinWith {l : List Text} (hne : l ≠ []) (h : ∀ piece ∈ l, '/' ∉ piece) :
    pieces (joinWith ['/'] l) = l := by
  rw [joinWith_eq_intercalate]
  exact List.splitOn_intercalate '/' h hne

theorem trimEnd_eq_rdropWhile (l : List Text) : trimEnd l = l.rdropWhile isFiller := rfl

theorem trimEnd_isPrefix (l : List Text) : trimEnd l <+: l := List.rdropWhile_prefix _ l

/-- Nothing but fillers is trimmed. -/
theorem filter_trimEnd (l : List Text) :
    (trimEnd l).filter (fun piece => !isFiller piece) = l.filter fun piece => !isFiller piece := by
  rw [trimEnd_eq_rdropWhile]
  induction l using List.reverseRecOn with
  | nil => rfl
  | append_singleton l piece ih =>
    rw [List.rdropWhile_concat]
    split
    · next hfiller => simp [ih, hfiller]
    · rfl

/-- A trimmed list that is not empty ends with the last piece that is no filler. -/
theorem filter_dropLast_trimEnd (l : List Text) :
    (trimEnd l).dropLast.filter (fun piece => !isFiller piece) =
      (l.filter fun piece => !isFiller piece).dropLast := by
  rw [← filter_trimEnd l]
  by_cases hne : trimEnd l = []
  · rw [hne]
    rfl
  · have hlast : ¬ isFiller ((trimEnd l).getLast hne) := List.rdropWhile_last_not _ l hne
    conv_rhs => rw [← List.dropLast_append_getLast hne]
    simp [hlast]

theorem steps_eq_filter_body (p : Path) :
    p.steps = (pieces p.split.2).filter fun piece => !isFiller piece := by
  unfold steps split
  split
  · next s htext =>
    rw [htext]
    change (pieces ([] ++ '/' :: s)).filter _ = _
    rw [pieces_append_slash]
    rfl
  · next htext =>
    rw [htext]
    rfl
  · next s htext =>
    rw [htext]
    change (pieces (['.'] ++ '/' :: s)).filter _ = (pieces ([] ++ '/' :: s)).filter _
    rw [pieces_append_slash, pieces_append_slash]
    rfl
  · rfl

theorem exists_pieces_join (d : Path) {q : Path} (hq : q.isAbsolute = false) :
    ∃ front, pieces (d.join q).text = front ++ pieces q.text ∧
      front.filter (fun piece => !isFiller piece) = d.steps := by
  unfold join
  rw [if_neg (by simp [hq])]
  split
  · next hopen =>
    rw [Bool.or_eq_true, decide_eq_true_eq, decide_eq_true_eq] at hopen
    rcases hopen with hempty | hslash
    · exact ⟨[], by simp [hempty], by rw [steps, hempty]; rfl⟩
    · obtain ⟨s, hs⟩ := List.getLast?_eq_some_iff.1 hslash
      refine ⟨pieces s, ?_, ?_⟩
      · rw [hs, List.append_assoc, List.singleton_append, pieces_append_slash]
      · rw [steps, hs, pieces_append_slash, List.filter_append]
        exact (List.append_nil _).symm
  · exact ⟨pieces d.text, pieces_append_slash d.text q.text, rfl⟩

theorem isAbsolute_join (d : Path) {q : Path} (hq : q.isAbsolute = false) :
    (d.join q).isAbsolute = d.isAbsolute := by
  obtain ⟨text⟩ := d
  unfold join
  rw [if_neg (by simp [hq])]
  cases text with
  | nil => exact hq
  | cons c text => split <;> rfl

theorem split_cases (p : Path) :
    (∃ s, p.text = '/' :: s ∧ p.split = (['/'], s)) ∨
      (p.text = ['.'] ∧ p.split = (['.'], [])) ∨
      (∃ s, p.text = '.' :: '/' :: s ∧ p.split = (['.'], '/' :: s)) ∨
      (p.isAbsolute = false ∧ p.split = ([], p.text)) := by
  unfold split
  split
  · next s htext => exact Or.inl ⟨s, htext, rfl⟩
  · next htext => exact Or.inr (Or.inl ⟨htext, rfl⟩)
  · next s htext => exact Or.inr (Or.inr (Or.inl ⟨s, htext, rfl⟩))
  · next hroot _ _ =>
    refine Or.inr (Or.inr (Or.inr ⟨?_, rfl⟩))
    unfold isAbsolute
    rw [decide_eq_false_iff_not]
    intro hhead
    obtain ⟨s, hs⟩ := List.head?_eq_some_iff.1 hhead
    exact hroot s hs

theorem append_joinWith_cons (separator s t : Text) (l : List Text) :
    s ++ joinWith separator (t :: l) = joinWith separator ((s ++ t) :: l) := by
  cases l with
  | nil => rfl
  | cons u l => simp only [joinWith, List.append_assoc]

/-- A `.` in front counts for a piece of its own, as what follows it begins with a slash. -/
theorem steps_dot_append {first : Text} {rest : List Text} (hfirst : first = [])
    (hslash : ∀ piece ∈ first :: rest, '/' ∉ piece) :
    (pieces (['.'] ++ joinWith ['/'] (first :: rest))).filter (fun piece => !isFiller piece) =
      (first :: rest).filter fun piece => !isFiller piece := by
  subst hfirst
  have hdot : ∀ piece ∈ ['.'] :: rest, '/' ∉ piece := by
    intro piece hpiece
    rcases List.mem_cons.1 hpiece with rfl | hpiece
    · decide
    · exact hslash piece (List.mem_cons_of_mem _ hpiece)
  rw [append_joinWith_cons, List.append_nil, pieces_joinWith (List.cons_ne_nil _ rest) hdot]
  rfl

/-- Pieces from the front of a path, behind what the path starts from, lead where they say. -/
theorem steps_append_joinWith (p : Path) {l : List Text} (h : l <+: pieces p.split.2) :
    steps ⟨p.split.1 ++ joinWith ['/'] l⟩ = l.filter fun piece => !isFiller piece := by
  have hslash : ∀ piece ∈ l, '/' ∉ piece := fun piece hpiece =>
    slash_notMem_of_mem_pieces (h.subset hpiece)
  unfold steps
  cases l with
  | nil =>
    rcases split_cases p with ⟨s, -, hsplit⟩ | ⟨-, hsplit⟩ | ⟨s, -, hsplit⟩ | ⟨-, hsplit⟩ <;>
      rw [hsplit] <;> rfl
  | cons first rest =>
    rcases split_cases p with ⟨s, -, hsplit⟩ | ⟨-, hsplit⟩ | ⟨s, -, hsplit⟩ | ⟨-, hsplit⟩
    · rw [hsplit]
      change (pieces ([] ++ '/' :: joinWith ['/'] (first :: rest))).filter _ = _
      rw [pieces_append_slash, pieces_joinWith (List.cons_ne_nil first rest) hslash]
      rfl
    · rw [hsplit] at h ⊢
      exact steps_dot_append (List.cons_prefix_cons.1 h).1 hslash
    · have hbody : pieces ('/' :: s) = [] :: pieces s := pieces_append_slash [] s
      rw [hsplit, hbody] at h
      rw [hsplit]
      exact steps_dot_append (List.cons_prefix_cons.1 h).1 hslash
    · rw [hsplit, List.nil_append, pieces_joinWith (List.cons_ne_nil first rest) hslash]

theorem joinWith_prefix (separator : Text) {l m : List Text} (h : l <+: m) :
    joinWith separator l <+: joinWith separator m := by
  obtain ⟨r, rfl⟩ := h
  induction l with
  | nil => exact List.nil_prefix
  | cons s l ih =>
    cases l with
    | nil =>
      cases r with
      | nil => exact List.prefix_rfl
      | cons t r =>
        rw [List.singleton_append, joinWith, joinWith, List.append_assoc]
        exact List.prefix_append s _
    | cons t l => exact (List.prefix_append_right_inj _).2 ih

theorem joinWith_pieces (s : Text) : joinWith ['/'] (pieces s) = s := by
  rw [joinWith_eq_intercalate]
  exact List.intercalate_splitOn '/'

/-- A parent is written as the front of the path is. -/
theorem parent?_cases (p : Path) :
    (p.parent? = none ∧ p.steps = []) ∨
      (p.parent? = some ⟨[]⟩ ∧ p.steps = [] ∧ p.isAbsolute = false) ∨
      ∃ l, p.parent? = some ⟨p.split.1 ++ joinWith ['/'] l⟩ ∧ l <+: pieces p.split.2 ∧
        l.filter (fun piece => !isFiller piece) = p.steps.dropLast := by
  have hsteps : p.steps = (trimEnd (pieces p.split.2)).filter fun piece => !isFiller piece := by
    rw [filter_trimEnd, steps_eq_filter_body]
  unfold parent?
  cases hkept : trimEnd (pieces p.split.2) with
  | nil =>
    rw [hkept] at hsteps
    simp only [hkept]
    split
    · next hdot =>
      refine Or.inr (Or.inl ⟨rfl, hsteps, ?_⟩)
      rw [isAbsolute, split_eq_append p, hdot]
      rfl
    · exact Or.inl ⟨rfl, hsteps⟩
  | cons first rest =>
    simp only [hkept]
    refine Or.inr (Or.inr ⟨_, rfl, ?_, ?_⟩)
    · rw [← hkept]
      exact (trimEnd_isPrefix _).trans ((List.dropLast_prefix _).trans (trimEnd_isPrefix _))
    · rw [filter_trimEnd, ← hkept, filter_dropLast_trimEnd, steps_eq_filter_body]

theorem steps_of_parent?_eq_none {p : Path} (h : p.parent? = none) : p.steps = [] := by
  rcases parent?_cases p with ⟨-, hsteps⟩ | ⟨-, hsteps, -⟩ | ⟨l, hsome, -⟩
  · exact hsteps
  · exact hsteps
  · rw [h] at hsome
    cases hsome

theorem steps_parent {p d : Path} (h : p.parent? = some d) : d.steps = p.steps.dropLast := by
  rcases parent?_cases p with ⟨hnone, -⟩ | ⟨hparent, hsteps, -⟩ | ⟨l, hparent, hl, hsteps⟩
  · rw [hnone] at h
    cases h
  · rw [hparent] at h
    cases h
    rw [hsteps]
    rfl
  · rw [hparent] at h
    cases h
    rw [steps_append_joinWith p hl, hsteps]

theorem isAbsolute_parent {p d : Path} (h : p.parent? = some d) : d.isAbsolute = p.isAbsolute := by
  rcases parent?_cases p with ⟨hnone, -⟩ | ⟨hparent, -, hrelative⟩ | ⟨l, hparent, hl, -⟩
  · rw [hnone] at h
    cases h
  · rw [hparent] at h
    cases h
    rw [hrelative]
    rfl
  · rw [hparent] at h
    cases h
    rcases split_cases p with ⟨s, htext, hsplit⟩ | ⟨htext, hsplit⟩ | ⟨s, htext, hsplit⟩ |
      ⟨hrelative, hsplit⟩
    · rw [isAbsolute, isAbsolute, hsplit, htext]
      rfl
    · rw [isAbsolute, isAbsolute, hsplit, htext]
      rfl
    · rw [isAbsolute, isAbsolute, hsplit, htext]
      rfl
    · rw [hsplit] at hl ⊢
      have hfront : joinWith ['/'] l <+: p.text := by
        have hprefix := joinWith_prefix ['/'] hl
        rwa [joinWith_pieces] at hprefix
      obtain ⟨rest, hrest⟩ := hfront
      rw [hrelative]
      rw [isAbsolute, ← hrest] at hrelative
      cases hjoin : joinWith ['/'] l with
      | nil => rfl
      | cons c s =>
        rw [hjoin] at hrelative
        exact hrelative

@[simp] theorem isAbsolute_dockerfileName : dockerfileName.isAbsolute = false := rfl

theorem pieces_dockerfileName : pieces dockerfileName.text = [dockerfileName.text] := by decide

/-- The output has the steps of the template, with the name of the Dockerfile in the place of the last,
and that name is its last piece. -/
theorem exists_pieces_output (p : Path) :
    ∃ front, pieces p.output.text = front ++ [dockerfileName.text] ∧
      front.filter (fun piece => !isFiller piece) = p.steps.dropLast := by
  unfold output
  cases hparent : p.parent? with
  | none =>
    refine ⟨[], pieces_dockerfileName, ?_⟩
    rw [steps_of_parent?_eq_none hparent]
    rfl
  | some d =>
    obtain ⟨front, hpieces, hfront⟩ := exists_pieces_join d isAbsolute_dockerfileName
    rw [pieces_dockerfileName] at hpieces
    exact ⟨front, hpieces, hfront.trans (steps_parent hparent)⟩

theorem isAbsolute_output {p : Path} (h : p.steps ≠ []) : p.output.isAbsolute = p.isAbsolute := by
  unfold output
  cases hparent : p.parent? with
  | none => exact absurd (steps_of_parent?_eq_none hparent) h
  | some d =>
    change (d.join dockerfileName).isAbsolute = _
    rw [isAbsolute_join d isAbsolute_dockerfileName, isAbsolute_parent hparent]

end Path

namespace FileSystem

open Stencil.Path (isFiller dockerfileName)

variable {fs : FileSystem} {here next l : Location} {piece : Text} {pieces : List Text}

theorem step_filler (hfiller : isFiller piece) (hhere : fs.find? here = some .directory) :
    fs.step here piece = .ok here := by
  unfold step
  rw [hhere]
  exact if_pos hfiller

/-- Fillers are followed from directories only, and lead nowhere else. -/
theorem walk_filter (h : fs.walk here pieces = .ok l) :
    fs.walk here (pieces.filter fun piece => !isFiller piece) = .ok l := by
  induction pieces generalizing here with
  | nil => exact h
  | cons piece pieces ih =>
    obtain ⟨next, hstep, hwalk⟩ := walk_cons_eq_ok_iff.1 h
    by_cases hfiller : isFiller piece
    · rw [step_filler hfiller (directory_of_step hstep)] at hstep
      cases hstep
      rw [List.filter_cons_of_neg (by simp [hfiller])]
      exact ih hwalk
    · rw [List.filter_cons_of_pos (by simp [hfiller])]
      exact walk_cons_eq_ok_iff.2 ⟨next, hstep, ih hwalk⟩

theorem directory_of_walk (h : fs.walk here pieces = .ok l) (hl : fs.find? l = some .directory) :
    fs.find? here = some .directory := by
  cases pieces with
  | nil =>
    cases h
    exact hl
  | cons piece pieces =>
    obtain ⟨next, hstep, -⟩ := walk_cons_eq_ok_iff.1 h
    exact directory_of_step hstep

/-- Fillers do not keep anyone from a directory. -/
theorem walk_of_walk_filter (hl : fs.find? l = some .directory)
    (h : fs.walk here (pieces.filter fun piece => !isFiller piece) = .ok l) :
    fs.walk here pieces = .ok l := by
  induction pieces generalizing here with
  | nil => exact h
  | cons piece pieces ih =>
    by_cases hfiller : isFiller piece
    · rw [List.filter_cons_of_neg (by simp [hfiller])] at h
      exact walk_cons_eq_ok_iff.2
        ⟨here, step_filler hfiller (directory_of_walk h hl), ih h⟩
    · rw [List.filter_cons_of_pos (by simp [hfiller])] at h
      obtain ⟨next, hstep, hwalk⟩ := walk_cons_eq_ok_iff.1 h
      exact walk_cons_eq_ok_iff.2 ⟨next, hstep, ih hwalk⟩

theorem step_dockerfileName (h : fs.find? here = some .directory) :
    fs.step here dockerfileName.text = .ok (dockerfileName.text :: here) := by
  unfold step
  rw [h]
  rfl

theorem walk_dockerfileName_eq_ok_iff {front : List Text} :
    fs.walk here (front ++ [dockerfileName.text]) = .ok l ↔
      ∃ directory, fs.walk here front = .ok directory ∧
        fs.find? directory = some .directory ∧ l = dockerfileName.text :: directory := by
  rw [walk_append_eq_ok_iff]
  apply exists_congr
  intro directory
  apply and_congr_right
  intro _
  rw [walk_cons_eq_ok_iff]
  constructor
  · rintro ⟨next, hstep, hnext⟩
    have hdirectory := directory_of_step hstep
    rw [step_dockerfileName hdirectory] at hstep
    cases hstep
    cases hnext
    exact ⟨hdirectory, rfl⟩
  · rintro ⟨hdirectory, rfl⟩
    exact ⟨_, step_dockerfileName hdirectory, rfl⟩

/-- A route that ends in a filler leads to a directory. -/
theorem filter_ne_nil_of_file {front : List Text} {bytes : ByteArray} (hne : pieces ≠ [])
    (h : fs.walk here (front ++ pieces) = .ok l) (hl : fs.find? l = some (.file bytes)) :
    pieces.filter (fun piece => !isFiller piece) ≠ [] := by
  intro hnil
  have hlast : isFiller (pieces.getLast hne) := by
    have hfiller := List.filter_eq_nil_iff.1 hnil _ (List.getLast_mem hne)
    simpa using hfiller
  rw [← List.dropLast_append_getLast hne, ← List.append_assoc] at h
  obtain ⟨middle, -, hlastStep⟩ := walk_append_eq_ok_iff.1 h
  obtain ⟨next, hstep, hnext⟩ := walk_cons_eq_ok_iff.1 hlastStep
  have hmiddle := directory_of_step hstep
  rw [step_filler hlast hmiddle] at hstep
  cases hstep
  cases hnext
  rw [hmiddle] at hl
  cases hl

/-- The route of a path ends with its pieces. What is before them leads to the directory that the path
is seen from. -/
theorem exists_front_of_route {directory : Option Path} {p : Path}
    (h : route directory p = .ok pieces) :
    ∃ front, pieces = front ++ Path.pieces p.text ∧
      front.filter (fun piece => !isFiller piece) =
        if p.isAbsolute then [] else (directory.map Path.steps).getD [] := by
  unfold route at h
  split_ifs at h with hnul hempty hlong habsolute
  · cases h
    exact ⟨[], rfl, by rw [if_pos habsolute]; rfl⟩
  · cases directory with
    | none => cases h
    | some d =>
      cases h
      obtain ⟨front, hfront, hsteps⟩ := Path.exists_pieces_join d (eq_false_of_ne_true habsolute)
      exact ⟨front, hfront, by rw [if_neg habsolute]; exact hsteps⟩

/-- Wherever the output leads, the place has the name of the Dockerfile. -/
theorem head?_of_locate_output {directory : Option Path} {p : Path}
    (h : fs.locate directory p.output = .ok l) : l.head? = some dockerfileName.text := by
  cases hroute : route directory p.output with
  | error e =>
    rw [locate_of_route_error hroute] at h
    cases h
  | ok pieces =>
    obtain ⟨front, hfront, -⟩ := exists_front_of_route hroute
    obtain ⟨tail, htail, -⟩ := p.exists_pieces_output
    rw [locate_of_route hroute, hfront, htail, ← List.append_assoc] at h
    obtain ⟨d, -, -, rfl⟩ := walk_dockerfileName_eq_ok_iff.1 h
    rfl

/-- If the template is a file, the output leads somewhere, unless its path is refused for what it is. -/
theorem locate_output_of_file {directory : Option Path} {p : Path} {bytes : ByteArray}
    (h : fs.locate directory p = .ok l) (hl : fs.find? l = some (.file bytes)) :
    (∃ e, route directory p.output = .error e) ∨ ∃ k, fs.locate directory p.output = .ok k := by
  cases hroute : route directory p with
  | error e =>
    rw [locate_of_route_error hroute] at h
    cases h
  | ok pieces =>
    cases houtput : route directory p.output with
    | error e => exact Or.inl ⟨e, rfl⟩
    | ok outputPieces =>
      right
      obtain ⟨front, rfl, hfront⟩ := exists_front_of_route hroute
      obtain ⟨front', rfl, hfront'⟩ := exists_front_of_route houtput
      obtain ⟨tail, htail, hsteps⟩ := p.exists_pieces_output
      rw [locate_of_route hroute] at h
      have hne : p.steps ≠ [] := filter_ne_nil_of_file (Path.pieces_ne_nil p.text) h hl
      rw [Path.isAbsolute_output hne, ← hfront] at hfront'
      -- Up to the last step both routes lead to the same directory.
      have hwalk := walk_filter h
      rw [List.filter_append] at hwalk
      change fs.walk [] (_ ++ p.steps) = _ at hwalk
      rw [← List.dropLast_append_getLast hne, ← List.append_assoc] at hwalk
      obtain ⟨d, hd, hlast⟩ := walk_append_eq_ok_iff.1 hwalk
      obtain ⟨next, hstep, -⟩ := walk_cons_eq_ok_iff.1 hlast
      have hdirectory := directory_of_step hstep
      have hboth : fs.walk [] (front' ++ tail) = .ok d := by
        apply walk_of_walk_filter hdirectory
        rw [List.filter_append, hfront', hsteps]
        exact hd
      rw [locate_of_route houtput, htail, ← List.append_assoc]
      exact ⟨_, walk_dockerfileName_eq_ok_iff.2 ⟨d, hboth, hdirectory, rfl⟩⟩

end FileSystem

end Stencil
