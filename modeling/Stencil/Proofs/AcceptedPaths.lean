import Stencil.FileSystem
import Stencil.Proofs.SiblingOutput

/-!
# Accepted paths

A system takes a path only when there is no NUL in it and it is not too long, wherever it leads. Behind a
directory a path is longer, and its output is the output of the path behind that directory, save for a
path of one step. So the path and its output are accepted when they are accepted behind a directory. The
reverse fails, as slashes in a row make a path to the same file as long as one likes.
-/

namespace Stencil.Path

variable {p directory raw : Path}

/-- Whether a system takes a path at all, wherever it leads: there is no NUL in it, and it is not too
long. -/
def IsAccepted (p : Path) : Prop := '\x00' ∉ p.text ∧ byteLength p.text < FileSystem.pathLimit

instance (p : Path) : Decidable p.IsAccepted := inferInstanceAs (Decidable (_ ∧ _))

section Trimming

theorem trimEnd_append_fillers {r : List Text} (h : ∀ piece ∈ r, isFiller piece) (l : List Text) :
    trimEnd (l ++ r) = trimEnd l := by
  induction r using List.reverseRecOn with
  | nil => rw [List.append_nil]
  | append_singleton r piece ih =>
    rw [← List.append_assoc, trimEnd_concat_filler (h piece (by simp))]
    exact ih fun filler hfiller => h filler (by simp [hfiller])

/-- Behind a list that is trimmed, the one step and the fillers around it go. -/
theorem trimEnd_dropLast_append {l r : List Text} {step : Text} (hl : trimEnd l = l)
    (hr : r.filter (fun piece => !isFiller piece) = [step]) :
    trimEnd (trimEnd (l ++ r)).dropLast = l := by
  obtain ⟨before, after, rfl, hbefore, hstep, hafter⟩ := List.filter_eq_cons_iff.1 hr
  have hsplit : l ++ (before ++ step :: after) = (l ++ before ++ [step]) ++ after := by simp
  have hbefore : ∀ piece ∈ before, isFiller piece := by simpa using hbefore
  have hafter : ∀ piece ∈ after, isFiller piece := by simpa using hafter
  rw [hsplit, trimEnd_append_fillers hafter, trimEnd_concat (by simpa using hstep),
    List.dropLast_concat, trimEnd_append_fillers hbefore, hl]

end Trimming

/-- A text whose last piece is no filler. -/
def EndsInStep (s : Text) : Prop := ∃ last, (pieces s).getLast? = some last ∧ isFiller last = false

namespace EndsInStep

variable {s : Text}

theorem ne_nil (h : EndsInStep s) : s ≠ [] := by
  rintro rfl
  obtain ⟨last, hlast, hfiller⟩ := h
  rw [pieces_nil] at hlast
  cases hlast
  cases hfiller

theorem ne_dot (h : EndsInStep s) : s ≠ ['.'] := by
  rintro rfl
  obtain ⟨last, hlast, hfiller⟩ := h
  have hpieces : pieces ['.'] = [['.']] := by decide
  rw [hpieces] at hlast
  cases hlast
  cases hfiller

theorem getLast?_ne (h : EndsInStep s) : s.getLast? ≠ some '/' := by
  intro hslash
  obtain ⟨last, hlast, hfiller⟩ := h
  obtain ⟨s, rfl⟩ := List.getLast?_eq_some_iff.1 hslash
  rw [pieces_append_slash, pieces_nil, List.getLast?_concat] at hlast
  cases hlast
  cases hfiller

theorem append {front : Text} (hfront : front = [] ∨ front.getLast? = some '/') (h : EndsInStep s) :
    EndsInStep (front ++ s) := by
  rcases hfront with rfl | hslash
  · exact h
  · obtain ⟨last, hlast, hfiller⟩ := h
    obtain ⟨front, rfl⟩ := List.getLast?_eq_some_iff.1 hslash
    refine ⟨last, ?_, hfiller⟩
    rw [List.append_assoc, List.singleton_append, pieces_append_slash,
      List.getLast?_append_of_ne_nil _ (pieces_ne_nil s), hlast]

theorem trimEnd_pieces (h : EndsInStep s) : trimEnd (pieces s) = pieces s := by
  obtain ⟨last, hlast, hfiller⟩ := h
  obtain ⟨l, hl⟩ := List.getLast?_eq_some_iff.1 hlast
  rw [hl, trimEnd_concat hfiller]

end EndsInStep

/-- What a path starts from does not change its last piece, unless it is all of the path. -/
theorem endsInStep_split_iff (h : p.text ≠ ['.']) : EndsInStep p.split.2 ↔ EndsInStep p.text := by
  have hcons (first : Text) (s : Text) : (pieces (first ++ '/' :: s)).getLast? = (pieces s).getLast? := by
    rw [pieces_append_slash, List.getLast?_append_of_ne_nil _ (pieces_ne_nil s)]
  unfold EndsInStep
  rcases split_cases p with ⟨s, htext, hsplit⟩ | ⟨htext, -⟩ | ⟨s, htext, hsplit⟩ | ⟨-, hsplit⟩
  · rw [hsplit, htext, ← hcons [] s]
    rfl
  · exact absurd htext h
  · rw [hsplit, htext]
    dsimp only
    rw [← List.nil_append ('/' :: s), hcons [] s, ← hcons ['.'] s]
    rfl
  · rw [hsplit]

section
variable {s t step : Text}

/-- The parent is all that stands before the slash in front of the last step and its fillers. -/
theorem parent?_append_slash (hs : EndsInStep s) (ht : steps ⟨t⟩ = [step]) :
    parent? ⟨s ++ '/' :: t⟩ = some ⟨s⟩ := by
  have hstart : (split ⟨s ++ '/' :: t⟩).1 = (split ⟨s⟩).1 :=
    split_fst_eq_of_front_eq (front_append hs.ne_nil (Or.inr rfl))
  have hbody : (split ⟨s ++ '/' :: t⟩).2 = (split ⟨s⟩).2 ++ '/' :: t := by
    apply split_snd_eq_of_text_eq hstart
    rw [← List.append_assoc, ← split_eq_append ⟨s⟩]
  have hkept : kept ⟨s ++ '/' :: t⟩ = pieces (split ⟨s⟩).2 := by
    have hbody' : EndsInStep (split ⟨s⟩).2 := (endsInStep_split_iff (p := ⟨s⟩) hs.ne_dot).2 hs
    rw [kept, hbody, pieces_append_slash, trimEnd_dropLast_append hbody'.trimEnd_pieces ht]
  have hsteps : steps ⟨s ++ '/' :: t⟩ ≠ [] := by
    change (pieces (s ++ '/' :: t)).filter _ ≠ []
    rw [pieces_append_slash, List.filter_append]
    change _ ++ steps ⟨t⟩ ≠ []
    simp [ht]
  rw [parent?_of_steps_ne_nil hsteps, hkept, hstart, joinWith_pieces, ← split_eq_append]

theorem output_append_slash (hs : EndsInStep s) (ht : steps ⟨t⟩ = [step]) :
    output ⟨s ++ '/' :: t⟩ = ⟨s ++ '/' :: dockerfileName.text⟩ := by
  rw [output, parent?_append_slash hs ht]
  exact congrArg mk (text_join_of_getLast?_ne hs.ne_nil hs.getLast?_ne isAbsolute_dockerfileName)

end

/-- A path whose parent keeps something is that parent, a slash, and one step with its fillers. -/
theorem exists_eq_append_slash (h : p.steps ≠ []) (hkept : p.kept ≠ []) :
    ∃ s t step : Text, p = ⟨s ++ '/' :: t⟩ ∧ EndsInStep s ∧ steps ⟨t⟩ = [step] := by
  obtain ⟨r, hr, hpieces, htext⟩ := exists_text_eq_kept_append h hkept
  refine ⟨_, _, p.steps.getLast h, congrArg Path.mk htext, ?_, ?_⟩
  · have hstart : (split ⟨p.split.1 ++ joinWith ['/'] p.kept⟩).1 = p.split.1 :=
      split_fst_eq_of_front_eq (front_kept h)
    have hbody : (split ⟨p.split.1 ++ joinWith ['/'] p.kept⟩).2 = joinWith ['/'] p.kept :=
      split_snd_eq_of_text_eq hstart rfl
    have hdot : p.split.1 ++ joinWith ['/'] p.kept ≠ ['.'] := by
      intro hdot
      rw [hdot] at hbody
      exact joinWith_kept_ne_nil hkept hbody.symm
    apply (endsInStep_split_iff (p := ⟨p.split.1 ++ joinWith ['/'] p.kept⟩) hdot).1
    refine ⟨p.kept.getLast hkept, ?_, eq_false_of_ne_true (List.rdropWhile_last_not _ _ hkept)⟩
    rw [hbody, pieces_joinWith hkept fun piece => slash_notMem_kept,
      List.getLast?_eq_some_getLast hkept]
  · have hslash : ∀ piece ∈ r, '/' ∉ piece := by
      intro piece hpiece
      apply slash_notMem_of_mem_pieces (s := p.split.2)
      rw [hpieces]
      exact List.mem_append_right _ hpiece
    have hfront : p.kept.filter (fun piece => !isFiller piece) = p.steps.dropLast := by
      rw [kept, filter_trimEnd, filter_dropLast_trimEnd, ← steps_eq_filter_body]
    have hsteps : p.steps.dropLast ++ steps ⟨joinWith ['/'] r⟩ = p.steps := by
      rw [steps_joinWith hslash, ← hfront, ← List.filter_append, ← hpieces, ← steps_eq_filter_body]
    conv_rhs at hsteps => rw [← List.dropLast_append_getLast h]
    exact List.append_cancel_left hsteps

theorem exists_join_eq (directory : Path) :
    ∃ front : Text, (front = [] ∨ front.getLast? = some '/') ∧
      ∀ s : Text, isAbsolute ⟨s⟩ = false → directory.join ⟨s⟩ = ⟨front ++ s⟩ := by
  by_cases hopen : directory.text = [] ∨ directory.text.getLast? = some '/'
  · refine ⟨directory.text, hopen, fun s hs => ?_⟩
    unfold join
    rw [if_neg (by simp [hs]), if_pos (by simpa using hopen)]
  · obtain ⟨hne, hslash⟩ := not_or.1 hopen
    refine ⟨directory.text ++ ['/'], Or.inr List.getLast?_concat, fun s hs => ?_⟩
    rw [List.append_assoc, List.singleton_append]
    exact congrArg mk (text_join_of_getLast?_ne hne hslash hs)

/-- Behind a directory the output of a path is its output, behind the directory, unless the path has but
one step. -/
theorem output_join (directory : Path) (hraw : raw.isAbsolute = false) (h : raw.steps ≠ [])
    (hkept : raw.kept ≠ []) : (directory.join raw).output = directory.join raw.output := by
  obtain ⟨s, t, step, rfl, hs, ht⟩ := exists_eq_append_slash h hkept
  obtain ⟨front, hfront, hjoin⟩ := exists_join_eq directory
  have hrelative := (isAbsolute_output h).trans hraw
  rw [output_append_slash hs ht] at hrelative ⊢
  rw [hjoin _ hraw, hjoin _ hrelative, ← List.append_assoc, ← List.append_assoc,
    output_append_slash (hs.append hfront) ht]

theorem IsAccepted.of_join (h : (directory.join p).IsAccepted) : p.IsAccepted := by
  by_cases hp : p.isAbsolute
  · rwa [join, if_pos hp] at h
  · obtain ⟨front, -, hjoin⟩ := exists_join_eq directory
    rw [hjoin p.text (by simpa using hp)] at h
    obtain ⟨hnul, hshort⟩ := h
    rw [byteLength_append] at hshort
    exact ⟨fun hmem => hnul (List.mem_append_right _ hmem), by omega⟩

/-- The output of a path is accepted when the output of the path behind a directory is. -/
theorem IsAccepted.output_of_join (hsteps : raw.steps ≠ [])
    (h : (directory.join raw).output.IsAccepted) : raw.output.IsAccepted := by
  by_cases hraw : raw.isAbsolute
  · rwa [join, if_pos hraw] at h
  · by_cases hkept : raw.kept = []
    -- The output of a path of one step is the name of the Dockerfile, behind what the path starts from.
    · rw [output_of_steps_ne_nil hsteps, hkept]
      rcases split_cases raw with ⟨s, -, hsplit⟩ | ⟨-, hsplit⟩ | ⟨s, -, hsplit⟩ | ⟨-, hsplit⟩ <;>
        rw [hsplit] <;> dsimp only <;> decide
    · rw [output_join directory (by simpa using hraw) hsteps hkept] at h
      exact h.of_join

section Slashes

/-- The name `t` in the current directory, behind slashes in a row. -/
def slashed (n : ℕ) : Path := ⟨'.' :: (List.replicate n '/' ++ ['t'])⟩

theorem slashed_succ (n : ℕ) : (slashed (n + 1)).text = ['.'] ++ '/' :: (List.replicate n '/' ++ ['t']) :=
  rfl

theorem byteLength_slashed (n : ℕ) : byteLength (slashed n).text = n + 2 := by
  have hslashes : byteLength (List.replicate n '/' ++ ['t']) = n + 1 := by
    induction n with
    | zero => rfl
    | succ n ih =>
      rw [List.replicate_succ, List.cons_append, byteLength_cons, ih]
      change 1 + (n + 1) = _
      omega
  rw [slashed, byteLength_cons, hslashes]
  change 1 + (n + 1) = _
  omega

theorem isAbsolute_slashed (n : ℕ) : (slashed n).isAbsolute = false := rfl

theorem pieces_replicate_slash (n : ℕ) (s : Text) :
    pieces (List.replicate n '/' ++ s) = List.replicate n [] ++ pieces s := by
  induction n with
  | zero => rfl
  | succ n ih =>
    rw [List.replicate_succ, List.replicate_succ, List.cons_append, List.cons_append, ← ih]
    exact pieces_append_slash [] _

theorem filter_replicate_nil (n : ℕ) :
    (List.replicate n ([] : Text)).filter (fun piece => !isFiller piece) = [] := by
  simp [isFiller]

theorem pieces_slashed (n : ℕ) :
    pieces (slashed (n + 1)).text = (['.'] :: List.replicate n []) ++ [['t']] := by
  rw [slashed_succ, pieces_append_slash, pieces_replicate_slash]
  rfl

theorem steps_slashed (n : ℕ) : (slashed (n + 1)).steps = [['t']] := by
  rw [steps, pieces_slashed, List.cons_append, List.filter_cons_of_neg (by decide),
    List.filter_append, filter_replicate_nil]
  rfl

theorem components_slashed (n : ℕ) : (slashed (n + 1)).components = [.current, .name ['t']] := by
  rw [components_eq, steps_slashed]
  rfl

/-- The parent of the path is its `.`, without the slashes. -/
theorem text_output_slashed (n : ℕ) : (slashed (n + 1)).output.text = "./Dockerfile".toList := by
  have hbody : pieces (slashed (n + 1)).split.2 = List.replicate (n + 1) [] ++ [['t']] :=
    pieces_replicate_slash (n + 1) ['t']
  have hkept : (slashed (n + 1)).kept = [] := by
    rw [kept, hbody, trimEnd_concat (by decide), List.dropLast_concat, trimEnd_eq_nil_iff,
      filter_replicate_nil]
  rw [output_of_steps_ne_nil (by simp [steps_slashed]), hkept]
  rfl

theorem isAccepted_slashed {n : ℕ} (h : n + 2 < FileSystem.pathLimit) : (slashed n).IsAccepted := by
  refine ⟨?_, by rwa [byteLength_slashed]⟩
  simp [slashed]

theorem isAccepted_output_slashed (n : ℕ) : (slashed (n + 1)).output.IsAccepted := by
  rw [IsAccepted, text_output_slashed]
  decide

theorem not_isAccepted_join_slashed {n : ℕ} (hne : directory.text ≠ [])
    (hslash : directory.text.getLast? ≠ some '/')
    (h : FileSystem.pathLimit ≤ byteLength directory.text + n + 3) :
    ¬ (directory.join (slashed n)).IsAccepted := by
  rintro ⟨-, hshort⟩
  rw [text_join_of_getLast?_ne hne hslash (isAbsolute_slashed n), byteLength_append, byteLength_cons,
    byteLength_slashed] at hshort
  change _ + (1 + (n + 2)) < _ at hshort
  omega

end Slashes

end Stencil.Path
