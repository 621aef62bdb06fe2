import Mathlib.Data.List.TakeWhile
import Stencil.Position
import Stencil.Report.SourceLine

/-!
# Lines of reports and lines of positions

A report and a position count the lines of a source by different rules. `ended` takes a text apart by
the rule of the report: the lines that have come to an end, and the beginning of the next. There are at
least as many as newlines, and as many exactly when the text ends its lines with newlines only; then
the position behind the text is the place in its last line. What stands behind a text decides nothing
about the lines that have ended in it, so a place in a source is in the line that the text before it
begins.
-/

namespace Stencil.SourceLine

/-- The lines of a text that have come to an end, and the beginning of the next one. -/
def ended : Text → List Text × Text
  | [] => ([], [])
  | '\r' :: '\n' :: s => (['\r', '\n'] :: (ended s).1, (ended s).2)
  | c :: s =>
    if isLineEnd c then ([c] :: (ended s).1, (ended s).2)
    else
      match ended s with
      | ([], left) => ([], c :: left)
      | (line :: lines, left) => ((c :: line) :: lines, left)

/-- No character but a newline ends a line, with or without a carriage return before it. -/
def OnlyNewlines : Text → Prop
  | [] => True
  | '\r' :: '\n' :: s => OnlyNewlines s
  | c :: s => (isLineEnd c → c = '\n') ∧ OnlyNewlines s

theorem ne_of_not_isLineEnd {c d : Char} (hc : ¬ isLineEnd c) (hd : isLineEnd d) : c ≠ d := by
  intro h
  exact hc (h ▸ hd)

theorem flatten_ended (s : Text) : (ended s).1.flatten ++ (ended s).2 = s := by
  fun_induction ended s with
  | case1 => rfl
  | case2 s ih => simp [ih]
  | case3 c s _ hc ih => simp [ih]
  | case4 c s _ hc left hs ih => simpa [hs] using ih
  | case5 c s _ hc line lines left hs ih => simpa [hs] using ih

theorem not_isLineEnd_of_mem_ended {s : Text} : ∀ c ∈ (ended s).2, ¬ isLineEnd c := by
  fun_induction ended s with
  | case1 => simp
  | case2 s ih => exact ih
  | case3 c s _ hc ih => exact ih
  | case4 c s _ hc left hs ih =>
    rw [hs] at ih
    exact List.forall_mem_cons.2 ⟨hc, ih⟩
  | case5 c s _ hc line lines left hs ih =>
    rw [hs] at ih
    exact ih

theorem count_newline_le (s : Text) : s.count '\n' ≤ (ended s).1.length := by
  fun_induction ended s with
  | case1 => simp
  | case2 s ih => simpa using ih
  | case3 c s _ hc ih =>
    simp only [List.count_cons, List.length_cons]
    split <;> omega
  | case4 c s _ hc left hs ih =>
    have hne : c ≠ '\n' := ne_of_not_isLineEnd hc rfl
    simpa [hs, hne] using ih
  | case5 c s _ hc line lines left hs ih =>
    have hne : c ≠ '\n' := ne_of_not_isLineEnd hc rfl
    simpa [hs, hne] using ih

theorem onlyNewlines_cons_iff {c : Char} {s : Text}
    (h : ∀ tail, c = '\r' → s = '\n' :: tail → False) :
    OnlyNewlines (c :: s) ↔ (isLineEnd c → c = '\n') ∧ OnlyNewlines s := by
  rw [OnlyNewlines]
  exact h

/-- A text has as many newlines as lines that have ended exactly when it has no other line ends. -/
theorem count_newline_eq_iff (s : Text) :
    s.count '\n' = (ended s).1.length ↔ OnlyNewlines s := by
  fun_induction ended s with
  | case1 => simp [OnlyNewlines]
  | case2 s ih => simpa [OnlyNewlines] using ih
  | case3 c s hcr hc ih =>
    have hle := count_newline_le s
    rw [onlyNewlines_cons_iff hcr, ← ih]
    by_cases hn : c = '\n'
    · simp [hn]
    · have hcount : (c :: s).count '\n' = s.count '\n' := by simp [hn]
      simp only [hcount, hc, hn, List.length_cons]
      constructor
      · intro h
        omega
      · intro h
        exact absurd (h.1 trivial) id
  | case4 c s hcr hc left hs ih =>
    have hne : c ≠ '\n' := ne_of_not_isLineEnd hc rfl
    rw [onlyNewlines_cons_iff hcr, ← ih, hs]
    simp [hc, hne]
  | case5 c s hcr hc line lines left hs ih =>
    have hne : c ≠ '\n' := ne_of_not_isLineEnd hc rfl
    rw [onlyNewlines_cons_iff hcr, ← ih, hs]
    simp [hc, hne]

theorem line_advance (p : Position) (s : Text) :
    (p.advance s).line = p.line + s.count '\n' := by
  induction s generalizing p with
  | nil => rfl
  | cons c s ih =>
    rw [Position.advance_cons, ih, Position.step]
    by_cases hc : c = '\n'
    · simp only [hc, if_true, List.count_cons_self]
      omega
    · simp [hc]

theorem column_advance {s : Text} (h : OnlyNewlines s) (p : Position) :
    (p.advance s).column =
      if (ended s).1 = [] then p.column + (ended s).2.length else (ended s).2.length + 1 := by
  fun_induction ended s generalizing p with
  | case1 => rfl
  | case2 s ih =>
    have hcolumn := ih h (⟨p.line + 1, 1⟩ : Position)
    change ((⟨p.line + 1, 1⟩ : Position).advance s).column = _
    rw [hcolumn, if_neg (List.cons_ne_nil _ _)]
    split
    · exact Nat.add_comm _ _
    · rfl
  | case3 c s hcr hc ih =>
    obtain ⟨hn, hs⟩ := (onlyNewlines_cons_iff hcr).1 h
    have hcolumn := ih hs (⟨p.line + 1, 1⟩ : Position)
    rw [Position.advance_cons, Position.step, if_pos (hn hc), hcolumn,
      if_neg (List.cons_ne_nil _ _)]
    split
    · exact Nat.add_comm _ _
    · rfl
  | case4 c s hcr hc left heq ih =>
    obtain ⟨-, hs⟩ := (onlyNewlines_cons_iff hcr).1 h
    have hne : c ≠ '\n' := ne_of_not_isLineEnd hc rfl
    rw [Position.advance_cons, Position.step, if_neg hne, ih hs, heq]
    simp only [if_true, List.length_cons]
    omega
  | case5 c s hcr hc line lines left heq ih =>
    obtain ⟨-, hs⟩ := (onlyNewlines_cons_iff hcr).1 h
    have hne : c ≠ '\n' := ne_of_not_isLineEnd hc rfl
    rw [Position.advance_cons, Position.step, if_neg hne, ih hs, heq]
    rfl

/-- The position behind a text, when the two rules agree on its lines. -/
theorem first_advance {s : Text} (h : OnlyNewlines s) :
    Position.first.advance s = ⟨(ended s).1.length + 1, (ended s).2.length + 1⟩ := by
  have hline := line_advance .first s
  have hcolumn := column_advance h .first
  rw [(count_newline_eq_iff s).2 h] at hline
  generalize Position.first.advance s = q at hline hcolumn ⊢
  obtain ⟨line, column⟩ := q
  have hright : column = (ended s).2.length + 1 := by
    rw [show column = _ from hcolumn]
    split
    · exact Nat.add_comm _ _
    · rfl
  rw [hright, show line = _ from hline, Nat.add_comm]
  rfl

theorem split_cons {c : Char} {s : Text} (h : c = '\r' → s.head? ≠ some '\n') :
    split (c :: s) =
      if isLineEnd c then [c] :: split s
      else
        match split s with
        | [] => [[c]]
        | line :: lines => (c :: line) :: lines := by
  have hnot : ∀ tail, c = '\r' → s = '\n' :: tail → False := by
    intro tail hc hs
    exact h hc (by rw [hs]; rfl)
  exact split.eq_3 c s hnot

/-- The lines of a text that have ended stay as they are whatever follows, as long as no line end is
cut in two. -/
theorem split_append {s rest : Text} (hrest : rest.head? ≠ some '\n') :
    split (s ++ rest) = (ended s).1 ++ split ((ended s).2 ++ rest) := by
  fun_induction ended s with
  | case1 => rfl
  | case2 s ih =>
    change ['\r', '\n'] :: split (s ++ rest) = _
    rw [ih]
    rfl
  | case3 c s hcr hc ih =>
    have hnot : c = '\r' → (s ++ rest).head? ≠ some '\n' := by
      intro hr hhead
      cases s with
      | nil => exact hrest hhead
      | cons d s => exact hcr s hr (by rw [(Option.some.inj hhead : d = '\n')])
    rw [List.cons_append, split_cons hnot, if_pos hc, ih]
    rfl
  | case4 c s hcr hc left heq ih =>
    have hnot : c ≠ '\r' := ne_of_not_isLineEnd hc rfl
    rw [heq] at ih
    rw [List.cons_append, split_cons fun h => absurd h hnot, ih, List.cons_append,
      split_cons fun h => absurd h hnot]
    rfl
  | case5 c s hcr hc line lines left heq ih =>
    have hnot : c ≠ '\r' := ne_of_not_isLineEnd hc rfl
    rw [heq] at ih
    rw [List.cons_append, split_cons fun h => absurd h hnot, ih, if_neg hc]
    rfl

/-- A stretch without a line end stands in the first line. -/
theorem split_append_of_noEnd {s : Text} (hne : s ≠ []) (hs : ∀ c ∈ s, ¬ isLineEnd c)
    (rest : Text) : ∃ more lines, split (s ++ rest) = (s ++ more) :: lines := by
  induction s with
  | nil => exact absurd rfl hne
  | cons c s ih =>
    obtain ⟨hc, hs⟩ := List.forall_mem_cons.1 hs
    have hnot : c ≠ '\r' := ne_of_not_isLineEnd hc rfl
    rw [List.cons_append, split_cons fun h => absurd h hnot, if_neg hc]
    by_cases hnil : s = []
    · subst hnil
      rw [List.nil_append]
      cases split rest with
      | nil => exact ⟨[], [], rfl⟩
      | cons line lines => exact ⟨line, lines, rfl⟩
    · obtain ⟨more, lines, h⟩ := ih hnil hs
      exact ⟨more, lines, by rw [h]; rfl⟩

/-- A line with its number and its place is cut out of the lines of a text. -/
theorem number_eq_append {index start : Nat} {lines : List Text} {above below : List SourceLine}
    {l : SourceLine} (h : number index start lines = above ++ l :: below) :
    ∃ us vs, lines = us ++ l.text :: vs ∧ l.index = index + us.length ∧
      l.start = start + us.flatten.length ∧ below = number (l.index + 1) l.stop vs := by
  induction lines generalizing index start above with
  | nil => cases above <;> cases h
  | cons line lines ih =>
    cases above with
    | nil =>
      obtain ⟨rfl, rfl⟩ := List.cons.inj h
      exact ⟨[], lines, rfl, rfl, rfl, rfl⟩
    | cons first above =>
      obtain ⟨us, vs, rfl, hindex, hstart, hbelow⟩ := ih (List.cons.inj h).2
      refine ⟨line :: us, vs, rfl, ?_, ?_, hbelow⟩
      · rw [hindex, List.length_cons]
        omega
      · rw [hstart, List.flatten_cons, List.length_append]
        omega

theorem number_append (index start : Nat) (us vs : List Text) :
    number index start (us ++ vs) =
      number index start us ++ number (index + us.length) (start + us.flatten.length) vs := by
  induction us generalizing index start with
  | nil => rfl
  | cons line us ih =>
    simp only [List.cons_append, number, ih, List.length_cons, List.flatten_cons,
      List.length_append, Nat.add_assoc, Nat.add_comm 1]

theorem start_le_of_mem_number {index start : Nat} {lines : List Text} {l : SourceLine}
    (h : l ∈ number index start lines) : l.start ≤ start + lines.flatten.length := by
  obtain ⟨above, below, heq⟩ := List.append_of_mem h
  obtain ⟨us, vs, rfl, -, hstart, -⟩ := number_eq_append heq
  rw [hstart, List.flatten_append, List.length_append]
  omega

/-- The line of a place: its lines before, its index and its start, and where it stops. -/
theorem at?_eq_some_iff {source : Text} {place : Nat} {l : SourceLine} :
    at? source place = some l ↔
      place ≤ source.length ∧ ∃ us vs, split source = us ++ l.text :: vs ∧ l.index = us.length ∧
        l.start = us.flatten.length ∧ l.start ≤ place ∧ (vs = [] ∨ place < l.stop) := by
  constructor
  · intro h
    unfold at? at h
    split at h
    · next hplace =>
      obtain ⟨above, habove⟩ := List.getLast?_eq_some_iff.1 h
      have hcut := List.takeWhile_append_dropWhile (p := (·.start ≤ place)) (l := all source)
      rw [habove, List.append_assoc, List.singleton_append] at hcut
      obtain ⟨us, vs, hsplit, hindex, hstart, hbelow⟩ := number_eq_append hcut.symm
      have hmem : l ∈ (all source).takeWhile (·.start ≤ place) := by
        rw [habove]
        simp
      have hle : l.start ≤ place := by simpa using List.mem_takeWhile_imp hmem
      refine ⟨hplace, us, vs, hsplit, by omega, by omega, hle, ?_⟩
      cases vs with
      | nil => exact Or.inl rfl
      | cons next vs =>
        have hhead := List.head?_dropWhile_not (·.start ≤ place) (all source)
        rw [hbelow] at hhead
        right
        simpa [number] using hhead
    · cases h
  · intro h
    obtain ⟨hplace, us, vs, hsplit, hindex, hstart, hle, hstop⟩ := h
    have hall : all source = number 0 0 us ++ l :: number (l.index + 1) l.stop vs := by
      rw [all, hsplit, number_append, number, Nat.zero_add, Nat.zero_add, ← hindex, ← hstart]
      rfl
    have habove : ∀ u ∈ number 0 0 us, decide (u.start ≤ place) = true := by
      intro u hu
      have hu' := start_le_of_mem_number hu
      exact decide_eq_true (by omega)
    have hbelow : (number (l.index + 1) l.stop vs).takeWhile (·.start ≤ place) = [] := by
      cases vs with
      | nil => rfl
      | cons next vs =>
        have hlt : place < l.stop := hstop.resolve_left (List.cons_ne_nil _ _)
        exact List.takeWhile_cons_of_neg (by simpa using hlt)
    rw [at?, if_pos hplace, hall, List.takeWhile_append_of_pos habove, List.takeWhile_cons, hbelow,
      if_pos (decide_eq_true hle)]
    exact List.getLast?_concat

/-- Lines stand in order: a later place is in the same line or in one with a larger index. -/
theorem index_lt_or_eq {source : Text} {p q : Nat} {k l : SourceLine} (hpq : p ≤ q)
    (hk : at? source p = some k) (hl : at? source q = some l) : k.index < l.index ∨ k = l := by
  obtain ⟨-, us, vs, hsplit, hindex, hstart, hle, -⟩ := at?_eq_some_iff.1 hk
  obtain ⟨-, us', vs', hsplit', hindex', hstart', -, hstop⟩ := at?_eq_some_iff.1 hl
  have heq_of_nil (hus : us' = us) (htext : k.text = l.text) : k = l := by
    obtain ⟨i, a, t⟩ := k
    obtain ⟨j, b, u⟩ := l
    subst hus
    simp only at hindex hindex' hstart hstart' htext
    rw [hindex, hindex', hstart, hstart', htext]
  rcases List.append_eq_append_iff.1 (hsplit.symm.trans hsplit') with
    ⟨more, hus, htail⟩ | ⟨more, hus, htail⟩
  · cases more with
    | nil => exact Or.inr (heq_of_nil (by simpa using hus) (List.cons.inj htail).1)
    | cons line more =>
      left
      rw [hindex, hindex', hus, List.length_append, List.length_cons]
      omega
  · cases more with
    | nil => exact Or.inr (heq_of_nil (by simpa using hus.symm) (List.cons.inj htail).1.symm)
    | cons line more =>
      -- The line of `q` would stop before the line of `p` starts.
      have htext : l.text = line := (List.cons.inj htail).1
      have hvs : vs' = more ++ k.text :: vs := (List.cons.inj htail).2
      have hlt : q < l.stop := hstop.resolve_left (by rw [hvs]; simp)
      have hstart_le : l.stop ≤ k.start := by
        rw [hstart, hus, stop, hstart', htext, List.flatten_append, List.length_append,
          List.flatten_cons, List.length_append]
        omega
      omega

/-- The line of the places in a stretch without a line end is the one that the text before it begins. -/
theorem at?_append {before middle : Text} (hne : middle ≠ []) (hmiddle : ∀ c ∈ middle, ¬ isLineEnd c)
    (after : Text) :
    ∃ more, ∀ place, before.length ≤ place → place < before.length + middle.length →
      at? (before ++ middle ++ after) place =
        some ⟨(ended before).1.length, (ended before).1.flatten.length,
          (ended before).2 ++ middle ++ more⟩ := by
  have hhead : (middle ++ after).head? ≠ some '\n' := by
    cases middle with
    | nil => exact absurd rfl hne
    | cons c middle =>
      intro h
      have hc : c = '\n' := Option.some.inj h
      exact hmiddle c List.mem_cons_self (by rw [hc]; decide)
  have hstretch : ∀ c ∈ (ended before).2 ++ middle, ¬ isLineEnd c := by
    intro c hc
    rcases List.mem_append.1 hc with h | h
    · exact not_isLineEnd_of_mem_ended c h
    · exact hmiddle c h
  have hne' : (ended before).2 ++ middle ≠ [] := by simp [hne]
  obtain ⟨more, lines, hsplit⟩ := split_append_of_noEnd hne' hstretch after
  have hlength := congrArg List.length (flatten_ended before)
  rw [List.length_append] at hlength
  refine ⟨more, ?_⟩
  intro place hle hlt
  refine at?_eq_some_iff.2 ⟨?_, (ended before).1, lines, ?_, rfl, rfl, ?_, Or.inr ?_⟩
  · simp only [List.length_append]
    omega
  · rw [List.append_assoc, split_append hhead, ← List.append_assoc, hsplit]
  · simp only
    omega
  · simp only [stop, List.length_append]
    omega

end Stencil.SourceLine
