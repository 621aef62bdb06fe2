import Stencil.CommandLine.Written

/-!
# Command lines are read as they are written

Reading takes a command line argument by argument, and the last option or template stays open until the
next argument comes. What a draft says is therefore told of the draft after its open argument has been
settled: it has taken in the parts read so far and nothing else. A part that is new adds itself to that,
in whichever way it is written, and so the whole command line is read as the options it is written for.
-/

namespace Stencil.CommandLine

namespace Draft

/-- A draft without an open argument that has taken in the given parts. -/
structure HasTaken (d : Draft) (parts : List Part) : Prop where
  pending : d.pending = none
  literal : d.literal = false
  given : ∀ f, f ∈ d.given ↔ ∃ q ∈ parts, q.flag? = some f
  template : ∀ text, d.template = some text ↔ .template text ∈ parts
  table : ∀ file, d.table = some file ↔ .table file ∈ parts

/-- A draft that says the given parts as soon as its open argument is settled, and that waits for no
value. -/
structure Says (d : Draft) (parts : List Part) : Prop where
  literal : d.literal = false
  complete : d.pending ≠ some (.table none)
  settled : ∃ d', d.settle = (d', none) ∧ d'.HasTaken parts

theorem settle_of_pending_none {d : Draft} (h : d.pending = none) : d.settle = (d, none) := by
  obtain ⟨given, templateGiven, table, template, pending, literal⟩ := d
  cases h
  rfl

theorem HasTaken.toSays {d : Draft} {parts : List Part} (h : d.HasTaken parts) : d.Says parts := by
  refine ⟨h.literal, ?_, d, settle_of_pending_none h.pending, h⟩
  rw [h.pending]
  simp

theorem says_empty : empty.Says [] := by
  apply HasTaken.toSays
  constructor <;> simp [empty]

/-- An option of no part so far has not been given. -/
theorem HasTaken.notMem_given {d : Draft} {parts : List Part} (h : d.HasTaken parts) {f : Flag}
    (hnew : some f ∉ parts.map Part.flag?) : f ∉ d.given := by
  rw [h.given]
  rintro ⟨q, hq, hflag⟩
  exact hnew (List.mem_map.2 ⟨q, hq, hflag⟩)

theorem HasTaken.addCheck {d : Draft} {parts : List Part} (h : d.HasTaken parts) :
    HasTaken { d with given := d.given ++ [.check] } (parts ++ [.check]) := by
  constructor
  · exact h.pending
  · exact h.literal
  · intro f
    simp [h.given, or_and_right, exists_or, @eq_comm _ f]
  · intro text
    simp [h.template]
  · intro file
    simp [h.table]

theorem HasTaken.addTemplate {d : Draft} {parts : List Part} (h : d.HasTaken parts)
    (hnew : none ∉ parts.map Part.flag?) (text : Text) :
    HasTaken { d with templateGiven := true, template := some text }
      (parts ++ [.template text]) := by
  have hnone : ∀ t, .template t ∉ parts := fun t ht => hnew (List.mem_map.2 ⟨_, ht, rfl⟩)
  constructor
  · exact h.pending
  · exact h.literal
  · intro f
    simp [h.given, or_and_right, exists_or]
  · intro t
    simp [hnone, eq_comm]
  · intro file
    simp [h.table]

theorem HasTaken.addTable {d : Draft} {parts : List Part} (h : d.HasTaken parts)
    (hnew : some .table ∉ parts.map Part.flag?) (file : Text) :
    HasTaken { d with given := d.given ++ [.table], table := some file }
      (parts ++ [.table file]) := by
  have hnone : ∀ t, .table t ∉ parts := fun t ht => hnew (List.mem_map.2 ⟨_, ht, rfl⟩)
  constructor
  · exact h.pending
  · exact h.literal
  · intro f
    simp [h.given, or_and_right, exists_or, @eq_comm _ f]
  · intro text
    simp [h.template]
  · intro t
    simp [hnone, eq_comm]

section
variable {d d' : Draft}

theorem giveTable_of_new {value : Text} (hnew : .table ∉ d.given) (hne : value ≠ []) :
    d.giveTable value = ({ d with given := d.given ++ [.table], table := some value }, none) := by
  simp [giveTable, give, hnew, hne]

theorem giveTable_template (d : Draft) (value : Text) :
    (d.giveTable value).1.template = d.template := by
  unfold giveTable give
  grind

theorem settle_of_pending_table (h : d.pending = none) (value : Text) :
    settle { d with pending := some (.table (some value)) } = d.giveTable value := by
  obtain ⟨given, templateGiven, table, template, pending, literal⟩ := d
  cases h
  rfl

theorem settle_of_pending_template (h : d.pending = none) {value : Text} (hne : value ≠ []) :
    settle { d with pending := some (.template value) } =
      ({ d with templateGiven := true, template := some value }, none) := by
  obtain ⟨given, templateGiven, table, template, pending, literal⟩ := d
  cases h
  exact if_neg hne

/-- Where no template has been taken in none is open either. -/
theorem template_eq_none_of_settle (h : d.settle = (d', none)) (hnone : d'.template = none) :
    d.template = none ∧ ∀ text, d.pending ≠ some (.template text) := by
  cases hpending : d.pending with
  | none =>
    rw [settle_of_pending_none hpending] at h
    cases h
    exact ⟨hnone, by simp⟩
  | some waiting =>
    cases waiting with
    | template text =>
      simp only [settle, hpending] at h
      split at h
      · cases h
      · cases h
        cases hnone
    | table value =>
      refine ⟨?_, by simp⟩
      cases value with
      | none =>
        simp only [settle, hpending] at h
        cases h
      | some value =>
        simp only [settle, hpending] at h
        have hkept := giveTable_template { d with pending := none } value
        rw [h, hnone] at hkept
        exact hkept.symm

/-- An option without a value that is new. -/
theorem flag_of_new {f : Flag} (h : d.settle = (d', none)) (hnew : f ∉ d'.given)
    (hhelp : f ≠ .help) : d.flag f = .ok { d' with given := d'.given ++ [f] } := by
  unfold flag
  rw [h]
  simp [accept, give, hnew, hhelp, bind, Except.bind]

theorem tableOption_none (h : d.settle = (d', none)) :
    d.tableOption none = .ok { d' with pending := some (.table none) } := by
  unfold tableOption
  rw [h]
  rfl

/-- A template where none is yet. -/
theorem plain_of_new (h : d.settle = (d', none)) (hnone : d'.template = none) (text : Text) :
    d.plain text = .ok { d' with pending := some (.template text) } := by
  obtain ⟨htemplate, hpending⟩ := template_eq_none_of_settle h hnone
  unfold plain
  rw [htemplate]
  split
  · next hsome => cases hsome
  · next hsome _ => exact absurd hsome (hpending _)
  · rw [h]
    rfl

end

section
variable {d : Draft}

/-- What an argument that is no option is read as. -/
theorem argument_of_isPlain (hliteral : d.literal = false) {text : Text} (h : IsPlain text) :
    d.argument text =
      match d.pending with
      | some (.table none) => .ok { d with pending := some (.table (some text)) }
      | _ => d.plain text := by
  obtain ⟨hne, hhead⟩ := h
  obtain ⟨c, s, rfl⟩ := List.exists_cons_of_ne_nil hne
  have hc : c ≠ '-' := by simpa using hhead
  unfold argument
  grind

/-- What the long form of an option is read as. -/
theorem argument_name (hliteral : d.literal = false) (f : Flag) :
    d.argument f.name = if f = .table then d.tableOption none else d.flag f := by
  unfold argument
  rw [hliteral]
  cases f <;> rfl

/-- What the short form of an option is read as. -/
theorem argument_letter (hliteral : d.literal = false) (f : Flag) :
    d.argument ['-', f.letter] = if f = .table then d.tableOption none else d.flag f := by
  unfold argument
  rw [hliteral]
  cases f with
  | table => rfl
  | check => exact bind_pure (d.flag .check)
  | verbose => exact bind_pure (d.flag .verbose)
  | help => exact bind_pure (d.flag .help)

end

section
variable {d : Draft} {parts : List Part}

/-- A check that is new. -/
theorem Says.flag_check (h : d.Says parts) (hnew : some .check ∉ parts.map Part.flag?) :
    ∃ d', d.flag .check = .ok d' ∧ d'.Says (parts ++ [.check]) := by
  obtain ⟨-, -, d', hsettle, htaken⟩ := h
  have hgiven := htaken.notMem_given hnew
  exact ⟨_, flag_of_new hsettle hgiven (by decide), htaken.addCheck.toSays⟩

/-- A template that is new. -/
theorem Says.plain (h : d.Says parts) (hnew : none ∉ parts.map Part.flag?) {text : Text}
    (hplain : IsPlain text) : ∃ d', d.plain text = .ok d' ∧ d'.Says (parts ++ [.template text]) := by
  obtain ⟨-, -, d', hsettle, htaken⟩ := h
  have hnone : d'.template = none := by
    rw [Option.eq_none_iff_forall_ne_some]
    intro t ht
    exact hnew (List.mem_map.2 ⟨_, (htaken.template t).1 ht, rfl⟩)
  exact ⟨_, plain_of_new hsettle hnone text, htaken.literal, by simp, _,
    settle_of_pending_template htaken.pending hplain.1, htaken.addTemplate hnew text⟩

/-- A table that is new, with its file behind it. -/
theorem Says.tableOption (h : d.Says parts) (hnew : some .table ∉ parts.map Part.flag?) {file : Text}
    (hplain : IsPlain file) :
    ∃ d', (d.tableOption none >>= fun d => d.argument file) = .ok d' ∧
      d'.Says (parts ++ [.table file]) := by
  obtain ⟨-, -, d', hsettle, htaken⟩ := h
  have hgiven := htaken.notMem_given hnew
  rw [tableOption_none hsettle]
  have hfile := argument_of_isPlain (d := { d' with pending := some (.table none) })
    htaken.literal hplain
  refine ⟨_, hfile, htaken.literal, by simp, _, ?_, htaken.addTable hnew file⟩
  have hsettled := settle_of_pending_table htaken.pending file
  rw [giveTable_of_new hgiven hplain.1] at hsettled
  exact hsettled

/-- Reading a part that is new adds it, in whichever way it is written. -/
theorem Says.read (h : d.Says parts) {q : Part} (hnew : q.flag? ∉ parts.map Part.flag?)
    {group : List Text} (hgroup : q.IsWritten group) :
    ∃ d', group.foldlM Draft.argument d = .ok d' ∧ d'.Says (parts ++ [q]) := by
  cases hgroup with
  | template hplain =>
    rw [List.foldlM_cons, argument_of_isPlain h.literal hplain]
    obtain ⟨d', hread, hdraft⟩ := h.plain hnew hplain
    have hopen := h.complete
    split
    · next hwaiting => exact absurd hwaiting hopen
    · exact ⟨d', by rw [hread]; rfl, hdraft⟩
  | check =>
    have hargument : d.argument "--check".toList = d.flag .check := argument_name h.literal .check
    obtain ⟨d', hread, hdraft⟩ := h.flag_check hnew
    rw [List.foldlM_cons, hargument, hread]
    exact ⟨d', rfl, hdraft⟩
  | checkLetter =>
    have hargument : d.argument "-c".toList = d.flag .check := argument_letter h.literal .check
    obtain ⟨d', hread, hdraft⟩ := h.flag_check hnew
    rw [List.foldlM_cons, hargument, hread]
    exact ⟨d', rfl, hdraft⟩
  | table hplain =>
    have hargument : d.argument "--table".toList = d.tableOption none :=
      argument_name h.literal .table
    rw [List.foldlM_cons, hargument]
    simpa using h.tableOption hnew hplain
  | tableLetter hplain =>
    have hargument : d.argument "-t".toList = d.tableOption none := argument_letter h.literal .table
    rw [List.foldlM_cons, hargument]
    simpa using h.tableOption hnew hplain

/-- Reading parts that are all new adds them one after the other. -/
theorem Says.readAll {d : Draft} {before parts : List Part} {groups : List (List Text)}
    (h : d.Says before) (hnew : ((before ++ parts).map Part.flag?).Nodup)
    (hgroups : List.Forall₂ Part.IsWritten parts groups) :
    ∃ d', groups.flatten.foldlM Draft.argument d = .ok d' ∧ d'.Says (before ++ parts) := by
  induction hgroups generalizing d before with
  | nil => exact ⟨d, rfl, by simpa using h⟩
  | @cons q group parts groups hgroup _ ih =>
    have hq : q.flag? ∉ before.map Part.flag? := by
      intro hmem
      rw [List.map_append, List.nodup_append] at hnew
      exact hnew.2.2 _ hmem _ (by simp) rfl
    obtain ⟨d₁, hread, hdraft⟩ := h.read hq hgroup
    obtain ⟨d₂, hrest, hall⟩ := ih hdraft (by simpa using hnew)
    refine ⟨d₂, ?_, by simpa using hall⟩
    rw [List.flatten_cons, List.foldlM_append, hread]
    exact hrest

end

/-- What a draft finishes with after the parts of a quiet run. -/
theorem Says.finish {d : Draft} {parts : List Part} (h : d.Says parts) {o : Options}
    (hquiet : o.verbose = false) (hparts : ∀ q, q ∈ parts ↔ q ∈ o.parts) :
    d.finish = .ok o := by
  obtain ⟨-, -, d', hsettle, htaken⟩ := h
  have htemplate : d'.template = some o.template.text := by
    rw [htaken.template, hparts, Options.template_mem_parts]
  have htable : d'.table.map Path.mk = o.table := by
    apply Option.ext
    rintro ⟨file⟩
    simp [htaken.table, hparts]
  have hcheck : .check ∈ d'.given ↔ o.check = true := by
    rw [htaken.given, ← Options.check_mem_parts, ← hparts]
    simp [Part.flag?_eq_check_iff]
  have hverbose : .verbose ∉ d'.given := by
    rw [htaken.given]
    rintro ⟨q, -, hflag⟩
    exact q.flag?_ne_verbose hflag
  unfold Draft.finish
  rw [hsettle]
  simp only [accept, bind, Except.bind, htemplate, htable, hcheck, hverbose, Bool.decide_eq_true,
    decide_false, ← hquiet]
  rfl

end Draft

namespace Options

/-- A command line that asks for a quiet run is read as that run. -/
theorem IsWritten.parse {o : Options} {arguments : List Text} (h : o.IsWritten arguments) :
    parse arguments = .ok (.run o) := by
  obtain ⟨hquiet, parts, groups, hperm, hgroups, rfl⟩ := h
  have hnew : (([] ++ parts).map Part.flag?).Nodup := (hperm.map _).nodup_iff.2 o.nodup_flag?_parts
  obtain ⟨d, hread, hdraft⟩ := Draft.says_empty.readAll hnew hgroups
  have hfinish := hdraft.finish hquiet fun q => hperm.mem_iff
  unfold CommandLine.parse
  simp only [hread, hfinish, bind, Except.bind]

end Options

end Stencil.CommandLine
