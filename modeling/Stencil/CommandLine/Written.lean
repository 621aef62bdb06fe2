import Mathlib.Data.List.Forall2
import Stencil.CommandLine.Arguments

/-!
# Command lines of a run

The same run can be asked for in many ways. The template, the check and the table come in any order, and
the options have a long and a short form. `Options.IsWritten` lists the command lines of a quiet run
without saying how they are read.
-/

namespace Stencil.CommandLine

/-- A text that is no option and not empty. -/
def IsPlain (s : Text) : Prop := s ≠ [] ∧ s.head? ≠ some '-'

instance (s : Text) : Decidable (IsPlain s) := inferInstanceAs (Decidable (_ ∧ _))

/-- What a command line is made of. -/
inductive Part where
  | template (text : Text)
  | check
  | table (file : Text)
  deriving DecidableEq, Repr

namespace Part

/-- The option of a part. The template has none. -/
def flag? : Part → Option Flag
  | template _ => none
  | check => some .check
  | table _ => some .table

@[simp] theorem flag?_template (text : Text) : (template text).flag? = none := rfl

@[simp] theorem flag?_check : check.flag? = some .check := rfl

@[simp] theorem flag?_table (file : Text) : (table file).flag? = some .table := rfl

theorem flag?_eq_check_iff {q : Part} : q.flag? = some .check ↔ q = check := by
  cases q <;> simp

theorem flag?_ne_verbose (q : Part) : q.flag? ≠ some .verbose := by
  cases q <;> simp

/-- The arguments that a part can be written with. -/
inductive IsWritten : Part → List Text → Prop
  | template {text : Text} (plain : IsPlain text) : IsWritten (template text) [text]
  | check : IsWritten check ["--check".toList]
  | checkLetter : IsWritten check ["-c".toList]
  | table {file : Text} (plain : IsPlain file) : IsWritten (table file) ["--table".toList, file]
  | tableLetter {file : Text} (plain : IsPlain file) : IsWritten (table file) ["-t".toList, file]

end Part

namespace Options

/-- The parts of a command line without the verbose option. -/
def parts (o : Options) : List Part :=
  .template o.template.text :: (if o.check then [.check] else []) ++
    (o.table.map fun file => .table file.text).toList

@[simp] theorem template_mem_parts {o : Options} {text : Text} :
    .template text ∈ o.parts ↔ text = o.template.text := by
  simp [parts]

@[simp] theorem check_mem_parts {o : Options} : .check ∈ o.parts ↔ o.check = true := by
  simp [parts]

@[simp] theorem table_mem_parts {o : Options} {file : Text} :
    .table file ∈ o.parts ↔ o.table = some ⟨file⟩ := by
  obtain ⟨template, table, check, verbose⟩ := o
  rcases table with _ | ⟨⟨text⟩⟩ <;> simp [parts, eq_comm]

theorem nodup_flag?_parts (o : Options) : (o.parts.map Part.flag?).Nodup := by
  obtain ⟨template, table, check, verbose⟩ := o
  cases table <;> cases check <;> simp [parts]

/-- Whether a command line asks for a quiet run with these options. -/
def IsWritten (o : Options) (arguments : List Text) : Prop :=
  o.verbose = false ∧ ∃ (parts : List Part) (groups : List (List Text)),
    parts.Perm o.parts ∧ List.Forall₂ Part.IsWritten parts groups ∧ arguments = groups.flatten

end Options

end Stencil.CommandLine
