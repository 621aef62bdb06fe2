import Mathlib.Tactic.TFAE
import Stencil.Proofs.ReplacementTexts
import Stencil.Proofs.Spelling

/-!
# Names of tables and names of templates

A table is refused for a name that is no identifier, and the lexer reads a placeholder only where an
identifier stands. The two agree on every text: what may be a name of a table is what the lexer reads
back from its two spellings as one placeholder. So no template asks for a name that no table can have,
and what a table has can be asked for in both spellings.
-/

namespace Stencil

namespace Table

/-- A table is refused exactly when some name of it is no identifier. -/
theorem exists_ofMap_eq_ok_iff {name description : Option Text}
    {entries : Std.ExtTreeMap Text Text} :
    (∃ table, ofMap name description entries = .ok table) ↔
      ∀ k ∈ entries, isIdentifier k = true := by
  constructor
  · intro h k hk
    obtain ⟨table, htable⟩ := h
    apply table.isIdentifier_of_mem
    rwa [entries_of_ofMap htable]
  · intro hnames
    unfold ofMap
    split
    · next bad hbad =>
      have hmem : bad ∈ entries := Std.ExtTreeMap.mem_keys.1 (List.mem_of_find?_eq_some hbad)
      have hnot := List.find?_some hbad
      rw [hnames bad hmem] at hnot
      cases hnot
    · exact ⟨_, rfl⟩

theorem exists_ofEntries_eq_ok_iff {pairs : List (Text × Text)} :
    (∃ table, ofEntries pairs = .ok table) ↔ ∀ k ∈ pairs.map Prod.fst, isIdentifier k = true := by
  unfold ofEntries
  simp only [exists_ofMap_eq_ok_iff, Std.ExtTreeMap.mem_ofList, List.contains_iff_mem]

theorem exists_get?_of_mem_names {table : Table} {name : Text} (h : name ∈ table.names) :
    ∃ value, table.get? name = some value := by
  rcases table.get?_cases name with ⟨-, hvalue⟩ | ⟨hmissing, -⟩
  · exact hvalue
  · rw [mem_names_iff.1 h] at hmissing
    cases hmissing

theorem isIdentifier_of_mem_names {table : Table} {name : Text} (h : name ∈ table.names) :
    isIdentifier name = true :=
  table.isIdentifier_of_mem name (Std.ExtTreeMap.mem_keys.1 h)

end Table

namespace Token

/-- A token that may stand in a template is what the lexer reads from its spelling. -/
theorem lex_spelling_eq_iff {t : Token} :
    lex t.spelling = [⟨t, 0, byteLength t.spelling⟩] ↔ t.IsProper := by
  rw [lex_eq_readFrom]
  constructor
  · intro h
    have hmem : ⟨t, 0, byteLength t.spelling⟩ ∈ readFrom 0 t.spelling := by
      rw [h]
      exact List.mem_singleton_self _
    exact isProper_of_mem_readFrom hmem
  · intro h
    have hwell : WellFormed [t] := wellFormed_cons_iff.2 ⟨h, ends_nil t, wellFormed_nil⟩
    have hread := readFrom_spellAll hwell 0
    rw [spellAll_cons, spellAll_nil, List.append_nil] at hread
    rw [hread, byteLength_spelling, placeAll_cons, placeAll_nil, Nat.zero_add]

end Token

namespace Template

/-- A template that is one placeholder becomes the text of its name. -/
theorem fill_spelling {t : Token} {name value : Text} {table : Table}
    (ht : t.placeholder? = some name) (hvalue : table.get? name = some value) :
    fill ⟨t.spelling⟩ table = .ok value := by
  have hname : isIdentifier name = true := by
    apply table.isIdentifier_of_mem
    rw [Std.ExtTreeMap.mem_iff_isSome_getElem?]
    exact Option.isSome_of_eq_some hvalue
  have htoken := Token.placeholder?_eq_some_iff.1 ht
  have hproper : t.IsProper := by
    rcases htoken with rfl | rfl <;> exact hname
  have hparts : parts ⟨t.spelling⟩ table = [value].map .ok := by
    rw [parts, tokens, Token.lex_spelling_eq_iff.2 hproper]
    rcases htoken with rfl | rfl <;> simp [Token.Placed.fillAll, Token.Placed.fill, hvalue]
  have hfill := fill_of_parts_eq hparts
  rwa [List.flatten_singleton] at hfill

end Template

namespace Table

open Template (fill identifiers)

/-- Tables and templates have the same names. That a text is an identifier, that a table may have it
for a name, and that the lexer reads it back whole from a placeholder with braces, and from one
without, all come to the same. A table may have any name that a template asks for, and a template that
asks for a name of a table, in either spelling, is filled to the text of that name. -/
theorem names_agree :
    (∀ name value : Text, List.TFAE
      [ isIdentifier name = true,
        ∃ table, ofEntries [(name, value)] = .ok table,
        Token.lex (Token.braced name).spelling =
          [⟨.braced name, 0, byteLength (Token.braced name).spelling⟩],
        Token.lex (Token.named name).spelling =
          [⟨.named name, 0, byteLength (Token.named name).spelling⟩] ]) ∧
    (∀ source value : Text, ∀ name ∈ identifiers ⟨source⟩,
      ∃ table, ofEntries [(name, value)] = .ok table) ∧
    ∀ table : Table, ∀ name ∈ table.names, ∃ value, table.get? name = some value ∧
      fill ⟨(Token.braced name).spelling⟩ table = .ok value ∧
      fill ⟨(Token.named name).spelling⟩ table = .ok value := by
  have haccepts (name value : Text) :
      (∃ table, ofEntries [(name, value)] = .ok table) ↔ isIdentifier name = true := by
    rw [exists_ofEntries_eq_ok_iff]
    simp
  refine ⟨?_, ?_, ?_⟩
  · intro name value
    tfae_have 2 ↔ 1 := haccepts name value
    tfae_have 3 ↔ 1 := Token.lex_spelling_eq_iff
    tfae_have 4 ↔ 1 := Token.lex_spelling_eq_iff
    tfae_finish
  · intro source value name hname
    exact (haccepts name value).2 (Template.isIdentifier_of_mem_identifiers hname)
  · intro table name hname
    obtain ⟨value, hvalue⟩ := exists_get?_of_mem_names hname
    exact ⟨value, hvalue, Template.fill_spelling rfl hvalue, Template.fill_spelling rfl hvalue⟩

/-- An underscore may begin a name, and a digit may follow it. -/
theorem names_agree_on_underscore :
    ['_', '1'] ∈ identifiers ⟨['x', '@', '@', '_', '1']⟩ ∧
      ∃ table, ofEntries [(['_', '1'], ['y'])] = .ok table ∧ ['_', '1'] ∈ table.names ∧
        fill ⟨['@', '@', '_', '1']⟩ table = .ok ['y'] := by
  have hname : ['_', '1'] ∈ identifiers ⟨['x', '@', '@', '_', '1']⟩ := by decide +kernel
  obtain ⟨table, htable⟩ := names_agree.2.1 ['x', '@', '@', '_', '1'] ['y'] ['_', '1'] hname
  have hmem : ['_', '1'] ∈ table.names := by
    rw [mem_names_iff, contains_of_ofEntries htable]
    rfl
  obtain ⟨value, hvalue, -, hfill⟩ := names_agree.2.2 table ['_', '1'] hmem
  have hy : value = ['y'] := by
    unfold get? at hvalue
    rw [entries_of_ofMap htable] at hvalue
    exact (Option.some.inj hvalue).symm
  rw [hy] at hfill
  exact ⟨hname, table, htable, hmem, hfill⟩

end Table

end Stencil
