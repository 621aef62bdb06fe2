import Stencil.Proofs.Names
import Stencil.Proofs.WrittenDocuments
import Stencil.Table.Chapel
import Stencil.Table.Document

/-!
# Tables are loaded as they were written

A table can be built from its entries or written to a document and loaded from there. Both give the same
table: the form in which each text is written, and the order of the entries, leave no trace in it.
-/

namespace Stencil

theorem isBareKeyChar_of_isNamePart {c : Char} (h : isNamePart c = true) :
    Toml.Parser.isBareKeyChar c = true := by
  simp only [isNamePart, Toml.Parser.isBareKeyChar, Bool.or_eq_true, beq_iff_eq,
    decide_eq_true_eq] at h ⊢
  rcases h with h | h <;> simp [h]

/-- Every identifier can be written as a key without quotes. -/
theorem isBareKey_of_isIdentifier {name : Text} (h : isIdentifier name = true) :
    Toml.Parser.IsBareKey name := by
  cases name with
  | nil => cases h
  | cons c s =>
    rw [isIdentifier_cons, Bool.and_eq_true, List.all_eq_true] at h
    refine ⟨List.cons_ne_nil c s, fun d hd => ?_⟩
    rcases List.mem_cons.1 hd with rfl | hd
    · exact isBareKeyChar_of_isNamePart (isNamePart_of_isNameStart h.1)
    · exact isBareKeyChar_of_isNamePart (h.2 d hd)

namespace Table

open Toml (Node Entries)
open Toml.Writer (Line Written textsOf)

theorem mapM_textOf {entries : Entries} {pairs : List (Text × Text)}
    (h : entries.Matches Node.IsString pairs) :
    (entries.mapM fun (k, n) => do return (k.name, ← textOf k.span n)) = Except.ok pairs := by
  induction h with
  | nil => rfl
  | cons he _ ih =>
    obtain ⟨hname, place, hnode⟩ := he
    rw [List.mapM_cons, ih]
    simp only [hname, hnode]
    rfl

theorem substitutionsOf_of_isSection {key : Span} {n : Node} {pairs : List (Text × Text)}
    (h : n.IsSection pairs) : substitutionsOf key n = .ok pairs := by
  obtain ⟨entries, span, rfl, hentries⟩ := h
  exact mapM_textOf hentries

theorem foldlM_cons_of_eq_ok {ε α β : Type} {f : β → α → Except ε β} {a : α} {as : List α} {b b' : β}
    (h : f b a = .ok b') : (a :: as).foldlM f b = as.foldlM f b' := by
  rw [List.foldlM_cons, h]
  rfl

section Metadata

variable {m : Metadata} {e : Toml.Key × Node} {text : Text}

theorem Metadata.add_name (hk : e.1.name = "name".toList) (hn : e.2.IsString text) :
    m.add e = .ok { m with name := some text } := by
  obtain ⟨k, n⟩ := e
  obtain ⟨span, rfl⟩ := hn
  rw [Metadata.add, if_pos hk]
  rfl

theorem Metadata.add_description (hk : e.1.name = "description".toList) (hn : e.2.IsString text) :
    m.add e = .ok { m with description := some text } := by
  obtain ⟨k, n⟩ := e
  obtain ⟨span, rfl⟩ := hn
  have hname : k.name ≠ "name".toList := by
    rw [hk]
    decide
  rw [Metadata.add, if_neg hname, if_pos hk]
  rfl

theorem metadataOf_of_isSection {key : Span} {n : Node} {m : Toml.Writer.Metadata}
    (h : n.IsSection (textsOf m.pairs)) :
    metadataOf key n = .ok ⟨m.name.map Written.text, m.description.map Written.text⟩ := by
  obtain ⟨entries, span, rfl, hentries⟩ := h
  obtain ⟨name, description⟩ := m
  change Metadata.ofEntries entries = _
  unfold Metadata.ofEntries
  cases name with
  | none =>
    cases description with
    | none =>
      cases hentries
      rfl
    | some d =>
      obtain _ | ⟨hd, _ | _⟩ := hentries
      rw [foldlM_cons_of_eq_ok (Metadata.add_description hd.1 hd.2)]
      rfl
  | some w =>
    cases description with
    | none =>
      obtain _ | ⟨hw, _ | _⟩ := hentries
      rw [foldlM_cons_of_eq_ok (Metadata.add_name hw.1 hw.2)]
      rfl
    | some d =>
      obtain _ | ⟨hw, _ | ⟨hd, _ | _⟩⟩ := hentries
      rw [foldlM_cons_of_eq_ok (Metadata.add_name hw.1 hw.2),
        foldlM_cons_of_eq_ok (Metadata.add_description hd.1 hd.2)]
      rfl

end Metadata

section Contents

variable {c : Contents} {e : Toml.Key × Node}

theorem Contents.add_metadata {m : Toml.Writer.Metadata} (hk : e.1.name = "metadata".toList)
    (hn : e.2.IsSection (textsOf m.pairs)) :
    c.add e =
      .ok { c with metadata := ⟨m.name.map Written.text, m.description.map Written.text⟩ } := by
  obtain ⟨k, n⟩ := e
  rw [Contents.add, if_pos hk, metadataOf_of_isSection hn]
  rfl

theorem Contents.add_substitutions {pairs : List (Text × Text)}
    (hk : e.1.name = "substitutions".toList) (hn : e.2.IsSection pairs) :
    c.add e = .ok { c with substitutions := some pairs } := by
  obtain ⟨k, n⟩ := e
  have hmetadata : k.name ≠ "metadata".toList := by
    rw [hk]
    decide
  rw [Contents.add, if_neg hmetadata, if_pos hk, substitutionsOf_of_isSection hn]
  rfl

/-- What a table document says, section by section. -/
def said (metadata : Option Toml.Writer.Metadata) (pairs : List (Text × Text)) :
    List (Text × List (Text × Text)) :=
  metadata.toList.map (fun m => ("metadata".toList, textsOf m.pairs)) ++
    [("substitutions".toList, pairs)]

/-- What the sections of a table document say about the table. -/
theorem decode_of_matches {document : Toml.Document} {metadata : Option Toml.Writer.Metadata}
    {pairs : List (Text × Text)}
    (h : document.entries.Matches Node.IsSection (said metadata pairs)) :
    decode document =
      .ok (⟨metadata.bind fun m => m.name.map Written.text,
        metadata.bind fun m => m.description.map Written.text⟩, pairs) := by
  unfold decode contentsOf
  generalize document.entries = entries at *
  cases metadata with
  | none =>
    obtain _ | ⟨hpairs, _ | _⟩ := h
    rw [foldlM_cons_of_eq_ok (Contents.add_substitutions hpairs.1 hpairs.2)]
    rfl
  | some m =>
    obtain _ | ⟨hmetadata, _ | ⟨hpairs, _ | _⟩⟩ := h
    rw [foldlM_cons_of_eq_ok (Contents.add_metadata hmetadata.1 hmetadata.2),
      foldlM_cons_of_eq_ok (Contents.add_substitutions hpairs.1 hpairs.2)]
    rfl

end Contents

section Loading

variable {metadata : Option Toml.Writer.Metadata} {pairs : List (Text × Written)}

theorem sublist_keys_metadata (m : Toml.Writer.Metadata) :
    (m.pairs.map Prod.fst).Sublist ["name".toList, "description".toList] := by
  obtain ⟨name, description⟩ := m
  cases name <;> cases description <;> simp [Toml.Writer.Metadata.pairs]

theorem isDistinct_said {pairs : List (Text × Text)} (hdistinct : (pairs.map Prod.fst).Nodup) :
    Toml.Parser.IsDistinct (said metadata pairs) := by
  cases metadata with
  | none => exact ⟨by simp [said], by simpa [said] using hdistinct⟩
  | some m =>
    have hkeys : ((textsOf m.pairs).map Prod.fst).Nodup := by
      rw [Toml.Writer.map_fst_textsOf]
      exact (sublist_keys_metadata m).nodup (by decide)
    exact ⟨by simp [said], by simpa [said] using ⟨hkeys, hdistinct⟩⟩

/-- Lines that say what a table document says are a document of that table. -/
theorem ofDocument_renderAll {lines : List Line} {pairs : List (Text × Text)}
    (hproper : ∀ l ∈ lines, Toml.Parser.IsProperLine l) (hbegins : Line.leadingPairs lines = [])
    (hsaid : Line.sections lines = said metadata pairs) (hdistinct : (pairs.map Prod.fst).Nodup) :
    ofDocument (Line.renderAll lines) =
      ofMap (metadata.bind fun m => m.name.map Written.text)
        (metadata.bind fun m => m.description.map Written.text) (Std.ExtTreeMap.ofList pairs) := by
  obtain ⟨document, hparse, hentries⟩ :=
    Toml.exists_parse_lines hproper hbegins (hsaid ▸ isDistinct_said hdistinct)
  rw [hsaid] at hentries
  rw [ofDocument, hparse]
  simp only [decode_of_matches hentries]

theorem isProperLine_of_mem_ofSection {name : Text} (hname : isIdentifier name = true)
    (hnames : ∀ k ∈ pairs.map Prod.fst, isIdentifier k = true) :
    ∀ l ∈ Line.ofSection name pairs, Toml.Parser.IsProperLine l := by
  intro l hl
  rcases List.mem_cons.1 hl with rfl | hl
  · exact isBareKey_of_isIdentifier hname
  · obtain ⟨p, hp, rfl⟩ := List.mem_map.1 hl
    exact isBareKey_of_isIdentifier (hnames p.1 (List.mem_map_of_mem hp))

theorem isProperLine_of_mem_documentLines
    (hnames : ∀ k ∈ pairs.map Prod.fst, isIdentifier k = true) :
    ∀ l ∈ Toml.Writer.documentLines metadata pairs, Toml.Parser.IsProperLine l := by
  intro l hl
  rcases List.mem_append.1 hl with hl | hl
  · obtain ⟨m, -, hl⟩ := List.mem_flatMap.1 hl
    have hkeys : ∀ k ∈ ["name".toList, "description".toList], isIdentifier k = true := by decide
    exact isProperLine_of_mem_ofSection (by decide)
      (fun k hk => hkeys k ((sublist_keys_metadata m).subset hk)) l hl
  · exact isProperLine_of_mem_ofSection (by decide) hnames l hl

theorem sections_documentLines (metadata : Option Toml.Writer.Metadata)
    (pairs : List (Text × Written)) :
    Line.sections (Toml.Writer.documentLines metadata pairs) = said metadata (textsOf pairs) := by
  have hpairs : Line.sections (Line.ofSection "substitutions".toList pairs) =
      [("substitutions".toList, textsOf pairs)] := by
    have h := Line.sections_ofSection_append pairs [] "substitutions".toList
    rwa [List.append_nil, Line.leadingPairs, List.append_nil] at h
  cases metadata with
  | none => exact hpairs
  | some m =>
    change Line.sections (Line.ofSection "metadata".toList m.pairs ++ [] ++ _) = _
    rw [List.append_nil, Line.sections_ofSection_append, hpairs]
    simp [said, Line.ofSection, Line.leadingPairs]

/-- A written document says of its table what was written. -/
theorem ofDocument_eq_ofMap (metadata : Option Toml.Writer.Metadata)
    (hnames : ∀ k ∈ pairs.map Prod.fst, isIdentifier k = true)
    (hdistinct : (pairs.map Prod.fst).Nodup) :
    ofDocument (Toml.Writer.document metadata pairs) =
      ofMap (metadata.bind fun m => m.name.map Written.text)
        (metadata.bind fun m => m.description.map Written.text)
        (Std.ExtTreeMap.ofList (textsOf pairs)) := by
  have hbegins : Line.leadingPairs (Toml.Writer.documentLines metadata pairs) = [] := by
    cases metadata <;> rfl
  rw [← Toml.Writer.map_fst_textsOf] at hdistinct
  exact ofDocument_renderAll (isProperLine_of_mem_documentLines hnames) hbegins
    (sections_documentLines metadata pairs) hdistinct

theorem fields_of_ofMap {name description : Option Text} {entries : Std.ExtTreeMap Text Text}
    {table : Table} (h : ofMap name description entries = .ok table) :
    table.name = name ∧ table.description = description := by
  unfold ofMap at h
  split at h
  · cases h
  · cases h
    exact ⟨rfl, rfl⟩

/-- A table is what its fields make. -/
theorem ofMap_entries (t : Table) : ofMap t.name t.description t.entries = .ok t := by
  obtain ⟨t', ht'⟩ := exists_ofMap_eq_ok_iff.2 t.isIdentifier_of_mem
  obtain ⟨hname, hdescription⟩ := fields_of_ofMap ht'
  have hentries := entries_of_ofMap ht'
  rw [ht']
  cases t
  cases t'
  cases hname
  cases hdescription
  cases hentries
  rfl

/-- The document of the built-in table is accepted, and the built-in table is what it says. -/
theorem ofDocument_chapelDocument : ofDocument chapelDocument = .ok chapel := by
  have hproper : ∀ l ∈ chapelLines, Toml.Parser.IsProperLine l := by decide +kernel
  have hsaid : Line.sections chapelLines =
      said (some chapelMetadata) (Line.leadingPairs chapelBlocks) := rfl
  have hdistinct : ((Line.leadingPairs chapelBlocks).map Prod.fst).Nodup := by decide +kernel
  rw [chapelDocument, ofDocument_renderAll hproper rfl hsaid hdistinct]
  exact ofMap_entries chapel

/-- With distinct keys every pair counts. -/
theorem getElem?_ofList_of_nodup {entries : List (Text × Text)} {key value : Text}
    (hdistinct : (entries.map Prod.fst).Nodup) (hmem : (key, value) ∈ entries) :
    (Std.ExtTreeMap.ofList entries)[key]? = some value := by
  refine Std.ExtTreeMap.getElem?_ofList_of_mem Std.ReflCmp.compare_self ?_ hmem
  refine (List.pairwise_map.1 hdistinct).imp fun hne heq => ?_
  exact hne (Std.LawfulEqCmp.eq_of_compare heq)

theorem ofList_eq_of_perm {entries entries' : List (Text × Text)} (h : entries.Perm entries')
    (hdistinct : (entries.map Prod.fst).Nodup) :
    Std.ExtTreeMap.ofList entries = Std.ExtTreeMap.ofList entries' := by
  apply Std.ExtTreeMap.ext_getElem?
  intro key
  by_cases hkey : key ∈ entries.map Prod.fst
  · obtain ⟨⟨_, value⟩, hmem, rfl⟩ := List.mem_map.1 hkey
    have hdistinct' : (entries'.map Prod.fst).Nodup := (h.map Prod.fst).nodup hdistinct
    rw [getElem?_ofList_of_nodup hdistinct hmem,
      getElem?_ofList_of_nodup hdistinct' (h.mem_iff.1 hmem)]
  · have hkey' : key ∉ entries'.map Prod.fst := fun hmem => hkey ((h.map Prod.fst).mem_iff.2 hmem)
    rw [Std.ExtTreeMap.getElem?_ofList_of_contains_eq_false (by simpa using hkey),
      Std.ExtTreeMap.getElem?_ofList_of_contains_eq_false (by simpa using hkey')]

/-- A table is loaded from its document as it was written. Whatever the texts are, in whichever form
each of them is written and in whichever order the pairs stand, loading succeeds, the name and the
description are the ones given, and the entries are those of the table that is built from the same pairs:
each name has the text that was written for it. -/
theorem ofDocument_document (metadata : Option Toml.Writer.Metadata) (pairs : List (Text × Written))
    (entries : List (Text × Text)) (horder : entries.Perm (textsOf pairs))
    (hnames : ∀ k ∈ entries.map Prod.fst, isIdentifier k = true)
    (hdistinct : (entries.map Prod.fst).Nodup) :
    ∃ loaded built,
      ofDocument (Toml.Writer.document metadata pairs) = .ok loaded ∧
      ofEntries entries = .ok built ∧
      loaded.name = (metadata.bind fun m => m.name.map Written.text) ∧
      loaded.description = (metadata.bind fun m => m.description.map Written.text) ∧
      (∀ name, loaded.get? name = built.get? name) ∧
      loaded.names = built.names ∧ loaded.size = built.size ∧
      ∀ p ∈ entries, loaded.get? p.1 = some p.2 := by
  have hkeys : (entries.map Prod.fst).Perm (pairs.map Prod.fst) := by
    rw [← Toml.Writer.map_fst_textsOf]
    exact horder.map Prod.fst
  obtain ⟨built, hbuilt⟩ := exists_ofEntries_eq_ok_iff.2 hnames
  obtain ⟨loaded, hofMap⟩ : ∃ loaded,
      ofMap (metadata.bind fun m => m.name.map Written.text)
        (metadata.bind fun m => m.description.map Written.text)
        (Std.ExtTreeMap.ofList (textsOf pairs)) = .ok loaded := by
    rw [exists_ofMap_eq_ok_iff, ← ofList_eq_of_perm horder hdistinct, ← entries_of_ofMap hbuilt]
    exact built.isIdentifier_of_mem
  have hloaded := ofDocument_eq_ofMap metadata
    (fun k hk => hnames k (hkeys.mem_iff.2 hk)) (hkeys.nodup hdistinct)
  rw [hofMap] at hloaded
  have hsame : loaded.entries = built.entries := by
    rw [entries_of_ofMap hofMap, entries_of_ofMap hbuilt, ofList_eq_of_perm horder hdistinct]
  obtain ⟨hname, hdescription⟩ := fields_of_ofMap hofMap
  refine ⟨loaded, built, hloaded, hbuilt, hname, hdescription, ?_, ?_, ?_, ?_⟩
  · intro name
    rw [get?, get?, hsame]
  · rw [names, names, hsame]
  · rw [size, size, hsame]
  · intro p hp
    rw [get?, hsame, entries_of_ofMap hbuilt]
    exact getElem?_ofList_of_nodup hdistinct hp

/-- Two texts in the two forms, in a document with a name and no description. -/
theorem ofDocument_document_of_both_forms :
    ∃ loaded,
      ofDocument ("[metadata]\nname = \"\\\"\"\n[substitutions]\n".toList ++
        "b = '''\n\\@@'$\n'''\na = \"'''\\u0001\"\n".toList) = .ok loaded ∧
      loaded.name = some ['"'] ∧ loaded.description = none ∧
      loaded.get? ['a'] = some ['\'', '\'', '\'', '\x01'] ∧
      loaded.get? ['b'] = some ['\\', '@', '@', '\'', '$', '\n'] := by
  let a : Text × Text := (['a'], ['\'', '\'', '\'', '\x01'])
  let b : Text × Text := (['b'], ['\\', '@', '@', '\'', '$', '\n'])
  obtain ⟨loaded, -, hloaded, -, hname, hdescription, -, -, -, htexts⟩ :=
    ofDocument_document (some ⟨some ⟨['"'], false⟩, none⟩) [(b.1, ⟨b.2, true⟩), (a.1, ⟨a.2, false⟩)]
      [a, b] (.swap b a []) (by decide) (by decide)
  exact ⟨loaded, hloaded, hname, hdescription, htexts a (by simp), htexts b (by simp)⟩

end Loading

end Table

end Stencil
