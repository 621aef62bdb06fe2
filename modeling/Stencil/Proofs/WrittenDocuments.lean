import Mathlib.Data.List.Forall2
import Mathlib.Data.List.Nodup
import Stencil.Proofs.WrittenStrings
import Stencil.Toml.Document

/-!
# Written documents are read back

A written document is a sequence of lines: titles, pairs below them, and lines that say nothing. The
parser keeps a draft, which holds the sections that are complete and the pairs so far of the one
that is open; `InSection` is what a line is met with, a header or a pair leads from one such draft to
another, and what a whole document comes to follows by induction on its lines. Keys and values have the
places of their spans in the document, which nothing here depends on.
-/

namespace Stencil.Toml

/-- The entries have the given names, in that order, and nodes that stand for what the names have. -/
def Entries.Matches {α : Type} (R : Node → α → Prop) (es : Entries) (named : List (Text × α)) : Prop :=
  List.Forall₂ (fun e p => e.1.name = p.1 ∧ R e.2 p.2) es named

def Node.IsString (n : Node) (text : Text) : Prop := ∃ span, n = .string text span

/-- The node is a table of strings. -/
def Node.IsSection (n : Node) (pairs : List (Text × Text)) : Prop :=
  ∃ entries span, n = .table .header entries span ∧ Entries.Matches IsString entries pairs

namespace Entries

variable {α : Type} {R : Node → α → Prop} {es : Entries} {named : List (Text × α)}

theorem Matches.get?_eq_none {name : Text} (h : es.Matches R named)
    (hname : name ∉ named.map Prod.fst) : get? name es = none := by
  unfold get?
  rw [Option.map_eq_none_iff, List.find?_eq_none]
  induction h with
  | nil => simp
  | cons he _ ih =>
    simp only [List.map_cons, List.mem_cons, not_or] at hname
    intro e hmem
    rcases List.mem_cons.1 hmem with rfl | hmem
    · rw [he.1, beq_iff_eq]
      exact fun heq => hname.1 heq.symm
    · exact ih hname.2 e hmem

theorem Matches.concat {key : Key} {n : Node} {a : α} (h : es.Matches R named) (hn : R n a) :
    Matches R (es ++ [(key, n)]) (named ++ [(key.name, a)]) :=
  List.rel_append h (.cons ⟨rfl, hn⟩ .nil)

end Entries

namespace Writer

/-- The texts of written pairs. -/
def textsOf (pairs : List (Text × Written)) : List (Text × Text) :=
  pairs.map fun (key, w) => (key, w.text)

theorem map_fst_textsOf (written : List (Text × Written)) :
    (textsOf written).map Prod.fst = written.map Prod.fst := by
  rw [textsOf, List.map_map]
  rfl

namespace Line

variable (pairs : List (Text × Written)) (lines : List Line)

theorem leadingPairs_map_pair_append :
    leadingPairs (pairs.map (fun (key, value) => pair key value) ++ lines) =
      textsOf pairs ++ leadingPairs lines := by
  induction pairs with
  | nil => rfl
  | cons p pairs ih =>
    rw [List.map_cons, List.cons_append, leadingPairs, ih]
    rfl

theorem sections_map_pair_append :
    sections (pairs.map (fun (key, value) => pair key value) ++ lines) = sections lines := by
  induction pairs with
  | nil => rfl
  | cons p pairs ih =>
    rw [List.map_cons, List.cons_append, sections]
    exact ih

theorem sections_ofSection_append (name : Text) :
    sections (ofSection name pairs ++ lines) =
      (name, textsOf pairs ++ leadingPairs lines) :: sections lines := by
  rw [ofSection, List.cons_append, sections, leadingPairs_map_pair_append, sections_map_pair_append]

end Line

end Writer

namespace Draft

/-- The draft has read `done`, and is in a section with the pairs so far. -/
structure InSection (d : Draft) (done : List (Text × List (Text × Text))) (title : Text)
    (pairs : List (Text × Text)) : Prop where
  root : d.root.Matches Node.IsSection done
  path : ∃ key : Key, d.opened.path = [key] ∧ key.name = title
  entries : d.opened.entries.Matches Node.IsString pairs

/-- The draft has read `done`, with the section that is still open. -/
def HasRead (d : Draft) (done : List (Text × List (Text × Text))) : Prop :=
  ∃ closed, d.close = .ok closed ∧ closed.root.Matches Node.IsSection done

variable {d : Draft} {done : List (Text × List (Text × Text))} {title : Text}
  {pairs : List (Text × Text)}

theorem hasRead_empty : HasRead .empty [] := ⟨_, rfl, .nil⟩

theorem visitParent_singleton {β : Type} [Inhabited β] {key : Key}
    {f : Key → Entries → Except Fault (β × Entries)} {es : Entries} :
    visitParent [key] f es = f key es := rfl

/-- A pair with a new key is added to the section that is open. -/
theorem InSection.addPair {key : Key} {n : Node} {value : Text} (h : d.InSection done title pairs)
    (hkey : key.name ∉ pairs.map Prod.fst) (hn : n.IsString value) :
    ∃ d', d.addPair [key] n = .ok d' ∧
      d'.InSection done title (pairs ++ [(key.name, value)]) := by
  have hnew := h.entries.get?_eq_none hkey
  refine ⟨_, by simp [Draft.addPair, Parser.splitLast, Entries.addDotted, hnew]; rfl, ?_⟩
  exact ⟨h.root, h.path, h.entries.concat hn⟩

/-- At its end a section with a new title is read. -/
theorem InSection.hasRead (h : d.InSection done title pairs) (htitle : title ∉ done.map Prod.fst) :
    d.HasRead (done ++ [(title, pairs)]) := by
  obtain ⟨key, hpath, rfl⟩ := h.path
  have hnew := h.root.get?_eq_none htitle
  refine ⟨_, by simp [close, hpath, visitParent_singleton, hnew]; rfl, ?_⟩
  exact h.root.concat ⟨_, _, rfl, h.entries⟩

/-- A header with a new title opens a section. -/
theorem HasRead.openTable {key : Key} (h : d.HasRead done) (hkey : key.name ∉ done.map Prod.fst)
    (span : Span) :
    ∃ d', d.openTable [key] span = .ok d' ∧ d'.InSection done key.name [] := by
  obtain ⟨closed, hclosed, hroot⟩ := h
  have hnew := hroot.get?_eq_none hkey
  refine ⟨{ closed with opened := ⟨[key], false, [], span⟩ }, ?_, hroot, ⟨key, rfl, rfl⟩, .nil⟩
  rw [Draft.openTable, hclosed]
  change Except.bind (visitParent [key] _ closed.root) _ = _
  rw [visitParent_singleton, hnew]
  rfl

end Draft

namespace Parser

open Writer (Written Line textsOf)

variable {rest : Text}

section Keys

/-- A key that is written without quotes. -/
def IsBareKey (k : Text) : Prop := k ≠ [] ∧ ∀ c ∈ k, isBareKeyChar c = true

instance : DecidablePred IsBareKey := fun k =>
  decidable_of_iff (k ≠ [] ∧ k.all isBareKeyChar) (and_congr_right' List.all_eq_true)

theorem takes_gap {b : Text} (hb : ∀ c ∈ b, isGap c = true)
    (hrest : ∀ c ∈ rest.head?, isGap c = false) : Takes gap b rest fun _ => True :=
  (takes_takeWhile hb hrest).bind_last fun _ _ => takes_pure trivial

theorem takes_no_gap (hrest : ∀ c ∈ rest.head?, isGap c = false) :
    Takes gap [] rest fun _ => True :=
  takes_gap (by simp) hrest

theorem isGap_of_mem_blank : ∀ c ∈ [' '], isGap c = true := by simp [isGap]

theorem not_quote_of_isBareKeyChar {c : Char} (h : isBareKeyChar c = true) :
    c ≠ '"' ∧ c ≠ '\'' := by
  constructor <;> rintro rfl <;> cases h

theorem takes_keyName {k : Text} (hk : IsBareKey k)
    (hrest : ∀ c ∈ rest.head?, isBareKeyChar c = false) : Takes keyName k rest (· = k) := by
  obtain ⟨hne, hchars⟩ := hk
  refine takes_next?.bind_look ?_
  rintro _ rfl
  cases k with
  | nil => exact absurd rfl hne
  | cons c k =>
    obtain ⟨hquote, hsingle⟩ := not_quote_of_isBareKeyChar (hchars c List.mem_cons_self)
    rw [List.cons_append, List.head?_cons]
    split
    · next h => exact absurd (Option.some.inj h) hquote
    · next h => exact absurd (Option.some.inj h) hsingle
    · exact takes_takeWhile1 hne hchars hrest

theorem takes_simpleKey {k : Text} (hk : IsBareKey k)
    (hrest : ∀ c ∈ rest.head?, isBareKeyChar c = false) :
    Takes simpleKey k rest fun key => key.name = k :=
  (takes_keyName hk hrest).withSpan.bind_last fun _ h => takes_pure h

theorem isBareKeyChar_eq_false_of_isGap {c : Char} (h : isGap c = true) :
    isBareKeyChar c = false := by
  simp only [isGap, Bool.or_eq_true, decide_eq_true_eq] at h
  rcases h with rfl | rfl <;> decide

theorem IsBareKey.head_not_gap {k : Text} (hk : IsBareKey k) :
    ∀ c ∈ (k ++ rest).head?, isGap c = false := by
  obtain ⟨hne, hchars⟩ := hk
  cases k with
  | nil => exact absurd rfl hne
  | cons c k =>
    intro d hd
    cases hd
    cases hgap : isGap c with
    | false => rfl
    | true =>
      rw [← hchars c List.mem_cons_self]
      exact isBareKeyChar_eq_false_of_isGap hgap

theorem takes_keyPart {k b : Text} {c : Char} (hk : IsBareKey k) (hb : ∀ c ∈ b, isGap c = true)
    (hgap : isGap c = false) (hbare : isBareKeyChar c = false) :
    Takes keyPart (k ++ b) (c :: rest) fun key => key.name = k := by
  have hfront : ∀ d ∈ (k ++ b ++ c :: rest).head?, isGap d = false := by
    rw [List.append_assoc]
    exact hk.head_not_gap
  have hbehind : ∀ d ∈ (b ++ c :: rest).head?, isBareKeyChar d = false := by
    cases b with
    | nil => simpa using hbare
    | cons d b => simpa using isBareKeyChar_eq_false_of_isGap (hb d List.mem_cons_self)
  refine (takes_no_gap hfront).bind_look fun _ _ => ?_
  refine (takes_simpleKey hk hbehind).bind fun key hkey => ?_
  exact (takes_gap hb (by simpa using hgap)).bind_last fun _ _ => takes_pure hkey

/-- A key of one name, with blanks behind it. -/
theorem takes_dottedKey {k b : Text} {c : Char} (hk : IsBareKey k) (hb : ∀ c ∈ b, isGap c = true)
    (hc : c = '=' ∨ c = ']') :
    Takes dottedKey (k ++ b) (c :: rest) fun keys => ∃ key, keys = [key] ∧ key.name = k := by
  have hgap : isGap c = false := by rcases hc with rfl | rfl <;> decide
  have hbare : isBareKeyChar c = false := by rcases hc with rfl | rfl <;> decide
  have hdot : c ≠ '.' := by rcases hc with rfl | rfl <;> decide
  have hend : Repeats (do char '.'; keyPart) (c :: rest) [] [] :=
    .nil (declines_char (by simpa using hdot)).bind
  have hall : Takes (separated1 (char '.') keyPart) (k ++ b) (c :: rest) fun keys =>
      ∃ key, keys = [key] ∧ key.name = k := by
    refine (takes_keyPart hk hb hgap hbare).bind_last fun key hkey => ?_
    refine hend.many.bind_last ?_
    rintro _ rfl
    exact takes_pure ⟨key, rfl, hkey⟩
  refine hall.inside.checked ?_
  rintro _ ⟨key, rfl, hkey⟩
  exact ⟨[key], rfl, key, rfl, hkey⟩

end Keys

section Pairs

theorem head?_render_append (w : Written) (rest : Text) :
    (w.render ++ rest).head? = some '"' ∨ (w.render ++ rest).head? = some '\'' := by
  unfold Written.render
  split
  · exact .inr rfl
  · exact .inl rfl

theorem takes_value (depth : Nat) (w : Written) (hrest : rest.head? = some '\n') :
    Takes (value depth) w.render rest fun n => n.IsString w.text := by
  have hstring : Takes (do return Node.string (← string)) w.render rest (· = Node.string w.text) := by
    refine (takes_string w hrest).bind_last ?_
    rintro _ rfl
    exact takes_pure rfl
  have hwith (nested : Option (Parser Node)) :
      Takes (valueWith nested) w.render rest fun n => n.IsString w.text := by
    refine Takes.bind_last (P := fun r => r.1 = Node.string w.text) ?_ ?_
    · refine Takes.withSpan (P := (· = Node.string w.text)) ?_
      refine takes_next?.bind_look ?_
      rintro _ rfl
      rcases head?_render_append w rest with h | h <;> rw [h] <;> exact hstring
    · rintro ⟨_, span⟩ rfl
      exact takes_pure ⟨span, rfl⟩
  cases depth with
  | zero => exact hwith none
  | succ depth => exact hwith (some (value depth))

theorem takes_restOfLine : Takes restOfLine ['\n'] rest fun _ => True := by
  have hcomment : Declines comment ('\n' :: rest) := (declines_char (by simp)).bind
  refine (takes_no_gap (by simp; decide)).bind_look fun _ _ => ?_
  refine hcomment.optional.bind_look fun _ _ => ?_
  exact takes_newline.either_left

/-- A line with a key and a value. -/
theorem takes_keyValue {k : Text} (hk : IsBareKey k) (w : Written) (depth : Nat) :
    Takes (keyValue (value depth) (expecting [.newline, .symbol "#"] restOfLine))
      (Writer.pairLine k w) rest fun r =>
        ∃ key, r.1 = [key] ∧ key.name = k ∧ r.2.IsString w.text := by
  have hline : Writer.pairLine k w = (k ++ [' ']) ++ (['='] ++ ([' '] ++ (w.render ++ ['\n']))) := by
    simp [Writer.pairLine]
  have hvalue : ∀ c ∈ (w.render ++ ['\n'] ++ rest).head?, isGap c = false := by
    rw [List.append_assoc]
    intro c hc
    rcases head?_render_append w (['\n'] ++ rest) with h | h <;> rw [h] at hc <;>
      cases hc <;> decide
  rw [hline]
  refine (takes_dottedKey hk isGap_of_mem_blank (.inl rfl)).bind ?_
  rintro _ ⟨key, rfl, hkey⟩
  refine Takes.bind_last (P := fun n => n.IsString w.text) ?_ ?_
  · apply Takes.commit
    refine (takes_char '=').expecting.bind fun _ _ => ?_
    refine (takes_gap isGap_of_mem_blank hvalue).bind fun _ _ => ?_
    refine (takes_value depth w rfl).bind fun n hn => ?_
    exact takes_restOfLine.expecting.bind_last fun _ _ => takes_pure hn
  · intro n hn
    exact takes_pure ⟨key, rfl, hkey, hn⟩

variable {d : Draft} {done : List (Text × List (Text × Text))} {title : Text}
  {pairs : List (Text × Text)}

/-- In a section, a line with a new key gives the section its pair. -/
theorem takes_pairLine {k : Text} (h : d.InSection done title pairs) (hk : IsBareKey k)
    (hnew : k ∉ pairs.map Prod.fst) (w : Written) :
    Takes (pairLine d) (Writer.pairLine k w) rest
      (Draft.InSection · done title (pairs ++ [(k, w.text)])) := by
  refine (takes_keyValue hk w (depthLimit - 1)).checked ?_
  rintro ⟨_, n⟩ ⟨key, rfl, rfl, hn⟩
  exact h.addPair hnew hn

theorem takes_header {title : Text} (htitle : IsBareKey title) (closing : String) :
    Takes (header ['['] [']'] closing) ('[' :: title ++ "]\n".toList) rest fun r =>
      ∃ key, r.1 = [key] ∧ key.name = title := by
  have hkeys : Takes (do
      literal ['[']
      let keys ← commit dottedKey
      expecting [.symbol ".", .symbol closing] (commit (literal [']']))
      return keys) (['['] ++ (title ++ [']'])) ('\n' :: rest) fun keys =>
        ∃ key, keys = [key] ∧ key.name = title := by
    refine (takes_literal ['[']).bind fun _ _ => ?_
    have hkey : Takes dottedKey (title ++ []) (']' :: '\n' :: rest) fun keys =>
        ∃ key, keys = [key] ∧ key.name = title :=
      takes_dottedKey htitle (by simp) (.inr rfl)
    rw [List.append_nil] at hkey
    refine hkey.commit.bind fun keys hkeys => ?_
    exact (takes_literal [']']).commit.expecting.bind_last fun _ _ => takes_pure hkeys
  have hline : '[' :: title ++ "]\n".toList = (['['] ++ (title ++ [']'])) ++ ['\n'] := by simp
  rw [hline]
  refine hkeys.withSpan.bind fun r hr => ?_
  exact takes_restOfLine.commit.expecting.bind_last fun _ _ => takes_pure hr

/-- A line with a new title, between brackets, opens the section. -/
theorem takes_tableLine (h : d.HasRead done) (htitle : IsBareKey title)
    (hnew : title ∉ done.map Prod.fst) :
    Takes (tableLine d) ('[' :: title ++ "]\n".toList) rest (Draft.InSection · done title []) := by
  refine (takes_header htitle "]").checked ?_
  rintro ⟨_, span⟩ ⟨key, rfl, rfl⟩
  exact h.openTable hnew span

theorem takes_headerLine (h : d.HasRead done) (htitle : IsBareKey title)
    (hnew : title ∉ done.map Prod.fst) :
    Takes (headerLine d) ('[' :: title ++ "]\n".toList) rest
      (Draft.InSection · done title []) := by
  have hline : Takes (tableLine d) ('[' :: title ++ "]\n".toList) rest
      (Draft.InSection · done title []) := takes_tableLine h htitle hnew
  apply Takes.inside
  refine takes_next?.bind_look ?_
  rintro _ rfl
  refine takes_second?.bind_look ?_
  rintro _ rfl
  cases title with
  | nil => exact absurd rfl htitle.1
  | cons c title =>
    -- a title does not begin with a bracket, so this is no header of an array of tables
    have hc : c ≠ '[' := by
      rintro rfl
      cases htitle.2 '[' List.mem_cons_self
    simp only [List.cons_append, List.head?_cons, List.tail_cons]
    exact hline

end Pairs

section Lines

variable {d : Draft} {done : List (Text × List (Text × Text))} {title text : Text}
  {pairs : List (Text × Text)} {P : Draft → Prop}

/-- The lines of the text lead from the draft to one with property `P` at the end of the document,
even if more of them are allowed than there are. -/
structure Leads (d : Draft) (text : Text) (P : Draft → Prop) : Prop where
  begins : ∀ c ∈ text.head?, isGap c = false
  takes : ∀ n, text.length ≤ n → Takes (lines n d) text [] P

theorem leads_nil (h : P d) : Leads d [] P := by
  refine ⟨by simp, fun n _ => ?_⟩
  cases n with
  | zero => exact takes_pure h
  | succ n =>
    refine takes_next?.bind_look ?_
    rintro _ rfl
    exact takes_pure h

/-- The parser goes on to the next line where the last one ended. -/
theorem Leads.takes_next {n : Nat} (h : Leads d text P) (hn : text.length ≤ n) :
    Takes (do gap; lines n d) text [] P := by
  refine (takes_no_gap ?_).bind_look fun _ _ => h.takes n hn
  rw [List.append_nil]
  exact h.begins

theorem leads_pairLine {k : Text} (h : d.InSection done title pairs) (hk : IsBareKey k)
    (hnew : k ∉ pairs.map Prod.fst) (w : Written)
    (hnext : ∀ d', d'.InSection done title (pairs ++ [(k, w.text)]) → Leads d' text P) :
    Leads d (Writer.pairLine k w ++ text) P := by
  have hbegins : ∀ c ∈ (Writer.pairLine k w ++ text).head?, isGap c = false := by
    simp only [Writer.pairLine, List.append_assoc]
    exact hk.head_not_gap
  refine ⟨hbegins, fun n hn => ?_⟩
  cases n with
  | zero => simp [Writer.pairLine] at hn
  | succ n =>
    have htext : text.length ≤ n := by
      simp [Writer.pairLine] at hn
      omega
    have hline : Takes (do let d ← commit (pairLine d); gap; lines n d)
        (Writer.pairLine k w ++ text) [] P := by
      refine Takes.bind (u := text) (takes_pairLine h hk hnew w).commit fun d' hd' => ?_
      exact (hnext d' hd').takes_next htext
    refine takes_next?.bind_look ?_
    rintro _ rfl
    cases k with
    | nil => exact absurd rfl hk.1
    | cons c k =>
      have hc : isBareKeyChar c = true := hk.2 c List.mem_cons_self
      have hhead : (Writer.pairLine (c :: k) w ++ text ++ []).head? = some c := rfl
      rw [hhead]
      split
      case h_6 => exact hline
      -- no key begins like a comment, a header or an empty line
      all_goals
        next h => cases h <;> cases hc

theorem leads_header (h : d.HasRead done) (htitle : IsBareKey title)
    (hnew : title ∉ done.map Prod.fst)
    (hnext : ∀ d', d'.InSection done title [] → Leads d' text P) :
    Leads d ('[' :: title ++ "]\n".toList ++ text) P := by
  refine ⟨by simp; decide, fun n hn => ?_⟩
  cases n with
  | zero => simp at hn
  | succ n =>
    refine takes_next?.bind_look ?_
    rintro _ rfl
    have htext : text.length ≤ n := by
      simp at hn
      omega
    refine Takes.bind (u := text) (takes_headerLine h htitle hnew).commit fun d' hd' => ?_
    exact (hnext d' hd').takes_next htext

theorem notMem_of_nodup {α : Type} {named before after : List (Text × α)} {name : Text} {a : α}
    (hsplit : named = before ++ (name, a) :: after) (h : (named.map Prod.fst).Nodup) :
    name ∉ before.map Prod.fst := by
  rw [hsplit, List.map_append, List.map_cons, List.nodup_middle, List.nodup_cons] at h
  exact fun hmem => h.1 (List.mem_append_left _ hmem)

theorem leads_empty (h : Leads d text P) : Leads d (Line.empty.render ++ text) P := by
  refine ⟨by simp [Line.render]; decide, fun n hn => ?_⟩
  cases n with
  | zero => cases hn
  | succ n =>
    refine takes_next?.bind_look ?_
    rintro _ rfl
    refine Takes.bind (u := text) takes_newline.optional ?_
    rintro _ ⟨_, rfl, -⟩
    exact h.takes_next (Nat.le_of_succ_le_succ hn)

theorem takes_commentLine {t : Text} (ht : ∀ c ∈ t, isCommentChar c = true) :
    Takes (do comment; lineEnd) (Line.comment t).render rest fun _ => True := by
  have hcomment : Takes comment (['#'] ++ t) (['\n'] ++ rest) fun _ => True := by
    refine (takes_char '#').bind fun _ _ => ?_
    exact (takes_takeWhile ht (by simp; decide)).bind_last fun _ _ => takes_pure trivial
  exact hcomment.bind fun _ _ => takes_newline.either_left

theorem leads_comment {t : Text} (ht : ∀ c ∈ t, isCommentChar c = true) (h : Leads d text P) :
    Leads d ((Line.comment t).render ++ text) P := by
  refine ⟨by simp [Line.render]; decide, fun n hn => ?_⟩
  cases n with
  | zero => cases hn
  | succ n =>
    have htext : text.length ≤ n := by
      simp [Line.render] at hn
      omega
    refine takes_next?.bind_look ?_
    rintro _ rfl
    refine Takes.bind (u := text) (takes_commentLine ht).commit fun _ _ => ?_
    exact h.takes_next htext

/-- Titles and keys are bare, and comments end with their line. -/
def IsProperLine : Line → Prop
  | .empty => True
  | .comment text => ∀ c ∈ text, isCommentChar c = true
  | .title name => IsBareKey name
  | .pair key _ => IsBareKey key

instance : DecidablePred IsProperLine
  | .empty => inferInstanceAs (Decidable True)
  | .comment _ => decidable_of_iff _ List.all_eq_true
  | .title name => inferInstanceAs (Decidable (IsBareKey name))
  | .pair key _ => inferInstanceAs (Decidable (IsBareKey key))

/-- No title stands twice, and no key stands twice below a title. -/
structure IsDistinct (said : List (Text × List (Text × Text))) : Prop where
  titles : (said.map Prod.fst).Nodup
  keys : ∀ s ∈ said, (s.2.map Prod.fst).Nodup

/-- The lines behind a title and some pairs. -/
theorem leads_lines {ls : List Line} (h : d.InSection done title pairs)
    (hproper : ∀ l ∈ ls, IsProperLine l)
    (hdistinct : IsDistinct (done ++ (title, pairs ++ Line.leadingPairs ls) :: Line.sections ls)) :
    Leads d (Line.renderAll ls)
      (Draft.HasRead · (done ++ (title, pairs ++ Line.leadingPairs ls) :: Line.sections ls)) := by
  induction ls generalizing d done title pairs with
  | nil =>
    refine leads_nil ?_
    have htitle : title ∉ done.map Prod.fst := notMem_of_nodup rfl hdistinct.titles
    rw [Line.leadingPairs, List.append_nil]
    exact h.hasRead htitle
  | cons l ls ih =>
    obtain ⟨hl, hls⟩ := List.forall_mem_cons.1 hproper
    cases l with
    | empty => exact leads_empty (ih h hls hdistinct)
    | comment t => exact leads_comment hl (ih h hls hdistinct)
    | title name =>
      have htitle : title ∉ done.map Prod.fst := notMem_of_nodup rfl hdistinct.titles
      have hmove : done ++ (title, pairs ++ Line.leadingPairs (.title name :: ls)) ::
          Line.sections (.title name :: ls) =
            (done ++ [(title, pairs)]) ++ (name, [] ++ Line.leadingPairs ls) :: Line.sections ls := by
        simp [Line.leadingPairs, Line.sections]
      rw [hmove] at hdistinct ⊢
      have hname := notMem_of_nodup rfl hdistinct.titles
      refine leads_header (h.hasRead htitle) hl hname fun d' hd' => ?_
      exact ih hd' hls hdistinct
    | pair k w =>
      have hkeys := hdistinct.keys _ (List.mem_append_right done List.mem_cons_self)
      have hnew : k ∉ pairs.map Prod.fst := notMem_of_nodup rfl hkeys
      have hmove : pairs ++ Line.leadingPairs (.pair k w :: ls) =
          pairs ++ [(k, w.text)] ++ Line.leadingPairs ls := by
        simp [Line.leadingPairs]
      rw [hmove] at hdistinct ⊢
      exact leads_pairLine h hl hnew w fun d' hd' => ih hd' hls hdistinct

/-- The lines of a document, of which the first that says something is a title. -/
theorem leads_sections {ls : List Line} (h : d.HasRead []) (hproper : ∀ l ∈ ls, IsProperLine l)
    (hbegins : Line.leadingPairs ls = []) (hdistinct : IsDistinct (Line.sections ls)) :
    Leads d (Line.renderAll ls) (Draft.HasRead · (Line.sections ls)) := by
  induction ls with
  | nil => exact leads_nil h
  | cons l ls ih =>
    obtain ⟨hl, hls⟩ := List.forall_mem_cons.1 hproper
    cases l with
    | empty => exact leads_empty (ih hls hbegins hdistinct)
    | comment t => exact leads_comment hl (ih hls hbegins hdistinct)
    | title name =>
      refine leads_header h hl (by simp) fun d' hd' => ?_
      rw [← List.nil_append (Line.sections _)] at hdistinct ⊢
      exact leads_lines hd' hls hdistinct
    | pair k w => cases hbegins

end Lines

section Documents

variable {ls : List Line}

theorem takes_atEnd : Takes atEnd [] [] fun _ => True := fun _ => ⟨(), rfl, trivial⟩

theorem takes_get : Takes get [] rest fun c => c.rest = rest := fun _ => ⟨_, rfl, rfl⟩

/-- No line begins with a byte order mark. -/
theorem head?_renderAll_ne (hproper : ∀ l ∈ ls, IsProperLine l) :
    (Line.renderAll ls).head? ≠ some '\uFEFF' := by
  cases ls with
  | nil => simp [Line.renderAll]
  | cons l ls =>
    have hl := hproper l List.mem_cons_self
    cases l with
    | empty => simp [Line.renderAll, Line.render]
    | comment t => simp [Line.renderAll, Line.render]
    | title name => simp [Line.renderAll, Line.render]
    | pair k w =>
      cases k with
      | nil => exact absurd rfl hl.1
      | cons c k =>
        intro hc
        cases hc
        cases hl.2 _ List.mem_cons_self

/-- The lines of a document are read to the end. -/
theorem takes_document (hproper : ∀ l ∈ ls, IsProperLine l) (hbegins : Line.leadingPairs ls = [])
    (hdistinct : IsDistinct (Line.sections ls)) :
    Takes document (Line.renderAll ls) [] (Draft.HasRead · (Line.sections ls)) := by
  have hleads := leads_sections Draft.hasRead_empty hproper hbegins hdistinct
  have hmark := head?_renderAll_ne hproper
  generalize Line.renderAll ls = text at *
  refine (declines_char (by simpa using hmark)).optional.bind_look fun _ _ => ?_
  refine (takes_no_gap (by simpa using hleads.begins)).bind_look fun _ _ => ?_
  refine takes_get.bind_look fun c hc => ?_
  refine (hleads.takes c.rest.length (by simp [hc])).bind_last fun d hd => ?_
  exact takes_atEnd.bind_last fun _ _ => takes_pure hd

end Documents

end Parser

/-- A document of proper lines is parsed to tables with their titles and texts. Empty lines and comments
leave no trace. -/
theorem exists_parse_lines {ls : List Writer.Line} (hproper : ∀ l ∈ ls, Parser.IsProperLine l)
    (hbegins : Writer.Line.leadingPairs ls = [])
    (hdistinct : Parser.IsDistinct (Writer.Line.sections ls)) :
    ∃ document, parse (Writer.Line.renderAll ls) = .ok document ∧
      document.entries.Matches Node.IsSection (Writer.Line.sections ls) := by
  obtain ⟨d, hd, closed, hclosed, hroot⟩ := Parser.takes_document hproper hbegins hdistinct 0
  rw [List.append_nil] at hd
  refine ⟨⟨closed.root, closed.rootSpan⟩, ?_, hroot⟩
  unfold parse
  rw [hd]
  simp only [hclosed]

end Stencil.Toml
