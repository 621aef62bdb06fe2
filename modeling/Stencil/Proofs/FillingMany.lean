import Stencil.Proofs.FillingFiles
import Stencil.Proofs.OutputPaths

/-!
# Filling many files

A request looks at the places on the way to its template, and writes one file. Requests that write
different files, and that do not pass the files of one another on the way to their templates, take no
notice of each other: each comes to what it would come to alone, and the files that are left are the same
in whatever order the requests are met.
-/

namespace Stencil

/-- A template to be filled, and the table to fill it with. -/
structure Request where
  template : Path
  table : Table

/-- Fills one template after the other, whatever becomes of each. -/
def Template.fillEach {m : Type → Type} [Monad m] [System m] (requests : List Request) :
    m (List (Except FillError Path)) :=
  requests.mapM fun r => (fillFile r.template r.table).run

namespace World

/-- What a request comes to in a world. -/
def outcome (w : World) (r : Request) : Except FillError Path :=
  (w.run (Template.fillFile r.template r.table)).1

/-- The world that a request leaves. -/
def after (w : World) (r : Request) : World := (w.run (Template.fillFile r.template r.table)).2

/-- What requests come to one after the other, and the world that they leave. -/
def fillEach (w : World) (requests : List Request) : List (Except FillError Path) × World :=
  (Template.fillEach requests : StateM World _) w

/-- A request neither writes the file at `l` nor passes it on the way to its template. -/
structure Spares (w : World) (r : Request) (l : Location) : Prop where
  output : w.locate r.template.output ≠ .ok l
  template : l ∉ w.trail r.template

/-- Requests that spare the files of one another. -/
def Independent (w : World) (r s : Request) : Prop :=
  (∀ l, w.locate s.template.output = .ok l → w.Spares r l) ∧
    ∀ l, w.locate r.template.output = .ok l → w.Spares s l

theorem Independent.symm {w : World} {r s : Request} (h : w.Independent r s) :
    w.Independent s r := ⟨h.2, h.1⟩

theorem fillEach_cons (w : World) (r : Request) (requests : List Request) :
    w.fillEach (r :: requests) =
      (w.outcome r :: ((w.after r).fillEach requests).1, ((w.after r).fillEach requests).2) := by
  unfold fillEach Template.fillEach
  rw [List.mapM_cons]
  rfl

/-- A request puts one file where its output leads, or leaves the world as it is. -/
theorem after_cases (w : World) (r : Request) :
    w.after r = w ∨
      ∃ l bytes, w.locate r.template.output = .ok l ∧ w.files.find? l ≠ some .directory ∧
        w.after r = w.put l bytes := by
  obtain ⟨l, bytes, hl, hfree, hrun⟩ | ⟨e, hrun⟩ := run_fillFile_cases w r.template r.table
  · exact Or.inr ⟨l, bytes, hl, hfree, congrArg Prod.snd hrun⟩
  · exact Or.inl (congrArg Prod.snd hrun)

section
variable {w : World} {k : Location} {p : Path}

theorem locate_put_of_notMem_trail (h : k ∉ w.trail p) (bytes : ByteArray) :
    (w.put k bytes).locate p = w.locate p := by
  change FileSystem.locate _ w.directory p = FileSystem.locate _ w.directory p
  unfold trail at h
  cases hroute : FileSystem.route w.directory p with
  | error e => rw [FileSystem.locate_of_route_error hroute, FileSystem.locate_of_route_error hroute]
  | ok pieces =>
    rw [hroute] at h
    rw [FileSystem.locate_of_route hroute, FileSystem.locate_of_route hroute]
    exact FileSystem.walk_put_of_notMem_trail h _

theorem mem_trail_of_locate {l : Location} (h : w.locate p = .ok l) : l ∈ w.trail p := by
  unfold locate at h
  unfold trail
  cases hroute : FileSystem.route w.directory p with
  | error e =>
    rw [FileSystem.locate_of_route_error hroute] at h
    cases h
  | ok pieces =>
    rw [FileSystem.locate_of_route hroute] at h
    exact FileSystem.mem_trail_of_walk h

theorem trail_put_of_notMem_trail (h : k ∉ w.trail p) (bytes : ByteArray) :
    (w.put k bytes).trail p = w.trail p := by
  have hdirectory : (w.put k bytes).directory = w.directory := rfl
  unfold trail at h ⊢
  rw [hdirectory]
  cases hroute : FileSystem.route w.directory p with
  | error e => rfl
  | ok pieces =>
    rw [hroute] at h
    exact FileSystem.trail_put_of_notMem_trail h _

/-- A file beside the way to another is not noticed by its reader. -/
theorem readText_put (h : k ∉ w.trail p) (bytes : ByteArray) :
    (w.put k bytes).readText p = w.readText p := by
  have hread : (w.put k bytes).read p = w.read p := by
    have hlocate := locate_put_of_notMem_trail h bytes
    cases hl : w.locate p with
    | error e =>
      unfold read
      rw [hlocate, hl]
      rfl
    | ok l =>
      have hne : l ≠ k := by
        rintro rfl
        exact h (mem_trail_of_locate hl)
      rw [read_of_locate hl, read_of_locate (hlocate.trans hl)]
      exact FileSystem.read_put_of_ne _ hne _
  unfold readText
  rw [hread]

/-- A file beside another is not noticed by its writer. -/
theorem write_put {bytes : ByteArray} (hlocate : (w.put k bytes).locate p = w.locate p)
    (hne : w.locate p ≠ .ok k) (bytes' : ByteArray) :
    (w.put k bytes).write p bytes' = (w.write p bytes').map (·.put k bytes) := by
  cases hl : w.locate p with
  | error e =>
    unfold write
    rw [hlocate, hl]
    rfl
  | ok l =>
    have hlk : l ≠ k := by
      rintro rfl
      exact hne hl
    rw [write_of_locate hl, write_of_locate (hlocate.trans hl)]
    change ((w.files.put k _).write l bytes').map _ = _
    rw [FileSystem.write_put_of_ne _ hlk]
    cases w.files.write l bytes' <;> rfl

/-- A template that can be read has its output where it had it, whatever file is written beside. -/
theorem locate_output_put {source : ByteArray} (h : w.Holds p source)
    (hfree : w.files.find? k ≠ some .directory) (bytes : ByteArray) :
    (w.put k bytes).locate p.output = w.locate p.output := by
  obtain ⟨l, hl, hfile⟩ := h
  rcases FileSystem.locate_output_of_file hl hfile with ⟨e, hrefused⟩ | ⟨j, hj⟩
  · exact (FileSystem.locate_of_route_error hrefused _).trans
      (FileSystem.locate_of_route_error hrefused _).symm
  · exact ((FileSystem.sameDirectories_put hfree bytes).locate hj).trans hj.symm

end

section
variable {w : World} {r s : Request} {k : Location}

/-- A file that a request spares makes no difference to it, and it makes none to the file. -/
theorem run_fillFile_put (h : w.Spares r k) (hfree : w.files.find? k ≠ some .directory)
    (bytes : ByteArray) :
    (w.put k bytes).outcome r = w.outcome r ∧ (w.put k bytes).after r = (w.after r).put k bytes := by
  have hput := readText_put h.template bytes
  unfold outcome after
  cases hread : w.readText r.template with
  | error cause =>
    rw [run_fillFile_of_unreadable hread, run_fillFile_of_unreadable (hput.trans hread)]
    exact ⟨rfl, rfl⟩
  | ok source =>
    cases hfill : Template.fill ⟨source⟩ r.table with
    | error errors =>
      rw [run_fillFile_of_unfillable hread hfill, run_fillFile_of_unfillable (hput.trans hread) hfill]
      exact ⟨rfl, rfl⟩
    | ok text =>
      rw [run_fillFile_of_fillable hread hfill, run_fillFile_of_fillable (hput.trans hread) hfill,
        run_writeOutput, run_writeOutput]
      have hlocate := locate_output_put (readText_eq_ok_iff.1 hread) hfree bytes
      rw [write_put hlocate h.output]
      cases w.write r.template.output (encodeText text) with
      | error cause => exact ⟨rfl, rfl⟩
      | ok w' => exact ⟨rfl, rfl⟩

theorem Spares.put {l : Location} (h : w.Spares r k) (hl : w.Spares r l)
    (hfree : w.files.find? l ≠ some .directory) (bytes : ByteArray) : (w.put l bytes).Spares r k := by
  constructor
  · intro hlocate
    exact h.output ((FileSystem.sameDirectories_put hfree bytes).symm.locate hlocate)
  · rw [trail_put_of_notMem_trail hl.template]
    exact h.template

/-- Requests that are independent of a third one are so after it as well. -/
theorem Independent.after {t : Request} (h : w.Independent r s) (hr : w.Independent t r)
    (hs : w.Independent t s) : (w.after t).Independent r s := by
  obtain hw | ⟨l, bytes, hl, hfree, hw⟩ := w.after_cases t
  · rw [hw]
    exact h
  · rw [hw]
    have hback : ∀ {p : Path} {k : Location}, (w.put l bytes).locate p = .ok k → w.locate p = .ok k :=
      fun hlocate => (FileSystem.sameDirectories_put hfree bytes).symm.locate hlocate
    constructor
    · intro k hk
      exact (h.1 k (hback hk)).put (hr.2 l hl) hfree bytes
    · intro k hk
      exact (h.2 k (hback hk)).put (hs.2 l hl) hfree bytes

theorem pairwise_after {requests : List Request} (h : (r :: requests).Pairwise w.Independent) :
    requests.Pairwise (w.after r).Independent := by
  obtain ⟨hr, hrest⟩ := List.pairwise_cons.1 h
  apply hrest.imp_of_mem
  intro s t hs ht hst
  exact hst.after (hr s hs) (hr t ht)

theorem outcome_after (h : w.Independent r s) : (w.after r).outcome s = w.outcome s := by
  obtain hw | ⟨l, bytes, hl, hfree, hw⟩ := w.after_cases r
  · rw [hw]
  · rw [hw]
    exact (run_fillFile_put (h.2 l hl) hfree bytes).1

theorem after_comm (h : w.Independent r s) : (w.after r).after s = (w.after s).after r := by
  obtain hr | ⟨l, bytes, hl, hfree, hr⟩ := w.after_cases r
  · obtain hs | ⟨k, bytes', hk, hfree', hs⟩ := w.after_cases s
    · rw [hr, hs, hr]
    · rw [hr, hs, (run_fillFile_put (h.1 k hk) hfree' bytes').2, hr]
  · rw [hr, (run_fillFile_put (h.2 l hl) hfree bytes).2]
    obtain hs | ⟨k, bytes', hk, hfree', hs⟩ := w.after_cases s
    · rw [hs, hr]
    · rw [hs, (run_fillFile_put (h.1 k hk) hfree' bytes').2, hr]
      have hne : l ≠ k := by
        rintro rfl
        exact (h.1 l hk).output hl
      unfold put
      simp only [FileSystem.put_comm _ hne]

end

/-- Each of several independent requests comes to what it comes to alone. -/
theorem fillEach_outcomes {w : World} {requests : List Request}
    (h : requests.Pairwise w.Independent) : (w.fillEach requests).1 = requests.map w.outcome := by
  induction requests generalizing w with
  | nil => rfl
  | cons r requests ih =>
    have hsame : requests.map (w.after r).outcome = requests.map w.outcome := by
      apply List.map_congr_left
      intro s hs
      exact outcome_after ((List.pairwise_cons.1 h).1 s hs)
    rw [fillEach_cons, ih (pairwise_after h), hsame, List.map_cons]

/-- Independent requests leave the same world in every order. -/
theorem fillEach_world_of_perm {w : World} {requests requests' : List Request}
    (hperm : requests.Perm requests') (h : requests.Pairwise w.Independent) :
    (w.fillEach requests).2 = (w.fillEach requests').2 := by
  induction hperm generalizing w with
  | nil => rfl
  | cons r hperm ih =>
    rw [fillEach_cons, fillEach_cons]
    exact ih (pairwise_after h)
  | swap r s requests =>
    have hsr := (List.pairwise_cons.1 h).1 r List.mem_cons_self
    simp only [fillEach_cons]
    rw [after_comm hsr]
  | trans hperm _ ih ih' =>
    have hmiddle := hperm.pairwise h fun hrs => hrs.symm
    exact (ih h).trans (ih' hmiddle)

/-- Independent requests come to the same in every order. Each of them comes to what it comes to alone,
and the world that is left is the same. -/
theorem fillEach_of_perm {w : World} {requests requests' : List Request}
    (h : requests.Pairwise w.Independent) (hperm : requests.Perm requests') :
    (w.fillEach requests).1 = requests.map w.outcome ∧
      (w.fillEach requests').1 = requests'.map w.outcome ∧
      (w.fillEach requests').2 = (w.fillEach requests).2 := by
  refine ⟨fillEach_outcomes h, fillEach_outcomes ?_, (fillEach_world_of_perm hperm h).symm⟩
  exact hperm.pairwise h fun hrs => hrs.symm

/-- A request for a template in the root and one for a Dockerfile that is its own template, in a directory
that is left and entered again on the way. -/
theorem fillEach_in_two_directories :
    let r : Request := ⟨⟨"/t".toList⟩, .empty⟩
    let s : Request := ⟨⟨"/b/../b/Dockerfile".toList⟩, .empty⟩
    let files := ((FileSystem.empty.put ["t".toList] (.file (encodeText "@@@@".toList))).makeDirectories
      ["b".toList]).put ["Dockerfile".toList, "b".toList] (.file (encodeText "@@@@@@@@".toList))
    let w : World := ⟨files, none, none, [], [], []⟩
    [r, s].Pairwise w.Independent ∧
      (w.fillEach [s, r]).1 = [w.outcome s, w.outcome r] ∧
      (w.fillEach [s, r]).2 = (w.fillEach [r, s]).2 := by
  intro r s files w
  have hr : w.locate r.template.output = .ok ["Dockerfile".toList] := by decide +kernel
  have hs : w.locate s.template.output = .ok ["Dockerfile".toList, "b".toList] := by decide +kernel
  have hsparesr : w.Spares r ["Dockerfile".toList, "b".toList] := by
    constructor
    · rw [hr]
      decide
    · decide +kernel
  have hsparess : w.Spares s ["Dockerfile".toList] := by
    constructor
    · rw [hs]
      decide
    · decide +kernel
  have hindependent : w.Independent r s := by
    constructor
    · intro l hl
      rw [hs] at hl
      cases hl
      exact hsparesr
    · intro l hl
      rw [hr] at hl
      cases hl
      exact hsparess
  have hpairwise : [r, s].Pairwise w.Independent := by
    simpa using hindependent
  obtain ⟨-, houtcomes, hworld⟩ := fillEach_of_perm hpairwise (List.Perm.swap s r [])
  exact ⟨hpairwise, houtcomes, hworld⟩

end World

end Stencil
