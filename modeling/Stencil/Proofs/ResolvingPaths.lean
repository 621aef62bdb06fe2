import Stencil.Proofs.Components
import Stencil.Proofs.WorldRuns

/-!
# Resolving paths

A path is resolved by putting the home in the place of a leading `~` and the current directory in front
of what is still relative. Neither changes what the path goes through, so the components of the result
are those of the parts, `..` among them. An absolute path is left as it is, whatever the surroundings.
-/

namespace Stencil

namespace Path

/-- The path that a path stands for when the home is known. -/
def expanded (p home : Path) : Path :=
  match p.belowHome? with
  | none => p
  | some rest => home.join rest

variable {raw home directory : Path}

theorem text_ne_nil_of_isAbsolute (h : directory.isAbsolute) : directory.text ≠ [] := by
  intro hnil
  rw [isAbsolute, hnil] at h
  cases h

theorem join_of_isAbsolute (h : raw.isAbsolute) : directory.join raw = raw := if_pos h

/-- Below an absolute directory every path is absolute. -/
theorem isAbsolute_join_of_directory (h : directory.isAbsolute) (p : Path) :
    (directory.join p).isAbsolute := by
  by_cases hp : p.isAbsolute
  · rwa [join_of_isAbsolute hp]
  · rwa [isAbsolute_join directory (by simpa using hp)]

theorem head?_components_of_isAbsolute (h : raw.isAbsolute) :
    raw.components.head? = some .root := by
  rw [components_eq]
  rcases front_cases raw with ⟨-, hfront⟩ | ⟨hrelative, -⟩
  · rw [hfront]
    rfl
  · rw [h] at hrelative
    cases hrelative

theorem belowHome?_of_head?_ne (h : raw.components.head? ≠ some (.name ['~'])) :
    raw.belowHome? = none := by
  rcases belowHome?_cases raw with ⟨rest, -, -, -, hcomponents⟩ | ⟨hnone, -⟩
  · rw [hcomponents] at h
    exact absurd rfl h
  · exact hnone

theorem belowHome?_of_isAbsolute (h : raw.isAbsolute) : raw.belowHome? = none := by
  apply belowHome?_of_head?_ne
  rw [head?_components_of_isAbsolute h]
  simp

theorem expanded_of_belowHome?_eq_none (h : raw.belowHome? = none) : raw.expanded home = raw := by
  rw [expanded, h]

theorem components_join_expanded {rest : List Component} (habsolute : directory.isAbsolute)
    (h : raw.components = .name ['~'] :: rest) :
    (directory.join (raw.expanded home)).components =
      (if home.isAbsolute then home.components
        else directory.components ++ withoutCurrent home.components) ++ rest := by
  rcases belowHome?_cases raw with ⟨q, hq, hrelative, hsteps, hcomponents⟩ | ⟨-, hhead⟩
  · have hrest : q.components = rest := (List.cons.inj (hcomponents.symm.trans h)).2
    have hexpanded : raw.expanded home = home.join q := by rw [expanded, hq]
    rw [hexpanded]
    -- Only a relative home stands below the directory, and only there its `.` in front drops out.
    split
    · next hhome =>
      rw [join_of_isAbsolute (isAbsolute_join_of_directory hhome q),
        components_join (text_ne_nil_of_isAbsolute hhome) hrelative,
        withoutCurrent_components hrelative, ← hsteps, hrest]
    · next hhome =>
      have hhome : home.isAbsolute = false := by simpa using hhome
      have hjoin : (home.join q).isAbsolute = false := by rw [isAbsolute_join home hrelative, hhome]
      rw [components_join (text_ne_nil_of_isAbsolute habsolute) hjoin,
        withoutCurrent_components hjoin, steps_join home hrelative, List.map_append, ← hsteps, hrest,
        withoutCurrent_components hhome, List.append_assoc]
  · rw [h] at hhead
    exact absurd rfl hhead

end Path

namespace World

variable {w : World} {home directory raw : Path}

theorem run_home {ε : Type} (w : World) :
    w.run (System.home : ExceptT ε (StateM World) (Option Path)) = (.ok w.home, w) := rfl

theorem run_currentDirectory (w : World) :
    w.run (ExceptT.mk System.currentDirectory) = (w.currentDirectory, w) := rfl

theorem run_expandHome (h : w.home = some home) (raw : Path) :
    w.run raw.expandHome = (.ok (raw.expanded home), w) := by
  unfold Path.expandHome Path.expanded
  cases raw.belowHome? with
  | none => rfl
  | some rest =>
    dsimp only
    rw [run_bind_ok (run_home w), h]
    rfl

/-- An absolute path is resolved to itself, without a look at the surroundings. -/
theorem run_resolve_of_isAbsolute (h : raw.isAbsolute) (w : World) :
    w.run raw.resolve = (.ok raw, w) := by
  unfold Path.resolve Path.expandHome
  rw [Path.belowHome?_of_isAbsolute h]
  dsimp only
  rw [run_bind_ok (run_pure w raw), if_pos h, run_pure]

theorem run_resolve (hhome : w.home = some home) (raw : Path) :
    w.run raw.resolve =
      if (raw.expanded home).isAbsolute then (.ok (raw.expanded home), w)
      else match w.directory with
        | some directory => (.ok (directory.join (raw.expanded home)), w)
        | none => (.error (.noCurrentDirectory .notFound), w) := by
  unfold Path.resolve
  rw [run_bind_ok (run_expandHome hhome raw)]
  split
  · rfl
  · rw [run_bind, run_adapt, run_currentDirectory, currentDirectory]
    cases w.directory <;> rfl

theorem run_resolve_of_directory (hhome : w.home = some home)
    (hdirectory : w.directory = some directory) (raw : Path) :
    w.run raw.resolve = (.ok (directory.join (raw.expanded home)), w) := by
  rw [run_resolve hhome, hdirectory]
  split
  · next habsolute => rw [Path.join_of_isAbsolute habsolute]
  · rfl

end World

namespace Path

/-- Resolving a path in an absolute current directory. The result is absolute. An absolute path is its
own result. A first component `~` gives way to the components of the home, with those of the current
directory in front of them when the home is relative, and what follows it stays; any other relative path
has its components behind those of the current directory. A `.` in front is dropped where something
stands before it, and nothing else is: a `..` stays. The result is resolved to itself in any
surroundings. Without a current directory those paths fail, and only those, that are still relative with
the home in the place of `~`. -/
theorem resolve_absolutises {w : World} {home directory : Path} (hhome : w.home = some home)
    (hdirectory : w.directory = some directory) (habsolute : directory.isAbsolute) (raw : Path) :
    ∃ p, w.run raw.resolve = (.ok p, w) ∧ p.isAbsolute ∧
      (raw.isAbsolute → p = raw) ∧
      (∀ rest, raw.components = .name ['~'] :: rest →
        p.components =
          (if home.isAbsolute then home.components
            else directory.components ++ withoutCurrent home.components) ++ rest) ∧
      (raw.isAbsolute = false → raw.components.head? ≠ some (.name ['~']) →
        p.components = directory.components ++ withoutCurrent raw.components) ∧
      (∀ v : World, v.run p.resolve = (.ok p, v)) ∧
      ∃ expanded, w.run raw.expandHome = (.ok expanded, w) ∧
        ∀ v : World, v.home = some home → v.directory = none →
          v.run raw.resolve =
            if expanded.isAbsolute then (.ok expanded, v)
            else (.error (.noCurrentDirectory .notFound), v) := by
  have hresult := isAbsolute_join_of_directory habsolute (raw.expanded home)
  refine ⟨directory.join (raw.expanded home), World.run_resolve_of_directory hhome hdirectory raw,
    hresult, ?_, fun rest => components_join_expanded habsolute, ?_,
    World.run_resolve_of_isAbsolute hresult, raw.expanded home, World.run_expandHome hhome raw, ?_⟩
  · intro hraw
    rw [expanded_of_belowHome?_eq_none (belowHome?_of_isAbsolute hraw), join_of_isAbsolute hraw]
  · intro hrelative hhead
    rw [expanded_of_belowHome?_eq_none (belowHome?_of_head?_ne hhead),
      components_join (text_ne_nil_of_isAbsolute habsolute) hrelative]
  · intro v hv hnone
    rw [World.run_resolve hv, hnone]

/-- Two slashes behind the `~` do not make a root, and a `..` stays below a home that is relative and
begins with a `.`. -/
theorem resolve_absolutises_below_relative_home :
    let raw : Path := ⟨"~//etc/../x".toList⟩
    let home : Path := ⟨"./h/".toList⟩
    let directory : Path := ⟨"/c/.".toList⟩
    let w : World := ⟨.empty, some directory, some home, [], [], []⟩
    let v : World := ⟨.empty, none, some home, [], [], []⟩
    directory.isAbsolute ∧
      ∃ p, w.run raw.resolve = (.ok p, w) ∧ p.isAbsolute ∧
        p.components =
          [.root, .name ['c'], .name ['h'], .name "etc".toList, .parent, .name ['x']] ∧
        v.run p.resolve = (.ok p, v) ∧
        v.run raw.resolve = (.error (.noCurrentDirectory .notFound), v) := by
  intro raw home directory w v
  have habsolute : directory.isAbsolute := by decide
  have hraw : raw.components =
      [.name ['~'], .name "etc".toList, .parent, .name ['x']] := by decide
  have hexpanded : w.run raw.expandHome = (.ok ⟨"./h/etc/../x".toList⟩, w) := rfl
  obtain ⟨p, hp, hresult, -, hhome, -, hagain, expanded, hexpands, hdeleted⟩ :=
    resolve_absolutises (w := w) rfl rfl habsolute raw
  rw [hexpanded] at hexpands
  cases hexpands
  exact ⟨habsolute, p, hp, hresult, hhome _ hraw, hagain v, hdeleted v rfl rfl⟩

end Path

end Stencil
