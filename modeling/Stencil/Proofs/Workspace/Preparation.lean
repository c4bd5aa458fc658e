import Stencil.Proofs.Workspace.Containment

/-!
Emptying the workspace.

What is there is removed first, and the directories on the way of the root are made after that. If the
root goes up at its start only, then the directory that it leads to in the end is one of those that
are made, and nothing is in it. A root that goes up after a name can lead past the directories that
are made, to one that has been there.
-/

namespace Stencil.Workspace

open FileSystem

variable {w : Workspace} {fs fs' cleared : FileSystem} {l m : Location}
  {result : Except WorkspaceError Unit × FileSystem}

/-- What preparing the workspace comes to: what is there is removed, and directories are made on the
way of the root. -/
structure Prepared (w : Workspace) (fs cleared : FileSystem)
    (result : Except WorkspaceError Unit × FileSystem) : Prop where
  removed : ∃ done, Removed w.root fs (done, cleared)
  paved : Paved w.root cleared result.2
  ready : result.1 = .ok () → w.root ≠ .empty →
    cleared.pathExists w.root = false ∧ result.2.isDir w.root

/-- Where nothing is, directories are made. -/
lemma prepared_create {done : Except OsError Unit} (hr : Removed w.root fs (done, cleared))
    (hgone : cleared.pathExists w.root = false) : w.Prepared fs cleared
      ((cleared.createDirAll w.root).1.mapError (.io .create w.root),
        (cleared.createDirAll w.root).2) where
  removed := ⟨done, hr⟩
  paved := (createDirAll_furnished cleared w.root).paved
  ready h hne := by
    refine ⟨hgone, (createDirAll_furnished cleared w.root).isDir ?_ hne⟩
    cases hdone : (cleared.createDirAll w.root).1 with
    | error e => simp [hdone, Except.mapError] at h
    | ok _ => rfl

lemma exists_prepared (w : Workspace) (fs : FileSystem) :
    ∃ cleared, w.Prepared fs cleared (w.prepare fs) := by
  simp only [prepare, Output.perform_eq, Output.ofFiles]
  split
  · have hr := removeDirAll_removed fs w.root
    generalize fs.removeDirAll w.root = removal at hr ⊢
    obtain ⟨done, cleared⟩ := removal
    refine ⟨cleared, ?_⟩
    cases done with
    | error e => exact ⟨⟨_, hr⟩, .refl, fun h => by simp [Except.mapError] at h⟩
    | ok _ => exact prepared_create hr (hr.gone rfl)
  · next hno =>
    have hgone : fs.pathExists w.root = false := by simpa using hno
    have hr : Removed w.root fs (.ok (), fs) := ⟨.refl fs, id, fun _ => .inl rfl, fun _ => hgone⟩
    exact ⟨fs, prepared_create hr hgone⟩

namespace Prepared

/-- What is at no place of the root stays, unless a directory is made there on the way of the root. -/
lemma entry? (h : w.Prepared fs cleared result) (m : Location) :
    FileSystem.entry? result.2 m = fs.entry? m ∨ (∃ l, fs.place? w.root = some l ∧ l <+: m) ∨
      fs.entry? m = none ∧ FileSystem.entry? result.2 m = some .dir ∧
        ∃ c, c <+: w.root.segments ∧ result.2.lookup false ⟨c⟩ = .ok (m, .dir) := by
  obtain ⟨done, hr⟩ := h.removed
  rcases hr.outside m with hsame | hplace
  · have hnew := h.paved.new m
    rw [hsame] at hnew
    exact hnew.imp_right .inr
  · exact .inr (.inl hplace)

/-- **The root leads to an empty directory** that is made, at or below the place where it has led
before. -/
theorem standsAt (h : w.Prepared fs cleared (.ok (), fs')) (htree : fs.IsTree)
    (hroot : w.root ≠ .empty) (hclimb : w.root.climbsFirst) : ∃ l, w.StandsAt l fs' ∧
      fs'.lookup false w.root = .ok (l, .dir) ∧ ∀ l₀, fs.place? w.root = some l₀ → l₀ <+: l := by
  obtain ⟨done, hr⟩ := h.removed
  obtain ⟨hgone, hdir⟩ := h.ready rfl hroot
  have hne : fs' ≠ cleared := by
    rintro rfl
    simp [pathExists_of_isDir hdir] at hgone
  obtain ⟨a, b, m, hsegs, hup, hmissing, hmade, hfree, -⟩ :=
    h.paved.fresh (hr.isTree htree) hclimb hne
  obtain ⟨l, hl⟩ := isDir_iff.mp hdir
  obtain ⟨htext, hl⟩ := lookup_eq_ok_iff.mp hl
  have hmade' := hmade.following (by simp)
  rw [hsegs] at hl
  -- the root leads to the directory that is made first, or below it
  obtain ⟨hml, hstay⟩ : m <+: l ∧ fs'.Leads false linkLimit (FileSystem.origin fs'.cwd w.root)
      (a ++ b) (.found l .dir) := by
    by_cases hb : b = []
    · rw [hb, List.append_nil] at hl ⊢
      obtain ⟨rfl, -⟩ := Reached.found.inj (hl.unique hmade')
      exact ⟨List.prefix_rfl, hmade⟩
    · obtain ⟨hml, hany⟩ := hmade'.append_stays_below hl hb hfree hup
      exact ⟨hml, hany false⟩
  rw [← hsegs] at hl
  refine ⟨l, ⟨hl.base, hfree.mono hml, hroot⟩, lookup_eq_ok_iff.mpr ⟨htext, hsegs ▸ hstay⟩,
    fun l₀ hl₀ => ?_⟩
  -- nothing has been where the first directory is made, or it was removed
  rcases hr.outside m with hsame | ⟨l₁, hl₁, hm⟩
  · rw [hmissing.entry?_eq_none] at hsame
    have hbefore := hmissing.missing_of_grows hr.grows hsame.symm
    obtain ⟨r, hr₀, rfl⟩ := exists_of_place? hl₀
    obtain ⟨-, hr₀⟩ := locate_eq_ok_iff.mp hr₀
    rw [hsegs, hr.grows.cwd] at hr₀
    rw [hbefore.eq_missing hr₀]
    exact hml
  · obtain rfl := Option.some.inj (hl₁.symm.trans hl₀)
    exact hm.trans hml

end Prepared

end Stencil.Workspace
