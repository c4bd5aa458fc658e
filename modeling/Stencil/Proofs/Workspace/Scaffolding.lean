import Stencil.Proofs.Except
import Stencil.Proofs.Files.Contents
import Stencil.Proofs.Workspace.Preparation
import Stencil.Scaffold

/-!
Scaffolding and the rest of the file system.

What scaffolding changes is at and below the root of the workspace, apart from directories that are
missing on the way to it. This needs a root that goes up at its start only. With another root, the
directories that are made for the workspace can bring back a path that led to nothing when the
workspace was to be emptied, and then the links in it are written through.
-/

namespace Stencil

open FileSystem

variable {r : Registry} {ids : IdSource} {a : Answers} {configDir : Path} {w : Workspace}
  {fs fs' : FileSystem} {l m : Location}

namespace Workspace

/-- The place is at or below the one that the root leads to, at the start, or else in the end. -/
def Covers (w : Workspace) (fs fs' : FileSystem) (m : Location) : Prop :=
  ∃ l, (fs.place? w.root).or (fs'.place? w.root) = some l ∧ l <+: m

/-- A directory that was missing on the way to the root. -/
structure MakesWay (w : Workspace) (fs fs' : FileSystem) (m : Location) : Prop where
  new : fs.entry? m = none
  made : fs'.entry? m = some .dir
  leads : ∃ c, c <+: w.root.segments ∧ fs'.lookup false ⟨c⟩ = .ok (m, .dir)

/-- Nothing changes but the workspace and the way to it. -/
def Confines (w : Workspace) (fs fs' : FileSystem) : Prop :=
  ∀ m, fs'.entry? m = fs.entry? m ∨ w.Covers fs fs' m ∨ w.MakesWay fs fs' m

lemma Confines.refl (w : Workspace) (fs : FileSystem) : w.Confines fs fs := fun _ => .inl rfl

lemma Prepared.confines {cleared : FileSystem} {result : Except WorkspaceError Unit × FileSystem}
    (h : w.Prepared fs cleared result) : w.Confines fs result.2 := by
  intro m
  refine (h.entry? m).imp_right (Or.imp ?_ ?_)
  · rintro ⟨l, hl, hm⟩
    exact ⟨l, by simp [hl], hm⟩
  · rintro ⟨hnew, hmade, hleads⟩
    exact ⟨hnew, hmade, hleads⟩

/-- What is filled in at a place that the root leads to is filled in in the workspace. -/
lemma Confines.fillsIn (h : w.Confines fs fs') {fs'' : FileSystem} (hf : FillsIn l fs' fs'')
    (hl : fs'.lookup false w.root = .ok (l, .dir))
    (hbefore : ∀ l₀, fs.place? w.root = some l₀ → l₀ <+: l) : w.Confines fs fs'' := by
  intro m
  have hplace := place?_of_lookup (lookup_grows hf.grows hl)
  by_cases hm : l <+: m
  · refine .inr (.inl ?_)
    cases h₀ : fs.place? w.root with
    | none => exact ⟨l, by simp [h₀, hplace], hm⟩
    | some l₀ => exact ⟨l₀, by simp [h₀], (hbefore l₀ h₀).trans hm⟩
  rw [hf.outside m hm]
  refine (h m).imp_right (Or.imp ?_ ?_)
  · rw [Covers, Covers, place?_of_lookup hl, hplace]
    exact id
  · rintro ⟨hnew, hmade, c, hc, hleads⟩
    exact ⟨hnew, hf.grows.dir hmade, c, hc, lookup_grows hf.grows hleads⟩

lemma checkFolders_eq_ok_iff {folders : List ResolvedFolder} :
    checkFolders folders = .ok () ↔ ∀ f ∈ folders, ∃ p, contained f.target = .ok p := by
  induction folders with
  | nil => simp [checkFolders, pure, Except.pure]
  | cons f folders ih =>
    rw [List.forall_mem_cons, ← ih]
    cases h : contained f.target with
    | error e => simp [checkFolders, h, bind, Except.bind]
    | ok p => simp [checkFolders, h, bind, Except.bind, pure, Except.pure]

end Workspace

/-- How scaffolding can end: without a resolved template, with a target that is refused, with a
workspace that cannot be emptied, or with what copying the folders comes to. -/
inductive Scaffolds (r : Registry) (ids : IdSource) (a : Answers) (configDir : Path) (w : Workspace)
    (fs : FileSystem) : Scaffolded → Prop
  | unresolved {e : ScaffoldError} (he : r.resolve ids a = .error e) :
    Scaffolds r ids a configDir w fs ⟨.error e, fs, []⟩
  | refused {resolved : ResolvedTemplate} {e : WorkspaceError}
    (hr : r.resolve ids a = .ok resolved)
    (he : Workspace.checkFolders resolved.folders = .error e) :
    Scaffolds r ids a configDir w fs ⟨.error (.workspace e), fs, []⟩
  | unprepared {resolved : ResolvedTemplate} {e : WorkspaceError} {fs' : FileSystem}
    (hr : r.resolve ids a = .ok resolved)
    (hc : Workspace.checkFolders resolved.folders = .ok ())
    (he : w.prepare fs = (.error e, fs')) :
    Scaffolds r ids a configDir w fs ⟨.error (.workspace e), fs', []⟩
  | copied {resolved : ResolvedTemplate} {fs' : FileSystem} {result : Except WorkspaceError Unit}
    {out : Output} (hr : r.resolve ids a = .ok resolved)
    (hc : Workspace.checkFolders resolved.folders = .ok ())
    (hp : w.prepare fs = (.ok (), fs'))
    (hcopy : w.copyFolders (sourceRoot configDir resolved.values) resolved.values resolved.folders
      (.ofFiles fs') = (result, out)) :
    Scaffolds r ids a configDir w fs ⟨(result.map fun _ => (resolved, out.written.reverse)).mapError
      .workspace, out.files, out.warnings.reverse⟩

lemma scaffold_scaffolds (r : Registry) (ids : IdSource) (a : Answers) (configDir : Path)
    (w : Workspace) (fs : FileSystem) :
    Scaffolds r ids a configDir w fs (scaffold r ids a configDir w fs) := by
  unfold scaffold
  split
  · next he => exact .unresolved he
  next resolved hr =>
  split
  · next he => exact .refused hr he
  next hc =>
  split
  · next he => exact .unprepared hr hc he
  next fs' hp =>
  generalize hcopy : w.copyFolders (sourceRoot configDir resolved.values) resolved.values
    resolved.folders (.ofFiles fs') = copied
  obtain ⟨result, out⟩ := copied
  have h := Scaffolds.copied hr hc hp hcopy
  simp only [Workspace.populate, hc, hcopy]
  cases result <;> exact h

/-- **Scaffolding stays in the workspace.** Whether or not it succeeds, nothing changes but what is at
or below the place of the root, and directories that were missing on the way there, provided that the
root goes up at its start only. All files that it lists are in the workspace. -/
theorem scaffold_confined (r : Registry) (ids : IdSource) (a : Answers) (configDir : Path)
    (w : Workspace) (fs : FileSystem) :
    (fs.IsTree → w.root ≠ .empty → w.root.climbsFirst →
      w.Confines fs (scaffold r ids a configDir w fs).files) ∧
    ∀ resolved files, (scaffold r ids a configDir w fs).result = .ok (resolved, files) →
      ∀ p ∈ files, ∃ q : Path, q.staysBelow ∧ p = w.root.join q := by
  have hends := scaffold_scaffolds r ids a configDir w fs
  generalize scaffold r ids a configDir w fs = done at hends ⊢
  cases hends with
  | unresolved => exact ⟨fun _ _ _ => .refl w fs, by simp⟩
  | refused => exact ⟨fun _ _ _ => .refl w fs, by simp⟩
  | unprepared hr hc he =>
    obtain ⟨cleared, hprep⟩ := w.exists_prepared fs
    rw [he] at hprep
    exact ⟨fun _ _ _ => hprep.confines, by simp⟩
  | @copied resolved fs' result out hr hc hp hcopy =>
    obtain ⟨cleared, hprep⟩ := w.exists_prepared fs
    rw [hp] at hprep
    have hkeeps : ∀ l, w.Keeps l (.ofFiles fs') out := fun l => by
      have h := Workspace.copyFolders_keeps (w := w) (l := l) (sourceRoot configDir resolved.values)
        resolved.values (Workspace.checkFolders_eq_ok_iff.mp hc) (.ofFiles fs')
      rwa [hcopy] at h
    refine ⟨fun htree hroot hclimb => ?_, fun resolved' files hok p hp => ?_⟩
    · obtain ⟨l, hstands, hl, hbefore⟩ := hprep.standsAt htree hroot hclimb
      exact hprep.confines.fillsIn ((hkeeps l).fills hstands) hl hbefore
    · cases result with
      | error e => simp [Except.map, Except.mapError] at hok
      | ok _ =>
        obtain ⟨-, rfl⟩ := Prod.mk.inj (Except.ok.inj hok)
        rcases (hkeeps []).holds p (List.mem_reverse.mp hp) with hmem | ⟨q, hq, rfl⟩
        · simp [Output.ofFiles] at hmem
        · exact ⟨q, hq.stays, rfl⟩

/-! ### A workspace with a link in it -/

/-- A template that copies one folder. -/
def copying (source target : String) : Registry := ⟨[⟨"t", "", [], [], [⟨source, target⟩]⟩]⟩

/-- The answers that choose this template. -/
def choosing : Answers := { Answers.empty with template? := some "t" }

/-- The workspace `ws` has a link `out` to a directory outside of it. -/
def linked : FileSystem :=
  ((((((⟨∅, []⟩ : FileSystem).put ["src"] .dir).put ["src", "f"] (.file "new".toUTF8 newFileMode)).put
    ["outside"] .dir).put ["outside", "f"] (.file "keep".toUTF8 newFileMode)).put
    ["ws"] .dir).put ["ws", "out"] (.link ⟨["..", "outside"]⟩)

/-- Scaffolding from the folder `src`, with the given root. -/
def scaffoldLinked (root : Path) : Scaffolded :=
  scaffold (copying "src" "out") (fun _ name => name) choosing .empty ⟨root⟩ linked

theorem scaffold_linked_confined : (⟨⟨["ws"]⟩⟩ : Workspace).Confines linked
      (scaffoldLinked ⟨["ws"]⟩).files ∧
    ∃ resolved file, (scaffoldLinked ⟨["ws"]⟩).result = .ok (resolved, [file]) ∧
      ∃ q : Path, q.staysBelow ∧ file = Path.join ⟨["ws"]⟩ q := by
  obtain ⟨hconfines, hfiles⟩ := scaffold_confined (copying "src" "out") (fun _ name => name) choosing .empty
    ⟨⟨["ws"]⟩⟩ linked
  have hone : (scaffoldLinked ⟨["ws"]⟩).result.toOption.any (·.2.length == 1) := by decide +kernel
  obtain ⟨⟨resolved, files⟩, hok, hlen⟩ := exists_of_toOption_any hone
  obtain ⟨file, rfl⟩ := List.length_eq_one_iff.mp (by simpa using hlen)
  exact ⟨hconfines (by decide +kernel) (by decide) (by decide), resolved, file, hok,
    hfiles resolved [file] hok file List.mem_cons_self⟩

/-- With a root that goes up after a name, a file outside the workspace can be overwritten. -/
theorem not_all_scaffold_confined : ¬ ∀ (r : Registry) (ids : IdSource) (a : Answers)
    (configDir : Path) (w : Workspace) (fs : FileSystem), fs.IsTree →
      w.Confines fs (scaffold r ids a configDir w fs).files := by
  intro h
  have hbefore : content? (linked.entry? ["outside", "f"]) = some "keep".toUTF8 := by decide +kernel
  have hafter : content? ((scaffoldLinked ⟨["missing", "..", "ws"]⟩).files.entry? ["outside", "f"]) =
      some "new".toUTF8 := by decide +kernel
  have hplace : (linked.place? ⟨["missing", "..", "ws"]⟩).or
      ((scaffoldLinked ⟨["missing", "..", "ws"]⟩).files.place? ⟨["missing", "..", "ws"]⟩) =
        some ["ws"] := by decide +kernel
  rcases h (copying "src" "out") (fun _ name => name) choosing .empty ⟨⟨["missing", "..", "ws"]⟩⟩ linked
    (by decide +kernel) ["outside", "f"] with hsame | ⟨l, hl, hbelow⟩ | hmade
  · have hcontent := hafter.symm.trans ((congrArg content? hsame).trans hbefore)
    exact absurd hcontent (by decide +kernel)
  · obtain rfl := Option.some.inj (hplace.symm.trans hl)
    exact absurd hbelow (by decide)
  · simp [content?, hmade.new] at hbefore

end Stencil
