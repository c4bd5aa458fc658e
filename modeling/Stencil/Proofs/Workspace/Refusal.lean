import Stencil.Proofs.Workspace.Scaffolding

/-!
Runs that are refused.

A run is refused if the answers, the template or the names in it are at fault, and not the operating
system. Where this is found before the workspace is emptied, nothing has changed. But whether a folder
is there, and where the names of its files lead to, is found only when it is copied, and by then all
that was in the workspace is gone.
-/

namespace Stencil

/-- Whether the operating system has nothing to do with an error. -/
def ScaffoldError.isRefusal : ScaffoldError → Bool
  | .workspace (.io _ _ _) => false
  | .workspace (.walk _ _ _) => false
  | _ => true

def Scaffolded.isRefused (done : Scaffolded) : Bool :=
  match done.result with
  | .error e => e.isRefusal
  | .ok _ => false

lemma Scaffolded.isRefused_iff {done : Scaffolded} :
    done.isRefused ↔ ∃ e, done.result = .error e ∧ e.isRefusal := by
  unfold isRefused
  split
  · next h => simp [h]
  · next h => simp [h]

namespace Workspace

variable {w : Workspace} {job : Job} {inner : CopyDir} {folders : List ResolvedFolder}

/-- What can stop a copy: the operating system, a folder that is not there, or a name that would lead
out of the workspace after its placeholders are replaced. -/
inductive Stops (sourceRoot : Path) (values : Bindings) (folders : List ResolvedFolder) :
    WorkspaceError → Prop
  | io {action : FileAction} {p : Path} {e : OsError} :
    Stops sourceRoot values folders (.io action p e)
  | walk {source directory : Path} {e : OsError} :
    Stops sourceRoot values folders (.walk source directory e)
  | missingSource {f : ResolvedFolder} (hf : f ∈ folders) :
    Stops sourceRoot values folders (.missingSource (sourceRoot.join (Path.ofText f.source)))
  | unsafeTarget {name : String}
    (h : (Path.ofText (Placeholder.substitute (values[·]?) name)).staysBelow = false) :
    Stops sourceRoot values folders
      (.unsafeTarget (Path.ofText (Placeholder.substitute (values[·]?) name)))

/-- If a part of a copy fails, this is why. -/
def Blames {α : Type} (x : Copied α) (P : WorkspaceError → Prop) : Prop := ∀ e, x.1 = .error e → P e

namespace Blames

variable {α : Type} {P : WorkspaceError → Prop} {out : Output}

lemma ok {a : α} : Blames (.ok a, out) P := by
  simp [Blames]

lemma error {e : WorkspaceError} (h : P e) : Blames ((.error e, out) : Copied α) P := by
  rintro _ ⟨⟩
  exact h

/-- The failure of a part is the failure of the whole. -/
lemma of_error {β : Type} {e : WorkspaceError} {out' : Output} {x : Copied β} (hx : Blames x P)
    (h : x = (.error e, out')) : Blames ((.error e, out) : Copied α) P :=
  error (hx e (by rw [h]))

end Blames

section Copy

variable {sourceRoot : Path} {values : Bindings}

lemma perform_blames {α : Type} (out : Output) (action : FileAction) (p : Path)
    (operation : FileSystem → FileSystem.Result α) :
    Blames (out.perform action p operation) (Stops sourceRoot values folders) := by
  unfold Output.perform
  split
  · exact .ok
  · exact .error .io

lemma contained_eq_error {name : String} {e : WorkspaceError} (h : contained name = .error e) :
    (Path.ofText name).staysBelow = false ∧ e = .unsafeTarget (Path.ofText name) := by
  unfold contained at h
  dsimp only at h
  split at h
  · simp at h
  · next hstays => exact ⟨by simpa using hstays, (Except.error.inj h).symm⟩

lemma destination_blames (origin target : Path) (names : List String) (out : Output) :
    Blames (destination values origin target names out) (Stops sourceRoot values folders) := by
  induction names generalizing target out with
  | nil => exact .ok
  | cons name names ih =>
    unfold destination
    dsimp only
    split
    · next e he =>
      obtain ⟨hout, rfl⟩ := contained_eq_error he
      exact .error (.unsafeTarget hout)
    · exact ih _ _

lemma copyFile_blames (origin dest : Path) (out : Output) :
    Blames (copyFile values origin dest out) (Stops sourceRoot values folders) := by
  unfold copyFile
  split
  · exact .error .io
  dsimp only
  split
  · next h => exact (perform_blames _ _ _ _).of_error h
  split
  · exact .ok
  split
  · next h => exact (perform_blames _ _ _ _).of_error h
  · exact .ok

/-- What stops the copy of a directory stops the copy. -/
def CopyDir.BlamesFor (P : WorkspaceError → Prop) (inner : CopyDir) : Prop :=
  ∀ directory names opened out, Blames (inner directory names opened out) P

lemma copyEntry_blames (hinner : inner.BlamesFor (Stops sourceRoot job.values folders))
    (directory : Path) (names : List String) (name : String) (entry : Entry) (out : Output) :
    Blames (copyEntry job inner directory names name entry out)
      (Stops sourceRoot job.values folders) := by
  unfold copyEntry
  dsimp only
  split
  · next h => exact (destination_blames _ _ _ _).of_error h
  split
  · split
    · next h => exact (perform_blames _ _ _ _).of_error h
    · exact hinner _ _ _ _
  · exact copyFile_blames _ _ _

lemma copyEntries_blames (hinner : inner.BlamesFor (Stops sourceRoot job.values folders))
    (directory : Path) (names : List String) (entries : List (String × Entry)) (out : Output) :
    Blames (copyEntries job inner directory names entries out)
      (Stops sourceRoot job.values folders) := by
  induction entries generalizing out with
  | nil => exact .ok
  | cons entry rest ih =>
    unfold copyEntries
    split
    · next h => exact (copyEntry_blames hinner _ _ _ _ _).of_error h
    · exact ih _

lemma copyDir_blames (depth : Nat) :
    (copyDir job depth).BlamesFor (Stops sourceRoot job.values folders) := by
  induction depth with
  | zero => exact fun _ _ _ _ => .error .walk
  | succ depth ih =>
    intro directory names opened out
    unfold copyDir
    split
    · exact .error .walk
    · exact copyEntries_blames ih _ _ _ _

lemma copyFolder_blames {f : ResolvedFolder} (hf : f ∈ folders) (out : Output) :
    Blames (w.copyFolder sourceRoot values f out) (Stops sourceRoot values folders) := by
  unfold copyFolder
  dsimp only
  split
  · split
    · next h => exact (perform_blames _ _ _ _).of_error h
    · exact copyDir_blames _ _ _ _ _
  · exact .error (.missingSource hf)

/-- **What stops the copy of folders** is one of them, a name, or the operating system. -/
theorem copyFolders_blames (w : Workspace) (sourceRoot : Path) (values : Bindings)
    {rest : List ResolvedFolder} (hrest : rest ⊆ folders) (out : Output) :
    Blames (w.copyFolders sourceRoot values rest out) (Stops sourceRoot values folders) := by
  induction rest generalizing out with
  | nil => exact .ok
  | cons f rest ih =>
    obtain ⟨hf, hrest⟩ := List.cons_subset.mp hrest
    rw [copyFolders_cons]
    split
    · next h => exact (copyFolder_blames hf _).of_error h
    · exact ih hrest _

end Copy

/-- Only the operating system keeps the workspace from being emptied. -/
lemma exists_io_of_prepare {fs : FileSystem} {e : WorkspaceError}
    (h : (w.prepare fs).1 = .error e) : ∃ action p error, e = .io action p error := by
  simp only [prepare, Output.perform_eq] at h
  split at h
  · split at h
    · next heq =>
      obtain rfl := Except.error.inj h
      obtain ⟨error, -, rfl⟩ := exists_of_mapError (Prod.mk.inj heq).1
      exact ⟨_, _, error, rfl⟩
    · obtain ⟨error, -, rfl⟩ := exists_of_mapError h
      exact ⟨_, _, error, rfl⟩
  · obtain ⟨error, -, rfl⟩ := exists_of_mapError h
    exact ⟨_, _, error, rfl⟩

lemma exists_of_checkFolders {e : WorkspaceError} (h : checkFolders folders = .error e) :
    ∃ f ∈ folders, (Path.ofText f.target).staysBelow = false ∧
      e = .unsafeTarget (Path.ofText f.target) := by
  induction folders with
  | nil => simp [checkFolders, pure, Except.pure] at h
  | cons f folders ih =>
    cases hf : contained f.target with
    | error e' =>
      obtain rfl : e' = e := by simpa [checkFolders, hf, bind, Except.bind] using h
      exact ⟨f, List.mem_cons_self, contained_eq_error hf⟩
    | ok p =>
      obtain ⟨f', hf', hrest⟩ :=
        ih (by simpa [checkFolders, hf, bind, Except.bind, pure, Except.pure] using h)
      exact ⟨f', List.mem_cons_of_mem _ hf', hrest⟩

end Workspace

/-- **A run that is refused** has changed nothing if the template cannot be resolved or a target is
refused. Otherwise the workspace has been emptied, and the copy is stopped. -/
theorem scaffold_refused (r : Registry) (ids : IdSource) (a : Answers) (configDir : Path)
    (w : Workspace) (fs : FileSystem) {e : ScaffoldError}
    (he : (scaffold r ids a configDir w fs).result = .error e) (hrefusal : e.isRefusal) :
    r.resolve ids a = .error e ∧ (scaffold r ids a configDir w fs).files = fs ∨
    ∃ resolved, r.resolve ids a = .ok resolved ∧
      ((∃ f ∈ resolved.folders, (Path.ofText f.target).staysBelow = false ∧
          e = .workspace (.unsafeTarget (Path.ofText f.target))) ∧
        (scaffold r ids a configDir w fs).files = fs ∨
      (∀ f ∈ resolved.folders, (Path.ofText f.target).staysBelow) ∧
        (∃ fs', w.prepare fs = (.ok (), fs')) ∧
        ∃ e', e = .workspace e' ∧ Workspace.Stops (sourceRoot configDir resolved.values)
          resolved.values resolved.folders e') := by
  have hends := scaffold_scaffolds r ids a configDir w fs
  generalize scaffold r ids a configDir w fs = done at hends he ⊢
  cases hends with
  | unresolved hr =>
    obtain rfl := Except.error.inj he
    exact .inl ⟨hr, rfl⟩
  | @refused resolved e' hr hc =>
    obtain rfl := Except.error.inj he
    obtain ⟨f, hf, hstays, rfl⟩ := Workspace.exists_of_checkFolders hc
    exact .inr ⟨resolved, hr, .inl ⟨⟨f, hf, hstays, rfl⟩, rfl⟩⟩
  | unprepared hr hc hp =>
    obtain rfl := Except.error.inj he
    obtain ⟨action, p, error, rfl⟩ := Workspace.exists_io_of_prepare (by rw [hp])
    simp [ScaffoldError.isRefusal] at hrefusal
  | @copied resolved fs' result out hr hc hp hcopy =>
    have hstops := w.copyFolders_blames (sourceRoot configDir resolved.values) resolved.values
      (List.Subset.refl resolved.folders) (.ofFiles fs')
    rw [hcopy] at hstops
    have hcontained := fun f hf =>
      let ⟨_, hp⟩ := Workspace.checkFolders_eq_ok_iff.mp hc f hf
      (Workspace.contained_eq_ok_iff.mp hp).2
    cases result with
    | ok _ => simp [Except.map, Except.mapError] at he
    | error e' =>
      obtain rfl := Except.error.inj he
      exact .inr ⟨resolved, hr, .inr ⟨hcontained, ⟨fs', hp⟩, e', rfl, hstops e' rfl⟩⟩

/-- Scaffolding into the workspace `ws` of `linked`. -/
def scaffoldFolder (source target : String) : Scaffolded :=
  scaffold (copying source target) (fun _ name => name) choosing .empty ⟨⟨["ws"]⟩⟩ linked

theorem scaffold_outside_refused : ∃ e, (scaffoldFolder "src" "../outside").result = .error e ∧
    e.isRefusal ∧ (scaffoldFolder "src" "../outside").files = linked := by
  obtain ⟨e, he, hrefusal⟩ := Scaffolded.isRefused_iff.mp
    (by decide +kernel : (scaffoldFolder "src" "../outside").isRefused)
  refine ⟨e, he, hrefusal, ?_⟩
  rcases scaffold_refused (copying "src" "../outside") (fun _ name => name) choosing .empty
    ⟨⟨["ws"]⟩⟩ linked he hrefusal with ⟨-, hsame⟩ | ⟨resolved, hr, ⟨-, hsame⟩ | ⟨hbelow, -⟩⟩
  · exact hsame
  · exact hsame
  · have hout : ((copying "src" "../outside").resolve (fun _ name => name) choosing).toOption.any
        (·.folders.any fun f => !(Path.ofText f.target).staysBelow) := by decide +kernel
    obtain ⟨resolved', hr', hany⟩ := exists_of_toOption_any hout
    obtain rfl := Except.ok.inj (hr.symm.trans hr')
    obtain ⟨f, hf, hstays⟩ := List.any_eq_true.mp hany
    simp [hbelow f hf] at hstays

/-- A folder that is not there is missed only when the workspace is empty. -/
theorem not_all_refused_unchanged : ¬ ∀ (r : Registry) (ids : IdSource) (a : Answers)
    (configDir : Path) (w : Workspace) (fs : FileSystem) (e : ScaffoldError),
      (scaffold r ids a configDir w fs).result = .error e → e.isRefusal →
        ∀ l m, fs.place? w.root = some l → l <+: m →
          (scaffold r ids a configDir w fs).files.entry? m = fs.entry? m := by
  intro h
  obtain ⟨e, he, hrefusal⟩ := Scaffolded.isRefused_iff.mp
    (by decide +kernel : (scaffoldFolder "absent" "out").isRefused)
  have hsame := h (copying "absent" "out") (fun _ name => name) choosing .empty ⟨⟨["ws"]⟩⟩ linked e he
    hrefusal ["ws"] ["ws", "out"] (by decide +kernel) (by decide)
  have hgone : ((scaffoldFolder "absent" "out").files.entry? ["ws", "out"]).isSome = false := by
    decide +kernel
  have hthere : (linked.entry? ["ws", "out"]).isSome := by decide +kernel
  rw [← hsame] at hthere
  exact absurd (hthere.symm.trans hgone) (by decide)

end Stencil
