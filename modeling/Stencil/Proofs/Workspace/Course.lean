import Stencil.Proofs.Workspace.Populating
import Stencil.Proofs.Workspace.Refusal

/-!
The course of a copy.

Folders are copied in steps: a directory is made, or a file is copied. A step is due because its folder
is to be copied, or because its entry was in a directory for which a step was taken before. A copy that
succeeds has taken steps that were due, one after the other, and lists the files in this order. A copy
that fails has done so too, up to a step that was due and failed, or up to a point where it was stopped
by something else than an operation on a path.
-/

namespace Stencil.Workspace

open FileSystem

/-- What is done for one entry of a folder, or for the folder itself. -/
structure Step where
  folder : ResolvedFolder
  /-- The names that lead to the entry from the source of the folder. -/
  names : List String
  entry : Entry
  /-- What there is when the step is taken. -/
  before : FileSystem

/-- Whether a file is written in the step. -/
def Step.copies (s : Step) : Bool := !isDirectory (some s.entry)

lemma Step.copies_iff {s : Step} : s.copies ↔ s.entry ≠ .dir := by
  simp [copies, Bool.eq_false_iff, isDirectory_iff]

/-- The path of what the names lead to from a directory. -/
def below (p : Path) (names : List String) : Path := names.foldl (fun p name => p.join ⟨[name]⟩) p

/-- What is to be copied, and where to. -/
structure Plan where
  workspace : Workspace
  sourceRoot : Path
  folders : List ResolvedFolder
  values : Bindings

namespace Plan

variable (plan : Plan)

/-- Where the entry of a step is read. -/
def origin (s : Step) : Path := below (sourcePath plan.sourceRoot s.folder) s.names

/-- Where the copy of the entry is made. -/
def dest (s : Step) : Path := placed plan.values (plan.workspace.targetPath s.folder) s.names

def job (f : ResolvedFolder) : Job :=
  ⟨plan.values, sourcePath plan.sourceRoot f, plan.workspace.targetPath f⟩

def run (s : Step) (out : Output) : Copied Unit :=
  match s.entry with
  | .dir => out.perform .create (plan.dest s) (·.createDirAll (plan.dest s))
  | _ => copyFile plan.values (plan.origin s) (plan.dest s) out

/-- What is in the directory whose copy is made in the step. A directory is opened before that, but
the source of a folder after it. -/
def opened (s : Step) : Except OsError (List (String × Entry)) :=
  if s.names = [] then (s.before.createDirAll (plan.dest s)).2.listDir (plan.origin s)
  else s.before.listDir (plan.origin s)

/-- The steps that can be taken after others, the last one of which comes first. -/
inductive Due (steps : List Step) (fs : FileSystem) : Step → Prop
  | folder {f} (hf : f ∈ plan.folders) : Due steps fs ⟨f, [], .dir, fs⟩
  | entry {s name e entries} (hs : s ∈ steps) (hdir : s.entry = .dir)
      (hopened : plan.opened s = .ok entries) (hmem : (name, e) ∈ entries) :
      Due steps fs ⟨s.folder, s.names ++ [name], e, fs⟩

/-- The steps are taken from the last to the first, each one when it is due, and lead to what there is
in the end. -/
inductive Course (fs : FileSystem) : List Step → FileSystem → Prop
  | start : Course fs [] fs
  | step {steps s out out'} (h : Course fs steps out.files) (hdue : plan.Due steps out.files s)
      (hdest : plan.workspace.Holds (plan.dest s)) (hrun : plan.run s out = (.ok (), out')) :
      Course fs (s :: steps) out'.files

/-- What keeps a copy from going on: a step that is due fails, or it is no operation that fails. -/
inductive Halts (steps : List Step) (fs : FileSystem) : WorkspaceError → FileSystem → Prop
  | step {s out out' e} (hfiles : out.files = fs) (hdue : plan.Due steps fs s)
      (hdest : plan.workspace.Holds (plan.dest s)) (hrun : plan.run s out = (.error e, out')) :
      Halts steps fs e out'.files
  | other {e fs'} (he : ∀ action p error, e ≠ .io action p error) : Halts steps fs e fs'

/-- What a part of a copy comes to that goes on after some steps. -/
inductive Continues (fs : FileSystem) (steps : List Step) (out : Output) : Copied Unit → Prop
  | done {new out'} (h : plan.Course fs (new ++ steps) out'.files)
      (hwritten : out'.written = (new.filter Step.copies).map plan.dest ++ out.written) :
      Continues fs steps out (.ok (), out')
  | halted {new fs' e out'} (h : plan.Course fs (new ++ steps) fs')
      (hhalts : plan.Halts (new ++ steps) fs' e out'.files) :
      Continues fs steps out (.error e, out')

variable {plan} {fs fs' : FileSystem} {s : Step} {steps new : List Step} {f : ResolvedFolder}
  {out out' : Output} {name : String} {e : Entry} {entries : List (String × Entry)} {x : Copied Unit}
  {inner : CopyDir}

/-! ### Paths of steps -/

lemma origin_entry (s : Step) (name : String) (e : Entry) (before : FileSystem) :
    plan.origin ⟨s.folder, s.names ++ [name], e, before⟩ = (plan.origin s).join ⟨[name]⟩ := by
  simp [origin, below, List.foldl_append]

lemma dest_entry (s : Step) (name : String) (e : Entry) (before : FileSystem) :
    plan.dest ⟨s.folder, s.names ++ [name], e, before⟩ =
      (plan.dest s).join (Path.ofText (Placeholder.substitute (plan.values[·]?) name)) := by
  simp [dest, placed, List.foldl_append]

/-! ### Taking a step -/

lemma Due.before_eq (h : plan.Due steps fs s) : s.before = fs := by
  cases h <;> rfl

lemma run_of_dir (hdir : s.entry = .dir) : plan.run s out =
    out.perform .create (plan.dest s) (·.createDirAll (plan.dest s)) := by
  simp only [run, hdir]

lemma run_of_copies (hcopies : s.copies) :
    plan.run s out = copyFile plan.values (plan.origin s) (plan.dest s) out := by
  have hne := Step.copies_iff.mp hcopies
  unfold run
  split
  · next hdir => exact absurd hdir hne
  · rfl

/-- The source of a folder is opened when the directory for it has been made. -/
lemma opened_folder (hrun : plan.run ⟨f, [], .dir, out.files⟩ out = (.ok (), out')) :
    plan.opened ⟨f, [], .dir, out.files⟩ = out'.files.listDir (sourcePath plan.sourceRoot f) := by
  rw [run_of_dir rfl] at hrun
  have hfiles : (out.files.createDirAll (plan.dest ⟨f, [], .dir, out.files⟩)).2 = out'.files :=
    congrArg Prod.snd (perform_ok hrun).1
  rw [opened, if_pos rfl, hfiles]
  rfl

/-- A step fills in the workspace, whether or not it succeeds. -/
lemma fillsIn_of_run {l : Location} (hs : plan.workspace.StandsAt l out.files)
    (hdest : plan.workspace.Holds (plan.dest s)) : FillsIn l out.files (plan.run s out).2.files := by
  by_cases hdir : s.entry = .dir
  · rw [run_of_dir hdir, Output.perform_eq]
    exact hs.createDirAll hdest
  · rw [run_of_copies (Step.copies_iff.mpr hdir)]
    exact (copyFile_keeps plan.values (plan.origin s) hdest out).fills hs

lemma Course.fillsIn {l : Location} (hs : plan.workspace.StandsAt l fs)
    (h : plan.Course fs steps fs') : FillsIn l fs fs' := by
  induction h with
  | start => exact .refl l fs
  | step _ _ hdest hrun ih =>
    have hstep := fillsIn_of_run (hs.of_fillsIn ih) hdest
    rw [hrun] at hstep
    exact ih.trans hstep

/-! ### Going on -/

namespace Continues

lemma finished (hc : plan.Course fs steps out.files) : plan.Continues fs steps out (.ok (), out) := by
  have hnone : plan.Course fs ([] ++ steps) out.files := hc
  exact .done hnone rfl

/-- Some steps have been taken in a first part. -/
lemma after (new : List Step)
    (hwritten : out'.written = (new.filter Step.copies).map plan.dest ++ out.written)
    (h : plan.Continues fs (new ++ steps) out' x) : plan.Continues fs steps out x := by
  cases h with
  | @done more out'' h hmore =>
    rw [← List.append_assoc] at h
    refine .done h ?_
    rw [hmore, hwritten, List.filter_append, List.map_append, List.append_assoc]
  | @halted more fs' e out'' h hhalts =>
    rw [← List.append_assoc] at h hhalts
    exact .halted h hhalts

/-- A step that is taken. -/
lemma step (hc : plan.Course fs steps out.files) (hdue : plan.Due steps out.files s)
    (hdest : plan.workspace.Holds (plan.dest s)) (hrun : plan.run s out = (.ok (), out'))
    (hwritten : out'.written = ([s].filter Step.copies).map plan.dest ++ out.written)
    (h : plan.Course fs (s :: steps) out'.files → plan.Continues fs (s :: steps) out' x) :
    plan.Continues fs steps out x :=
  after [s] hwritten (h (.step hc hdue hdest hrun))

/-- A step that fails. -/
lemma failed {e : WorkspaceError} (hc : plan.Course fs steps out.files)
    (hdue : plan.Due steps out.files s) (hdest : plan.workspace.Holds (plan.dest s))
    (hrun : plan.run s out = (.error e, out')) : plan.Continues fs steps out (.error e, out') := by
  have hnone : plan.Course fs ([] ++ steps) out.files := hc
  exact .halted hnone (.step rfl hdue hdest hrun)

lemma refused {e : WorkspaceError} (hc : plan.Course fs steps out.files)
    (he : ∀ action p error, e ≠ .io action p error) (out' : Output) :
    plan.Continues fs steps out (.error e, out') := by
  have hnone : plan.Course fs ([] ++ steps) out.files := hc
  exact .halted hnone (.other he)

end Continues

/-! ### The steps of a copy -/

lemma copyFile_written {values : Bindings} {origin dest : Path}
    (h : copyFile values origin dest out = (.ok (), out')) : out'.written = dest :: out.written := by
  unfold copyFile at h
  split at h
  · simp at h
  next content _ =>
  obtain ⟨warnings, hcontent⟩ := copiedContent_eq values origin content out
  rw [hcontent] at h
  dsimp only at h
  split at h
  · simp at h
  next out₁ hwrite =>
  have hwritten := (perform_ok hwrite).2
  split at h
  · obtain rfl := (Prod.mk.inj h).2
    rw [hwritten]
  split at h
  · simp at h
  next out₂ hset =>
  have hwritten' := (perform_ok hset).2
  obtain rfl := (Prod.mk.inj h).2
  rw [hwritten', hwritten]

lemma destination_error {values : Bindings} {origin target : Path} {names : List String}
    {e : WorkspaceError} (h : destination values origin target names out = (.error e, out')) :
    ∃ p, e = .unsafeTarget p := by
  induction names generalizing target out with
  | nil => simp [destination] at h
  | cons name names ih =>
    unfold destination at h
    dsimp only at h
    split at h
    · next he =>
      obtain ⟨rfl, -⟩ := error_mk_inj h
      exact ⟨_, (contained_eq_error he).2⟩
    · exact ih h

/-- How directories of a folder are copied goes on after the step for a directory. -/
def Follows (plan : Plan) (fs : FileSystem) (f : ResolvedFolder) (inner : CopyDir) : Prop :=
  ∀ steps s out, plan.Course fs steps out.files → s ∈ steps → s.entry = .dir → s.folder = f →
    plan.Continues fs steps out (inner (plan.origin s) s.names (plan.opened s) out)

section Directory

variable (htarget : plan.workspace.Holds (plan.workspace.targetPath s.folder))
  (hinner : plan.Follows fs s.folder inner) (hs : s ∈ steps) (hdir : s.entry = .dir)
  (hopened : plan.opened s = .ok entries)
include htarget hinner hs hdir hopened

lemma copyEntry_continues (hc : plan.Course fs steps out.files) (hmem : (name, e) ∈ entries) :
    plan.Continues fs steps out
      (copyEntry (plan.job s.folder) inner (plan.origin s) s.names name e out) := by
  unfold copyEntry
  dsimp only
  split
  · next hnames =>
    obtain ⟨p, rfl⟩ := destination_error hnames
    exact .refused hc (by simp) _
  next dest out₁ hnames =>
  have hdest := destination_holds htarget hnames
  obtain ⟨rfl, hfiles, hwritten⟩ := destination_ok hnames
  rw [← hfiles] at hc
  have hdue : plan.Due steps out₁.files ⟨s.folder, s.names ++ [name], e, out₁.files⟩ :=
    .entry hs hdir hopened hmem
  have hnone : out₁.written = (([] : List Step).filter Step.copies).map plan.dest ++ out.written :=
    hwritten
  rw [← hfiles, ← origin_entry s name e out₁.files]
  refine .after [] hnone ?_
  by_cases he : e = .dir
  · subst he
    dsimp only
    split
    · next hcreate => exact .failed hc hdue hdest hcreate
    · next out₂ hcreate =>
      refine .step hc hdue hdest hcreate (perform_ok hcreate).2 fun hc => ?_
      have hlisted : plan.opened ⟨s.folder, s.names ++ [name], .dir, out₁.files⟩ =
          out₁.files.listDir (plan.origin ⟨s.folder, s.names ++ [name], .dir, out₁.files⟩) :=
        if_neg (by simp)
      rw [← hlisted]
      exact hinner _ _ out₂ hc List.mem_cons_self rfl rfl
  · have hcopies : Step.copies ⟨s.folder, s.names ++ [name], e, out₁.files⟩ :=
      Step.copies_iff.mpr he
    have hrun : plan.run ⟨s.folder, s.names ++ [name], e, out₁.files⟩ out₁ =
        copyFile plan.values (plan.origin ⟨s.folder, s.names ++ [name], e, out₁.files⟩)
          (placed plan.values (plan.workspace.targetPath s.folder) (s.names ++ [name])) out₁ :=
      run_of_copies hcopies
    have hgo : plan.Continues fs steps out₁
        (plan.run ⟨s.folder, s.names ++ [name], e, out₁.files⟩ out₁) := by
      generalize hcopy : plan.run ⟨s.folder, s.names ++ [name], e, out₁.files⟩ out₁ = copied
      obtain ⟨_ | _, out₂⟩ := copied
      · exact .failed hc hdue hdest hcopy
      · refine .step hc hdue hdest hcopy ?_ .finished
        rw [List.filter_cons_of_pos hcopies]
        exact copyFile_written (hrun ▸ hcopy)
    rw [hrun] at hgo
    cases e <;> first | exact hgo | exact absurd rfl he

lemma copyEntries_continues (hc : plan.Course fs steps out.files) {rest : List (String × Entry)}
    (hrest : rest ⊆ entries) : plan.Continues fs steps out
      (copyEntries (plan.job s.folder) inner (plan.origin s) s.names rest out) := by
  induction rest generalizing steps out with
  | nil => exact .finished hc
  | cons y rest ih =>
    obtain ⟨name, e⟩ := y
    obtain ⟨hmem, hrest⟩ := List.cons_subset.mp hrest
    have hentry := copyEntry_continues htarget hinner hs hdir hopened hc hmem
    unfold copyEntries
    generalize copyEntry (plan.job s.folder) inner (plan.origin s) s.names name e out = copied
      at hentry ⊢
    cases hentry with
    | done hc hwritten => exact .after _ hwritten (ih (List.mem_append_right _ hs) hc hrest)
    | halted hc hhalts => exact .halted hc hhalts

end Directory

lemma copyDir_follows (htarget : plan.workspace.Holds (plan.workspace.targetPath f)) (depth : Nat) :
    plan.Follows fs f (copyDir (plan.job f) depth) := by
  induction depth with
  | zero => exact fun steps s out hc _ _ _ => .refused hc (by simp) out
  | succ depth ih =>
    rintro steps s out hc hs hdir rfl
    unfold copyDir
    split
    · exact .refused hc (by simp) out
    · next entries hopened =>
      exact copyEntries_continues htarget ih hs hdir hopened hc (List.Subset.refl entries)

lemma copyFolder_continues (hf : f ∈ plan.folders) (hcontained : ∃ p, contained f.target = .ok p)
    (hc : plan.Course fs steps out.files) : plan.Continues fs steps out
      (plan.workspace.copyFolder plan.sourceRoot plan.values f out) := by
  have htarget : plan.workspace.Holds (plan.workspace.targetPath f) := holds_target hcontained
  unfold copyFolder
  dsimp only
  split
  · have hdue : plan.Due steps out.files ⟨f, [], .dir, out.files⟩ := .folder hf
    split
    · next hcreate => exact .failed hc hdue htarget hcreate
    · next out₁ hcreate =>
      refine .step hc hdue htarget hcreate (perform_ok hcreate).2 fun hc => ?_
      have hgo := copyDir_follows htarget pathLimit _ _ out₁ hc List.mem_cons_self rfl rfl
      rw [opened_folder hcreate] at hgo
      exact hgo
  · exact .refused hc (by simp) out

/-- **Copying folders takes the steps that are due**, up to the end or to a failure. -/
theorem copyFolders_continues (hcontained : ∀ f ∈ plan.folders, ∃ p, contained f.target = .ok p)
    {rest : List ResolvedFolder} (hrest : rest ⊆ plan.folders)
    (hc : plan.Course fs steps out.files) : plan.Continues fs steps out
      (plan.workspace.copyFolders plan.sourceRoot plan.values rest out) := by
  induction rest generalizing steps out with
  | nil => exact .finished hc
  | cons f rest ih =>
    obtain ⟨hf, hrest⟩ := List.cons_subset.mp hrest
    have hfolder := copyFolder_continues hf (hcontained f hf) hc
    rw [copyFolders_cons]
    generalize plan.workspace.copyFolder plan.sourceRoot plan.values f out = copied at hfolder ⊢
    cases hfolder with
    | done hc hwritten => exact .after _ hwritten (ih hrest hc)
    | halted hc hhalts => exact .halted hc hhalts

section Populate

variable {w : Workspace} {sourceRoot : Path} {folders : List ResolvedFolder} {values : Bindings}

/-- Filling a workspace lists the files in the order of the steps. -/
lemma exists_course_of_ok {written : List Path}
    (hok : (w.populate sourceRoot folders values fs).result = .ok written) : ∃ steps,
      Course ⟨w, sourceRoot, folders, values⟩ fs steps
        (w.populate sourceRoot folders values fs).files ∧
      written = ((steps.filter Step.copies).map (dest ⟨w, sourceRoot, folders, values⟩)).reverse := by
  obtain ⟨out, hcontained, hcopy, rfl, hfiles⟩ := populate_ok hok
  have hgo : Continues ⟨w, sourceRoot, folders, values⟩ fs [] (.ofFiles fs)
      (w.copyFolders sourceRoot values folders (.ofFiles fs)) :=
    copyFolders_continues hcontained (List.Subset.refl folders) .start
  rw [hcopy] at hgo
  rw [hfiles]
  cases hgo with
  | @done new out' hc hwritten =>
    rw [List.append_nil] at hc
    exact ⟨new, hc, by rw [hwritten, Output.ofFiles, List.append_nil]⟩

/-- A workspace that is not filled is left at a step that failed, or for another reason. -/
lemma exists_halts_of_error {e : WorkspaceError}
    (herr : (w.populate sourceRoot folders values fs).result = .error e) : ∃ steps fs',
      Course ⟨w, sourceRoot, folders, values⟩ fs steps fs' ∧
      Halts ⟨w, sourceRoot, folders, values⟩ steps fs' e
        (w.populate sourceRoot folders values fs).files := by
  unfold populate at herr ⊢
  split at herr
  · next hcheck =>
    obtain rfl := Except.error.inj herr
    obtain ⟨f, -, -, rfl⟩ := exists_of_checkFolders hcheck
    exact ⟨[], fs, .start, .other (by simp)⟩
  next hcheck =>
  have hgo : Continues ⟨w, sourceRoot, folders, values⟩ fs [] (.ofFiles fs)
      (w.copyFolders sourceRoot values folders (.ofFiles fs)) :=
    copyFolders_continues (checkFolders_eq_ok_iff.mp hcheck) (List.Subset.refl folders) .start
  generalize w.copyFolders sourceRoot values folders (.ofFiles fs) = copied at herr hgo ⊢
  cases hgo with
  | done => simp [Except.map] at herr
  | @halted new fs' e' out' hc hhalts =>
    obtain rfl := Except.error.inj herr
    rw [List.append_nil] at hc hhalts
    exact ⟨new, fs', hc, hhalts⟩

end Populate

end Plan

end Stencil.Workspace
