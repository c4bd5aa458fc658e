import Stencil.Proofs.Files.Obstacles
import Stencil.Proofs.Workspace.Course

/-!
The directories that copies are put into.

The copy of a directory is made with all directories that its name says, and before what is in it is
copied. A file is put into the copy of the directory that it is in. If its name has several components
then it is put into a directory further below, which nothing makes.
-/

namespace Stencil

open FileSystem

/-- Whether a directory is lacking for what is made or written. -/
def WorkspaceError.LacksDirectory : WorkspaceError → Prop
  | .io action _ e => action ≠ .read ∧ e.LacksDirectory
  | _ => False

namespace Workspace

variable {fs fs' final : FileSystem} {l m : Location} {p origin dest : Path} {values : Bindings}
  {content : ByteArray} {out out' : Output} {e : WorkspaceError} {w : Workspace} {names : List String}

/-- A name for something below a directory: it is not empty, it is not refused, and none of its
components is a full stop. -/
structure Plain (name : String) : Prop where
  nonempty : name ≠ ""
  accepted : ∃ p, contained name = .ok p
  noDot : "." ∉ (Path.ofText name).segments

lemma Plain.descends {name : String} (h : Plain name) : (Path.ofText name).Descends := by
  obtain ⟨p, hp⟩ := h.accepted
  exact .ofText (contained_eq_ok_iff.mp hp).2 h.nonempty h.noDot

/-- Names below the root of the workspace stay below it. -/
lemma exists_placed {q : Path} (hq : q.Descends) (hp : p = w.root.join q)
    (hnames : ∀ name ∈ names, Plain (Placeholder.substitute (values[·]?) name)) :
    ∃ q' : Path, q'.Descends ∧ placed values p names = w.root.join q' := by
  induction names generalizing p q with
  | nil => exact ⟨q, hq, hp⟩
  | cons name names ih =>
    obtain ⟨hname, hnames⟩ := List.forall_mem_cons.mp hnames
    have hinner := hname.descends
    refine ih (hq.join hinner) ?_ hnames
    rw [hp]
    exact Path.join_join _ hq.toIsInner hinner.toIsInner

/-! ### Why a file is not copied -/

lemma perform_error {α : Type} {action : FileAction} {operation : FileSystem → FileSystem.Result α}
    (h : out.perform action p operation = (.error e, out')) : ∃ err, e = .io action p err ∧
      operation out.files = (.error err, out'.files) := by
  unfold Output.perform at h
  split at h
  · simp at h
  · next err files heq =>
    obtain ⟨rfl, rfl⟩ := error_mk_inj h
    exact ⟨err, rfl, heq⟩

/-- A file that has been written has its permissions set. -/
lemma copyFile_error (hs : w.StandsAt l out.files) (hdest : w.Holds dest)
    (h : copyFile values origin dest out = (.error e, out')) : (∃ err, e = .io .read origin err) ∨
      ∃ err content, e = .io .write dest err ∧
        out.files.writeFile dest content = (.error err, out'.files) := by
  unfold copyFile at h
  split at h
  · next err _ =>
    obtain ⟨rfl, rfl⟩ := error_mk_inj h
    exact .inl ⟨err, rfl⟩
  next content _ =>
  obtain ⟨warnings, hcontent⟩ := copiedContent_eq values origin content out
  rw [hcontent] at h
  dsimp only at h
  split at h
  · next hwrite =>
    obtain ⟨rfl, rfl⟩ := error_mk_inj h
    obtain ⟨err, he, hwrite⟩ := perform_error hwrite
    exact .inr ⟨err, _, he, hwrite⟩
  next out₁ hwrite =>
  obtain ⟨hwrite, -⟩ := perform_ok hwrite
  obtain ⟨-, mode, hfound⟩ := hs.writeFile_ok hdest hwrite
  split at h
  · simp at h
  split at h
  · next hset =>
    obtain ⟨err, -, hset⟩ := perform_error hset
    unfold setMode at hset
    rw [hfound] at hset
    simp at hset
  · simp at h

namespace Plan

variable {plan : Plan} {s s' : Step} {steps : List Step} {f : ResolvedFolder} {entry entry' : Entry}
  {entries : List (String × Entry)}

/-- What is to be copied for a folder: the folder itself, and what names lead to from its source. The
source is where its path leads to in the end, and what is in it is what has been there at the start. -/
inductive Has (plan : Plan) (fs final : FileSystem) (f : ResolvedFolder) : List String → Entry → Prop
  | folder (hf : f ∈ plan.folders) : Has plan fs final f [] .dir
  | entry {x : Location} {names : List String} {e : Entry} (hf : f ∈ plan.folders)
    (hx : final.lookup true (sourcePath plan.sourceRoot f) = .ok (x, .dir)) (hnames : names ≠ [])
    (he : fs.entry? (x ++ names) = some e) : Has plan fs final f names e

lemma Has.unique (h : plan.Has fs final f names entry) (h' : plan.Has fs final f names entry') :
    entry = entry' := by
  cases h with
  | folder =>
    cases h' with
    | folder => rfl
    | entry _ _ hnames => exact absurd rfl hnames
  | entry _ hx hnames he =>
    cases h' with
    | folder => exact absurd rfl hnames
    | entry _ hx' _ he' =>
      obtain ⟨rfl, -⟩ := Prod.mk.inj (Except.ok.inj (hx.symm.trans hx'))
      exact Option.some.inj (he.symm.trans he')

/-- The place in the workspace that names are mapped to if its root leads to `l`. -/
def place (plan : Plan) (l : Location) (f : ResolvedFolder) (names : List String) : Location :=
  plan.workspace.landing l (placed plan.values (plan.workspace.targetPath f) names)

/-- Filling the workspace as planned. -/
def populate (plan : Plan) (fs : FileSystem) : Populated :=
  plan.workspace.populate plan.sourceRoot plan.folders plan.values fs

/-- The sources lie apart from the workspace, and all targets and names are plain. -/
structure Orderly (plan : Plan) (l : Location) (fs final : FileSystem) : Prop where
  apart : ∀ f ∈ plan.folders, ∀ x,
    final.lookup true (sourcePath plan.sourceRoot f) = .ok (x, .dir) → Apart l x
  targets : ∀ f ∈ plan.folders, Plain f.target
  names : ∀ f names e, plan.Has fs final f names e → ∀ name ∈ names,
    Plain (Placeholder.substitute (plan.values[·]?) name)

namespace Orderly

/-- All copies are made below the root of the workspace. -/
lemma exists_placed (h : plan.Orderly l fs final) (hhas : plan.Has fs final f names entry) :
    ∃ q : Path, q.Descends ∧
      placed plan.values (plan.workspace.targetPath f) names = plan.workspace.root.join q := by
  have hf : f ∈ plan.folders := by cases hhas <;> assumption
  exact Workspace.exists_placed (h.targets f hf).descends rfl (h.names f names entry hhas)

lemma dest_ne_empty (h : plan.Orderly l fs final)
    (hhas : plan.Has fs final s.folder s.names s.entry) : plan.dest s ≠ .empty := by
  obtain ⟨q, hq, hdest⟩ := h.exists_placed hhas
  refine Path.ne_empty_of_proper ?_
  rw [dest, hdest, Path.segments_join _ hq.isAbsolute, Path.proper_append]
  exact List.append_ne_nil_of_right_ne_nil _ hq.named

/-- Names say a place below that of the names before them. -/
lemma place_entry {name : String} (h : plan.Orderly l fs final)
    (hhas : plan.Has fs final f names entry)
    (hq : (Path.ofText (Placeholder.substitute (plan.values[·]?) name)).Descends) :
    plan.place l f (names ++ [name]) = plan.place l f names ++
      Path.proper (Path.ofText (Placeholder.substitute (plan.values[·]?) name)).segments := by
  obtain ⟨q, hq₀, hplaced⟩ := h.exists_placed hhas
  have hinner : placed plan.values (plan.workspace.targetPath f) (names ++ [name]) =
      (plan.workspace.root.join q).join
        (Path.ofText (Placeholder.substitute (plan.values[·]?) name)) := by
    rw [← hplaced, placed, placed, List.foldl_append]
    rfl
  rw [place, place, hinner, hplaced, Path.join_join _ hq₀.toIsInner hq.toIsInner,
    landing_join hq₀.toIsInner, landing_join (hq₀.toIsInner.join hq.toIsInner),
    Path.segments_join _ hq.isAbsolute, Path.proper_append, Path.proper_base, List.append_assoc]

end Orderly

/-! ### What has been done after some steps -/

lemma fillsIn_of_run_ok (hs : plan.workspace.StandsAt l fs) (h : plan.Course fs steps out.files)
    (hdest : plan.workspace.Holds (plan.dest s)) (hrun : plan.run s out = (.ok (), out')) :
    FillsIn l out.files out'.files := by
  have hstep := fillsIn_of_run (hs.of_fillsIn (h.fillsIn hs)) hdest
  rwa [hrun] at hstep

section Course

variable (hsound : fs.Sound) (hready : plan.workspace.Ready l fs)
  (horderly : plan.Orderly l fs final)

section Reading

include hsound hready horderly

/-- **A directory for which a step was taken** is read as it has been at the start. -/
lemma Course.reads (h : plan.Course fs steps fs') (hg : fs'.Grows final) (hmem : s ∈ steps)
    (hdir : s.entry = .dir) (hopened : plan.opened s = .ok entries) :
    s.folder ∈ plan.folders ∧ ∃ x,
      final.lookup true (sourcePath plan.sourceRoot s.folder) = .ok (x, .dir) ∧
      Reads fs l (x ++ s.names) (plan.origin s) fs' ∧ entries = fs.children (x ++ s.names) := by
  induction h generalizing s entries with
  | start => simp at hmem
  | @step steps s' out out' h hdue hdest hrun ih =>
    have hfills := h.fillsIn hready.standsAt
    have hstep := fillsIn_of_run_ok hready.standsAt h hdest hrun
    have hg' := hstep.grows.trans hg
    rcases List.mem_cons.mp hmem with rfl | hmem
    · cases hdue with
      | @folder f hf =>
        obtain ⟨x, hlookup, hentries⟩ := listDir_ok ((opened_folder hrun).symm.trans hopened)
        have hfinal := lookup_grows hg hlookup
        have hapart := horderly.apart f hf x hfinal
        have hreads : Reads fs l x (sourcePath plan.sourceRoot f) out'.files :=
          ⟨hfills.trans hstep, fun m hm => hapart.not_below hm, hlookup⟩
        rw [children_congr fun m hm => hreads.entry? hm] at hentries
        refine ⟨hf, x, hfinal, ?_⟩
        rw [List.append_nil]
        exact ⟨hreads, hentries⟩
      | @entry s₀ name e₀ entries₀ hs₀ hdir₀ hopened₀ hmem₀ =>
        obtain ⟨hf, x, hfinal, hreads, hentries₀⟩ := ih hg' hs₀ hdir₀ hopened₀
        obtain rfl : e₀ = .dir := hdir
        rw [hentries₀, mem_children_iff] at hmem₀
        have hname := hsound.named (x ++ s₀.names) name (by rw [hmem₀]; simp)
        have hlist : out.files.listDir ((plan.origin s₀).join ⟨[name]⟩) = .ok entries := by
          rw [← hopened, opened, if_neg (by simp), origin_entry]
        obtain ⟨hchild, hentries⟩ := hreads.child hname hmem₀ hlist
        rw [List.append_assoc] at hchild hentries
        refine ⟨hf, x, hfinal, ?_, hentries⟩
        rw [origin_entry]
        exact hchild.of_fillsIn hstep
    · obtain ⟨hf, x, hfinal, hreads, hentries⟩ := ih hg' hmem hdir hopened
      exact ⟨hf, x, hfinal, hreads.of_fillsIn hstep, hentries⟩

/-- A step that is due is for something that is to be copied. -/
lemma Due.has (h : plan.Course fs steps fs') (hg : fs'.Grows final) (hdue : plan.Due steps fs' s) :
    plan.Has fs final s.folder s.names s.entry := by
  cases hdue with
  | folder hf => exact .folder hf
  | @entry s₀ name e entries hs₀ hdir hopened hmem =>
    obtain ⟨hf, x, hfinal, -, hentries⟩ := h.reads hsound hready horderly hg hs₀ hdir hopened
    rw [hentries, mem_children_iff, List.append_assoc] at hmem
    exact .entry hf hfinal (by simp) hmem

lemma Course.has (h : plan.Course fs steps fs') (hg : fs'.Grows final) (hmem : s ∈ steps) :
    plan.Has fs final s.folder s.names s.entry := by
  induction h with
  | start => simp at hmem
  | @step steps s' out out' h hdue hdest hrun ih =>
    have hg' := (fillsIn_of_run_ok hready.standsAt h hdest hrun).grows.trans hg
    rcases List.mem_cons.mp hmem with rfl | hmem
    · exact hdue.has hsound hready horderly h hg'
    · exact ih hg' hmem

end Reading

include hready

/-- **A file in the workspace** has been written in a step, to the place that the step names. -/
lemma Course.exists_of_file (h : plan.Course fs steps fs') (hm : l <+: m)
    (hfile : fs'.fileAt? m ≠ none) :
    ∃ s ∈ steps, s.copies ∧ plan.place l s.folder s.names = m := by
  induction h with
  | start => exact absurd (hready.fileAt?_eq_none hm) hfile
  | @step steps s out out' h hdue hdest hrun ih =>
    by_cases hdir : s.entry = .dir
    · rw [run_of_dir hdir] at hrun
      obtain ⟨hcreate, -⟩ := perform_ok hrun
      have hsame := fileAt?_createDirAll out.files (plan.dest s)
      rw [hcreate] at hsame
      rw [hsame] at hfile
      obtain ⟨s', hs', hcopies⟩ := ih hfile
      exact ⟨s', List.mem_cons_of_mem s hs', hcopies⟩
    · have hcopies := Step.copies_iff.mpr hdir
      rw [run_of_copies hcopies] at hrun
      have hstands := hready.standsAt.of_fillsIn (h.fillsIn hready.standsAt)
      obtain ⟨content, -, hwrites⟩ := copyFile_ok hstands hdest hrun
      rw [hwrites.contents, overwrite_ne_none_iff] at hfile
      rcases hfile with hfile | ⟨c, hc, hplace⟩
      · obtain ⟨s', hs', hcopies'⟩ := ih hfile
        exact ⟨s', List.mem_cons_of_mem s hs', hcopies'⟩
      · obtain rfl := List.mem_singleton.mp hc
        exact ⟨s, List.mem_cons_self, hcopies, hplace⟩

/-- **The copy of a directory** is there after its step. -/
lemma Course.lookup_dir (h : plan.Course fs steps fs') (hmem : s ∈ steps) (hdir : s.entry = .dir)
    (hne : plan.dest s ≠ .empty) :
    fs'.lookup true (plan.dest s) = .ok (plan.place l s.folder s.names, .dir) := by
  induction h with
  | start => simp at hmem
  | @step steps s' out out' h hdue hdest hrun ih =>
    have hstep := fillsIn_of_run_ok hready.standsAt h hdest hrun
    rcases List.mem_cons.mp hmem with rfl | hmem
    · have hstands := hready.standsAt.of_fillsIn ((h.fillsIn hready.standsAt).trans hstep)
      rw [run_of_dir hdir] at hrun
      obtain ⟨hcreate, -⟩ := perform_ok hrun
      have hmade := createDirAll_furnished out.files (plan.dest s)
      rw [hcreate] at hmade
      obtain ⟨m, hm⟩ := isDir_iff.mp (hmade.isDir rfl hne)
      have hlocate := locate_eq_ok_iff.mpr (lookup_eq_ok_iff.mp hm)
      have hplace : m = plan.place l s.folder s.names := hstands.location_eq hdest hlocate
      rw [hm, hplace]
    · exact lookup_grows hstep.grows (ih hmem)

end Course

/-! ### Steps that fail -/

/-- A file is to be copied to the place of something else, or above it. -/
def Obstructed (plan : Plan) (l : Location) (fs final : FileSystem) (f : ResolvedFolder)
    (names : List String) : Prop :=
  ∃ f' names' entry', plan.Has fs final f' names' entry' ∧ entry' ≠ .dir ∧ (f', names') ≠ (f, names) ∧
    plan.place l f' names' <+: plan.place l f names

/-- The copy of the directory that a file is in is there, but the name of the file says a directory in
it that is not. -/
def Astray (plan : Plan) (l : Location) (final : FileSystem) (f : ResolvedFolder)
    (names : List String) (name : String) : Prop :=
  let inner := Path.proper (Path.ofText (Placeholder.substitute (plan.values[·]?) name)).segments
  final.lookup true (placed plan.values (plan.workspace.targetPath f) names) =
      .ok (plan.place l f names, .dir) ∧
    ∃ k, k ≠ [] ∧ k <+: inner ∧ k ≠ inner ∧ final.entry? (plan.place l f names ++ k) = none

section Failing

variable (hsound : fs.Sound) (hready : plan.workspace.Ready l fs)
  (horderly : plan.Orderly l fs final) (h : plan.Course fs steps fs') (hg : fs'.Grows final)
include hsound hready horderly h hg

/-- What is in the way of something else has been copied before. -/
lemma obstructed_of_file {mode : Mode} (hhas : plan.Has fs final f names entry) (hm : l <+: m)
    (hfile : fs'.entry? m = some (.file content mode)) (hway : m <+: plan.place l f names)
    (hdiffer : m = plan.place l f names → entry = .dir) : plan.Obstructed l fs final f names := by
  have hcontent : fs'.fileAt? m ≠ none := by
    rw [fileAt?_eq_some_iff.mpr ⟨mode, hfile⟩]
    simp
  obtain ⟨s, hs, hcopies, hplace⟩ := h.exists_of_file hready hm hcontent
  have hhas' := h.has hsound hready horderly hg hs
  have hno := Step.copies_iff.mp hcopies
  refine ⟨s.folder, s.names, s.entry, hhas', hno, fun hsame => ?_, hplace ▸ hway⟩
  obtain ⟨rfl, rfl⟩ := Prod.mk.inj hsame
  exact hno ((hhas'.unique hhas).trans (hdiffer hplace.symm))

variable (hfiles : out.files = fs') (hdue : plan.Due steps fs' s)
  (hrun : plan.run s out = (.error e, out')) (hlacks : e.LacksDirectory)
include hfiles hdue hrun hlacks

/-- **Only a file is in the way of the copy of a directory.** -/
lemma obstructed_of_create (hdir : s.entry = .dir) :
    plan.Obstructed l fs final s.folder s.names := by
  subst hfiles
  have hhas := hdue.has hsound hready horderly h hg
  have hs := hready.standsAt.of_fillsIn (h.fillsIn hready.standsAt)
  obtain ⟨q, hq, hdest⟩ := horderly.exists_placed hhas
  have hplace : plan.place l s.folder s.names = l ++ Path.proper q.segments := by
    rw [place, hdest, landing_join hq.toIsInner]
  rw [run_of_dir hdir] at hrun
  obtain ⟨err, rfl, hcreate⟩ := perform_error hrun
  obtain ⟨-, hlacks⟩ := hlacks
  rw [dest, hdest] at hcreate
  obtain ⟨hsegs, hl⟩ := hs.leads_join hq.toIsInner
  obtain ⟨rfl, k, -, hk, hblocks⟩ :=
    createDirAll_error hq hsegs hl hs.linkFree hlacks (by rw [hcreate])
  cases hblocks with
  | file hfile =>
    refine obstructed_of_file hsound hready horderly h hg hhas (List.prefix_append l k) hfile ?_
      fun _ => hdir
    rw [hplace, List.prefix_append_right_inj]
    exact hk

/-- **A file that is not written** has a name that says a directory which is not there, or another file
is in its way. -/
lemma astray_of_write (hcopies : s.copies) : plan.Obstructed l fs final s.folder s.names ∨
    ∃ names name, s.names = names ++ [name] ∧ e = .io .write (plan.dest s) .notFound ∧
      out'.files = fs' ∧ plan.Astray l fs' s.folder names name := by
  subst hfiles
  have hhas := hdue.has hsound hready horderly h hg
  have hs := hready.standsAt.of_fillsIn (h.fillsIn hready.standsAt)
  have hholds : plan.workspace.Holds (plan.dest s) := by
    obtain ⟨q, hq, hdest⟩ := horderly.exists_placed hhas
    exact ⟨q, hq.toIsInner, hdest⟩
  rw [run_of_copies hcopies] at hrun
  obtain ⟨err, rfl⟩ | ⟨err, content, rfl, hwrite⟩ := copyFile_error hs hholds hrun
  · exact absurd rfl hlacks.1
  obtain ⟨-, hlacks⟩ := hlacks
  cases hdue with
  | folder hf => simp [Step.copies_iff] at hcopies
  | @entry s₀ name e entries hs₀ hdir hopened hmem =>
    have hhas₀ := h.has hsound hready horderly hg hs₀
    have hne := horderly.dest_ne_empty hhas₀
    have hlookup := h.lookup_dir hready hs₀ hdir hne
    obtain ⟨-, hl⟩ := lookup_eq_ok_iff.mp hlookup
    have hq : (Path.ofText (Placeholder.substitute (plan.values[·]?) name)).Descends :=
      (horderly.names _ _ _ hhas name (by simp)).descends
    have hplace := horderly.place_entry hhas₀ hq
    have hbelow : l <+: plan.place l s₀.folder s₀.names := List.prefix_append _ _
    have hl₀ : out.files.Leads true linkLimit (FileSystem.origin out.files.cwd ((plan.dest s₀).join
        (Path.ofText (Placeholder.substitute (plan.values[·]?) name)))) (plan.dest s₀).base
        (.found (plan.place l s₀.folder s₀.names) .dir) := by
      rw [FileSystem.origin, Path.isAbsolute_join hne hq.toIsInner]
      exact hl.base
    rw [dest_entry] at hwrite ⊢
    obtain ⟨hsame, k, hk, hbegins, hshort, hblocks⟩ := writeFile_error hq
      (Path.segments_join _ hq.isAbsolute) hl₀ (hs.linkFree.mono hbelow) hlacks hwrite
    cases hblocks with
    | missing hnone =>
      exact .inr ⟨s₀.names, name, rfl, rfl, hsame, hlookup, k, hk, hbegins, hshort, hnone⟩
    | file hfile =>
      refine .inl (obstructed_of_file hsound hready horderly h hg hhas
        (hbelow.trans (List.prefix_append _ k)) hfile ?_ fun heq => ?_)
      · rw [hplace, List.prefix_append_right_inj]
        exact hbegins
      · rw [hplace] at heq
        exact absurd (List.append_cancel_left heq) hshort

end Failing

end Plan

/-- **Why a directory is lacking.** If the sources lie apart from the workspace, which is empty, and all
targets and names are plain, then there are two reasons why a workspace is not filled for want of a
directory. A file is to be copied to the place of something else or above it, or the name of a file has
several components. Then the copy of the directory that the file is in is there, but the name says a
directory in it that nothing has made. The directories on the way to the copy of a directory are never
lacking, however many components its name has. -/
theorem populate_lacks_directory {plan : Plan} (hsound : fs.Sound)
    (hready : plan.workspace.Ready l fs) (horderly : plan.Orderly l fs (plan.populate fs).files)
    (herr : (plan.populate fs).result = .error e) (hlacks : e.LacksDirectory) :
    ∃ f names entry, plan.Has fs (plan.populate fs).files f names entry ∧
      (plan.Obstructed l fs (plan.populate fs).files f names ∨
        ∃ outer name, names = outer ++ [name] ∧ entry ≠ .dir ∧
          e = .io .write (placed plan.values (plan.workspace.targetPath f) names) .notFound ∧
          plan.Astray l (plan.populate fs).files f outer name) := by
  obtain ⟨steps, fs', hcourse, hhalts⟩ := Plan.exists_halts_of_error herr
  have hfinal : plan.workspace.populate plan.sourceRoot plan.folders plan.values fs =
    plan.populate fs := rfl
  rw [hfinal] at hhalts
  generalize (plan.populate fs).files = final at horderly hhalts ⊢
  cases hhalts with
  | other hother =>
    cases e with
    | io action p err => exact absurd rfl (hother action p err)
    | walk | missingSource | unsafeTarget => exact hlacks.elim
  | @step s out out' _ hfiles hdue hdest hrun =>
    have hs := hready.standsAt.of_fillsIn (hcourse.fillsIn hready.standsAt)
    have hfills : FillsIn l fs' out'.files := by
      rw [← hfiles] at hs ⊢
      have hstep := Plan.fillsIn_of_run hs hdest
      rwa [hrun] at hstep
    have hhas := hdue.has hsound hready horderly hcourse hfills.grows
    refine ⟨s.folder, s.names, s.entry, hhas, ?_⟩
    by_cases hdir : s.entry = .dir
    · exact .inl (Plan.obstructed_of_create hsound hready horderly hcourse hfills.grows hfiles hdue
        hrun hlacks hdir)
    · obtain hobstructed | ⟨outer, name, hnames, he, hsame, hastray⟩ :=
        Plan.astray_of_write hsound hready horderly hcourse hfills.grows hfiles hdue hrun hlacks
          (Step.copies_iff.mpr hdir)
      · exact .inl hobstructed
      · rw [hsame]
        exact .inr ⟨outer, name, hnames, hdir, he, hastray⟩

/-! ### A value with two components -/

section Slashed

variable {f f' : ResolvedFolder} {names' : List String} {entry entry' : Entry}

/-- A source in which the name of a file is a placeholder. -/
def slashedSource : FileSystem :=
  ((((⟨∅, []⟩ : FileSystem).put ["ws"] .dir).put ["tpl"] .dir).put ["tpl", "s"] .dir).put
    ["tpl", "s", "$(n)"] (.file "x".toUTF8 newFileMode)

/-- The value of the placeholder has two components. -/
def slashedPlan : Plan :=
  ⟨⟨⟨["ws"]⟩⟩, Path.ofText "tpl", [⟨"s", "out"⟩], Std.ExtTreeMap.ofList [("n", "a/b")]⟩

lemma ready_slashed : slashedPlan.workspace.Ready ["ws"] slashedSource :=
  ready_of_entries (by decide +kernel) (by decide +kernel) (by decide +kernel) (by decide)
    (by decide +kernel)

lemma lookup_slashed : (slashedPlan.populate slashedSource).files.lookup true
    (sourcePath slashedPlan.sourceRoot ⟨"s", "out"⟩) = .ok (["tpl", "s"], .dir) :=
  lookup_eq_dir (by decide +kernel) (by decide +kernel)

/-- There is the folder with one file. -/
lemma has_slashed
    (h : slashedPlan.Has slashedSource (slashedPlan.populate slashedSource).files f names entry) :
    f = ⟨"s", "out"⟩ ∧ (names = [] ∧ entry = .dir ∨ names = ["$(n)"] ∧ entry ≠ .dir) := by
  have hall : ∀ x ∈ slashedSource.entries.toList, ["tpl", "s"] <+: x.1 →
      x.1 = ["tpl", "s"] ∨ x.1 = ["tpl", "s", "$(n)"] ∧ ¬isDirectory (some x.2) := by decide +kernel
  cases h with
  | folder hf => exact ⟨List.mem_singleton.mp hf, .inl ⟨rfl, rfl⟩⟩
  | @entry x names e hf hx hnames he =>
    obtain rfl := List.mem_singleton.mp hf
    obtain ⟨rfl, -⟩ := Prod.mk.inj (Except.ok.inj (hx.symm.trans lookup_slashed))
    rw [← mem_toList_iff (by simp)] at he
    rcases hall _ he (List.prefix_append _ names) with hsame | ⟨hfile, hdir⟩
    · exact absurd (List.append_right_eq_self.mp hsame) hnames
    · rw [isDirectory_iff] at hdir
      exact ⟨rfl, .inr ⟨List.append_cancel_left hfile, fun he => hdir (by rw [he])⟩⟩

lemma orderly_slashed :
    slashedPlan.Orderly ["ws"] slashedSource (slashedPlan.populate slashedSource).files where
  apart f hf x hx := by
    obtain rfl := List.mem_singleton.mp hf
    obtain ⟨rfl, -⟩ := Prod.mk.inj (Except.ok.inj (hx.symm.trans lookup_slashed))
    decide
  targets f hf := by
    obtain rfl := List.mem_singleton.mp hf
    exact ⟨by decide, ⟨_, rfl⟩, by decide +kernel⟩
  names f names e h name hname := by
    obtain ⟨rfl, ⟨rfl, -⟩ | ⟨rfl, -⟩⟩ := has_slashed h
    · simp at hname
    · obtain rfl := List.mem_singleton.mp hname
      have hvalue : Placeholder.substitute (slashedPlan.values[·]?) "$(n)" = "a/b" := by
        decide +kernel
      rw [hvalue]
      exact ⟨by decide, ⟨_, rfl⟩, by decide +kernel⟩

/-- The file stands neither in the place of the folder nor above it. -/
lemma not_obstructed_slashed
    (h : slashedPlan.Has slashedSource (slashedPlan.populate slashedSource).files f names entry)
    (h' : slashedPlan.Has slashedSource (slashedPlan.populate slashedSource).files f' names' entry')
    (hdiffer : (f, names) ≠ (f', names')) :
    slashedPlan.place ["ws"] f names ≠ slashedPlan.place ["ws"] f' names' ∧
      (entry ≠ .dir → ¬slashedPlan.place ["ws"] f names <+: slashedPlan.place ["ws"] f' names') := by
  have hfolder : slashedPlan.place ["ws"] ⟨"s", "out"⟩ [] = ["ws", "out"] := by decide +kernel
  have hfile : slashedPlan.place ["ws"] ⟨"s", "out"⟩ ["$(n)"] = ["ws", "out", "a", "b"] := by
    decide +kernel
  obtain ⟨rfl, ⟨rfl, rfl⟩ | ⟨rfl, hentry⟩⟩ := has_slashed h
  all_goals obtain ⟨rfl, ⟨rfl, rfl⟩ | ⟨rfl, hentry'⟩⟩ := has_slashed h'
  · exact absurd rfl hdiffer
  · rw [hfolder, hfile]
    exact ⟨by decide, fun hdir => absurd rfl hdir⟩
  · rw [hfolder, hfile]
    exact ⟨by decide, fun _ => by decide⟩
  · exact absurd rfl hdiffer

lemma result_slashed : (slashedPlan.populate slashedSource).result =
    .error (.io .write ⟨["ws", "out", "a", "b"]⟩ .notFound) := by decide +kernel

theorem populate_slashed_name : (slashedPlan.populate slashedSource).result =
      .error (.io .write ⟨["ws", "out", "a", "b"]⟩ .notFound) ∧
    slashedPlan.Astray ["ws"] (slashedPlan.populate slashedSource).files ⟨"s", "out"⟩ [] "$(n)" := by
  obtain ⟨f, names, entry, hhas, hwhy⟩ := populate_lacks_directory (by decide +kernel) ready_slashed
    orderly_slashed result_slashed ⟨by decide, .inl rfl⟩
  refine ⟨result_slashed, ?_⟩
  obtain ⟨f', names', entry', hhas', hentry', hdiffer, hbelow⟩ |
    ⟨outer, name, hnames, hentry, -, hastray⟩ := hwhy
  · exact absurd hbelow ((not_obstructed_slashed hhas' hhas hdiffer).2 hentry')
  · obtain ⟨rfl, ⟨-, hdir⟩ | ⟨rfl, -⟩⟩ := has_slashed hhas
    · exact absurd hdir hentry
    · have hsplit : [] ++ ["$(n)"] = outer ++ [name] := hnames
      obtain ⟨rfl, hname⟩ := List.append_inj' hsplit rfl
      obtain rfl := List.singleton_inj.mp hname
      exact hastray

/-- A file whose name has several components is not written, although no entry is in the way of
another. -/
theorem not_all_accepted_names_written : ¬ ∀ (plan : Plan) (fs : FileSystem) (l : Location)
    (e : WorkspaceError), fs.Sound → plan.workspace.Ready l fs →
      (∀ f ∈ plan.folders, ∃ x,
        fs.lookup true (sourcePath plan.sourceRoot f) = .ok (x, .dir) ∧ fs.LinkFree x) →
      plan.Orderly l fs (plan.populate fs).files →
      (∀ f names entry f' names' entry', plan.Has fs (plan.populate fs).files f names entry →
        plan.Has fs (plan.populate fs).files f' names' entry' → (f, names) ≠ (f', names') →
        plan.place l f names ≠ plan.place l f' names' ∧
          (entry ≠ .dir → ¬plan.place l f names <+: plan.place l f' names')) →
      (plan.populate fs).result = .error e → ¬e.LacksDirectory := by
  intro h
  refine h slashedPlan slashedSource ["ws"] _ (by decide +kernel) ready_slashed (fun f hf => ?_)
    orderly_slashed (fun f names entry f' names' entry' => not_obstructed_slashed) result_slashed
    ⟨by decide, .inl rfl⟩
  obtain rfl := List.mem_singleton.mp hf
  exact ⟨["tpl", "s"], lookup_eq_dir (by decide +kernel) (by decide +kernel),
    linkFree_of_entries (by decide +kernel) _⟩

end Slashed

end Workspace

end Stencil
