import Stencil.Proofs.Files.Contents
import Stencil.Proofs.Files.Listing
import Stencil.Proofs.Workspace.Containment

/-!
What copying writes.

A copy that succeeds writes files one after the other, each one at the place in the workspace that the
names in its path say, and it lists them in this order. If the source lies apart from the workspace,
then what is read does not change on the way, and there is one file for each entry below the source
that is no directory, in the order of the locations there.
-/

namespace Stencil

open FileSystem

/-- A file that is written. -/
structure Copy where
  dest : Path
  content : ByteArray

namespace Workspace

variable {w : Workspace} {fs fs' source : FileSystem} {l m x : Location}
  {p q target dest origin directory : Path} {values : Bindings} {out out' out'' : Output}
  {names : List String} {s : String} {e : Entry} {r : Reached} {content : ByteArray} {mode : Mode}
  {copies copies' : List Copy} {c : Copy}

/-! ### Places in the workspace -/

/-- The place that a path in the workspace leads to if the root leads to `l`. -/
def landing (w : Workspace) (l : Location) (p : Path) : Location :=
  l ++ Path.proper (p.segments.drop w.root.base.length)

lemma landing_join (hq : q.IsInner) : w.landing l (w.root.join q) = l ++ Path.proper q.segments := by
  rw [landing, Path.segments_join _ hq.isAbsolute, List.drop_left]

namespace StandsAt

/-- What comes after the root is followed from where the root leads to. -/
lemma leads_iff {follow : Bool} (h : w.StandsAt l fs) (hq : q.IsInner) :
    fs.Leads follow linkLimit (FileSystem.origin fs.cwd (w.root.join q)) (w.root.join q).segments r ↔
      fs.Leads follow 0 l q.segments r := by
  obtain ⟨hsegs, hl⟩ := h.leads_join hq
  obtain ⟨n, -, hwalk⟩ := hl.exists_walk_append
  rw [hsegs, ← walk_eq_ok_iff, hwalk follow q.segments hq.ne_nil, walk_eq_ok_iff]
  exact ⟨fun hr => (hr.stays_below h.linkFree List.prefix_rfl hq.up_not_mem).2 follow 0,
    fun hr => (hr.stays_below h.linkFree List.prefix_rfl hq.up_not_mem).2 follow n⟩

/-- **The names in a path say its place** in the workspace. -/
theorem location_eq {follow : Bool} (h : w.StandsAt l fs) (hp : w.Holds p)
    (hr : fs.locate follow p = .ok r) : r.location = w.landing l p := by
  obtain ⟨q, hq, rfl⟩ := hp
  obtain ⟨-, hr⟩ := locate_eq_ok_iff.mp hr
  rw [landing_join hq]
  exact ((h.leads_iff hq).mp hr).location_eq h.linkFree List.prefix_rfl hq.up_not_mem

/-- A file that is written in the workspace stands in the place of its path. -/
lemma writeFile_ok (h : w.StandsAt l fs) (hp : w.Holds p)
    (hok : fs.writeFile p content = (.ok (), fs')) :
    fs'.fileAt? = Function.update fs.fileAt? (w.landing l p) (some content) ∧
      ∃ mode, fs'.lookup true p = .ok (w.landing l p, .file content mode) := by
  obtain ⟨r, mode, hr, hdir, hend, rfl⟩ := FileSystem.writeFile_ok hok
  have hfills := h.put hp hr hdir content mode
  have hlocation := h.location_eq hp hr
  obtain ⟨htext, hleads⟩ := locate_eq_ok_iff.mp hr
  have hm : r.location ≠ [] := by
    rcases r with ⟨m, e⟩ | m
    · rintro rfl
      have hne : e ≠ .dir := fun he => hdir (by rw [he]; rfl)
      exact hne (Option.some.inj (hleads.entry?_eq_some hne)).symm
    · exact ne_nil_of_entry?_eq_none hleads.entry?_eq_none
  have hput : FileSystem.entry? (fs.put r.location (.file content mode)) r.location =
      some (.file content mode) := by rw [entry?_put hm, if_pos rfl]
  rw [← hlocation]
  refine ⟨fileAt?_put hm content mode, mode, ?_⟩
  obtain ⟨q, hq, rfl⟩ := hp
  have hends : q.segments.getLast? ≠ some "" := by
    rwa [Path.segments_join _ hq.isAbsolute, List.getLast?_append_of_ne_nil _ hq.ne_nil] at hend
  rw [lookup_eq_ok_iff, (h.of_fillsIn hfills).leads_iff hq]
  refine ⟨htext, ?_⟩
  rw [h.leads_iff hq] at hleads
  rcases r with ⟨m, e⟩ | m
  · -- another file has been there
    obtain ⟨e', hleads', hst⟩ := hleads.grows hfills.grows
    have hne : e' ≠ .dir := by
      rintro rfl
      cases hst
      exact hdir rfl
    have he' := hleads'.entry?_eq_some hne
    rwa [Option.some.inj (he'.symm.trans hput)] at hleads'
  · exact hleads.file_of_missing h.linkFree List.prefix_rfl hq.up_not_mem hfills.grows hput hends

end StandsAt

/-! ### What is written -/

/-- What names are in the workspace: placeholders are replaced, and each name is put behind the ones
before it. -/
def placed (values : Bindings) (target : Path) (names : List String) : Path :=
  names.foldl (fun p name => p.join (Path.ofText (Placeholder.substitute (values[·]?) name))) target

/-- What the content of a file is in the workspace: the placeholders of a text are replaced. -/
def filled (values : Bindings) (content : ByteArray) : ByteArray :=
  match String.fromUTF8? content with
  | none => content
  | some text => (Placeholder.substitute (values[·]?) text).toUTF8

/-- The contents of files when copies are written one after the other. -/
def overwrite (w : Workspace) (l : Location) (copies : List Copy)
    (contents : Location → Option ByteArray) : Location → Option ByteArray :=
  copies.foldl (fun contents c => Function.update contents (w.landing l c.dest) (some c.content))
    contents

lemma overwrite_append (contents : Location → Option ByteArray) :
    w.overwrite l (copies ++ copies') contents =
      w.overwrite l copies' (w.overwrite l copies contents) := List.foldl_append

/-- A part of a copy writes these files in this order, and changes no other contents. -/
structure Writes (w : Workspace) (l : Location) (copies : List Copy) (out out' : Output) : Prop where
  fills : FillsIn l out.files out'.files
  written : out'.written = (copies.map Copy.dest).reverse ++ out.written
  contents : out'.files.fileAt? = w.overwrite l copies out.files.fileAt?
  /-- The paths lead to the files. -/
  found : ∀ c ∈ copies, ∃ content mode,
    out'.files.lookup true c.dest = .ok (w.landing l c.dest, .file content mode)

namespace Writes

/-- Nothing is written where no file changes. -/
lemma nothing (hfills : FillsIn l out.files out'.files) (hwritten : out'.written = out.written)
    (hcontents : out'.files.fileAt? = out.files.fileAt?) : w.Writes l [] out out' :=
  ⟨hfills, hwritten, hcontents, by simp⟩

lemma refl (w : Workspace) (l : Location) (out : Output) : w.Writes l [] out out :=
  .nothing (.refl l out.files) rfl rfl

lemma trans (h : w.Writes l copies out out') (h' : w.Writes l copies' out' out'') :
    w.Writes l (copies ++ copies') out out'' where
  fills := h.fills.trans h'.fills
  written := by
    rw [h'.written, h.written, List.map_append, List.reverse_append, List.append_assoc]
  contents := by rw [h'.contents, h.contents, overwrite_append]
  found c hc := by
    rcases List.mem_append.mp hc with hc | hc
    · obtain ⟨content, mode, hfound⟩ := h.found c hc
      exact lookup_file_grows h'.fills.grows hfound |>.imp fun _ hc => hc
    · exact h'.found c hc

/-- From the start on, the paths are listed in the order in which they are written. -/
lemma listed (h : w.Writes l copies (.ofFiles fs) out) :
    out.written.reverse = copies.map Copy.dest := by
  rw [h.written, Output.ofFiles, List.append_nil, List.reverse_reverse]

end Writes

lemma destination_ok (h : destination values origin target names out = (.ok dest, out')) :
    dest = placed values target names ∧ out'.files = out.files ∧ out'.written = out.written := by
  induction names generalizing target out with
  | nil =>
    obtain ⟨hdest, rfl⟩ := Prod.mk.inj h
    exact ⟨(Except.ok.inj hdest).symm, rfl, rfl⟩
  | cons name names ih =>
    unfold destination at h
    dsimp only at h
    split at h
    · simp at h
    · next p hp =>
      obtain ⟨rfl, -⟩ := contained_eq_ok_iff.mp hp
      obtain ⟨hdest, hfiles, hwritten⟩ := ih h
      exact ⟨hdest, hfiles, hwritten⟩

lemma copiedContent_eq (values : Bindings) (origin : Path) (content : ByteArray) (out : Output) :
    ∃ warnings, copiedContent values origin content out =
      (filled values content, { out with warnings }) := by
  unfold copiedContent filled
  cases String.fromUTF8? content with
  | none => exact ⟨out.warnings, rfl⟩
  | some text => exact ⟨_, rfl⟩

lemma perform_ok {action : FileAction} {operation : FileSystem → FileSystem.Result Unit}
    (h : out.perform action p operation = (.ok (), out')) :
    operation out.files = (.ok (), out'.files) ∧ out'.written = out.written := by
  unfold Output.perform at h
  split at h
  · next files heq =>
    obtain rfl := (Prod.mk.inj h).2
    exact ⟨heq, rfl⟩
  · simp at h

/-- **Copying a file** writes what is read, with its placeholders replaced. -/
lemma copyFile_ok (hs : w.StandsAt l out.files) (hdest : w.Holds dest)
    (h : copyFile values origin dest out = (.ok (), out')) : ∃ content,
      out.files.readFile origin = .ok content ∧
        w.Writes l [⟨dest, filled values content⟩] out out' := by
  unfold copyFile at h
  split at h
  · simp at h
  next content hread =>
  refine ⟨content, hread, ?_⟩
  obtain ⟨warnings, hcontent⟩ := copiedContent_eq values origin content out
  rw [hcontent] at h
  dsimp only at h
  split at h
  · simp at h
  next out₁ hwrite =>
  obtain ⟨hwrite, hwritten⟩ := perform_ok hwrite
  obtain ⟨hcontents, mode, hfound⟩ := hs.writeFile_ok hdest hwrite
  have hfills : FillsIn l out.files out₁.files := by
    have hfills := hs.writeFile hdest (filled values content)
    rwa [hwrite] at hfills
  have hlist : w.Writes l [⟨dest, filled values content⟩] out
      { out₁ with written := dest :: out₁.written } :=
    ⟨hfills, by simp [hwritten], hcontents, by simpa using ⟨_, _, hfound⟩⟩
  split at h
  · obtain rfl := (Prod.mk.inj h).2
    exact hlist
  next mode' _ =>
  split at h
  · simp at h
  next out₂ hset =>
  obtain ⟨hset, hwritten'⟩ := perform_ok hset
  obtain rfl := (Prod.mk.inj h).2
  -- setting the permissions changes no content
  have hmode := (hs.of_fillsIn hfills).setMode hdest mode'
  have hsame := fileAt?_setMode out₁.files dest mode'
  rw [hset] at hmode hsame
  have hlast : w.Writes l [] { out₁ with written := dest :: out₁.written }
      { out₂ with written := dest :: out₂.written } := .nothing hmode (by simp [hwritten']) hsame
  simpa using hlist.trans hlast

lemma createDirAll_ok (hs : w.StandsAt l out.files) (hdest : w.Holds dest) {action : FileAction}
    (h : out.perform action dest (·.createDirAll dest) = (.ok (), out')) :
    w.Writes l [] out out' := by
  obtain ⟨hcreate, hwritten⟩ := perform_ok h
  have hfills := hs.createDirAll hdest
  have hsame := fileAt?_createDirAll out.files dest
  rw [hcreate] at hfills hsame
  exact .nothing hfills hwritten hsame

/-! ### What is read -/

/-- The file that an entry below the source of a folder becomes, where `names` lead to the directory
that the entry is seen from. What comes of a link is not said. -/
structure CopyOf (values : Bindings) (target : Path) (names : List String)
    (leaf : List String × Entry) (c : Copy) : Prop where
  dest : c.dest = placed values target (names ++ leaf.1)
  content : ∀ content mode, leaf.2 = .file content mode → c.content = filled values content

/-- The path leads to a directory that lies apart from the workspace, which alone has changed. -/
structure Reads (source : FileSystem) (l x : Location) (directory : Path) (fs : FileSystem) :
    Prop where
  fills : FillsIn l source fs
  apart : ∀ m, x <+: m → ¬ l <+: m
  lookup : fs.lookup true directory = .ok (x, .dir)

namespace Reads

variable (h : Reads source l x directory fs)
include h

lemma entry? (hm : x <+: m) : fs.entry? m = source.entry? m := h.fills.outside m (h.apart m hm)

lemma of_fillsIn (hf : FillsIn l fs fs') : Reads source l x directory fs' :=
  ⟨h.fills.trans hf, h.apart, lookup_grows hf.grows h.lookup⟩

/-- A directory in the directory is read as it was. -/
lemma child (hs : Path.IsName s) (he : source.entry? (x ++ [s]) = some .dir)
    {entries : List (String × Entry)} (hlist : fs.listDir (directory.join ⟨[s]⟩) = .ok entries) :
    Reads source l (x ++ [s]) (directory.join ⟨[s]⟩) fs ∧ entries = source.children (x ++ [s]) := by
  obtain ⟨m, hlookup, rfl⟩ := listDir_ok hlist
  obtain ⟨n, hleads⟩ := leads_of_name h.lookup hs hlookup
  have he' : FileSystem.entry? fs (x ++ [s]) = some .dir :=
    (h.entry? (List.prefix_append x [s])).trans he
  obtain ⟨rfl, -⟩ := hleads.found_of_entry? hs he' (by simp)
  have hbelow : ∀ m, x ++ [s] <+: m → x <+: m := fun m hm => (List.prefix_append x [s]).trans hm
  exact ⟨⟨h.fills, fun m hm => h.apart m (hbelow m hm), hlookup⟩,
    children_congr fun m hm => h.entry? (hbelow m hm)⟩

/-- A file in the directory is read as it was. -/
lemma file (hs : Path.IsName s) (he : source.entry? (x ++ [s]) = some (.file content mode))
    {content' : ByteArray} (hread : fs.readFile (directory.join ⟨[s]⟩) = .ok content') :
    content' = content := by
  obtain ⟨m, mode', hlookup⟩ := readFile_ok hread
  obtain ⟨n, hleads⟩ := leads_of_name h.lookup hs hlookup
  have he' : FileSystem.entry? fs (x ++ [s]) = some (.file content mode) :=
    (h.entry? (List.prefix_append x [s])).trans he
  obtain ⟨-, hfile⟩ := hleads.found_of_entry? hs he' (by simp)
  exact (Entry.file.inj hfile).1

end Reads

/-! ### Directories and folders -/

/-- How directories are copied: files are written, and if the directory is read apart from the
workspace then they are the copies of what is below it. -/
def CopyDir.WritesTo (w : Workspace) (l : Location) (job : Job) (inner : CopyDir) : Prop :=
  ∀ directory names opened out out', w.StandsAt l out.files →
    inner directory names opened out = (.ok (), out') → ∃ entries copies, opened = .ok entries ∧
      w.Writes l copies out out' ∧ ∀ source x, source.Sound → Reads source l x directory out.files →
        entries = source.children x →
        List.Forall₂ (CopyOf job.values job.target names) (source.leaves x) copies

section Job

variable {job : Job} (hjob : w.Holds job.target) {inner : CopyDir} (hinner : inner.WritesTo w l job)
include hjob hinner

lemma copyEntry_ok (hs : w.StandsAt l out.files)
    (h : copyEntry job inner directory names s e out = (.ok (), out')) :
    ∃ copies, w.Writes l copies out out' ∧ ∀ source x, source.Sound →
      Reads source l x directory out.files → source.entry? (x ++ [s]) = some e →
      List.Forall₂ (CopyOf job.values job.target names) (source.branch x (s, e)) copies := by
  unfold copyEntry at h
  dsimp only at h
  split at h
  · simp at h
  next dest out₁ hnames =>
  have hdest := destination_holds hjob hnames
  obtain ⟨hplaced, hfiles, hwritten⟩ := destination_ok hnames
  have hnothing : w.Writes l [] out out₁ :=
    .nothing (by rw [hfiles]; exact .refl l out.files) hwritten (by rw [hfiles])
  have hs₁ : w.StandsAt l out₁.files := by rwa [hfiles]
  by_cases hdir : e = .dir
  · subst hdir
    dsimp only at h
    split at h
    · simp at h
    next out₂ hcreate =>
    have hmade := createDirAll_ok hs₁ hdest hcreate
    obtain ⟨entries, copies, hopened, hwrites, hcopies⟩ :=
      hinner _ _ _ _ _ (hs₁.of_fillsIn hmade.fills) h
    refine ⟨copies, hnothing.trans (hmade.trans hwrites), fun source x hsound hreads he => ?_⟩
    have hs := hsound.named x s (by simp [he])
    obtain ⟨hreads', hentries⟩ := hreads.child hs he hopened
    have hfills : FillsIn l out.files out₂.files := by rw [← hfiles]; exact hmade.fills
    have hbranch := hcopies source _ hsound (hreads'.of_fillsIn hfills) hentries
    rw [branch, List.forall₂_map_left_iff]
    refine hbranch.imp fun y c hc => ⟨?_, hc.content⟩
    rw [hc.dest, List.append_assoc, List.singleton_append]
  · have hfile : copyFile job.values (directory.join ⟨[s]⟩) dest out₁ = (.ok (), out') := by
      cases e <;> first | exact h | exact absurd rfl hdir
    obtain ⟨content, hread, hwrites⟩ := copyFile_ok hs₁ hdest hfile
    refine ⟨_, hnothing.trans hwrites, fun source x hsound hreads he => ?_⟩
    have hs := hsound.named x s (by simp [he])
    have hbranch : source.branch x (s, e) = [([s], e)] := by
      cases e <;> first | rfl | exact absurd rfl hdir
    rw [hbranch]
    refine .cons ⟨hplaced, fun content' mode he' => ?_⟩ .nil
    subst he'
    rw [hfiles] at hread
    rw [hreads.file hs he hread]

lemma copyEntries_ok {entries : List (String × Entry)} (hs : w.StandsAt l out.files)
    (h : copyEntries job inner directory names entries out = (.ok (), out')) :
    ∃ copies, w.Writes l copies out out' ∧ ∀ source x, source.Sound →
      Reads source l x directory out.files →
      (∀ y ∈ entries, source.entry? (x ++ [y.1]) = some y.2) →
      List.Forall₂ (CopyOf job.values job.target names) (entries.flatMap (source.branch x)) copies := by
  induction entries generalizing out with
  | nil =>
    obtain rfl := (Prod.mk.inj h).2
    exact ⟨[], .refl w l out, fun _ _ _ _ _ => .nil⟩
  | cons y rest ih =>
    obtain ⟨s, e⟩ := y
    unfold copyEntries at h
    split at h
    · simp at h
    next out₁ hentry =>
    obtain ⟨copies, hwrites, hcopies⟩ := copyEntry_ok hjob hinner hs hentry
    obtain ⟨copies', hwrites', hcopies'⟩ := ih (hs.of_fillsIn hwrites.fills) h
    refine ⟨copies ++ copies', hwrites.trans hwrites', fun source x hsound hreads hall => ?_⟩
    obtain ⟨he, hrest⟩ := List.forall_mem_cons.mp hall
    exact List.rel_append (hcopies source x hsound hreads he)
      (hcopies' source x hsound (hreads.of_fillsIn hwrites.fills) hrest)

end Job

lemma copyDir_writesTo {job : Job} (hjob : w.Holds job.target) (depth : Nat) :
    (copyDir job depth).WritesTo w l job := by
  induction depth with
  | zero =>
    intro directory names opened out out' hs h
    simp [copyDir] at h
  | succ depth ih =>
    intro directory names opened out out' hs h
    unfold copyDir at h
    split at h
    · simp at h
    next entries =>
    obtain ⟨copies, hwrites, hcopies⟩ := copyEntries_ok hjob ih hs h
    refine ⟨entries, copies, rfl, hwrites, fun source x hsound hreads hentries => ?_⟩
    rw [leaves_eq_flatMap hsound.tree, ← hentries]
    refine hcopies source x hsound hreads fun y hy => ?_
    exact mem_children_iff.mp (hentries ▸ hy)

/-- Neither place is at or below the other. -/
def Apart (l x : Location) : Prop := ¬ l <+: x ∧ ¬ x <+: l

instance : Decidable (Apart l x) := inferInstanceAs (Decidable (_ ∧ _))

lemma Apart.not_below (h : Apart l x) (hm : x <+: m) : ¬ l <+: m := fun hl =>
  (List.prefix_or_prefix_of_prefix hl hm).elim h.1 h.2

/-- The path of the directory that a folder is copied from. -/
def sourcePath (sourceRoot : Path) (f : ResolvedFolder) : Path :=
  sourceRoot.join (Path.ofText f.source)

/-- The path in the workspace that a folder is copied to. -/
def targetPath (w : Workspace) (f : ResolvedFolder) : Path := w.root.join (Path.ofText f.target)

/-- The place of the source of a folder, and the files that are written for it. -/
structure FolderCopy where
  place : Location
  copies : List Copy

/-- What is written for a folder are the copies of what is below its source, if this lies apart from
the workspace. -/
structure Copies (w : Workspace) (sourceRoot : Path) (values : Bindings) (l : Location)
    (source fs' : FileSystem) (f : ResolvedFolder) (b : FolderCopy) : Prop where
  lookup : fs'.lookup true (sourcePath sourceRoot f) = .ok (b.place, .dir)
  copies : source.Sound → Apart l b.place →
    List.Forall₂ (CopyOf values (w.targetPath f) []) (source.leaves b.place) b.copies

section Folders

variable {sourceRoot : Path} {f : ResolvedFolder} {folders : List ResolvedFolder}

lemma holds_target (hf : ∃ p, contained f.target = .ok p) : w.Holds (w.targetPath f) := by
  obtain ⟨p, hp⟩ := hf
  exact ⟨_, .ofText (contained_eq_ok_iff.mp hp).2, rfl⟩

lemma copyFolder_ok (hs : w.StandsAt l out.files) (hsource : FillsIn l source out.files)
    (hf : ∃ p, contained f.target = .ok p)
    (h : w.copyFolder sourceRoot values f out = (.ok (), out')) : ∃ b,
      w.Copies sourceRoot values l source out'.files f b ∧ w.Writes l b.copies out out' := by
  have htarget := holds_target (w := w) hf
  unfold copyFolder at h
  dsimp only at h
  split at h
  · split at h
    · simp at h
    next out₁ hcreate =>
    have hmade := createDirAll_ok hs htarget hcreate
    have hs₁ := hs.of_fillsIn hmade.fills
    obtain ⟨entries, copies, hopened, hwrites, hcopies⟩ :=
      copyDir_writesTo htarget _ _ _ _ _ _ hs₁ h
    obtain ⟨x, hlookup, hentries⟩ := listDir_ok hopened
    refine ⟨⟨x, copies⟩, ⟨lookup_grows hwrites.fills.grows hlookup, fun hsound hapart => ?_⟩,
      hmade.trans hwrites⟩
    have hreads : Reads source l x (sourcePath sourceRoot f) out₁.files :=
      ⟨hsource.trans hmade.fills, fun m hm => hapart.not_below hm, hlookup⟩
    refine hcopies source x hsound hreads ?_
    rw [hentries, children_congr fun m hm => hreads.entry? hm]
  · simp at h

lemma Copies.of_fillsIn {b : FolderCopy} (h : w.Copies sourceRoot values l source fs f b)
    (hf : FillsIn l fs fs') : w.Copies sourceRoot values l source fs' f b :=
  ⟨lookup_grows hf.grows h.lookup, h.copies⟩

/-- **Copying folders** writes the copies of one folder after the other. -/
theorem copyFolders_ok (hs : w.StandsAt l out.files)
    (hsource : FillsIn l source out.files) (hf : ∀ f ∈ folders, ∃ p, contained f.target = .ok p)
    (h : w.copyFolders sourceRoot values folders out = (.ok (), out')) : ∃ blocks : List FolderCopy,
      List.Forall₂ (w.Copies sourceRoot values l source out'.files) folders blocks ∧
      w.Writes l (blocks.flatMap FolderCopy.copies) out out' := by
  induction folders generalizing out with
  | nil =>
    obtain rfl := (Prod.mk.inj h).2
    exact ⟨[], .nil, .refl w l out⟩
  | cons f folders ih =>
    obtain ⟨hhead, htail⟩ := List.forall_mem_cons.mp hf
    rw [copyFolders_cons] at h
    split at h
    · simp at h
    next out₁ hfolder =>
    obtain ⟨b, hb, hwrites⟩ := copyFolder_ok hs hsource hhead hfolder
    obtain ⟨blocks, hblocks, hwrites'⟩ :=
      ih (hs.of_fillsIn hwrites.fills) (hsource.trans hwrites.fills) htail h
    exact ⟨b :: blocks, .cons (hb.of_fillsIn hwrites'.fills) hblocks, hwrites.trans hwrites'⟩

/-- What is said of each folder and its copies can be said of all of them in a row. -/
lemma flatMap_copies {α : Type} {blocks : List FolderCopy} (of : FolderCopy → List α)
    (expected : ResolvedFolder → Location → List α)
    (h : List.Forall₂ (w.Copies sourceRoot values l source fs) folders blocks)
    (heach : ∀ f, ∀ b ∈ blocks, w.Copies sourceRoot values l source fs f b →
      of b = expected f b.place) :
    blocks.flatMap of =
      (folders.zip (blocks.map FolderCopy.place)).flatMap fun x => expected x.1 x.2 := by
  induction h with
  | nil => rfl
  | cons hb _ ih =>
    rw [List.flatMap_cons, heach _ _ List.mem_cons_self hb,
      ih fun f b hmem => heach f b (List.mem_cons_of_mem _ hmem)]
    rfl

end Folders

end Workspace

end Stencil
