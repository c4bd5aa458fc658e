import Stencil.Proofs.Files.Operations
import Stencil.Workspace.Populate

/-!
Copies stay in the workspace.

Targets and names are checked before they are put behind the root of the workspace. So whatever is
made has the root for the beginning of its path, and goes on with segments that do not go up. Where
the root leads to a directory without links, all of this stands in the directory, and no link is made
in it.
-/

namespace Stencil

/-- What an operation on a path comes to. -/
lemma Output.perform_eq {α : Type} (out : Output) (action : FileAction) (p : Path)
    (operation : FileSystem → FileSystem.Result α) : out.perform action p operation =
      ((operation out.files).1.mapError (.io action p),
        { out with files := (operation out.files).2 }) := by
  unfold Output.perform
  split <;> next heq => rw [heq]; rfl

namespace Workspace

open FileSystem

variable {w : Workspace} {fs fs' : FileSystem} {l : Location} {p q target dest origin : Path}
  {values : Bindings} {out out' out'' : Output} {names : List String} {r : Reached}

/-- A path that consists of the root of the workspace and segments that do not go up. -/
def Holds (w : Workspace) (p : Path) : Prop := ∃ q : Path, q.IsInner ∧ p = w.root.join q

lemma Holds.join (hp : w.Holds p) (hq : q.IsInner) : w.Holds (p.join q) := by
  obtain ⟨q', hq', rfl⟩ := hp
  exact ⟨q'.join q, hq'.join hq, Path.join_join w.root hq' hq⟩

/-- A name that is not refused does not go up. -/
lemma contained_eq_ok_iff {name : String} :
    contained name = .ok p ↔ p = Path.ofText name ∧ (Path.ofText name).staysBelow := by
  unfold contained
  dsimp only
  split
  · next h => simp [h, eq_comm]
  · next h => simp [h]

lemma isInner_of_contained {name : String} (h : contained name = .ok p) : p.IsInner := by
  obtain ⟨rfl, hstays⟩ := contained_eq_ok_iff.mp h
  exact .ofText hstays

/-! ### What is made below the root -/

/-- The root of the workspace leads to a directory in which there are no links. -/
structure StandsAt (w : Workspace) (l : Location) (fs : FileSystem) : Prop where
  leads : fs.Leads true linkLimit (FileSystem.origin fs.cwd w.root) w.root.base (.found l .dir)
  linkFree : fs.LinkFree l
  named : w.root ≠ .empty

namespace StandsAt

lemma of_fillsIn (h : w.StandsAt l fs) (hf : FillsIn l fs fs') : w.StandsAt l fs' where
  leads := by
    rw [hf.grows.cwd]
    exact h.leads.dir_of_grows hf.grows
  linkFree := hf.linkFree h.linkFree
  named := h.named

/-- The root is followed first. -/
lemma leads_join (h : w.StandsAt l fs) (hq : q.IsInner) :
    (w.root.join q).segments = w.root.base ++ q.segments ∧ fs.Leads true linkLimit
      (FileSystem.origin fs.cwd (w.root.join q)) w.root.base (.found l .dir) := by
  refine ⟨Path.segments_join _ hq.isAbsolute, ?_⟩
  rw [FileSystem.origin, Path.isAbsolute_join h.named hq]
  exact h.leads

lemma createDirAll (h : w.StandsAt l fs) (hp : w.Holds p) : FillsIn l fs (fs.createDirAll p).2 := by
  obtain ⟨q, hq, rfl⟩ := hp
  obtain ⟨hsegs, hl⟩ := h.leads_join hq
  exact (createDirAll_furnished fs _).paved.fillsIn hsegs hq.up_not_mem hl h.linkFree

/-- **A file is put below the root**, where there is nothing or another file. -/
lemma put (h : w.StandsAt l fs) (hp : w.Holds p) (hr : fs.locate true p = .ok r)
    (hdir : r ≠ .found r.location .dir) (content : ByteArray) (mode : Mode) :
    FillsIn l fs (fs.put r.location (.file content mode)) := by
  obtain ⟨q, hq, rfl⟩ := hp
  obtain ⟨hsegs, hl⟩ := h.leads_join hq
  obtain ⟨-, hr⟩ := locate_eq_ok_iff.mp hr
  have hbelow : l <+: r.location := by
    rw [hsegs] at hr
    exact (hl.append_stays_below hr hq.ne_nil h.linkFree hq.up_not_mem).1
  cases r with
  | missing m =>
    have hnone := hr.entry?_eq_none
    exact .put (ne_nil_of_entry?_eq_none hnone) hbelow (by simp [Reached.location, hnone]) (by simp)
  | found m e =>
    have hne : e ≠ .dir := fun he => hdir (by rw [he]; rfl)
    have he := hr.entry?_eq_some hne
    have hm : m ≠ [] := by
      rintro rfl
      exact hne (Option.some.inj he).symm
    refine .put hm hbelow (fun e' he' => ?_) (by simp)
    obtain rfl := Option.some.inj (he.symm.trans he')
    cases e with
    | file => exact .file
    | dir => exact absurd rfl hne
    | link target => exact absurd rfl (hr.not_link target)

lemma writeFile (h : w.StandsAt l fs) (hp : w.Holds p) (content : ByteArray) :
    FillsIn l fs (fs.writeFile p content).2 := by
  rcases writeFile_cases fs p content with hsame | ⟨r, mode, hr, hdir, hput⟩
  · rw [hsame]
    exact .refl l fs
  · rw [hput]
    exact h.put hp hr hdir content mode

lemma setMode (h : w.StandsAt l fs) (hp : w.Holds p) (mode : Mode) :
    FillsIn l fs (fs.setMode p mode).2 := by
  rcases setMode_cases fs p mode with hsame | ⟨m, content, mode', hlookup, hput⟩
  · rw [hsame]
    exact .refl l fs
  · rw [hput]
    have hr := locate_eq_ok_iff.mpr (lookup_eq_ok_iff.mp hlookup)
    exact h.put hp hr (by simp [Reached.location]) content mode

end StandsAt

/-! ### What a part of a copy does -/

/-- A part of a copy fills in the workspace, and lists files in the workspace only. -/
structure Keeps (w : Workspace) (l : Location) (out out' : Output) : Prop where
  fills : w.StandsAt l out.files → FillsIn l out.files out'.files
  holds : ∀ p ∈ out'.written, p ∈ out.written ∨ w.Holds p

namespace Keeps

lemma refl (w : Workspace) (l : Location) (out : Output) : w.Keeps l out out :=
  ⟨fun _ => .refl l out.files, fun _ hp => .inl hp⟩

lemma trans (h : w.Keeps l out out') (h' : w.Keeps l out' out'') : w.Keeps l out out'' where
  fills hs := (h.fills hs).trans (h'.fills (hs.of_fillsIn (h.fills hs)))
  holds p hp := (h'.holds p hp).elim (h.holds p) .inr

/-- An operation on files lists no file. -/
lemma perform {α : Type} (w : Workspace) (l : Location) (out : Output) (action : FileAction)
    (p : Path) (operation : FileSystem → Result α)
    (h : w.StandsAt l out.files → FillsIn l out.files (operation out.files).2) :
    w.Keeps l out (out.perform action p operation).2 := by
  rw [Output.perform_eq]
  exact ⟨h, fun _ hp => .inl hp⟩

lemma fill (w : Workspace) (l : Location) (out : Output) (values : Bindings) (origin : Path)
    (text : String) : w.Keeps l out (out.fill values origin text).2 :=
  ⟨fun _ => .refl l out.files, fun _ hp => .inl hp⟩

lemma write (hp : w.Holds p) : w.Keeps l out { out with written := p :: out.written } :=
  ⟨fun _ => .refl l out.files, fun p' hp' => by
    rcases List.mem_cons.mp hp' with rfl | hmem
    · exact .inr hp
    · exact .inl hmem⟩

end Keeps

lemma destination_keeps (values : Bindings) (origin target : Path) (names : List String)
    (out : Output) : w.Keeps l out (destination values origin target names out).2 := by
  induction names generalizing target out with
  | nil => exact .refl w l out
  | cons name names ih =>
    have hfill := Keeps.fill w l out values origin name
    unfold destination
    dsimp only
    split
    · exact hfill
    · exact hfill.trans (ih _ _)

/-- **No name leads out** of the workspace. -/
lemma destination_holds (ht : w.Holds target)
    (h : destination values origin target names out = (.ok dest, out')) : w.Holds dest := by
  induction names generalizing target out with
  | nil =>
    obtain rfl := Except.ok.inj (Prod.mk.inj h).1
    exact ht
  | cons name names ih =>
    unfold destination at h
    dsimp only at h
    split at h
    · simp at h
    · next hcontained => exact ih (ht.join (isInner_of_contained hcontained)) h

lemma copiedContent_keeps (values : Bindings) (origin : Path) (content : ByteArray) (out : Output) :
    w.Keeps l out (copiedContent values origin content out).2 := by
  unfold copiedContent
  split
  · exact .refl w l out
  · exact .fill w l out values origin _

lemma copyFile_keeps (values : Bindings) (origin : Path) (hdest : w.Holds dest) (out : Output) :
    w.Keeps l out (copyFile values origin dest out).2 := by
  unfold copyFile
  split
  · exact .refl w l out
  next content _ =>
  have hcontent := copiedContent_keeps (w := w) (l := l) values origin content out
  generalize copiedContent values origin content out = copied at hcontent ⊢
  obtain ⟨copied, out₁⟩ := copied
  have hwrite := Keeps.perform w l out₁ .write dest (·.writeFile dest copied)
    fun hs => hs.writeFile hdest copied
  dsimp only
  split
  · next heq =>
    rw [heq] at hwrite
    exact hcontent.trans hwrite
  next out₂ heq =>
  rw [heq] at hwrite
  split
  · exact hcontent.trans (hwrite.trans (.write hdest))
  next mode _ =>
  have hmode := Keeps.perform w l out₂ .setPermissions dest (·.setMode dest mode)
    fun hs => hs.setMode hdest mode
  split
  · next heq =>
    rw [heq] at hmode
    exact hcontent.trans (hwrite.trans hmode)
  · next heq =>
    rw [heq] at hmode
    exact hcontent.trans (hwrite.trans (hmode.trans (.write hdest)))

/-- How directories are copied keeps to the workspace. -/
def CopyDir.KeepsTo (w : Workspace) (l : Location) (inner : CopyDir) : Prop :=
  ∀ directory names opened out, w.Keeps l out (inner directory names opened out).2

section Job

variable {job : Job} (hjob : w.Holds job.target) {inner : CopyDir} (hinner : inner.KeepsTo w l)
include hjob

section Entry

include hinner

lemma copyEntry_keeps (directory : Path) (names : List String) (name : String) (entry : Entry)
    (out : Output) : w.Keeps l out (copyEntry job inner directory names name entry out).2 := by
  have hnames := destination_keeps (w := w) (l := l) job.values (directory.join ⟨[name]⟩) job.target
    (names ++ [name]) out
  unfold copyEntry
  dsimp only
  split
  · next heq => rwa [heq] at hnames
  next dest out₁ heq =>
  have hdest := destination_holds hjob heq
  rw [heq] at hnames
  split
  · have hcreate := Keeps.perform w l out₁ .create dest (·.createDirAll dest)
      fun hs => hs.createDirAll hdest
    split
    · next heq =>
      rw [heq] at hcreate
      exact hnames.trans hcreate
    · next heq =>
      rw [heq] at hcreate
      exact hnames.trans (hcreate.trans (hinner _ _ _ _))
  · exact hnames.trans (copyFile_keeps _ _ hdest _)

lemma copyEntries_keeps (directory : Path) (names : List String) (entries : List (String × Entry))
    (out : Output) : w.Keeps l out (copyEntries job inner directory names entries out).2 := by
  induction entries generalizing out with
  | nil => exact .refl w l out
  | cons entry rest ih =>
    obtain ⟨name, entry⟩ := entry
    have hentry := copyEntry_keeps hjob hinner directory names name entry out
    unfold copyEntries
    split
    · next heq => rwa [heq] at hentry
    · next heq =>
      rw [heq] at hentry
      exact hentry.trans (ih _)

end Entry

lemma copyDir_keeps (depth : Nat) : (copyDir job depth).KeepsTo w l := by
  induction depth with
  | zero => exact fun _ _ _ out => .refl w l out
  | succ depth ih =>
    intro directory names opened out
    unfold copyDir
    split
    · exact .refl w l out
    · exact copyEntries_keeps hjob ih _ _ _ _

end Job

lemma copyFolder_keeps (sourceRoot : Path) (values : Bindings) {f : ResolvedFolder}
    (hf : ∃ p, contained f.target = .ok p) (out : Output) :
    w.Keeps l out (w.copyFolder sourceRoot values f out).2 := by
  obtain ⟨p, hp⟩ := hf
  have htarget : w.Holds (w.root.join (Path.ofText f.target)) :=
    ⟨_, .ofText (contained_eq_ok_iff.mp hp).2, rfl⟩
  unfold copyFolder
  dsimp only
  generalize w.root.join (Path.ofText f.target) = target at htarget ⊢
  have hcreate := Keeps.perform w l out .create target (·.createDirAll target)
    fun hs => hs.createDirAll htarget
  split
  · split
    · next heq => rwa [heq] at hcreate
    · next heq =>
      rw [heq] at hcreate
      exact hcreate.trans (copyDir_keeps htarget _ _ _ _ _)
  · exact .refl w l out

section Folders

-- what one folder comes to is not looked at
attribute [local irreducible] copyFolder

lemma copyFolders_cons (sourceRoot : Path) (values : Bindings) (f : ResolvedFolder)
    (folders : List ResolvedFolder) (out : Output) :
    w.copyFolders sourceRoot values (f :: folders) out =
      match w.copyFolder sourceRoot values f out with
      | (.error e, out) => (.error e, out)
      | (.ok (), out) => w.copyFolders sourceRoot values folders out := rfl

/-- **Copying folders** fills in the workspace and nothing else, whether or not it succeeds. -/
theorem copyFolders_keeps (sourceRoot : Path) (values : Bindings) {folders : List ResolvedFolder}
    (hf : ∀ f ∈ folders, ∃ p, contained f.target = .ok p) (out : Output) :
    w.Keeps l out (w.copyFolders sourceRoot values folders out).2 := by
  induction folders generalizing out with
  | nil => exact .refl w l out
  | cons f folders ih =>
    obtain ⟨hhead, htail⟩ := List.forall_mem_cons.mp hf
    have hfolder := copyFolder_keeps (w := w) (l := l) sourceRoot values hhead out
    rw [copyFolders_cons]
    split
    · next heq => rwa [heq] at hfolder
    · next heq =>
      rw [heq] at hfolder
      exact hfolder.trans (ih htail _)

end Folders

end Workspace

end Stencil
