import Stencil.Proofs.Workspace.Copies
import Stencil.Proofs.Workspace.Readiness
import Stencil.Proofs.Workspace.Scaffolding

/-!
What a workspace is filled with.

If a workspace that is empty is filled from sources that lie apart from it, then the files in it are
the copies of the files below the sources: for each of them one path is listed, and where several
paths lead to one place, the last copy stays.
-/

namespace Stencil

namespace FileSystem

/-- The files below a place with their contents, in the order of their locations. -/
def filesBelow (fs : FileSystem) (x : Location) : List (List String × ByteArray) :=
  (fs.leaves x).filterMap fun y => (content? (some y.2)).map fun content => (y.1, content)

end FileSystem

namespace Workspace

open FileSystem

variable {w : Workspace} {fs source : FileSystem} {l m x : Location} {sourceRoot : Path}
  {values : Bindings} {folders : List ResolvedFolder} {written : List Path} {out out' : Output}
  {copies : List Copy} {contents : Location → Option ByteArray} {f : ResolvedFolder}

/-- The copies of the files below the source of a folder. -/
def copiesOf (w : Workspace) (values : Bindings) (source : FileSystem) (f : ResolvedFolder)
    (x : Location) : List Copy :=
  (source.filesBelow x).map fun y => ⟨placed values (w.targetPath f) y.1, filled values y.2⟩

lemma eq_copiesOf {leaves : List (List String × Entry)} {target : Path}
    (hfiles : ∀ y ∈ leaves, ∃ content mode, y.2 = .file content mode)
    (h : List.Forall₂ (CopyOf values target []) leaves copies) :
    copies = (leaves.filterMap fun y => (content? (some y.2)).map fun content => (y.1, content)).map
      fun y => ⟨placed values target y.1, filled values y.2⟩ := by
  induction h with
  | nil => rfl
  | @cons y c leaves copies hc _ ih =>
    obtain ⟨⟨content, mode, hy⟩, hrest⟩ := List.forall_mem_cons.mp hfiles
    obtain ⟨names, e⟩ := y
    obtain rfl : e = .file content mode := hy
    have hcopy : c = ⟨placed values target names, filled values content⟩ := by
      have hdest := hc.dest
      have hcontent := hc.content content mode rfl
      rw [List.nil_append] at hdest
      rw [← hdest, ← hcontent]
    rw [List.filterMap_cons, ih hrest, hcopy]
    rfl

/-- Where there are no links, what is below a source are files. -/
lemma Copies.eq_copiesOf {fs' : FileSystem} {b : FolderCopy}
    (h : w.Copies sourceRoot values l source fs' f b) (hsound : source.Sound)
    (hapart : Apart l b.place) (hfree : source.LinkFree b.place) :
    b.copies = w.copiesOf values source f b.place := by
  refine Workspace.eq_copiesOf (fun y hy => ?_) (h.copies hsound hapart)
  obtain ⟨-, hdir, he⟩ := mem_leaves_iff.mp hy
  obtain ⟨names, e⟩ := y
  cases e with
  | file content mode => exact ⟨content, mode, rfl⟩
  | dir => exact absurd rfl hdir
  | link target => exact absurd he (hfree _ target (List.prefix_append _ names))

/-! ### The last copy stays -/

lemma overwrite_of_not_mem (h : ∀ c ∈ copies, w.landing l c.dest ≠ m) :
    w.overwrite l copies contents m = contents m := by
  induction copies generalizing contents with
  | nil => rfl
  | cons c copies ih =>
    obtain ⟨hc, hcopies⟩ := List.forall_mem_cons.mp h
    rw [overwrite, List.foldl_cons, ← overwrite, ih hcopies, Function.update_of_ne (Ne.symm hc)]

lemma overwrite_last {before after : List Copy} {c : Copy}
    (h : ∀ c' ∈ after, w.landing l c'.dest ≠ w.landing l c.dest) :
    w.overwrite l (before ++ c :: after) contents (w.landing l c.dest) = some c.content := by
  rw [overwrite_append, overwrite, List.foldl_cons, ← overwrite, overwrite_of_not_mem h,
    Function.update_self]

/-- Where a file has been or is written, there is one. -/
lemma overwrite_ne_none_iff : w.overwrite l copies contents m ≠ none ↔
    contents m ≠ none ∨ ∃ c ∈ copies, w.landing l c.dest = m := by
  induction copies generalizing contents with
  | nil => simp [overwrite]
  | cons c copies ih =>
    rw [overwrite, List.foldl_cons, ← overwrite, ih, List.exists_mem_cons_iff, ← or_assoc]
    refine or_congr_left ?_
    by_cases hm : m = w.landing l c.dest
    · simp [hm]
    · rw [Function.update_of_ne hm]
      simp [Ne.symm hm]

/-! ### The files in the workspace -/

section Writes

variable (hready : w.Ready l out.files) (hwrites : w.Writes l copies out out')
include hready hwrites

omit hready in
/-- Each path leads to a file, in the place that it names. -/
lemma Writes.found_listed : ∀ p ∈ copies.map Copy.dest, ∃ content mode,
    out'.files.lookup true p = .ok (w.landing l p, .file content mode) :=
  List.forall_mem_map.mpr hwrites.found

/-- **The files in the workspace** are those that the paths lead to. -/
lemma Writes.entry?_iff {e : Entry} : l <+: m ∧ e ≠ .dir ∧ out'.files.entry? m = some e ↔
    ∃ p ∈ copies.map Copy.dest, out'.files.lookup true p = .ok (m, e) := by
  constructor
  · rintro ⟨hm, hdir, he⟩
    have hfree := hwrites.fills.linkFree hready.standsAt.linkFree
    have hfile : out'.files.fileAt? m ≠ none := by
      cases e with
      | file content mode =>
        rw [fileAt?_eq_some_iff.mpr ⟨mode, he⟩]
        simp
      | dir => exact absurd rfl hdir
      | link target => exact absurd he (hfree m target hm)
    rw [hwrites.contents, overwrite_ne_none_iff, hready.fileAt?_eq_none hm] at hfile
    obtain ⟨c, hc, rfl⟩ := hfile.resolve_left (by simp)
    obtain ⟨content, mode, hlookup⟩ := hwrites.found c hc
    have he' := (lookup_eq_ok_iff.mp hlookup).2.entry?_eq_some (by simp)
    rw [Option.some.inj (he.symm.trans he')]
    exact ⟨c.dest, List.mem_map_of_mem hc, hlookup⟩
  · rintro ⟨p, hp, hlookup⟩
    obtain ⟨content, mode, hfound⟩ := hwrites.found_listed p hp
    obtain ⟨rfl, rfl⟩ := Prod.mk.inj (Except.ok.inj (hfound.symm.trans hlookup))
    exact ⟨List.prefix_append _ _, by simp,
      (lookup_eq_ok_iff.mp hfound).2.entry?_eq_some (by simp)⟩

omit hready in
/-- The paths lead to one file if they name one place. -/
lemma Writes.lookup_eq_iff {c c' : Copy} (hc : c ∈ copies) (hc' : c' ∈ copies) :
    out'.files.lookup true c.dest = out'.files.lookup true c'.dest ↔
      w.landing l c.dest = w.landing l c'.dest := by
  obtain ⟨content, mode, hfound⟩ := hwrites.found c hc
  obtain ⟨content', mode', hfound'⟩ := hwrites.found c' hc'
  rw [hfound, hfound']
  constructor
  · intro heq
    exact (Prod.mk.inj (Except.ok.inj heq)).1
  · intro heq
    have he := (lookup_eq_ok_iff.mp hfound).2.entry?_eq_some (by simp)
    have he' := (lookup_eq_ok_iff.mp hfound').2.entry?_eq_some (by simp)
    rw [heq] at he ⊢
    rw [Option.some.inj (he.symm.trans he')]

omit hready in
/-- The last file that is written in a place stays there. -/
lemma Writes.readFile_last {before after : List Copy} {c : Copy}
    (hcopies : copies = before ++ c :: after)
    (hlast : ∀ c' ∈ after, out'.files.lookup true c'.dest ≠ out'.files.lookup true c.dest) :
    out'.files.readFile c.dest = .ok c.content := by
  have hc : c ∈ copies := by simp [hcopies]
  have hafter : ∀ c' ∈ after, w.landing l c'.dest ≠ w.landing l c.dest := fun c' hc' heq =>
    hlast c' hc' ((hwrites.lookup_eq_iff (by simp [hcopies, hc']) hc).mpr heq)
  obtain ⟨content, mode, hfound⟩ := hwrites.found c hc
  have hfile : out'.files.fileAt? (w.landing l c.dest) = some c.content := by
    rw [hwrites.contents, hcopies, overwrite_last hafter]
  obtain ⟨mode', he⟩ := fileAt?_eq_some_iff.mp hfile
  have he' := (lookup_eq_ok_iff.mp hfound).2.entry?_eq_some (by simp)
  rw [FileSystem.readFile, hfound]
  obtain ⟨rfl, -⟩ := Entry.file.inj (Option.some.inj (he'.symm.trans he))
  rfl

end Writes

/-! ### Filling the workspace -/

lemma populate_ok (h : (w.populate sourceRoot folders values fs).result = .ok written) : ∃ out,
    (∀ f ∈ folders, ∃ p, contained f.target = .ok p) ∧
      w.copyFolders sourceRoot values folders (.ofFiles fs) = (.ok (), out) ∧
      written = out.written.reverse ∧ (w.populate sourceRoot folders values fs).files = out.files := by
  unfold populate at h ⊢
  split at h
  · simp at h
  next hcheck =>
  generalize hcopy : w.copyFolders sourceRoot values folders (.ofFiles fs) = copied at h ⊢
  obtain ⟨result, out⟩ := copied
  cases result with
  | error e => simp [Except.map] at h
  | ok _ => exact ⟨out, checkFolders_eq_ok_iff.mp hcheck, rfl, (Except.ok.inj h).symm, rfl⟩

/-- Copies are compared by their bytes. -/
instance : DecidableEq Copy := fun c c' =>
  decidable_of_iff (c.dest = c'.dest ∧ c.content.data.toList = c'.content.data.toList) (by
    obtain ⟨dest, content⟩ := c
    obtain ⟨dest', content'⟩ := c'
    simp [ByteArray.ext_iff])

/-- The workspace `ws` is empty, and there are two sources. A file in the first one has a placeholder
in its name and in its text, and both have a file `b`, one of which is no text. -/
def sources : FileSystem :=
  ((((((((⟨∅, []⟩ : FileSystem).put ["ws"] .dir).put ["one"] .dir).put ["one", "a"] .dir).put
    ["one", "a", "$(n)"] (.file "by $(n)".toUTF8 newFileMode)).put
    ["one", "b"] (.file "first".toUTF8 newFileMode)).put ["two"] .dir).put
    ["two", "b"] (.file ⟨#[255]⟩ newFileMode))

def sourceFolders : List ResolvedFolder := [⟨"one", "out"⟩, ⟨"two", "out"⟩]

/-- The value of the placeholder. -/
def sourceValues : Bindings := Std.ExtTreeMap.ofList [("n", "x")]

lemma ready_sources : Ready ⟨⟨["ws"]⟩⟩ ["ws"] sources :=
  ready_of_entries (by decide +kernel) (by decide +kernel) (by decide +kernel) (by decide)
    (by decide +kernel)

lemma linkFree_sources (x : Location) : sources.LinkFree x := linkFree_of_entries (by decide +kernel) x

end Workspace

end Stencil
