import Mathlib.Data.List.Dedup
import Stencil.Proofs.Workspace.Populating

/-!
Copies in one place.

Nothing keeps two folders, or two names with placeholders, from being mapped to one place in the
workspace, and then the later copy takes the place of the earlier one. As many files are listed as are
copied. So the listed paths lead to different files, and as many as are in the workspace, if and only
if no two of them name one place.
-/

namespace Stencil

open FileSystem

/-- There are at least as many elements in a list as different ones. -/
lemma length_le_and_nodup_iff {α : Type} [DecidableEq α] {listed present : List α}
    (hpresent : present.Nodup) (hmem : ∀ x, x ∈ listed ↔ x ∈ present) :
    present.length ≤ listed.length ∧ (listed.Nodup ↔ listed.length = present.length) := by
  have hperm : listed.dedup.Perm present :=
    (List.perm_ext_iff_of_nodup listed.nodup_dedup hpresent).mpr fun x => by
      rw [List.mem_dedup, hmem]
  have hsub := List.dedup_sublist listed
  rw [← hperm.length_eq]
  refine ⟨hsub.length_le, fun h => ?_, fun h => ?_⟩
  · rw [h.dedup]
  · have heq := hsub.eq_of_length h.symm
    rw [← heq]
    exact listed.nodup_dedup

namespace Workspace

variable {w : Workspace} {l m : Location} {values : Bindings} {out out' : Output}
  {copies : List Copy}

/-- The names that lead to a leaf differ from those of the other leaves. -/
lemma nodup_leaves (fs : FileSystem) (l : Location) : ((fs.leaves l).map fun y => l ++ y.1).Nodup := by
  refine List.pairwise_map.mpr ((fs.ordered_leaves l).imp fun {y z} hlt heq => ?_)
  rw [List.append_cancel_left heq, Std.ReflOrd.compare_self] at hlt
  simp at hlt

/-- The paths of the copies say where below the source the entries stand. -/
lemma map_dest_eq {target : Path} {leaves : List (List String × Entry)}
    (h : List.Forall₂ (CopyOf values target []) leaves copies) :
    copies.map Copy.dest = leaves.map fun y => placed values target y.1 := by
  induction h with
  | nil => rfl
  | cons hc _ ih => rw [List.map_cons, List.map_cons, ih, hc.dest, List.nil_append]

section Writes

variable (hready : w.Ready l out.files) (hwrites : w.Writes l copies out out')
include hwrites

/-- The paths lead to different files if they name different places. -/
lemma Writes.nodup_lookup_iff :
    ((copies.map Copy.dest).map (out'.files.lookup true)).Pairwise (· ≠ ·) ↔
      ((copies.map Copy.dest).map (w.landing l)).Nodup := by
  simp only [List.Nodup, List.pairwise_map]
  exact List.Pairwise.iff_of_mem fun {c c'} hc hc' => not_congr (hwrites.lookup_eq_iff hc hc')

include hready in
/-- The places that the paths name are those of the files in the workspace. -/
lemma Writes.mem_landing_iff : m ∈ (copies.map Copy.dest).map (w.landing l) ↔
    m ∈ (out'.files.leaves l).map fun y => l ++ y.1 := by
  constructor
  · intro hm
    obtain ⟨p, hp, rfl⟩ := List.mem_map.mp hm
    obtain ⟨content, mode, hfound⟩ := hwrites.found_listed p hp
    obtain ⟨-, hdir, he⟩ := (hwrites.entry?_iff hready).mpr ⟨p, hp, hfound⟩
    refine List.mem_map.mpr
      ⟨(Path.proper (p.segments.drop w.root.base.length), .file content mode), ?_, rfl⟩
    refine mem_leaves_iff.mpr ⟨fun hnil => ?_, hdir, he⟩
    -- the root leads to a directory
    have hroot := hwrites.fills.grows.dir hready.entry
    rw [landing, hnil, List.append_nil, hroot] at he
    simp at he
  · intro hm
    obtain ⟨⟨names, e⟩, hleaf, rfl⟩ := List.mem_map.mp hm
    obtain ⟨-, hdir, he⟩ := mem_leaves_iff.mp hleaf
    obtain ⟨p, hp, hlookup⟩ :=
      (hwrites.entry?_iff hready).mp ⟨List.prefix_append l names, hdir, he⟩
    obtain ⟨content, mode, hfound⟩ := hwrites.found_listed p hp
    have hplace := Except.ok.inj (hfound.symm.trans hlookup)
    exact List.mem_map.mpr ⟨p, hp, (Prod.mk.inj hplace).1⟩

end Writes

end Workspace

variable {r : Registry} {ids : IdSource} {a : Answers} {configDir : Path} {w : Workspace}
  {fs : FileSystem} {l : Location} {resolved : ResolvedTemplate} {files : List Path}

/-- A run that succeeds has copied all folders. -/
lemma scaffold_ok (h : (scaffold r ids a configDir w fs).result = .ok (resolved, files)) : ∃ out,
    w.prepare fs = (.ok (), (w.prepare fs).2) ∧
    (∀ f ∈ resolved.folders, ∃ p, Workspace.contained f.target = .ok p) ∧
    w.copyFolders (sourceRoot configDir resolved.values) resolved.values resolved.folders
      (.ofFiles (w.prepare fs).2) = (.ok (), out) ∧
    files = out.written.reverse ∧ (scaffold r ids a configDir w fs).files = out.files := by
  have hends := scaffold_scaffolds r ids a configDir w fs
  generalize scaffold r ids a configDir w fs = done at hends h ⊢
  cases hends with
  | unresolved => simp at h
  | refused => simp at h
  | unprepared => simp at h
  | @copied resolved' fs' result out hr hc hp hcopy =>
    cases result with
    | error e => simp [Except.map, Except.mapError] at h
    | ok _ =>
      obtain ⟨rfl, rfl⟩ := Prod.mk.inj (Except.ok.inj h)
      rw [hp]
      exact ⟨out, rfl, Workspace.checkFolders_eq_ok_iff.mp hc, hcopy, rfl, rfl⟩

/-- A template that copies two folders to one place. -/
def merging : Registry := ⟨[⟨"t", "", [], [], [⟨"one", "out"⟩, ⟨"two", "out"⟩]⟩]⟩

/-- Scaffolding from the two sources. -/
def scaffoldSources (r : Registry) : Scaffolded :=
  scaffold r (fun _ name => name) choosing .empty ⟨⟨["ws"]⟩⟩ Workspace.sources

end Stencil
