import Stencil.Proofs.Files.Contents
import Stencil.Proofs.Files.Listing
import Stencil.Proofs.Workspace.Preparation

/-!
The empty workspace.

A workspace is ready to be filled if its root leads to a directory with nothing in it. This is what
emptying it comes to, for a root that goes up at its start only: all directories that are made then
stand on the way of the root, and none behind its end.
-/

namespace Stencil

namespace Workspace

open FileSystem

variable {w : Workspace} {fs fs' cleared : FileSystem} {l m : Location}

/-- The root leads to an empty directory. -/
structure Ready (w : Workspace) (l : Location) (fs : FileSystem) : Prop where
  lookup : fs.lookup true w.root = .ok (l, .dir)
  entry : fs.entry? l = some .dir
  empty : ∀ m, l <+: m → m ≠ l → fs.entry? m = none

namespace Ready

lemma standsAt (h : w.Ready l fs) : w.StandsAt l fs where
  leads := (lookup_eq_ok_iff.mp h.lookup).2.base
  linkFree m target hm he := by
    by_cases heq : m = l
    · simp [heq, h.entry] at he
    · simp [h.empty m hm heq] at he
  named := by
    intro hempty
    have htext := (lookup_eq_ok_iff.mp h.lookup).1
    rw [hempty] at htext
    exact absurd htext (by decide)

lemma fileAt?_eq_none (h : w.Ready l fs) (hm : l <+: m) : fs.fileAt? m = none := by
  by_cases heq : m = l
  · exact fileAt?_eq_none_of_dir (heq ▸ h.entry)
  · exact fileAt?_eq_none_of_none (h.empty m hm heq)

end Ready

lemma lookup_eq_dir {p : Path} (hdir : fs.isDir p)
    (hplace : (fs.lookup true p).toOption.map Prod.fst = some l) :
    fs.lookup true p = .ok (l, .dir) := by
  obtain ⟨m, hm⟩ := isDir_iff.mp hdir
  rw [hm] at hplace ⊢
  obtain rfl : m = l := Option.some.inj hplace
  rfl

/-- Whether a workspace is ready is seen from what its root leads to and from the entries. -/
lemma ready_of_entries (hdir : fs.isDir w.root)
    (hplace : (fs.lookup true w.root).toOption.map Prod.fst = some l)
    (hentry : isDirectory (fs.entry? l)) (hl : l ≠ [])
    (hall : ∀ x ∈ fs.entries.toList, l <+: x.1 → x.1 = l) : w.Ready l fs where
  lookup := lookup_eq_dir hdir hplace
  entry := isDirectory_iff.mp hentry
  empty m hm hne := by
    have hnil : m ≠ [] := by
      rintro rfl
      exact hl (List.prefix_nil.mp hm)
    by_contra he
    obtain ⟨e, he⟩ := Option.ne_none_iff_exists'.mp he
    exact hne (hall (m, e) ((mem_toList_iff hnil).mpr he) hm)

/-- The root leads to the last directory that is made, and nothing is made in it. -/
lemma Prepared.exists_ready (h : w.Prepared fs cleared (.ok (), fs')) (htree : fs.IsTree)
    (hroot : w.root ≠ .empty) (hclimb : w.root.climbsFirst) : ∃ l, w.Ready l fs' := by
  obtain ⟨done, hr⟩ := h.removed
  obtain ⟨hgone, hdir⟩ := h.ready rfl hroot
  have hne : fs' ≠ cleared := by
    rintro rfl
    simp [pathExists_of_isDir hdir] at hgone
  obtain ⟨a, b, m, hsegs, hup, -, hmade, hfree, -, hentry, hway⟩ :=
    h.paved.fresh (hr.isTree htree) hclimb hne
  obtain ⟨l, hlookup⟩ := isDir_iff.mp hdir
  obtain ⟨-, hl⟩ := lookup_eq_ok_iff.mp hlookup
  have hmade := hmade.following (by simp)
  rw [hsegs] at hl
  have hlast : fs'.Leads true 0 m b (.found l .dir) := by
    by_cases hb : b = []
    · rw [hb, List.append_nil] at hl
      obtain ⟨rfl, -⟩ := Reached.found.inj (hl.unique hmade)
      exact hb ▸ .done
    · exact hmade.go_on hl hb hfree hup true 0
  have hplace : l = m ++ Path.proper b := hlast.location_eq hfree List.prefix_rfl hup
  refine ⟨l, hlookup, hlast.entry?_dir hfree List.prefix_rfl hup hentry, fun k hk hkl => ?_⟩
  by_contra he
  have hmk : m <+: k := by
    rw [hplace] at hk
    exact (List.prefix_append m _).trans hk
  have hkl' := hway k hmk he
  rw [← hplace] at hkl'
  exact hkl (hkl'.eq_of_length_le hk.length_le)

/-- **An emptied workspace is ready**, if its root goes up at its start only. -/
theorem exists_ready (h : w.prepare fs = (.ok (), fs')) (htree : fs.IsTree) (hroot : w.root ≠ .empty)
    (hclimb : w.root.climbsFirst) : ∃ l, w.Ready l fs' := by
  obtain ⟨cleared, hprepared⟩ := w.exists_prepared fs
  rw [h] at hprepared
  exact hprepared.exists_ready htree hroot hclimb

end Workspace

end Stencil
