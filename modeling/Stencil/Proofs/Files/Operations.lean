import Mathlib.Logic.Relation
import Stencil.Files.Operations
import Stencil.Proofs.Except
import Stencil.Proofs.Files.Growth
import Stencil.Proofs.Files.Paths

/-!
What operations on files change.

Directories are made on the way of a path, one after the other. A file is written where its path
leads to. What is removed stood at or below the place that the path led to, and the path leads to
nothing after that.
-/

namespace Stencil.FileSystem

variable {fs fs' fs'' : FileSystem} {follow : Bool} {p q : Path} {l m : Location} {e : Entry}
  {r : Reached} {a b c : List String} {s : String}

/-! ### Paths -/

lemma locate_eq_ok_iff : fs.locate follow p = .ok r ↔
    checkText p = .ok () ∧ fs.Leads follow linkLimit (origin fs.cwd p) p.segments r := by
  rw [locate, bind_eq_ok_iff, ← walk_eq_ok_iff]
  exact ⟨fun ⟨(), h⟩ => h, fun h => ⟨(), h⟩⟩

lemma lookup_eq_ok_iff : fs.lookup follow p = .ok (l, e) ↔
    checkText p = .ok () ∧
      fs.Leads follow linkLimit (origin fs.cwd p) p.segments (.found l e) := by
  rw [← locate_eq_ok_iff, lookup, bind_eq_ok_iff]
  constructor
  · rintro ⟨r, hr, h⟩
    cases r with
    | found l' e' =>
      obtain ⟨rfl, rfl⟩ := Prod.mk.inj (Except.ok.inj h)
      exact hr
    | missing l' => simp at h
  · exact fun h => ⟨_, h, rfl⟩

lemma pathExists_iff : fs.pathExists p ↔ ∃ l e, fs.lookup true p = .ok (l, e) := by
  unfold pathExists
  cases h : fs.lookup true p with
  | error e => simp
  | ok found => exact ⟨fun _ => ⟨found.1, found.2, rfl⟩, fun _ => rfl⟩

lemma isDir_iff : fs.isDir p ↔ ∃ l, fs.lookup true p = .ok (l, .dir) := by
  unfold isDir
  split
  · next h => simp [h]
  · next h =>
    simp only [Bool.false_eq_true, false_iff]
    rintro ⟨l, hl⟩
    exact h l hl

lemma pathExists_of_isDir (h : fs.isDir p) : fs.pathExists p := by
  obtain ⟨l, hl⟩ := isDir_iff.mp h
  exact pathExists_iff.mpr ⟨l, _, hl⟩

/-- The place that a path leads to, whether or not something is there. A link at its end is not
followed. -/
def place? (fs : FileSystem) (p : Path) : Option Location :=
  match fs.locate false p with
  | .ok r => some r.location
  | .error _ => none

lemma place?_eq_some (h : fs.locate false p = .ok r) : fs.place? p = some r.location := by
  simp [place?, h]

lemma place?_of_lookup (h : fs.lookup false p = .ok (l, e)) : fs.place? p = some l :=
  place?_eq_some (locate_eq_ok_iff.mpr (lookup_eq_ok_iff.mp h))

lemma exists_of_place? (h : fs.place? p = some l) :
    ∃ r, fs.locate false p = .ok r ∧ r.location = l := by
  unfold place? at h
  split at h
  · next r hr => exact ⟨r, hr, Option.some.inj h⟩
  · simp at h

lemma lookup_grows (hg : fs.Grows fs') (h : fs.lookup follow p = .ok (l, .dir)) :
    fs'.lookup follow p = .ok (l, .dir) := by
  obtain ⟨htext, hl⟩ := lookup_eq_ok_iff.mp h
  exact lookup_eq_ok_iff.mpr ⟨htext, by rw [hg.cwd]; exact hl.dir_of_grows hg⟩

/-- A directory is reached before the slash at the end of its path. -/
lemma Leads.base {n : Nat} {d : Location} (h : fs.Leads true n d p.segments (.found l .dir)) :
    fs.Leads true n d p.base (.found l .dir) := by
  rcases p.base_cases with hbase | hbase
  · rwa [← hbase]
  · rw [hbase] at h
    exact h.drop_blanks (by simp)

/-! ### Making directories -/

/-- A directory is made where the beginning of a path leads to nothing. -/
inductive Paves (p : Path) (fs : FileSystem) : FileSystem → Prop
  | put {c : List String} {s : String} {l : Location} (hc : c ++ [s] <+: p.segments)
    (hs : Path.IsName s) (h : fs.locate false ⟨c ++ [s]⟩ = .ok (.missing l)) :
    Paves p fs (fs.put l .dir)

namespace Paves

lemma mono (h : Paves q fs fs') (hq : q.segments <+: p.segments) : Paves p fs fs' := by
  obtain ⟨hc, hs, h⟩ := h
  exact ⟨hc.trans hq, hs, h⟩

/-- Nothing is made by a path that names nothing. -/
lemma not_blank (h : Paves q fs fs') : ¬ ∀ s ∈ q.segments, s = "" := by
  obtain ⟨hc, hs, -⟩ := h
  intro hblank
  exact hs.ne_empty (hblank _ (hc.subset List.mem_concat_self))

/-- What is made for the path around a path is made on the way of the path. -/
lemma of_parent? (h : Paves q fs fs') (hq : p.parent? = some q) : Paves p fs fs' := by
  rcases Path.prefix_of_parent? hq with hprefix | hblank
  · exact h.mono hprefix
  · exact absurd hblank h.not_blank

lemma grows (h : Paves p fs fs') : fs.Grows fs' := by
  obtain ⟨-, -, h⟩ := h
  exact .put_new (locate_eq_ok_iff.mp h).2.entry?_eq_none _

/-- The beginning of the path leads to the directory that is made. -/
lemma lookup_put (h : fs.locate false p = .ok (.missing l)) :
    (fs.put l .dir).lookup false p = .ok (l, .dir) := by
  obtain ⟨htext, hl⟩ := locate_eq_ok_iff.mp h
  have hput : entry? (fs.put l .dir) l = some .dir := by
    rw [entry?_put (ne_nil_of_entry?_eq_none hl.entry?_eq_none), if_pos rfl]
  exact lookup_eq_ok_iff.mpr ⟨htext, hl.dir_of_missing (.put_new hl.entry?_eq_none _) hput⟩

end Paves

/-- Directories are made on the way of a path, one after the other. -/
def Paved (p : Path) : FileSystem → FileSystem → Prop := Relation.ReflTransGen (Paves p)

namespace Paved

lemma of_parent? (h : Paved q fs fs') (hq : p.parent? = some q) : Paved p fs fs' :=
  h.lift id fun _ _ hstep => hstep.of_parent? hq

lemma grows (h : Paved p fs fs') : fs.Grows fs' := by
  induction h with
  | refl => exact .refl fs
  | tail _ hstep ih => exact ih.trans hstep.grows

/-- What is new is a directory on the way of the path. -/
lemma new (h : Paved p fs fs') (m : Location) : fs'.entry? m = fs.entry? m ∨
    fs.entry? m = none ∧ fs'.entry? m = some .dir ∧
      ∃ c, c <+: p.segments ∧ fs'.lookup false ⟨c⟩ = .ok (m, .dir) := by
  induction h with
  | refl => exact .inl rfl
  | @tail fs₁ fs₂ _ hstep ih =>
    have hg := hstep.grows
    obtain ⟨hc, hs, hl⟩ := hstep
    rename_i c s l
    have hnone := (locate_eq_ok_iff.mp hl).2.entry?_eq_none
    rw [entry?_put (ne_nil_of_entry?_eq_none hnone)]
    split
    · next heq =>
      subst heq
      have hfs : fs.entry? l = none := by
        rcases ih with ih | ih
        · rw [← ih, hnone]
        · exact ih.1
      exact .inr ⟨hfs, rfl, _, hc, Paves.lookup_put hl⟩
    · exact ih.imp_right fun ⟨hfs, hdir, c, hc, hlookup⟩ =>
        ⟨hfs, hdir, c, hc, lookup_grows hg hlookup⟩

end Paved

section Below

variable (hsegs : p.segments = a ++ b) (hb : ".." ∉ b)
  (hl : fs.Leads true linkLimit (origin fs.cwd p) a (.found l .dir)) (hfree : fs.LinkFree l)
include hsegs hb hl hfree

/-- A directory that is made behind a directory without links is made on the way from there. -/
lemma Paves.below (h : Paves p fs fs') : ∃ m rest, rest <+: b ∧ m = l ++ Path.proper rest ∧
    fs.entry? m = none ∧ fs' = fs.put m .dir := by
  obtain ⟨hc, hs, hlocate⟩ := h
  rename_i c s m
  obtain ⟨-, hm⟩ := locate_eq_ok_iff.mp hlocate
  rw [Path.origin_of_prefix _ hc hs] at hm
  rw [hsegs] at hc
  rcases List.prefix_or_prefix_of_prefix hc (List.prefix_append a b) with ⟨k, hk⟩ | ⟨k, hk⟩
  · -- the beginning of the path leads to a directory already
    rw [← hk] at hl
    exact absurd (hm.eq_missing hl) (by simp)
  · rw [← hk, List.prefix_append_right_inj] at hc
    have hup : ".." ∉ k := fun h => hb (hc.subset h)
    have hne : k ≠ [] := by
      rintro rfl
      rw [List.append_nil] at hk
      rw [hk, ← List.append_nil (c ++ [s])] at hl
      exact absurd (hm.eq_missing hl) (by simp)
    have hnone := hm.entry?_eq_none
    rw [← hk] at hm
    have hplace := (hl.go_on hm hne hfree hup false 0).location_eq hfree List.prefix_rfl hup
    exact ⟨m, k, hc, hplace, hnone, rfl⟩

lemma Paves.fillsIn (h : Paves p fs fs') : FillsIn l fs fs' := by
  obtain ⟨m, rest, -, rfl, hnone, rfl⟩ := h.below hsegs hb hl hfree
  exact .put (ne_nil_of_entry?_eq_none hnone) (List.prefix_append _ _) (by simp [hnone]) (by simp)

lemma Paved.fillsIn (h : Paved p fs fs') : FillsIn l fs fs' := by
  induction h with
  | refl => exact .refl l fs
  | tail hpaved hstep ih =>
    refine ih.trans (hstep.fillsIn hsegs hb ?_ (ih.linkFree hfree))
    rw [ih.grows.cwd]
    exact hl.dir_of_grows ih.grows

/-- Nothing is made behind the end of the path. -/
lemma Paved.on_way (h : Paved p fs fs') (k : Location) :
    fs'.entry? k = fs.entry? k ∨ k <+: l ++ Path.proper b := by
  induction h with
  | refl => exact .inl rfl
  | tail hpaved hstep ih =>
    have hfills := Paved.fillsIn hsegs hb hl hfree hpaved
    have hl' := hl.dir_of_grows hfills.grows
    rw [← hfills.grows.cwd] at hl'
    obtain ⟨m, rest, hrest, rfl, hnone, rfl⟩ := hstep.below hsegs hb hl' (hfills.linkFree hfree)
    rw [entry?_put (ne_nil_of_entry?_eq_none hnone)]
    split
    · next heq =>
      rw [← heq, List.prefix_append_right_inj]
      exact .inr (hrest.filter _)
    · exact ih

end Below

/-- **What is made for a path that goes up first** stands at and below one new directory, on the way of
the path. -/
theorem Paved.fresh (htree : fs.IsTree) (hclimb : p.climbsFirst) (h : Paved p fs fs')
    (hne : fs' ≠ fs) : ∃ a b m, p.segments = a ++ b ∧ ".." ∉ b ∧
      fs.Leads false linkLimit (origin fs.cwd p) a (.missing m) ∧
      fs'.Leads false linkLimit (origin fs'.cwd p) a (.found m .dir) ∧
      fs'.LinkFree m ∧ FillsIn m fs fs' ∧ fs'.entry? m = some .dir ∧
      ∀ k, m <+: k → fs'.entry? k ≠ none → k <+: m ++ Path.proper b := by
  rcases Relation.ReflTransGen.cases_head h with rfl | ⟨fs₁, hstep, hrest⟩
  · exact absurd rfl hne
  obtain ⟨⟨b, hsegs⟩, hs, hlocate⟩ := hstep
  rename_i c s m
  have hc : c ++ [s] <+: p.segments := ⟨b, hsegs⟩
  have hb := Path.up_not_mem_of_climbsFirst hclimb hsegs.symm hs
  obtain ⟨-, hm⟩ := locate_eq_ok_iff.mp hlocate
  obtain ⟨-, hl⟩ := lookup_eq_ok_iff.mp (Paves.lookup_put hlocate)
  rw [Path.origin_of_prefix _ hc hs] at hm hl
  have hnone := hm.entry?_eq_none
  have hnil := ne_nil_of_entry?_eq_none hnone
  have hput : FillsIn m fs (fs.put m .dir) :=
    .put hnil List.prefix_rfl (by simp [hnone]) (by simp)
  have hfree : fs.LinkFree m := fun k target hk he => by
    simp [htree.entry?_eq_none hnone hk] at he
  have hrest : Paved p (fs.put m .dir) fs' := hrest
  have hl' := hl.following (by simp)
  have hfills := hrest.fillsIn hsegs.symm hb hl' (hput.linkFree hfree)
  refine ⟨_, b, m, hsegs.symm, hb, hm, ?_, hfills.linkFree (hput.linkFree hfree),
    hput.trans hfills, hfills.grows.dir (by rw [entry?_put hnil, if_pos rfl]), fun k hk he => ?_⟩
  · rw [hfills.grows.cwd]
    exact hl.dir_of_grows hfills.grows
  · rcases hrest.on_way hsegs.symm hb hl' (hput.linkFree hfree) k with hsame | hway
    · rw [hsame, entry?_put hnil] at he
      split at he
      · next heq => exact heq ▸ List.prefix_append m _
      · exact absurd (htree.entry?_eq_none hnone hk) he
    · exact hway

/-- One directory is made, by a path that leads to it then, or nothing happens. -/
lemma makeDir_spec (fs : FileSystem) (p : Path) : (∃ e, fs.makeDir p = (.error e, fs)) ∨
    ∃ fs', fs.makeDir p = (.ok (), fs') ∧ Paves p fs fs' ∧ fs'.isDir p := by
  unfold makeDir
  dsimp only
  split
  · exact .inl ⟨_, rfl⟩
  next last before hnamed =>
  split
  · exact .inl (by split <;> exact ⟨_, rfl⟩)
  next hlast =>
  split
  · exact .inl ⟨_, rfl⟩
  next htext =>
  obtain ⟨hs, hc, b, hsegs, hb⟩ := Path.exists_lastName hnamed hlast
  rw [hnamed, List.reverse_cons]
  split
  · exact .inl ⟨_, rfl⟩
  · exact .inl ⟨_, rfl⟩
  next l hlocate =>
  refine .inr ⟨_, rfl, ⟨hc, hs, hlocate⟩, isDir_iff.mpr ⟨l, lookup_eq_ok_iff.mpr ⟨htext, ?_⟩⟩⟩
  obtain ⟨-, hl⟩ := lookup_eq_ok_iff.mp (Paves.lookup_put hlocate)
  rw [Path.origin_of_prefix _ hc hs] at hl
  rw [hsegs]
  exact (hl.following (by simp)).append_blanks hb

/-- What the directory that a path asks for comes to. -/
structure Furnished (p : Path) (fs : FileSystem) (result : Result Unit) : Prop where
  paved : Paved p fs result.2
  isDir : result.1 = .ok () → p ≠ .empty → result.2.isDir p

lemma ensureDir_furnished (fs : FileSystem) (p : Path) : Furnished p fs (fs.ensureDir p) := by
  unfold ensureDir
  obtain ⟨e, h⟩ | ⟨fs', h, hpaves, hdir⟩ := fs.makeDir_spec p
  · simp only [h]
    split
    · next hdir => exact ⟨.refl, fun _ _ => hdir⟩
    · exact ⟨.refl, fun h => by simp at h⟩
  · simp only [h]
    exact ⟨.single hpaves, fun _ _ => hdir⟩

lemma makeDirs_furnished (fs : FileSystem) (depth : Nat) (p : Path) :
    Furnished p fs (fs.makeDirs depth p) := by
  induction depth generalizing p with
  | zero => exact ensureDir_furnished fs p
  | succ depth ih =>
    unfold makeDirs
    split
    · next hempty => exact ⟨.refl, fun _ hne => absurd hempty hne⟩
    obtain ⟨e, h⟩ | ⟨fs', h, hpaves, hdir⟩ := fs.makeDir_spec p
    · rw [h]
      split
      · next heq =>
        obtain ⟨rfl, rfl⟩ := error_mk_inj heq
        split
        · exact ⟨.refl, fun h => by simp at h⟩
        next parent hparent =>
        have hrec := (ih parent).paved.of_parent? hparent
        split
        · next hm => exact ⟨by rwa [hm] at hrec, fun h => by simp at h⟩
        · next fs₁ hm =>
          rw [hm] at hrec
          have hlast := ensureDir_furnished fs₁ p
          exact ⟨hrec.trans hlast.paved, hlast.isDir⟩
      · next heq =>
        obtain ⟨rfl, rfl⟩ := error_mk_inj heq
        split
        · next hdir => exact ⟨.refl, fun _ _ => hdir⟩
        · exact ⟨.refl, fun h => by simp at h⟩
      · next hother => exact absurd rfl (hother e fs)
    · simp only [h]
      exact ⟨.single hpaves, fun _ _ => hdir⟩

/-- **Making a directory** makes directories on the way of its path, and one that the path leads to
if this succeeds. -/
theorem createDirAll_furnished (fs : FileSystem) (p : Path) : Furnished p fs (fs.createDirAll p) :=
  makeDirs_furnished fs _ p

/-! ### Removing directories -/

/-- What removing a path with all that is below it comes to. -/
structure Removed (p : Path) (fs : FileSystem) (result : Result Unit) : Prop where
  grows : result.2.Grows fs
  isTree : fs.IsTree → result.2.IsTree
  outside : ∀ m, FileSystem.entry? result.2 m = fs.entry? m ∨ ∃ l, fs.place? p = some l ∧ l <+: m
  gone : result.1 = .ok () → result.2.pathExists p = false

/-- A path that leads somewhere in what is left has led there before, also if links at its end are not
followed. -/
lemma exists_lookup_stay (hg : fs'.Grows fs) (h : fs'.pathExists p) :
    ∃ l e e', fs'.lookup false p = .ok (l, e) ∧ fs.lookup false p = .ok (l, e') ∧ e.Stays e' := by
  obtain ⟨l, e, hl⟩ := pathExists_iff.mp h
  obtain ⟨htext, hl⟩ := lookup_eq_ok_iff.mp hl
  obtain ⟨l', e', hl'⟩ := hl.exists_stay
  obtain ⟨e'', hl'', hst⟩ := hl'.grows hg
  rw [← hg.cwd] at hl''
  exact ⟨l', e', e'', lookup_eq_ok_iff.mpr ⟨htext, hl'⟩, lookup_eq_ok_iff.mpr ⟨htext, hl''⟩, hst⟩

lemma entry?_prune_self (hl : l ≠ []) : entry? (fs.prune l) l = none := by
  rw [entry?_prune, if_pos ⟨List.prefix_rfl, hl⟩]

/-- A link that is removed is not there any more. -/
lemma removed_link {target : Path} (h : fs.lookup false p = .ok (l, .link target)) :
    Removed p fs (.ok (), fs.prune l) where
  grows := .prune fs l
  isTree htree := htree.prune l
  outside m := by
    rw [entry?_prune]
    split
    · next hm => exact .inr ⟨l, place?_of_lookup h, hm.1⟩
    · exact .inl rfl
  gone _ := by
    rw [Bool.eq_false_iff]
    intro hexists
    obtain ⟨l', e, e', hl, hl', hst⟩ := exists_lookup_stay (.prune fs l) hexists
    obtain ⟨rfl, rfl⟩ := Prod.mk.inj (Except.ok.inj (hl'.symm.trans h))
    cases hst
    have he := (lookup_eq_ok_iff.mp hl).2.entry?_eq_some (by simp)
    have hne : l' ≠ [] := by
      rintro rfl
      simp [entry?_nil] at he
    simp [entry?_prune_self hne] at he

/-- The beginning of a path that leads somewhere leads somewhere. -/
lemma exists_leads_of_prefix (hsegs : p.segments = a ++ b) (h : fs.pathExists p) :
    ∃ l e, fs.Leads false linkLimit (origin fs.cwd p) a (.found l e) := by
  obtain ⟨l, e, hl⟩ := pathExists_iff.mp h
  obtain ⟨-, hl⟩ := lookup_eq_ok_iff.mp hl
  rw [hsegs] at hl
  by_cases hb : b = []
  · rw [hb, List.append_nil] at hl
    exact hl.exists_stay
  · obtain ⟨x, hx⟩ | ⟨⟨x, hr, -⟩, -⟩ := hl.split hb
    · exact hx.exists_stay
    · simp at hr

lemma eq_empty_of_checkText (h : checkText p = .error .notFound) : p = .empty := by
  unfold checkText at h
  split at h
  · simp at h
  split at h
  · next hempty => exact hempty
  split at h
  · simp at h
  · simp at h

lemma lookup_ne_notFound (htext : p ≠ .empty)
    (h : fs.Leads follow linkLimit (origin fs.cwd p) p.segments (.found l e)) :
    fs.lookup follow p ≠ .error .notFound := by
  intro herr
  cases hc : checkText p with
  | ok _ => simp [lookup_eq_ok_iff.mpr ⟨hc, h⟩] at herr
  | error e =>
    have herr' : fs.lookup follow p = .error e := by simp [lookup, locate, hc, bind, Except.bind]
    obtain rfl := Except.error.inj (herr'.symm.trans herr)
    exact htext (eq_empty_of_checkText hc)

/-- An empty directory is removed, by a path that leads to it, or nothing happens. -/
lemma removeDir_spec (fs : FileSystem) (htext : checkText p = .ok ()) :
    (∃ e, fs.removeDir p = (.error e, fs) ∧ (e = .notFound → fs.pathExists p = false)) ∨
    ∃ l, fs.removeDir p = (.ok (), fs.prune l) ∧ fs.lookup true p = .ok (l, .dir) ∧
      (fs.prune l).pathExists p = false := by
  unfold removeDir
  split
  · exact .inl ⟨_, rfl, by simp⟩
  next last before hnamed =>
  split
  · split
    · next hlookup => exact .inl ⟨_, rfl, fun he => by simp [pathExists, hlookup]⟩
    · refine .inl ⟨_, rfl, fun he => ?_⟩
      split at he <;> simp at he
  next hlast =>
  obtain ⟨hs, hc, b, hsegs, hb⟩ := Path.exists_lastName hnamed hlast
  have horigin := Path.origin_of_prefix fs.cwd hc hs
  rw [List.reverse_cons]
  split
  · next e hlookup =>
    refine .inl ⟨e, rfl, ?_⟩
    rintro rfl
    rw [Bool.eq_false_iff]
    intro hexists
    obtain ⟨l, e, hl⟩ := exists_leads_of_prefix hsegs hexists
    rw [← horigin] at hl
    refine lookup_ne_notFound (fun hempty => ?_) hl hlookup
    have hsingle : before.reverse ++ [last] = [""] := congrArg Path.segments hempty
    exact hs.ne_empty (by simpa using congrArg List.getLast? hsingle)
  · next l hlookup =>
    split
    · obtain ⟨-, hl⟩ := lookup_eq_ok_iff.mp hlookup
      rw [horigin] at hl
      refine .inr ⟨l, rfl, lookup_eq_ok_iff.mpr ⟨htext, ?_⟩, ?_⟩
      · rw [hsegs]
        exact (hl.following (by simp)).append_blanks hb
      · rw [Bool.eq_false_iff]
        intro hexists
        obtain ⟨l', e, hl'⟩ := exists_leads_of_prefix hsegs hexists
        obtain ⟨he, x, rfl⟩ := hl'.entry?_of_name hs
        obtain ⟨e', hl'', -⟩ := hl'.grows (.prune fs l)
        obtain ⟨rfl, -⟩ := Reached.found.inj (hl''.unique hl)
        simp [entry?_prune_self] at he
    · exact .inl ⟨_, rfl, by simp⟩
  · exact .inl ⟨_, rfl, by simp⟩

/-- **What is removed** stood at or below the place of the path, and the path leads to nothing when it
is gone. -/
theorem removeDirAll_removed (fs : FileSystem) (p : Path) : Removed p fs (fs.removeDirAll p) := by
  unfold removeDirAll
  split
  · exact ⟨.refl fs, id, fun _ => .inl rfl, fun h => by simp at h⟩
  · next h => exact removed_link h
  · exact ⟨.refl fs, id, fun _ => .inl rfl, fun h => by simp at h⟩
  next l h =>
  obtain ⟨htext, hl⟩ := lookup_eq_ok_iff.mp h
  have hplace := place?_of_lookup h
  have hclear : ∀ m, entry? (fs.clear l) m = fs.entry? m ∨ ∃ l, fs.place? p = some l ∧ l <+: m := by
    intro m
    rw [entry?_clear]
    split
    · next hm => exact .inr ⟨l, hplace, hm.1⟩
    · exact .inl rfl
  obtain ⟨e, hremove, hgone⟩ | ⟨l', hremove, hl', hgone⟩ := (fs.clear l).removeDir_spec htext
  · rw [hremove]
    split
    · next heq =>
      obtain ⟨rfl, rfl⟩ := error_mk_inj heq
      exact ⟨.clear fs l, fun htree => htree.clear l, hclear, fun _ => hgone rfl⟩
    · exact ⟨.clear fs l, fun htree => htree.clear l, hclear, fun h => by simp at h⟩
  · have hsame : l' = l := by
      obtain ⟨-, hl'⟩ := lookup_eq_ok_iff.mp (lookup_grows (.clear fs l) hl')
      exact (Reached.found.inj (hl'.unique (hl.following (by simp)))).1
    subst hsame
    rw [hremove]
    refine ⟨(Grows.prune _ l').trans (.clear fs l'), fun htree => (htree.clear l').prune l',
      fun m => ?_, fun _ => hgone⟩
    rw [entry?_prune]
    split
    · next hm => exact .inr ⟨l', hplace, hm.1⟩
    · exact hclear m

/-! ### Writing files -/

lemma openForWriting_ok {e? : Option Entry} (h : fs.openForWriting p = .ok (l, e?)) :
    ∃ r, fs.locate true p = .ok r ∧ r.location = l ∧ r ≠ .found l .dir := by
  unfold openForWriting at h
  split at h
  · simp [bind_eq_ok_iff] at h
  · obtain ⟨r, hr, h⟩ := bind_eq_ok_iff.mp h
    refine ⟨r, hr, ?_⟩
    split at h
    · simp at h
    · next hdir =>
      obtain ⟨rfl, -⟩ := Prod.mk.inj (Except.ok.inj h)
      exact ⟨rfl, fun heq => hdir (Reached.found.inj heq).2⟩
    · obtain ⟨rfl, -⟩ := Prod.mk.inj (Except.ok.inj h)
      exact ⟨rfl, by simp⟩

/-- A file is written where its path leads to, if this is no directory. -/
lemma writeFile_cases (fs : FileSystem) (p : Path) (content : ByteArray) :
    (fs.writeFile p content).2 = fs ∨ ∃ r mode, fs.locate true p = .ok r ∧
      r ≠ .found r.location .dir ∧
      (fs.writeFile p content).2 = fs.put r.location (.file content mode) := by
  unfold writeFile
  split
  · exact .inl rfl
  · next h =>
    obtain ⟨r, hr, rfl, hdir⟩ := openForWriting_ok h
    exact .inr ⟨r, _, hr, hdir, rfl⟩
  · next h =>
    obtain ⟨r, hr, rfl, hdir⟩ := openForWriting_ok h
    exact .inr ⟨r, _, hr, hdir, rfl⟩

lemma setMode_cases (fs : FileSystem) (p : Path) (mode : Mode) :
    (fs.setMode p mode).2 = fs ∨ ∃ l content mode', fs.lookup true p = .ok (l, .file content mode') ∧
      (fs.setMode p mode).2 = fs.put l (.file content mode) := by
  unfold setMode
  split
  · exact .inl rfl
  · next h => exact .inr ⟨_, _, _, h, rfl⟩
  · exact .inl rfl

end Stencil.FileSystem
