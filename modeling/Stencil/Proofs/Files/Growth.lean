import Stencil.Proofs.Files.Walking
import Mathlib.Data.List.Induction

/-!
File systems with more in them.

A file system grows if nothing goes and only contents of files change. What a path leads to is found
in all larger file systems, and a path that leads to nothing yet leads to what is put there. Below a
directory without links, segments that do not go up lead to the place of their names, whether or not
anything is there.
-/

namespace Stencil

/-- What stays of an entry when the contents and the permissions of a file may change. -/
inductive Entry.Stays : Entry → Entry → Prop
  | file {content content' : ByteArray} {mode mode' : Mode} :
    Stays (.file content mode) (.file content' mode')
  | dir : Stays .dir .dir
  | link {target : Path} : Stays (.link target) (.link target)

namespace Entry.Stays

lemma refl (e : Entry) : e.Stays e := by
  cases e <;> constructor

lemma trans {e e' e'' : Entry} (h : e.Stays e') (h' : e'.Stays e'') : e.Stays e'' := by
  cases h <;> cases h' <;> constructor

end Entry.Stays

/-- The place where a path ends. -/
def Reached.location : Reached → Location
  | .found l _ => l
  | .missing l => l

/-- The segments that lead to other places. -/
def Path.proper (segments : List String) : List String := segments.filter fun s => !isIdle s

namespace Path

variable {s : String} {a b : List String}

lemma proper_cons_of_idle (hs : isIdle s) : proper (s :: a) = proper a :=
  List.filter_cons_of_neg (by simp [hs])

lemma proper_cons (hs : IsName s) : proper (s :: a) = s :: proper a :=
  List.filter_cons_of_pos (by simp [hs.proper])

lemma proper_blanks (hb : ∀ s ∈ b, s = "") : proper b = [] :=
  List.filter_eq_nil_iff.mpr fun s hs => by simp [hb s hs, isIdle]

end Path

namespace FileSystem

variable {fs fs' fs'' : FileSystem} {follow : Bool} {n : Nat} {d l m : Location} {s : String}
  {segs a b : List String} {r : Reached} {e : Entry}

/-! ### Entries after a change -/

lemma entry?_nil : fs.entry? [] = some .dir := rfl

lemma ne_nil_of_entry?_eq_none (h : fs.entry? l = none) : l ≠ [] := by
  rintro rfl
  simp [entry?_nil] at h

lemma entry?_put (hl : l ≠ []) :
    entry? (fs.put l e) m = if l = m then some e else fs.entry? m := by
  by_cases hm : m = []
  · simp [hm, entry?_nil, hl]
  · simp only [FileSystem.entry?, hm, if_false, put, Std.ExtTreeMap.getElem?_insert, Std.compare_eq_iff_eq]

lemma isPrefixOf_eq_decide : l.isPrefixOf m = decide (l <+: m) := by
  rw [Bool.eq_iff_iff]
  simp

lemma entry?_prune :
    entry? (fs.prune l) m = if l <+: m ∧ m ≠ [] then none else fs.entry? m := by
  by_cases hm : m = []
  · simp [hm, entry?_nil]
  · simp only [FileSystem.entry?, hm, if_false, prune, Std.ExtTreeMap.getElem?_filter', isPrefixOf_eq_decide]
    by_cases hl : l <+: m <;> cases fs.entries[m]? <;> simp [hl, hm]

lemma entry?_clear :
    entry? (fs.clear l) m = if l <+: m ∧ m ≠ l ∧ m ≠ [] then none else fs.entry? m := by
  by_cases hm : m = []
  · simp [hm, entry?_nil]
  · simp only [FileSystem.entry?, hm, if_false, clear, Std.ExtTreeMap.getElem?_filter', isPrefixOf_eq_decide]
    by_cases hl : l <+: m <;> by_cases heq : m = l <;> cases fs.entries[m]? <;>
      simp [hl, hm, heq, Option.filter]

/-- Every entry stands in a directory. -/
def IsTree (fs : FileSystem) : Prop := ∀ d s, fs.entry? (d ++ [s]) ≠ none → fs.entry? d = some .dir

/-- Whether there is a directory. -/
def isDirectory : Option Entry → Bool
  | some .dir => true
  | _ => false

lemma isDirectory_iff {e? : Option Entry} : isDirectory e? ↔ e? = some .dir := by
  unfold isDirectory
  split
  · simp
  · next hne => simpa using hne

/-- Only the entries have to be looked at. -/
lemma isTree_iff : fs.IsTree ↔
    ∀ e ∈ fs.entries.toList, e.1 ≠ [] → isDirectory (fs.entry? e.1.dropLast) := by
  simp only [isDirectory_iff]
  constructor
  · rintro h ⟨l, e⟩ he hl
    refine h l.dropLast (l.getLast hl) ?_
    rw [List.dropLast_append_getLast, entry?, if_neg hl,
      Std.ExtTreeMap.mem_toList_iff_getElem?_eq_some.mp he]
    simp
  · intro h d s hne
    obtain ⟨e, he⟩ := Option.ne_none_iff_exists'.mp hne
    have hl : d ++ [s] ≠ [] := by simp
    rw [FileSystem.entry?, if_neg hl] at he
    simpa using h _ (Std.ExtTreeMap.mem_toList_iff_getElem?_eq_some.mpr he) hl

instance : Decidable fs.IsTree := decidable_of_iff _ isTree_iff.symm

/-- Nothing is below a place where nothing is. -/
lemma IsTree.entry?_eq_none (h : fs.IsTree) (hl : fs.entry? l = none) (hm : l <+: m) :
    fs.entry? m = none := by
  obtain ⟨k, rfl⟩ := hm
  induction k using List.reverseRecOn with
  | nil => simpa using hl
  | append_singleton k s ih =>
    by_contra hne
    have hdir := h (l ++ k) s (by rwa [List.append_assoc])
    simp [ih] at hdir

lemma IsTree.prune (h : fs.IsTree) (l : Location) : (fs.prune l).IsTree := by
  intro d s hne
  rw [entry?_prune] at hne
  split at hne
  · exact absurd rfl hne
  · next hout =>
    have hd : ¬ (l <+: d ∧ d ≠ []) := fun hd => hout ⟨hd.1.trans (List.prefix_append d [s]), by simp⟩
    rw [entry?_prune, if_neg hd]
    exact h d s hne

lemma IsTree.clear (h : fs.IsTree) (l : Location) : (fs.clear l).IsTree := by
  intro d s hne
  rw [entry?_clear] at hne
  split at hne
  · exact absurd rfl hne
  · next hout =>
    have hd : ¬ (l <+: d ∧ d ≠ l ∧ d ≠ []) := by
      rintro ⟨hd, -, -⟩
      refine hout ⟨hd.trans (List.prefix_append d [s]), ?_, by simp⟩
      rintro rfl
      have hlen := hd.length_le
      rw [List.length_append, List.length_singleton] at hlen
      omega
    rw [entry?_clear, if_neg hd]
    exact h d s hne

/-! ### Growth -/

/-- Nothing goes, and only contents and permissions of files change. -/
structure Grows (fs fs' : FileSystem) : Prop where
  cwd : fs'.cwd = fs.cwd
  stays : ∀ l e, fs.entry? l = some e → ∃ e', fs'.entry? l = some e' ∧ e.Stays e'

namespace Grows

lemma refl (fs : FileSystem) : fs.Grows fs := ⟨rfl, fun _ e h => ⟨e, h, .refl e⟩⟩

lemma trans (h : fs.Grows fs') (h' : fs'.Grows fs'') : fs.Grows fs'' where
  cwd := h'.cwd.trans h.cwd
  stays l e he := by
    obtain ⟨e', he', hs⟩ := h.stays l e he
    obtain ⟨e'', he'', hs'⟩ := h'.stays l e' he'
    exact ⟨e'', he'', hs.trans hs'⟩

lemma dir (h : fs.Grows fs') (he : fs.entry? l = some .dir) : fs'.entry? l = some .dir := by
  obtain ⟨e', he', hs⟩ := h.stays l _ he
  cases hs
  exact he'

lemma link (h : fs.Grows fs') {target : Path} (he : fs.entry? l = some (.link target)) :
    fs'.entry? l = some (.link target) := by
  obtain ⟨e', he', hs⟩ := h.stays l _ he
  cases hs
  exact he'

lemma prune (fs : FileSystem) (l : Location) : (fs.prune l).Grows fs where
  cwd := rfl
  stays m e he := by
    rw [entry?_prune] at he
    split at he
    · simp at he
    · exact ⟨e, he, .refl e⟩

lemma clear (fs : FileSystem) (l : Location) : (fs.clear l).Grows fs where
  cwd := rfl
  stays m e he := by
    rw [entry?_clear] at he
    split at he
    · simp at he
    · exact ⟨e, he, .refl e⟩

lemma put_new (hnew : fs.entry? l = none) (e : Entry) : fs.Grows (fs.put l e) where
  cwd := rfl
  stays m e' he := by
    refine ⟨e', ?_, .refl e'⟩
    have hne : l ≠ m := fun h => by simp [← h, hnew] at he
    rw [entry?_put (ne_nil_of_entry?_eq_none hnew), if_neg hne, he]

end Grows

namespace Leads

/-- **What a path leads to stays** when the file system grows. -/
theorem grows (hg : fs.Grows fs') (h : fs.Leads follow n d segs (.found l e)) :
    ∃ e', fs'.Leads follow n d segs (.found l e') ∧ e.Stays e' := by
  generalize hr : Reached.found l e = r at h
  induction h with
  | done =>
    obtain ⟨rfl, rfl⟩ := Reached.found.inj hr
    exact ⟨_, .done, .dir⟩
  | idle hs _ ih =>
    obtain ⟨e', hl, hst⟩ := ih hr
    exact ⟨e', .idle hs hl, hst⟩
  | up _ ih =>
    obtain ⟨e', hl, hst⟩ := ih hr
    exact ⟨e', .up hl, hst⟩
  | missing => simp at hr
  | dir hs he _ ih =>
    obtain ⟨e', hl, hst⟩ := ih hr
    exact ⟨e', .dir hs (hg.dir he) hl, hst⟩
  | file hs he =>
    obtain ⟨rfl, rfl⟩ := Reached.found.inj hr
    obtain ⟨e', he', hst⟩ := hg.stays _ _ he
    cases hst
    exact ⟨_, .file hs he', .file⟩
  | link hs he hstay =>
    obtain ⟨rfl, rfl⟩ := Reached.found.inj hr
    exact ⟨_, .link hs (hg.link he) hstay, .link⟩
  | jump hs he hgo _ ih =>
    obtain ⟨e', hl, hst⟩ := ih hr
    exact ⟨e', .jump hs (hg.link he) hgo hl, hst⟩

lemma dir_of_grows (hg : fs.Grows fs') (h : fs.Leads follow n d segs (.found l .dir)) :
    fs'.Leads follow n d segs (.found l .dir) := by
  obtain ⟨e', h', hst⟩ := h.grows hg
  cases hst
  exact h'

/-- A path that leads to nothing leads to what becomes of its last name. -/
lemma of_missing (hg : fs.Grows fs') (h : fs.Leads follow n d segs (.missing l))
    (hlast : ∀ {n d s rest}, CanName s → d ++ [s] = l → (∀ s' ∈ rest, s' = "") →
      fs'.Leads follow n d (s :: rest) r) : fs'.Leads follow n d segs r := by
  generalize hr : Reached.missing l = r' at h
  induction h with
  | missing hs _ hrest => exact hlast hs (Reached.missing.inj hr).symm hrest
  | idle hs _ ih => exact .idle hs (ih hr)
  | up _ ih => exact .up (ih hr)
  | dir hs he _ ih => exact .dir hs (hg.dir he) (ih hr)
  | jump hs he hgo _ ih => exact .jump hs (hg.link he) hgo (ih hr)
  | done => simp at hr
  | file => simp at hr
  | link => simp at hr

/-- A path that leads to nothing leads to nothing as long as nothing is put there. -/
lemma missing_of_grows (hg : fs.Grows fs') (h : fs.Leads follow n d segs (.missing l))
    (hnew : fs'.entry? l = none) : fs'.Leads follow n d segs (.missing l) := by
  refine h.of_missing hg fun hs hl hrest => ?_
  subst hl
  exact .missing hs hnew hrest

/-- A path that leads to nothing leads to a directory that is put there. -/
lemma dir_of_missing (hg : fs.Grows fs') (h : fs.Leads follow n d segs (.missing l))
    (hdir : fs'.entry? l = some .dir) : fs'.Leads follow n d segs (.found l .dir) := by
  refine h.of_missing hg fun hs hl hrest => ?_
  subst hl
  exact .dir hs hdir (of_blanks hrest)

end Leads

/-! ### Below a place -/

/-- There is no link at or below the place. -/
def LinkFree (fs : FileSystem) (l : Location) : Prop :=
  ∀ m target, l <+: m → fs.entry? m ≠ some (.link target)

lemma LinkFree.mono (h : fs.LinkFree l) (hm : l <+: m) : fs.LinkFree m :=
  fun k target hk => h k target (hm.trans hk)

/-- **Segments that do not go up stay below** a place without links, whether or not links are
followed at the end. -/
theorem Leads.stays_below (h : fs.Leads follow n d segs r) (hfree : fs.LinkFree l) (hd : l <+: d)
    (hup : ".." ∉ segs) :
    l <+: r.location ∧ ∀ follow' n', fs.Leads follow' n' d segs r := by
  induction h with
  | done => exact ⟨hd, fun _ _ => .done⟩
  | idle hs _ ih =>
    obtain ⟨hl, hany⟩ := ih hd fun h => hup (List.mem_cons_of_mem _ h)
    exact ⟨hl, fun f n => .idle hs (hany f n)⟩
  | up _ ih => exact absurd List.mem_cons_self hup
  | missing hs he hrest => exact ⟨hd.trans (List.prefix_append _ _), fun _ _ => .missing hs he hrest⟩
  | dir hs he _ ih =>
    obtain ⟨hl, hany⟩ := ih (hd.trans (List.prefix_append _ _)) fun h => hup (List.mem_cons_of_mem _ h)
    exact ⟨hl, fun f n => .dir hs he (hany f n)⟩
  | file hs he => exact ⟨hd.trans (List.prefix_append _ _), fun _ _ => .file hs he⟩
  | link hs he => exact absurd he (hfree _ _ (hd.trans (List.prefix_append _ _)))
  | jump hs he => exact absurd he (hfree _ _ (hd.trans (List.prefix_append _ _)))

/-- What comes behind a directory without links, and does not go up, is followed from there. -/
lemma Leads.go_on (ha : fs.Leads true n d a (.found l .dir)) (h : fs.Leads follow n d (a ++ b) r)
    (hb : b ≠ []) (hfree : fs.LinkFree l) (hup : ".." ∉ b) (follow' : Bool) (n' : Nat) :
    fs.Leads follow' n' l b r := by
  obtain ⟨n₁, -, hwalk⟩ := ha.exists_walk_append
  have hlast := leads_of_walk ((hwalk follow b hb).symm.trans h.walk)
  exact (hlast.stays_below hfree List.prefix_rfl hup).2 follow' n'

/-- A path that goes on behind a directory without links, and does not go up, stays below it. -/
lemma Leads.append_stays_below (ha : fs.Leads true n d a (.found l .dir))
    (h : fs.Leads follow n d (a ++ b) r) (hb : b ≠ []) (hfree : fs.LinkFree l) (hup : ".." ∉ b) :
    l <+: r.location ∧ ∀ follow', fs.Leads follow' n d (a ++ b) r := by
  obtain ⟨n', -, hwalk⟩ := ha.exists_walk_append
  have hlast := ha.go_on h hb hfree hup
  exact ⟨((hlast true n').stays_below hfree List.prefix_rfl hup).1,
    fun follow' => leads_of_walk ((hwalk follow' b hb).trans (hlast follow' n').walk)⟩

section Below

variable (hfree : fs.LinkFree l) (hd : l <+: d) (hup : ".." ∉ segs)
include hfree hd hup

/-- **The place of a path** below a place without links is that of its names. -/
theorem Leads.location_eq (h : fs.Leads follow n d segs r) : r.location = d ++ Path.proper segs := by
  induction h with
  | done => simp [Reached.location, Path.proper]
  | idle hs _ ih =>
    rw [Path.proper_cons_of_idle hs]
    exact ih hd fun h => hup (List.mem_cons_of_mem _ h)
  | up => exact absurd List.mem_cons_self hup
  | missing hs _ hrest =>
    rw [Path.proper_cons hs.toIsName, Path.proper_blanks hrest]
    rfl
  | dir hs _ _ ih =>
    rw [ih (hd.trans (List.prefix_append _ _)) fun h => hup (List.mem_cons_of_mem _ h),
      Path.proper_cons hs.toIsName, List.append_assoc, List.singleton_append]
  | file hs => rw [Path.proper_cons hs.toIsName]; rfl
  | link _ he => exact absurd he (hfree _ _ (hd.trans (List.prefix_append _ _)))
  | jump _ he => exact absurd he (hfree _ _ (hd.trans (List.prefix_append _ _)))

/-- A directory that segments lead to stands in its place. -/
lemma Leads.entry?_dir (hdir : fs.entry? d = some .dir)
    (h : fs.Leads follow n d segs (.found m .dir)) : fs.entry? m = some .dir := by
  generalize hr : Reached.found m .dir = r at h
  induction h with
  | done => exact (Reached.found.inj hr).1 ▸ hdir
  | idle _ _ ih => exact ih hd (fun h => hup (List.mem_cons_of_mem _ h)) hdir hr
  | up => exact absurd List.mem_cons_self hup
  | missing => simp at hr
  | dir _ he _ ih =>
    exact ih (hd.trans (List.prefix_append _ _)) (fun h => hup (List.mem_cons_of_mem _ h)) he hr
  | file => simp at hr
  | link => simp at hr
  | jump _ he => exact absurd he (hfree _ _ (hd.trans (List.prefix_append _ _)))

/-- Segments that lead to nothing lead to a file that is put there, unless they end in a slash. -/
lemma Leads.file_of_missing {content : ByteArray} {mode : Mode} (hg : fs.Grows fs')
    (h : fs.Leads follow n d segs (.missing m)) (hfile : fs'.entry? m = some (.file content mode)) (hend : segs.getLast? ≠ some "") :
    fs'.Leads follow n d segs (.found m (.file content mode)) := by
  generalize hr : Reached.missing m = r at h
  induction h with
  | done => simp at hr
  | @idle _ _ s rest _ hs h ih =>
    have hrest : rest ≠ [] := by
      rintro rfl
      cases h
      simp at hr
    refine .idle hs (ih hd (fun h => hup (List.mem_cons_of_mem _ h)) ?_ hr)
    rwa [List.getLast?_cons_of_ne_nil hrest] at hend
  | up => exact absurd List.mem_cons_self hup
  | @missing _ _ s rest hs he hrest =>
    obtain rfl := Reached.missing.inj hr
    have hnil : rest = [] := by
      by_contra hne
      have hlast := hrest _ (List.getLast_mem hne)
      rw [List.getLast?_cons_of_ne_nil hne, List.getLast?_eq_some_getLast hne, hlast] at hend
      exact hend rfl
    subst hnil
    exact .file hs hfile
  | @dir _ _ s rest _ hs he h ih =>
    have hrest : rest ≠ [] := by
      rintro rfl
      cases h
      simp at hr
    refine .dir hs (hg.dir he) (ih (hd.trans (List.prefix_append _ _))
      (fun h => hup (List.mem_cons_of_mem _ h)) ?_ hr)
    rwa [List.getLast?_cons_of_ne_nil hrest] at hend
  | file => simp at hr
  | link => simp at hr
  | jump _ he => exact absurd he (hfree _ _ (hd.trans (List.prefix_append _ _)))

end Below

/-- The file system grows at and below a place only, and no link is made. -/
structure FillsIn (l : Location) (fs fs' : FileSystem) : Prop where
  grows : fs.Grows fs'
  outside : ∀ m, ¬ l <+: m → fs'.entry? m = fs.entry? m
  noLink : ∀ m target, fs'.entry? m = some (.link target) → fs.entry? m = some (.link target)

namespace FillsIn

lemma refl (l : Location) (fs : FileSystem) : FillsIn l fs fs :=
  ⟨.refl fs, fun _ _ => rfl, fun _ _ h => h⟩

lemma trans (h : FillsIn l fs fs') (h' : FillsIn l fs' fs'') : FillsIn l fs fs'' where
  grows := h.grows.trans h'.grows
  outside m hm := (h'.outside m hm).trans (h.outside m hm)
  noLink m target hm := h.noLink m target (h'.noLink m target hm)

lemma linkFree (h : FillsIn l fs fs') (hfree : fs.LinkFree m) : fs'.LinkFree m :=
  fun k target hk he => hfree k target hk (h.noLink k target he)

/-- A directory is made, or a file is written, where there is nothing or another file. -/
lemma put (hm : m ≠ []) (hl : l <+: m) (hstays : ∀ e', fs.entry? m = some e' → e'.Stays e)
    (hlink : ∀ target, e ≠ .link target) : FillsIn l fs (fs.put m e) where
  grows := by
    refine ⟨rfl, fun k e' he' => ?_⟩
    rw [entry?_put hm]
    split
    · next heq => exact ⟨e, rfl, hstays e' (heq ▸ he')⟩
    · exact ⟨e', he', .refl e'⟩
  outside k hk := by
    have hne : m ≠ k := fun heq => hk (heq ▸ hl)
    rw [entry?_put hm, if_neg hne]
  noLink k target hk := by
    rw [entry?_put hm] at hk
    split at hk
    · exact absurd (Option.some.inj hk) (hlink target)
    · exact hk

end FillsIn

end FileSystem

end Stencil
