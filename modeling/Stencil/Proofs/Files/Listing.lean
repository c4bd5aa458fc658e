import Stencil.Proofs.Files.Operations

/-!
What is in a directory, in order.

The entries below a directory come in the order of their locations. This is the order in which the
directory is walked through: one name after the other, and all that is below a name before the next
one.
-/

namespace Stencil.FileSystem

variable {fs fs' : FileSystem} {d m : Location} {s : String} {e : Entry} {names a b : List String}

/-! ### Ordered lists -/

/-- The keys come one after the other. -/
def Ordered {α β : Type} [Ord α] (entries : List (α × β)) : Prop :=
  entries.Pairwise fun x y => compare x.1 y.1 = .lt

namespace Ordered

variable {α β : Type} [Ord α] [Std.TransOrd α] {l l' : List (α × β)}

lemma nodup (h : Ordered l) : l.Nodup :=
  h.imp fun {x y} hlt heq => by
    subst heq
    simp [Std.ReflOrd.compare_self] at hlt

/-- An ordered list is determined by what is in it. -/
theorem ext (h : Ordered l) (h' : Ordered l') (hmem : ∀ x, x ∈ l ↔ x ∈ l') : l = l' := by
  have hperm : l.Perm l' := (List.perm_ext_iff_of_nodup h.nodup h'.nodup).mpr hmem
  refine hperm.eq_of_pairwise (fun x y _ _ hxy hyx => ?_) h h'
  exact absurd hyx (Std.OrientedCmp.not_lt_of_lt hxy)

end Ordered

lemma compare_append (d a b : List String) : compare (d ++ a) (d ++ b) = compare a b := by
  induction d with
  | nil => rfl
  | cons s d ih =>
    rw [List.cons_append, List.cons_append, List.compare_cons_cons, ih, Std.ReflOrd.compare_self]
    rfl

lemma ordered_toList (fs : FileSystem) : Ordered fs.entries.toList :=
  Std.ExtTreeMap.ordered_keys_toList

lemma mem_toList_iff (hm : m ≠ []) : (m, e) ∈ fs.entries.toList ↔ fs.entry? m = some e := by
  rw [Std.ExtTreeMap.mem_toList_iff_getElem?_eq_some, entry?, if_neg hm]

/-- No entry is a link if none has the permissions that a link shows. -/
lemma linkFree_of_entries (hall : ∀ x ∈ fs.entries.toList, x.2.mode? ≠ some linkMode) (d : Location) :
    fs.LinkFree d := by
  intro m target _ he
  have hnil : m ≠ [] := by
    rintro rfl
    simp [entry?_nil] at he
  exact hall (m, .link target) ((mem_toList_iff hnil).mpr he) rfl

/-! ### The names in a directory -/

lemma mem_children_iff : (s, e) ∈ fs.children d ↔ fs.entry? (d ++ [s]) = some e := by
  rw [← mem_toList_iff (by simp), children, List.mem_filterMap]
  constructor
  · rintro ⟨⟨m, e'⟩, hm, hchild⟩
    rcases List.eq_nil_or_concat' m with rfl | ⟨d', s', rfl⟩
    · simp at hchild
    · obtain ⟨rfl, rfl, rfl⟩ : d' = d ∧ s' = s ∧ e' = e := by simpa using hchild
      exact hm
  · exact fun hm => ⟨(d ++ [s], e), hm, by simp⟩

lemma ordered_children (fs : FileSystem) (d : Location) : Ordered (fs.children d) := by
  rw [Ordered, children, List.pairwise_filterMap]
  refine fs.ordered_toList.imp fun {x y} hlt b hb b' hb' => ?_
  obtain ⟨m, e⟩ := x
  obtain ⟨m', e'⟩ := y
  rcases List.eq_nil_or_concat' m with rfl | ⟨x, s, rfl⟩
  · simp at hb
  rcases List.eq_nil_or_concat' m' with rfl | ⟨x', s', rfl⟩
  · simp at hb'
  obtain ⟨rfl, rfl⟩ : x = d ∧ (s, e) = b := by simpa using hb
  obtain ⟨rfl, rfl⟩ : x' = x ∧ (s', e') = b' := by simpa using hb'
  rw [compare_append, List.compare_cons_cons] at hlt
  simpa using hlt

/-! ### The entries below a directory -/

/-- The entries below a place that are no directories, with the names that lead to them from there,
in the order of their locations. -/
def leaves (fs : FileSystem) (d : Location) : List (List String × Entry) :=
  (fs.below d).filterMap fun x =>
    if x.1 = d ∨ isDirectory (some x.2) then none else some (x.1.drop d.length, x.2)

lemma mem_leaves_iff : (names, e) ∈ fs.leaves d ↔
    names ≠ [] ∧ e ≠ .dir ∧ fs.entry? (d ++ names) = some e := by
  have hmem (m : Location) (e' : Entry) : (m, e') ∈ fs.below d ↔
      (m, e') ∈ fs.entries.toList ∧ d <+: m := by
    simp [below, List.mem_filter]
  rw [leaves, List.mem_filterMap]
  constructor
  · rintro ⟨⟨m, e'⟩, hm, hleaf⟩
    obtain ⟨hm, names', rfl⟩ := (hmem m e').mp hm
    split at hleaf
    · simp at hleaf
    · next hno =>
      obtain ⟨hne, hdir⟩ := not_or.mp hno
      obtain ⟨rfl, rfl⟩ : names' = names ∧ e' = e := by simpa using hleaf
      have hnames : names' ≠ [] := by simpa using hne
      refine ⟨hnames, fun he => hdir (by simp [he, isDirectory]), ?_⟩
      exact (mem_toList_iff (by simp [hnames])).mp hm
  · rintro ⟨hnames, hdir, he⟩
    refine ⟨(d ++ names, e), (hmem _ _).mpr ⟨?_, List.prefix_append d names⟩, ?_⟩
    · exact (mem_toList_iff (by simp [hnames])).mpr he
    · have hno : ¬ (d ++ names = d ∨ isDirectory (some e)) := by
        simp [hnames, isDirectory_iff, hdir]
      rw [if_neg hno, List.drop_left]

lemma ordered_leaves (fs : FileSystem) (d : Location) : Ordered (fs.leaves d) := by
  have hbelow : Ordered (fs.below d) := fs.ordered_toList.filter _
  rw [Ordered, leaves, List.pairwise_filterMap]
  refine (hbelow.imp_of_mem fun {x y} hx hy hlt b hb b' hb' => ?_)
  obtain ⟨m, e⟩ := x
  obtain ⟨m', e'⟩ := y
  obtain ⟨k, rfl⟩ : d <+: m := by simpa [below] using (List.mem_filter.mp hx).2
  obtain ⟨k', rfl⟩ : d <+: m' := by simpa [below] using (List.mem_filter.mp hy).2
  split at hb
  · simp at hb
  split at hb'
  · simp at hb'
  obtain rfl : (k, e) = b := by simpa using hb
  obtain rfl : (k', e') = b' := by simpa using hb'
  rwa [compare_append] at hlt

/-- What comes below one of the names in a directory. -/
def branch (fs : FileSystem) (d : Location) : String × Entry → List (List String × Entry)
  | (s, .dir) => (fs.leaves (d ++ [s])).map fun x => (s :: x.1, x.2)
  | (s, e) => [([s], e)]

/-- What has something below it is a directory. -/
lemma IsTree.entry?_of_below (htree : fs.IsTree) (hb : b ≠ []) (h : fs.entry? (d ++ b) ≠ none) :
    fs.entry? d = some .dir := by
  induction b using List.reverseRecOn with
  | nil => exact absurd rfl hb
  | append_singleton b s ih =>
    have hdir : fs.entry? (d ++ b) = some .dir := htree (d ++ b) s (by rwa [List.append_assoc])
    by_cases hnil : b = []
    · rwa [hnil, List.append_nil] at hdir
    · exact ih hnil (by simp [hdir])

lemma mem_branch_iff (htree : fs.IsTree) {e' : Entry} (hs : fs.entry? (d ++ [s]) = some e') :
    (names, e) ∈ fs.branch d (s, e') ↔
      (∃ rest, names = s :: rest) ∧ e ≠ .dir ∧ fs.entry? (d ++ names) = some e := by
  have hsplit (rest : List String) : d ++ s :: rest = (d ++ [s]) ++ rest := by simp
  by_cases hdir : e' = .dir
  · subst hdir
    rw [branch, List.mem_map]
    constructor
    · rintro ⟨⟨rest, e⟩, hrest, hx⟩
      obtain ⟨rfl, rfl⟩ := Prod.mk.inj hx
      obtain ⟨-, hne, he⟩ := mem_leaves_iff.mp hrest
      exact ⟨⟨rest, rfl⟩, hne, by rw [hsplit, he]⟩
    · rintro ⟨⟨rest, rfl⟩, hne, he⟩
      refine ⟨(rest, e), mem_leaves_iff.mpr ⟨?_, hne, by rw [← hsplit, he]⟩, rfl⟩
      rintro rfl
      exact hne (Option.some.inj (he.symm.trans hs))
  · have hbranch : fs.branch d (s, e') = [([s], e')] := by
      cases e' <;> first | rfl | exact absurd rfl hdir
    rw [hbranch, List.mem_singleton]
    constructor
    · rintro hx
      obtain ⟨rfl, rfl⟩ := Prod.mk.inj hx
      exact ⟨⟨[], rfl⟩, hdir, hs⟩
    · -- nothing is below an entry that is no directory
      rintro ⟨⟨rest, rfl⟩, -, he⟩
      have hnil : rest = [] := by
        by_contra hne
        have hd := htree.entry?_of_below (d := d ++ [s]) hne (by rw [← hsplit, he]; simp)
        exact hdir (Option.some.inj (hs.symm.trans hd))
      subst hnil
      rw [Option.some.inj (he.symm.trans hs)]

lemma ordered_branch (fs : FileSystem) (d : Location) (x : String × Entry) :
    Ordered (fs.branch d x) := by
  obtain ⟨s, e⟩ := x
  cases e with
  | dir =>
    refine List.pairwise_map.mpr ((fs.ordered_leaves (d ++ [s])).imp fun {x y} hlt => ?_)
    rw [List.compare_cons_cons, Std.ReflOrd.compare_self]
    exact hlt
  | file => exact List.pairwise_singleton _ _
  | link => exact List.pairwise_singleton _ _

/-- **A directory is walked through in order** of the names in it. -/
theorem leaves_eq_flatMap (htree : fs.IsTree) (d : Location) :
    fs.leaves d = (fs.children d).flatMap (fs.branch d) := by
  have hentry {x : String × Entry} (hx : x ∈ fs.children d) :
      fs.entry? (d ++ [x.1]) = some x.2 := mem_children_iff.mp hx
  refine (ordered_leaves fs d).ext ?_ fun ⟨names, e⟩ => ?_
  · refine List.pairwise_flatMap.mpr ⟨fun x _ => ordered_branch fs d x, ?_⟩
    refine (ordered_children fs d).imp_of_mem fun {x y} hx hy hlt u hu v hv => ?_
    -- the first names decide
    obtain ⟨⟨rest, hu⟩, -⟩ := (mem_branch_iff htree (hentry hx)).mp hu
    obtain ⟨⟨rest', hv⟩, -⟩ := (mem_branch_iff htree (hentry hy)).mp hv
    rw [hu, hv, List.compare_cons_cons, hlt]
    rfl
  · rw [mem_leaves_iff, List.mem_flatMap]
    constructor
    · rintro ⟨hne, hdir, he⟩
      obtain ⟨s, rest, rfl⟩ := List.exists_cons_of_ne_nil hne
      have hs : fs.entry? (d ++ [s]) ≠ none := by
        intro hnone
        have hprefix : d ++ [s] <+: d ++ s :: rest := ⟨rest, by simp⟩
        simp [htree.entry?_eq_none hnone hprefix] at he
      obtain ⟨e', he'⟩ := Option.ne_none_iff_exists'.mp hs
      exact ⟨(s, e'), mem_children_iff.mpr he', (mem_branch_iff htree he').mpr ⟨⟨rest, rfl⟩, hdir, he⟩⟩
    · rintro ⟨⟨s, e'⟩, hx, hbranch⟩
      obtain ⟨⟨rest, rfl⟩, hdir, he⟩ := (mem_branch_iff htree (hentry hx)).mp hbranch
      exact ⟨by simp, hdir, he⟩

/-- Only what is below a place makes a difference. -/
lemma children_congr (h : ∀ m, d <+: m → fs'.entry? m = fs.entry? m) :
    fs'.children d = fs.children d := by
  refine (ordered_children fs' d).ext (ordered_children fs d) fun ⟨s, e⟩ => ?_
  rw [mem_children_iff, mem_children_iff, h _ (List.prefix_append d [s])]

/-! ### Reading a directory -/

/-- Every entry stands in a directory, under a name. -/
structure Sound (fs : FileSystem) : Prop where
  tree : fs.IsTree
  named : ∀ d s, fs.entry? (d ++ [s]) ≠ none → Path.IsName s

lemma sound_iff : fs.Sound ↔ fs.IsTree ∧
    ∀ x ∈ fs.entries.toList, ∀ s ∈ x.1.getLast?, Path.isIdle s = false ∧ s ≠ ".." := by
  constructor
  · rintro ⟨htree, hnamed⟩
    refine ⟨htree, fun x hx s hs => ?_⟩
    obtain ⟨m, e⟩ := x
    obtain ⟨d, rfl⟩ := List.getLast?_eq_some_iff.mp hs
    have hname := hnamed d s (by simp [(mem_toList_iff (by simp)).mp hx])
    exact ⟨hname.proper, hname.down⟩
  · rintro ⟨htree, hnamed⟩
    refine ⟨htree, fun d s hne => ?_⟩
    obtain ⟨e, he⟩ := Option.ne_none_iff_exists'.mp hne
    obtain ⟨hproper, hdown⟩ := hnamed _ ((mem_toList_iff (by simp)).mpr he) s (by simp)
    exact ⟨hproper, hdown⟩

instance : Decidable fs.Sound := decidable_of_iff _ sound_iff.symm

lemma listDir_ok {p : Path} {entries : List (String × Entry)} (h : fs.listDir p = .ok entries) :
    ∃ m, fs.lookup true p = .ok (m, .dir) ∧ entries = fs.children m := by
  unfold listDir at h
  split at h
  · next m hm => exact ⟨m, hm, (Except.ok.inj h).symm⟩
  · simp at h
  · simp at h

lemma readFile_ok {p : Path} {content : ByteArray} (h : fs.readFile p = .ok content) :
    ∃ m mode, fs.lookup true p = .ok (m, .file content mode) := by
  unfold readFile at h
  split at h
  · next m content' mode hm =>
    obtain rfl := Except.ok.inj h
    exact ⟨m, mode, hm⟩
  · simp at h
  · simp at h

/-- A name behind the path of a directory is looked up in the directory. -/
lemma leads_of_name {p : Path} {x : Location} (hp : fs.lookup true p = .ok (x, .dir))
    (hs : Path.IsName s) (h : fs.lookup true (p.join ⟨[s]⟩) = .ok (m, e)) :
    ∃ n, fs.Leads true n x [s] (.found m e) := by
  obtain ⟨htext, hl⟩ := lookup_eq_ok_iff.mp hp
  obtain ⟨-, hchild⟩ := lookup_eq_ok_iff.mp h
  have hne : p ≠ .empty := by
    rintro rfl
    exact absurd htext (by decide)
  have hinner : (⟨[s]⟩ : Path).IsInner :=
    .mk' (by simp) (by simp [Path.isAbsolute_cons]) (by simpa using hs.down.symm)
  rw [origin, Path.isAbsolute_join hne hinner, Path.segments_join p hinner.isAbsolute] at hchild
  obtain ⟨n, -, hwalk⟩ := hl.base.exists_walk_append
  exact ⟨n, leads_of_walk ((hwalk true [s] (by simp)).symm.trans hchild.walk)⟩

/-- What is found under a name is the entry of that name, unless this is a link. -/
lemma Leads.found_of_entry? {n : Nat} {x : Location} {e' : Entry} (h : fs.Leads true n x [s] (.found m e))
    (hs : Path.IsName s) (he : fs.entry? (x ++ [s]) = some e')
    (hlink : ∀ target, e' ≠ .link target) : m = x ++ [s] ∧ e = e' := by
  cases h with
  | idle hidle => simp [hs.proper] at hidle
  | up => exact absurd rfl hs.down
  | dir _ hdir h =>
    cases h
    exact ⟨rfl, Option.some.inj (hdir.symm.trans he)⟩
  | file _ hfile => exact ⟨rfl, Option.some.inj (hfile.symm.trans he)⟩
  | link _ _ hstay => simp at hstay
  | jump _ hjump => exact absurd (Option.some.inj (he.symm.trans hjump)) (hlink _)

end Stencil.FileSystem
