import Stencil.Proofs.Files.Contents

/-!
What is in the way of a path.

Segments that do not go up are followed from a directory without links as long as there are
directories. They are stopped by a name that nothing has, or by a file that is no directory, before
they come to the last one. A directory is made with all that are missing on the way to it, so that only
a file can be in its way. A file is not: what is missing on the way to it keeps it from being written.
-/

namespace Stencil

/-- Whether an error says that there is no directory where one is needed. -/
def OsError.LacksDirectory (e : OsError) : Prop := e = .notFound ∨ e = .notDirectory

instance (e : OsError) : Decidable e.LacksDirectory := inferInstanceAs (Decidable (_ ∨ _))

namespace Path

variable {p : Path} {s : String} {a b c segs : List String}

lemma IsName.of_ne (hempty : s ≠ "") (hdot : s ≠ ".") (hup : s ≠ "..") : IsName s :=
  ⟨by simp [isIdle, hempty, hdot], hup⟩

lemma IsName.ne_dot (hs : IsName s) : s ≠ "." := by
  rintro rfl
  exact absurd hs.proper (by decide)

lemma ne_empty_of_mem (hs : IsName s) (hmem : s ∈ p.segments) : p ≠ empty := by
  rintro rfl
  exact hs.ne_empty (List.mem_singleton.mp hmem)

lemma ne_empty_of_proper (hname : proper p.segments ≠ []) : p ≠ empty := by
  rintro rfl
  exact hname rfl

lemma proper_append (a b : List String) : proper (a ++ b) = proper a ++ proper b :=
  List.filter_append _ _

lemma proper_singleton (hs : IsName s) : proper [s] = [s] := by
  rw [proper_cons hs]
  rfl

lemma proper_idle (hb : ∀ s ∈ b, isIdle s) : proper b = [] :=
  List.filter_eq_nil_iff.mpr fun s hs => by simp [hb s hs]

lemma proper_base (p : Path) : proper p.base = proper p.segments := by
  rcases p.base_cases with hbase | hbase
  · rw [hbase]
  · have hblank : proper [""] = [] := rfl
    rw [hbase, proper_append, hblank, List.append_nil]

/-- What is left when the slashes at the end are dropped. -/
lemma dropWhile_append_blanks (hs : s ≠ "") (hb : ∀ x ∈ b, x = "") :
    (a ++ [s] ++ b).reverse.dropWhile (· = "") = s :: a.reverse := by
  have hblank : b.reverse.dropWhile (· = "") = [] :=
    List.dropWhile_eq_nil_iff.mpr fun x hx => by simpa using hb x (List.mem_reverse.mp hx)
  rw [List.reverse_append, List.dropWhile_append, hblank]
  simp [hs]

/-- Segments with a name among them end in a name and slashes, if no full stop is among them. -/
lemma exists_last_name (hdot : "." ∉ segs) (hup : ".." ∉ segs) (hname : proper segs ≠ []) :
    ∃ a s b, segs = a ++ [s] ++ b ∧ IsName s ∧ ∀ x ∈ b, x = "" := by
  cases hnamed : segs.reverse.dropWhile (· = "") with
  | nil =>
    have hblank : ∀ x ∈ segs, x = "" := by
      simpa [List.dropWhile_eq_nil_iff] using hnamed
    exact absurd (proper_blanks hblank) hname
  | cons s a =>
    have hp : (⟨segs⟩ : Path).segments.reverse.dropWhile (· = "") = s :: a := hnamed
    obtain ⟨hempty, b, hsegs, hb⟩ := exists_last hp
    have hmem : s ∈ segs := by
      have hall : segs = a.reverse ++ [s] ++ b := hsegs
      simp [hall]
    refine ⟨a.reverse, s, b, hsegs, .of_ne hempty ?_ ?_, hb⟩
    · rintro rfl
      exact hdot hmem
    · rintro rfl
      exact hup hmem

lemma eq_nil_of_cut {text : List Char} (h : (cut text).map String.ofList = [""]) : text = [] := by
  cases text with
  | nil => rfl
  | cons ch text =>
    unfold cut at h
    split at h
    · simp at h
    · split at h <;> simp at h

/-- A path that names something below the directory where it starts, and has no full stop among its
segments. -/
structure Descends (q : Path) : Prop extends q.IsInner where
  noDot : "." ∉ q.segments
  named : proper q.segments ≠ []

namespace Descends

variable {q q' : Path}

lemma ofText {text : String} (hstays : (ofText text).staysBelow) (hne : text ≠ "")
    (hdot : "." ∉ (Path.ofText text).segments) : (Path.ofText text).Descends := by
  have hinner := IsInner.ofText hstays
  refine ⟨hinner, hdot, fun hnone => ?_⟩
  have hblank : ∀ s ∈ (Path.ofText text).segments, s = "" := by
    intro s hs
    have hidle : isIdle s := by simpa using List.filter_eq_nil_iff.mp hnone s hs
    have hcases : s = "" ∨ s = "." := by simpa [isIdle] using hidle
    refine hcases.resolve_right ?_
    rintro rfl
    exact hdot hs
  have habs := hinner.isAbsolute
  obtain ⟨segs, hsegs⟩ : ∃ segs, Path.ofText text = ⟨segs⟩ := ⟨_, rfl⟩
  rw [hsegs] at hblank habs
  rcases segs with _ | ⟨s, _ | ⟨s', ss⟩⟩
  · exact absurd (congrArg Path.segments hsegs) hinner.ne_nil
  · have hs : s = "" := hblank s List.mem_cons_self
    rw [hs] at hsegs
    exact hne (String.toList_eq_nil_iff.mp (eq_nil_of_cut (congrArg Path.segments hsegs)))
  · rw [isAbsolute_cons, hblank s List.mem_cons_self] at habs
    simp at habs

lemma join (hq : q.Descends) (hq' : q'.Descends) : (q.join q').Descends := by
  have hsegs := segments_join q hq'.isAbsolute
  refine ⟨hq.toIsInner.join hq'.toIsInner, ?_, ?_⟩
  · rw [hsegs, List.mem_append]
    rintro (hmem | hmem)
    · exact hq.noDot (q.base_prefix.subset hmem)
    · exact hq'.noDot hmem
  · rw [hsegs, proper_append]
    exact List.append_ne_nil_of_right_ne_nil _ hq'.named

end Descends

/-! ### The path around a path -/

/-- The segments that are left when idle ones are dropped from the end. -/
lemma exists_trimEnd (segs : List String) : ∃ b, segs = trimEnd segs ++ b ∧ ∀ x ∈ b, isIdle x := by
  refine ⟨(segs.reverse.takeWhile isIdle).reverse, ?_, fun x hx => ?_⟩
  · rw [trimEnd, ← List.reverse_append, List.takeWhile_append_dropWhile, List.reverse_reverse]
  · exact List.mem_takeWhile_imp (List.mem_reverse.mp hx)

lemma proper_trimEnd (segs : List String) : proper (trimEnd segs) = proper segs := by
  obtain ⟨b, hsegs, hb⟩ := exists_trimEnd segs
  have hproper := congrArg proper hsegs
  rw [proper_append, proper_idle hb, List.append_nil] at hproper
  exact hproper.symm

lemma trimEnd_ne_nil (hname : proper segs ≠ []) : trimEnd segs ≠ [] := by
  intro hnil
  rw [← proper_trimEnd, hnil] at hname
  exact hname rfl

lemma trimEnd_append (a : List String) (hb : trimEnd b ≠ []) : trimEnd (a ++ b) = a ++ trimEnd b := by
  have hdrop : ¬ (b.reverse.dropWhile isIdle).isEmpty = true := by simpa [trimEnd] using hb
  rw [trimEnd, List.reverse_append, List.dropWhile_append, if_neg hdrop, List.reverse_append,
    List.reverse_reverse, trimEnd]

lemma trimEnd_append_idle (hs : IsName s) (hb : ∀ x ∈ b, isIdle x) :
    trimEnd (a ++ [s] ++ b) = a ++ [s] := by
  have hidle : b.reverse.dropWhile isIdle = [] :=
    List.dropWhile_eq_nil_iff.mpr fun x hx => hb x (List.mem_reverse.mp hx)
  have hstop : ¬isIdle s = true := by simp [hs.proper]
  rw [trimEnd, List.reverse_append, List.dropWhile_append, hidle]
  simp [hstop]

/-- **The path around a path** that ends in a name is what comes before the name, if something is
named there. -/
lemma parent?_eq (hsegs : p.segments = a ++ [s] ++ b) (hs : IsName s) (hb : ∀ x ∈ b, isIdle x)
    (hname : proper a ≠ []) : p.parent? = some ⟨trimEnd a⟩ := by
  have htrim (c : List String) : trimEnd (c ++ [s] ++ b) = c ++ [s] := trimEnd_append_idle hs hb
  obtain ⟨segments⟩ := p
  obtain rfl : segments = a ++ [s] ++ b := hsegs
  rcases a with _ | ⟨x, a⟩
  · exact absurd rfl hname
  have hrest := trimEnd_ne_nil hname
  have hcons : x :: a ++ [s] ++ b = x :: (a ++ [s] ++ b) := rfl
  by_cases hempty : x = ""
  · subst hempty
    rw [proper_cons_of_idle rfl] at hname
    have hrest := trimEnd_ne_nil hname
    have hall : trimEnd ("" :: a) = "" :: trimEnd a := trimEnd_append [""] hrest
    -- a path of one segment is not absolute
    have hne : a ++ [s] ++ b ≠ [] := by simp
    obtain ⟨y, ys, hy⟩ := List.exists_cons_of_ne_nil hne
    rw [hall, hcons, hy]
    simp only [parent?]
    rw [← hy, htrim]
    split
    · next h => simp at h
    rw [List.dropLast_concat]
    split
    · contradiction
    · rfl
  by_cases hdot : x = "."
  · subst hdot
    rw [proper_cons_of_idle rfl] at hname
    have hall : trimEnd ("." :: a) = "." :: trimEnd a := trimEnd_append ["."] (trimEnd_ne_nil hname)
    rw [hall, hcons]
    simp only [parent?]
    rw [htrim]
    split
    · next h => simp at h
    rw [List.dropLast_concat]
  · unfold parent?
    split
    · next h => exact absurd (List.cons.inj h).1 hempty
    · next h => exact absurd (List.cons.inj h).1 hdot
    dsimp only
    rw [htrim]
    split
    · next h => simp at h
    rw [List.dropLast_concat]
    split
    · contradiction
    · rfl

end Path

namespace FileSystem

variable {fs fs' : FileSystem} {follow : Bool} {n : Nat} {d l m : Location} {p : Path} {s : String}
  {a b c segs : List String} {content : ByteArray} {e : OsError}

/-- What is in the way in a place: there is nothing, or a file where a directory is needed. -/
inductive Blocks (fs : FileSystem) (m : Location) : OsError → Prop
  | missing (he : fs.entry? m = none) : Blocks fs m .notFound
  | file {content : ByteArray} {mode : Mode} (he : fs.entry? m = some (.file content mode)) :
    Blocks fs m .notDirectory

/-- What is in the way of names below a place: it stands where some of them lead. -/
def Hinders (fs : FileSystem) (l : Location) (names : List String) (e : OsError) : Prop :=
  ∃ k, k ≠ [] ∧ k <+: names ∧ fs.Blocks (l ++ k) e

lemma Hinders.mono {names names' : List String} (h : fs.Hinders l names e) (hn : names <+: names') :
    fs.Hinders l names' e := by
  obtain ⟨k, hk, hnames, hblocks⟩ := h
  exact ⟨k, hk, hnames.trans hn, hblocks⟩

lemma Hinders.cons {names : List String} (h : fs.Hinders (l ++ [s]) names e) :
    fs.Hinders l (s :: names) e := by
  obtain ⟨k, hk, hnames, hblocks⟩ := h
  rw [List.append_assoc] at hblocks
  exact ⟨s :: k, by simp, List.cons_prefix_cons.mpr ⟨rfl, hnames⟩, hblocks⟩

/-- Nothing can be in the way of nothing. -/
lemma not_hinders_nil : ¬fs.Hinders l [] e := by
  rintro ⟨k, hk, hnames, -⟩
  exact hk (List.prefix_nil.mp hnames)

/-- **Segments that do not go up** are stopped by what is in the way of one that is not the last. -/
theorem walk_error (hfree : fs.LinkFree l) (hd : l <+: d) (hup : ".." ∉ segs)
    (h : fs.walk follow n d segs = .error e) :
    e = .nameTooLong ∨ fs.Hinders d (Path.proper segs.dropLast) e := by
  induction segs generalizing d with
  | nil => simp [walk_nil] at h
  | cons s rest ih =>
    have hup' : ".." ∉ rest := fun hmem => hup (List.mem_cons_of_mem s hmem)
    rcases segment_cases s with hs | rfl | ⟨hs, hlong⟩ | hs
    · rw [walk_idle hs] at h
      have hrest : rest ≠ [] := by
        rintro rfl
        simp [walk_nil] at h
      rw [List.dropLast_cons_of_ne_nil hrest, Path.proper_cons_of_idle hs]
      exact ih hd hup' h
    · exact absurd List.mem_cons_self hup
    · rw [walk_long hs hlong] at h
      exact .inl (Except.error.inj h).symm
    cases he : fs.entry? (d ++ [s]) with
    | none =>
      rw [walk_of_none hs he] at h
      split at h
      · simp at h
      next hblank =>
      obtain rfl := Except.error.inj h
      have hrest : rest ≠ [] := by
        rintro rfl
        simp at hblank
      rw [List.dropLast_cons_of_ne_nil hrest, Path.proper_cons hs.toIsName]
      exact .inr ⟨[s], by simp, by simp, .missing he⟩
    | some entry =>
      cases entry with
      | dir =>
        rw [walk_of_dir hs he] at h
        have hrest : rest ≠ [] := by
          rintro rfl
          simp [walk_nil] at h
        rw [List.dropLast_cons_of_ne_nil hrest, Path.proper_cons hs.toIsName]
        exact (ih (hd.trans (List.prefix_append d [s])) hup' h).imp_right .cons
      | file content mode =>
        rw [walk_of_file hs he] at h
        split at h
        · simp at h
        next hrest =>
        obtain rfl := Except.error.inj h
        rw [List.dropLast_cons_of_ne_nil hrest, Path.proper_cons hs.toIsName]
        exact .inr ⟨[s], by simp, by simp, .file he⟩
      | link target => exact absurd he (hfree _ target (hd.trans (List.prefix_append d [s])))

lemma not_lacksDirectory_of_checkText (hp : p ≠ .empty) (h : checkText p = .error e) :
    ¬e.LacksDirectory := by
  unfold checkText at h
  rw [if_neg hp] at h
  split at h
  · obtain rfl := Except.error.inj h
    decide
  split at h
  · obtain rfl := Except.error.inj h
    decide
  · simp at h

section Behind

variable (hl : fs.Leads true linkLimit (origin fs.cwd p) a (.found l .dir)) (hfree : fs.LinkFree l)
  (hup : ".." ∉ b) (hs : Path.IsName s) (hc : ∀ x ∈ c, x = "")
  (hsegs : p.segments = a ++ (b ++ [s]) ++ c) (hlacks : e.LacksDirectory)
include hl hfree hup

include hlacks in
lemma hinders_of_walk {last : String} (hlast : last ≠ "..")
    (h : fs.walk follow linkLimit (origin fs.cwd p) (a ++ (b ++ [last])) = .error e) :
    fs.Hinders l (Path.proper b) e := by
  obtain ⟨n, -, hwalk⟩ := hl.exists_walk_append
  rw [hwalk follow _ (by simp)] at h
  have hup' : ".." ∉ b ++ [last] := by simp [hup, Ne.symm hlast]
  have herror := walk_error hfree List.prefix_rfl hup' h
  rw [List.dropLast_concat] at herror
  refine herror.resolve_left ?_
  rintro rfl
  exact absurd hlacks (by decide)

include hs hc hsegs hlacks

/-- **A directory is not made** if there is no directory where one is needed on the way to it. -/
lemma hinders_of_makeDir (h : (fs.makeDir p).1 = .error e) : fs.Hinders l (Path.proper b) e := by
  have hnamed : p.segments.reverse.dropWhile (· = "") = s :: (a ++ b).reverse := by
    rw [hsegs, ← List.append_assoc]
    exact Path.dropWhile_append_blanks hs.ne_empty hc
  have hpath : (s :: (a ++ b).reverse).reverse = a ++ (b ++ [s]) := by simp
  have hbegins : (a ++ b) ++ [s] <+: p.segments := ⟨c, by rw [hsegs, List.append_assoc a]⟩
  have horigin := Path.origin_of_prefix fs.cwd hbegins hs
  rw [List.append_assoc] at horigin
  have hcheck {p' : Path} (hmem : s ∈ p'.segments) {e' : OsError} (he' : checkText p' = .error e') :
      ¬e'.LacksDirectory := not_lacksDirectory_of_checkText (Path.ne_empty_of_mem hs hmem) he'
  unfold makeDir at h
  dsimp only at h
  rw [hnamed] at h
  dsimp only at h
  rw [if_neg (by simp [hs.ne_dot, hs.down]), hpath] at h
  split at h
  · next he' =>
    obtain rfl := Except.error.inj h
    exact absurd hlacks (hcheck (hbegins.subset List.mem_concat_self) he')
  split at h
  · next hlocate =>
    obtain rfl := Except.error.inj h
    rw [locate, bind_eq_error_iff, horigin] at hlocate
    rcases hlocate with he' | ⟨-, -, hwalk⟩
    · exact absurd hlacks (hcheck (by simp) he')
    · exact hinders_of_walk hl hfree hup hlacks hs.down hwalk
  · obtain rfl := Except.error.inj h
    exact absurd hlacks (by decide)
  · simp at h

/-- **A file is not written** if there is no directory where one is needed on the way to it. -/
lemma hinders_of_writeFile (h : fs.writeFile p content = (.error e, fs')) :
    fs' = fs ∧ fs.Hinders l (Path.proper b) e := by
  have hmem : s ∈ p.segments := by simp [hsegs]
  have hcheck (e' : OsError) (he' : checkText p = .error e') : ¬e'.LacksDirectory :=
    not_lacksDirectory_of_checkText (Path.ne_empty_of_mem hs hmem) he'
  unfold writeFile at h
  split at h
  · next hopen =>
    obtain ⟨rfl, rfl⟩ := error_mk_inj h
    refine ⟨rfl, ?_⟩
    unfold openForWriting at hopen
    split at hopen
    · have haround : segmentsAround p = a ++ (b ++ ["."]) := by
        rw [segmentsAround, hsegs, ← List.append_assoc a,
          Path.dropWhile_append_blanks hs.ne_empty hc]
        simp
      rw [bind_eq_error_iff, haround] at hopen
      rcases hopen with he' | ⟨-, -, hopen⟩
      · exact absurd hlacks (hcheck _ he')
      rw [bind_eq_error_iff] at hopen
      rcases hopen with hwalk | ⟨-, -, hopen⟩
      · exact hinders_of_walk hl hfree hup hlacks (by decide) hwalk
      · obtain rfl := Except.error.inj hopen
        exact absurd hlacks (by decide)
    · next hend =>
      -- no slash follows the name
      have hnil : c = [] := by
        by_contra hne
        have hlast : p.segments.getLast? = some "" := by
          rw [hsegs, List.getLast?_append_of_ne_nil _ hne, List.getLast?_eq_some_getLast hne,
            hc _ (List.getLast_mem hne)]
        exact hend ⟨by simp [endsInSlash, hlast], Path.ne_empty_of_mem hs hmem⟩
      rw [bind_eq_error_iff] at hopen
      rcases hopen with hlocate | ⟨r, -, hopen⟩
      · rw [locate, bind_eq_error_iff, hsegs, hnil, List.append_nil] at hlocate
        rcases hlocate with he' | ⟨-, -, hwalk⟩
        · exact absurd hlacks (hcheck _ he')
        · exact hinders_of_walk hl hfree hup hlacks hs.down hwalk
      · split at hopen
        · obtain rfl := Except.error.inj hopen
          exact absurd hlacks (by decide)
        · simp at hopen
        · simp at hopen
  · simp at h
  · simp at h

end Behind

lemma ensureDir_error (h : (fs.ensureDir p).1 = .error e) : (fs.makeDir p).1 = .error e := by
  unfold ensureDir at h
  split at h
  · next hmake =>
    split at h
    · simp at h
    · rw [hmake]
      exact h
  · exact h

/-- Directories on the way are not made either because the last one is not, or, if something is missing
before it, because those around it are not or it is not made after them. -/
lemma makeDirs_error_cases {depth : Nat} (h : (fs.makeDirs (depth + 1) p).1 = .error e) :
    (fs.makeDir p).1 = .error e ∧ e ≠ .notFound ∨
      (fs.makeDir p).1 = .error .notFound ∧ ∀ q, p.parent? = some q →
        (fs.makeDirs depth q).1 = .error e ∨
          ∃ fs', fs.makeDirs depth q = (.ok (), fs') ∧ (fs'.ensureDir p).1 = .error e := by
  have hkept (e' : OsError) (fs' : FileSystem) (hmake : fs.makeDir p = (.error e', fs')) :
      fs' = fs := by
    obtain ⟨e'', hsame⟩ | ⟨fs'', hmade, -⟩ := fs.makeDir_spec p
    · exact (error_mk_inj (hmake.symm.trans hsame)).2
    · simp [hmade] at hmake
  unfold makeDirs at h
  split at h
  · simp at h
  split at h
  · next fs₁ hmake =>
    obtain rfl := hkept _ fs₁ hmake
    refine .inr ⟨by rw [hmake], fun q hq => ?_⟩
    rw [hq] at h
    dsimp only at h
    split at h
    · next hrec =>
      rw [hrec]
      exact .inl h
    · next fs₂ hrec => exact .inr ⟨fs₂, hrec, h⟩
  · next e' fs₁ hother hmake =>
    split at h
    · simp at h
    obtain rfl := Except.error.inj h
    refine .inl ⟨by rw [hmake], ?_⟩
    rintro rfl
    exact hother rfl
  · next hnot => exact (hnot e (fs.makeDir p).2 (Prod.ext h rfl)).elim

/-- What is known of the path around a path that goes on with `b` and a name behind `a`. -/
structure Around (p : Path) (a b : List String) (q : Path) (b₁ c₁ : List String) : Prop where
  segments : q.segments = a ++ b₁
  split : b = b₁ ++ c₁
  blank : ∀ x ∈ c₁, x = ""
  origin : ∀ d, FileSystem.origin d q = FileSystem.origin d p

lemma Around.proper_eq {q : Path} {b₁ c₁ : List String} (h : Around p a b q b₁ c₁) :
    Path.proper b₁ = Path.proper b := by
  rw [h.split, Path.proper_append, Path.proper_blanks h.blank, List.append_nil]

lemma exists_around (hsegs : p.segments = a ++ (b ++ [s]) ++ c) (hs : Path.IsName s)
    (hc : ∀ x ∈ c, x = "") (hdot : "." ∉ b) (hup : ".." ∉ b) (hname : Path.proper b ≠ []) :
    ∃ q b₁ c₁, p.parent? = some q ∧ Around p a b q b₁ c₁ := by
  obtain ⟨b₁, s₁, c₁, rfl, hs₁, hc₁⟩ := Path.exists_last_name hdot hup hname
  have hidle {c : List String} (hc : ∀ x ∈ c, x = "") : ∀ x ∈ c, Path.isIdle x := by
    intro x hx
    rw [hc x hx]
    rfl
  have hnamed : Path.proper (a ++ (b₁ ++ [s₁] ++ c₁)) ≠ [] := by
    rw [Path.proper_append]
    exact List.append_ne_nil_of_right_ne_nil _ hname
  rw [← List.append_assoc a] at hsegs
  have hparent := Path.parent?_eq hsegs hs (hidle hc) hnamed
  have htrim : Path.trimEnd (a ++ (b₁ ++ [s₁] ++ c₁)) = a ++ b₁ ++ [s₁] := by
    rw [← List.append_assoc, ← List.append_assoc]
    exact Path.trimEnd_append_idle hs₁ (hidle hc₁)
  rw [htrim] at hparent
  exact ⟨_, b₁ ++ [s₁], c₁, hparent, List.append_assoc _ _ _, rfl, hc₁,
    fun d => Path.origin_of_prefix d ⟨c₁ ++ [s] ++ c, by simp [hsegs]⟩ hs₁⟩

/-- Nothing is in the way behind the directory around a path, if there is one. -/
lemma ensureDir_of_around {q : Path} {b₁ c₁ : List String} (haround : Around p a b q b₁ c₁)
    (hl : fs.Leads true linkLimit (origin fs.cwd p) a (.found l .dir)) (hfree : fs.LinkFree l)
    (hup : ".." ∉ b₁) (hname : Path.proper b ≠ []) (hdir : fs.isDir q) (hs : Path.IsName s)
    (hc : ∀ x ∈ c, x = "") (hsegs : p.segments = a ++ (b ++ [s]) ++ c)
    (h : (fs.ensureDir p).1 = .error e) : ¬e.LacksDirectory := by
  intro hlacks
  obtain ⟨m, hlookup⟩ := isDir_iff.mp hdir
  obtain ⟨-, hm⟩ := lookup_eq_ok_iff.mp hlookup
  rw [haround.segments, haround.origin] at hm
  have hne : b₁ ≠ [] := by
    rintro rfl
    exact hname haround.proper_eq.symm
  have hbelow := (hl.append_stays_below hm hne hfree hup).1
  have hup₁ : ".." ∉ c₁ := fun hmem => absurd (haround.blank _ hmem) (by decide)
  rw [haround.split] at hsegs
  have hin := hinders_of_makeDir hm (hfree.mono hbelow) hup₁ hs hc (by simp [hsegs]) hlacks
    (ensureDir_error h)
  rw [Path.proper_blanks haround.blank] at hin
  exact not_hinders_nil hin

/-- **Only a file is in the way of a directory** that is made with all that are missing on the way to
it. -/
theorem makeDirs_error {depth : Nat}
    (hl : fs.Leads true linkLimit (origin fs.cwd p) a (.found l .dir)) (hfree : fs.LinkFree l)
    (hsegs : p.segments = a ++ b) (hdot : "." ∉ b) (hup : ".." ∉ b) (hname : Path.proper b ≠ [])
    (hdepth : (Path.proper b).length ≤ depth) (h : (fs.makeDirs depth p).1 = .error e)
    (hlacks : e.LacksDirectory) : e = .notDirectory ∧ fs.Hinders l (Path.proper b) e := by
  induction depth generalizing p b with
  | zero => exact absurd (List.length_eq_zero_iff.mp (Nat.le_zero.mp hdepth)) hname
  | succ depth ih =>
    obtain ⟨b', s, c, rfl, hs, hc⟩ := Path.exists_last_name hdot hup hname
    have hproper : Path.proper (b' ++ [s] ++ c) = Path.proper b' ++ [s] := by
      rw [Path.proper_append, Path.proper_append, Path.proper_singleton hs, Path.proper_blanks hc,
        List.append_nil]
    rw [← List.append_assoc] at hsegs
    rw [hproper] at hdepth ⊢
    have hdot' : "." ∉ b' := fun hmem => hdot (by simp [hmem])
    have hup' : ".." ∉ b' := fun hmem => hup (by simp [hmem])
    have hway {e' : OsError} (he' : (fs.makeDir p).1 = .error e') (hlacks : e'.LacksDirectory) :
        fs.Hinders l (Path.proper b') e' := hinders_of_makeDir hl hfree hup' hs hc hsegs hlacks he'
    obtain ⟨he, hsome⟩ | ⟨he, hrest⟩ := makeDirs_error_cases h
    · exact ⟨hlacks.resolve_left hsome, (hway he hlacks).mono (List.prefix_append _ _)⟩
    -- what is missing is named before the last name
    have hmissing := hway he (.inl rfl)
    have hname' : Path.proper b' ≠ [] := fun hnil => not_hinders_nil (hnil ▸ hmissing)
    obtain ⟨q, b₁, c₁, hparent, haround⟩ := exists_around hsegs hs hc hdot' hup' hname'
    have hdot₁ : "." ∉ b₁ := fun hmem => hdot' (by simp [haround.split, hmem])
    have hup₁ : ".." ∉ b₁ := fun hmem => hup' (by simp [haround.split, hmem])
    have hname₁ : Path.proper b₁ ≠ [] := by rwa [haround.proper_eq]
    have hl₁ : fs.Leads true linkLimit (origin fs.cwd q) a (.found l .dir) := by
      rwa [haround.origin]
    obtain hrec | ⟨fs', hrec, hensure⟩ := hrest q hparent
    · obtain ⟨hfile, hin⟩ := ih hl₁ haround.segments hdot₁ hup₁ hname₁
        (by simpa [haround.proper_eq] using hdepth) hrec
      rw [haround.proper_eq] at hin
      exact ⟨hfile, hin.mono (List.prefix_append _ _)⟩
    · have hmade := makeDirs_furnished fs depth q
      rw [hrec] at hmade
      have hfills := Paved.fillsIn haround.segments hup₁ hl₁ hfree hmade.paved
      have hl' := hl.dir_of_grows hfills.grows
      rw [← hfills.grows.cwd] at hl'
      have hnamed : Path.proper q.segments ≠ [] := by
        rw [haround.segments, Path.proper_append]
        exact List.append_ne_nil_of_right_ne_nil _ hname₁
      have hdir : fs'.isDir q := hmade.isDir rfl (Path.ne_empty_of_proper hnamed)
      exact absurd hlacks (ensureDir_of_around haround hl' (hfills.linkFree hfree) hup₁ hname' hdir
        hs hc hsegs hensure)

section Descends

variable {q : Path} (hq : q.Descends) (hsegs : p.segments = a ++ q.segments)
  (hl : fs.Leads true linkLimit (origin fs.cwd p) a (.found l .dir)) (hfree : fs.LinkFree l)
  (hlacks : e.LacksDirectory)
include hq hsegs hl hfree hlacks

lemma createDirAll_error (h : (fs.createDirAll p).1 = .error e) :
    e = .notDirectory ∧ fs.Hinders l (Path.proper q.segments) e := by
  refine makeDirs_error hl hfree hsegs hq.noDot hq.up_not_mem hq.named ?_ h hlacks
  have hfilter : (Path.proper q.segments).length ≤ q.segments.length := List.length_filter_le _ _
  rw [hsegs, List.length_append]
  omega

/-- What is in the way of a file stands on the way to it, or is missing there, but does not stand in
its place. -/
lemma writeFile_error (h : fs.writeFile p content = (.error e, fs')) : fs' = fs ∧
    ∃ k, k ≠ [] ∧ k <+: Path.proper q.segments ∧ k ≠ Path.proper q.segments ∧
      fs.Blocks (l ++ k) e := by
  obtain ⟨b, s, c, hb, hs, hc⟩ := Path.exists_last_name hq.noDot hq.up_not_mem hq.named
  have hup : ".." ∉ b := fun hmem => hq.up_not_mem (by simp [hb, hmem])
  rw [hb, ← List.append_assoc] at hsegs
  obtain ⟨hfs, k, hk, hbegins, hblocks⟩ := hinders_of_writeFile hl hfree hup hs hc hsegs hlacks h
  have hproper : Path.proper q.segments = Path.proper b ++ [s] := by
    rw [hb, Path.proper_append, Path.proper_append, Path.proper_singleton hs,
      Path.proper_blanks hc, List.append_nil]
  have hshort : k.length < (Path.proper q.segments).length := by
    have hle := hbegins.length_le
    rw [hproper, List.length_append, List.length_singleton]
    omega
  refine ⟨hfs, k, hk, ?_, fun heq => by simp [heq] at hshort, hblocks⟩
  rw [hproper]
  exact hbegins.trans (List.prefix_append _ _)

end Descends

end FileSystem

end Stencil
