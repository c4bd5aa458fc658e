import Stencil.Files.Path
import Stencil.Proofs.Files.Walking
import Mathlib.Data.List.TakeWhile

/-!
The segments of paths.

A path that is put behind a directory brings all its segments along, so that paths that stay below
where they start can be put one behind the other. The path around a path is the beginning of it.
-/

namespace Stencil.Path

variable {p q q' : Path} {a b : List String} {s : String}

/-! ### The end of a path -/

/-- The segments before the slash at the end, if the path ends in one. -/
def base (p : Path) : List String :=
  if p.segments.getLast? = some "" then p.segments.dropLast else p.segments

lemma base_cases (p : Path) : p.segments = p.base ∨ p.segments = p.base ++ [""] := by
  unfold base
  split
  · next h => exact .inr (List.dropLast_append_getLast? "" h).symm
  · exact .inl rfl

lemma base_prefix (p : Path) : p.base <+: p.segments := by
  rcases p.base_cases with h | h
  · exact ⟨[], by rw [h, List.append_nil]⟩
  · exact ⟨[""], h.symm⟩

/-- The slashes at the end of a path, if it does not consist of slashes only. -/
lemma exists_last (h : p.segments.reverse.dropWhile (· = "") = s :: a) :
    s ≠ "" ∧ ∃ b, p.segments = a.reverse ++ [s] ++ b ∧ ∀ s' ∈ b, s' = "" := by
  refine ⟨?_, (p.segments.reverse.takeWhile (· = "")).reverse, ?_, fun s' hs' => ?_⟩
  · have hhead := List.head?_dropWhile_not (· = "") p.segments.reverse
    simpa [h] using hhead
  · rw [← List.reverse_cons, ← h, ← List.reverse_append, List.takeWhile_append_dropWhile,
      List.reverse_reverse]
  · simpa using List.mem_takeWhile_imp (List.mem_reverse.mp hs')

/-- The last segment before the slashes at the end, if it is a name. -/
lemma exists_lastName (h : p.segments.reverse.dropWhile (· = "") = s :: a)
    (hs : ¬ (s = "." ∨ s = "..")) :
    IsName s ∧ a.reverse ++ [s] <+: p.segments ∧
      ∃ b, p.segments = a.reverse ++ [s] ++ b ∧ ∀ s' ∈ b, s' = "" := by
  obtain ⟨hne, b, hsegs, hb⟩ := exists_last h
  rw [not_or] at hs
  exact ⟨⟨by simp [isIdle, hne, hs.1], hs.2⟩, ⟨b, hsegs.symm⟩, b, hsegs, hb⟩

lemma isAbsolute_cons (s : String) (ss : List String) :
    (⟨s :: ss⟩ : Path).isAbsolute = decide (s = "" ∧ ss ≠ []) := by
  unfold isAbsolute
  split
  · next hsegs =>
    obtain ⟨rfl, rfl⟩ := List.cons.inj hsegs
    simp
  · next hsegs =>
    rcases ss with _ | ⟨s', ss⟩
    · simp
    · have hne : s ≠ "" := fun h => hsegs s' ss (by rw [h])
      simp [hne]

/-- The beginning of a path starts where the path starts. -/
lemma isAbsolute_of_prefix (h : a ++ [s] <+: p.segments) (hs : IsName s) :
    (⟨a ++ [s]⟩ : Path).isAbsolute = p.isAbsolute := by
  obtain ⟨segs⟩ := p
  obtain ⟨k, rfl⟩ := h
  cases a <;> simp [isAbsolute_cons, hs.ne_empty]

lemma origin_of_prefix (d : Location) (h : a ++ [s] <+: p.segments) (hs : IsName s) :
    FileSystem.origin d ⟨a ++ [s]⟩ = FileSystem.origin d p := by
  rw [FileSystem.origin, FileSystem.origin, isAbsolute_of_prefix h hs]

/-- The path goes up at its start only, before it names anything. -/
def climbsFirst (p : Path) : Bool :=
  (p.segments.dropWhile fun s => isIdle s || s == "..").all (· != "..")

lemma up_not_mem_of_climbsFirst (h : p.climbsFirst) (hsegs : p.segments = a ++ [s] ++ b)
    (hs : IsName s) : ".." ∉ b := by
  unfold climbsFirst at h
  rw [hsegs, List.append_assoc] at h
  clear hsegs
  -- nothing from the first name on is dropped
  induction a with
  | nil =>
    have hstop : ¬ (isIdle s || s == "..") = true := by simp [hs.proper, hs.down]
    rw [List.nil_append, List.singleton_append, List.dropWhile_cons, if_neg hstop] at h
    intro hup
    have hall := List.all_eq_true.mp h ".." (List.mem_cons_of_mem s hup)
    simp at hall
  | cons s' a ih =>
    rw [List.cons_append, List.dropWhile_cons] at h
    split at h
    · exact ih h
    · intro hup
      have hall := List.all_eq_true.mp h ".." (by simp [hup])
      simp at hall

/-! ### The path around a path -/

lemma trimEnd_isPrefix (segs : List String) : trimEnd segs <+: segs := by
  rw [trimEnd, ← List.reverse_suffix, List.reverse_reverse]
  exact List.dropWhile_suffix _

lemma trimEnd_dropLast_isPrefix (segs : List String) : trimEnd (trimEnd segs).dropLast <+: segs :=
  (trimEnd_isPrefix _).trans ((List.dropLast_prefix _).trans (trimEnd_isPrefix segs))

/-- The path around a path is a part of it, if it names anything. -/
lemma prefix_of_parent? (h : p.parent? = some q) :
    q.segments <+: p.segments ∨ ∀ s ∈ q.segments, s = "" := by
  obtain ⟨segs⟩ := p
  unfold parent? at h
  split at h
  · next s ss hsegs =>
    rw [hsegs]
    split at h
    · simp at h
    · split at h
      · obtain rfl := Option.some.inj h
        exact .inr (by simp)
      · obtain rfl := Option.some.inj h
        exact .inl (List.cons_prefix_cons.mpr ⟨rfl, trimEnd_dropLast_isPrefix _⟩)
  · next ss hsegs =>
    rw [hsegs]
    split at h
    · obtain rfl := Option.some.inj h
      exact .inr (by simp [empty])
    · obtain rfl := Option.some.inj h
      exact .inl (List.cons_prefix_cons.mpr ⟨rfl, trimEnd_dropLast_isPrefix _⟩)
  · split at h
    · simp at h
    · split at h
      · obtain rfl := Option.some.inj h
        exact .inr (by simp [empty])
      · obtain rfl := Option.some.inj h
        exact .inl (trimEnd_dropLast_isPrefix _)

/-! ### Paths behind a directory -/

/-- A path that leads from a directory to a place in or below it. -/
structure IsInner (q : Path) : Prop where
  ne_nil : q.segments ≠ []
  stays : q.staysBelow

namespace IsInner

lemma isAbsolute (h : q.IsInner) : q.isAbsolute = false := by
  simpa [staysBelow] using (Bool.and_eq_true_iff.mp h.stays).1

lemma up_not_mem (h : q.IsInner) : ".." ∉ q.segments := by
  intro hup
  have hall := List.all_eq_true.mp (Bool.and_eq_true_iff.mp h.stays).2 ".." hup
  simp at hall

lemma mk' (hne : q.segments ≠ []) (habs : q.isAbsolute = false) (hup : ".." ∉ q.segments) :
    q.IsInner :=
  ⟨hne, by
    simp only [staysBelow, habs, Bool.not_false, Bool.true_and, List.all_eq_true]
    exact fun s hs => decide_eq_true fun heq => hup (heq ▸ hs)⟩

end IsInner

lemma cut_ne_nil (text : List Char) : cut text ≠ [] := by
  cases text with
  | nil => simp [cut]
  | cons c cs =>
    unfold cut
    split
    · simp
    · split <;> simp

lemma IsInner.ofText {text : String} (h : (ofText text).staysBelow) : (ofText text).IsInner :=
  ⟨by simp [Path.ofText, cut_ne_nil], h⟩

lemma join_empty (q : Path) : empty.join q = q := by
  simp [join]

lemma segments_join (p : Path) (hq : q.isAbsolute = false) :
    (p.join q).segments = p.base ++ q.segments := by
  by_cases hp : p = empty
  · rw [hp, join_empty]
    rfl
  · unfold join base
    simp only [hq, hp, Bool.false_eq_true, or_false, if_false]
    split <;> rfl

lemma isAbsolute_join (hp : p ≠ empty) (hq : q.IsInner) : (p.join q).isAbsolute = p.isAbsolute := by
  obtain ⟨segs, hjoin⟩ : ∃ segs, p.join q = ⟨segs⟩ := ⟨_, rfl⟩
  have hsegs := segments_join p hq.isAbsolute
  rw [hjoin] at hsegs ⊢
  obtain ⟨_ | ⟨s, ss⟩⟩ := p
  · have hnone : (⟨[]⟩ : Path).base = [] := rfl
    obtain rfl : segs = q.segments := by simpa [hnone] using hsegs
    exact hq.isAbsolute
  · -- the first segment stays, and more than one follows or it is not the empty one
    have hss : s = "" → ss ≠ [] := by
      rintro rfl rfl
      exact hp rfl
    have hbase : ∃ t, (⟨s :: ss⟩ : Path).base = s :: t := by
      rcases base_cases ⟨s :: ss⟩ with h | h
      · exact ⟨ss, h.symm⟩
      · rcases hb : (⟨s :: ss⟩ : Path).base with _ | ⟨s', t⟩
        · obtain ⟨rfl, rfl⟩ : s = "" ∧ ss = [] := by simpa [hb] using h
          exact absurd rfl (hss rfl)
        · obtain ⟨rfl, -⟩ : s = s' ∧ ss = t ++ [""] := by simpa [hb] using h
          exact ⟨t, rfl⟩
    obtain ⟨t, ht⟩ := hbase
    obtain rfl : segs = s :: (t ++ q.segments) := by simpa [ht] using hsegs
    rw [isAbsolute_cons, isAbsolute_cons]
    by_cases hs : s = ""
    · simp [hs, hss hs, hq.ne_nil]
    · simp [hs]

lemma IsInner.join (hq : q.IsInner) (hq' : q'.IsInner) : (q.join q').IsInner := by
  have hsegs := segments_join q hq'.isAbsolute
  refine mk' ?_ ?_ ?_
  · rw [hsegs]
    simp [hq'.ne_nil]
  · by_cases hempty : q = empty
    · rw [hempty, join_empty, hq'.isAbsolute]
    · rw [isAbsolute_join hempty hq', hq.isAbsolute]
  · rw [hsegs, List.mem_append]
    rintro (h | h)
    · exact hq.up_not_mem (q.base_prefix.subset h)
    · exact hq'.up_not_mem h

lemma base_join (p : Path) (hq : q.IsInner) : (p.join q).base = p.base ++ q.base := by
  have hsegs := segments_join p hq.isAbsolute
  unfold base at hsegs ⊢
  rw [hsegs, List.getLast?_append_of_ne_nil _ hq.ne_nil, List.dropLast_append_of_ne_nil hq.ne_nil]
  split <;> rfl

/-- Paths that stay below where they start can be put behind a directory one by one. -/
lemma join_join (p : Path) (hq : q.IsInner) (hq' : q'.IsInner) :
    (p.join q).join q' = p.join (q.join q') := by
  have h : ((p.join q).join q').segments = (p.join (q.join q')).segments := by
    rw [segments_join _ hq'.isAbsolute, segments_join p (hq.join hq').isAbsolute,
      segments_join q hq'.isAbsolute, base_join p hq, List.append_assoc]
  exact congrArg Path.mk h

end Stencil.Path
