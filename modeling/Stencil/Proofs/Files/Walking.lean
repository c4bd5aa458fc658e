import Stencil.Files.FileSystem
import Mathlib.Data.List.Basic
import Mathlib.Tactic.Cases

/-!
Where paths lead.

Following a path is a derivation with one rule for each kind of segment. What is known about a path
is shown by induction on this derivation: a path that leads somewhere leads through directories, and
what comes after one of them is followed from there.
-/

namespace Stencil

/-- A segment that stands for an entry of the directory before it. -/
structure Path.IsName (s : String) : Prop where
  proper : Path.isIdle s = false
  down : s ≠ ".."

lemma Path.IsName.ne_empty {s : String} (h : Path.IsName s) : s ≠ "" := by
  rintro rfl
  have hproper := h.proper
  simp [Path.isIdle] at hproper

namespace FileSystem

/-- A name that a directory can have. -/
structure CanName (s : String) : Prop extends Path.IsName s where
  short : s.utf8ByteSize ≤ nameLimit

/-- Segments lead from a directory to what is reached, by way of at most so many links. -/
inductive Leads (fs : FileSystem) (follow : Bool) : (links : Nat) → Location → List String →
    Reached → Prop
  | done {n : Nat} {d : Location} : Leads fs follow n d [] (.found d .dir)
  | idle {n : Nat} {d : Location} {s : String} {rest : List String} {r : Reached}
    (hs : Path.isIdle s) (h : Leads fs follow n d rest r) : Leads fs follow n d (s :: rest) r
  | up {n : Nat} {d : Location} {rest : List String} {r : Reached}
    (h : Leads fs follow n d.dropLast rest r) : Leads fs follow n d (".." :: rest) r
  | missing {n : Nat} {d : Location} {s : String} {rest : List String} (hs : CanName s)
    (he : fs.entry? (d ++ [s]) = none) (hrest : ∀ s' ∈ rest, s' = "") :
    Leads fs follow n d (s :: rest) (.missing (d ++ [s]))
  | dir {n : Nat} {d : Location} {s : String} {rest : List String} {r : Reached} (hs : CanName s)
    (he : fs.entry? (d ++ [s]) = some .dir) (h : Leads fs follow n (d ++ [s]) rest r) :
    Leads fs follow n d (s :: rest) r
  | file {n : Nat} {d : Location} {s : String} {content : ByteArray} {mode : Mode} (hs : CanName s)
    (he : fs.entry? (d ++ [s]) = some (.file content mode)) :
    Leads fs follow n d [s] (.found (d ++ [s]) (.file content mode))
  | link {n : Nat} {d : Location} {s : String} {target : Path} (hs : CanName s)
    (he : fs.entry? (d ++ [s]) = some (.link target)) (hstay : follow = false) :
    Leads fs follow n d [s] (.found (d ++ [s]) (.link target))
  | jump {n : Nat} {d : Location} {s : String} {rest : List String} {target : Path} {r : Reached}
    (hs : CanName s) (he : fs.entry? (d ++ [s]) = some (.link target))
    (hgo : rest = [] → follow = true)
    (h : Leads fs follow n (origin d target) (target.segments ++ rest) r) :
    Leads fs follow (n + 1) d (s :: rest) r

/-- What stands where a path ends. -/
inductive Stands (fs : FileSystem) (follow : Bool) : Reached → Prop
  | dir {l : Location} : Stands fs follow (.found l .dir)
  | file {l : Location} {content : ByteArray} {mode : Mode}
    (he : fs.entry? l = some (.file content mode)) : Stands fs follow (.found l (.file content mode))
  | link {l : Location} {target : Path} (he : fs.entry? l = some (.link target))
    (hstay : follow = false) : Stands fs follow (.found l (.link target))
  | missing {l : Location} (he : fs.entry? l = none) : Stands fs follow (.missing l)

variable {fs : FileSystem} {follow : Bool} {n : Nat} {d l : Location} {s : String}
  {a b segs rest : List String} {r r' : Reached} {e : Entry}

/-! ### One segment -/

lemma walk_nil : fs.walk follow n d [] = .ok (.found d .dir) := by
  cases n <;> rfl

lemma walk_idle (hs : Path.isIdle s) : fs.walk follow n d (s :: rest) = fs.walk follow n d rest := by
  cases n <;> simp [walk, walkSegments, hs]

lemma walk_up : fs.walk follow n d (".." :: rest) = fs.walk follow n d.dropLast rest := by
  have hs : Path.isIdle ".." = false := by decide
  cases n <;> simp [walk, walkSegments, hs]

lemma walk_long (hs : Path.IsName s) (hlong : nameLimit < s.utf8ByteSize) :
    fs.walk follow n d (s :: rest) = .error .nameTooLong := by
  cases n <;> simp [walk, walkSegments, hs.proper, hs.down, hlong]

section Name

variable (hs : CanName s)
include hs

lemma walk_of_none (he : fs.entry? (d ++ [s]) = none) : fs.walk follow n d (s :: rest) =
    if rest.all (· = "") then .ok (.missing (d ++ [s])) else .error .notFound := by
  have hlong : ¬ nameLimit < s.utf8ByteSize := Nat.not_lt.mpr hs.short
  cases n <;> simp [walk, walkSegments, hs.proper, hs.down, hlong, he]

lemma walk_of_dir (he : fs.entry? (d ++ [s]) = some .dir) :
    fs.walk follow n d (s :: rest) = fs.walk follow n (d ++ [s]) rest := by
  have hlong : ¬ nameLimit < s.utf8ByteSize := Nat.not_lt.mpr hs.short
  cases n <;> simp [walk, walkSegments, hs.proper, hs.down, hlong, he]

lemma walk_of_file {content : ByteArray} {mode : Mode}
    (he : fs.entry? (d ++ [s]) = some (.file content mode)) : fs.walk follow n d (s :: rest) =
      if rest = [] then .ok (.found (d ++ [s]) (.file content mode)) else .error .notDirectory := by
  have hlong : ¬ nameLimit < s.utf8ByteSize := Nat.not_lt.mpr hs.short
  cases n <;> simp [walk, walkSegments, hs.proper, hs.down, hlong, he]

lemma walk_of_link {target : Path} (he : fs.entry? (d ++ [s]) = some (.link target))
    (hstay : rest = [] ∧ follow = false) :
    fs.walk follow n d (s :: rest) = .ok (.found (d ++ [s]) (.link target)) := by
  have hlong : ¬ nameLimit < s.utf8ByteSize := Nat.not_lt.mpr hs.short
  cases n <;> simp [walk, walkSegments, hs.proper, hs.down, hlong, he, hstay]

lemma walk_of_link_zero {target : Path} (he : fs.entry? (d ++ [s]) = some (.link target))
    (hgo : rest = [] → follow = true) :
    fs.walk follow 0 d (s :: rest) = .error .tooManyLinks := by
  have hlong : ¬ nameLimit < s.utf8ByteSize := Nat.not_lt.mpr hs.short
  simpa [walk, walkSegments, hs.proper, hs.down, hlong, he] using hgo

lemma walk_of_jump {target : Path} (he : fs.entry? (d ++ [s]) = some (.link target))
    (hgo : rest = [] → follow = true) : fs.walk follow (n + 1) d (s :: rest) =
      fs.walk follow n (origin d target) (target.segments ++ rest) := by
  have hlong : ¬ nameLimit < s.utf8ByteSize := Nat.not_lt.mpr hs.short
  have hstay : ¬ (rest = [] ∧ follow = false) := fun ⟨hr, hf⟩ => by simp [hgo hr] at hf
  simp [walk, walkSegments, hs.proper, hs.down, hlong, he, hstay]

end Name

/-- A segment is idle, goes up, is too long for a name, or is one. -/
lemma segment_cases (s : String) : Path.isIdle s ∨ s = ".." ∨
    (Path.IsName s ∧ nameLimit < s.utf8ByteSize) ∨ CanName s := by
  by_cases hidle : Path.isIdle s
  · exact .inl hidle
  by_cases hup : s = ".."
  · exact .inr (.inl hup)
  have hname : Path.IsName s := ⟨by simpa using hidle, hup⟩
  rcases Nat.lt_or_ge nameLimit s.utf8ByteSize with hlong | hshort
  · exact .inr (.inr (.inl ⟨hname, hlong⟩))
  · exact .inr (.inr (.inr ⟨hname, hshort⟩))

lemma leads_of_walk (h : fs.walk follow n d segs = .ok r) : fs.Leads follow n d segs r := by
  induction n using Nat.strongRecOn generalizing d segs with
  | _ n ihn =>
  induction segs generalizing d with
  | nil =>
    rw [walk_nil] at h
    obtain rfl := Except.ok.inj h
    exact .done
  | cons s rest ih =>
    rcases segment_cases s with hs | rfl | ⟨hs, hlong⟩ | hs
    · exact .idle hs (ih (by rwa [walk_idle hs] at h))
    · exact .up (ih (by rwa [walk_up] at h))
    · simp [walk_long hs hlong] at h
    cases he : fs.entry? (d ++ [s]) with
    | none =>
      rw [walk_of_none hs he] at h
      split at h
      · next hrest =>
        obtain rfl := Except.ok.inj h
        exact .missing hs he (by simpa using hrest)
      · simp at h
    | some e =>
      cases e with
      | dir => exact .dir hs he (ih (by rwa [walk_of_dir hs he] at h))
      | file content mode =>
        rw [walk_of_file hs he] at h
        split at h
        · next hrest =>
          subst hrest
          obtain rfl := Except.ok.inj h
          exact .file hs he
        · simp at h
      | link target =>
        by_cases hstay : rest = [] ∧ follow = false
        · rw [walk_of_link hs he hstay] at h
          obtain rfl := Except.ok.inj h
          obtain ⟨rfl, hf⟩ := hstay
          exact .link hs he hf
        · have hgo : rest = [] → follow = true := fun hr => by simpa [hr] using hstay
          cases n with
          | zero => simp [walk_of_link_zero hs he hgo] at h
          | succ n => exact .jump hs he hgo (ihn n (by omega) (by rwa [walk_of_jump hs he hgo] at h))

lemma Leads.walk (h : fs.Leads follow n d segs r) : fs.walk follow n d segs = .ok r := by
  induction h with
  | done => exact walk_nil
  | idle hs _ ih => rw [walk_idle hs, ih]
  | up _ ih => rw [walk_up, ih]
  | missing hs he hrest => rw [walk_of_none hs he, if_pos (by simpa using hrest)]
  | dir hs he _ ih => rw [walk_of_dir hs he, ih]
  | file hs he => rw [walk_of_file hs he, if_pos rfl]
  | link hs he hstay => rw [walk_of_link hs he ⟨rfl, hstay⟩]
  | jump hs he hgo _ ih => rw [walk_of_jump hs he hgo, ih]

/-- **Following segments** comes to what the rules come to. -/
theorem walk_eq_ok_iff : fs.walk follow n d segs = .ok r ↔ fs.Leads follow n d segs r :=
  ⟨leads_of_walk, Leads.walk⟩

/-! ### Several segments -/

namespace Leads

lemma unique (h : fs.Leads follow n d segs r) (h' : fs.Leads follow n d segs r') : r = r' :=
  Except.ok.inj (h.walk.symm.trans h'.walk)

/-- What comes after a directory is followed from there, with the links that are left. -/
lemma exists_walk_append (h : fs.Leads true n d a (.found l .dir)) :
    ∃ n' ≤ n, ∀ follow b, b ≠ [] → fs.walk follow n d (a ++ b) = fs.walk follow n' l b := by
  generalize hr : Reached.found l .dir = r at h
  induction h with
  | @done n d =>
    obtain ⟨rfl, -⟩ := Reached.found.inj hr
    exact ⟨n, Nat.le_refl n, fun _ _ _ => rfl⟩
  | idle hs _ ih =>
    obtain ⟨n', hn, hwalk⟩ := ih hr
    exact ⟨n', hn, fun f b hb => by rw [List.cons_append, walk_idle hs, hwalk f b hb]⟩
  | up _ ih =>
    obtain ⟨n', hn, hwalk⟩ := ih hr
    exact ⟨n', hn, fun f b hb => by rw [List.cons_append, walk_up, hwalk f b hb]⟩
  | dir hs he _ ih =>
    obtain ⟨n', hn, hwalk⟩ := ih hr
    exact ⟨n', hn, fun f b hb => by rw [List.cons_append, walk_of_dir hs he, hwalk f b hb]⟩
  | jump hs he _ _ ih =>
    obtain ⟨n', hn, hwalk⟩ := ih hr
    refine ⟨n', by omega, fun f b hb => ?_⟩
    rw [List.cons_append, walk_of_jump hs he (by simp [hb]), ← List.append_assoc, hwalk f b hb]
  | missing hs he hrest => simp at hr
  | file hs he => simp at hr
  | link hs he hstay => simp at hr

/-- A path leads through directories, unless it ends before slashes that follow nothing. -/
lemma split (h : fs.Leads follow n d (a ++ b) r) (hb : b ≠ []) :
    (∃ l, fs.Leads true n d a (.found l .dir)) ∨
      (∃ l, r = .missing l ∧ fs.Leads true n d a (.missing l)) ∧ ∀ s ∈ b, s = "" := by
  generalize hsegs : a ++ b = segs at h
  induction h generalizing a with
  | done => simp [hb] at hsegs
  | idle hs _ ih =>
    rcases a with _ | ⟨s, a⟩
    · exact .inl ⟨_, .done⟩
    obtain ⟨rfl, htail⟩ := List.cons.inj hsegs
    obtain ⟨l, hl⟩ | ⟨⟨l, hr, hl⟩, hblank⟩ := ih htail
    · exact .inl ⟨l, .idle hs hl⟩
    · exact .inr ⟨⟨l, hr, .idle hs hl⟩, hblank⟩
  | up _ ih =>
    rcases a with _ | ⟨s, a⟩
    · exact .inl ⟨_, .done⟩
    obtain ⟨rfl, htail⟩ := List.cons.inj hsegs
    obtain ⟨l, hl⟩ | ⟨⟨l, hr, hl⟩, hblank⟩ := ih htail
    · exact .inl ⟨l, .up hl⟩
    · exact .inr ⟨⟨l, hr, .up hl⟩, hblank⟩
  | missing hs he hrest =>
    rcases a with _ | ⟨s, a⟩
    · exact .inl ⟨_, .done⟩
    obtain ⟨rfl, rfl⟩ := List.cons.inj hsegs
    have ha : ∀ s ∈ a, s = "" := fun s hs => hrest s (List.mem_append_left b hs)
    exact .inr ⟨⟨_, rfl, .missing hs he ha⟩, fun s hs => hrest s (List.mem_append_right a hs)⟩
  | dir hs he _ ih =>
    rcases a with _ | ⟨s, a⟩
    · exact .inl ⟨_, .done⟩
    obtain ⟨rfl, htail⟩ := List.cons.inj hsegs
    obtain ⟨l, hl⟩ | ⟨⟨l, hr, hl⟩, hblank⟩ := ih htail
    · exact .inl ⟨l, .dir hs he hl⟩
    · exact .inr ⟨⟨l, hr, .dir hs he hl⟩, hblank⟩
  | file hs he =>
    rcases a with _ | ⟨s, a⟩
    · exact .inl ⟨_, .done⟩
    · simp [hb] at hsegs
  | link hs he hstay =>
    rcases a with _ | ⟨s, a⟩
    · exact .inl ⟨_, .done⟩
    · simp [hb] at hsegs
  | @jump n d s rest target r hs he hgo _ ih =>
    rcases a with _ | ⟨s, a⟩
    · exact .inl ⟨_, .done⟩
    obtain ⟨rfl, rfl⟩ := List.cons.inj hsegs
    obtain ⟨l, hl⟩ | ⟨⟨l, hr, hl⟩, hblank⟩ := ih (a := target.segments ++ a) (by simp)
    · exact .inl ⟨l, .jump hs he (fun _ => rfl) hl⟩
    · exact .inr ⟨⟨l, hr, .jump hs he (fun _ => rfl) hl⟩, hblank⟩

/-- What a path leads to if links at its end are followed, it also leads to if they are not, or it
leads to a link. -/
lemma exists_stay (h : fs.Leads true n d segs (.found l e)) :
    ∃ l' e', fs.Leads false n d segs (.found l' e') := by
  generalize hr : Reached.found l e = r at h
  induction h with
  | done => exact ⟨_, _, .done⟩
  | idle hs _ ih =>
    obtain ⟨l', e', hl⟩ := ih hr
    exact ⟨l', e', .idle hs hl⟩
  | up _ ih =>
    obtain ⟨l', e', hl⟩ := ih hr
    exact ⟨l', e', .up hl⟩
  | missing => simp at hr
  | dir hs he _ ih =>
    obtain ⟨l', e', hl⟩ := ih hr
    exact ⟨l', e', .dir hs he hl⟩
  | file hs he => exact ⟨_, _, .file hs he⟩
  | link hs he => exact ⟨_, _, .link hs he rfl⟩
  | @jump n d s rest target r hs he hgo _ ih =>
    by_cases hrest : rest = []
    · subst hrest
      exact ⟨_, _, .link hs he rfl⟩
    · obtain ⟨l', e', hl⟩ := ih hr
      exact ⟨l', e', .jump hs he (fun hnil => absurd hnil hrest) hl⟩

/-- Following a link at the end makes no difference where there is none. -/
lemma following (h : fs.Leads false n d segs r) (hlink : ∀ l target, r ≠ .found l (.link target)) :
    fs.Leads true n d segs r := by
  induction h with
  | done => exact .done
  | idle hs _ ih => exact .idle hs (ih hlink)
  | up _ ih => exact .up (ih hlink)
  | missing hs he hrest => exact .missing hs he hrest
  | dir hs he _ ih => exact .dir hs he (ih hlink)
  | file hs he => exact .file hs he
  | link hs he => exact absurd rfl (hlink _ _)
  | jump hs he _ _ ih => exact .jump hs he (fun _ => rfl) (ih hlink)

/-- **What is reached stands there**, and what is not found does not. -/
theorem stands (h : fs.Leads follow n d segs r) : fs.Stands follow r := by
  induction h with
  | done => exact .dir
  | idle _ _ ih => exact ih
  | up _ ih => exact ih
  | missing _ he => exact .missing he
  | dir _ _ _ ih => exact ih
  | file _ he => exact .file he
  | link _ he hstay => exact .link he hstay
  | jump _ _ _ _ ih => exact ih

lemma entry?_eq_none (h : fs.Leads follow n d segs (.missing l)) : fs.entry? l = none := by
  cases h.stands with
  | missing he => exact he

/-- What is found and is no directory stands in its place. -/
lemma entry?_eq_some (h : fs.Leads follow n d segs (.found l e)) (hdir : e ≠ .dir) :
    fs.entry? l = some e := by
  cases h.stands with
  | dir => exact absurd rfl hdir
  | file he => exact he
  | link he => exact he

lemma not_link (h : fs.Leads true n d segs (.found l e)) (target : Path) : e ≠ .link target := by
  rintro rfl
  cases h.stands with
  | link _ hstay => simp at hstay

/-- What stands under the last name of a path. -/
lemma entry?_of_name (h : fs.Leads false n d (a ++ [s]) (.found l e)) (hs : Path.IsName s) :
    fs.entry? l = some e ∧ ∃ x, l = x ++ [s] := by
  obtain ⟨x, hx⟩ | ⟨-, hblank⟩ := h.split (List.cons_ne_nil s [])
  · obtain ⟨n', -, hwalk⟩ := hx.exists_walk_append
    have hlast := leads_of_walk ((hwalk false [s] (by simp)).symm.trans h.walk)
    cases hlast with
    | idle hidle => simp [hs.proper] at hidle
    | up => exact absurd rfl hs.down
    | dir _ he h =>
      cases h
      exact ⟨he, x, rfl⟩
    | file _ he => exact ⟨he, x, rfl⟩
    | link _ he => exact ⟨he, x, rfl⟩
    | jump _ _ hgo => simp at hgo
  · have hproper := hs.proper
    simp [Path.isIdle, hblank s (by simp)] at hproper

/-- What comes after a path that leads to nothing leads there too, or to an error. -/
lemma eq_missing (hm : fs.Leads false n d a (.missing l)) (h : fs.Leads follow n d (a ++ b) r) :
    r = .missing l := by
  have hfollow : fs.Leads true n d a (.missing l) := hm.following (by simp)
  by_cases hb : b = []
  · rw [hb, List.append_nil] at h
    cases follow with
    | true => exact h.unique hfollow
    | false => exact h.unique hm
  obtain ⟨x, hx⟩ | ⟨⟨x, rfl, hx⟩, -⟩ := h.split hb
  · exact absurd (hx.unique hfollow) (by simp)
  · exact hx.unique hfollow

lemma of_blanks (hb : ∀ s ∈ b, s = "") : fs.Leads follow n d b (.found d .dir) := by
  induction b with
  | nil => exact .done
  | cons s b ih =>
    obtain ⟨hs, hb⟩ := List.forall_mem_cons.mp hb
    exact .idle (by simp [Path.isIdle, hs]) (ih hb)

/-- Slashes at the end of the path of a directory change nothing. -/
lemma append_blanks (h : fs.Leads true n d a (.found l .dir)) (hb : ∀ s ∈ b, s = "") :
    fs.Leads true n d (a ++ b) (.found l .dir) := by
  by_cases hnil : b = []
  · simpa [hnil] using h
  obtain ⟨n', -, hwalk⟩ := h.exists_walk_append
  rw [← walk_eq_ok_iff, hwalk true b hnil, walk_eq_ok_iff]
  exact of_blanks hb

/-- What is reached before the slashes at the end of the path of a directory. -/
lemma drop_blanks (h : fs.Leads true n d (a ++ b) (.found l .dir)) (hb : ∀ s ∈ b, s = "") :
    fs.Leads true n d a (.found l .dir) := by
  by_cases hnil : b = []
  · simpa [hnil] using h
  obtain ⟨x, hx⟩ | ⟨⟨x, hr, -⟩, -⟩ := h.split hnil
  · have hl := (hx.append_blanks hb).unique h
    rwa [hl] at hx
  · simp at hr

end Leads

end FileSystem

end Stencil
