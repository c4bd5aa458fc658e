import Mathlib.Logic.Function.Basic
import Stencil.Proofs.Files.Operations

/-!
What stands in files, and what operations make of it.

Writing a file changes the content in one place. Making directories and setting permissions change no
content.
-/

namespace Stencil

/-- The content of a file. -/
def content? : Option Entry → Option ByteArray
  | some (.file content _) => some content
  | _ => none

namespace FileSystem

variable {fs fs' : FileSystem} {follow : Bool} {m : Location} {p : Path} {content : ByteArray}
  {mode : Mode} {e : Entry}

/-- The content of the file in a place. -/
def fileAt? (fs : FileSystem) (m : Location) : Option ByteArray := content? (fs.entry? m)

lemma fileAt?_eq_some_iff : fs.fileAt? m = some content ↔
    ∃ mode, fs.entry? m = some (.file content mode) := by
  unfold fileAt? content?
  split
  · next content' mode he => simp [he]
  · next hne => simpa using fun mode he => hne content mode he

lemma fileAt?_eq_none_of_none (h : fs.entry? m = none) : fs.fileAt? m = none := by
  rw [fileAt?, h]
  rfl

lemma fileAt?_eq_none_of_dir (h : fs.entry? m = some .dir) : fs.fileAt? m = none := by
  rw [fileAt?, h]
  rfl

lemma fileAt?_congr (h : fs'.entry? m = fs.entry? m) : fs'.fileAt? m = fs.fileAt? m := by
  rw [fileAt?, fileAt?, h]

lemma fileAt?_put (hm : m ≠ []) (content : ByteArray) (mode : Mode) :
    (fs.put m (.file content mode)).fileAt? = Function.update fs.fileAt? m (some content) := by
  funext k
  by_cases hk : k = m
  · subst hk
    rw [Function.update_self, fileAt?, entry?_put hm, if_pos rfl, content?]
  · rw [Function.update_of_ne hk, fileAt?_congr]
    rw [entry?_put hm, if_neg (Ne.symm hk)]

lemma Paved.fileAt?_eq (h : Paved p fs fs') : fs'.fileAt? = fs.fileAt? := by
  funext m
  rcases h.new m with hsame | ⟨hnone, hdir, -⟩
  · exact fileAt?_congr hsame
  · rw [fileAt?_eq_none_of_none hnone, fileAt?_eq_none_of_dir hdir]

lemma fileAt?_createDirAll (fs : FileSystem) (p : Path) :
    (fs.createDirAll p).2.fileAt? = fs.fileAt? :=
  (createDirAll_furnished fs p).paved.fileAt?_eq

lemma fileAt?_setMode (fs : FileSystem) (p : Path) (mode : Mode) :
    (fs.setMode p mode).2.fileAt? = fs.fileAt? := by
  rcases setMode_cases fs p mode with hsame | ⟨m, content, mode', hlookup, hput⟩
  · rw [hsame]
  · have he := (lookup_eq_ok_iff.mp hlookup).2.entry?_eq_some (by simp)
    have hm : m ≠ [] := by
      rintro rfl
      simp [entry?_nil] at he
    rw [hput, fileAt?_put hm, Function.update_eq_self_iff]
    exact (fileAt?_eq_some_iff.mpr ⟨mode', he⟩).symm

/-- A file that is written stands where its path leads to, which does not end in a slash. -/
lemma writeFile_ok (h : fs.writeFile p content = (.ok (), fs')) : ∃ r mode,
    fs.locate true p = .ok r ∧ r ≠ .found r.location .dir ∧ p.segments.getLast? ≠ some "" ∧
      fs' = fs.put r.location (.file content mode) := by
  have hslash (l : Location) (e? : Option Entry) (hopen : fs.openForWriting p = .ok (l, e?)) :
      p.segments.getLast? ≠ some "" := by
    intro hend
    unfold openForWriting at hopen
    split at hopen
    · simp [bind_eq_ok_iff] at hopen
    · next hno =>
      obtain ⟨r, hr, -⟩ := bind_eq_ok_iff.mp hopen
      have hempty : p = .empty := by simpa [endsInSlash, hend] using hno
      obtain ⟨htext, -⟩ := locate_eq_ok_iff.mp hr
      rw [hempty] at htext
      exact absurd htext (by decide)
  unfold writeFile at h
  split at h
  · simp at h
  · next l _ mode hopen =>
    obtain ⟨r, hr, rfl, hdir⟩ := openForWriting_ok hopen
    exact ⟨r, mode, hr, hdir, hslash _ _ hopen, (Prod.mk.inj h).2.symm⟩
  · next l _ hopen =>
    obtain ⟨r, hr, rfl, hdir⟩ := openForWriting_ok hopen
    exact ⟨r, newFileMode, hr, hdir, hslash _ _ hopen, (Prod.mk.inj h).2.symm⟩

/-- What a path leads to stays as long as nothing goes. -/
lemma lookup_stays (hg : fs.Grows fs') (h : fs.lookup follow p = .ok (m, e)) :
    ∃ e', fs'.lookup follow p = .ok (m, e') ∧ e.Stays e' := by
  obtain ⟨htext, hl⟩ := lookup_eq_ok_iff.mp h
  obtain ⟨e', hl', hst⟩ := hl.grows hg
  exact ⟨e', lookup_eq_ok_iff.mpr ⟨htext, by rw [hg.cwd]; exact hl'⟩, hst⟩

/-- A path that leads to a file leads to a file as long as nothing goes. -/
lemma lookup_file_grows (hg : fs.Grows fs') (h : fs.lookup follow p = .ok (m, .file content mode)) :
    ∃ content' mode', fs'.lookup follow p = .ok (m, .file content' mode') := by
  obtain ⟨e', hl, hst⟩ := lookup_stays hg h
  cases hst
  exact ⟨_, _, hl⟩

/-! ### Permissions -/

/-- A file that is written over another file, or has its permissions set, is found by the same paths. -/
lemma lookup_put_file (h : fs.lookup true p = .ok (m, .file content mode)) (content' : ByteArray)
    (mode' : Mode) : fs.Grows (fs.put m (.file content' mode')) ∧
      (fs.put m (.file content' mode')).lookup true p = .ok (m, .file content' mode') := by
  have he := (lookup_eq_ok_iff.mp h).2.entry?_eq_some (by simp)
  have hm : m ≠ [] := by
    rintro rfl
    simp [entry?_nil] at he
  have hstays : ∀ e', fs.entry? m = some e' → e'.Stays (.file content' mode') := by
    intro e' he'
    obtain rfl := Option.some.inj (he.symm.trans he')
    exact .file
  have hg := (FillsIn.put hm (List.nil_prefix) hstays (by simp)).grows
  obtain ⟨content'', mode'', hl⟩ := lookup_file_grows hg h
  have hput : entry? (fs.put m (.file content' mode')) m = some (.file content' mode') := by
    rw [entry?_put hm, if_pos rfl]
  have hfile := (lookup_eq_ok_iff.mp hl).2.entry?_eq_some (by simp)
  exact ⟨hg, by rw [hl, Option.some.inj (hfile.symm.trans hput)]⟩

lemma openForWriting_some (h : fs.openForWriting p = .ok (m, some e)) :
    fs.lookup true p = .ok (m, e) ∧ e ≠ .dir := by
  unfold openForWriting at h
  split at h
  · simp [bind_eq_ok_iff] at h
  obtain ⟨r, hr, h⟩ := bind_eq_ok_iff.mp h
  split at h
  · simp at h
  · next hdir =>
    obtain ⟨rfl, he⟩ := Prod.mk.inj (Except.ok.inj h)
    obtain rfl := Option.some.inj he
    exact ⟨lookup_eq_ok_iff.mpr (locate_eq_ok_iff.mp hr), hdir⟩
  · simp at h

lemma openForWriting_none (h : fs.openForWriting p = .ok (m, none)) :
    fs.locate true p = .ok (.missing m) := by
  unfold openForWriting at h
  split at h
  · simp [bind_eq_ok_iff] at h
  obtain ⟨r, hr, h⟩ := bind_eq_ok_iff.mp h
  split at h
  · simp at h
  · simp at h
  · obtain ⟨rfl, -⟩ := Prod.mk.inj (Except.ok.inj h)
    exact hr

/-- A path that has led to nothing leads to the file that is put there, if it leads anywhere. -/
lemma Leads.found_of_missing {n : Nat} {d m' : Location} {segs : List String} (hg : fs.Grows fs')
    (h : fs.Leads true n d segs (.missing m)) (hfile : fs'.entry? m = some (.file content mode))
    (h' : fs'.Leads true n d segs (.found m' e)) : m' = m ∧ e = .file content mode := by
  generalize hr : Reached.missing m = r at h
  induction h with
  | done => simp at hr
  | file => simp at hr
  | link => simp at hr
  | idle hs _ ih => exact ih (leads_of_walk ((walk_idle hs).symm.trans h'.walk)) hr
  | up _ ih => exact ih (leads_of_walk (walk_up.symm.trans h'.walk)) hr
  | dir hs he _ ih => exact ih (leads_of_walk ((walk_of_dir hs (hg.dir he)).symm.trans h'.walk)) hr
  | jump hs he hgo _ ih =>
    exact ih (leads_of_walk ((walk_of_jump hs (hg.link he) hgo).symm.trans h'.walk)) hr
  | missing hs _ hrest =>
    obtain rfl := Reached.missing.inj hr
    have hwalk := (walk_of_file hs hfile).symm.trans h'.walk
    split at hwalk
    · obtain ⟨rfl, rfl⟩ := Reached.found.inj (Except.ok.inj hwalk)
      exact ⟨rfl, rfl⟩
    · simp at hwalk

/-- **A file that is written keeps its permissions** if it has been there before, and its path leads to
it after that, if it leads anywhere. -/
theorem writeFile_put (h : fs.writeFile p content = (.ok (), fs')) : ∃ m mode, m ≠ [] ∧
    fs' = fs.put m (.file content mode) ∧ fs.Grows fs' ∧
      (∀ e, fs.entry? m = some e → ∃ old, e = .file old mode) ∧
      ∀ x e, fs'.lookup true p = .ok (x, e) → x = m ∧ e = .file content mode := by
  unfold writeFile at h
  split at h
  · simp at h
  · next m old mode hopen =>
    obtain ⟨hold, -⟩ := openForWriting_some hopen
    obtain ⟨hg, hnew⟩ := lookup_put_file hold content mode
    obtain rfl := (Prod.mk.inj h).2
    have he := (lookup_eq_ok_iff.mp hold).2.entry?_eq_some (by simp)
    have hm : m ≠ [] := by
      rintro rfl
      simp [entry?_nil] at he
    refine ⟨m, mode, hm, rfl, hg, fun e he' => ⟨old, Option.some.inj (he'.symm.trans he)⟩, ?_⟩
    intro x e hl
    obtain ⟨rfl, rfl⟩ := Prod.mk.inj (Except.ok.inj (hl.symm.trans hnew))
    exact ⟨rfl, rfl⟩
  · next m e? hother hopen =>
    obtain rfl := (Prod.mk.inj h).2
    rcases e? with _ | e₀
    · obtain ⟨-, hmissing⟩ := locate_eq_ok_iff.mp (openForWriting_none hopen)
      have hnone := hmissing.entry?_eq_none
      have hm := ne_nil_of_entry?_eq_none hnone
      have hg : fs.Grows (fs.put m (.file content newFileMode)) := .put_new hnone _
      have hput : entry? (fs.put m (.file content newFileMode)) m =
          some (.file content newFileMode) := by rw [entry?_put hm, if_pos rfl]
      exact ⟨m, newFileMode, hm, rfl, hg, by simp [hnone],
        fun x e hl => hmissing.found_of_missing hg hput (lookup_eq_ok_iff.mp hl).2⟩
    · -- what is found is a file, since links are followed
      obtain ⟨hold, hdir⟩ := openForWriting_some hopen
      cases e₀ with
      | dir => exact absurd rfl hdir
      | file old mode => exact (hother old mode rfl).elim
      | link target => exact absurd rfl ((lookup_eq_ok_iff.mp hold).2.not_link target)

lemma setMode_ok (h : fs.setMode p mode = (.ok (), fs')) : ∃ m e, fs.lookup true p = .ok (m, e) ∧
    ∀ content old, e = .file content old → fs' = fs.put m (.file content mode) := by
  unfold setMode at h
  split at h
  · simp at h
  · next hl =>
    refine ⟨_, _, hl, fun content' old' he => ?_⟩
    obtain ⟨rfl, rfl⟩ := Entry.file.inj he
    exact (Prod.mk.inj h).2.symm
  · next found hother hl =>
    refine ⟨found.1, found.2, hl, fun content' old' he => ?_⟩
    exact (hother found.1 content' old' (by rw [← he])).elim

end FileSystem

end Stencil
