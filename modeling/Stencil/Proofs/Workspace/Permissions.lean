import Stencil.Proofs.Workspace.Course

/-!
The permissions of copies.

The bytes of a copy are those of the file that a path leads to, also by way of links, but its
permissions are those of the entry that stands in the source. So the copy of a file has the permissions
of the file, and the copy of a link those that a link shows for itself, whatever file it leads to. A
file that is written several times keeps the bytes and the permissions of the last copy.
-/

namespace Stencil

open FileSystem

/-- Whether a path leads to a link. -/
def FileSystem.isLink (fs : FileSystem) (p : Path) : Bool :=
  match fs.lookup false p with
  | .ok (_, .link _) => true
  | _ => false

namespace Workspace

variable {fs fs' : FileSystem} {k l m : Location} {p origin dest : Path} {values : Bindings}
  {content : ByteArray} {mode : Mode} {out out' : Output} {e : Entry}

/-! ### The permissions of an entry -/

/-- **A link shows its own permissions** and a file those that it has. -/
lemma modeOf?_of_lookup (h : fs.lookup true p = .ok (k, .file content mode)) :
    modeOf? fs p = some (if fs.isLink p then linkMode else mode) := by
  obtain ⟨htext, hl⟩ := lookup_eq_ok_iff.mp h
  obtain ⟨k', e, hstay⟩ := hl.exists_stay
  have hentry : fs.lookup false p = .ok (k', e) := lookup_eq_ok_iff.mpr ⟨htext, hstay⟩
  by_cases hlink : ∃ target, e = .link target
  · obtain ⟨target, rfl⟩ := hlink
    have his : fs.isLink p = true := by rw [isLink, hentry]
    rw [modeOf?, hentry, if_pos his]
    rfl
  · have hfollow := hstay.following fun x target hr => hlink ⟨target, (Reached.found.inj hr).2⟩
    obtain ⟨rfl, rfl⟩ := Reached.found.inj (hfollow.unique hl)
    have hisnot : ¬fs.isLink p = true := by simp [isLink, hentry]
    rw [modeOf?, hentry, if_neg hisnot]
    rfl

/-- Writing a file changes no permissions of what has been there. -/
lemma modeOf?_writeFile (hwrite : fs.writeFile dest content = (.ok (), fs'))
    (h : modeOf? fs p = some mode) : modeOf? fs' p = some mode := by
  obtain ⟨m, mode', hm, hput, hg, hold, -⟩ := writeFile_put hwrite
  unfold modeOf? at h
  split at h
  · next x old hentry =>
    obtain ⟨new, hnew, hst⟩ := lookup_stays hg hentry
    cases hst with
    | dir => simpa [modeOf?, hnew] using h
    | link => simpa [modeOf?, hnew] using h
    | @file c c' o o' =>
      have he := (lookup_eq_ok_iff.mp hentry).2.entry?_eq_some (by simp)
      have he' := (lookup_eq_ok_iff.mp hnew).2.entry?_eq_some (by simp)
      have hsame : o' = o := by
        rw [hput, entry?_put hm] at he'
        split at he'
        · next heq =>
          subst heq
          obtain ⟨-, ho'⟩ := Entry.file.inj (Option.some.inj he')
          obtain ⟨c₀, hc₀⟩ := hold _ he
          obtain ⟨-, ho⟩ := Entry.file.inj hc₀
          exact ho'.symm.trans ho.symm
        · exact (Entry.file.inj (Option.some.inj (he'.symm.trans he))).2
      have hmode : some o = some mode := h
      simp only [modeOf?, hnew, hsame]
      exact hmode
  · simp at h

/-! ### Copying a file -/

/-- **The copy of a file** has its bytes with the placeholders replaced, and the permissions of the
entry. Nothing else changes. -/
lemma copyFile_found (h : copyFile values origin dest out = (.ok (), out')) :
    ∃ k content mode m, out.files.lookup true origin = .ok (k, .file content mode) ∧
      out'.files.lookup true dest = .ok (m, .file (filled values content)
        (if out.files.isLink origin then linkMode else mode)) ∧
      out.files.Grows out'.files ∧ ∀ x, x ≠ m → out'.files.entry? x = out.files.entry? x := by
  unfold copyFile at h
  split at h
  · simp at h
  next content hread =>
  obtain ⟨k, mode, hlookup⟩ := readFile_ok hread
  obtain ⟨warnings, hcontent⟩ := copiedContent_eq values origin content out
  rw [hcontent] at h
  dsimp only at h
  split at h
  · simp at h
  next out₁ hwrite =>
  obtain ⟨hwrite, -⟩ := perform_ok hwrite
  have hkept := modeOf?_writeFile hwrite (modeOf?_of_lookup hlookup)
  rw [hkept] at h
  dsimp only at h
  split at h
  · simp at h
  next out₂ hset =>
  obtain ⟨hset, -⟩ := perform_ok hset
  obtain rfl := (Prod.mk.inj h).2
  obtain ⟨m, mode', hm, hput, hg, -, hleads⟩ := writeFile_put hwrite
  obtain ⟨x, e, hfound, hfile⟩ := setMode_ok hset
  obtain ⟨rfl, rfl⟩ := hleads x e hfound
  have hput' := hfile _ _ rfl
  obtain ⟨hg', hlast⟩ := lookup_put_file hfound (filled values content)
    (if out.files.isLink origin then linkMode else mode)
  rw [← hput'] at hg' hlast
  refine ⟨k, content, mode, x, hlookup, hlast, hg.trans hg', fun y hy => ?_⟩
  rw [hput', entry?_put hm, if_neg (Ne.symm hy), hput, entry?_put hm, if_neg (Ne.symm hy)]

/-! ### Copying folders -/

namespace Plan

variable {plan : Plan} {s s' : Step} {steps later earlier : List Step}

/-- A step makes the file system grow, and changes no file but the one that it writes. -/
lemma run_found (hrun : plan.run s out = (.ok (), out')) : out.files.Grows out'.files ∧
    ∀ x c o, out.files.entry? x = some (.file c o) → out'.files.entry? x = some (.file c o) ∨
      s.copies ∧ ∃ e, out'.files.lookup true (plan.dest s) = .ok (x, e) := by
  by_cases hdir : s.entry = .dir
  · rw [run_of_dir hdir] at hrun
    obtain ⟨hcreate, -⟩ := perform_ok hrun
    have hpaved := (createDirAll_furnished out.files (plan.dest s)).paved
    rw [hcreate] at hpaved
    refine ⟨hpaved.grows, fun x c o he => .inl ?_⟩
    rcases hpaved.new x with hsame | ⟨hnone, -⟩
    · rw [hsame, he]
    · simp [hnone] at he
  · have hcopies := Step.copies_iff.mpr hdir
    rw [run_of_copies hcopies] at hrun
    obtain ⟨k, content, mode, m, -, hfound, hg, hother⟩ := copyFile_found hrun
    refine ⟨hg, fun x c o he => ?_⟩
    by_cases hx : x = m
    · subst hx
      exact .inr ⟨hcopies, _, hfound⟩
    · exact .inl (by rw [hother x hx, he])

/-- **The last copy in a place stays** with its bytes and its permissions. -/
theorem Course.last_copy (h : plan.Course fs (later ++ s :: earlier) fs') (hs : s.copies) :
    plan.Course fs earlier s.before ∧ ∃ k content mode m,
      s.before.lookup true (plan.origin s) = .ok (k, .file content mode) ∧
      (∃ c o, fs'.lookup true (plan.dest s) = .ok (m, .file c o)) ∧
      ((∀ s' ∈ later, s'.copies → ∀ e, fs'.lookup true (plan.dest s') ≠ .ok (m, e)) →
        fs'.lookup true (plan.dest s) = .ok (m, .file (filled plan.values content)
          (if s.before.isLink (plan.origin s) then linkMode else mode))) := by
  induction later generalizing fs' with
  | nil =>
    cases h with
    | step h hdue hdest hrun =>
      have hbefore := hdue.before_eq
      rw [run_of_copies hs] at hrun
      obtain ⟨k, content, mode, m, hread, hfound, -, -⟩ := copyFile_found hrun
      rw [← hbefore] at h hread hfound
      exact ⟨h, k, content, mode, m, hread, ⟨_, _, hfound⟩, fun _ => hfound⟩
  | cons s' later ih =>
    cases h with
    | @step _ _ out out' h hdue hdest hrun =>
      obtain ⟨hearlier, k, content, mode, m, hread, ⟨c, o, hfile⟩, hlast⟩ := ih h
      obtain ⟨hg, hother⟩ := run_found hrun
      refine ⟨hearlier, k, content, mode, m, hread, lookup_file_grows hg hfile, fun hdiffer => ?_⟩
      obtain ⟨hs', hlater⟩ := List.forall_mem_cons.mp hdiffer
      -- what leads to another place in the end has led there before
      have hbefore := hlast fun s'' hmem hcopies x hx => by
        obtain ⟨x', hx', -⟩ := lookup_stays hg hx
        exact hlater s'' hmem hcopies x' hx'
      have hentry := (lookup_eq_ok_iff.mp hbefore).2.entry?_eq_some (by simp)
      obtain ⟨c, o, hfound⟩ := lookup_file_grows hg hbefore
      have hentry' := (lookup_eq_ok_iff.mp hfound).2.entry?_eq_some (by simp)
      rcases hother m _ _ hentry with hsame | ⟨hcopies, x, hx⟩
      · rw [hfound, Option.some.inj (hentry'.symm.trans hsame)]
      · exact absurd hx (hs' hcopies x)

/-- Where the copies of files in one place are found, they are one file. -/
lemma Course.lookup_eq (h : plan.Course fs steps fs') (hs : s ∈ steps) (hcopies : s.copies)
    {c : ByteArray} {o : Mode} {p : Path} (hp : fs'.lookup true p = .ok (m, .file c o))
    (hplace : fs'.lookup true (plan.dest s) = .ok (m, e)) :
    fs'.lookup true (plan.dest s) = fs'.lookup true p := by
  obtain ⟨later, earlier, rfl⟩ := List.append_of_mem hs
  obtain ⟨-, k, content, mode, m', -, ⟨c', o', hfile⟩, -⟩ := h.last_copy hcopies
  obtain ⟨rfl, rfl⟩ := Prod.mk.inj (Except.ok.inj (hfile.symm.trans hplace))
  have he := (lookup_eq_ok_iff.mp hp).2.entry?_eq_some (by simp)
  have he' := (lookup_eq_ok_iff.mp hfile).2.entry?_eq_some (by simp)
  rw [hfile, hp, Option.some.inj (he'.symm.trans he)]

end Plan

section Populate

variable {w : Workspace} {sourceRoot : Path} {folders : List ResolvedFolder} {written : List Path}

/-- **A copy has the permissions of the entry, not of the file that is read.** A workspace that is
filled lists a file for each step in which one is copied. The last of them that is written in a place
has the bytes of the file that its path in the source leads to, with placeholders replaced. It has the
permissions of this file if the path leads there without a link at its end, and those that a link shows
for itself otherwise. What is read outside the workspace is what has been there at the start. -/
theorem populate_permissions
    (hok : (w.populate sourceRoot folders values fs).result = .ok written) :
    let plan : Plan := ⟨w, sourceRoot, folders, values⟩
    let final := (w.populate sourceRoot folders values fs).files
    ∃ steps, plan.Course fs steps final ∧
      written = ((steps.filter Step.copies).map plan.dest).reverse ∧
      ∀ later s earlier, steps = later ++ s :: earlier → s.copies →
        (∀ s' ∈ later, s'.copies →
          final.lookup true (plan.dest s') ≠ final.lookup true (plan.dest s)) →
        plan.Course fs earlier s.before ∧ ∃ k content mode m,
          s.before.lookup true (plan.origin s) = .ok (k, .file content mode) ∧
          final.lookup true (plan.dest s) = .ok (m, .file (filled values content)
            (if s.before.isLink (plan.origin s) then linkMode else mode)) ∧
          ∀ l, w.StandsAt l fs → ¬ l <+: k → fs.entry? k = some (.file content mode) := by
  intro plan final
  obtain ⟨steps, hcourse, hwritten⟩ := Plan.exists_course_of_ok hok
  refine ⟨steps, hcourse, hwritten, ?_⟩
  rintro later s earlier rfl hs hdiffer
  obtain ⟨hearlier, k, content, mode, m, hread, ⟨c, o, hfile⟩, hlast⟩ := hcourse.last_copy hs
  have hplaces : ∀ s' ∈ later, s'.copies → ∀ e, final.lookup true (plan.dest s') ≠ .ok (m, e) := by
    intro s' hmem hcopies e hplace
    have hsteps : s' ∈ later ++ s :: earlier := List.mem_append_left _ hmem
    exact hdiffer s' hmem hcopies (hcourse.lookup_eq hsteps hcopies hfile hplace)
  refine ⟨hearlier, k, content, mode, m, hread, hlast hplaces, fun l hstands hout => ?_⟩
  have hentry := (lookup_eq_ok_iff.mp hread).2.entry?_eq_some (by simp)
  rw [← (hearlier.fillsIn hstands).outside k hout, hentry]

end Populate

/-! ### A link in the source -/

/-- The workspace `ws` is empty, and the source holds a link to a file that only its owner can read. -/
def linkedSource : FileSystem :=
  (((((⟨∅, []⟩ : FileSystem).put ["ws"] .dir).put ["key"] (.file "secret".toUTF8 0o600)).put
    ["tpl"] .dir).put ["tpl", "s"] .dir).put ["tpl", "s", "f"] (.link (Path.ofText "../../key"))

/-- The source is copied. -/
def copyLinked : Populated :=
  populate ⟨⟨["ws"]⟩⟩ (Path.ofText "tpl") [⟨"s", "out"⟩] ∅ linkedSource

lemma result_copyLinked : copyLinked.result = .ok [⟨["ws", "out", "f"]⟩] := by
  have hlist : copyLinked.result.toOption = some [⟨["ws", "out", "f"]⟩] := by decide +kernel
  cases hresult : copyLinked.result with
  | error e => simp [hresult, Except.toOption] at hlist
  | ok written =>
    rw [hresult] at hlist
    rw [Option.some.inj hlist]

/-- What has permissions and is found by following links is a file. -/
lemma exists_file_of_mode (h : (fs.lookup true p).toOption.bind (·.2.mode?) = some mode) :
    ∃ m content, fs.lookup true p = .ok (m, .file content mode) := by
  cases hlookup : fs.lookup true p with
  | error e => simp [hlookup, Except.toOption] at h
  | ok found =>
    obtain ⟨m, e⟩ := found
    rw [hlookup] at h
    cases e with
    | dir => simp [Except.toOption, Entry.mode?] at h
    | file content mode' => exact ⟨m, content, by rw [show mode' = mode from Option.some.inj h]⟩
    | link target => exact absurd rfl ((lookup_eq_ok_iff.mp hlookup).2.not_link target)

/-- The copy can be read by everyone. -/
lemma lookup_copyLinked : ∃ m content,
    copyLinked.files.lookup true ⟨["ws", "out", "f"]⟩ = .ok (m, .file content linkMode) :=
  exists_file_of_mode (by decide +kernel)

theorem populate_linked_permissions : ∃ written steps,
    (populate ⟨⟨["ws"]⟩⟩ (Path.ofText "tpl") [⟨"s", "out"⟩] ∅ linkedSource).result = .ok written ∧
    Plan.Course ⟨⟨⟨["ws"]⟩⟩, Path.ofText "tpl", [⟨"s", "out"⟩], ∅⟩ linkedSource steps
      copyLinked.files ∧
    ∃ s ∈ steps, ∃ k content mode m,
      s.before.lookup true (Plan.origin ⟨⟨⟨["ws"]⟩⟩, Path.ofText "tpl", [⟨"s", "out"⟩], ∅⟩ s) =
        .ok (k, .file content mode) ∧
      copyLinked.files.lookup true ⟨["ws", "out", "f"]⟩ =
        .ok (m, .file (filled ∅ content) linkMode) := by
  obtain ⟨steps, hcourse, hwritten, hlast⟩ := populate_permissions result_copyLinked
  have hdest := congrArg List.reverse hwritten
  rw [List.reverse_reverse] at hdest
  obtain ⟨s, hfilter, hs⟩ := List.map_eq_singleton_iff.mp hdest.symm
  obtain ⟨later, earlier, hsteps, hlater, hcopies, -⟩ := List.filter_eq_cons_iff.mp hfilter
  obtain ⟨-, k, content, mode, m, hread, hfound, -⟩ := hlast later s earlier hsteps hcopies
    fun s' hmem hcopies' => absurd hcopies' (hlater s' hmem)
  obtain ⟨m', content', hlookup⟩ := lookup_copyLinked
  rw [hs] at hfound
  have hbits := (Prod.mk.inj (Except.ok.inj (hfound.symm.trans hlookup))).2
  obtain ⟨-, hbits⟩ := Entry.file.inj hbits
  rw [hbits] at hfound
  exact ⟨_, steps, result_copyLinked, hcourse, s, by simp [hsteps], k, content, mode, m, hread,
    hfound⟩

/-- Not every copy has the permissions of the file whose bytes it has. -/
theorem not_all_permissions_kept : ¬ ∀ (w : Workspace) (sourceRoot : Path) (f : ResolvedFolder)
    (values : Bindings) (fs : FileSystem) (l x k m : Location) (s : String) (p : Path)
    (content content' : ByteArray) (mode mode' : Mode), fs.Sound → w.Ready l fs →
      fs.lookup true (sourcePath sourceRoot f) = .ok (x, .dir) → Apart l x →
      (fs.leaves x).map Prod.fst = [[s]] →
      fs.lookup true ((sourcePath sourceRoot f).join ⟨[s]⟩) = .ok (k, .file content mode) →
      (w.populate sourceRoot [f] values fs).result = .ok [p] →
      (w.populate sourceRoot [f] values fs).files.lookup true p = .ok (m, .file content' mode') →
      mode' = mode := by
  intro h
  have hready : Ready ⟨⟨["ws"]⟩⟩ ["ws"] linkedSource :=
    ready_of_entries (by decide +kernel) (by decide +kernel) (by decide +kernel) (by decide)
      (by decide +kernel)
  have hsource : linkedSource.lookup true (sourcePath (Path.ofText "tpl") ⟨"s", "out"⟩) =
      .ok (["tpl", "s"], .dir) := lookup_eq_dir (by decide +kernel) (by decide +kernel)
  obtain ⟨k, content, hread⟩ : ∃ k content, linkedSource.lookup true
      ((sourcePath (Path.ofText "tpl") ⟨"s", "out"⟩).join ⟨["f"]⟩) =
        .ok (k, .file content 0o600) := exists_file_of_mode (by decide +kernel)
  obtain ⟨m, content', hlookup⟩ := lookup_copyLinked
  have hsame := h ⟨⟨["ws"]⟩⟩ (Path.ofText "tpl") ⟨"s", "out"⟩ ∅ linkedSource ["ws"] ["tpl", "s"] k m
    "f" ⟨["ws", "out", "f"]⟩ content content' 0o600 linkMode (by decide +kernel) hready hsource
    (by decide) (by decide +kernel) hread result_copyLinked hlookup
  exact absurd hsame (by decide)

end Workspace

end Stencil
