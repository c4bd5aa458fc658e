import Stencil.Proofs.Resolution.Operations
import Stencil.Proofs.Resolution.Solution

/-!
Every key is computed once.

What is asked of a session gives values to names that have none, each by one rule, and changes no
value. Every identifier that is issued on the way is the value of the name for which it was issued,
also if the request fails in the end. So a request that succeeded finds everything in the table when
it is made again.
-/

namespace Stencil

namespace Progress

variable {ids : IdSource} {rules : String → Rule → Prop} {p q : Progress}

/-- The names in a list of entries that identifiers are issued for. -/
def identified (entries : List (String × Rule)) : List String :=
  (entries.filter (·.2 = .identifier)).map Prod.fst

/-- The later progress has the values of the earlier one, and one more for each entry, in order. -/
structure Fills (ids : IdSource) (rules : String → Rule → Prop) (p : Progress)
    (entries : List (String × Rule)) (q : Progress) : Prop where
  keeps : ∀ n v : String, p.values[n]? = some v → q.values[n]? = some v
  names : ∀ n, n ∈ q.values ↔ n ∈ p.values ∨ n ∈ entries.map Prod.fst
  new : ∀ n ∈ entries.map Prod.fst, n ∉ p.values
  distinct : (entries.map Prod.fst).Nodup
  gives : ∀ n rule, (n, rule) ∈ entries →
    rules n rule ∧ ∃ v, q.values[n]? = some v ∧ rule.Gives ids q.values n v
  issued : q.issued = p.issued + (identified entries).length
  /-- The identifiers are the values of the names that they were issued for. -/
  identifiers : ∀ i n, (identified entries)[i]? = some n →
    q.values[n]? = some (ids (p.issued + i) n)

lemma identified_append (entries entries' : List (String × Rule)) :
    identified (entries ++ entries') = identified entries ++ identified entries' := by
  simp [identified]

lemma length_identified_singleton (name : String) (rule : Rule) :
    (identified [(name, rule)]).length = rule.uses := by
  cases rule <;> rfl

lemma getElem?_identified_singleton {name n : String} {rule : Rule} {i : Nat}
    (h : (identified [(name, rule)])[i]? = some n) : i = 0 ∧ n = name ∧ rule = .identifier := by
  cases rule <;> simp [identified, List.getElem?_singleton] at h ⊢
  exact ⟨h.1, h.2.symm⟩

lemma Fills.refl (ids : IdSource) (rules : String → Rule → Prop) (p : Progress) :
    p.Fills ids rules [] p where
  keeps _ _ h := h
  names := by simp
  new := by simp
  distinct := .nil
  gives := by simp
  issued := rfl
  identifiers := by simp [identified]

/-- One more name gets the value of its rule. -/
lemma Fills.step {entries : List (String × Rule)} (h : p.Fills ids rules entries q)
    {name : String} {rule : Rule} (hrule : rules name rule) (hnew : name ∉ q.values)
    (hready : ∀ n ∈ rule.references, n ∈ q.values) :
    p.Fills ids rules (entries ++ [(name, rule)]) (q.fill ids name rule) := by
  have hstep : Step ids rules q (q.fill ids name rule) := .fill hrule hnew hready
  have hext := hstep.extends
  have hvalue : (q.fill ids name rule).values[name]? = some (rule.valueIn ids q name) := by
    rw [getElem?_fill, if_pos rfl]
  have hname : name ∉ p.values ∧ name ∉ entries.map Prod.fst := by
    rw [h.names, not_or] at hnew
    exact hnew
  refine { keeps := fun n v hv => hext n v (h.keeps n v hv), names := fun n => ?names,
           new := fun n hn => ?new, distinct := ?distinct, gives := fun n r hr => ?gives,
           issued := ?issued, identifiers := fun i n hi => ?identifiers }
  case names =>
    rw [mem_iff_exists, getElem?_fill, List.map_append, List.mem_append, ← or_assoc, ← h.names,
      mem_iff_exists]
    by_cases hn : name = n
    · simp [hn]
    · simp [hn, Ne.symm hn]
  case new =>
    rw [List.map_append, List.mem_append] at hn
    rcases hn with hn | hn
    · exact h.new n hn
    · obtain rfl : n = name := by simpa using hn
      exact hname.1
  case distinct =>
    rw [List.map_append]
    exact h.distinct.append (by simp) (by simpa using hname.2)
  case gives =>
    rw [List.mem_append, List.mem_singleton] at hr
    rcases hr with hr | hr
    · obtain ⟨hrules, v, hv, hg⟩ := h.gives n r hr
      exact ⟨hrules, v, hext n v hv, hg.extend hext⟩
    · obtain ⟨rfl, rfl⟩ := Prod.mk.inj hr
      exact ⟨hrule, _, hvalue, Rule.Gives.extend hext ⟨hready, q.issued, rfl⟩⟩
  case issued =>
    rw [identified_append, List.length_append, length_identified_singleton, ← Nat.add_assoc,
      ← h.issued]
    rfl
  case identifiers =>
    rw [identified_append] at hi
    by_cases hlt : i < (identified entries).length
    · rw [List.getElem?_append_left hlt] at hi
      exact hext _ _ (h.identifiers i n hi)
    · rw [List.getElem?_append_right (by omega)] at hi
      obtain ⟨hzero, rfl, rfl⟩ := getElem?_identified_singleton hi
      have hlast : q.issued = p.issued + i := by rw [h.issued]; omega
      rw [hvalue, ← hlast]
      rfl

/-- A run gives one value after the other. -/
lemma Run.exists_fills (h : Run ids rules p q) : ∃ entries, p.Fills ids rules entries q := by
  induction h with
  | refl => exact ⟨[], .refl ids rules p⟩
  | tail _ hs ih =>
    obtain ⟨entries, hfills⟩ := ih
    obtain ⟨hrule, hnew, hready⟩ := hs
    exact ⟨_, hfills.step hrule hnew hready⟩

end Progress

namespace Session

variable {ids : IdSource} {s s' s'' : Session}

/-! ### Requests that are made again -/

lemma interpolate_again {format text : String} (h : s.interpolate ids format = (.ok text, s')) :
    s'.interpolate ids format = (.ok text, s') := by
  obtain ⟨hrefs, rfl⟩ := value_of_interpolate h
  exact interpolate_of_mem ids hrefs

/-- A new folder name that is not the name of a key does not become one. -/
lemma namesKey_of_advances (h : s.Advances ids s') (rename : String) :
    s'.namesKey rename = s.namesKey rename := by
  unfold namesKey
  rw [h.template]
  congr 1
  cases hk : s.template.key? rename with
  | some k => simp
  | none =>
    have hrule : ∀ rule, ¬ s.template.Applies [] rename rule := by
      simp [Template.Applies, Template.rule?, hk]
    have hmem : rename ∈ s'.values ↔ rename ∈ s.values :=
      ⟨fun hm => by_contra fun hn => h.run.not_mem hn hrule hm, fun hm => h.extends_values.mem hm⟩
    rw [Bool.eq_iff_iff]
    simpa using hmem

lemma resolveFolder_again {f : Folder} {target : String}
    (h : s.resolveFolder ids f = (.ok target, s')) (hadv : s'.Advances ids s'') :
    s''.resolveFolder ids f = (.ok target, s'') := by
  have hkey : s''.namesKey f.rename = s.namesKey f.rename :=
    namesKey_of_advances ((resolveFolder_advances h).trans hadv) _
  unfold resolveFolder at h ⊢
  rw [hkey]
  split at h
  · next hnames =>
    rw [if_pos hnames]
    exact resolveSymbol_of_value (hadv.extends_values _ _ (value_of_resolveSymbol h))
  · next hnames =>
    rw [if_neg hnames]
    obtain ⟨hrefs, rfl⟩ := value_of_interpolate h
    rw [interpolate_of_mem ids fun n hn => hadv.extends_values.mem (hrefs n hn),
      Placeholder.substitute_congr fun n hn => hadv.extends_values.getElem?_eq (hrefs n hn)]

lemma resolveFolderList_again {fs : List Folder} {folders : List ResolvedFolder}
    (h : s.resolveFolderList ids fs = (.ok folders, s')) (hadv : s'.Advances ids s'') :
    s''.resolveFolderList ids fs = (.ok folders, s'') := by
  induction fs generalizing s folders with
  | nil =>
    obtain ⟨hr, -⟩ := Prod.mk.inj h
    rw [resolveFolderList, hr]
  | cons f fs ih =>
    obtain ⟨target, s₁, rest, hf, hfs, rfl⟩ := resolveFolderList_cons_eq_ok_iff.mp h
    have hfirst := resolveFolder_again hf ((resolveFolderList_advances hfs).trans hadv)
    exact resolveFolderList_cons_eq_ok_iff.mpr ⟨target, s'', rest, hfirst, ih hfs, rfl⟩

lemma resolveFolders_again {folders : List ResolvedFolder}
    (h : s.resolveFolders ids = (.ok folders, s')) :
    s'.resolveFolders ids = (.ok folders, s') := by
  have ht : s'.template = s.template := (resolveFolderList_advances h).template
  rw [resolveFolders, ht]
  exact resolveFolderList_again h (.refl ids s')

lemma resolveAll_again (h : s.resolveAll ids ∅ = (.ok (), s')) :
    s'.resolveAll ids ∅ = (.ok (), s') := by
  have hnone : ∀ s : Session, s.absorbInputs ∅ = s := fun s => absorbInputs_eq_self (by simp)
  have hp := resolveAll_proceeds h
  simp only [resolveAll, hnone] at h hp ⊢
  split at h
  · simp at h
  · next hobst =>
    obtain ⟨hkinds, hinputs⟩ := obstacle?_eq_none_iff.mp hobst
    have hobst' : s'.obstacle? = none := by
      rw [obstacle?_eq_none_iff, hp.template]
      exact ⟨hkinds, fun k hk hkind => hp.extends_values.mem (hinputs k hk hkind)⟩
    simp only [hobst']
    exact handleKinds_again h hp.template fun _ _ hv => hv

end Session

namespace Operation

/-- The operation tells the session nothing. -/
def OnlyAsks : Operation → Prop
  | ask _ => True
  | resolveAll inputs => inputs = ∅
  | _ => False

/-- The keys that are handled, besides those that are referred to. -/
def handed (t : Template) : Operation → List (KeyKind × Key)
  | ask r => r.handed
  | resolveAll _ => t.keysOfKinds KeyKind.computed
  | _ => []

variable {ids : IdSource} {s s' : Session} {op : Operation}

lemma perform_proceeds (ids : IdSource) (s : Session) (hop : op.OnlyAsks) :
    s.Proceeds ids (op.handed s.template) (op.perform ids s).2 := by
  cases op with
  | ask r => exact r.reply_proceeds ids s
  | resolveAll inputs =>
    obtain rfl : inputs = ∅ := hop
    have hsame : s.absorbInputs ∅ = s := Session.absorbInputs_eq_self (by simp)
    have h : (s.absorbInputs ∅).Proceeds ids (s.template.keysOfKinds KeyKind.computed)
        (s.resolveAll ids ∅).2 := Session.resolveAll_proceeds rfl
    rwa [hsame] at h
  | absorb inputs => exact hop.elim
  | applyCase switch case => exact hop.elim
  | select t => exact hop.elim

lemma perform_again (hop : op.OnlyAsks) {a : op.Answer} (h : op.perform ids s = (.ok a, s')) :
    op.perform ids s' = (.ok a, s') := by
  cases op with
  | ask r =>
    cases r with
    | symbol name => exact Session.resolveSymbol_of_value (Session.value_of_resolveSymbol h)
    | text format => exact Session.interpolate_again h
    | folders =>
      exact Session.resolveFolders_again h
    | keys kind ks => exact Session.handle_again h fun _ _ hv => hv
  | resolveAll inputs =>
    obtain rfl : inputs = ∅ := hop
    exact Session.resolveAll_again h
  | absorb inputs => exact hop.elim
  | applyCase switch case => exact hop.elim
  | select t => exact hop.elim

/-- **Every key is computed once.** Whether or not it succeeds, what is asked of a session keeps all
values and fills in new ones, with as many identifiers as there are names that get one; a symbol is
answered by its value in the table; and what succeeded comes to the same, and changes nothing, when
it is asked again. -/
theorem perform_once (ids : IdSource) (s : Session) (op : Operation) (hop : op.OnlyAsks) :
    (∃ entries, s.progress.Fills ids (s.template.AppliesTo (op.handed s.template)) entries
      (op.perform ids s).2.progress) ∧
    (∀ name v s', s.resolveSymbol ids name = (.ok v, s') → s'.values[name]? = some v) ∧
    ∀ a s', op.perform ids s = (.ok a, s') → op.perform ids s' = (.ok a, s') :=
  ⟨(perform_proceeds ids s hop).run.exists_fills, fun _ _ _ h => Session.value_of_resolveSymbol h,
    fun _ _ h => perform_again hop h⟩

/-- A request for a text that mentions one identifier twice. -/
def guidTwice : Operation := ask (.text "$(guid) $(title) $(guid)")

theorem library_guid_once : guidTwice.OnlyAsks ∧ ∃ a s,
    guidTwice.perform (fun n _ => toString n)
      ((Session.start .library).absorbInputs Answers.library.inputs) = (.ok a, s) ∧
    guidTwice.perform (fun n _ => toString n) s = (.ok a, s) ∧
    ∃ entries, ((Session.start .library).absorbInputs Answers.library.inputs).progress.Fills
      (fun n _ => toString n) (Template.library.AppliesTo []) entries s.progress := by
  obtain ⟨a, ha⟩ := isOk_iff.mp (by decide +kernel : (guidTwice.perform (fun n _ => toString n)
    ((Session.start .library).absorbInputs Answers.library.inputs)).1.isOk)
  obtain ⟨hfills, -, hagain⟩ := perform_once (fun n _ => toString n)
    ((Session.start .library).absorbInputs Answers.library.inputs) guidTwice trivial
  exact ⟨trivial, a, _, Prod.ext ha rfl, hagain a _ (Prod.ext ha rfl), hfills⟩

end Operation

end Stencil
