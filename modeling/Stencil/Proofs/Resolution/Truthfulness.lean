import Stencil.Proofs.Resolution.Failures

/-!
Errors tell the truth.

Each error says something about the template and about the table of values. Whatever has been done
with a session before, it is so when an operation that computes keys has failed: the keys that are
blamed are there, lack what they are said to lack, and have no values.
-/

namespace Stencil

lemma KeyKind.tag_ne_of_ofTag? {tag : String} (h : ofTag? tag = none) (kind : KeyKind) :
    kind.tag ≠ tag := by
  have hall : kind ∈ all := by cases kind <;> simp [all]
  simpa using List.find?_eq_none.mp h kind hall

namespace Template

variable {t : Template} {values : Bindings} {e : ResolveError}

/-- What an error says about a template and the values of its keys. -/
def Justifies (t : Template) (values : Bindings) : ResolveError → Prop
  | .cyclicReference chain => t.Circle values chain
  | .undefinedSymbol name => name ∉ values ∧ ∀ k ∈ t.keys, k.name ≠ name
  | .unknownKind name tag =>
    ∃ k ∈ t.keys, k.name = name ∧ k.typeTag = tag ∧ ∀ kind : KeyKind, kind.tag ≠ tag
  | .missingInput name => name ∉ values ∧ ∃ k ∈ t.keys, k.name = name ∧ k.kind? = some .input
  | .missingAttribute name attr => name ∉ values ∧ ∃ k ∈ t.keys, k.name = name ∧
    ∃ kind ∈ KeyKind.computed, k.kind? = some kind ∧ attr ∈ kind.requiredAttributes ∧
      k.attr? attr = none
  | .undefinedCase _ _ => False

lemma Fails.justifies (h : t.Fails values e) : t.Justifies values e := by
  cases h with
  | @undefinedSymbol name hnew hkey =>
    exact ⟨hnew, fun k hk => by simpa using List.find?_eq_none.mp hkey k hk⟩
  | @unknownKind k hk hkind => exact ⟨k, hk, rfl, rfl, KeyKind.tag_ne_of_ofTag? hkind⟩
  | cyclicReference h => exact h
  | @noRule k kind _ hk hkind hnew hrule =>
    obtain ⟨rfl, rfl⟩ | ⟨attr, hattr, hnone, rfl⟩ := Rule.error_of_ofKey hrule
    · exact ⟨hnew, k, hk, rfl, hkind⟩
    · have hcomputed : kind ∈ KeyKind.computed := by
        cases kind <;> simp_all [KeyKind.computed, Rule.ofKey]
      exact ⟨hnew, k, hk, rfl, kind, hcomputed, hkind, hattr, hnone⟩

end Template

namespace Operation

/-- **An error of a session is true** of its template and of the values that it leaves behind. -/
theorem perform_justified (ids : IdSource) (s : Session) (op : Operation)
    (hop : op.Computes s.template) {e : ResolveError} {s' : Session}
    (h : op.perform ids s = (.error e, s')) : s.template.Justifies s'.values e :=
  (perform_fails hop h).justifies

/-- Two keys whose formats refer to each other. -/
def entwined : Template :=
  ⟨"t", "", [⟨"a", "uppercase", (∅ : Bindings).insert "format" "$(b)"⟩,
    ⟨"b", "lowercase", (∅ : Bindings).insert "format" "<$(a)>"⟩], [], []⟩

theorem entwined_circle : ∃ s', (ask (.symbol "a")).perform (fun _ name => name)
      (.start entwined) = (.error (.cyclicReference ["a", "b", "a"]), s') ∧
    entwined.Circle s'.values ["a", "b", "a"] := by
  have herror : ((Session.start entwined).resolveSymbol (fun _ name => name) "a").1 =
      .error (.cyclicReference ["a", "b", "a"]) := by decide +kernel
  have h : (ask (.symbol "a")).perform (fun _ name => name) (.start entwined) =
      (.error (.cyclicReference ["a", "b", "a"]), _) := Prod.ext herror rfl
  exact ⟨_, h, perform_justified _ (.start entwined) (ask (.symbol "a")) trivial h⟩

end Operation

end Stencil
