import Stencil.Proofs.Resolution.Passes

/-!
Requests.

Names, texts, folders and keys can be asked for in any order, before a pass over all keys or
instead of it. Whether or not a request succeeds, the session that it leaves behind has made a run
of the rules of its template, and so has the session after any number of requests.
-/

namespace Stencil

/-- What can be asked of a session without telling it anything new. -/
inductive Request where
  | symbol (name : String)
  | text (format : String)
  | folders
  /-- Several keys, all taken to be of the given kind. -/
  | keys (kind : KeyKind) (ks : List Key)

namespace Request

/-- What a request is answered with. -/
abbrev Answer : Request → Type
  | .symbol _ => String
  | .text _ => String
  | .folders => List ResolvedFolder
  | .keys _ _ => Bindings

def reply (ids : IdSource) (s : Session) : (r : Request) → Outcome r.Answer
  | .symbol name => s.resolveSymbol ids name
  | .text format => s.interpolate ids format
  | .folders => s.resolveFolders ids
  | .keys kind ks => s.handle ids kind ks

/-- The keys that come with the request, with the kinds that they are taken to be. -/
def handed : Request → List (KeyKind × Key)
  | .keys kind ks => ks.map (kind, ·)
  | _ => []

/-- Whatever is asked, also about keys that are no keys of the template, only makes the session
proceed. -/
lemma reply_proceeds (ids : IdSource) (s : Session) (r : Request) :
    s.Proceeds ids r.handed (r.reply ids s).2 := by
  cases r with
  | symbol name => exact (Session.resolveSymbol_advances rfl).proceeds _
  | text format => exact (Session.interpolate_advances rfl).proceeds _
  | folders => exact (Session.resolveFolderList_advances rfl).proceeds _
  | keys kind ks => exact Session.handle_proceeds rfl

/-- Keys that are asked for are keys of the template, and of the kind that they are taken to be. -/
def Fits (t : Template) : Request → Prop
  | .keys kind ks => ∀ k ∈ ks, k ∈ t.keys ∧ k.kind? = some kind
  | _ => True

lemma Fits.owns {t : Template} {r : Request} (h : r.Fits t) (hn : t.keyNames.Nodup) :
    ∀ k ∈ r.handed, t.Owns k.1 k.2 := by
  cases r with
  | keys kind ks =>
    intro handed hmem
    obtain ⟨k, hk, rfl⟩ := List.mem_map.mp hmem
    exact ⟨Template.key?_name hn (h k hk).1, (h k hk).2⟩
  | _ => simp [handed]

/-- The session after the request, whatever the request comes to. -/
def after (ids : IdSource) (s : Session) : Request → Session
  | .symbol name => (s.resolveSymbol ids name).2
  | .text format => (s.interpolate ids format).2
  | .folders => (s.resolveFolders ids).2
  | .keys kind ks => (s.handle ids kind ks).2

lemma after_eq (ids : IdSource) (s : Session) (r : Request) :
    r.after ids s = (r.reply ids s).2 := by
  cases r <;> rfl

lemma advances_after (ids : IdSource) {s : Session} (hn : s.template.keyNames.Nodup)
    {r : Request} (hr : r.Fits s.template) : s.Advances ids (r.after ids s) := by
  rw [after_eq]
  exact (r.reply_proceeds ids s).advances (hr.owns hn)

end Request

namespace Session

/-- The session after several requests, of which any may fail. -/
def serve (s : Session) (ids : IdSource) (requests : List Request) : Session :=
  requests.foldl (fun s r => r.after ids s) s

/-- **Requests** only make a session advance. -/
theorem serve_advances (ids : IdSource) {s : Session} (hn : s.template.keyNames.Nodup)
    {requests : List Request} (hfit : ∀ r ∈ requests, r.Fits s.template) :
    s.Advances ids (s.serve ids requests) := by
  induction requests generalizing s with
  | nil => exact .refl ids s
  | cons r requests ih =>
    obtain ⟨hr, hrest⟩ := List.forall_mem_cons.mp hfit
    have hadv := Request.advances_after ids hn hr
    exact hadv.trans (ih (hadv.template ▸ hn) (hadv.template ▸ hrest))

end Session

end Stencil
