import Stencil.Proofs.Markup.Cutting
import Stencil.Proofs.Markup.Spans

/-!
Stretches of a text that are lexed like the whole.

What the first lexeme of a text is, and where it ends, is decided by the lexeme itself and not by
what comes after it. So a text that is cut between two of its lexemes has the same lexemes as before
in each of its parts, and the tokens from one to another are those of the text between them.
-/

namespace Stencil.Markup

variable {c : Char} {cs rest : List Char}

/-! ### Nothing depends on what comes later -/

/-- What is found at the beginning of a text, and how long it is, are the same if the text ends
after it. -/
structure IsLocal {α : Type} (f : List Char → α × Nat) : Prop where
  le (cs : List Char) : (f cs).2 ≤ cs.length
  eq_append {cs rest : List Char} (h : (f (cs ++ rest)).2 ≤ cs.length) : f cs = f (cs ++ rest)

lemma eq_nil_of_length_append_le (h : (cs ++ rest).length ≤ cs.length) : rest = [] := by
  rw [List.length_append] at h
  exact List.length_eq_zero_iff.mp (by omega)

/-- What a text starts with is all in its first part if this part is long enough. -/
lemma exists_append_of_le {w tail : List Char} (h : cs ++ rest = w ++ tail)
    (hle : w.length ≤ cs.length) : ∃ more, cs = w ++ more ∧ tail = more ++ rest := by
  rw [List.append_eq_append_iff] at h
  rcases h with ⟨more, rfl, rfl⟩ | ⟨more, rfl, rfl⟩
  · obtain rfl := eq_nil_of_length_append_le hle
    exact ⟨[], by simp, rfl⟩
  · exact ⟨more, rfl, rfl⟩

namespace Ends

variable {Body : List Char → Prop} {mark : List Char} {found found' : Bool × Nat}

lemma le (h : Ends Body mark cs found) : found.2 ≤ cs.length := by
  cases h <;> simp

/-- Where the text ends, or goes on, after the part that was read makes no difference. -/
lemma of_append (h : Ends Body mark (cs ++ rest) found) (hle : found.2 ≤ cs.length) :
    Ends Body mark cs found := by
  generalize htext : cs ++ rest = text at h
  cases h with
  | never h =>
    subst htext
    obtain rfl := eq_nil_of_length_append_le hle
    simpa using Ends.never h
  | @badly body tail hbody htail =>
    rw [← List.append_assoc] at htext
    obtain ⟨more, rfl, rfl⟩ := exists_append_of_le htext (by simpa using hle)
    rw [List.append_assoc]
    refine .badly hbody fun hhead => ?_
    obtain ⟨_, rfl⟩ := List.head?_eq_some_iff.mp hhead
    exact htail rfl
  | @well body tail hbody =>
    have hsplit : cs ++ rest = (body ++ mark ++ ['>']) ++ tail := by simpa using htext
    obtain ⟨more, rfl, rfl⟩ := exists_append_of_le hsplit (by simpa [Nat.add_assoc] using hle)
    simpa using Ends.well hbody

variable (hfirst : ∀ {a b us vs}, Body a → Body b → a ++ (mark ++ us) = b ++ (mark ++ vs) → a = b)

include hfirst

/-- After a body the mark is the one that was looked for, if no two bodies end at a mark. -/
lemma eq_of_mark {a us : List Char} (ha : Body a) (h : Ends Body mark (a ++ (mark ++ us)) found) :
    found = if us.head? = some '>' then (true, a.length + (mark.length + 1))
      else (false, a.length + mark.length) := by
  generalize htext : a ++ (mark ++ us) = text at h
  cases h with
  | never h => exact absurd ⟨a, us, by simp [← htext]⟩ h
  | @badly b vs hb hvs =>
    obtain rfl := hfirst ha hb htext
    obtain rfl := List.append_cancel_left (List.append_cancel_left htext)
    rw [if_neg hvs]
  | @well b vs hb =>
    obtain rfl := hfirst ha hb htext
    obtain rfl := List.append_cancel_left (List.append_cancel_left htext)
    rfl

lemma unique (h : Ends Body mark cs found) (h' : Ends Body mark cs found') : found = found' := by
  cases h with
  | never h =>
    cases h' with
    | never => rfl
    | @badly b vs => exact absurd ⟨b, vs, by simp⟩ h
    | @well b vs => exact absurd ⟨b, '>' :: vs, by simp⟩ h
  | badly ha hus => rw [h'.eq_of_mark hfirst ha, if_neg hus]
  | well ha =>
    rw [h'.eq_of_mark hfirst ha]
    rfl

end Ends

lemma isLocal_of_ends {Body : List Char → Prop} {mark : List Char} {f : List Char → Bool × Nat}
    (hends : ∀ cs, Ends Body mark cs (f cs))
    (hfirst : ∀ {a b us vs}, Body a → Body b → a ++ (mark ++ us) = b ++ (mark ++ vs) → a = b) :
    IsLocal f where
  le cs := (hends cs).le
  eq_append h := (hends _).unique hfirst ((hends _).of_append h)

lemma CommentBody.eq_nil {a us vs : List Char} (h : CommentBody a)
    (heq : a ++ us = '-' :: '-' :: vs) : a = [] := by
  rcases a with _ | ⟨c, _ | ⟨d, a⟩⟩
  · rfl
  · obtain ⟨rfl, -⟩ := List.cons.inj heq
    exact absurd rfl h.last
  · obtain ⟨rfl, htail⟩ := List.cons.inj heq
    obtain ⟨rfl, -⟩ := List.cons.inj htail
    exact absurd ⟨[], a, rfl⟩ h.single

lemma CommentBody.eq_of_append {a b us vs : List Char} (ha : CommentBody a) (hb : CommentBody b)
    (h : a ++ (['-', '-'] ++ us) = b ++ (['-', '-'] ++ vs)) : a = b := by
  induction a generalizing b with
  | nil => exact (hb.eq_nil h.symm).symm
  | cons c a ih =>
    cases b with
    | nil => exact ha.eq_nil h
    | cons d b =>
      obtain ⟨rfl, htail⟩ := List.cons.inj h
      rw [ih ha.tail hb.tail htail]

lemma eq_of_append_mark {a b us vs : List Char} (ha : c ∉ a) (hb : c ∉ b)
    (h : a ++ ([c] ++ us) = b ++ ([c] ++ vs)) : a = b := by
  have htake := congrArg (List.takeWhile (· ≠ c)) h
  rwa [List.singleton_append, List.singleton_append, takeWhile_ne_append ha,
    takeWhile_ne_append hb] at htake

lemma isLocal_commentEnd : IsLocal Lexeme.commentEnd :=
  isLocal_of_ends ends_commentEnd CommentBody.eq_of_append

lemma isLocal_prologEnd : IsLocal Lexeme.prologEnd :=
  isLocal_of_ends ends_prologEnd eq_of_append_mark

lemma takeWhile_append_of_le {p : Char → Bool}
    (h : ((cs ++ rest).takeWhile p).length ≤ cs.length) :
    cs.takeWhile p = (cs ++ rest).takeWhile p := by
  rw [List.takeWhile_append] at h ⊢
  split
  · next hall =>
    rw [if_pos hall, List.length_append] at h
    have hrest : rest.takeWhile p = [] := List.length_eq_zero_iff.mp (by omega)
    rw [hrest, List.append_nil]
    exact (List.takeWhile_prefix p).eq_of_length hall
  · rfl

lemma isLocal_takeWhile {α : Type} (p : Char → Bool) (f : List Char → α) :
    IsLocal fun cs => (f (cs.takeWhile p), (cs.takeWhile p).length) where
  le cs := (List.takeWhile_prefix p).length_le
  eq_append h := by rw [takeWhile_append_of_le h]

lemma isLocal_afterLess : IsLocal Lexeme.afterLess where
  le cs := by
    unfold Lexeme.afterLess
    split
    · simpa using isLocal_prologEnd.le _
    · simpa using isLocal_commentEnd.le _
    · simp
    · simp
  eq_append {cs rest} h := by
    generalize htext : cs ++ rest = text at h
    revert h
    fun_cases Lexeme.afterLess text with
    | case1 tail whole n hn =>
      intro h
      have hsize : n + 1 ≤ cs.length := h
      obtain ⟨more, rfl, rfl⟩ := exists_append_of_le (w := ['?']) htext (by simp; omega)
      have hsame : Lexeme.prologEnd more = (whole, n) := by
        rw [← hn]
        exact isLocal_prologEnd.eq_append (by simpa [hn] using hsize)
      simp [Lexeme.afterLess, hsame]
    | case2 tail whole n hn =>
      intro h
      have hsize : n + 3 ≤ cs.length := h
      obtain ⟨more, rfl, rfl⟩ := exists_append_of_le (w := ['!', '-', '-']) htext (by simp; omega)
      have hsame : Lexeme.commentEnd more = (whole, n) := by
        rw [← hn]
        exact isLocal_commentEnd.eq_append (by simpa [hn] using hsize)
      simp [Lexeme.afterLess, hsame]
    | case3 tail =>
      intro h
      obtain ⟨more, rfl, rfl⟩ := exists_append_of_le (w := ['/']) htext h
      rfl
    | case4 _ hprolog hcomment hslash =>
      -- what begins neither a prolog nor a comment nor `</` does not either if less of it is seen
      intro _
      unfold Lexeme.afterLess
      split
      · exact absurd htext.symm (hprolog _)
      · exact absurd htext.symm (hcomment _)
      · exact absurd htext.symm (hslash _)
      · rfl

lemma isLocal_afterQuote (q : Char) : IsLocal (Lexeme.afterQuote q) where
  le cs := by
    simp only [Lexeme.afterQuote]
    split
    · next h => exact h
    · exact Nat.le_refl _
  eq_append {cs rest} h := by
    simp only [Lexeme.afterQuote] at h ⊢
    by_cases hclosed : ((cs ++ rest).takeWhile (· ≠ q)).length < (cs ++ rest).length
    · rw [if_pos hclosed] at h ⊢
      have hsame := takeWhile_append_of_le (Nat.le_of_succ_le h)
      rw [← hsame] at h ⊢
      have hshort : (cs.takeWhile (· ≠ q)).length < cs.length := h
      rw [if_pos hshort]
    · rw [if_neg hclosed] at h
      obtain rfl := eq_nil_of_length_append_le h
      rw [List.append_nil]

lemma measure_slash (cs : List Char) : Lexeme.measure '/' cs =
    if cs.head? = some '>' then (.token .selfClose, 1) else (.dropped, 0) := by
  rcases cs with _ | ⟨c, cs⟩
  · rfl
  · by_cases hc : c = '>'
    · subst hc
      rfl
    · simp [Lexeme.measure, isLayout, isNameStart, hc]

lemma isLocal_slash : IsLocal (Lexeme.measure '/') where
  le cs := by
    rw [measure_slash]
    rcases cs with _ | ⟨c, cs⟩
    · simp
    · split <;> simp
  eq_append {cs rest} h := by
    rw [measure_slash] at h ⊢
    rw [measure_slash]
    rcases cs with _ | ⟨c, cs⟩
    · -- a `>` after the slash would belong to the lexeme
      split at h
      · simp at h
      · next hrest => exact (if_neg hrest).symm
    · rfl

lemma isLocal_measure (c : Char) : IsLocal (Lexeme.measure c) where
  le cs := by
    unfold Lexeme.measure
    split
    · exact (isLocal_takeWhile isLayout id).le cs
    · split
      · exact (isLocal_takeWhile isNameChar id).le cs
      · split
        · exact isLocal_afterLess.le cs
        · simp
        · simp
        · exact isLocal_slash.le cs
        · exact (isLocal_afterQuote _).le cs
        · exact (isLocal_afterQuote _).le cs
        · simp
  eq_append {cs rest} h := by
    unfold Lexeme.measure at h ⊢
    by_cases hlayout : isLayout c
    · simp only [if_pos hlayout] at h ⊢
      exact (isLocal_takeWhile isLayout fun _ => Role.layout).eq_append h
    · simp only [if_neg hlayout] at h ⊢
      by_cases hname : isNameStart c
      · simp only [if_pos hname] at h ⊢
        exact (isLocal_takeWhile isNameChar fun w =>
          Role.token (.name (String.ofList (c :: w)))).eq_append h
      · simp only [if_neg hname] at h ⊢
        split
        · exact isLocal_afterLess.eq_append h
        · rfl
        · rfl
        · exact isLocal_slash.eq_append h
        · exact (isLocal_afterQuote _).eq_append h
        · exact (isLocal_afterQuote _).eq_append h
        · simp

/-- **A text can be cut between two lexemes**: each part has those that it had before. -/
lemma exists_of_lexemes_eq_append {ls ms : List Lexeme} (h : lexemes cs = ls ++ ms) :
    ∃ rest, cs = ls.flatMap Lexeme.text ++ rest ∧ lexemes (ls.flatMap Lexeme.text) = ls ∧
      lexemes rest = ms := by
  induction ls generalizing cs with
  | nil => exact ⟨cs, rfl, lexemes.eq_1, h⟩
  | cons l ls ih =>
    cases cs with
    | nil => simp [lexemes] at h
    | cons c cs =>
      obtain ⟨role, n, hmeasure⟩ : ∃ role n, Lexeme.measure c cs = (role, n) := ⟨_, _, rfl⟩
      rw [lexemes, hmeasure] at h
      obtain ⟨rfl, hmore⟩ := List.cons.inj h
      obtain ⟨rest, htail, hls, hms⟩ := ih hmore
      have hn : n ≤ cs.length := by simpa [hmeasure] using (isLocal_measure c).le cs
      obtain ⟨w, rfl, rfl⟩ : ∃ w, cs = w ++ (ls.flatMap Lexeme.text ++ rest) ∧ n = w.length :=
        ⟨cs.take n, by rw [← htail, List.take_append_drop], by simp [hn]⟩
      -- the first lexeme and the texts of those after it decide what the first one is
      have hfirst : Lexeme.measure c (w ++ ls.flatMap Lexeme.text) = (role, w.length) := by
        rw [← hmeasure, ← List.append_assoc]
        refine (isLocal_measure c).eq_append ?_
        rw [List.append_assoc, hmeasure]
        simp
      refine ⟨rest, by simp, ?_, hms⟩
      simp [lexemes_append hfirst, hls]

/-! ### Tokens -/

lemma placeTokens_append (start : Nat) (ls ms : List Lexeme) :
    placeTokens start (ls ++ ms) = placeTokens start ls ++
      placeTokens (start + byteSize (ls.flatMap Lexeme.text)) ms := by
  induction ls generalizing start with
  | nil => rfl
  | cons l ls ih =>
    obtain ⟨role, text⟩ := l
    rw [List.flatMap_cons, byteSize_append, ← Nat.add_assoc]
    cases role with
    | token t => exact congrArg _ (ih _)
    | layout => exact ih _
    | dropped => exact ih _

variable {us vs : List (Located Token)} {t : Located Token}

lemma placeTokens_token {word : List Char} (h : t.span.stop = t.span.start + byteSize word)
    (ls : List Lexeme) : placeTokens t.span.start (⟨.token t.value, word⟩ :: ls) =
      t :: placeTokens t.span.stop ls := by
  rw [placeTokens, ← h]

/-- Every token comes from a lexeme. -/
lemma exists_lexeme {start : Nat} {ls : List Lexeme} (h : placeTokens start ls = us ++ t :: vs) :
    ∃ ls₁ word ls₂, ls = ls₁ ++ ⟨.token t.value, word⟩ :: ls₂ ∧
      t.span.start = start + byteSize (ls₁.flatMap Lexeme.text) ∧
      t.span.stop = t.span.start + byteSize word ∧
      placeTokens start ls₁ = us ∧ placeTokens t.span.stop ls₂ = vs := by
  induction ls generalizing start us with
  | nil => simp [placeTokens] at h
  | cons l ls ih =>
    obtain ⟨role, text⟩ := l
    -- the token may come from a lexeme after this one
    have hlater {us' : List (Located Token)} (hus : placeTokens start [⟨role, text⟩] ++ us' = us)
        (h : placeTokens (start + byteSize text) ls = us' ++ t :: vs) :
        ∃ ls₁ word ls₂, ⟨role, text⟩ :: ls = ls₁ ++ ⟨.token t.value, word⟩ :: ls₂ ∧
          t.span.start = start + byteSize (ls₁.flatMap Lexeme.text) ∧
          t.span.stop = t.span.start + byteSize word ∧
          placeTokens start ls₁ = us ∧ placeTokens t.span.stop ls₂ = vs := by
      obtain ⟨ls₁, word, ls₂, rfl, hstart, hstop, rfl, hvs⟩ := ih h
      refine ⟨⟨role, text⟩ :: ls₁, word, ls₂, rfl, ?_, hstop, ?_, hvs⟩
      · simpa [byteSize_append, Nat.add_assoc] using hstart
      · rw [← hus, ← List.singleton_append, placeTokens_append]
        simp
    cases role with
    | token u =>
      cases us with
      | nil =>
        obtain ⟨rfl, rfl⟩ := List.cons.inj h
        exact ⟨[], text, ls, rfl, rfl, rfl, rfl, rfl⟩
      | cons v us =>
        obtain ⟨rfl, hrest⟩ := List.cons.inj h
        exact hlater rfl hrest
    | layout => exact hlater rfl h
    | dropped => exact hlater rfl h

lemma Cut.word {ls : List Lexeme} (h : Cut ls cs) {t : Token} {word : List Char}
    (hmem : ⟨.token t, word⟩ ∈ ls) : t.Word word := by
  induction h with
  | nil => simp at hmem
  | cons hrole _ ih =>
    rcases List.mem_cons.mp hmem with heq | hmem
    · cases heq
      exact hrole
    · exact ih hmem

/-- The place in the source is that of the text. -/
def Occupies (source : String) (place : Span) (text : List Char) : Prop :=
  ∃ before after, source.toList = before ++ text ++ after ∧
    place = ⟨byteSize before, byteSize before + byteSize text⟩

lemma append_inj_of_byteSize {as bs us vs : List Char} (h : as ++ us = bs ++ vs)
    (hsize : byteSize as = byteSize bs) : as = bs ∧ us = vs := by
  rw [List.append_eq_append_iff] at h
  -- the texts differ by a part of no bytes
  rcases h with ⟨more, rfl, rfl⟩ | ⟨more, rfl, rfl⟩
  all_goals
    rw [byteSize_append] at hsize
    obtain rfl : more = [] := by
      by_contra hne
      have hpos := byteSize_pos hne
      omega
    simp

/-- A place is that of one text only. -/
theorem Occupies.unique {source : String} {place : Span} {text text' : List Char}
    (h : Occupies source place text) (h' : Occupies source place text') : text = text' := by
  obtain ⟨before, after, hsource, rfl⟩ := h
  obtain ⟨before', after', hsource', hplace⟩ := h'
  obtain ⟨hstart, hstop⟩ := Span.mk.inj hplace
  rw [hsource, List.append_assoc, List.append_assoc] at hsource'
  obtain ⟨rfl, hrest⟩ := append_inj_of_byteSize hsource' hstart
  rw [Nat.add_left_cancel_iff] at hstop
  exact (append_inj_of_byteSize hrest hstop).1

variable {source : String}

/-- Lexemes in a row are those of the text that they take up. -/
lemma occupies_lexemes {before ls after : List Lexeme} {place : Span}
    (h : lexemes source.toList = before ++ (ls ++ after))
    (hstart : place.start = byteSize (before.flatMap Lexeme.text))
    (hstop : place.stop = place.start + byteSize (ls.flatMap Lexeme.text)) :
    Occupies source place (ls.flatMap Lexeme.text) ∧ lexemes (ls.flatMap Lexeme.text) = ls := by
  obtain ⟨rest, hsource, -, hrest⟩ := exists_of_lexemes_eq_append h
  obtain ⟨tail, rfl, hself, -⟩ := exists_of_lexemes_eq_append hrest
  refine ⟨⟨before.flatMap Lexeme.text, tail, ?_, ?_⟩, hself⟩
  · rw [hsource, List.append_assoc]
  · rw [← hstart, ← hstop]

/-- A token stands where its word does, which is read as this token alone. -/
lemma exists_word (ht : t ∈ tokens source) :
    ∃ word, t.value.Word word ∧ Occupies source t.span word ∧
      lexemes word = [⟨.token t.value, word⟩] := by
  obtain ⟨us, vs, hsplit⟩ := List.append_of_mem ht
  obtain ⟨before, word, after, hlexemes, hstart, hstop, -, -⟩ := exists_lexeme hsplit
  have hplace : Occupies source t.span ([⟨.token t.value, word⟩].flatMap Lexeme.text) ∧
      lexemes ([⟨.token t.value, word⟩].flatMap Lexeme.text) = [⟨.token t.value, word⟩] :=
    occupies_lexemes hlexemes (by simpa using hstart) (by simpa using hstop)
  rw [List.flatMap_singleton] at hplace
  refine ⟨word, (cut_lexemes source.toList).word ?_, hplace⟩
  simp [hlexemes]

/-- From one token to another there is a text of its own, with these tokens. -/
lemma exists_stretch {first last : Located Token} {body : List (Located Token)}
    (h : tokens source = us ++ (first :: body ++ [last]) ++ vs) :
    ∃ word middle word', first.value.Word word ∧ last.value.Word word' ∧
      Occupies source ⟨first.span.start, last.span.stop⟩ (word ++ middle ++ word') ∧
      tokensFrom first.span.start (word ++ middle ++ word') = first :: body ++ [last] := by
  have hfirst : placeTokens 0 (lexemes source.toList) = us ++ first :: (body ++ last :: vs) := by
    simpa [tokens] using h
  obtain ⟨before, word, ls, hlexemes, hstart, hstop, -, hls⟩ := exists_lexeme hfirst
  obtain ⟨middle, word', after, rfl, hstart', hstop', hmiddle, -⟩ := exists_lexeme hls
  have hsplit : lexemes source.toList = before ++ ((⟨.token first.value, word⟩ ::
      (middle ++ [⟨.token last.value, word'⟩])) ++ after) := by simpa using hlexemes
  have htext : (⟨.token first.value, word⟩ :: (middle ++ [⟨.token last.value, word'⟩])).flatMap
      Lexeme.text = word ++ middle.flatMap Lexeme.text ++ word' := by simp
  have hsize : last.span.stop =
      first.span.start + byteSize (word ++ middle.flatMap Lexeme.text ++ word') := by
    simp only [byteSize_append]
    omega
  have hcut := cut_lexemes source.toList
  rw [← htext] at hsize
  have hplace : Occupies source ⟨first.span.start, last.span.stop⟩ _ ∧ _ :=
    occupies_lexemes hsplit (by simpa using hstart) hsize
  rw [htext] at hplace
  refine ⟨word, middle.flatMap Lexeme.text, word', hcut.word ?_, hcut.word ?_, hplace.1, ?_⟩
  · simp [hlexemes]
  · simp [hlexemes]
  · rw [tokensFrom, hplace.2, placeTokens_token hstop, placeTokens_append, hmiddle, ← hstart',
      placeTokens_token hstop']
    rfl

end Stencil.Markup
