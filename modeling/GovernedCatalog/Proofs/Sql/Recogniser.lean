import Mathlib.Data.List.Count
import GovernedCatalog.Sql.Recogniser

/-!
# Recognisers before a closing parenthesis

A recogniser is run on tokens alone, and again with a closing parenthesis behind
them.  Where the tokens close the parentheses they open, both runs take the same
decisions: the second one never looks for the parenthesis that was added.
-/

namespace GovernedCatalog.Sql.Recogniser

/-- Tokens behind those that a recogniser is to read: none, or a closing
parenthesis and what follows it. -/
class Stops (tail : List Token) : Prop where
  eq_nil_or_closing : tail = [] ∨ ∃ more, tail = .mark ")" :: more

instance : Stops [] := ⟨.inl rfl⟩

instance (more : List Token) : Stops (.mark ")" :: more) := ⟨.inr ⟨more, rfl⟩⟩

/-- The keywords after which parentheses are skipped unread. -/
def skippingWords : List String := ["OPERATOR", "TABLE", "UPDATE"]

/-- Tokens that close all parentheses they open, and `depth` more. -/
structure Encloses (depth : Nat) (tokens : List Token) : Prop where
  plain : ∀ token ∈ tokens, isKeyword skippingWords token = false
  closes : tokens.count (.mark "(") + depth ≤ tokens.count (.mark ")")

namespace Encloses

variable {depth : Nat} {token : Token} {tokens : List Token}

theorem weaken (h : Encloses (depth + 1) tokens) : Encloses depth tokens :=
  ⟨h.plain, by have := h.closes; omega⟩

theorem ne_nil (h : Encloses (depth + 1) tokens) : tokens ≠ [] := by
  rintro rfl
  simpa using h.closes

theorem head_plain (h : Encloses depth (token :: tokens)) :
    isKeyword skippingWords token = false :=
  h.plain token List.mem_cons_self

theorem of_cons (h : Encloses depth (token :: tokens))
    (hopen : token ≠ .mark "(") (hclose : token ≠ .mark ")") :
    Encloses depth tokens where
  plain t ht := h.plain t (List.mem_cons_of_mem token ht)
  closes := by
    simpa [List.count_cons, hopen, hclose] using h.closes

theorem cons (h : Encloses depth tokens)
    (hplain : isKeyword skippingWords token = false)
    (hopen : token ≠ .mark "(") (hclose : token ≠ .mark ")") :
    Encloses depth (token :: tokens) where
  plain t ht := by
    obtain rfl | ht := List.mem_cons.mp ht
    · exact hplain
    · exact h.plain t ht
  closes := by
    simpa [List.count_cons, hopen, hclose] using h.closes

theorem of_opening (h : Encloses depth (.mark "(" :: tokens)) :
    Encloses (depth + 1) tokens where
  plain t ht := h.plain t (List.mem_cons_of_mem _ ht)
  closes := by
    have := h.closes
    simp at this
    omega

theorem of_closing (h : Encloses (depth + 1) (.mark ")" :: tokens)) :
    Encloses depth tokens where
  plain t ht := h.plain t (List.mem_cons_of_mem _ ht)
  closes := by
    have := h.closes
    simp at this
    omega

end Encloses

/-- On fewer than `bound` tokens `r'` reads before `tail` what `r` reads without
it, and what is left closes so many parentheses. -/
structure Tracks (tail : List Token) (bound before after : Nat)
    (r r' : Recogniser) : Prop where
  same : ∀ {tokens}, tokens.length < bound → Encloses before tokens →
    r' (tokens ++ tail) = (r tokens).map (· ++ tail)
  rest : ∀ {tokens rest}, tokens.length < bound → Encloses before tokens →
    r tokens = some rest → rest.length ≤ tokens.length ∧ Encloses after rest

/-- The same of recognisers that consume a token. -/
structure Advances (tail : List Token) (bound before after : Nat)
    (r r' : Recogniser) : Prop extends
    Tracks tail bound before after r r' where
  shorter : ∀ {tokens rest}, tokens.length < bound → Encloses before tokens →
    r tokens = some rest → rest.length < tokens.length

section Combinators

variable {tail : List Token} {bound a b c : Nat}
  {r r' s s' first first' second second' other other' : Recogniser}
  {rs rs' : List Recogniser}

theorem Tracks.mono {lower : Nat} (h : Tracks tail bound a b r r')
    (hle : lower ≤ bound) : Tracks tail lower a b r r' where
  same hbound := h.same (Nat.lt_of_lt_of_le hbound hle)
  rest hbound := h.rest (Nat.lt_of_lt_of_le hbound hle)

theorem Tracks.zero : Tracks tail 0 a b r r' :=
  ⟨fun hbound => absurd hbound (Nat.not_lt_zero _),
    fun hbound => absurd hbound (Nat.not_lt_zero _)⟩

theorem Advances.nil_eq_none (h : Advances tail bound a b r r')
    (hbound : 0 < bound) (henclosed : Encloses a []) :
    r [] = none ∧ r' tail = none := by
  replace hbound : ([] : List Token).length < bound := hbound
  have hnil : r [] = none := by
    cases hrest : r [] with
    | none => rfl
    | some rest =>
      have hlt := h.shorter hbound henclosed hrest
      simp at hlt
  have hsame := h.same hbound henclosed
  exact ⟨hnil, by simpa [hnil] using hsame⟩

theorem Tracks.pred (h : Tracks tail bound a b r r') :
    Tracks tail (bound - 1) a b r r' :=
  h.mono (Nat.sub_le bound 1)

theorem Tracks.nothing : Tracks tail bound a a nothing nothing where
  same _ _ := rfl
  rest _ henclosed h := by
    obtain rfl := Option.some.inj h
    exact ⟨Nat.le_refl _, henclosed⟩

/-- A parenthesis that is left open. -/
theorem Tracks.weaken (h : Tracks tail bound a b r r') :
    Tracks tail bound (a + 1) b r r' where
  same hbound henclosed := h.same hbound henclosed.weaken
  rest hbound henclosed := h.rest hbound henclosed.weaken

theorem Tracks.andThen (hr : Tracks tail bound a b r r')
    (hs : Tracks tail bound b c s s') :
    Tracks tail bound a c (andThen r s) (andThen r' s') where
  same {tokens} hbound henclosed := by
    unfold Recogniser.andThen
    rw [hr.same hbound henclosed]
    cases htokens : r tokens with
    | none => rfl
    | some rest =>
      obtain ⟨hle, hrest⟩ := hr.rest hbound henclosed htokens
      exact hs.same (Nat.lt_of_le_of_lt hle hbound) hrest
  rest {tokens rest} hbound henclosed h := by
    obtain ⟨middle, hmiddle, hrest⟩ := Option.bind_eq_some_iff.mp h
    obtain ⟨hle, henclosed⟩ := hr.rest hbound henclosed hmiddle
    obtain ⟨hle', henclosed⟩ :=
      hs.rest (Nat.lt_of_le_of_lt hle hbound) henclosed hrest
    exact ⟨Nat.le_trans hle' hle, henclosed⟩

/-- The second recogniser is run on fewer tokens than the first. -/
theorem Advances.andThen (hr : Advances tail bound a b r r')
    (hs : Tracks tail (bound - 1) b c s s') :
    Advances tail bound a c (andThen r s) (andThen r' s') where
  same {tokens} hbound henclosed := by
    unfold Recogniser.andThen
    rw [hr.same hbound henclosed]
    cases htokens : r tokens with
    | none => rfl
    | some rest =>
      have hlt := hr.shorter hbound henclosed htokens
      exact hs.same (by omega) (hr.rest hbound henclosed htokens).2
  rest {tokens rest} hbound henclosed h := by
    obtain ⟨middle, hmiddle, hrest⟩ := Option.bind_eq_some_iff.mp h
    have hlt := hr.shorter hbound henclosed hmiddle
    obtain ⟨hle, henclosed⟩ :=
      hs.rest (by omega) (hr.rest hbound henclosed hmiddle).2 hrest
    exact ⟨by omega, henclosed⟩
  shorter {tokens rest} hbound henclosed h := by
    obtain ⟨middle, hmiddle, hrest⟩ := Option.bind_eq_some_iff.mp h
    have hlt := hr.shorter hbound henclosed hmiddle
    have hle := (hs.rest (by omega)
      (hr.rest hbound henclosed hmiddle).2 hrest).1
    omega

theorem Tracks.andThen_advances (hr : Tracks tail bound a b r r')
    (hs : Advances tail bound b c s s') :
    Advances tail bound a c (Recogniser.andThen r s)
      (Recogniser.andThen r' s') where
  toTracks := hr.andThen hs.toTracks
  shorter {tokens rest} hbound henclosed h := by
    obtain ⟨middle, hmiddle, hrest⟩ := Option.bind_eq_some_iff.mp h
    obtain ⟨hle, henclosed⟩ := hr.rest hbound henclosed hmiddle
    have hlt := hs.shorter (Nat.lt_of_le_of_lt hle hbound) henclosed hrest
    exact Nat.lt_of_lt_of_le hlt hle

/-- What would stand behind something that is never found does not matter. -/
theorem Tracks.refused (hr : Tracks tail bound a b r r')
    (hnone : ∀ {tokens}, Encloses a tokens → r tokens = none)
    (s s' : Recogniser) :
    Advances tail bound a c (Recogniser.andThen r s)
      (Recogniser.andThen r' s') where
  same hbound henclosed := by
    simp [Recogniser.andThen, hr.same hbound henclosed, hnone henclosed]
  rest hbound henclosed h := by
    simp [Recogniser.andThen, hnone henclosed] at h
  shorter hbound henclosed h := by
    simp [Recogniser.andThen, hnone henclosed] at h

theorem Tracks.orElse (hr : Tracks tail bound a b r r')
    (hs : Tracks tail bound a b s s') :
    Tracks tail bound a b (orElse r s) (orElse r' s') where
  same {tokens} hbound henclosed := by
    unfold Recogniser.orElse
    rw [hr.same hbound henclosed]
    cases r tokens with
    | none => exact hs.same hbound henclosed
    | some rest => rfl
  rest {tokens rest} hbound henclosed h := by
    unfold Recogniser.orElse at h
    split at h
    · rename_i rest' hrest'
      exact hr.rest hbound henclosed (hrest'.trans h)
    · exact hs.rest hbound henclosed h

theorem Advances.orElse (hr : Advances tail bound a b r r')
    (hs : Advances tail bound a b s s') :
    Advances tail bound a b (orElse r s) (orElse r' s') where
  toTracks := hr.toTracks.orElse hs.toTracks
  shorter {tokens rest} hbound henclosed h := by
    unfold Recogniser.orElse at h
    split at h
    · rename_i rest' hrest'
      exact hr.shorter hbound henclosed (hrest'.trans h)
    · exact hs.shorter hbound henclosed h

theorem Tracks.fail :
    Tracks tail bound a b (fun _ => none) (fun _ => none) where
  same _ _ := rfl
  rest _ _ h := by cases h

/-- A choice by what another recogniser would find. -/
theorem Tracks.ite (hr : Tracks tail bound a b r r')
    (hs : Tracks tail bound a c s s')
    (hother : Tracks tail bound a c other other') :
    Tracks tail bound a c
      (fun tokens => if (r tokens).isSome then s tokens else other tokens)
      (fun tokens => if (r' tokens).isSome then s' tokens else other' tokens)
    where
  same {tokens} hbound henclosed := by
    rw [hr.same hbound henclosed, Option.isSome_map]
    split
    · exact hs.same hbound henclosed
    · exact hother.same hbound henclosed
  rest {tokens rest} hbound henclosed h := by
    split at h
    · exact hs.rest hbound henclosed h
    · exact hother.rest hbound henclosed h

theorem Tracks.ite_prop {p : Prop} [Decidable p]
    (hs : p → Tracks tail bound a b s s')
    (hother : ¬p → Tracks tail bound a b other other') :
    Tracks tail bound a b (fun tokens => if p then s tokens else other tokens)
      fun tokens => if p then s' tokens else other' tokens := by
  by_cases hp : p
  · simpa [hp] using hs hp
  · simpa [hp] using hother hp

theorem branch_eq_ite : branch first second other = fun tokens =>
    if (first tokens).isSome then Recogniser.andThen first second tokens
    else other tokens := by
  funext tokens
  unfold branch Recogniser.andThen
  cases first tokens <;> rfl

theorem Tracks.branch_of (hfirst : Tracks tail bound a b first first')
    (hboth : Tracks tail bound a c (Recogniser.andThen first second)
      (Recogniser.andThen first' second'))
    (hother : Tracks tail bound a c other other') :
    Tracks tail bound a c (branch first second other)
      (branch first' second' other') := by
  rw [branch_eq_ite, branch_eq_ite]
  exact hfirst.ite hboth hother

theorem Tracks.branch (hfirst : Tracks tail bound a b first first')
    (hsecond : Tracks tail bound b c second second')
    (hother : Tracks tail bound a c other other') :
    Tracks tail bound a c (branch first second other)
      (branch first' second' other') :=
  hfirst.branch_of (hfirst.andThen hsecond) hother

theorem Advances.branch (hfirst : Advances tail bound a b first first')
    (hsecond : Tracks tail (bound - 1) b c second second')
    (hother : Advances tail bound a c other other') :
    Advances tail bound a c (branch first second other)
      (branch first' second' other') where
  toTracks := hfirst.toTracks.branch_of
    (hfirst.andThen hsecond).toTracks hother.toTracks
  shorter {tokens rest} hbound henclosed h := by
    simp only [branch_eq_ite] at h
    split at h
    · exact (hfirst.andThen hsecond).shorter hbound henclosed h
    · exact hother.shorter hbound henclosed h

/-- Only what stands behind the first recogniser has fewer tokens. -/
theorem Advances.branch_tracks (hfirst : Advances tail bound a b first first')
    (hsecond : Tracks tail (bound - 1) b c second second')
    (hother : Tracks tail bound a c other other') :
    Tracks tail bound a c (Recogniser.branch first second other)
      (Recogniser.branch first' second' other') :=
  hfirst.toTracks.branch_of (hfirst.andThen hsecond).toTracks hother

theorem Tracks.following (hfirst : Tracks tail bound a b first first')
    (hsecond : Tracks tail bound b a second second') :
    Tracks tail bound a a (following first second) (following first' second') :=
  hfirst.branch hsecond .nothing

/-- The second recogniser is run on fewer tokens than the first. -/
theorem Advances.following (hfirst : Advances tail bound a b first first')
    (hsecond : Tracks tail (bound - 1) b a second second') :
    Tracks tail bound a a (following first second) (following first' second') :=
  hfirst.branch_tracks hsecond .nothing

theorem Tracks.optional (hr : Tracks tail bound a a r r') :
    Tracks tail bound a a (optional r) (optional r') where
  same {tokens} hbound henclosed := by
    unfold Recogniser.optional
    rw [hr.same hbound henclosed]
    cases r tokens <;> rfl
  rest {tokens rest} hbound henclosed h := by
    obtain rfl := Option.some.inj h
    cases htokens : r tokens with
    | none => exact ⟨Nat.le_refl _, henclosed⟩
    | some rest => exact hr.rest hbound henclosed htokens

theorem Tracks.nil : Tracks tail bound a a (sequence []) (sequence []) :=
  .nothing

theorem Tracks.cons (hr : Tracks tail bound a b r r')
    (hrs : Tracks tail bound b c (sequence rs) (sequence rs')) :
    Tracks tail bound a c (sequence (r :: rs)) (sequence (r' :: rs')) :=
  hr.andThen hrs

theorem Advances.cons (hr : Advances tail bound a b r r')
    (hrs : Tracks tail (bound - 1) b c (sequence rs) (sequence rs')) :
    Advances tail bound a c (sequence (r :: rs)) (sequence (r' :: rs')) :=
  hr.andThen hrs

theorem eachFor_cons (lead item : Recogniser) (step : Token)
    (steps tokens : List Token) :
    eachFor lead item (step :: steps) tokens =
      if (lead tokens).isSome then
        (Recogniser.andThen lead item tokens).bind (eachFor lead item steps)
      else some tokens := by
  rw [eachFor]
  unfold Recogniser.andThen
  cases lead tokens <;> rfl

section Loops

variable {lead lead' item item' : Recogniser}

/-- Items end alike, however many more steps there are. -/
theorem eachFor_tracks (hempty : lead [] = none)
    (hlead : Tracks tail bound a b lead lead')
    (hboth : Advances tail bound a a (Recogniser.andThen lead item)
      (Recogniser.andThen lead' item'))
    (steps steps' tokens : List Token) (hbound : tokens.length < bound)
    (henclosed : Encloses a tokens) (hsteps : tokens.length ≤ steps.length)
    (hsteps' : tokens.length ≤ steps'.length) :
    eachFor lead' item' steps' (tokens ++ tail) =
        (eachFor lead item steps tokens).map (· ++ tail) ∧
      ∀ rest, eachFor lead item steps tokens = some rest →
        rest.length ≤ tokens.length ∧ Encloses a rest := by
  induction steps generalizing steps' tokens with
  | nil =>
    obtain rfl := List.eq_nil_of_length_eq_zero (Nat.le_zero.mp hsteps)
    have htail : lead' tail = none := by
      simpa [hempty] using hlead.same hbound henclosed
    constructor
    · cases steps' with
      | nil => rfl
      | cons step' steps' => simp [eachFor, htail]
    · intro rest hrest
      obtain rfl := Option.some.inj hrest
      exact ⟨Nat.le_refl _, henclosed⟩
  | cons step steps ih =>
    rw [eachFor_cons]
    split
    · rename_i hsome
      obtain ⟨token, tokens, rfl⟩ : ∃ token tokens', tokens = token :: tokens' := by
        cases tokens with
        | nil => simp [hempty] at hsome
        | cons token tokens => exact ⟨token, tokens, rfl⟩
      obtain ⟨step', steps', rfl⟩ : ∃ step' steps'', steps' = step' :: steps'' := by
        cases steps' with
        | nil => simp at hsteps'
        | cons step' steps' => exact ⟨step', steps', rfl⟩
      rw [eachFor_cons, hlead.same hbound henclosed, Option.isSome_map,
        if_pos hsome, hboth.same hbound henclosed]
      cases hitem : Recogniser.andThen lead item (token :: tokens) with
      | none => simp
      | some rest =>
        have hlt := hboth.shorter hbound henclosed hitem
        simp only [List.length_cons] at hlt hsteps hsteps'
        have hbound' : rest.length < bound := by
          simp only [List.length_cons] at hbound
          omega
        obtain ⟨hsame, hrest⟩ := ih steps' rest hbound'
          (hboth.rest hbound henclosed hitem).2 (by omega) (by omega)
        refine ⟨hsame, fun rest' hrest' => ?_⟩
        obtain ⟨hle, henclosed'⟩ := hrest rest' hrest'
        exact ⟨by simp only [List.length_cons]; omega, henclosed'⟩
    · rename_i hnone
      constructor
      · cases steps' with
        | nil => rfl
        | cons step' steps' =>
          rw [eachFor_cons, hlead.same hbound henclosed, Option.isSome_map,
            if_neg hnone]
          rfl
      · intro rest hrest
        obtain rfl := Option.some.inj hrest
        exact ⟨Nat.le_refl _, henclosed⟩

theorem Tracks.each (hempty : lead [] = none)
    (hlead : Tracks tail bound a b lead lead')
    (hboth : Advances tail bound a a (Recogniser.andThen lead item)
      (Recogniser.andThen lead' item')) :
    Tracks tail bound a a (each lead item) (each lead' item') where
  same {tokens} hbound henclosed :=
    (eachFor_tracks hempty hlead hboth tokens (tokens ++ tail) tokens hbound
      henclosed (Nat.le_refl _) (by simp)).1
  rest {tokens rest} hbound henclosed h :=
    (eachFor_tracks hempty hlead hboth tokens tokens tokens hbound henclosed
      (Nat.le_refl _) (Nat.le_refl _)).2 rest h

theorem repeatFor_eq_eachFor (r : Recogniser) (steps tokens : List Token) :
    repeatFor r steps tokens = eachFor r nothing steps tokens := by
  induction steps generalizing tokens with
  | nil => rfl
  | cons step steps ih =>
    rw [repeatFor, eachFor]
    cases r tokens with
    | none => rfl
    | some rest => exact ih rest

theorem many_eq_each (r : Recogniser) : many r = each r nothing :=
  funext fun tokens => repeatFor_eq_eachFor r tokens tokens

theorem Tracks.many (hempty : r [] = none)
    (hr : Advances tail bound a a r r') :
    Tracks tail bound a a (many r) (many r') := by
  rw [many_eq_each, many_eq_each]
  exact Tracks.each hempty hr.toTracks (hr.andThen Tracks.nothing)

end Loops

theorem Tracks.separated {lead lead' : Recogniser} (hempty : lead [] = none)
    (hlead : Advances tail bound a a lead lead')
    (hitem : Tracks tail bound a a r r') :
    Tracks tail bound a a (separated lead r) (separated lead' r') :=
  hitem.andThen (.each hempty hlead.toTracks (hlead.andThen hitem.pred))

theorem Advances.separated {lead lead' : Recogniser} (hempty : lead [] = none)
    (hlead : Advances tail (bound - 1) a a lead lead')
    (hitem : Advances tail bound a a r r') :
    Advances tail bound a a (separated lead r) (separated lead' r') :=
  hitem.andThen (.each hempty hlead.toTracks
    (hlead.andThen hitem.toTracks.pred.pred))

end Combinators

/-- A recogniser that reads one token and decides by it how to go on. -/
theorem Advances.of_cons {tail : List Token} {bound a c : Nat}
    {r r' : Recogniser} (hempty : r [] = none)
    (htail : Encloses a [] → r' tail = none)
    (hcons : ∀ token, isKeyword skippingWords token = false →
      (∀ rest, r (token :: rest) = none ∧ r' (token :: rest) = none) ∨
      ∃ b, (∀ rest, Encloses a (token :: rest) → Encloses b rest) ∧
        Tracks tail (bound - 1) b c (fun rest => r (token :: rest))
          fun rest => r' (token :: rest)) :
    Advances tail bound a c r r' where
  same {tokens} hbound henclosed := by
    cases tokens with
    | nil => simp [hempty, htail henclosed]
    | cons token tokens =>
      simp only [List.length_cons] at hbound
      obtain hnone | ⟨b, hrest, htracks⟩ := hcons token henclosed.head_plain
      · simp [hnone tokens, hnone (tokens ++ tail)]
      · exact htracks.same (by omega) (hrest tokens henclosed)
  rest {tokens rest} hbound henclosed h := by
    cases tokens with
    | nil => simp [hempty] at h
    | cons token tokens =>
      simp only [List.length_cons] at hbound
      obtain hnone | ⟨b, hrest, htracks⟩ := hcons token henclosed.head_plain
      · simp [(hnone tokens).1] at h
      · obtain ⟨hle, hafter⟩ :=
          htracks.rest (by omega) (hrest tokens henclosed) h
        exact ⟨Nat.le_succ_of_le hle, hafter⟩
  shorter {tokens rest} hbound henclosed h := by
    cases tokens with
    | nil => simp [hempty] at h
    | cons token tokens =>
      simp only [List.length_cons] at hbound
      obtain hnone | ⟨b, hrest, htracks⟩ := hcons token henclosed.head_plain
      · simp [(hnone tokens).1] at h
      · have hle := (htracks.rest (by omega) (hrest tokens henclosed) h).1
        exact Nat.lt_succ_of_le hle

/-- What is read behind a token that was looked at once more. -/
theorem Advances.after {tail : List Token} {bound depth c : Nat}
    {r r' : Recogniser} {token : Token} (h : Advances tail bound depth c r r')
    (hplain : isKeyword skippingWords token = false)
    (hopen : token ≠ .mark "(") (hclose : token ≠ .mark ")") :
    Tracks tail (bound - 1) depth c (fun rest => r (token :: rest))
      fun rest => r' (token :: rest) where
  same {tokens} hbound henclosed := by
    have hbound' : (token :: tokens).length < bound := by
      simp only [List.length_cons]
      omega
    exact h.same hbound' (henclosed.cons hplain hopen hclose)
  rest {tokens rest} hbound henclosed hrest := by
    have hbound' : (token :: tokens).length < bound := by
      simp only [List.length_cons]
      omega
    have henclosed' := henclosed.cons hplain hopen hclose
    exact ⟨Nat.le_of_lt_succ (h.shorter hbound' henclosed' hrest),
      (h.rest hbound' henclosed' hrest).2⟩

section Primitives

variable {tail : List Token} {bound depth : Nat}

theorem mark_cons (spelling : String) (token : Token) (rest : List Token) :
    mark spelling (token :: rest) =
      if token = .mark spelling then some rest else none :=
  rfl

theorem closing_advances :
    Advances tail bound (depth + 1) depth (mark ")") (mark ")") := by
  refine .of_cons rfl (fun hnil => absurd rfl hnil.ne_nil) fun token _ => ?_
  by_cases htoken : token = .mark ")"
  · subst htoken
    exact .inr ⟨depth, fun rest henclosed => henclosed.of_closing, .nothing⟩
  · exact .inl fun rest => by simp [mark_cons, htoken]

variable [hstops : Stops tail]

/-- A recogniser that goes on by the token it has read, and reads no closing
parenthesis. -/
theorem Advances.of_token {r r' : Recogniser} {a c : Nat}
    (hempty : r [] = none) (hempty' : r' [] = none)
    (hclose : ∀ rest, r' (.mark ")" :: rest) = none)
    (hcons : ∀ token, isKeyword skippingWords token = false →
      (∀ rest, r (token :: rest) = none ∧ r' (token :: rest) = none) ∨
      ∃ b, (∀ rest, Encloses a (token :: rest) → Encloses b rest) ∧
        Tracks tail (bound - 1) b c (fun rest => r (token :: rest))
          fun rest => r' (token :: rest)) :
    Advances tail bound a c r r' := by
  refine .of_cons hempty (fun _ => ?_) hcons
  obtain rfl | ⟨more, rfl⟩ := hstops.eq_nil_or_closing
  · exact hempty'
  · exact hclose more

/-- A recogniser that decides by the first token whether to consume it. -/
theorem Advances.of_one {r : Recogniser} (hempty : r [] = none)
    (hone : ∀ token, (∀ rest, r (token :: rest) = none) ∨
      token ≠ .mark "(" ∧ token ≠ .mark ")" ∧
        ∀ rest, r (token :: rest) = some rest) :
    Advances tail bound depth depth r r := by
  refine .of_token hempty hempty ?_ fun token _ => ?_
  · obtain hnone | ⟨-, hclose, -⟩ := hone (.mark ")")
    · exact hnone
    · exact absurd rfl hclose
  · obtain hnone | ⟨hopen, hclose, hsome⟩ := hone token
    · exact .inl fun rest => ⟨hnone rest, hnone rest⟩
    · refine .inr ⟨depth, fun rest h => h.of_cons hopen hclose, ?_⟩
      simp only [hsome]
      exact .nothing

theorem anyKeyword_advances (names : List String) :
    Advances tail bound depth depth (anyKeyword names) (anyKeyword names) := by
  refine .of_one rfl fun token => ?_
  cases htoken : isKeyword names token with
  | false => exact .inl fun rest => by simp [anyKeyword, htoken]
  | true =>
    refine .inr ⟨?_, ?_, fun rest => by simp [anyKeyword, htoken]⟩
    all_goals
      rintro rfl
      simp [isKeyword, keywordOf] at htoken

theorem keyword_advances (name : String) :
    Advances tail bound depth depth (keyword name) (keyword name) :=
  anyKeyword_advances [name]

theorem keywords_tracks (names : List String) :
    Tracks tail bound depth depth (keywords names) (keywords names) := by
  induction names with
  | nil => exact .nothing
  | cons name names ih => exact (keyword_advances name).toTracks.andThen ih

theorem keywords_advances (name : String) (names : List String) :
    Advances tail bound depth depth (keywords (name :: names))
      (keywords (name :: names)) :=
  (keyword_advances name).andThen (keywords_tracks names)

theorem opening_advances :
    Advances tail bound depth (depth + 1) (mark "(") (mark "(") := by
  refine .of_token rfl rfl (fun rest => rfl) fun token _ => ?_
  by_cases htoken : token = .mark "("
  · subst htoken
    exact .inr ⟨depth + 1, fun rest h => h.of_opening, .nothing⟩
  · exact .inl fun rest => by simp [mark_cons, htoken]

theorem mark_advances {spelling : String} (hopen : spelling ≠ "(")
    (hclose : spelling ≠ ")") :
    Advances tail bound depth depth (mark spelling) (mark spelling) := by
  refine .of_one rfl fun token => ?_
  by_cases htoken : token = .mark spelling
  · subst htoken
    exact .inr ⟨by simpa, by simpa, fun rest => by simp [mark_cons]⟩
  · exact .inl fun rest => by simp [mark_cons, htoken]

theorem name_advances : Advances tail bound depth depth name name := by
  refine .of_one rfl fun token => ?_
  cases token <;> simp [name]

theorem nameOrText_advances :
    Advances tail bound depth depth nameOrText nameOrText := by
  refine .of_one rfl fun token => ?_
  cases token <;> simp [nameOrText, name]

theorem text_advances : Advances tail bound depth depth text text := by
  refine .of_one rfl fun token => ?_
  cases token <;> simp [text]

theorem wholeNumber_advances :
    Advances tail bound depth depth wholeNumber wholeNumber := by
  refine .of_one rfl fun token => ?_
  cases token with
  | number digits isLong =>
    simp only [wholeNumber]
    split <;> simp
  | _ => simp [wholeNumber]

theorem literalText_advances :
    Advances tail bound depth depth literalText literalText := by
  refine .of_one rfl fun token => ?_
  cases token with
  | word w =>
    simp only [literalText, readText?]
    split <;> simp
  | _ => simp [literalText, readText?]

theorem keyword_eq_none {word : String} {tokens : List Token}
    (hword : word ∈ skippingWords) (henclosed : Encloses depth tokens) :
    keyword word tokens = none := by
  cases tokens with
  | nil => rfl
  | cons token tokens =>
    have hplain := henclosed.head_plain
    cases token with
    | word spelling =>
      have hne : Keyword.ofWord spelling ≠ word := by
        rintro rfl
        simp [isKeyword, keywordOf, hword] at hplain
      simp [keyword, isKeyword, keywordOf, hne]
    | _ => rfl

theorem keywords_eq_none {words : List String} {tokens : List Token}
    (hwords : ∃ word ∈ words, word ∈ skippingWords)
    (henclosed : Encloses depth tokens) : keywords words tokens = none := by
  induction words generalizing tokens with
  | nil => simp at hwords
  | cons word words ih =>
    rw [keywords]
    by_cases hword : word ∈ skippingWords
    · rw [keyword_eq_none hword henclosed]
      rfl
    · have hwords' : ∃ word ∈ words, word ∈ skippingWords := by
        simpa [hword] using hwords
      cases htokens : keyword word tokens with
      | none => rfl
      | some rest =>
        have hkeyword : Advances [] (tokens.length + 1) depth depth
            (keyword word) (keyword word) := keyword_advances word
        have hrest := hkeyword.rest (Nat.lt_succ_self _) henclosed htokens
        exact ih hwords' hrest.2

theorem skippingWord_advances {word : String} {after : Nat}
    (hword : word ∈ skippingWords) (s s' : Recogniser) :
    Advances tail bound depth after (andThen (keyword word) s)
      (andThen (keyword word) s') :=
  (keyword_advances word).toTracks.refused
    (fun henclosed => keyword_eq_none hword henclosed) s s'

theorem skippingWords_advances {words : List String} {after : Nat}
    (hwords : ∃ word ∈ words, word ∈ skippingWords) (s s' : Recogniser) :
    Advances tail bound depth after (andThen (keywords words) s)
      (andThen (keywords words) s') :=
  (keywords_tracks words).refused
    (fun henclosed => keywords_eq_none hwords henclosed) s s'

theorem commaList_tracks {r r' : Recogniser}
    (hr : Tracks tail bound depth depth r r') :
    Tracks tail bound depth depth (commaList r) (commaList r') :=
  .separated rfl (mark_advances (by decide) (by decide)) hr

theorem parenthesised_advances {r r' : Recogniser}
    (hr : Tracks tail (bound - 1) (depth + 1) (depth + 1) r r') :
    Advances tail bound depth depth (parenthesised r) (parenthesised r') :=
  opening_advances.cons (hr.cons (closing_advances.toTracks.cons .nil))

theorem objectName_advances :
    Advances tail bound depth depth objectName objectName :=
  nameOrText_advances.andThen
    (.each rfl (mark_advances (by decide) (by decide)).toTracks
      ((mark_advances (by decide) (by decide)).andThen
        nameOrText_advances.toTracks))

theorem columnList_advances :
    Advances tail bound depth depth columnList columnList :=
  parenthesised_advances (commaList_tracks nameOrText_advances.toTracks)

theorem optionalColumnList_tracks :
    Tracks tail bound depth depth optionalColumnList optionalColumnList :=
  opening_advances.following
    ((commaList_tracks nameOrText_advances.toTracks).andThen
      closing_advances.toTracks)

end Primitives

end GovernedCatalog.Sql.Recogniser
