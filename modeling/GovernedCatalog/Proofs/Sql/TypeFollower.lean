import GovernedCatalog.Proofs.Sql.Follower
import GovernedCatalog.Proofs.Sql.TypeName

/-!
# Names of data types before what follows them

Tokens that are one type are also read as that type before any token that can
stand behind a type.  Brackets behind the type make an array type of it.
-/

namespace GovernedCatalog.Sql.Recogniser

/-- What stands behind a type: brackets, or what does not continue it. -/
abbrev FollowsType : List Token → Prop := HeadIn (.mark "[" :: followers)

/-- The recogniser does the same before the tail. -/
def Local (tail : List Token) (r : Recogniser) : Prop :=
  ∀ tokens, r (tokens ++ tail) = (r tokens).map (· ++ tail)

/-- What the recogniser reads it also reads before the tail. -/
def Keeps (tail : List Token) (r : Recogniser) : Prop :=
  ∀ tokens rest, r tokens = some rest → r (tokens ++ tail) = some (rest ++ tail)

/-- The same where the recogniser leaves a token. -/
def KeepsInside (tail : List Token) (r : Recogniser) : Prop :=
  ∀ tokens rest, rest ≠ [] → r tokens = some rest →
    r (tokens ++ tail) = some (rest ++ tail)

section Combinators

variable {tail : List Token} {r s other : Recogniser}

theorem Local.keeps (h : Local tail r) : Keeps tail r := by
  intro tokens rest hrest
  rw [h, hrest]
  rfl

theorem Keeps.nothing : Keeps tail nothing := by
  intro tokens rest h
  cases h
  rfl

theorem Keeps.andThen (hr : Keeps tail r) (hs : Keeps tail s) :
    Keeps tail (andThen r s) := by
  intro tokens rest h
  obtain ⟨middle, hmiddle, hrest⟩ := Option.bind_eq_some_iff.1 h
  unfold Recogniser.andThen
  rw [hr _ _ hmiddle]
  exact hs _ _ hrest

theorem Keeps.andThen_inside (hr : Keeps tail r) (hs : KeepsInside tail s) :
    KeepsInside tail (Recogniser.andThen r s) := by
  intro tokens rest hne h
  obtain ⟨middle, hmiddle, hrest⟩ := Option.bind_eq_some_iff.1 h
  unfold Recogniser.andThen
  rw [hr _ _ hmiddle]
  exact hs _ _ hne hrest

theorem single_keeps (good : Token → Bool) : Keeps tail (single good) :=
  fun _ _ h => single_append_of_eq_some h tail

theorem mark_keeps (spelling : String) : Keeps tail (mark spelling) := by
  rw [mark_eq_single]
  exact single_keeps _

/-- A mark behind what leaves a token is not in the tail. -/
theorem KeepsInside.before_mark (hr : KeepsInside tail r) (spelling : String) :
    Keeps tail (Recogniser.andThen r (mark spelling)) := by
  intro tokens rest h
  obtain ⟨middle, hmiddle, hrest⟩ := Option.bind_eq_some_iff.1 h
  have hne : middle ≠ [] := by
    rintro rfl
    cases hrest
  unfold Recogniser.andThen
  rw [hr _ _ hne hmiddle]
  exact mark_keeps _ _ _ hrest

theorem sequence_pair (r s : Recogniser) :
    sequence [r, s] = Recogniser.andThen r s := by
  have hs : sequence [s] = s := by
    funext tokens
    simp [sequence]
  funext tokens
  exact congrArg (r tokens).bind hs

theorem Local.branch (hr : Local tail r) (hs : Keeps tail s)
    (hother : Keeps tail other) : Keeps tail (branch r s other) := by
  intro tokens rest h
  unfold Recogniser.branch at h ⊢
  rw [hr]
  cases htokens : r tokens with
  | none =>
      rw [htokens] at h
      exact hother _ _ h
  | some middle =>
      rw [htokens] at h
      exact hs _ _ h

theorem Local.following (hr : Local tail r) (hs : Keeps tail s) :
    Keeps tail (following r s) :=
  hr.branch hs .nothing

theorem Local.optional (hr : Local tail r) : Keeps tail (optional r) := by
  intro tokens rest h
  cases h
  unfold Recogniser.optional
  rw [hr]
  cases r tokens <;> rfl

end Combinators

section Repetitions

variable {tail : List Token} {lead item good : Token → Bool}

/-- Single items with single tokens between them: if nothing is left of the
tokens the items go on behind them.  How many steps there are does not matter,
as long as there are enough. -/
theorem eachFor_single_append {steps steps' tokens rest result : List Token}
    (h : eachFor (single lead) (single item) steps tokens = some rest)
    (hleft : rest ≠ [] → result = rest ++ tail)
    (hall : rest = [] → ∀ steps' : List Token, tail.length ≤ steps'.length →
      eachFor (single lead) (single item) steps' tail = some result)
    (hsteps : tokens.length ≤ steps.length)
    (hsteps' : (tokens ++ tail).length ≤ steps'.length) :
    eachFor (single lead) (single item) steps' (tokens ++ tail) =
      some result := by
  induction steps generalizing steps' tokens with
  | nil =>
      obtain rfl := List.eq_nil_of_length_eq_zero (Nat.le_zero.1 hsteps)
      cases h
      exact hall rfl steps' hsteps'
  | cons step steps ih =>
      cases tokens with
      | nil =>
          cases h
          exact hall rfl steps' hsteps'
      | cons t tokens =>
          obtain ⟨step', steps', rfl⟩ :=
            List.exists_cons_of_length_pos (Nat.lt_of_lt_of_le (by simp) hsteps')
          by_cases ht : lead t
          · cases tokens with
            | nil => simp [eachFor, single, ht] at h
            | cons u tokens =>
                by_cases hu : item u
                · simp only [List.length_cons, List.length_append] at hsteps hsteps'
                  have hrest : eachFor (single lead) (single item) steps tokens =
                      some rest := by simpa [eachFor, single, ht, hu] using h
                  have hnext : eachFor (single lead) (single item) steps'
                      (tokens ++ tail) = some result :=
                    ih hrest (by omega) (by simp only [List.length_append]; omega)
                  simpa [eachFor, single, ht, hu] using hnext
                · simp [eachFor, single, ht, hu] at h
          · obtain rfl : t :: tokens = rest := by
              simpa [eachFor, single, ht] using h
            simp [eachFor, single, ht, hleft]

theorem eachFor_single_stop (hlead : ∀ t ∈ tail.head?, lead t = false)
    (steps : List Token) :
    eachFor (single lead) (single item) steps tail = some tail := by
  cases steps <;> simp [eachFor, single_eq_none hlead]

theorem separated_single_keeps (hlead : ∀ t ∈ tail.head?, lead t = false) :
    Keeps tail (separated (single lead) (single item)) := by
  apply (single_keeps item).andThen
  intro tokens rest h
  apply eachFor_single_append h (fun _ => rfl) _ (Nat.le_refl _) (Nat.le_refl _)
  rintro rfl steps -
  exact eachFor_single_stop hlead steps

theorem separated_single_inside :
    KeepsInside tail (separated (single lead) (single item)) := by
  apply (single_keeps item).andThen_inside
  intro tokens rest hne h
  exact eachFor_single_append h (fun _ => rfl) (fun hnil => absurd hnil hne)
    (Nat.le_refl _) (Nat.le_refl _)

theorem repeatFor_single_append {steps steps' tokens rest : List Token}
    (h : repeatFor (single good) steps tokens = some rest) (hne : rest ≠ [])
    (hsteps : tokens.length ≤ steps.length)
    (hsteps' : tokens.length ≤ steps'.length) :
    repeatFor (single good) steps' (tokens ++ tail) = some (rest ++ tail) := by
  induction steps generalizing steps' tokens with
  | nil =>
      obtain rfl := List.eq_nil_of_length_eq_zero (Nat.le_zero.1 hsteps)
      cases h
      exact absurd rfl hne
  | cons step steps ih =>
      cases tokens with
      | nil =>
          cases h
          exact absurd rfl hne
      | cons t tokens =>
          obtain ⟨step', steps', rfl⟩ :=
            List.exists_cons_of_length_pos (Nat.lt_of_lt_of_le (by simp) hsteps')
          by_cases ht : good t
          · simp only [List.length_cons] at hsteps hsteps'
            have hrest : repeatFor (single good) steps tokens = some rest := by
              simpa [repeatFor, single, ht] using h
            have hnext : repeatFor (single good) steps' (tokens ++ tail) =
                some (rest ++ tail) := ih hrest (by omega) (by omega)
            simpa [repeatFor, single, ht] using hnext
          · obtain rfl : t :: tokens = rest := by
              simpa [repeatFor, single, ht] using h
            simp [repeatFor, single, ht]

theorem many_inside {r : Recogniser} (hnil : r [] = none)
    (h : ∀ t, (∀ rest, r (t :: rest) = none) ∨
      ∀ rest, r (t :: rest) = some rest) : KeepsInside tail (many r) := by
  rw [eq_single hnil h]
  exact fun _ _ hne h =>
    repeatFor_single_append h hne (Nat.le_refl _) (by simp)

end Repetitions

/-! ## Parts of types -/

section Parts

variable {tail : List Token} (htail : FollowsType tail)

include htail

/-- No word that continues a type stands behind one. -/
theorem anyKeyword_local (names : List String)
    (hnames : ∀ t ∈ .mark "[" :: followers, isKeyword names t = false) :
    Local tail (anyKeyword names) := by
  rw [anyKeyword_eq_single]
  exact single_append fun t ht => hnames t (htail t ht)

theorem keyword_local (name : String)
    (hname : ∀ t ∈ .mark "[" :: followers, isKeyword [name] t = false) :
    Local tail (keyword name) :=
  anyKeyword_local htail [name] hname

theorem mark_local (spelling : String)
    (hspelling : Token.mark spelling ∉ .mark "[" :: followers) :
    Local tail (mark spelling) := by
  rw [mark_eq_single]
  apply single_append
  intro t ht
  simp only [decide_eq_false_iff_not]
  rintro rfl
  exact hspelling (htail _ ht)

theorem keywords_local (names : List String)
    (hnames : ∀ name ∈ names, ∀ t ∈ .mark "[" :: followers,
      isKeyword [name] t = false) : Local tail (keywords names) := by
  intro tokens
  induction names generalizing tokens with
  | nil => rfl
  | cons name names ih =>
      obtain ⟨hname, hnames⟩ := List.forall_mem_cons.1 hnames
      simp only [keywords, keyword_local htail name hname tokens]
      cases keyword name tokens with
      | none => rfl
      | some rest => exact ih hnames rest

omit htail in
theorem wholeNumber_keeps : Keeps tail wholeNumber := by
  intro tokens rest h
  cases tokens with
  | nil => cases h
  | cons t tokens => cases t <;> simp_all [wholeNumber]

theorem opening_local : Local tail (mark "(") :=
  mark_local htail "(" (by decide)

theorem precision_keeps : Keeps tail precision :=
  (opening_local htail).following (wholeNumber_keeps.andThen (mark_keeps _))

theorem characterLength_keeps : Keeps tail characterLength := by
  have hunit : Keeps tail (optional (anyKeyword ["CHARACTERS", "OCTETS"])) :=
    (anyKeyword_local htail _ (by decide +kernel)).optional
  have hlength := (keyword_local htail "MAX" (by decide +kernel)).branch .nothing
    (wholeNumber_keeps.andThen hunit)
  exact (opening_local htail).following (hlength.andThen (mark_keeps _))

omit htail in
/-- A second number and the closing parenthesis. -/
theorem scale_keeps :
    Keeps tail (sequence [following (mark ",") wholeNumber, mark ")"]) := by
  have hscale : KeepsInside tail (following (mark ",") wholeNumber) := by
    intro tokens rest hne h
    cases tokens with
    | nil =>
        cases h
        exact absurd rfl hne
    | cons t tokens =>
        unfold following branch at h ⊢
        by_cases ht : t = .mark ","
        · subst ht
          exact wholeNumber_keeps _ _ h
        · have hmark (tokens : List Token) : mark "," (t :: tokens) = none := by
            simp [mark, ht]
          rw [hmark] at h
          cases h
          rw [List.cons_append, hmark]
          rfl
  rw [sequence_pair]
  exact hscale.before_mark _

theorem precisionAndScale_keeps : Keeps tail precisionAndScale :=
  (opening_local htail).following (wholeNumber_keeps.andThen scale_keeps)

theorem timeZone_keeps : Keeps tail timeZone :=
  (anyKeyword_local htail _ (by decide +kernel)).following
    (keywords_local htail _ (by decide +kernel)).keeps

theorem character_keeps : Keeps tail character :=
  (keyword_local htail _ (by decide +kernel)).branch
    (characterLength_keeps htail)
    ((keywords_local htail _ (by decide +kernel)).branch (precision_keeps htail)
      (characterLength_keeps htail))

omit htail in
theorem enumeration_keeps :
    Keeps tail (parenthesised (commaList text)) := by
  have htext := eq_single (r := text) rfl fun t => by cases t <;> simp [text]
  have hlist : KeepsInside tail (commaList text) := by
    rw [commaList, htext, mark_eq_single]
    exact separated_single_inside
  have hclosed : Keeps tail (sequence [commaList text, mark ")"]) := by
    rw [sequence_pair]
    exact hlist.before_mark _
  exact (mark_keeps _).andThen hclosed

theorem afterTypeWord_keeps {word : String} {r : Recogniser}
    (h : afterTypeWord word = some r) : Keeps tail r := by
  unfold afterTypeWord at h
  split at h
  · cases h
    exact .nothing
  split at h
  · cases h
    exact precision_keeps htail
  split at h
  · cases h
    exact (precision_keeps htail).andThen
      (keyword_local htail _ (by decide +kernel)).optional
  split at h
  · cases h
    exact precisionAndScale_keeps htail
  split at h
  · cases h
    exact (precision_keeps htail).andThen (timeZone_keeps htail)
  split at h <;> cases h
  · exact (keyword_local htail _ (by decide +kernel)).optional
  · exact characterLength_keeps htail
  · exact character_keeps htail
  · exact character_keeps htail
  · exact enumeration_keeps
  · exact enumeration_keeps

theorem objectName_keeps : Keeps tail objectName := by
  have hname := eq_single (r := nameOrText) rfl fun t => by
    cases t <;> simp [nameOrText, name]
  rw [objectName, hname, mark_eq_single]
  apply separated_single_keeps
  intro t ht
  have hpoint : Token.mark "." ∉ .mark "[" :: followers := by decide
  simp only [decide_eq_false_iff_not]
  rintro rfl
  exact hpoint (htail _ ht)

theorem typeModifiers_keeps : Keeps tail typeModifiers := by
  apply (opening_local htail).following
  apply KeepsInside.before_mark
  apply many_inside rfl
  intro t
  cases t with
  | mark spelling => by_cases hcomma : spelling = "," <;> simp [hcomma]
  | _ => simp

theorem userType_keeps : Keeps tail (andThen objectName typeModifiers) :=
  (objectName_keeps htail).andThen (typeModifiers_keeps htail)

end Parts

/-! ## Types -/

/-- The same reading with more tokens behind it. -/
def TypeReading.before (type : TypeReading) (tail : List Token) : TypeReading :=
  { type with rest := type.rest ++ tail }

/-- A pair of brackets and what stands behind it. -/
def bracketsThen (tail : List Token) : List Token :=
  .mark "[" :: .mark "]" :: tail

section Types

variable {tail : List Token} (htail : Follows tail)

include htail

theorem no_bracket : ∀ t ∈ tail.head?, decide (t = .mark "[") = false := by
  intro t ht
  have hbracket : Token.mark "[" ∉ followers := by decide
  simp only [decide_eq_false_iff_not]
  rintro rfl
  exact hbracket (htail _ ht)

theorem followsType_of_follows : FollowsType tail :=
  htail.mono fun _ => List.mem_cons_of_mem _

theorem arraySuffix_of_follows {type : TypeReading} (hrest : type.rest = tail) :
    arraySuffix type = some type := by
  obtain ⟨kind, endsOuter, rest⟩ := type
  subst hrest
  cases rest with
  | nil => rfl
  | cons t rest =>
      have ht := no_bracket htail t (by simp)
      simp only [decide_eq_false_iff_not] at ht
      unfold arraySuffix
      split
      next heq => exact absurd (List.cons.inj heq).1 ht
      next => rfl

theorem brackets_keep :
    Keeps tail (separated (mark "[") (mark "]")) := by
  rw [mark_eq_single, mark_eq_single]
  exact separated_single_keeps (no_bracket htail)

omit htail in
theorem arraySuffix_before {base type : TypeReading}
    (h : arraySuffix base = some type)
    (hends : type.rest = [] → Follows tail) :
    arraySuffix (base.before tail) = some (type.before tail) := by
  obtain ⟨kind, endsOuter, rest⟩ := base
  unfold arraySuffix at h
  split at h
  next rest' heq =>
    dsimp only at heq h
    subst heq
    obtain ⟨rest'', hread, rfl⟩ := Option.map_eq_some_iff.1 h
    have hbrackets : separated (mark "[") (mark "]") (rest' ++ tail) =
        some (rest'' ++ tail) := by
      by_cases hnil : rest'' = []
      · exact brackets_keep (hends hnil) _ _ hread
      · rw [mark_eq_single, mark_eq_single] at hread ⊢
        exact separated_single_inside _ _ hnil hread
    simp only [TypeReading.before, List.cons_append, arraySuffix, hbrackets,
      Option.map_some]
  next hother =>
    cases h
    cases rest with
    | nil => exact arraySuffix_of_follows (hends rfl) rfl
    | cons t rest =>
        unfold arraySuffix TypeReading.before
        split
        next rest' heq =>
          exact absurd (by rw [(List.cons.inj heq).1]) (hother rest)
        next => rfl

theorem brackets_then {tokens : List Token}
    (h : each (mark "[") (mark "]") tokens = some []) :
    each (mark "[") (mark "]") (tokens ++ bracketsThen tail) = some tail := by
  rw [mark_eq_single, mark_eq_single] at h ⊢
  apply eachFor_single_append h (fun hne => absurd rfl hne) _ (Nat.le_refl _)
    (Nat.le_refl _)
  rintro - steps hsteps
  have hpos : 0 < steps.length :=
    Nat.lt_of_lt_of_le (by simp [bracketsThen]) hsteps
  obtain ⟨step, steps, rfl⟩ := List.exists_cons_of_length_pos hpos
  simpa [bracketsThen, eachFor, single] using
    eachFor_single_stop (no_bracket htail) steps

theorem arraySuffix_bracketsThen {base type : TypeReading}
    (h : arraySuffix base = some type) (hrest : type.rest = []) :
    arraySuffix (base.before (bracketsThen tail)) =
      some ⟨.builtin, type.endsOuter, tail⟩ := by
  obtain ⟨kind, endsOuter, rest⟩ := base
  unfold arraySuffix at h
  split at h
  next rest' heq =>
    dsimp only at heq h
    subst heq
    obtain ⟨rest'', hread, rfl⟩ := Option.map_eq_some_iff.1 h
    dsimp only at hrest
    subst hrest
    obtain ⟨middle, hmiddle, heach⟩ := Option.bind_eq_some_iff.1 hread
    have hclosed : separated (mark "[") (mark "]")
        (rest' ++ bracketsThen tail) = some tail := by
      unfold separated Recogniser.andThen
      rw [mark_keeps _ _ _ hmiddle]
      exact brackets_then htail heach
    simp only [TypeReading.before, List.cons_append, arraySuffix, hclosed,
      Option.map_some]
  next =>
    cases h
    dsimp only at hrest
    subst hrest
    have hclosed : separated (mark "[") (mark "]") (.mark "]" :: tail) =
        some tail := brackets_keep htail [.mark "]"] [] rfl
    simp only [TypeReading.before, bracketsThen, List.nil_append, arraySuffix,
      hclosed, Option.map_some]

end Types

/-- A token begins no type, an array type, or a type that depends on what
stands behind it only as far as it goes. -/
theorem baseType_cases (token : Token) :
    (∀ inner rest, baseType inner token rest = none) ∨
      (∀ inner rest, baseType inner token rest =
        (mark "<" rest).bind fun tokens => (inner tokens).bind closeArray) ∨
      ∃ kind r, (∀ tail, FollowsType tail → Keeps tail r) ∧
        ∀ inner rest, baseType inner token rest =
          (r rest).map fun rest' => ⟨kind, false, rest'⟩ := by
  have huser : ∀ tail, FollowsType tail → Keeps tail fun rest =>
      andThen objectName typeModifiers (token :: rest) :=
    fun tail htail tokens => userType_keeps htail (token :: tokens)
  cases token with
  | word w =>
      simp only [baseType]
      generalize Keyword.ofWord w = k
      by_cases hk : k = "ARRAY"
      · subst hk
        exact .inr (.inl fun inner rest => rfl)
      cases hr : afterTypeWord k with
      | none =>
          exact .inr (.inr ⟨.custom, _, huser, fun inner rest => by simp only [hr]⟩)
      | some r =>
          exact .inr (.inr ⟨if k = "INTERVAL" then .interval else .builtin, r,
            fun tail htail => afterTypeWord_keeps htail hr,
            fun inner rest => by simp only [hr]⟩)
  | quoted quote name => exact .inr (.inr ⟨_, _, huser, fun inner rest => rfl⟩)
  | _ => exact .inl fun inner rest => rfl

theorem closeArray_before {element type : TypeReading}
    (h : closeArray element = some type) (tail : List Token) :
    closeArray (element.before tail) = some (type.before tail) := by
  obtain ⟨kind, endsOuter, rest⟩ := element
  cases endsOuter with
  | true =>
      cases h
      rfl
  | false =>
      simp only [closeArray, Bool.false_eq_true, if_false] at h
      split at h <;> cases h <;> rfl

/-- The bracket that closes an array is there, or the type of its elements has
taken it. -/
theorem closeArray_of_rest_nil {element type : TypeReading}
    (h : closeArray element = some type) (hrest : element.rest = []) :
    element.endsOuter = true ∧ type = ⟨.builtin, false, []⟩ := by
  obtain ⟨kind, endsOuter, rest⟩ := element
  subst hrest
  cases endsOuter with
  | true =>
      cases h
      exact ⟨rfl, rfl⟩
  | false => cases h

/-- What a reader of types does before what stands behind a type. -/
structure ReadsBefore (reading : List Token → Option TypeReading)
    (type : TypeReading) : Prop where
  before : ∀ tail, FollowsType tail → (type.rest = [] → Follows tail) →
    reading tail = some (type.before tail)
  brackets : type.rest = [] → ∀ tail, Follows tail →
    reading (bracketsThen tail) = some ⟨.builtin, type.endsOuter, tail⟩

section Readers

variable {inner inner' : List Token → Option TypeReading} {token : Token}
  {rest : List Token} {base : TypeReading}
  (hinner : ∀ tokens type, inner tokens = some type →
    ReadsBefore (fun tail => inner' (tokens ++ tail)) type)
  (h : baseType inner token rest = some base)

include hinner h

theorem baseType_before {tail : List Token} (htail : FollowsType tail)
    (hends : base.rest = [] → Follows tail) :
    baseType inner' token (rest ++ tail) = some (base.before tail) := by
  rcases baseType_cases token with hnone | harray | ⟨kind, r, hr, hread⟩
  · rw [hnone] at h
    cases h
  · rw [harray] at h ⊢
    obtain ⟨tokens, htokens, h⟩ := Option.bind_eq_some_iff.1 h
    obtain ⟨element, helement, hclose⟩ := Option.bind_eq_some_iff.1 h
    have hbefore : inner' (tokens ++ tail) = some (element.before tail) := by
      apply (hinner _ _ helement).before tail htail
      intro hrest
      exact hends (by rw [(closeArray_of_rest_nil hclose hrest).2])
    rw [mark_keeps _ _ _ htokens, Option.bind_some, hbefore, Option.bind_some]
    exact closeArray_before hclose tail
  · rw [hread] at h ⊢
    obtain ⟨rest', hrest', rfl⟩ := Option.map_eq_some_iff.1 h
    rw [hr tail htail _ _ hrest']
    rfl

/-- Brackets behind a type are left behind it, unless the elements of an array
take them. -/
theorem baseType_bracketsThen {tail : List Token} (htail : Follows tail) :
    baseType inner' token (rest ++ bracketsThen tail) =
        some (base.before (bracketsThen tail)) ∨
      base = ⟨.builtin, false, []⟩ ∧
        baseType inner' token (rest ++ bracketsThen tail) =
          some ⟨.builtin, false, tail⟩ := by
  have hbrackets : FollowsType (bracketsThen tail) := by simp [bracketsThen]
  rcases baseType_cases token with hnone | harray | ⟨kind, r, hr, hread⟩
  · rw [hnone] at h
    cases h
  · rw [harray] at h ⊢
    obtain ⟨tokens, htokens, h⟩ := Option.bind_eq_some_iff.1 h
    obtain ⟨element, helement, hclose⟩ := Option.bind_eq_some_iff.1 h
    rw [mark_keeps _ _ _ htokens, Option.bind_some]
    by_cases hrest : element.rest = []
    · obtain ⟨hends, rfl⟩ := closeArray_of_rest_nil hclose hrest
      have hread := (hinner _ _ helement).brackets hrest tail htail
      rw [hread, hends]
      exact .inr ⟨rfl, rfl⟩
    · have hread := (hinner _ _ helement).before _ hbrackets
        fun hnil => absurd hnil hrest
      rw [hread]
      exact .inl (closeArray_before hclose _)
  · rw [hread] at h ⊢
    obtain ⟨rest', hrest', rfl⟩ := Option.map_eq_some_iff.1 h
    rw [hr _ hbrackets _ _ hrest']
    exact .inl rfl

end Readers

theorem readTypeFor_before {steps steps' tokens : List Token}
    {type : TypeReading} (h : readTypeFor steps tokens = some type)
    (hsteps : steps.length ≤ steps'.length) :
    ReadsBefore (fun tail => readTypeFor steps' (tokens ++ tail)) type := by
  induction steps generalizing steps' tokens type with
  | nil => cases tokens <;> cases h
  | cons step steps ih =>
      obtain ⟨step', steps', rfl⟩ :=
        List.exists_cons_of_length_pos (Nat.lt_of_lt_of_le (by simp) hsteps)
      cases tokens with
      | nil => cases h
      | cons token rest =>
          simp only [List.length_cons, Nat.add_le_add_iff_right] at hsteps
          rw [readTypeFor_cons] at h
          obtain ⟨base, hbase, hsuffix⟩ := Option.bind_eq_some_iff.1 h
          have hinner (tokens : List Token) (type : TypeReading)
              (h : readTypeFor steps tokens = some type) :
              ReadsBefore (fun tail => readTypeFor steps' (tokens ++ tail))
                type := ih h hsteps
          constructor
          · intro tail htail hends
            have hbase' : baseType (readTypeFor steps') token (rest ++ tail) =
                some (base.before tail) := by
              apply baseType_before hinner hbase htail
              intro hnil
              rw [arraySuffix_of_follows (headIn_nil _) hnil] at hsuffix
              cases hsuffix
              exact hends hnil
            rw [List.cons_append, readTypeFor_cons, hbase', Option.bind_some]
            exact arraySuffix_before hsuffix hends
          · intro hends tail htail
            rw [List.cons_append, readTypeFor_cons]
            rcases baseType_bracketsThen hinner hbase htail with
              hread | ⟨rfl, hread⟩
            · rw [hread, Option.bind_some]
              exact arraySuffix_bracketsThen htail hsuffix hends
            · cases hsuffix
              rw [hread, Option.bind_some]
              exact arraySuffix_of_follows htail rfl

theorem typeName_eq_nil {tokens : List Token} :
    typeName tokens = some [] ↔
      ∃ kind, readTypeFor tokens tokens = some ⟨kind, false, []⟩ := by
  have hread : readType tokens = (readTypeFor tokens tokens).bind fun type =>
      if type.endsOuter then none else some (type.kind, type.rest) := rfl
  simp only [typeName, hread]
  constructor
  · intro h
    obtain ⟨⟨kind, rest⟩, hkind, rfl⟩ := Option.map_eq_some_iff.1 h
    obtain ⟨⟨kind', endsOuter, rest'⟩, htype, hends⟩ :=
      Option.bind_eq_some_iff.1 hkind
    cases endsOuter <;> cases hends
    exact ⟨kind', htype⟩
  · rintro ⟨kind, hkind⟩
    rw [hkind]
    rfl

/-- Tokens that are one type are read as it before what follows a type. -/
theorem typeName_before {tokens tail : List Token}
    (h : typeName tokens = some []) (htail : Follows tail) :
    typeName (tokens ++ tail) = some tail ∧
      typeName (tokens ++ bracketsThen tail) = some tail := by
  obtain ⟨kind, hread⟩ := typeName_eq_nil.1 h
  have hbefore (tail : List Token) :
      ReadsBefore (fun tail' =>
        readTypeFor (tokens ++ tail) (tokens ++ tail')) ⟨kind, false, []⟩ :=
    readTypeFor_before hread (by simp)
  constructor
  · have htype := (hbefore tail).before tail (followsType_of_follows htail)
      fun _ => htail
    simp [typeName, readType, htype, TypeReading.before]
  · have htype := (hbefore (bracketsThen tail)).brackets rfl tail htail
    simp [typeName, readType, htype]

end GovernedCatalog.Sql.Recogniser
