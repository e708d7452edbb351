import GovernedCatalog.Proofs.Sql.Recogniser
import GovernedCatalog.Sql.TypeName

/-!
# Names of data types before a closing parenthesis

The brackets of a type's name are its own, so the parenthesis behind it is not
taken for one of them.
-/

namespace GovernedCatalog.Sql.Recogniser

variable {tail : List Token} [hstops : Stops tail] {bound depth : Nat}

theorem precision_tracks :
    Tracks tail bound depth depth precision precision :=
  opening_advances.following
    (wholeNumber_advances.toTracks.andThen closing_advances.toTracks)

theorem characterLength_tracks :
    Tracks tail bound depth depth characterLength characterLength := by
  have hunit : Tracks tail (bound - 1) (depth + 1) (depth + 1)
      (optional (anyKeyword ["CHARACTERS", "OCTETS"]))
      (optional (anyKeyword ["CHARACTERS", "OCTETS"])) :=
    (anyKeyword_advances _).toTracks.optional
  have hlength := (keyword_advances "MAX").toTracks.branch .nothing
    (wholeNumber_advances.toTracks.andThen hunit)
  exact opening_advances.following (hlength.andThen closing_advances.toTracks)

theorem precisionAndScale_tracks :
    Tracks tail bound depth depth precisionAndScale precisionAndScale := by
  have hscale : Tracks tail (bound - 1) (depth + 1) (depth + 1)
      (following (mark ",") wholeNumber) (following (mark ",") wholeNumber) :=
    (mark_advances (by decide) (by decide)).toTracks.following
      wholeNumber_advances.toTracks
  exact opening_advances.following
    (wholeNumber_advances.toTracks.cons
      (hscale.cons (closing_advances.toTracks.cons .nil)))

theorem timeZone_tracks : Tracks tail bound depth depth timeZone timeZone :=
  (anyKeyword_advances _).toTracks.following (keywords_tracks _)

theorem character_tracks : Tracks tail bound depth depth character character :=
  (keyword_advances "VARYING").toTracks.branch characterLength_tracks
    ((keywords_tracks _).branch precision_tracks characterLength_tracks)

theorem enumeration_tracks :
    Tracks tail bound depth depth (parenthesised (commaList text))
      (parenthesised (commaList text)) :=
  (parenthesised_advances (commaList_tracks text_advances.toTracks)).toTracks

theorem afterTypeWord_tracks {word : String} {r : Recogniser}
    (h : afterTypeWord word = some r) : Tracks tail bound depth depth r r := by
  unfold afterTypeWord at h
  split at h
  · cases h
    exact .nothing
  split at h
  · cases h
    exact precision_tracks
  split at h
  · cases h
    exact precision_tracks.andThen (keyword_advances _).toTracks.optional
  split at h
  · cases h
    exact precisionAndScale_tracks
  split at h
  · cases h
    exact precision_tracks.andThen timeZone_tracks
  split at h <;> cases h
  · exact (keyword_advances _).toTracks.optional
  · exact characterLength_tracks
  · exact character_tracks
  · exact character_tracks
  · exact enumeration_tracks
  · exact enumeration_tracks

theorem typeModifiers_tracks :
    Tracks tail bound depth depth typeModifiers typeModifiers := by
  refine opening_advances.following
    (Tracks.andThen (.many rfl (.of_one rfl fun token => ?_))
      closing_advances.toTracks)
  cases token with
  | mark spelling =>
    by_cases hcomma : spelling = ","
    · subst hcomma
      exact .inr ⟨by decide, by decide, fun rest => rfl⟩
    · exact .inl fun rest => by simp [hcomma]
  | _ => simp

/-- A reading before a closing parenthesis, and what it leaves. -/
structure SameType (tail : List Token) (length depth : Nat)
    (reading reading' : Option TypeReading) : Prop where
  same : reading' = reading.map fun type =>
    { type with rest := type.rest ++ tail }
  rest : ∀ {type}, reading = some type →
    type.rest.length ≤ length ∧ Encloses depth type.rest

namespace SameType

variable {length length' : Nat} {reading reading' : Option TypeReading}

omit hstops in
theorem none : SameType tail length depth .none .none :=
  ⟨rfl, fun h => by cases h⟩

omit hstops in
theorem some {type : TypeReading} (hle : type.rest.length ≤ length)
    (henclosed : Encloses depth type.rest) :
    SameType tail length depth (.some type)
      (.some { type with rest := type.rest ++ tail }) :=
  ⟨rfl, fun h => by cases h; exact ⟨hle, henclosed⟩⟩

omit hstops in
theorem of_tracks {r r' : Recogniser} {tokens : List Token}
    (hr : ∀ {bound}, Tracks tail bound depth depth r r')
    (henclosed : Encloses depth tokens)
    (hle : ∀ {rest}, r tokens = .some rest → rest.length ≤ length)
    (kind : TypeKind) (endsOuter : Bool) :
    SameType tail length depth
      ((r tokens).map fun rest => ⟨kind, endsOuter, rest⟩)
      ((r' (tokens ++ tail)).map fun rest => ⟨kind, endsOuter, rest⟩) := by
  rw [hr.same (Nat.lt_succ_self _) henclosed]
  cases htokens : r tokens with
  | none => exact .none
  | some rest =>
    have hrest := hr.rest (Nat.lt_succ_self _) henclosed htokens
    exact .some (hle htokens) hrest.2

omit hstops in
theorem mono (h : SameType tail length depth reading reading')
    (hle : length ≤ length') : SameType tail length' depth reading reading' :=
  ⟨h.same, fun htype => ⟨Nat.le_trans (h.rest htype).1 hle, (h.rest htype).2⟩⟩

omit hstops in
theorem bind {f f' : TypeReading → Option TypeReading}
    (h : SameType tail length depth reading reading')
    (hf : ∀ type, type.rest.length ≤ length → Encloses depth type.rest →
      SameType tail length depth (f type)
        (f' { type with rest := type.rest ++ tail })) :
    SameType tail length depth (reading.bind f) (reading'.bind f') := by
  cases reading with
  | none =>
    rw [h.same]
    exact .none
  | some type =>
    rw [h.same]
    obtain ⟨hle, henclosed⟩ := h.rest rfl
    exact hf type hle henclosed

end SameType

theorem closeArray_same {element : TypeReading} {length : Nat}
    (hle : element.rest.length ≤ length)
    (henclosed : Encloses depth element.rest) :
    SameType tail length depth (closeArray element)
      (closeArray { element with rest := element.rest ++ tail }) := by
  obtain ⟨kind, endsOuter, rest⟩ := element
  cases endsOuter with
  | true => exact .some hle henclosed
  | false =>
    cases rest with
    | nil => obtain rfl | ⟨more, rfl⟩ := hstops.eq_nil_or_closing <;> exact .none
    | cons token rest =>
      have hle' : rest.length ≤ length :=
        Nat.le_trans (Nat.le_succ _) hle
      by_cases hsingle : token = .mark ">"
      · subst hsingle
        exact .some hle' (henclosed.of_cons (by decide) (by decide))
      by_cases hdouble : token = .mark ">>"
      · subst hdouble
        exact .some hle' (henclosed.of_cons (by decide) (by decide))
      have hnone (rest : List Token) :
          closeArray ⟨kind, false, token :: rest⟩ = none := by
        simp [closeArray, hsingle, hdouble]
      simp only [List.cons_append, hnone]
      exact .none

/-- A type before the brackets that make arrays of it. -/
def baseType (inner : List Token → Option TypeReading) (token : Token)
    (rest : List Token) : Option TypeReading :=
  let userType := (andThen objectName typeModifiers (token :: rest)).map
    fun tail => ⟨.custom, false, tail⟩
  match token with
  | .word w =>
      match Keyword.ofWord w with
      | "ARRAY" => (mark "<" rest).bind fun tail => (inner tail).bind closeArray
      | k =>
          match afterTypeWord k with
          | some r =>
              (r rest).map fun tail =>
                ⟨if k = "INTERVAL" then .interval else .builtin, false, tail⟩
          | none => userType
  | .quoted _ _ => userType
  | _ => none

/-- A type and the brackets behind it. -/
def arraySuffix (base : TypeReading) : Option TypeReading :=
  match base.rest with
  | .mark "[" :: tail =>
      (separated (mark "[") (mark "]") tail).map fun tail' =>
        ⟨.builtin, base.endsOuter, tail'⟩
  | _ => some base

omit hstops in
theorem readTypeFor_cons (step : Token) (steps : List Token) (token : Token)
    (rest : List Token) :
    readTypeFor (step :: steps) (token :: rest) =
      (baseType (readTypeFor steps) token rest).bind arraySuffix := by
  cases token with
  | word w =>
    simp only [readTypeFor, baseType]
    generalize Keyword.ofWord w = k
    by_cases hk : k = "ARRAY"
    · subst hk
      cases mark "<" rest with
      | none => rfl
      | some tail =>
        cases htype : readTypeFor steps tail with
        | none => simp [htype]
        | some type => simp [htype]; rfl
    · cases hr : afterTypeWord k with
      | none => simp [hr]; rfl
      | some r => simp [hr]; rfl
  | _ => rfl

theorem arraySuffix_same {base : TypeReading} {length : Nat}
    (hle : base.rest.length ≤ length) (henclosed : Encloses depth base.rest) :
    SameType tail length depth (arraySuffix base)
      (arraySuffix { base with rest := base.rest ++ tail }) := by
  obtain ⟨kind, endsOuter, rest⟩ := base
  cases rest with
  | nil =>
    have htail : arraySuffix ⟨kind, endsOuter, tail⟩ =
        some ⟨kind, endsOuter, tail⟩ := by
      obtain rfl | ⟨more, rfl⟩ := hstops.eq_nil_or_closing <;> rfl
    simp only [List.nil_append, htail]
    exact .some hle henclosed
  | cons token rest =>
    by_cases hbracket : token = .mark "["
    · subst hbracket
      have hbrackets {bound : Nat} : Tracks tail bound depth depth
          (separated (mark "[") (mark "]")) (separated (mark "[") (mark "]")) :=
        .separated rfl (mark_advances (by decide) (by decide))
          (mark_advances (by decide) (by decide)).toTracks
      have henclosed' : Encloses depth rest :=
        henclosed.of_cons (by decide) (by decide)
      refine .of_tracks hbrackets henclosed' (fun {rest'} hrest => ?_) _ _
      have hrest' := (hbrackets.rest (Nat.lt_succ_self _) henclosed' hrest).1
      exact Nat.le_trans hrest' (Nat.le_trans (Nat.le_succ _) hle)
    · have hsame (rest : List Token) :
          arraySuffix ⟨kind, endsOuter, token :: rest⟩ =
            some ⟨kind, endsOuter, token :: rest⟩ := by
        simp [arraySuffix, hbracket]
      simp only [List.cons_append, hsame]
      exact .some hle henclosed

theorem baseType_same {inner inner' : List Token → Option TypeReading}
    {token : Token} {rest : List Token} (henclosed : Encloses depth (token :: rest))
    (hinner : ∀ {tokens}, tokens.length ≤ rest.length → Encloses depth tokens →
      SameType tail rest.length depth (inner tokens)
        (inner' (tokens ++ tail))) :
    SameType tail rest.length depth (baseType inner token rest)
      (baseType inner' token (rest ++ tail)) := by
  have huser {bound : Nat} : Advances tail bound depth depth
      (andThen objectName typeModifiers) (andThen objectName typeModifiers) :=
    objectName_advances.andThen typeModifiers_tracks
  have huserType : SameType tail rest.length depth
      ((andThen objectName typeModifiers (token :: rest)).map
        fun tail => ⟨.custom, false, tail⟩)
      ((andThen objectName typeModifiers (token :: rest ++ tail)).map
        fun tail => ⟨.custom, false, tail⟩) := by
    refine .of_tracks huser.toTracks henclosed (fun {rest'} hrest => ?_) _ _
    exact Nat.le_of_lt_succ (huser.shorter (Nat.lt_succ_self _) henclosed hrest)
  cases token with
  | word w =>
    have hrest : Encloses depth rest :=
      henclosed.of_cons (by simp) (by simp)
    simp only [baseType]
    generalize Keyword.ofWord w = k
    by_cases hk : k = "ARRAY"
    · subst hk
      have hmark : Advances tail (rest.length + 1) depth depth (mark "<")
          (mark "<") := mark_advances (by decide) (by decide)
      rw [hmark.same (Nat.lt_succ_self _) hrest]
      cases htokens : mark "<" rest with
      | none => exact .none
      | some tokens =>
        obtain ⟨hle, htokens⟩ := hmark.rest (Nat.lt_succ_self _) hrest htokens
        exact (hinner hle htokens).bind fun type htype henclosed =>
          closeArray_same htype henclosed
    · cases hr : afterTypeWord k with
      | none => simpa [hr] using huserType
      | some r =>
        have hr' {bound : Nat} : Tracks tail bound depth depth r r :=
          afterTypeWord_tracks hr
        have := SameType.of_tracks hr' hrest
          (fun h => (hr'.rest (Nat.lt_succ_self _) hrest h).1)
          (if k = "INTERVAL" then .interval else .builtin) false
        simpa [hr] using this
  | quoted quote name => exact huserType
  | _ => exact .none

theorem readTypeFor_nil_same {length : Nat} (steps steps' : List Token) :
    SameType tail length depth (readTypeFor steps []) (readTypeFor steps' tail) := by
  have hnil : readTypeFor steps [] = none := by cases steps <;> rfl
  have htail : readTypeFor steps' tail = none := by
    obtain rfl | ⟨more, rfl⟩ := hstops.eq_nil_or_closing <;>
      cases steps' <;> rfl
  rw [hnil, htail]
  exact .none

theorem readTypeFor_same (steps steps' tokens : List Token)
    (henclosed : Encloses depth tokens) (hsteps : tokens.length ≤ steps.length)
    (hsteps' : tokens.length ≤ steps'.length) :
    SameType tail (tokens.length - 1) depth (readTypeFor steps tokens)
      (readTypeFor steps' (tokens ++ tail)) := by
  induction steps generalizing steps' tokens with
  | nil =>
    obtain rfl := List.eq_nil_of_length_eq_zero (Nat.le_zero.mp hsteps)
    exact readTypeFor_nil_same _ _
  | cons step steps ih =>
    cases tokens with
    | nil => exact readTypeFor_nil_same _ _
    | cons token rest =>
      obtain ⟨step', steps', rfl⟩ : ∃ step' steps'', steps' = step' :: steps'' := by
        cases steps' with
        | nil => simp at hsteps'
        | cons step' steps' => exact ⟨step', steps', rfl⟩
      simp only [List.length_cons, Nat.add_le_add_iff_right] at hsteps hsteps'
      rw [List.cons_append, readTypeFor_cons, readTypeFor_cons]
      refine (baseType_same henclosed fun hle henclosed' => ?_).bind
        fun base hle henclosed' => arraySuffix_same hle henclosed'
      exact (ih steps' _ henclosed' (by omega) (by omega)).mono (by omega)

theorem readType_same {tokens : List Token} (henclosed : Encloses depth tokens) :
    readType (tokens ++ tail) =
      (readType tokens).map fun type => (type.1, type.2 ++ tail) := by
  have htype : SameType tail _ depth (readTypeFor tokens tokens)
      (readTypeFor (tokens ++ tail) (tokens ++ tail)) :=
    readTypeFor_same tokens (tokens ++ tail) tokens henclosed (Nat.le_refl _)
      (by simp)
  simp only [readType, htype.same]
  cases readTypeFor tokens tokens with
  | none => rfl
  | some type =>
    obtain ⟨kind, endsOuter, rest⟩ := type
    cases endsOuter <;> rfl

omit hstops in
theorem readType_rest {tokens rest : List Token} {kind : TypeKind}
    (henclosed : Encloses depth tokens)
    (h : readType tokens = some (kind, rest)) :
    rest.length < tokens.length ∧ Encloses depth rest := by
  have htype : SameType [] _ depth (readTypeFor tokens tokens)
      (readTypeFor tokens (tokens ++ [])) :=
    readTypeFor_same tokens tokens tokens henclosed (Nat.le_refl _)
      (Nat.le_refl _)
  obtain ⟨type, hread, hrest⟩ := Option.bind_eq_some_iff.mp h
  obtain ⟨hle, henclosed'⟩ := htype.rest hread
  have hne : tokens ≠ [] := by
    rintro rfl
    simp [readTypeFor] at hread
  have hlength := List.length_pos_iff.mpr hne
  split at hrest
  · cases hrest
  · obtain ⟨-, rfl⟩ := Prod.mk.inj (Option.some.inj hrest)
    exact ⟨by omega, henclosed'⟩

theorem typeName_advances :
    Advances tail bound depth depth typeName typeName where
  same hbound henclosed := by
    simp only [typeName, readType_same henclosed, Option.map_map]
    rfl
  rest hbound henclosed h := by
    obtain ⟨⟨kind, rest⟩, htype, rfl⟩ := Option.map_eq_some_iff.mp h
    obtain ⟨hlt, henclosed'⟩ := readType_rest henclosed htype
    exact ⟨Nat.le_of_lt hlt, henclosed'⟩
  shorter hbound henclosed h := by
    obtain ⟨⟨kind, rest⟩, htype, rfl⟩ := Option.map_eq_some_iff.mp h
    exact (readType_rest henclosed htype).1

end GovernedCatalog.Sql.Recogniser
