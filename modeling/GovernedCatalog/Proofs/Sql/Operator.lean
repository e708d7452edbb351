import GovernedCatalog.Proofs.Sql.TypeName
import GovernedCatalog.Sql.Operator

/-!
# Operators before a closing parenthesis

What a construct reads with a closing parenthesis behind it is what it reads
alone, as long as this holds of the expressions and queries inside it.
-/

namespace GovernedCatalog.Sql

open Recogniser

/-- The recognisers for what stands inside read alike before `tail`, on fewer
than `bound` tokens. -/
structure Inside.Tracks (tail : List Token) (bound : Nat)
    (inside inside' : Inside) : Prop where
  expression : ∀ {depth}, Recogniser.Tracks tail bound depth depth
    inside.expression inside'.expression
  operand : ∀ {depth} precedence, Recogniser.Tracks tail bound depth depth
    (inside.operand precedence) (inside'.operand precedence)
  comparison : ∀ {depth}, Recogniser.Tracks tail bound depth depth
    inside.comparison inside'.comparison
  query : ∀ {depth}, Recogniser.Tracks tail bound depth depth
    inside.query inside'.query

theorem Inside.Tracks.mono {tail : List Token} {lower bound : Nat}
    {inside inside' : Inside} (h : Inside.Tracks tail bound inside inside')
    (hle : lower ≤ bound) : Inside.Tracks tail lower inside inside' where
  expression := h.expression.mono hle
  operand precedence := (h.operand precedence).mono hle
  comparison := h.comparison.mono hle
  query := h.query.mono hle

theorem Inside.Tracks.pred {tail : List Token} {bound : Nat}
    {inside inside' : Inside} (h : Inside.Tracks tail bound inside inside') :
    Inside.Tracks tail (bound - 1) inside inside' :=
  h.mono (Nat.sub_le bound 1)

namespace Recogniser

variable {tail : List Token} [hstops : Stops tail] {bound depth : Nat}

theorem value_advances : Advances tail bound depth depth value value := by
  refine .of_token rfl rfl (fun rest => ?_) fun token _ => ?_
  · cases rest <;> rfl
  cases token with
  | word w =>
    have hword : (fun rest => value (.word w :: rest)) =
        fun rest => anyKeyword ["TRUE", "FALSE", "NULL"] (.word w :: rest) :=
      rfl
    by_cases hkeyword : isKeyword ["TRUE", "FALSE", "NULL"] (.word w)
    · refine .inr ⟨depth, fun rest h => h.of_cons (by simp) (by simp), ?_⟩
      simp only [hword, anyKeyword, hkeyword, if_true]
      exact .nothing
    · exact .inl fun rest => by simp [value, anyKeyword, hkeyword]
  | mark m =>
    by_cases hm : m = ":" ∨ m = "@"
    · have hopen : m ≠ "(" := by rintro rfl; simp at hm
      have hclose : m ≠ ")" := by rintro rfl; simp at hm
      refine .inr ⟨depth, fun rest h => h.of_cons (by simpa) (by simpa), ?_⟩
      refine (Advances.of_one rfl fun token => ?_).toTracks
      cases token with
      | number digits isLong => cases isLong <;> simp [value, hm]
      | _ => simp [value, hm]
    · refine .inl fun rest => ?_
      cases rest with
      | nil => exact ⟨rfl, rfl⟩
      | cons token rest => simp [value, hm]
  | quoted quote name =>
    by_cases hquote : quote = '"'
    · subst hquote
      exact .inr ⟨depth, fun rest h => h.of_cons (by simp) (by simp), .nothing⟩
    · exact .inl fun rest => by simp [value, anyKeyword, isKeyword, keywordOf, hquote]
  | stray c => exact .inl fun rest => ⟨rfl, rfl⟩
  | _ =>
    exact .inr ⟨depth, fun rest h => h.of_cons (by simp) (by simp), .nothing⟩

/-- An alias without `AS`. -/
def bareAlias (reserved : List String) : Recogniser
  | .word w :: rest => if isKeyword reserved (.word w) then none else some rest
  | .quoted _ _ :: rest | .text _ :: rest => some rest
  | _ => none

omit hstops in
theorem aliasUnless_eq_branch (reserved : List String) :
    aliasUnless reserved =
      branch (keyword "AS") nameOrText (optional (bareAlias reserved)) := by
  unfold aliasUnless
  congr 1
  funext tokens
  cases tokens with
  | nil => rfl
  | cons token rest =>
    cases token with
    | word w =>
      by_cases hw : isKeyword reserved (.word w) <;>
        simp [optional, bareAlias, hw]
    | _ => rfl

theorem bareAlias_advances (reserved : List String) :
    Advances tail bound depth depth (bareAlias reserved)
      (bareAlias reserved) := by
  refine .of_one rfl fun token => ?_
  cases token with
  | word w =>
    by_cases hw : isKeyword reserved (.word w) <;> simp [bareAlias, hw]
  | _ => simp [bareAlias]

theorem aliasUnless_tracks (reserved : List String) :
    Tracks tail bound depth depth (aliasUnless reserved)
      (aliasUnless reserved) := by
  rw [aliasUnless_eq_branch]
  exact (keyword_advances "AS").toTracks.branch nameOrText_advances.toTracks
    (bareAlias_advances reserved).toTracks.optional

theorem point_advances : Advances tail bound depth depth
    (andThen (mark ".") nameOrText) (andThen (mark ".") nameOrText) :=
  (mark_advances (by decide) (by decide)).andThen nameOrText_advances.toTracks

theorem qualifiedStar_advances :
    Advances tail bound depth depth qualifiedStar qualifiedStar :=
  nameOrText_advances.cons
    ((Tracks.many rfl point_advances).cons
      ((mark_advances (by decide) (by decide)).toTracks.cons
        ((mark_advances (by decide) (by decide)).toTracks.cons .nil)))

omit hstops in
theorem queryOr_eq_ite (inside : Inside) (other : Recogniser) :
    queryOr inside other = fun tokens =>
      if (anyKeyword ["SELECT", "WITH"] tokens).isSome then
        andThen inside.query (mark ")") tokens
      else andThen other (mark ")") tokens := by
  funext tokens
  unfold queryOr
  split <;> rfl

section Inside

variable {inside inside' : Inside} (hinside : Inside.Tracks tail bound inside inside')

include hinside

theorem expressions_tracks :
    Tracks tail bound depth depth (expressions inside) (expressions inside') :=
  commaList_tracks hinside.expression

theorem orderItems_tracks :
    Tracks tail bound depth depth (orderItems inside) (orderItems inside') := by
  have hdirection : Tracks tail bound depth depth
      (optional (anyKeyword ["ASC", "DESC"]))
      (optional (anyKeyword ["ASC", "DESC"])) :=
    (anyKeyword_advances _).toTracks.optional
  have hnulls : Tracks tail bound depth depth
      (optional (orElse (keywords ["NULLS", "FIRST"])
        (keywords ["NULLS", "LAST"]))) _ :=
    ((keywords_tracks _).orElse (keywords_tracks _)).optional
  exact commaList_tracks
    (hinside.expression.cons (hdirection.cons (hnulls.cons .nil)))

theorem orderBy_tracks :
    Tracks tail bound depth depth (orderBy inside) (orderBy inside') :=
  (keywords_tracks _).following (orderItems_tracks hinside)

theorem tupleRest_tracks :
    Tracks tail bound (depth + 1) depth (tupleRest inside)
      (tupleRest inside') :=
  closing_advances.toTracks.orElse
    ((expressions_tracks hinside).andThen closing_advances.toTracks)

theorem allOrDistinct_tracks :
    Tracks tail bound depth depth (allOrDistinct inside)
      (allOrDistinct inside') := by
  exact (keyword_advances "ALL").toTracks.branch
    ((keyword_advances "DISTINCT").toTracks.ite .fail .nothing)
    ((keyword_advances "DISTINCT").toTracks.following
      ((keyword_advances "ON").toTracks.following
        (opening_advances.toTracks.andThen (tupleRest_tracks hinside))))

theorem starOrExpression_tracks :
    Tracks tail bound depth depth (starOrExpression inside)
      (starOrExpression inside') :=
  (mark_advances (by decide) (by decide)).toTracks.orElse
    (qualifiedStar_advances.toTracks.orElse hinside.expression)

theorem queryOr_tracks {other other' : Recogniser}
    (hother : Tracks tail bound (depth + 1) (depth + 1) other other') :
    Tracks tail bound (depth + 1) depth (queryOr inside other)
      (queryOr inside' other') := by
  rw [queryOr_eq_ite, queryOr_eq_ite]
  exact (anyKeyword_advances _).toTracks.ite
    (hinside.query.andThen closing_advances.toTracks)
    (hother.andThen closing_advances.toTracks)

theorem subquery_tracks :
    Tracks tail bound depth depth (subquery inside) (subquery inside') :=
  (parenthesised_advances hinside.query.pred).toTracks

theorem rightOperand_tracks (precedence : Nat) (compares : Bool) :
    Tracks tail bound depth depth (rightOperand inside precedence compares)
      (rightOperand inside' precedence compares) := by
  refine (anyKeyword_advances _).toTracks.branch ?_ (hinside.operand precedence)
  cases compares with
  | true => exact (parenthesised_advances (hinside.operand precedence).pred).toTracks
  | false => exact .fail

theorem afterIs_tracks :
    Tracks tail bound depth depth (afterIs inside) (afterIs inside') :=
  (keyword_advances "NOT").toTracks.optional.andThen
    ((anyKeyword_advances _).toTracks.branch .nothing
      ((keywords_tracks _).andThen hinside.expression))

theorem membership_tracks :
    Tracks tail bound depth depth (membership inside) (membership inside') :=
  (keyword_advances "UNNEST").toTracks.branch
    (parenthesised_advances hinside.expression.pred).toTracks
    (opening_advances.toTracks.andThen
      (queryOr_tracks hinside (expressions_tracks hinside)))

theorem range_tracks :
    Tracks tail bound depth depth (range inside) (range inside') :=
  (hinside.operand betweenPrecedence).cons
    ((keyword_advances "AND").toTracks.cons
      ((hinside.operand betweenPrecedence).cons .nil))

omit hinside in
theorem escapeCharacter_tracks :
    Tracks tail bound depth depth escapeCharacter escapeCharacter := by
  refine (keyword_advances "ESCAPE").toTracks.following
    (Advances.of_one rfl fun token => ?_).toTracks
  cases token with
  | word w =>
    by_cases hw : Keyword.ofWord w ∈ Keyword.all
    · simp [readText?, hw]
    · by_cases hsize : w.utf8ByteSize = 1 <;> simp [readText?, hw, hsize]
  | text t | escaped t | quoted q t =>
    by_cases hsize : t.utf8ByteSize = 1 <;> simp [readText?, hsize]
  | _ => simp [readText?]

theorem wordOperator_advances :
    Advances tail bound depth depth (wordOperator inside)
      (wordOperator inside') := by
  refine (keyword_advances "NOT").toTracks.optional.andThen_advances
    (Advances.branch ?_ (hinside.operand likePrecedence).pred
      ((keyword_advances "IN").branch (membership_tracks hinside).pred
        ((keyword_advances "BETWEEN").branch (range_tracks hinside).pred
          (Advances.cons ?_ ((hinside.operand likePrecedence).pred.cons
            (escapeCharacter_tracks.cons .nil))))))
  · exact ((keyword_advances "REGEXP").andThen
      (keyword_advances "RLIKE").toTracks.optional).orElse
        (keyword_advances "RLIKE")
  · exact (anyKeyword_advances _).orElse (keywords_advances _ _)

/-- The operator at the head of the tokens, if its mark stands between
operands. -/
def operatorAt (inside : Inside) (precedence : Nat) : Recogniser
  | .mark m :: rest =>
      if markPrecedence m = 0 then none
      else operatorPart inside precedence (.mark m :: rest)
  | tokens => operatorPart inside precedence tokens

omit hstops hinside in
theorem operatorAt_of_pos {tokens : List Token} (precedence : Nat)
    (h : 0 < nextPrecedence tokens) :
    operatorAt inside precedence tokens = operatorPart inside precedence tokens := by
  cases tokens with
  | nil => rfl
  | cons token rest =>
    cases token with
    | mark m =>
      have hm : markPrecedence m ≠ 0 := Nat.ne_of_gt h
      simp [operatorAt, hm]
    | _ => rfl

theorem markOperator_tracks (precedence : Nat) (m : String) :
    Tracks tail (bound - 1) depth depth
      (fun rest => operatorPart inside precedence (.mark m :: rest))
      fun rest => operatorPart inside' precedence (.mark m :: rest) := by
  simp only [operatorPart]
  refine .ite_prop (fun _ => typeName_advances.toTracks) fun _ => ?_
  refine .ite_prop (fun _ => .nothing) fun _ => ?_
  refine .ite_prop (fun _ => hinside.expression.pred.andThen
    (mark_advances (by decide) (by decide)).toTracks) fun _ => ?_
  refine .ite_prop (fun _ => value_advances.toTracks) fun _ => ?_
  exact .ite_prop (fun _ => hinside.expression.pred)
    fun _ => (rightOperand_tracks hinside _ _).pred

omit hstops hinside in
theorem operatorPart_word (precedence : Nat) (w : String) (rest : List Token) :
    operatorPart inside precedence (.word w :: rest) =
      match Keyword.ofWord w with
      | "AND" | "OR" | "XOR" => rightOperand inside precedence false rest
      | "OPERATOR" =>
          andThen operatorName (rightOperand inside precedence false) rest
      | "IS" => afterIs inside rest
      | "AT" => andThen (keywords ["TIME", "ZONE"]) text rest
      | "DIV" => none
      | _ => wordOperator inside (.word w :: rest) :=
  rfl

theorem wordOperator_tracks (precedence : Nat) {w : String}
    (hplain : isKeyword skippingWords (.word w) = false) :
    Tracks tail (bound - 1) depth depth
      (fun rest => operatorPart inside precedence (.word w :: rest))
      fun rest => operatorPart inside' precedence (.word w :: rest) := by
  have hw : Keyword.ofWord w ≠ "OPERATOR" := by
    intro hw
    simp [isKeyword, keywordOf, hw, skippingWords] at hplain
  simp only [operatorPart_word]
  split
  · exact (rightOperand_tracks hinside _ _).pred
  · exact (rightOperand_tracks hinside _ _).pred
  · exact (rightOperand_tracks hinside _ _).pred
  · contradiction
  · exact (afterIs_tracks hinside).pred
  · exact (keywords_tracks _).andThen text_advances.toTracks
  · exact .fail
  · exact (wordOperator_advances hinside).after hplain (by simp) (by simp)

theorem operatorAt_advances (precedence : Nat) :
    Advances tail bound depth depth (operatorAt inside precedence)
      (operatorAt inside' precedence) := by
  refine .of_token rfl rfl (fun rest => rfl) fun token hplain => ?_
  cases token with
  | mark m =>
    by_cases hm : markPrecedence m = 0
    · exact .inl fun rest => by simp [operatorAt, hm]
    · have hopen : m ≠ "(" := by rintro rfl; exact hm (by decide)
      have hclose : m ≠ ")" := by rintro rfl; exact hm (by decide)
      refine .inr ⟨depth, fun rest h => h.of_cons (by simpa) (by simpa), ?_⟩
      simpa [operatorAt, hm] using markOperator_tracks hinside precedence m
  | word w =>
    exact .inr ⟨depth, fun rest h => h.of_cons (by simp) (by simp),
      wordOperator_tracks hinside precedence hplain⟩
  | _ =>
    exact .inr ⟨depth, fun rest h => h.of_cons (by simp) (by simp),
      (wordOperator_advances hinside).after hplain (by simp) (by simp)⟩

end Inside

theorem anyKeyword_append (names : List String) (tokens : List Token) :
    anyKeyword names (tokens ++ tail) =
      (anyKeyword names tokens).map (· ++ tail) := by
  cases tokens with
  | nil => obtain rfl | ⟨more, rfl⟩ := hstops.eq_nil_or_closing <;> rfl
  | cons token rest =>
    by_cases htoken : isKeyword names token <;> simp [anyKeyword, htoken]

theorem keywords_append (names : List String) (tokens : List Token) :
    keywords names (tokens ++ tail) =
      (keywords names tokens).map (· ++ tail) := by
  induction names generalizing tokens with
  | nil => rfl
  | cons name names ih =>
    have hkeyword : keyword name (tokens ++ tail) =
        (keyword name tokens).map (· ++ tail) := anyKeyword_append [name] tokens
    rw [keywords, keywords, hkeyword]
    cases keyword name tokens with
    | none => rfl
    | some rest => exact ih rest

theorem nextPrecedence_append (tokens : List Token) :
    nextPrecedence (tokens ++ tail) = nextPrecedence tokens := by
  cases tokens with
  | nil => obtain rfl | ⟨more, rfl⟩ := hstops.eq_nil_or_closing <;> rfl
  | cons token rest =>
    cases token <;> simp only [List.cons_append, nextPrecedence,
      keywords_append, anyKeyword_append, Option.isSome_map]

theorem comparisonPrecedence_append (tokens : List Token) :
    comparisonPrecedence (tokens ++ tail) = comparisonPrecedence tokens := by
  simp only [comparisonPrecedence, anyKeyword_append, nextPrecedence_append,
    Option.isSome_map]

theorem comparisonPrecedence_le (tokens : List Token) :
    comparisonPrecedence tokens ≤ nextPrecedence tokens := by
  unfold comparisonPrecedence
  split
  · exact Nat.zero_le _
  · exact Nat.le_refl _

/-- A measure of how tightly an operator binds that looks at the tokens before
the closing parenthesis only. -/
structure Binds (tail : List Token) (next : List Token → Nat) : Prop where
  append : ∀ tokens, next (tokens ++ tail) = next tokens
  le : ∀ tokens, next tokens ≤ nextPrecedence tokens

theorem nextPrecedence_binds : Binds tail nextPrecedence :=
  ⟨nextPrecedence_append, fun _ => Nat.le_refl _⟩

theorem comparisonPrecedence_binds : Binds tail comparisonPrecedence :=
  ⟨comparisonPrecedence_append, comparisonPrecedence_le⟩

/-- Whether an operator that binds tighter than a precedence follows. -/
def bindsTighter (next : List Token → Nat) (precedence : Nat) : Recogniser :=
  fun tokens => if next tokens ≤ precedence then none else some tokens

/-- The operator that follows, as `next` weighs it. -/
def nextOperator (inside : Inside) (next : List Token → Nat) : Recogniser :=
  fun tokens => operatorPart inside (next tokens) tokens

omit hstops in
theorem operatorsFor_eq_eachFor (inside : Inside) (next : List Token → Nat)
    (precedence : Nat) (steps tokens : List Token) :
    operatorsFor inside next precedence steps tokens =
      eachFor (bindsTighter next precedence) (nextOperator inside next) steps
        tokens := by
  induction steps generalizing tokens with
  | nil => rfl
  | cons step steps ih =>
    rw [operatorsFor, eachFor]
    by_cases hnext : next tokens ≤ precedence
    · simp [bindsTighter, hnext]
    · simp only [bindsTighter, hnext, if_false]
      exact congrArg _ (funext ih)

omit hstops in
theorem operators_eq_each (inside : Inside) (next : List Token → Nat)
    (precedence : Nat) :
    operators inside next precedence =
      each (bindsTighter next precedence) (nextOperator inside next) :=
  funext fun tokens =>
    operatorsFor_eq_eachFor inside next precedence tokens tokens

omit hstops in
theorem bindsTighter_tracks {next : List Token → Nat} (hnext : Binds tail next)
    (precedence : Nat) :
    Tracks tail bound depth depth (bindsTighter next precedence)
      (bindsTighter next precedence) where
  same {tokens} _ _ := by
    unfold bindsTighter
    rw [hnext.append]
    split <;> rfl
  rest {tokens rest} _ henclosed h := by
    unfold bindsTighter at h
    split at h
    · cases h
    · obtain rfl := Option.some.inj h
      exact ⟨Nat.le_refl _, henclosed⟩

omit hstops in
theorem nextOperator_eq {inside : Inside} {next : List Token → Nat}
    (hnext : Binds tail next) (precedence : Nat) (tokens : List Token) :
    andThen (bindsTighter next precedence) (nextOperator inside next) tokens =
      if next tokens ≤ precedence then none
      else operatorAt inside (next tokens) tokens := by
  unfold andThen bindsTighter nextOperator
  split
  · rfl
  · rename_i hlt
    have hpos : 0 < nextPrecedence tokens :=
      Nat.lt_of_lt_of_le (by omega) (hnext.le tokens)
    rw [operatorAt_of_pos _ hpos]
    rfl

theorem nextOperator_advances {inside inside' : Inside}
    (hinside : Inside.Tracks tail bound inside inside')
    {next : List Token → Nat} (hnext : Binds tail next) (precedence : Nat) :
    Advances tail bound depth depth
      (andThen (bindsTighter next precedence) (nextOperator inside next))
      (andThen (bindsTighter next precedence) (nextOperator inside' next)) where
  same {tokens} hbound henclosed := by
    rw [nextOperator_eq hnext, nextOperator_eq hnext, hnext.append]
    split
    · rfl
    · exact (operatorAt_advances hinside _).same hbound henclosed
  rest {tokens rest} hbound henclosed h := by
    rw [nextOperator_eq hnext] at h
    split at h
    · cases h
    · exact (operatorAt_advances hinside _).rest hbound henclosed h
  shorter {tokens rest} hbound henclosed h := by
    rw [nextOperator_eq hnext] at h
    split at h
    · cases h
    · exact (operatorAt_advances hinside _).shorter hbound henclosed h

theorem operators_tracks {inside inside' : Inside}
    (hinside : Inside.Tracks tail bound inside inside')
    {next : List Token → Nat} (hnext : Binds tail next) (precedence : Nat) :
    Tracks tail bound depth depth (operators inside next precedence)
      (operators inside' next precedence) := by
  have hempty : bindsTighter next precedence [] = none :=
    if_pos (Nat.le_trans (hnext.le []) (Nat.zero_le _))
  rw [operators_eq_each, operators_eq_each]
  exact .each hempty (bindsTighter_tracks hnext precedence)
    (nextOperator_advances hinside hnext precedence)

end Recogniser

end GovernedCatalog.Sql
