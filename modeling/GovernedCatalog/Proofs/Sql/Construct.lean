import GovernedCatalog.Proofs.Sql.PlainOperand

/-!
# Constructs as operands

Lists, groups, calls and case distinctions are operands if the expressions
inside of them are expressions of their own.
-/

namespace GovernedCatalog.Sql.Recogniser

/-! ## Lists -/

theorem length_le_flatMap (op : Token) (items : List (List Token)) :
    items.length ≤ (items.flatMap (op :: ·)).length := by
  induction items with
  | nil => exact Nat.le_refl _
  | cons item items ih =>
      simp only [List.flatMap_cons, List.length_append, List.length_cons]
      omega

theorem length_le_joined {op : Token} {items : List (List Token)}
    {item : List Token} (hitem : item ∈ items) :
    item.length ≤ (Token.joined [op] items).length := by
  obtain ⟨first, items, rfl⟩ :=
    List.exists_cons_of_ne_nil (List.ne_nil_of_mem hitem)
  rw [joined_cons, List.length_append]
  rcases List.mem_cons.1 hitem with rfl | hitem
  · exact Nat.le_add_right _ _
  · obtain ⟨before, after, rfl⟩ := List.append_of_mem hitem
    simp only [List.flatMap_append, List.flatMap_cons, List.length_append,
      List.length_cons]
    omega

theorem starts_joined {op : Token} {items : List (List Token)} (hne : items ≠ [])
    (hitems : ∀ item ∈ items, Starts item) : Starts (Token.joined [op] items) := by
  obtain ⟨first, items, rfl⟩ := List.exists_cons_of_ne_nil hne
  rw [joined_cons]
  exact (hitems first List.mem_cons_self).append _

section Lists

variable {r : Recogniser} {items : List (List Token)} {tail : List Token}

theorem eachFor_items {steps : List Token}
    (hread : ∀ item ∈ items, ∀ rest,
      (rest = tail ∨ ∃ more, rest = .mark "," :: more) →
        r (item ++ rest) = some rest)
    (htail : mark "," tail = none) (hsteps : items.length ≤ steps.length) :
    eachFor (mark ",") r steps (items.flatMap (.mark "," :: ·) ++ tail) =
      some tail := by
  induction items generalizing steps with
  | nil => cases steps <;> simp [eachFor, htail]
  | cons item items ih =>
      obtain ⟨hitem, hitems⟩ := List.forall_mem_cons.1 hread
      obtain ⟨step, steps, rfl⟩ :=
        List.exists_cons_of_length_pos (Nat.lt_of_lt_of_le (by simp) hsteps)
      have hrest : r (item ++ (items.flatMap (.mark "," :: ·) ++ tail)) =
          some (items.flatMap (.mark "," :: ·) ++ tail) := by
        apply hitem
        cases items with
        | nil => exact .inl rfl
        | cons next items => exact .inr ⟨_, rfl⟩
      have hnext := ih hitems (Nat.le_of_succ_le_succ hsteps)
      simp only [List.flatMap_cons, List.cons_append, List.append_assoc, eachFor,
        mark, if_true, hrest, Option.bind_some, hnext]

/-- A list is read if each of its items is read before a comma and before what
follows the list. -/
theorem commaList_joined (hne : items ≠ [])
    (hread : ∀ item ∈ items, ∀ rest,
      (rest = tail ∨ ∃ more, rest = .mark "," :: more) →
        r (item ++ rest) = some rest)
    (htail : mark "," tail = none) :
    commaList r (Token.joined [.mark ","] items ++ tail) = some tail := by
  obtain ⟨first, items, rfl⟩ := List.exists_cons_of_ne_nil hne
  obtain ⟨hfirst, hitems⟩ := List.forall_mem_cons.1 hread
  have hlength : items.length ≤
      (items.flatMap (.mark "," :: ·) ++ tail).length := by
    rw [List.length_append]
    exact Nat.le_trans (length_le_flatMap _ _) (Nat.le_add_right _ _)
  have hrest : r (first ++ (items.flatMap (.mark "," :: ·) ++ tail)) =
      some (items.flatMap (.mark "," :: ·) ++ tail) := by
    apply hfirst
    cases items with
    | nil => exact .inl rfl
    | cons next items => exact .inr ⟨_, rfl⟩
  unfold commaList separated
  rw [joined_cons, List.append_assoc, andThen, hrest]
  exact eachFor_items hitems htail hlength

end Lists

variable {depth lower upper : Nat} {tokens : List Token}

/-- Expressions with commas between them, up to what closes the list. -/
theorem expressions_joined {items : List (List Token)} (hne : items ≠ [])
    (hitems : ∀ item ∈ items, IsExpression depth item) {levels steps : Nat}
    {tail : List Token} (hlevels : depth ≤ levels)
    (hsteps : ∀ item ∈ items, item.length < steps) (htail : Ends 0 tail)
    (hcomma : mark "," tail = none) :
    expressions (.full steps levels) (Token.joined [.mark ","] items ++ tail) =
      some tail := by
  apply commaList_joined hne _ hcomma
  rintro item hitem rest (rfl | ⟨more, rfl⟩)
  · exact (hitems item hitem).reads hlevels (hsteps item hitem) htail
  · exact (hitems item hitem).reads hlevels (hsteps item hitem)
      (ends_cons (by decide) (by decide))

theorem array_isOperand {items : List (List Token)}
    (hitems : ∀ item ∈ items, IsExpression depth item) :
    IsOperand depth tightPrecedence
      (.word "ARRAY" :: .mark "[" ::
        (Token.joined [.mark ","] items ++ [.mark "]"])) := by
  apply IsOperand.of_plain ⟨_, _, rfl, by decide +kernel, by simp⟩
    (fun _ _ _ => rfl)
  intro levels steps tail hlevels hsteps htail
  have hplain (rest : List Token) : plainOperand (.full steps levels)
      (.word "ARRAY" :: .mark "[" :: rest) =
        arrayItems (.full steps levels) rest := rfl
  rw [List.cons_append, List.cons_append, hplain, List.append_assoc]
  unfold arrayItems orElse
  by_cases hne : items = []
  · subst hne
    rfl
  · have hshort (item : List Token) (hitem : item ∈ items) :
        item.length < steps := by
      have hle : item.length ≤ (Token.joined [.mark ","] items).length :=
        length_le_joined hitem
      simp only [List.length_cons, List.length_append] at hsteps
      omega
    have hread : expressions (.full steps levels)
        (Token.joined [.mark ","] items ++ .mark "]" :: tail) =
          some (.mark "]" :: tail) :=
      expressions_joined hne hitems hlevels hshort
        (ends_cons (by decide) (by decide)) rfl
    have hstarts : Starts (Token.joined [.mark ","] items) :=
      starts_joined hne fun item hitem => (hitems item hitem).starts
    have hopen := hstarts.append (.mark "]" :: tail)
    simp only [List.singleton_append, hopen.closing_eq_none, andThen, hread]
    rfl

/-! ## Parentheses -/

theorem closing_read (tail : List Token) :
    mark ")" (.mark ")" :: tail) = some tail := rfl

theorem group_isOperand (h : IsExpression depth tokens) :
    IsOperand depth tightPrecedence (.mark "(" :: (tokens ++ [.mark ")"])) := by
  apply IsOperand.of_plain ⟨_, _, rfl, rfl, by simp⟩ (fun _ _ _ => rfl)
  intro levels steps tail hlevels hsteps htail
  simp only [List.length_cons, List.length_append] at hsteps
  have hlist : ∀ item ∈ [tokens], IsExpression depth item := by simpa using h
  have hread : expressions (.full steps levels) (tokens ++ .mark ")" :: tail) =
      some (.mark ")" :: tail) :=
    expressions_joined (List.cons_ne_nil _ _) hlist hlevels (by simp; omega)
      (ends_cons (by decide) (by decide)) rfl
  have hstart : anyKeyword ["SELECT", "WITH"] (tokens ++ .mark ")" :: tail) =
      none := (h.starts.append _).anyKeyword_eq_none (by simp)
  have hplain (rest : List Token) : plainOperand (.full steps levels)
      (.mark "(" :: rest) = group (.full steps levels) rest := rfl
  have hpoint := mark_of_follows htail.follows "." (by decide)
  rw [List.cons_append, hplain, List.append_assoc, List.singleton_append]
  simp [group, queryOr, andThen, hstart, hread, closing_read, following, branch,
    nothing, hpoint]

/-- A part of a comparison with any element of an array. -/
theorem any_part {op : Token} (hop : TakesOperand op true)
    (h : IsPhrase depth (nextPrecedence [op]) upper tokens) :
    IsPart depth tightPrecedence op
      (.word "ANY" :: .mark "(" :: (tokens ++ [.mark ")"])) := by
  intro levels steps tail hlevels hsteps htail
  simp only [List.length_cons, List.length_append] at hsteps
  have hread : operandFor steps levels nextPrecedence (nextPrecedence [op])
      (tokens ++ .mark ")" :: tail) = some (.mark ")" :: tail) :=
    h.operandFor_eq hlevels (by omega) (ends_cons (by decide) (Nat.zero_le _))
  have hany (rest : List Token) :
      rightOperand (.full steps levels) (nextPrecedence [op]) true
          (.word "ANY" :: .mark "(" :: rest) =
        sequence [operandFor steps levels nextPrecedence (nextPrecedence [op]),
          mark ")"] rest := rfl
  rw [hop.part, List.cons_append, List.cons_append, hany, List.append_assoc,
    List.singleton_append]
  simp [sequence, hread, closing_read]

/-! ## Calls -/

/-- The beginning of what can stand in parentheses but is no modifier of a
type. -/
inductive Opening : List Token → Prop
  | field (name : String) (rest : List Token) :
      Opening (.quoted '"' name :: .mark "." :: rest)
  | selection (rest : List Token) :
      Opening (.word "EXISTS" :: .mark "(" :: rest)

theorem Opening.append (h : Opening tokens) (more : List Token) :
    Opening (tokens ++ more) := by
  cases h with
  | field name rest => exact .field name (rest ++ more)
  | selection rest => exact .selection (rest ++ more)

/-- A name before parentheses that hold no modifiers of a type. -/
theorem typedConstant_of_call {t : Token} (ht : isName t = true)
    {rest : List Token} (hrest : typeModifiers (.mark "(" :: rest) = none)
    (inside : Inside) : typedConstant inside (t :: .mark "(" :: rest) = none := by
  apply typedConstant_of_isName ht
  intro rest' htype
  have hname : objectName (t :: .mark "(" :: rest) = some (.mark "(" :: rest) := by
    cases t with
    | word w => rfl
    | quoted quote name => rfl
    | _ => cases ht
  simp [andThen, hname, hrest] at htype

/-- The negation of what stands in parentheses. -/
def negated (tokens : List Token) : List Token :=
  .word "NOT" :: .mark "(" :: (tokens ++ [.mark ")"])

theorem negated_isOperand (h : IsExpression depth tokens)
    (hopening : Opening tokens) :
    IsOperand depth notPrecedence (negated tokens) := by
  apply IsOperand.of_plain ⟨_, _, rfl, by decide +kernel, by simp⟩
  · intro levels steps tail _ _ _
    have hmodifiers : typeModifiers
        (.mark "(" :: (tokens ++ [.mark ")"] ++ tail)) = none := by
      rw [List.append_assoc]
      cases hopening <;> rfl
    exact typedConstant_of_call (by decide +kernel) hmodifiers _
  · intro levels steps tail hlevels hsteps htail
    have hread := ((group_isOperand h).phrase notPrecedence).operandFor_eq hlevels
      (Nat.lt_of_succ_le hsteps) (htail.mono (by decide))
    exact hread

/-- Nothing of a call follows its arguments. -/
theorem call_eq (inside : Inside) {rest rest' tail : List Token}
    (hfirst : allOrDistinct inside rest = some rest')
    (harguments : orderedArguments inside rest' = some tail)
    (htail : Follows tail) : call inside (.mark "(" :: rest) = some tail := by
  have hopen : mark "(" (.mark "(" :: rest) = some rest := rfl
  have hfilter := keyword_of_follows htail "FILTER" (by decide +kernel)
  have hnulls := anyKeyword_of_follows htail ["RESPECT", "IGNORE"]
    (by decide +kernel)
  have hover := keyword_of_follows htail "OVER" (by decide +kernel)
  simp [call, sequence, hopen, hfirst, harguments, following, branch, nothing,
    hfilter, hnulls, hover]

/-- A condition that holds unless the other one is known to hold. -/
theorem coalesce_isOperand (h : IsExpression depth tokens)
    (hopening : Opening tokens) :
    IsOperand (depth + 1) tightPrecedence
      (.word "COALESCE" :: .mark "(" ::
        (negated tokens ++ [.mark ",", .word "True", .mark ")"])) := by
  apply IsOperand.of_plain ⟨_, _, rfl, by decide +kernel, by simp⟩
  · intro levels steps tail _ _ _
    exact typedConstant_of_call (by decide +kernel) rfl _
  · intro levels steps tail hlevels hsteps htail
    simp only [List.length_cons, List.length_append] at hsteps
    have hitems : ∀ item ∈ [negated tokens, [.word "True"]], ∀ rest,
        (rest = .mark ")" :: tail ∨ ∃ more, rest = .mark "," :: more) →
          argument (.full steps levels) (item ++ rest) = some rest := by
      intro item hitem rest hrest
      have hends : Ends 0 rest := by
        rcases hrest with rfl | ⟨more, rfl⟩ <;>
          exact ends_cons (by decide) (by decide)
      rcases List.mem_pair.1 hitem with rfl | rfl
      · have hnegated := ((negated_isOperand h hopening).phrase 0).expression
        exact hnegated.reads hlevels (by omega) hends
      · have htrue : (Inside.full steps levels).expression
            ([.word "True"] ++ rest) = some rest :=
          ((true_isOperand.phrase 0).expression).reads (by omega)
            (by simp; omega) hends
        rcases hrest with rfl | ⟨more, rfl⟩ <;> exact htrue
    have hlist : commaList (argument (.full steps levels))
        (negated tokens ++ .mark "," :: .word "True" :: .mark ")" :: tail) =
          some (.mark ")" :: tail) := by
      have hread := commaList_joined (by simp) hitems rfl
      simpa [Token.joined] using hread
    have hordered : orderedArguments (.full steps levels)
        (negated tokens ++
          .mark "," :: .word "True" :: .mark ")" :: tail) = some tail := by
      have horder : orderBy (.full steps levels) (.mark ")" :: tail) =
          some (.mark ")" :: tail) := rfl
      have hnot (rest : List Token) :
          orderedArguments (.full steps levels) (.word "NOT" :: rest) =
            sequence [commaList (argument (.full steps levels)),
              orderBy (.full steps levels), mark ")"] (.word "NOT" :: rest) := rfl
      simp only [negated, List.cons_append] at hlist ⊢
      simp only [hnot, sequence, hlist, horder, closing_read, Option.bind_some]
    have hfirst : allOrDistinct (.full steps levels)
        (negated tokens ++ .mark "," :: .word "True" :: .mark ")" :: tail) =
          some (negated tokens ++
            .mark "," :: .word "True" :: .mark ")" :: tail) := rfl
    have hcall := call_eq (.full steps levels) hfirst hordered htail.follows
    have hplain (rest : List Token) : plainOperand (.full steps levels)
        (.word "COALESCE" :: .mark "(" :: rest) =
          call (.full steps levels) (.mark "(" :: rest) := rfl
    rw [List.cons_append, List.cons_append, hplain, List.append_assoc]
    exact hcall

theorem case_isOperand {condition value other : List Token}
    (hcondition : IsExpression depth condition)
    (hvalue : IsExpression depth value) (hother : IsExpression depth other) :
    IsOperand depth tightPrecedence
      (.word "CASE" :: .word "WHEN" ::
        (condition ++ .word "THEN" ::
          (value ++ .word "ELSE" :: (other ++ [.word "END"])))) := by
  apply IsOperand.of_plain ⟨_, _, rfl, by decide +kernel, by simp⟩
  · intro levels steps tail _ _ _
    apply typedConstant_of_isName (by decide +kernel)
    intro rest hrest
    cases hrest
    rfl
  · intro levels steps tail hlevels hsteps htail
    simp only [List.length_cons, List.length_append] at hsteps
    have hread {tokens more : List Token} {t : Token}
        (h : IsExpression depth tokens) (hshort : tokens.length < steps)
        (ht : t ∈ followers) (hloose : nextPrecedence [t] ≤ 0) :
        (Inside.full steps levels).expression (tokens ++ t :: more) =
          some (t :: more) :=
      h.reads hlevels hshort (ends_cons ht hloose)
    have hplain (rest : List Token) : plainOperand (.full steps levels)
        (.word "CASE" :: .word "WHEN" :: rest) =
          sequence
            [separated (keyword "WHEN")
                (sequence
                  [(Inside.full steps levels).expression, keyword "THEN",
                    (Inside.full steps levels).expression]),
              following (keyword "ELSE") (Inside.full steps levels).expression,
              keyword "END"] rest := rfl
    have hthen (rest : List Token) :
        keyword "THEN" (.word "THEN" :: rest) = some rest := rfl
    have helse (rest : List Token) :
        keyword "ELSE" (.word "ELSE" :: rest) = some rest := rfl
    have hend (rest : List Token) :
        keyword "END" (.word "END" :: rest) = some rest := rfl
    have heach (item : Recogniser) (rest : List Token) :
        each (keyword "WHEN") item (.word "ELSE" :: rest) =
          some (.word "ELSE" :: rest) := rfl
    have hfirst : (Inside.full steps levels).expression
        (condition ++ .word "THEN" ::
          (value ++ .word "ELSE" :: (other ++ .word "END" :: tail))) =
            some (.word "THEN" ::
              (value ++ .word "ELSE" :: (other ++ .word "END" :: tail))) :=
      hread hcondition (by omega) (by decide) (by decide +kernel)
    have hsecond : (Inside.full steps levels).expression
        (value ++ .word "ELSE" :: (other ++ .word "END" :: tail)) =
          some (.word "ELSE" :: (other ++ .word "END" :: tail)) :=
      hread hvalue (by omega) (by decide) (by decide +kernel)
    have hthird : (Inside.full steps levels).expression
        (other ++ .word "END" :: tail) = some (.word "END" :: tail) :=
      hread hother (by omega) (by decide) (by decide +kernel)
    have htokens : .word "CASE" :: .word "WHEN" ::
        (condition ++ .word "THEN" ::
          (value ++ .word "ELSE" :: (other ++ [.word "END"]))) ++ tail =
        .word "CASE" :: .word "WHEN" ::
          (condition ++ .word "THEN" ::
            (value ++ .word "ELSE" :: (other ++ .word "END" :: tail))) := by
      simp
    rw [htokens, hplain]
    simp only [sequence, separated, andThen, following, branch, hfirst, hsecond,
      hthird, hthen, helse, hend, heach, Option.bind_some]

end GovernedCatalog.Sql.Recogniser
