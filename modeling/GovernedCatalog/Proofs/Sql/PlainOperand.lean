import GovernedCatalog.Proofs.Sql.Number
import GovernedCatalog.Proofs.Sql.Operand
import GovernedCatalog.Proofs.Sql.Phrase

/-!
# Names and constants as operands

Qualified names, words and constants are operands.  A word in front of a
constant could be the name of its type, so words that name no type of their own
and quoted names are told apart from the other ones.
-/

namespace GovernedCatalog.Sql.Recogniser

/-! ## Names and types -/

/-- The token is a name of its own, or that of a user's type. -/
def isName : Token → Bool
  | .quoted _ _ => true
  | .word w =>
      let k := Keyword.ofWord w
      k != "ARRAY" && (afterTypeWord k).isNone
  | _ => false

theorem baseType_of_isName {t : Token} (ht : isName t = true)
    (inner : List Token → Option TypeReading) (rest : List Token) :
    baseType inner t rest =
      (andThen objectName typeModifiers (t :: rest)).map
        fun rest' => ⟨.custom, false, rest'⟩ := by
  cases t with
  | word w =>
      simp only [isName, Bool.and_eq_true, bne_iff_ne, Option.isNone_iff_eq_none]
        at ht
      obtain ⟨harray, htype⟩ := ht
      simp only [baseType, htype]
  | quoted quote name => rfl
  | _ => cases ht

/-- A name is no constant of a type, whatever is read as its type. -/
theorem typedConstant_of_isName {t : Token} (ht : isName t = true)
    {rest : List Token}
    (hbracket : ∀ rest', andThen objectName typeModifiers (t :: rest) =
      some rest' → mark "[" rest' = none) (inside : Inside) :
    typedConstant inside (t :: rest) = none := by
  have hread : readType (t :: rest) =
      (readTypeFor (t :: rest) (t :: rest)).bind fun type =>
        if type.endsOuter then none else some (type.kind, type.rest) := rfl
  rw [typedConstant_eq_bind, hread, readTypeFor_cons, baseType_of_isName ht]
  cases htype : andThen objectName typeModifiers (t :: rest) with
  | none => rfl
  | some rest' =>
      have hsuffix : arraySuffix ⟨.custom, false, rest'⟩ =
          some ⟨.custom, false, rest'⟩ := by
        have hnone := hbracket rest' htype
        cases rest' with
        | nil => rfl
        | cons t' rest' =>
            have ht' : t' ≠ .mark "[" := by
              rintro rfl
              simp [mark] at hnone
            simp [arraySuffix, ht']
      simp only [Option.map_some, Option.bind_some, hsuffix]
      rfl

section Followers

variable {tail : List Token} (htail : Follows tail)

include htail

theorem mark_of_follows (spelling : String)
    (hspelling : Token.mark spelling ∉ followers) : mark spelling tail = none := by
  rw [mark_eq_single]
  apply single_eq_none
  intro t ht
  simp only [decide_eq_false_iff_not]
  rintro rfl
  exact hspelling (htail _ ht)

theorem anyKeyword_of_follows (names : List String)
    (hnames : ∀ t ∈ followers, isKeyword names t = false) :
    anyKeyword names tail = none := by
  rw [anyKeyword_eq_single]
  exact single_eq_none fun t ht => hnames t (htail t ht)

theorem keyword_of_follows (name : String)
    (hname : ∀ t ∈ followers, isKeyword [name] t = false) :
    keyword name tail = none :=
  anyKeyword_of_follows htail [name] hname

theorem collate_of_follows :
    following (keyword "COLLATE") objectName tail = some tail := by
  simp [following, branch, nothing,
    keyword_of_follows htail "COLLATE" (by decide +kernel)]

/-- Names before what follows them are read as a user's type. -/
theorem typedConstant_of_names {t : Token} (ht : isName t = true)
    {names : List Token} (hnames : objectName (t :: names) = some [])
    (inside : Inside) : typedConstant inside (t :: (names ++ tail)) = none := by
  apply typedConstant_of_isName ht
  intro rest' hrest
  have hname : objectName (t :: (names ++ tail)) = some tail :=
    objectName_keeps (followsType_of_follows htail) _ _ hnames
  have hmodifiers : typeModifiers tail = some tail := by
    simp [typeModifiers, following, branch, nothing,
      mark_of_follows htail "(" (by decide)]
  simp only [andThen, hname, Option.bind_some, hmodifiers,
    Option.some.injEq] at hrest
  subst hrest
  exact mark_of_follows htail "[" (by decide)

end Followers

/-! ## Operands -/

variable {depth upper : Nat}

/-- Tokens with a name in front, if they are no constant of a type. -/
theorem IsOperand.of_plain {tokens : List Token} (hstarts : Starts tokens)
    (hconstant : ∀ {levels steps tail}, depth ≤ levels →
      tokens.length ≤ steps → Ends upper tail →
        typedConstant (.full steps levels) (tokens ++ tail) = none)
    (hplain : ∀ {levels steps tail}, depth ≤ levels → tokens.length ≤ steps →
      Ends upper tail →
        plainOperand (.full steps levels) (tokens ++ tail) = some tail) :
    IsOperand depth upper tokens where
  starts := hstarts
  reads hlevels hsteps htail := by
    unfold firstOperand orElse
    rw [hconstant hlevels hsteps htail]
    simp only [andThen, hplain hlevels hsteps htail, Option.bind_some,
      collate_of_follows htail.follows]

/-- Names behind points. -/
def points (names : List String) : List Token :=
  names.flatMap fun name => [.mark ".", .quoted '"' name]

/-- A name and names behind points. -/
def dotted (first : String) (more : List String) : List Token :=
  .quoted '"' first :: points more

/-- Names behind points are read as long as there are points, in both ways of
reading them. -/
theorem points_read {names : List String} {steps tail : List Token}
    (hsteps : (points names).length ≤ steps.length)
    (htail : mark "." tail = none) :
    eachFor (mark ".") nameOrText steps (points names ++ tail) = some tail ∧
      repeatFor (andThen (mark ".") nameOrText) steps (points names ++ tail) =
        some tail := by
  induction names generalizing steps with
  | nil =>
      cases steps <;> simp [points, eachFor, repeatFor, andThen, htail]
  | cons name names ih =>
      obtain ⟨step, steps, rfl⟩ :=
        List.exists_cons_of_length_pos (Nat.lt_of_lt_of_le (by simp [points]) hsteps)
      have hcons : points (name :: names) =
          .mark "." :: .quoted '"' name :: points names := rfl
      have hshort : (points names).length ≤ steps.length := by
        simp only [hcons, List.length_cons] at hsteps
        omega
      have hnext := ih hshort
      simpa [hcons, eachFor, repeatFor, andThen, mark, nameOrText,
        Recogniser.name] using hnext

theorem objectName_dotted (first : String) (more : List String) :
    objectName (dotted first more) = some [] := by
  have heach : each (mark ".") nameOrText (points more) = some [] := by
    have hread : each (mark ".") nameOrText (points more ++ []) = some [] :=
      (points_read (by simp) rfl).1
    rwa [List.append_nil] at hread
  exact heach

theorem constantOf_of_follows (first : String) {tail : List Token}
    (htail : Follows tail) : constantOf first tail = none := by
  cases tail with
  | nil => rfl
  | cons t tail =>
      have ht := headIn_cons.1 htail
      cases t with
      | text value => simp [followers] at ht
      | hexadecimal => simp [followers] at ht
      | _ => rfl

/-- Names end before what follows them. -/
theorem afterName_points (inside : Inside) (first : String)
    (names : List String) {tail : List Token} (htail : Follows tail) :
    afterName inside first (points names ++ tail) = some tail := by
  have hpoint := mark_of_follows htail "." (by decide)
  have hopen := mark_of_follows htail "(" (by decide)
  rw [afterName_eq_ite]
  cases names with
  | nil =>
      simp [points, hpoint, hopen, optional, constantOf_of_follows first htail]
  | cons name names =>
      have hmany : many (andThen (mark ".") nameOrText)
          (points (name :: names) ++ tail) = some tail :=
        (points_read (by simp) hpoint).2
      have hmark : (mark "." (points (name :: names) ++ tail)).isSome := by
        simp [points, mark]
      simp only [hmark, if_true, afterPoint_eq_andThen]
      simp [andThen, hmany, hpoint, hopen, nothing]

theorem dotted_isOperand (first : String) (more : List String) :
    IsOperand 0 tightPrecedence (dotted first more) := by
  apply IsOperand.of_plain ⟨_, _, rfl, rfl, by simp⟩
  · intro levels steps tail _ _ htail
    exact typedConstant_of_names htail.follows rfl (objectName_dotted first more) _
  · intro levels steps tail _ _ htail
    exact afterName_points _ first more htail.follows

/-- A word that nothing follows. -/
theorem word_isOperand {w : String} (hname : isName (.word w) = true)
    (hstarts : Starts [.word w])
    (hplain : ∀ inside tail, Follows tail →
      afterWord inside w tail = some tail) :
    IsOperand 0 tightPrecedence [.word w] := by
  apply IsOperand.of_plain hstarts
  · intro levels steps tail _ _ htail
    exact typedConstant_of_names htail.follows hname rfl _
  · intro levels steps tail _ _ htail
    exact hplain _ tail htail.follows

theorem null_isOperand : IsOperand 0 tightPrecedence [.word "NULL"] :=
  word_isOperand (by decide +kernel) ⟨_, _, rfl, by decide +kernel, by simp⟩
    fun _ _ _ => rfl

theorem true_isOperand : IsOperand 0 tightPrecedence [.word "True"] :=
  word_isOperand (by decide +kernel) ⟨_, _, rfl, by decide +kernel, by simp⟩
    fun _ _ _ => rfl

theorem number_isOperand (digits : String) (long : Bool) :
    IsOperand 0 tightPrecedence [.number digits long] :=
  .of_plain ⟨_, _, rfl, rfl, by simp⟩ (fun _ _ _ => rfl) fun _ _ _ => rfl

theorem text_isOperand (value : String) :
    IsOperand 0 tightPrecedence [.text value] :=
  .of_plain ⟨_, _, rfl, rfl, by simp⟩ (fun _ _ _ => rfl) fun _ _ _ => rfl

/-- A sign in front of an operand takes the operators that bind as tightly as
products. -/
theorem IsOperand.negative {tokens : List Token}
    (h : IsOperand 0 timesPrecedence tokens) :
    IsOperand 0 timesPrecedence (.mark "-" :: tokens) := by
  apply IsOperand.of_plain ⟨_, _, rfl, rfl, by simp⟩ (fun _ _ _ => rfl)
  intro levels steps tail hlevels hsteps htail
  have hread := (h.phrase timesPrecedence).operandFor_eq hlevels
    (Nat.lt_of_succ_le hsteps) (by rwa [Nat.min_self])
  exact hread

theorem isNumber_isOperand {tokens : List Token}
    (h : IsNumber tokens) :
    IsOperand 0 timesPrecedence tokens := by
  have htight : timesPrecedence ≤ tightPrecedence := by decide
  induction h with
  | number digits =>
      exact (number_isOperand digits false).mono (Nat.le_refl _) htight
  | infinity =>
      apply IsOperand.mono _ (Nat.le_refl _) htight
      exact word_isOperand (by decide +kernel)
        ⟨_, _, rfl, by decide +kernel, by simp⟩
        fun inside tail htail => afterName_points inside "inf" [] htail
  | notANumber =>
      apply IsOperand.mono _ (Nat.le_refl _) htight
      exact word_isOperand (by decide +kernel)
        ⟨_, _, rfl, by decide +kernel, by simp⟩
        fun inside tail htail => afterName_points inside "NaN" [] htail
  | negative h ih => exact ih.negative

/-! ## Casts and tests -/

/-- Tokens that are read as one type before what follows a type. -/
def IsType (tokens : List Token) : Prop :=
  ∀ ⦃tail⦄, Follows tail → typeName (tokens ++ tail) = some tail

theorem isType_of_typeName {tokens : List Token} (h : typeName tokens = some []) :
    IsType tokens :=
  fun _ htail => (typeName_before h htail).1

/-- The type of arrays of the type's values. -/
theorem isType_brackets {tokens : List Token} (h : typeName tokens = some []) :
    IsType (tokens ++ [.mark "[", .mark "]"]) := by
  intro tail htail
  rw [List.append_assoc]
  exact (typeName_before h htail).2

variable {lower : Nat} {tokens type : List Token}

theorem IsPhrase.cast (h : IsPhrase depth lower tightPrecedence tokens)
    (hlower : lower < tightPrecedence) (htype : IsType type) :
    IsPhrase depth lower tightPrecedence (tokens ++ .mark "::" :: type) :=
  h.operator (by decide) hlower (Nat.le_refl _)
    fun _ _ _ _ _ htail => htype htail.follows

theorem IsPhrase.isNull (h : IsPhrase depth lower upper tokens)
    (hlower : lower < isPrecedence) (hupper : isPrecedence ≤ upper) :
    IsPhrase depth lower tightPrecedence
      (tokens ++ [.word "IS", .word "NULL"]) :=
  h.operator (by decide) hlower hupper fun _ _ _ _ _ _ => rfl

theorem IsPhrase.isNotNull (h : IsPhrase depth lower upper tokens)
    (hlower : lower < isPrecedence) (hupper : isPrecedence ≤ upper) :
    IsPhrase depth lower tightPrecedence
      (tokens ++ [.word "IS", .word "NOT", .word "NULL"]) :=
  h.operator (by decide) hlower hupper fun _ _ _ _ _ _ => rfl

end GovernedCatalog.Sql.Recogniser
