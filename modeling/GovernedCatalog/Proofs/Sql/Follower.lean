import GovernedCatalog.Sql.Recogniser

/-!
# Tokens behind a part

A recogniser stops at the end of its part if the token behind the part does not
continue it.  Most recognisers look at one token only.
-/

namespace GovernedCatalog.Sql.Recogniser

/-- The list is empty or begins with one of the tokens. -/
def HeadIn (tokens tail : List Token) : Prop := ∀ t ∈ tail.head?, t ∈ tokens

@[simp] theorem headIn_nil (tokens : List Token) : HeadIn tokens [] := by
  simp [HeadIn]

@[simp] theorem headIn_cons {tokens tail : List Token} {t : Token} :
    HeadIn tokens (t :: tail) ↔ t ∈ tokens := by simp [HeadIn]

theorem HeadIn.mono {tokens tokens' tail : List Token}
    (h : HeadIn tokens tail) (hsub : tokens ⊆ tokens') : HeadIn tokens' tail :=
  fun t ht => hsub (h t ht)

/-- The tokens that stand behind operands and types in compiled guards.  None of
them continues a name, a constant or a type. -/
def followers : List Token :=
  [.mark ")", .mark "]", .mark ",", .mark "=", .mark "<", .mark "<=", .mark ">",
    .mark ">=", .mark "~", .mark "~*", .mark "&&", .mark "::", .word "AND",
    .word "OR", .word "IS", .word "THEN", .word "ELSE", .word "END",
    .word "FROM"]

/-- What stands behind a part that it does not continue. -/
abbrev Follows : List Token → Prop := HeadIn followers

/-- One token with a property. -/
def single (good : Token → Bool) : Recogniser
  | [] => none
  | token :: rest => if good token then some rest else none

section Single

variable {good : Token → Bool} {tokens tail rest : List Token}

theorem single_eq_none (h : ∀ t ∈ tail.head?, good t = false) :
    single good tail = none := by
  cases tail with
  | nil => rfl
  | cons t tail => simp [single, h t (by simp)]

theorem single_append (h : ∀ t ∈ tail.head?, good t = false)
    (tokens : List Token) :
    single good (tokens ++ tail) = (single good tokens).map (· ++ tail) := by
  cases tokens with
  | nil => simpa [single] using single_eq_none h
  | cons t tokens => by_cases ht : good t <;> simp [single, ht]

/-- The token is there, whatever stands behind. -/
theorem single_append_of_eq_some (h : single good tokens = some rest)
    (tail : List Token) :
    single good (tokens ++ tail) = some (rest ++ tail) := by
  cases tokens with
  | nil => cases h
  | cons t tokens =>
      by_cases ht : good t
      · simp_all [single]
      · simp [single, ht] at h

/-- A recogniser that takes or refuses a token whatever stands behind it. -/
theorem eq_single {r : Recogniser} (hnil : r [] = none)
    (h : ∀ t, (∀ rest, r (t :: rest) = none) ∨
      ∀ rest, r (t :: rest) = some rest) :
    r = single fun t => (r [t]).isSome := by
  funext tokens
  cases tokens with
  | nil => exact hnil
  | cons t rest =>
      rcases h t with hnone | hsome
      · simp [single, hnone]
      · simp [single, hsome]

theorem anyKeyword_eq_single (names : List String) :
    anyKeyword names = single (isKeyword names) := by
  funext tokens
  cases tokens <;> rfl

theorem mark_eq_single (spelling : String) :
    mark spelling = single (· = .mark spelling) := by
  funext tokens
  cases tokens <;> simp [mark, single]

end Single

end GovernedCatalog.Sql.Recogniser
