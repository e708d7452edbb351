import GovernedCatalog.ColumnType.Literal
import GovernedCatalog.Proofs.ColumnType.Constant
import GovernedCatalog.Proofs.Sql.Construct

/-!
# Constants that are written for types

If the name of a flat type is one type in SQL, the constants of the type and of
its arrays are phrases, whatever values they are written for.
-/

namespace GovernedCatalog

open Sql Sql.Token Sql.Recogniser

/-- The name is that of one type in SQL and does not end in a comment. -/
def NamesType (name : String) : Prop :=
  ∃ tokens, Token.ofText? name = some tokens ∧ typeName tokens = some [] ∧
    ¬EndsInLineComment name.toList

/-- The name that stands for the type in SQL; for arrays that of the type of
their elements. -/
def ColumnType.ownName : ColumnType → String
  | scalar name => name
  | array base => base.ownName
  | domain name _ => name

theorem NamesType.writes {name : String} (h : NamesType name) :
    Writes (fun tokens => typeName tokens = some []) name := by
  obtain ⟨tokens, hname, htype, hends⟩ := h
  exact ⟨tokens, .of_ofText? hname hends, htype⟩

theorem namesType_of_readsAs {name : String} (tokens : List Token)
    (h : ReadsAs name tokens ∧ typeName tokens = some []) : NamesType name :=
  ⟨tokens, h.1.1, h.2, h.1.not_endsInLineComment⟩

theorem text_namesType : NamesType "text" :=
  namesType_of_readsAs [.word "text"] (by decide +kernel)

theorem basicName_namesType {name : String} (h : NamesType name) :
    NamesType (basicName name) := by
  unfold basicName
  split
  · exact namesType_of_readsAs [.word "int2"] (by decide +kernel)
  · exact namesType_of_readsAs [.word "int4"] (by decide +kernel)
  · exact namesType_of_readsAs [.word "int8"] (by decide +kernel)
  · exact h

theorem NamesType.array_writes {name : String} (h : NamesType name) :
    Writes IsType (name ++ "[]") := by
  obtain ⟨tokens, hspells, htype⟩ := h.writes
  exact ⟨_, hspells.ended (by decide +kernel), isType_brackets htype⟩

namespace ColumnType.Flat

variable {t : ColumnType} (ht : t.Flat) (hname : NamesType t.ownName)

include ht hname

theorem storageSql_writes : Writes IsType t.storageSql := by
  cases ht with
  | scalar name =>
      exact (basicName_namesType hname).writes.mono fun _ => isType_of_typeName
  | domain domain name => exact hname.writes.mono fun _ => isType_of_typeName
  | array name => exact (basicName_namesType hname).array_writes

end ColumnType.Flat

/-- The tokens are a constant, with so many levels inside. -/
def IsConstant (depth : Nat) (tokens : List Token) : Prop :=
  ∀ lower < tightPrecedence, IsPhrase depth lower timesPrecedence tokens

theorem IsConstant.mono {depth depth' : Nat} {tokens : List Token}
    (h : IsConstant depth tokens) (hdepth : depth ≤ depth') :
    IsConstant depth' tokens :=
  fun lower hlower => (h lower hlower).mono hdepth (Nat.le_refl _)

theorem SpellsNumber.writes {sql : String} (h : SpellsNumber sql) :
    Writes (IsConstant 0) sql := by
  obtain ⟨tokens, hspells, hnumber⟩ := h
  exact ⟨tokens, hspells, fun lower _ => (isNumber_isOperand hnumber).phrase lower⟩

theorem constantText?_writes {name constant : String} {value : Json}
    (hname : NamesType name) (h : constantText? name value = some constant) :
    Writes (IsConstant 0) constant := by
  unfold constantText? at h
  split at h
  · obtain ⟨n, -, rfl⟩ := Option.map_eq_some_iff.1 h
    exact SpellsNumber.writes (spellsNumber_int n)
  split at h
  · obtain ⟨x, -, rfl⟩ := Option.map_eq_some_iff.1 h
    exact SpellsNumber.writes (spellsNumber_write x)
  · obtain ⟨text, -, rfl⟩ := Option.map_eq_some_iff.1 h
    obtain ⟨tokens, hspells, htype⟩ := hname.writes
    have hliteral := ((spells_literal text).append spells_cast fun _ => by
      simp).then_ hspells
    refine ⟨_, hliteral, fun lower hlower => ?_⟩
    have hcast := ((text_isOperand text).phrase lower).cast hlower
      (isType_of_typeName htype)
    simpa using hcast.mono (Nat.le_refl _) (by decide)

/-- The tokens are an array and the type it is cast to. -/
def IsTypedArray (tokens : List Token) : Prop :=
  ∃ array type, tokens = array ++ .mark "::" :: type ∧
    IsOperand 1 tightPrecedence array ∧ IsType type

theorem IsTypedArray.constant {tokens : List Token} (h : IsTypedArray tokens) :
    IsConstant 1 tokens := by
  obtain ⟨array, type, rfl, harray, htype⟩ := h
  intro lower hlower
  exact ((harray.phrase lower).cast hlower htype).mono (Nat.le_refl _) (by decide)

theorem spells_typedArray {joined type : String} {items types : List Token}
    (hitems : SpellsWhole joined items) (htype : SpellsWhole type types) :
    SpellsWhole ("ARRAY[" ++ joined ++ "]::" ++ type)
      ([.word "ARRAY", .mark "["] ++ items ++ [.mark "]", .mark "::"] ++ types) := by
  have harray : SpellsWhole "ARRAY" [.word "ARRAY"] :=
    .of_readsAs (by decide +kernel)
  have hclose : Separates "]::" [.mark "]", .mark "::"] :=
    ⟨by decide +kernel, (spells_delimiter ']' (by decide)).then_ spells_cast⟩
  exact ((harray.closed '[' (by decide)).then_ hitems).separated hclose htype

theorem typedArray_writes {constants : List String} {type : String}
    (hconstants : ∀ constant ∈ constants, Writes (IsConstant 0) constant)
    (htype : Writes IsType type) :
    Writes IsTypedArray
      ("ARRAY[" ++ Text.join ", " constants ++ "]::" ++ type) := by
  obtain ⟨_, hlist, items, rfl, -, hconstant⟩ :=
    Writes.join separates_comma hconstants
  obtain ⟨types, htypes, hread⟩ := htype
  have hitem (item : List Token) (hitem : item ∈ items) : IsExpression 1 item :=
    (hconstant item hitem 0 (by decide)).expression
  exact ⟨_, spells_typedArray hlist htypes, _, types, by simp, array_isOperand hitem, hread⟩

theorem ColumnType.Flat.literal_writes {t : ColumnType} (ht : t.Flat)
    (hname : NamesType t.ownName) {value : Json} {constant : String}
    (h : t.literal value = .ok constant) : Writes (IsConstant 1) constant := by
  have hscalar {name constant : String} {value : Json} (hname : NamesType name)
      (h : (ColumnType.scalar name).literal value = .ok constant) :
      Writes (IsConstant 0) constant := by
    unfold ColumnType.literal at h
    split at h
    · next hconstant =>
        cases h
        exact constantText?_writes hname hconstant
    · cases h
  cases ht with
  | scalar name =>
      exact (hscalar hname h).mono fun _ h => h.mono (Nat.zero_le _)
  | domain domain name =>
      exact (hscalar hname h).mono fun _ h => h.mono (Nat.zero_le _)
  | array name =>
      unfold ColumnType.literal at h
      split at h
      · obtain ⟨constants, hconstants, h⟩ := bind_eq_ok.1 h
        cases h
        apply Writes.mono (typedArray_writes _ (NamesType.array_writes hname))
          fun _ => IsTypedArray.constant
        intro constant hconstant
        obtain ⟨item, -, hitem⟩ := (mem_mapM_iff hconstants).1 hconstant
        exact hscalar hname hitem
      · cases h

end GovernedCatalog
