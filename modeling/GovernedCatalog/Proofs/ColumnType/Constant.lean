import GovernedCatalog.ColumnType.Default
import GovernedCatalog.ColumnType.Literal
import GovernedCatalog.Proofs.Fallible

/-!
# Defaults written back as constants

A default that was read from an expression of the database is a value of some
kind, and whether the column's type can write it as a constant depends on the
kind and the type alone.  Scalars write what they read, but for serial types.
Arrays and domains also read defaults that they cannot write.
-/

namespace GovernedCatalog

/-! ## What is read -/

/-- The values that are read for the constants of a named type. -/
inductive ConstantOf (name : String) : Json → Prop where
  | whole (hname : name ∈ integerNames) {n : Int}
      (hn : Decimal.fitsInt64 n = true) : ConstantOf name (.int n)
  | real (hname : name ∈ realNames) (x : Float) : ConstantOf name (.real x)
  | truth (hname : name ∈ booleanNames) (b : Bool) : ConstantOf name (.bool b)
  | document (hname : name ∈ documentNames) (v : Json) : ConstantOf name v
  | text (hwhole : name ∉ integerNames) (hreal : name ∉ realNames)
      (hdocument : name ∉ documentNames) (s : String) : ConstantOf name (.str s)

/-- The defaults that are read for a column of an introspected type. -/
inductive DefaultOf : ColumnType → Json → Prop where
  | scalar {name : String} {v : Json} (hv : ConstantOf name v) :
      DefaultOf (.scalar name) v
  | domain (domain : String) {name : String} {v : Json}
      (hv : ConstantOf name v) : DefaultOf (.domain domain (.scalar name)) v
  /-- An expression with brackets denotes a list, in which what is no default
  becomes null. -/
  | list {name : String} {items : List Json}
      (hitems : ∀ item ∈ items, item = .null ∨ ConstantOf name item) :
      DefaultOf (.array (.scalar name)) (.arr items)
  /-- Any other expression is read as one for an item. -/
  | item {name : String} {v : Json} (hv : ConstantOf name v) :
      DefaultOf (.array (.scalar name)) v

/-- The types that an introspection gives to columns. -/
inductive ColumnType.Flat : ColumnType → Prop where
  | scalar (name : String) : Flat (.scalar name)
  | array (name : String) : Flat (.array (.scalar name))
  | domain (domain name : String) : Flat (.domain domain (.scalar name))

theorem readInt?_fits {cs : List Char} {n : Int}
    (h : Decimal.readInt? cs = some n) : Decimal.fitsInt64 n = true := by
  unfold Decimal.readInt? at h
  dsimp only at h
  obtain ⟨_, h⟩ := Option.ite_none_left_eq_some.1 h
  obtain ⟨hfits, hv⟩ := Option.ite_none_right_eq_some.1 h
  rw [← Option.some.inj hv]
  exact hfits

theorem readConstant?_constantOf {name constant : String} {v : Json}
    (h : readConstant? name constant = some v) : ConstantOf name v := by
  unfold readConstant? at h
  simp only [List.contains_iff_mem] at h
  split at h
  · next hname =>
      obtain ⟨n, hn, rfl⟩ := Option.map_eq_some_iff.1 h
      exact .whole hname (readInt?_fits hn)
  next hwhole =>
  split at h
  · next hname =>
      split at h
      · split at h
        · cases h
        · cases h
          exact .real hname _
      · cases h
  next hreal =>
  split at h
  · next hname =>
      cases h
      exact .truth hname _
  split at h
  · next hname => exact .document hname v
  · next hdocument =>
      cases h
      exact .text hwhole hreal hdocument _

theorem readScalarDefault_constantOf {name raw : String} {v : Json}
    (h : readScalarDefault name raw = .ok (some v)) : ConstantOf name v := by
  unfold readScalarDefault at h
  split at h
  · cases h
  split at h
  · cases h
  split at h
  · next hconstant =>
      cases h
      exact readConstant?_constantOf hconstant
  · cases h

theorem ColumnType.scalar_constantOf {name raw : String} {v : Json}
    (h : (scalar name).readDefault raw = .ok (some v)) : ConstantOf name v := by
  unfold readDefault at h
  split at h
  · cases h
  · exact readScalarDefault_constantOf h

theorem ColumnType.Flat.defaultOf {t : ColumnType} (ht : t.Flat) {raw : String}
    {v : Json} (h : t.readDefault raw = .ok (some v)) : DefaultOf t v := by
  cases ht with
  | scalar name => exact .scalar (scalar_constantOf h)
  | domain domain name =>
      unfold readDefault at h
      split at h
      · cases h
      · exact .domain domain (scalar_constantOf h)
  | array name =>
      unfold readDefault at h
      split at h
      · cases h
      dsimp only at h
      split at h
      · exact .item (scalar_constantOf h)
      · obtain ⟨values, hvalues, h⟩ := bind_eq_ok.1 h
        cases h
        refine .list fun item hitem => ?_
        obtain ⟨value?, hvalue, rfl⟩ := List.mem_map.1 hitem
        obtain ⟨text, _, hread⟩ := (mem_mapM_iff hvalues).1 hvalue
        cases value? with
        | none => exact .inl rfl
        | some w => exact .inr (scalar_constantOf hread)

/-! ## What can be written -/

/-- The reasons why a default cannot be written as a constant of its type. -/
inductive Misfit : ColumnType → Json → Prop where
  /-- A text that is no whole number, in a serial type. -/
  | serial {name : String} {v : Json} (hname : name ∈ serialNames)
      (hv : wholeNumber? v = none) : Misfit (.scalar name) v
  | unlisted {element : ColumnType} {v : Json} (hv : ∀ items, v ≠ .arr items) :
      Misfit (.array element) v
  | nullItem {name : String} {items : List Json} (hname : name ∉ documentNames)
      (hitem : .null ∈ items) : Misfit (.array (.scalar name)) (.arr items)
  | item {name : String} {items : List Json} {item : Json}
      (hitem : item ∈ items) (h : Misfit (.scalar name) item) :
      Misfit (.array (.scalar name)) (.arr items)
  /-- A domain takes no structured value or null, whatever its base is, if it is
  not named like a type of documents. -/
  | structured {domain : String} {base : ColumnType} {v : Json}
      (hname : domain ∉ documentNames)
      (hv : v = .null ∨ (∃ items, v = .arr items) ∨ ∃ fields, v = .obj fields) :
      Misfit (.domain domain base) v
  /-- A domain that is named like a type of numbers takes only such numbers. -/
  | whole {domain : String} {base : ColumnType} {v : Json}
      (hname : domain ∈ integerNames ∨ domain ∈ serialNames)
      (hv : wholeNumber? v = none) : Misfit (.domain domain base) v
  | real {domain : String} {base : ColumnType} {v : Json}
      (hname : domain ∈ realNames) (hv : realNumber? v = none) :
      Misfit (.domain domain base) v

theorem realNames_apart :
    ∀ name ∈ realNames, name ∉ integerNames ∧ name ∉ serialNames := by decide

theorem documentNames_apart :
    ∀ name ∈ documentNames, name ∉ integerNames ∧ name ∉ serialNames ∧
      name ∉ realNames := by decide

theorem booleanNames_apart :
    ∀ name ∈ booleanNames, name ∉ integerNames ∧ name ∉ serialNames ∧
      name ∉ realNames := by decide

/-- The rule by which the name of a type writes a value. -/
theorem constantText?_eq_none_iff {name : String} {v : Json} :
    constantText? name v = none ↔
      if name ∈ integerNames ∨ name ∈ serialNames then wholeNumber? v = none
      else if name ∈ realNames then realNumber? v = none
      else name ∉ documentNames ∧
        (v = .null ∨ (∃ items, v = .arr items) ∨ ∃ fields, v = .obj fields) := by
  unfold constantText? quotedText?
  simp only [List.contains_iff_mem, Bool.or_eq_true]
  split
  · simp
  · split
    · simp
    · split
      · next hname => simp [hname]
      · next hname => cases v <;> simp [hname]

/-- A name writes every constant that it reads, but for texts of serial
types. -/
theorem ConstantOf.constantText?_eq_none_iff {name : String} {v : Json}
    (h : ConstantOf name v) :
    constantText? name v = none ↔ name ∈ serialNames ∧ wholeNumber? v = none := by
  rw [GovernedCatalog.constantText?_eq_none_iff]
  cases h with
  | whole hname hn => simp [hname, wholeNumber?, hn]
  | real hname x =>
      obtain ⟨hwhole, hserial⟩ := realNames_apart name hname
      simp [hname, hwhole, hserial, realNumber?]
  | truth hname b =>
      obtain ⟨hwhole, hserial, hreal⟩ := booleanNames_apart name hname
      simp [hwhole, hserial, hreal]
  | document hname =>
      obtain ⟨hwhole, hserial, hreal⟩ := documentNames_apart name hname
      simp [hname, hwhole, hserial, hreal]
  | text hwhole hreal hdocument s =>
      by_cases hserial : name ∈ serialNames
      · simp [hserial]
      · simp [hwhole, hreal, hserial]

/-- Null is written by the names of documents only. -/
theorem constantText?_null {name : String} :
    constantText? name .null = none ↔ name ∉ documentNames := by
  rw [constantText?_eq_none_iff]
  by_cases hdocument : name ∈ documentNames
  · obtain ⟨hwhole, hserial, hreal⟩ := documentNames_apart name hdocument
    simp [hdocument, hwhole, hserial, hreal]
  · simp [hdocument, wholeNumber?, realNumber?]

section Literal

variable {name : String} {base : ColumnType} {v : Json} {items : List Json}

theorem scalar_literal_ok_iff :
    (∃ sql, (ColumnType.scalar name).literal v = .ok sql) ↔
      constantText? name v ≠ none := by
  unfold ColumnType.literal
  cases constantText? name v <;> simp

theorem domain_literal_ok_iff :
    (∃ sql, (ColumnType.domain name base).literal v = .ok sql) ↔
      constantText? name v ≠ none := by
  unfold ColumnType.literal
  cases constantText? name v <;> simp

theorem list_literal_ok_iff :
    (∃ sql, (ColumnType.array base).literal (.arr items) = .ok sql) ↔
      ∀ item ∈ items, ∃ sql, base.literal item = .ok sql := by
  rw [← mapM_ok_iff]
  unfold ColumnType.literal
  dsimp only
  constructor
  · rintro ⟨sql, h⟩
    obtain ⟨constants, hconstants, _⟩ := bind_eq_ok.1 h
    exact ⟨constants, hconstants⟩
  · rintro ⟨constants, hconstants⟩
    exact ⟨_, bind_eq_ok.2 ⟨constants, hconstants, rfl⟩⟩

theorem unlisted_literal (hv : ∀ items, v ≠ .arr items) :
    ¬ ∃ sql, (ColumnType.array base).literal v = .ok sql := by
  unfold ColumnType.literal
  cases v with
  | arr items => exact absurd rfl (hv items)
  | _ => simp

theorem misfit_scalar_iff :
    Misfit (.scalar name) v ↔ name ∈ serialNames ∧ wholeNumber? v = none := by
  constructor
  · rintro (⟨hname, hv⟩ | _)
    exact ⟨hname, hv⟩
  · rintro ⟨hname, hv⟩
    exact .serial hname hv

theorem misfit_domain_iff :
    Misfit (.domain name base) v ↔ constantText? name v = none := by
  rw [constantText?_eq_none_iff]
  constructor
  · intro h
    cases h with
    | structured hname hv =>
        have hnumber : wholeNumber? v = none ∧ realNumber? v = none := by
          rcases hv with rfl | ⟨_, rfl⟩ | ⟨_, rfl⟩ <;> exact ⟨rfl, rfl⟩
        split
        · exact hnumber.1
        split
        · exact hnumber.2
        · exact ⟨hname, hv⟩
    | whole hname hv =>
        rw [if_pos hname]
        exact hv
    | real hname hv =>
        rw [if_neg (not_or.2 (realNames_apart name hname)), if_pos hname]
        exact hv
  · intro h
    split at h
    · next hname => exact .whole hname h
    split at h
    · next hname => exact .real hname h
    · exact .structured h.1 h.2

/-- A list is written unless an item is not. -/
theorem list_literal_ok_iff_misfit
    (hitems : ∀ item ∈ items, item = .null ∨ ConstantOf name item) :
    (∃ sql, (ColumnType.array (.scalar name)).literal (.arr items) = .ok sql) ↔
      ¬ Misfit (.array (.scalar name)) (.arr items) := by
  rw [list_literal_ok_iff]
  constructor
  · intro hok h
    cases h with
    | unlisted hv => exact hv items rfl
    | nullItem hname hitem =>
        exact scalar_literal_ok_iff.1 (hok _ hitem) (constantText?_null.2 hname)
    | @item _ _ item hitem h =>
        obtain ⟨hserial, hwhole⟩ := misfit_scalar_iff.1 h
        refine scalar_literal_ok_iff.1 (hok _ hitem) ?_
        rw [constantText?_eq_none_iff, if_pos (.inr hserial)]
        exact hwhole
  · intro hnot item hitem
    rw [scalar_literal_ok_iff]
    intro hnone
    rcases hitems item hitem with rfl | hconstant
    · exact hnot (.nullItem (constantText?_null.1 hnone) hitem)
    · obtain ⟨hserial, hwhole⟩ := hconstant.constantText?_eq_none_iff.1 hnone
      exact hnot (.item hitem (.serial hserial hwhole))

end Literal

/-- A default that was read is written as a constant of its type unless it is a
misfit. -/
theorem DefaultOf.literal_ok_iff {t : ColumnType} {v : Json}
    (h : DefaultOf t v) :
    (∃ sql, t.literal v = .ok sql) ↔ ¬ Misfit t v := by
  cases h with
  | scalar hv =>
      rw [scalar_literal_ok_iff, misfit_scalar_iff]
      exact not_congr hv.constantText?_eq_none_iff
  | domain domain hv =>
      rw [domain_literal_ok_iff, misfit_domain_iff]
  | list hitems => exact list_literal_ok_iff_misfit hitems
  | @item name v hv =>
      by_cases hlist : ∃ items, v = .arr items
      · obtain ⟨items, rfl⟩ := hlist
        -- Only documents are read as lists, and they write every item.
        cases hv with
        | document hname =>
            exact list_literal_ok_iff_misfit fun item _ =>
              .inr (.document hname item)
      · have hv : ∀ items, v ≠ .arr items := fun items h => hlist ⟨items, h⟩
        exact iff_of_false (unlisted_literal hv) (not_not_intro (.unlisted hv))

end GovernedCatalog
