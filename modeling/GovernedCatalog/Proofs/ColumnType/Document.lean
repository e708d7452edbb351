import GovernedCatalog.ColumnType.Document
import GovernedCatalog.Proofs.Json.Reading
import GovernedCatalog.Proofs.Json.Record

/-!
# Types are read as they are written

The document of a type, as a value and as a text, is read as the type itself.  A reader
also takes documents that no writer makes: it ignores the name of an array and whether it
is a domain, and what a scalar is based on.  Written again they are read as the same type.
-/

namespace GovernedCatalog

open Json

namespace TypeDocument

section Fields

variable {j : Json} {fields : Fields}
  (hfields : recordFields fieldNames j = some fields) {name : String}
  {isArray isDomain : Bool}
  (hname : fields.required "typename" asString = some name)
  (harray : fields.withDefault "is_array" false asBool = some isArray)
  (hdomain : fields.withDefault "is_domain" false asBool = some isDomain)

include hfields hname harray hdomain

theorem ofJson?_plain (hbase : fields "base_type" = none) :
    ofJson? j = some (plain name isArray isDomain) := by
  rw [ofJson?]
  split
  next h =>
    rw [hfields] at h
    cases h
  next found h =>
    rw [hfields] at h
    cases h
    simp only [hname, harray, hdomain, Option.bind_eq_bind, Option.bind_some]
    split
    next => rfl
    next => rfl
    next base _ h =>
      rw [hbase] at h
      cases h

theorem ofJson?_based {base : TypeDocument} {baseJson : Json}
    (hbase : fields "base_type" = some baseJson)
    (hread : ofJson? baseJson = some base) (hnull : baseJson.isNull = false) :
    ofJson? j = some (based name isArray isDomain base) := by
  rw [ofJson?]
  split
  next h =>
    rw [hfields] at h
    cases h
  next found h =>
    rw [hfields] at h
    cases h
    simp only [hname, harray, hdomain, Option.bind_eq_bind, Option.bind_some]
    split
    next h =>
      rw [hbase] at h
      cases h
    next h =>
      rw [hbase] at h
      cases h
      cases hnull
    next base' _ h =>
      rw [hbase] at h
      cases h
      rw [hread]
      rfl

end Fields

theorem ofJson?_toJson (doc : TypeDocument) : ofJson? doc.toJson = some doc := by
  induction doc with
  | plain name isArray isDomain =>
    cases isArray <;> cases isDomain <;>
      exact ofJson?_plain (recordFields_object _ (by simp [flagFields])) rfl rfl
        rfl rfl
  | based name isArray isDomain base ih =>
    have hnull : base.toJson.isNull = false := by cases base <;> rfl
    cases isArray <;> cases isDomain <;>
      exact ofJson?_based (recordFields_object _ (by simp [flagFields])) rfl rfl
        rfl rfl ih hnull

end TypeDocument


namespace ColumnType

/-! ## What documents describe -/

/-- The document describes the type. -/
inductive Described : TypeDocument → ColumnType → Prop
  | scalar (name : String) : Described (.plain name false false) (scalar name)
  | array {base : TypeDocument} {t : ColumnType} (h : Described base t) (name : String)
      (isDomain : Bool) : Described (.based name true isDomain base) (array t)
  | domain {base : TypeDocument} {t : ColumnType} (h : Described base t) (name : String) :
      Described (.based name false true base) (domain name t)
  | unused {base : TypeDocument} {t : ColumnType} (h : Described base t) (name : String) :
      Described (.based name false false base) (scalar name)

theorem ofDocument?_eq_some_iff {doc : TypeDocument} {t : ColumnType} :
    ofDocument? doc = some t ↔ Described doc t := by
  constructor
  · intro h
    induction doc generalizing t with
    | plain name isArray isDomain =>
      cases isArray <;> cases isDomain <;> cases h
      exact .scalar name
    | based name isArray isDomain base ih =>
      obtain ⟨found, hfound, h⟩ := Option.bind_eq_some_iff.1 h
      have hbase := ih hfound
      cases isArray with
      | true =>
        cases h
        exact hbase.array name isDomain
      | false =>
        cases isDomain with
        | true =>
          cases h
          exact hbase.domain name
        | false =>
          cases h
          exact hbase.unused name
  · intro h
    induction h with
    | scalar name => rfl
    | array _ name isDomain ih => simp [ofDocument?, ih]
    | domain _ name ih => simp [ofDocument?, ih]
    | unused _ name ih => simp [ofDocument?, ih]

theorem document_described (t : ColumnType) : Described t.document t := by
  induction t with
  | scalar name => exact .scalar name
  | array base ih => exact ih.array _ false
  | domain name base ih => exact ih.domain name

theorem ofDocument?_document (t : ColumnType) : ofDocument? t.document = some t :=
  ofDocument?_eq_some_iff.2 t.document_described

theorem ofJson?_toJson (t : ColumnType) : ofJson? t.toJson = some t := by
  unfold ofJson? toJson
  rw [TypeDocument.ofJson?_toJson]
  exact t.ofDocument?_document

/-! ## What is written -/

/-- The fields of a type's document: there is no false flag and no empty base. -/
inductive Field : ColumnType → String → Json → Prop
  | name (t : ColumnType) : Field t "typename" (.str t.name)
  | isArray (base : ColumnType) : Field (array base) "is_array" (.bool true)
  | isDomain (name : String) (base : ColumnType) :
      Field (domain name base) "is_domain" (.bool true)
  | arrayBase (base : ColumnType) : Field (array base) "base_type" base.toJson
  | domainBase (name : String) (base : ColumnType) :
      Field (domain name base) "base_type" base.toJson

theorem toJson_scalar (name : String) :
    (scalar name).toJson = object [("typename", .str (scalar name).name)] := rfl

theorem toJson_array (base : ColumnType) :
    (array base).toJson = object [("typename", .str (array base).name),
      ("base_type", base.toJson), ("is_array", .bool true)] := rfl

theorem toJson_domain (name : String) (base : ColumnType) :
    (domain name base).toJson = object [("typename", .str (domain name base).name),
      ("base_type", base.toJson), ("is_domain", .bool true)] := rfl

theorem toJson_fields (t : ColumnType) :
    ∃ fields, t.toJson = .obj fields ∧ ∀ key j, (key, j) ∈ fields ↔ t.Field key j := by
  cases t with
  | scalar name =>
    refine ⟨_, toJson_scalar name, fun key j => ?_⟩
    rw [mem_sortFields_iff (by simp), List.mem_singleton]
    constructor
    · rintro ⟨⟩
      exact .name (scalar name)
    · rintro ⟨⟩
      rfl
  | array base =>
    refine ⟨_, toJson_array base, fun key j => ?_⟩
    rw [mem_sortFields_iff (by simp)]
    simp only [List.mem_cons, Prod.mk.injEq, List.not_mem_nil, or_false]
    constructor
    · rintro (⟨rfl, rfl⟩ | ⟨rfl, rfl⟩ | ⟨rfl, rfl⟩)
      · exact .name (array base)
      · exact .arrayBase base
      · exact .isArray base
    · rintro (_ | _ | _) <;> simp
  | domain name base =>
    refine ⟨_, toJson_domain name base, fun key j => ?_⟩
    rw [mem_sortFields_iff (by simp)]
    simp only [List.mem_cons, Prod.mk.injEq, List.not_mem_nil, or_false]
    constructor
    · rintro (⟨rfl, rfl⟩ | ⟨rfl, rfl⟩ | ⟨rfl, rfl⟩)
      · exact .name (domain name base)
      · exact .domainBase name base
      · exact .isDomain name base
    · rintro (_ | _ | _) <;> simp

/-! ## Texts -/

theorem toJson_isCanonical (t : ColumnType) : t.toJson.IsCanonical := by
  induction t with
  | scalar name =>
    rw [toJson_scalar]
    exact object_isCanonical (by simp [isCanonical_str])
  | array base ih =>
    rw [toJson_array]
    exact object_isCanonical (by simp [isCanonical_str, isCanonical_bool, ih])
  | domain name base ih =>
    rw [toJson_domain]
    exact object_isCanonical (by simp [isCanonical_str, isCanonical_bool, ih])

/-- How deep the objects of a type's document nest. -/
def depth : ColumnType → Nat
  | scalar _ => 1
  | array base => base.depth + 1
  | domain _ base => base.depth + 1

theorem depth_pos (t : ColumnType) : 1 ≤ t.depth := by
  cases t <;> simp [depth]

theorem toJson_readable {t : ColumnType} {limit : Nat} (h : t.depth ≤ limit) :
    t.toJson.Readable limit := by
  induction t generalizing limit with
  | scalar name =>
    obtain ⟨inner, rfl⟩ := Nat.exists_eq_add_of_le' h
    rw [toJson_scalar]
    exact object_readable (by simp [Readable])
  | array base ih =>
    obtain ⟨inner, rfl⟩ := Nat.exists_eq_add_of_le' (Nat.le_trans (depth_pos _) h)
    have hbase := ih (Nat.le_of_succ_le_succ h)
    rw [toJson_array]
    exact object_readable (by simp [Readable, hbase])
  | domain name base ih =>
    obtain ⟨inner, rfl⟩ := Nat.exists_eq_add_of_le' (Nat.le_trans (depth_pos _) h)
    have hbase := ih (Nat.le_of_succ_le_succ h)
    rw [toJson_domain]
    exact object_readable (by simp [Readable, hbase])

theorem read_write {t : ColumnType} (h : t.depth ≤ maxDepth) :
    (read? t.toJson.write).bind ofJson? = some t := by
  rw [read?_write t.toJson_isCanonical (toJson_readable h)]
  exact t.ofJson?_toJson

/-- The document of a type is read as the type, as a value and, unless it nests deeper
than texts may, as a text.  It has the fields of the type and no others.  Every document
that is read, and every value, is read as the same type when it is written again. -/
theorem document_lossless (t : ColumnType) :
    ofDocument? t.document = some t ∧
      ofJson? t.toJson = some t ∧
      (∃ fields, t.toJson = .obj fields ∧ ∀ key j, (key, j) ∈ fields ↔ t.Field key j) ∧
      (t.depth ≤ maxDepth → (read? t.toJson.write).bind ofJson? = some t) ∧
      (∀ doc, ofDocument? doc = some t ↔ Described doc t) ∧
      (∀ doc doc', (ofDocument? doc).map document = some doc' →
        ofDocument? doc' = ofDocument? doc) ∧
      ∀ j j', (ofJson? j).map toJson = some j' → ofJson? j' = ofJson? j := by
  refine ⟨t.ofDocument?_document, t.ofJson?_toJson, t.toJson_fields, read_write,
    fun _ => ofDocument?_eq_some_iff, fun doc doc' h => ?_, fun j j' h => ?_⟩
  · obtain ⟨found, hfound, rfl⟩ := Option.map_eq_some_iff.1 h
    rw [hfound, found.ofDocument?_document]
  · obtain ⟨found, hfound, rfl⟩ := Option.map_eq_some_iff.1 h
    rw [hfound, found.ofJson?_toJson]

/-- Names with brackets, and a document that gives an array another name and calls it a
domain as well. -/
theorem document_lossless_steps :
    let t := domain "steps[]" (array (domain "step" (scalar "int4[]")))
    let doc := TypeDocument.based "steps" true true t.document
    ofJson? t.toJson = some t ∧ t.depth ≤ maxDepth ∧
      (read? t.toJson.write).bind ofJson? = some t ∧
      (ofDocument? doc).map document = some (array t).document ∧
      ofDocument? (array t).document = ofDocument? doc := by
  intro t doc
  obtain ⟨-, hvalue, -, htext, -, hagain, -⟩ := document_lossless t
  have hdepth : t.depth ≤ maxDepth := by decide
  have hdoc : (ofDocument? doc).map document = some (array t).document := rfl
  exact ⟨hvalue, hdepth, htext hdepth, hdoc, hagain doc _ hdoc⟩

end ColumnType

end GovernedCatalog
