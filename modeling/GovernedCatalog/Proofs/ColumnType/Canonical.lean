import GovernedCatalog.ColumnType.Document
import GovernedCatalog.Proofs.Fallible
import GovernedCatalog.Proofs.Ordered.Map
import GovernedCatalog.Settings.Document
import GovernedCatalog.Toml.Document

/-!
# Names that stand for themselves

A policy gives each of its types a name that stands for itself.  Of two policies
that are asked one after the other the first may take a name of the second one for
a spelling of a type of its own.  Names and types are stable but for this, and a
second look-up is always the last one that changes something.
-/

namespace GovernedCatalog

/-! ## Policies -/

namespace TypePolicy

variable {policy : TypePolicy} {spelling name : String}

theorem mem_keys_of_canonical? (h : policy.canonical? spelling = some name) :
    name ∈ policy.types.keys := by
  unfold canonical? at h
  split at h
  · next hcontains =>
    cases h
    exact SortedMap.mem_keys_iff.2 (SortedMap.contains_iff.1 hcontains)
  · obtain ⟨⟨name', spellings⟩, hfind, rfl⟩ := Option.map_eq_some_iff.1 h
    exact List.mem_map_of_mem (List.mem_of_find?_eq_some hfind)

theorem canonical?_of_mem_keys (h : name ∈ policy.types.keys) :
    policy.canonical? name = some name := by
  unfold canonical?
  rw [if_pos (SortedMap.contains_iff.2 (SortedMap.mem_keys_iff.1 h))]

theorem canonical?_canonical (h : policy.canonical? spelling = some name) :
    policy.canonical? name = some name :=
  canonical?_of_mem_keys (mem_keys_of_canonical? h)

@[simp] theorem columnType?_none (policy : TypePolicy) (spelling : String) :
    policy.columnType? spelling none = policy.canonical? spelling := by
  unfold columnType?
  cases policy.canonical? spelling <;> rfl

/-- The name is a spelling of a type with another name. -/
def Renames (policy : TypePolicy) (name : String) : Prop :=
  ∃ other, policy.canonical? name = some other ∧ other ≠ name

theorem not_renames_of_canonical? (h : policy.canonical? name = some name) :
    ¬policy.Renames name := by
  rintro ⟨other, hother, hne⟩
  rw [h, Option.some.injEq] at hother
  exact hne hother.symm

theorem not_renames_of_none (h : policy.canonical? name = none) :
    ¬policy.Renames name := by
  rintro ⟨other, hother, -⟩
  rw [h] at hother
  cases hother

end TypePolicy

/-! ## Two policies -/

namespace Settings

variable {s : Settings} {existing : Bool} {spelling name : String}

theorem canonicalType_eq_ok_iff {default? : Option String} :
    s.canonicalType existing spelling default? = .ok name ↔
      s.columnTypes.columnType? spelling default? = some name ∨
        s.columnTypes.columnType? spelling default? = none ∧ existing = true ∧
          s.existingColumnTypes.columnType? spelling default? = some name := by
  unfold canonicalType
  cases s.columnTypes.columnType? spelling default? with
  | some found => simp
  | none =>
    cases existing with
    | false => simp
    | true => cases s.existingColumnTypes.columnType? spelling default? <;> simp

/-- A type that only existing columns have is called by a name that the policy of
new columns takes for another type's. -/
def Overrides (s : Settings) (existing : Bool) (name : String) : Prop :=
  existing = true ∧ s.columnTypes.Renames name

/-- Where a name is found, it stands for itself: either in the policy of new
columns, or in that of existing ones behind it. -/
theorem canonical_of_canonicalType
    (h : s.canonicalType existing spelling none = .ok name) :
    s.columnTypes.canonical? name = some name ∨
      existing = true ∧ s.existingColumnTypes.canonical? name = some name := by
  rw [canonicalType_eq_ok_iff] at h
  simp only [TypePolicy.columnType?_none] at h
  rcases h with h | ⟨-, hexisting, h⟩
  · exact .inl (TypePolicy.canonical?_canonical h)
  · exact .inr ⟨hexisting, TypePolicy.canonical?_canonical h⟩

theorem canonicalType_self_of_new (existing : Bool)
    (h : s.columnTypes.canonical? name = some name) :
    s.canonicalType existing name none = .ok name :=
  canonicalType_eq_ok_iff.2 (.inl (by simpa using h))

theorem canonicalType_self_iff
    (h : s.canonicalType existing spelling none = .ok name) :
    s.canonicalType existing name none = .ok name ↔ ¬s.Overrides existing name := by
  constructor
  · rintro hself ⟨-, hrenames⟩
    rw [canonicalType_eq_ok_iff] at hself
    simp only [TypePolicy.columnType?_none] at hself
    rcases hself with hnew | ⟨hnone, -⟩
    · exact TypePolicy.not_renames_of_canonical? hnew hrenames
    · exact TypePolicy.not_renames_of_none hnone hrenames
  · intro hkept
    rcases canonical_of_canonicalType h with hnew | ⟨hexisting, hold⟩
    · exact canonicalType_self_of_new existing hnew
    · cases hfound : s.columnTypes.canonical? name with
      | none =>
        exact canonicalType_eq_ok_iff.2
          (.inr ⟨by simpa using hfound, hexisting, by simpa using hold⟩)
      | some other =>
        by_cases hother : other = name
        · subst hother
          exact canonicalType_self_of_new existing hfound
        · exact absurd ⟨hexisting, other, hfound, hother⟩ hkept

/-- A name that is looked up a second time stands for itself from then on. -/
theorem canonicalType_settles
    (h : s.canonicalType existing spelling none = .ok name) :
    ∃ other, s.canonicalType existing name none = .ok other ∧
      s.canonicalType existing other none = .ok other := by
  by_cases hkept : s.Overrides existing name
  · obtain ⟨-, other, hother, -⟩ := hkept
    exact ⟨other, canonicalType_eq_ok_iff.2 (.inl (by simpa using hother)),
      canonicalType_self_of_new existing (TypePolicy.canonical?_canonical hother)⟩
  · have hself := (canonicalType_self_iff h).2 hkept
    exact ⟨name, hself, hself⟩

end Settings

/-! ## Types -/

/-- The names that a type is made of; arrays have none of their own. -/
def ColumnType.givenNames : ColumnType → List String
  | scalar name => [name]
  | array base => base.givenNames
  | domain name base => name :: base.givenNames

section Build

variable {s : Settings} {existing : Bool} {t : ColumnType}

/-- The document of a type is that of the type again if each name stands for
itself. -/
theorem ColumnType.document_build_iff :
    t.document.build s existing = .ok t ↔
      ∀ name ∈ t.givenNames, s.canonicalType existing name none = .ok name := by
  induction t with
  | scalar name =>
    have hbuild : (scalar name).document.build s existing =
        s.canonicalType existing name none >>= fun name' => .ok (scalar name') := rfl
    rw [hbuild, bind_eq_ok]
    simp [givenNames]
  | array base ih =>
    have hbuild : (array base).document.build s existing =
        base.document.build s existing >>= fun base' => .ok (array base') := rfl
    rw [hbuild, bind_eq_ok, givenNames, ← ih]
    simp
  | domain name base ih =>
    have hbuild : (domain name base).document.build s existing =
        s.canonicalType existing name none >>= fun name' =>
          base.document.build s existing >>= fun base' => .ok (domain name' base') := rfl
    rw [hbuild, bind_eq_ok, givenNames, List.forall_mem_cons, ← ih]
    simp only [bind_eq_ok, Except.ok.injEq, domain.injEq]
    constructor
    · rintro ⟨_, hname, _, hbase, rfl, rfl⟩
      exact ⟨hname, hbase⟩
    · rintro ⟨hname, hbase⟩
      exact ⟨name, hname, base, hbase, rfl, rfl⟩

/-- Each name of a type that is built was found for some spelling. -/
theorem TypeDocument.build_givenNames {doc : TypeDocument}
    (h : doc.build s existing = .ok t) :
    ∀ name ∈ t.givenNames,
      ∃ spelling, s.canonicalType existing spelling none = .ok name := by
  induction doc generalizing t with
  | plain spelling isArray isDomain =>
    cases isArray with
    | true => cases h
    | false =>
      obtain ⟨name, hname, h⟩ := bind_eq_ok.1 h
      cases isDomain with
      | true => cases h
      | false =>
        cases h
        exact List.forall_mem_singleton.2 ⟨spelling, hname⟩
  | based spelling isArray isDomain base ih =>
    cases isArray with
    | true =>
      obtain ⟨element, helement, h⟩ := bind_eq_ok.1 h
      cases h
      rw [ColumnType.givenNames]
      exact ih helement
    | false =>
      obtain ⟨name, hname, h⟩ := bind_eq_ok.1 h
      cases isDomain with
      | true =>
        obtain ⟨element, helement, h⟩ := bind_eq_ok.1 h
        cases h
        exact List.forall_mem_cons.2 ⟨⟨spelling, hname⟩, ih helement⟩
      | false =>
        cases h
        exact List.forall_mem_singleton.2 ⟨spelling, hname⟩

theorem TypeDocument.build_document_iff {doc : TypeDocument}
    (h : doc.build s existing = .ok t) :
    t.document.build s existing = .ok t ↔
      ∀ name ∈ t.givenNames, ¬s.Overrides existing name := by
  rw [ColumnType.document_build_iff]
  refine forall₂_congr fun name hname => ?_
  obtain ⟨spelling, hspelling⟩ := build_givenNames h name hname
  exact Settings.canonicalType_self_iff hspelling

/-- A type of a new column is built again from its document. -/
theorem TypeDocument.build_document {doc : TypeDocument}
    (h : doc.build s false = .ok t) : t.document.build s false = .ok t :=
  (build_document_iff h).2 fun _ _ hoverrides => Bool.false_ne_true hoverrides.1

end Build

/-- Names and types that were found or built are found and built the same again,
unless the policy of new columns overrides a name of an existing column's type; and
what a name is looked up as stands for itself. -/
theorem Settings.canonical_stable_iff (s : Settings) (existing : Bool) :
    (∀ spelling name, s.canonicalType existing spelling none = .ok name →
      (s.canonicalType existing name none = .ok name ↔ ¬s.Overrides existing name) ∧
      ∃ other, s.canonicalType existing name none = .ok other ∧
        s.canonicalType existing other none = .ok other) ∧
    ∀ doc t, TypeDocument.build s existing doc = .ok t →
      (t.document.build s existing = .ok t ↔
        ∀ name ∈ t.givenNames, ¬s.Overrides existing name) := by
  constructor
  · intro spelling name h
    exact ⟨canonicalType_self_iff h, canonicalType_settles h⟩
  · intro doc t h
    exact TypeDocument.build_document_iff h

/-- The standard policies agree on the one name that both of them have. -/
theorem Settings.canonical_stable_iff_varying :
    let doc : TypeDocument := .based "text[]" true false
      (.plain "character varying(20)" false false)
    let t : ColumnType := .array .text
    standard.canonicalType true "character varying(20)" none = .ok "text" ∧
      standard.canonicalType true "text" none = .ok "text" ∧
      doc.build standard true = .ok t ∧ t.document.build standard true = .ok t := by
  intro doc t
  have hname : standard.canonicalType true "character varying(20)" none = .ok "text" :=
    toOption_eq_some_iff.1 (by decide +kernel)
  have hbuild : doc.build standard true = .ok t :=
    toOption_eq_some_iff.1 (by decide +kernel)
  have hkept : ¬standard.Overrides true "text" := fun hoverrides =>
    TypePolicy.not_renames_of_canonical? (by decide +kernel) hoverrides.2
  obtain ⟨hnames, htypes⟩ := canonical_stable_iff standard true
  exact ⟨hname, (hnames _ _ hname).1.2 hkept, hbuild,
    (htypes doc t hbuild).2 (List.forall_mem_singleton.2 hkept)⟩

/-- New columns have a type that the settings call by another name for existing
ones. -/
def Settings.strings : Settings :=
  { standard with
    columnTypes := ⟨.ofList [("string", .ofAliases ["text"])]⟩
    existingColumnTypes := ⟨.ofList [("text", .ofAliases ["varchar"])]⟩ }

def Settings.stringsText : String :=
  "[column_types.string]\naliases = [\"text\"]\n" ++
    "[column_types_readonly.text]\naliases = [\"varchar\"]\n"

/-- These settings can be read, and with them the name that is found for an existing
column's type does not stand for itself. -/
theorem Settings.strings_unstable :
    (∃ document, Toml.ofText? stringsText = some document ∧ read document = .ok strings) ∧
      strings.canonicalType true "varchar" none = .ok "text" ∧
      ¬strings.canonicalType true "text" none = .ok "text" := by
  have hread : ((Toml.ofText? stringsText).bind fun document =>
      (read document).toOption) = some strings := by decide +kernel
  have hname : strings.canonicalType true "varchar" none = .ok "text" :=
    toOption_eq_some_iff.1 (by decide +kernel)
  have hother : strings.columnTypes.canonical? "text" = some "string" := by
    decide +kernel
  obtain ⟨document, hdocument, hsettings⟩ := Option.bind_eq_some_iff.1 hread
  refine ⟨⟨document, hdocument, toOption_eq_some_iff.1 hsettings⟩, hname, fun hself => ?_⟩
  exact (canonicalType_self_iff hname).1 hself ⟨rfl, "string", hother, by decide⟩

/-!
## Columns fed by a sequence

A default leaves the name of a column's type as it is, unless it draws from a
sequence and the type is an integer type.  Such a column has the serial type of
the same size, and the policy that knows the integer type is asked for its name.
A policy that has no such type is passed over.
-/

/-- Integer types are those with a serial type of their size. -/
theorem mem_integerNames_iff {name : String} :
    name ∈ integerNames ↔ ∃ serial, serialName? name = some serial := by
  constructor
  · have hserial : ∀ name ∈ integerNames, (serialName? name).isSome := by decide
    exact fun hname => Option.isSome_iff_exists.1 (hserial name hname)
  · rintro ⟨serial, h⟩
    unfold serialName? at h
    split at h
    all_goals first | decide | cases h

namespace TypePolicy

variable {policy : TypePolicy} {spelling name default : String}

theorem columnType?_of_none (default? : Option String)
    (h : policy.canonical? spelling = none) :
    policy.columnType? spelling default? = none := by
  unfold columnType?
  rw [h]
  rfl

theorem columnType?_of_unaffected
    (hdefault : isSequenceDefault default = false ∨ name ∉ integerNames)
    (h : policy.canonical? spelling = some name) :
    policy.columnType? spelling (some default) = some name := by
  have hserial : isSequenceDefault default = true → serialName? name = none := by
    intro hsequence
    rw [hsequence] at hdefault
    rw [← Option.not_isSome_iff_eq_none, Option.isSome_iff_exists, ← mem_integerNames_iff]
    exact hdefault.resolve_left (by decide)
  unfold columnType?
  rw [h]
  cases hsequence : isSequenceDefault default with
  | false => simp [hsequence]
  | true => simp [hsequence, hserial hsequence]

theorem columnType?_of_serial {serial : String} (hdefault : isSequenceDefault default = true)
    (h : policy.canonical? spelling = some name) (hserial : serialName? name = some serial) :
    policy.columnType? spelling (some default) = policy.canonical? serial := by
  unfold columnType?
  simp [h, hdefault, hserial]

theorem canonical?_empty (spelling : String) :
    (TypePolicy.mk ∅).canonical? spelling = none := rfl

end TypePolicy

namespace Settings

variable {s : Settings} {existing : Bool} {spelling name : String} {default? : Option String}

/-- The policy in which a spelling is found. -/
def policyOf (s : Settings) (spelling : String) : TypePolicy :=
  if (s.columnTypes.canonical? spelling).isSome then s.columnTypes
  else s.existingColumnTypes

/-- The settings without the types of the policy in which a spelling is found. -/
def passing (s : Settings) (spelling : String) : Settings :=
  if (s.columnTypes.canonical? spelling).isSome then { s with columnTypes := ⟨∅⟩ }
  else { s with existingColumnTypes := ⟨∅⟩ }

/-- A policy that knows the spelling but not the column's type counts for nothing. -/
theorem canonicalType_passing
    (h : (s.policyOf spelling).columnType? spelling default? = none) :
    s.canonicalType existing spelling default? =
      (s.passing spelling).canonicalType existing spelling default? := by
  have hempty := TypePolicy.columnType?_of_none default? (TypePolicy.canonical?_empty spelling)
  unfold policyOf at h
  unfold passing canonicalType
  cases hfound : s.columnTypes.canonical? spelling with
  | some found =>
    rw [hfound, Option.isSome_some, if_pos rfl] at h
    simp [h, hempty]
  | none =>
    have hnew := TypePolicy.columnType?_of_none default? hfound
    rw [hfound, Option.isSome_none, if_neg Bool.false_ne_true] at h
    simp [h, hnew, hempty]

/-- What the policy of a spelling finds is the type of the column. -/
theorem canonicalType_of_policyOf (h : s.canonicalType existing spelling none = .ok name)
    {found : String}
    (hfound : (s.policyOf spelling).columnType? spelling default? = some found) :
    s.canonicalType existing spelling default? = .ok found := by
  rw [canonicalType_eq_ok_iff] at h ⊢
  simp only [TypePolicy.columnType?_none] at h
  unfold policyOf at hfound
  rcases h with hnew | ⟨hnew, hexisting, -⟩
  · rw [hnew, Option.isSome_some, if_pos rfl] at hfound
    exact .inl hfound
  · rw [hnew, Option.isSome_none, if_neg Bool.false_ne_true] at hfound
    exact .inr ⟨TypePolicy.columnType?_of_none default? hnew, hexisting, hfound⟩

theorem canonical?_policyOf (h : s.canonicalType existing spelling none = .ok name) :
    (s.policyOf spelling).canonical? spelling = some name := by
  rw [canonicalType_eq_ok_iff] at h
  simp only [TypePolicy.columnType?_none] at h
  unfold policyOf
  rcases h with hnew | ⟨hnew, -, hold⟩
  · rwa [hnew, Option.isSome_some, if_pos rfl]
  · rwa [hnew, Option.isSome_none, if_neg Bool.false_ne_true]

/-- A default leaves the name of a supported type as it is, unless the column is an
integer column fed by a sequence.  Such a column is called by the name of the serial
type in the policy that knows the spelling, and without such a type that policy
counts for nothing. -/
theorem canonicalType_with_default (h : s.canonicalType existing spelling none = .ok name)
    (default : String) :
    (isSequenceDefault default = false ∨ name ∉ integerNames →
      s.canonicalType existing spelling (some default) = .ok name) ∧
    (isSequenceDefault default = true → name ∈ integerNames →
      ∃ serial, serialName? name = some serial ∧
        s.canonicalType existing spelling (some default) =
          match (s.policyOf spelling).canonical? serial with
          | some found => .ok found
          | none => (s.passing spelling).canonicalType existing spelling (some default)) := by
  have hpolicy := canonical?_policyOf h
  constructor
  · intro hdefault
    exact canonicalType_of_policyOf h
      (TypePolicy.columnType?_of_unaffected hdefault hpolicy)
  · intro hdefault hname
    obtain ⟨serial, hserial⟩ := mem_integerNames_iff.1 hname
    have hcolumn := TypePolicy.columnType?_of_serial hdefault hpolicy hserial
    refine ⟨serial, hserial, ?_⟩
    cases hfound : (s.policyOf spelling).canonical? serial with
    | some found => exact canonicalType_of_policyOf h (hcolumn.trans hfound)
    | none => exact canonicalType_passing (hcolumn.trans hfound)

/-- With the standard settings a sequence makes an integer column a serial one. -/
theorem canonicalType_with_default_integer :
    let sequence := "nextval('orders_id_seq'::regclass)"
    standard.canonicalType true "integer" none = .ok "int4" ∧
      isSequenceDefault "42" = false ∧
      standard.canonicalType true "integer" (some "42") = .ok "int4" ∧
      isSequenceDefault sequence = true ∧ "int4" ∈ integerNames ∧
      standard.canonicalType true "integer" (some sequence) = .ok "serial4" := by
  intro sequence
  have hname : standard.canonicalType true "integer" none = .ok "int4" :=
    toOption_eq_some_iff.1 (by decide +kernel)
  have hserial : (standard.policyOf "integer").canonical? "serial4" = some "serial4" := by
    decide +kernel
  have hconstant := (canonicalType_with_default hname "42").1 (.inl (by decide))
  obtain ⟨serial, hmatching, htype⟩ :=
    (canonicalType_with_default hname sequence).2 (by decide) (by decide)
  obtain rfl : "serial4" = serial := Option.some.inj hmatching
  rw [hserial] at htype
  exact ⟨hname, by decide, hconstant, by decide, by decide, htype⟩

/-- New columns have no serial types, though existing ones do. -/
def unfed : Settings :=
  { standard with
    columnTypes := ⟨.ofList [("int4", .none)]⟩
    existingColumnTypes := ⟨.ofList [("serial4", .none)]⟩ }

def unfedText : String := "[column_types.int4]\n[column_types_readonly.serial4]\n"

/-- These settings can be read, and with them a sequence makes a supported type an
unsupported one. -/
theorem unfed_unsupported :
    (∃ document, Toml.ofText? unfedText = some document ∧ read document = .ok unfed) ∧
      unfed.canonicalType true "int4" none = .ok "int4" ∧
      ¬∃ found, unfed.canonicalType true "int4"
        (some "nextval('orders_id_seq'::regclass)") = .ok found := by
  have hread : ((Toml.ofText? unfedText).bind fun document =>
      (read document).toOption) = some unfed := by decide +kernel
  have hname : unfed.canonicalType true "int4" none = .ok "int4" :=
    toOption_eq_some_iff.1 (by decide +kernel)
  have hnone : (unfed.canonicalType true "int4"
      (some "nextval('orders_id_seq'::regclass)")).toOption = none := by decide +kernel
  obtain ⟨document, hdocument, hsettings⟩ := Option.bind_eq_some_iff.1 hread
  refine ⟨⟨document, hdocument, toOption_eq_some_iff.1 hsettings⟩, hname, ?_⟩
  rintro ⟨found, hfound⟩
  rw [hfound] at hnone
  cases hnone

end Settings

end GovernedCatalog
