import GovernedCatalog.Proofs.Document.Acceptance
import GovernedCatalog.Proofs.Model.History

/-!
# References and the columns of their keys

An accepted reference maps its columns to all columns of a key that is there.  It
lists each of its own columns once, as a mapping does, but may map two of them to
the same column of the key: then it has more columns than the key.  It is a
correspondence of the one with the other exactly if no column of the key is listed
twice.
-/

namespace GovernedCatalog

namespace ReferenceMap

/-- Every column of the mapping leads to a column of the key, and every column of
the key is led to. -/
structure Covers (mapping : ReferenceMap) (key : ColumnSet) : Prop where
  total : ∀ c ∈ mapping.fromColumns, ∃ d ∈ key, mapping.targetOf? c = some d
  onto : ∀ d ∈ key, ∃ c ∈ mapping.fromColumns, mapping.targetOf? c = some d

/-- The mapping is a one-to-one correspondence of its columns with those of the
key. -/
structure Corresponds (mapping : ReferenceMap) (key : ColumnSet) : Prop
    extends mapping.Covers key where
  injective : ∀ c ∈ mapping.fromColumns, ∀ c' ∈ mapping.fromColumns,
    mapping.targetOf? c = mapping.targetOf? c' → c = c'

variable {mapping : ReferenceMap}

theorem mem_fromColumns_iff {c : String} :
    c ∈ mapping.fromColumns ↔ ∃ d, mapping.targetOf? c = some d := by
  unfold fromColumns sources
  rw [SortedSet.mem_ofList]
  exact SortedMap.mem_keys_iff

theorem mem_toColumns_iff {d : String} :
    d ∈ mapping.toColumns ↔ ∃ c, mapping.targetOf? c = some d := by
  unfold toColumns targets
  rw [SortedSet.mem_ofList]
  exact SortedMap.mem_values_iff

theorem covers_toColumns (mapping : ReferenceMap) :
    mapping.Covers mapping.toColumns where
  total c hc := by
    obtain ⟨d, hd⟩ := mem_fromColumns_iff.1 hc
    exact ⟨d, mem_toColumns_iff.2 ⟨c, hd⟩, hd⟩
  onto d hd := by
    obtain ⟨c, hc⟩ := mem_toColumns_iff.1 hd
    exact ⟨c, mem_fromColumns_iff.2 ⟨d, hc⟩, hc⟩

theorem corresponds_toColumns_iff :
    mapping.Corresponds mapping.toColumns ↔ mapping.targets.Nodup := by
  unfold targets
  rw [SortedMap.nodup_values_iff]
  constructor
  · intro h c c' d hc hc'
    exact h.injective c (mem_fromColumns_iff.2 ⟨d, hc⟩) c'
      (mem_fromColumns_iff.2 ⟨d, hc'⟩) (hc.trans hc'.symm)
  · intro h
    refine ⟨mapping.covers_toColumns, fun c hc c' _ heq => ?_⟩
    obtain ⟨d, hd⟩ := mem_fromColumns_iff.1 hc
    exact h c c' d hd (heq.symm.trans hd)

theorem length_fromColumns (mapping : ReferenceMap) :
    mapping.fromColumns.elems.length = mapping.pairs.size := by
  have hsources := SortedSet.length_ofList_eq_iff.2 mapping.pairs.nodup_keys
  exact hsources.trans (List.length_map ..)

theorem length_toColumns_le (mapping : ReferenceMap) :
    mapping.toColumns.elems.length ≤ mapping.pairs.size :=
  Nat.le_trans (SortedSet.length_ofList_le mapping.targets)
    (Nat.le_of_eq (List.length_map ..))

theorem length_toColumns_eq_iff :
    mapping.toColumns.elems.length = mapping.pairs.size ↔
      mapping.targets.Nodup := by
  have hsize : mapping.pairs.size = mapping.targets.length :=
    (List.length_map ..).symm
  rw [hsize]
  exact SortedSet.length_ofList_eq_iff

end ReferenceMap

namespace Model

/-! ## Accepted references -/

/-- A call accepts the reference and leads to the second model: it is given the
reference itself, or a document with a foreign key that describes it. -/
inductive Accepts (m m' : Model) : ReferenceId → Prop
  | reference {source : TablePath} {mapping : ReferenceMap}
      {constraint? : Option ConstraintName}
      {onDelete onUpdate : ReferentialAction} :
      m.addReference source mapping constraint? onDelete onUpdate = .ok m' →
        Accepts m m' ⟨source, mapping⟩
  | table {schema : String} {doc : TableDocument} {settings : Settings}
      {path : TablePath} {fk : ForeignKeyDocument} {mapping : ReferenceMap} :
      m.applyTable schema doc settings = .ok (m', path) →
        fk ∈ doc.foreignKeys → fk.mapping path = .ok mapping →
          Accepts m m' ⟨path, mapping⟩
  | schema {doc : SchemaDocument} {settings : Settings} {name : String}
      {table : TableDocument} {t : Table} {fk : ForeignKeyDocument}
      {mapping : ReferenceMap} :
      m.applySchema doc settings = .ok m' → doc.name = some name →
        table ∈ doc.tableDocuments → table.build name settings = .ok t →
          fk ∈ table.foreignKeys → fk.mapping t.path = .ok mapping →
            Accepts m m' ⟨t.path, mapping⟩

/-- The reference is there, with both of its ends. -/
def Connects (m : Model) (id : ReferenceId) : Prop :=
  m.HasEnds id ∧ (m.reference? id).isSome = true

variable {m m' : Model}

theorem Connects.link {id linked : ReferenceId} (h : m.Connects id)
    (hends : m.HasEnds linked) (doc : ForeignKeyDocument) :
    (m.link linked doc).Connects id := by
  refine ⟨hasEnds_link_iff.2 h.1, ?_⟩
  rw [hends.reference?_link]
  by_cases hid : id = linked
  · rw [if_pos hid]
    rfl
  · rw [if_neg hid]
    exact h.2

theorem HasEnds.connects_link {id : ReferenceId} (hends : m.HasEnds id)
    (doc : ForeignKeyDocument) : (m.link id doc).Connects id := by
  refine ⟨hasEnds_link_iff.2 hends, ?_⟩
  rw [hends.reference?_link, if_pos rfl]
  rfl

/-- The references of all foreign keys are there after the last of them is
added. -/
theorem foldlM_applyForeignKey_connects (m : Model)
    (foreignKeys : List (TablePath × ForeignKeyDocument)) :
    Ensures (foreignKeys.foldlM
        (fun m (path, fk) => m.applyForeignKey path fk) m)
      fun m' => ∀ e ∈ foreignKeys, ∀ mapping, e.2.mapping e.1 = .ok mapping →
        m'.Connects ⟨e.1, mapping⟩ := by
  let P (done : List (TablePath × ForeignKeyDocument)) (m' : Model) : Prop :=
    ∀ e ∈ done, ∀ mapping, e.2.mapping e.1 = .ok mapping →
      m'.Connects ⟨e.1, mapping⟩
  have hnone : P [] m := List.forall_mem_nil _
  refine Ensures.foldlM_prefix ?_ hnone foreignKeys
  intro done n e hdone n' happly e' he' mapping hmapping
  obtain ⟨added, hadded, hends, rfl⟩ := applyForeignKey_eq_ok.1 happly
  rcases List.mem_append.1 he' with he' | he'
  · exact (hdone e' he' mapping hmapping).link hends e.2
  · rw [List.mem_singleton.1 he'] at hmapping ⊢
    rw [hadded, Except.ok.injEq] at hmapping
    subst hmapping
    exact hends.connects_link e.2

theorem connects_of_addReference {source : TablePath} {mapping : ReferenceMap}
    {constraint? : Option ConstraintName}
    {onDelete onUpdate : ReferentialAction}
    (h : m.addReference source mapping constraint? onDelete onUpdate = .ok m') :
    m'.Connects ⟨source, mapping⟩ := by
  obtain ⟨hkey, ⟨t, ht, hcolumns⟩, rfl⟩ := addReference_eq_ok h
  have hunlinked := m.unlinked_updateTable source
    (f := (·.addReference (.fresh source mapping onDelete onUpdate) constraint?))
    fun _ => rfl
  have hends : m.HasEnds ⟨source, mapping⟩ := ⟨hkey, t, ht, hcolumns⟩
  refine ⟨hends.of_unlinked ?_, ?_⟩
  · rw [unlinked_updateTable _ _ fun t => t.unlinked_updateKey _ _, hunlinked]
  · rw [reference?_updateKey, isSome_reference?_addReference ht]
    exact .inr rfl

theorem Accepts.connects {id : ReferenceId} (h : Accepts m m' id) :
    m'.Connects id := by
  cases h with
  | reference h => exact connects_of_addReference h
  | @table schema doc settings path fk mapping h hfk hmapping =>
    obtain ⟨⟨extended, path'⟩, -, h⟩ := bind_eq_ok.1 h
    obtain ⟨complete, hfold, h⟩ := bind_eq_ok.1 h
    cases h
    refine foldlM_applyForeignKey_connects extended
      (doc.foreignKeys.map (path, ·)) m' ?_ (path, fk)
      (List.mem_map_of_mem hfk) mapping hmapping
    rw [List.foldlM_map]
    exact hfold
  | @schema doc settings name table t fk mapping h hname htable ht hfk hmapping =>
    obtain ⟨name', tables, added, hadds, hfold⟩ := applySchema_eq_ok.1 h
    rw [hadds.name_eq, Option.some.injEq] at hname
    subst hname
    exact foldlM_applyForeignKey_connects added _ m' hfold (t.path, fk)
      ((SchemaDocument.mem_foreignKeysOf_iff hadds.built).2
        ⟨table, htable, t, ht, rfl, hfk⟩) mapping hmapping

/-- An accepted reference leads from all of its columns to all columns of a key.
It is a correspondence if no column of the key is listed twice, and otherwise has
more columns than the key. -/
theorem accepts_corresponds_or_merges {id : ReferenceId}
    (h : Accepts m m' id) :
    (m'.reference? id).isSome = true ∧
      (∃ key, m'.key? id.mapping.target id.mapping.toColumns = some key ∧
        (m'.Named → key.columns = id.mapping.toColumns)) ∧
      id.mapping.Covers id.mapping.toColumns ∧
      id.mapping.fromColumns.elems.length = id.mapping.pairs.size ∧
      if id.mapping.targets.Nodup then
        id.mapping.Corresponds id.mapping.toColumns ∧
          id.mapping.pairs.size = id.mapping.toColumns.elems.length
      else
        ¬id.mapping.Corresponds id.mapping.toColumns ∧
          id.mapping.toColumns.elems.length < id.mapping.pairs.size := by
  obtain ⟨⟨⟨key, hkey⟩, -⟩, hreference⟩ := h.connects
  refine ⟨hreference, ⟨key, hkey, fun hm => (hm.key hkey).2⟩,
    id.mapping.covers_toColumns, id.mapping.length_fromColumns, ?_⟩
  by_cases hnodup : id.mapping.targets.Nodup
  · rw [if_pos hnodup]
    exact ⟨ReferenceMap.corresponds_toColumns_iff.2 hnodup,
      (ReferenceMap.length_toColumns_eq_iff.2 hnodup).symm⟩
  · rw [if_neg hnodup]
    exact ⟨fun h => hnodup (ReferenceMap.corresponds_toColumns_iff.1 h),
      Nat.lt_of_le_of_ne id.mapping.length_toColumns_le
        fun h => hnodup (ReferenceMap.length_toColumns_eq_iff.1 h)⟩

/-- A reference of both columns of a table to the one column of its key. -/
def merging : ReferenceId :=
  ⟨⟨"staff", "people"⟩, ⟨"staff", "people"⟩,
    .ofList [("id", "id"), ("boss", "id")], by decide⟩

/-- The staff with the merging reference. -/
def merged : Except Error Model :=
  ((fresh "sys").after staff).addReference merging.source merging.mapping none
    .noAction .noAction

theorem accepts_corresponds_or_merges_staff :
    ∃ m', Accepts ((fresh "sys").after staff) m' merging ∧
      (m'.reference? merging).isSome = true ∧
      merging.mapping.Covers merging.mapping.toColumns := by
  obtain ⟨m', h⟩ : ∃ m', merged = .ok m' := ⟨_, rfl⟩
  obtain ⟨hreference, -, hcovers, -⟩ :=
    accepts_corresponds_or_merges (.reference h)
  exact ⟨m', .reference h, hreference, hcovers⟩

/-- The merging reference is accepted, and is no correspondence. -/
theorem merging_accepted :
    ∃ m', Accepts ((fresh "sys").after staff) m' merging ∧
      ¬merging.mapping.Corresponds merging.mapping.toColumns ∧
      merging.mapping.pairs.size = 2 ∧
      merging.mapping.toColumns.elems.length = 1 := by
  obtain ⟨m', h⟩ : ∃ m', merged = .ok m' := ⟨_, rfl⟩
  refine ⟨m', .reference h, fun hcorresponds => ?_, rfl, rfl⟩
  have hnodup := ReferenceMap.corresponds_toColumns_iff.1 hcorresponds
  exact absurd hnodup (by decide)

end Model

end GovernedCatalog
