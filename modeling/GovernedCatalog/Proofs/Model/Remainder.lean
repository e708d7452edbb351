import GovernedCatalog.Proofs.Model.Parts

/-!
# What a removal leaves closed

A removal cascades if the keys and references of each removed column and the
references to each removed key go away with it.  What it leaves of a closed
model is closed, and depends only on the parts of the model that it removes.
-/

namespace GovernedCatalog

structure Removal.Cascades (r : Removal) : Prop where
  column_key : ∀ {path : TablePath} {name : String} {columns : ColumnSet},
    r.removes (.column path name) = true → name ∈ columns →
      r.removes (.key path columns) = true
  column_reference : ∀ {name : String} {id : ReferenceId},
    r.removes (.column id.source name) = true → name ∈ id.mapping.fromColumns →
      r.removes (.reference id) = true
  key_reference : ∀ {id : ReferenceId},
    r.removes (.key id.mapping.target id.mapping.toColumns) = true →
      r.removes (.reference id) = true

theorem Removal.references_cascades (f : ReferenceId → Bool) :
    (references f).Cascades where
  column_key h := by cases h
  column_reference h := by cases h
  key_reference h := by cases h

theorem Removal.within_reference_cascades (id : ReferenceId) :
    (within (.reference id)).Cascades where
  column_key h := by simp at h
  column_reference h := by simp at h
  key_reference h := by simp at h

theorem Table.WellFormed.without {t : Table} {path : TablePath}
    (ht : t.WellFormed path) {r : Removal} (hr : r.Cascades) :
    (t.without r).WellFormed path where
  toNamed := ht.toNamed.without r
  key_columns := by
    intro columns key hkey name hname
    rw [key?_without, ht.path_eq, Option.ite_none_left_eq_some] at hkey
    obtain ⟨hkept, hkey⟩ := hkey
    obtain ⟨old, hold, _⟩ := Option.map_eq_some_iff.1 hkey
    refine (t.hasColumn_without r name).2 ⟨ht.key_columns hold name hname, ?_⟩
    rw [ht.path_eq, Bool.eq_false_iff]
    exact fun hremoved => hkept (hr.column_key hremoved hname)
  foreignKey_columns := by
    intro columns fk hfk name hname
    rw [foreignKeys_without, Option.filter_eq_some_iff] at hfk
    obtain ⟨hfk, hnonempty⟩ := hfk
    obtain ⟨old, hold, rfl⟩ := Option.map_eq_some_iff.1 hfk
    refine (t.hasColumn_without r name).2
      ⟨ht.foreignKey_columns hold name hname, ?_⟩
    rw [ht.path_eq, Bool.eq_false_iff]
    intro hremoved
    -- Every reference of the foreign key would be gone.
    have hempty : (old.without r).references.isEmpty = true := by
      rw [SortedMap.isEmpty_iff]
      intro mapping
      rw [ForeignKey.get?_without, (ht.foreignKey hold).table_eq]
      cases hget : old.references.get? mapping with
      | none => exact ite_self _
      | some reference =>
          obtain ⟨_, _, hcolumns⟩ := (ht.foreignKey hold).reference hget
          rw [← hcolumns] at hname
          exact if_pos (hr.column_reference hremoved hname)
    simp [hempty] at hnonempty
  foreignKey_nonempty := by
    intro columns fk hfk
    rw [foreignKeys_without, Option.filter_eq_some_iff] at hfk
    simpa using hfk.2

namespace Model

theorem Named.links_without {m : Model} (hm : m.Named) (r : Removal)
    (path : TablePath) (columns : ColumnSet) (id : ReferenceId) :
    (m.without r).Links path columns id ↔
      m.Links path columns id ∧ r.removes (.key path columns) = false ∧
        r.removes (.reference id) = false := by
  unfold Links
  simp only [hm.key?_without, Option.ite_none_left_eq_some,
    Option.map_eq_some_iff]
  constructor
  · rintro ⟨_, ⟨hkept, key, hkey, rfl⟩, hid⟩
    obtain ⟨hid, hreference⟩ := SortedSet.mem_filter.1 hid
    exact ⟨⟨key, hkey, hid⟩, by simpa using hkept, by simpa using hreference⟩
  · rintro ⟨⟨key, hkey, hid⟩, hkept, hreference⟩
    exact ⟨_, ⟨by simp [hkept], key, hkey, rfl⟩,
      SortedSet.mem_filter.2 ⟨hid, by simp [hreference]⟩⟩

/-- What a cascading removal leaves of a closed model is closed. -/
theorem Closed.without {m : Model} (hm : m.Closed) {r : Removal}
    (hr : r.Cascades) : (m.without r).Closed := by
  refine of_linked (hm.named.without r).schema_name ?_ ?_
  · intro path t ht
    rw [hm.named.table?_without, Option.ite_none_left_eq_some] at ht
    obtain ⟨old, hold, rfl⟩ := Option.map_eq_some_iff.1 ht.2
    exact (hm.table hold).without hr
  · intro path columns id
    rw [hm.named.links_without, hm.linked, hm.named.reference?_without]
    constructor
    · rintro ⟨⟨hid, htarget⟩, _, hkept⟩
      simp [hkept, hid, htarget]
    · rintro ⟨hid, rfl, rfl⟩
      by_cases hremoved : r.removes (.reference id) = true
      · simp [hremoved] at hid
      · refine ⟨⟨by simpa [hremoved] using hid, rfl, rfl⟩, ?_, by
          simpa using hremoved⟩
        rw [Bool.eq_false_iff]
        exact fun hkey => hremoved (hr.key_reference hkey)

end Model

/-! ## Removals of the same parts -/

theorem Table.Named.without_congr {t : Table} {path : TablePath}
    (ht : t.Named path) {r s : Removal}
    (hparts : ∀ p ∈ t.parts, r.removes p = s.removes p)
    (hlinks : ∀ {columns key}, t.key? columns = some key →
      ∀ id ∈ key.referencedBy,
        r.removes (.reference id) = s.removes (.reference id)) :
    t.without r = t.without s := by
  refine Table.ext rfl rfl rfl rfl ?_ ?_ ?_ rfl rfl rfl
  · refine List.filter_congr fun c hc => ?_
    rw [hparts _ (ht.mem_parts.2 (Or.inr (Or.inl
      ⟨c.name, hasColumn_iff.2 (List.mem_map_of_mem hc), ?_⟩)))]
    rw [ht.path_eq]
  · refine SortedMap.ext_get? fun columns => ?_
    change (t.without r).key? columns = (t.without s).key? columns
    rw [key?_without, key?_without]
    cases hkey : t.key? columns with
    | none => simp
    | some key =>
        have hkeys := hparts (.key path columns) (ht.mem_parts.2
          (Or.inr (Or.inr (Or.inl ⟨columns, key, hkey, rfl⟩))))
        have hsame : key.without r = key.without s := by
          unfold UniqueKey.without
          congr 1
          refine SortedSet.ext_mem fun id => ?_
          rw [SortedSet.mem_filter, SortedSet.mem_filter]
          exact and_congr_right fun hid => by rw [hlinks hkey id hid]
        rw [ht.path_eq, hkeys, Option.map_some, Option.map_some, hsame]
  · refine SortedMap.ext_get? fun columns => ?_
    rw [foreignKeys_without, foreignKeys_without]
    cases hfk : t.foreignKeys.get? columns with
    | none => rfl
    | some fk =>
        have hnamed := ht.foreignKey hfk
        have hsame : fk.without r = fk.without s := by
          refine ForeignKey.ext rfl rfl (SortedMap.ext_get? fun mapping => ?_)
          rw [ForeignKey.get?_without, ForeignKey.get?_without,
            hnamed.table_eq]
          cases hget : fk.references.get? mapping with
          | none => simp
          | some reference =>
              have hview : t.reference? mapping = some reference := by
                rw [reference?, (hnamed.reference hget).2.2, hfk]
                exact hget
              rw [hparts _ (ht.mem_parts.2 (Or.inr (Or.inr (Or.inr
                ⟨mapping, reference, hview, rfl⟩))))]
        rw [Option.map_some, Option.map_some, hsame]

/-- A table of which nothing is removed. -/
theorem Table.WellFormed.without_eq_self {t : Table} {path : TablePath}
    (ht : t.WellFormed path) {r : Removal}
    (hparts : ∀ p ∈ t.parts, r.removes p = false)
    (hlinks : ∀ {columns key}, t.key? columns = some key →
      ∀ id ∈ key.referencedBy, r.removes (.reference id) = false) :
    t.without r = t := by
  rw [ht.toNamed.without_congr (s := ∅) hparts hlinks]
  exact Table.ext rfl rfl rfl rfl (columns_of_keeps fun _ => rfl)
    (keys_of_keeps (fun _ => rfl) fun _ _ _ => rfl)
    (ht.foreignKeys_of_keeps fun _ => rfl) rfl rfl rfl

namespace Model.Closed

variable {m : Model}

/-- A key knows exactly the references that lead to it. -/
theorem mem_referencedBy (hm : m.Closed) {path : TablePath}
    {columns : ColumnSet} {key : UniqueKey}
    (hkey : m.key? path columns = some key) {id : ReferenceId} :
    id ∈ key.referencedBy ↔
      m.Has (.reference id) ∧ id.mapping.target = path ∧
        id.mapping.toColumns = columns := by
  rw [has_reference, ← Option.isSome_iff_exists, ← hm.linked path columns id]
  constructor
  · intro hid
    exact ⟨key, hkey, hid⟩
  · rintro ⟨key', hkey', hid⟩
    rw [hkey, Option.some.injEq] at hkey'
    subst hkey'
    exact hid

/-- A removal is determined by the parts of the model that it removes. -/
theorem without_congr (hm : m.Closed) {r s : Removal}
    (h : ∀ p, m.Has p → r.removes p = s.removes p) :
    m.without r = m.without s := by
  refine Model.ext (SortedMap.ext_get? fun name => ?_) rfl rfl rfl
  rw [schemas_without, schemas_without]
  cases hs : m.schemas.get? name with
  | none => simp
  | some schema =>
      rw [h _ (has_schema.2 ⟨schema, hs⟩), Option.map_some, Option.map_some]
      have hname := hm.schema_name hs
      have hsame : schema.without r = schema.without s := by
        refine Schema.ext rfl rfl (SortedMap.ext_get? fun table => ?_) rfl rfl
        rw [Schema.get?_without, Schema.get?_without, hname]
        cases hget : schema.tables.get? table with
        | none => simp
        | some t =>
            have ht : m.table? ⟨name, table⟩ = some t :=
              table?_eq_some_iff.2 ⟨schema, hs, hget⟩
            have hkept : t.without r = t.without s := by
              refine (hm.named.table ht).without_congr (fun p hp => ?_) ?_
              · exact h p (hm.named.mem_parts.1 (List.mem_flatMap.2
                  ⟨schema, SortedMap.mem_values_iff.2 ⟨name, hs⟩,
                    Schema.mem_parts.2 (Or.inr ⟨table, t, hget, hp⟩)⟩))
              · intro columns key hkey id hid
                exact h _ ((hm.mem_referencedBy
                  (key?_eq_some_iff.2 ⟨t, ht, hkey⟩)).1 hid).1
            rw [h _ (has_table.2 ⟨t, ht⟩), Option.map_some, Option.map_some,
              hkept]
      rw [hsame]

theorem without_empty (hm : m.Closed) : m.without ∅ = m := by
  refine Model.ext (SortedMap.ext_get? fun name => ?_) rfl rfl rfl
  rw [schemas_without]
  cases hs : m.schemas.get? name with
  | none => rfl
  | some schema =>
      refine congrArg some ?_
      refine Schema.ext rfl rfl (SortedMap.ext_get? fun table => ?_) rfl rfl
      rw [Schema.get?_without]
      cases hget : schema.tables.get? table with
      | none => rfl
      | some t =>
          have ht : m.table? ⟨name, table⟩ = some t :=
            table?_eq_some_iff.2 ⟨schema, hs, hget⟩
          exact congrArg some
            ((hm.table ht).without_eq_self (fun _ _ => rfl) fun _ _ _ => rfl)

theorem purges_congr (hm : m.Closed) {r s : Removal}
    (h : ∀ p, m.Has p → r.removes p = s.removes p) :
    m.purges r = m.purges s := by
  unfold purges
  rw [List.filter_congr fun p hp => h p (hm.named.mem_parts.1 hp)]

end Model.Closed

end GovernedCatalog
