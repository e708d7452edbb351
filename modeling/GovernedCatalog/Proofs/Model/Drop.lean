import GovernedCatalog.Proofs.Model.Erasure

/-!
# Drops are removals

Each drop removes a part of a closed model and what goes away with it.  It
succeeds, leaves what the removal leaves, and returns the statements that delete
the stored rows of the removed parts.  The drops run one after the other on a
model that shrinks, so each is described by a removal, and removals compose.
-/

namespace GovernedCatalog

open Removal (within)

/-! ## What goes away with a part -/

namespace Part

/-- A table goes away with itself and with its schema. -/
def takesTable (p : Part) (path : TablePath) : Bool :=
  decide (table path = p ∨ schema path.schema = p)

def takesColumn (p : Part) (path : TablePath) (name : String) : Bool :=
  decide (column path name = p) || p.takesTable path

/-- A key goes away with each of its columns. -/
def takesKey (p : Part) (path : TablePath) (columns : ColumnSet) : Bool :=
  decide (key path columns = p) ||
    columns.elems.any (fun name => decide (column path name = p)) ||
    p.takesTable path

/-- A reference goes away with the key that it leads to, with the table that it
comes from and with each of its columns there. -/
def takesReference (p : Part) (id : ReferenceId) : Bool :=
  decide (reference id = p) ||
    id.mapping.fromColumns.elems.any
      (fun name => decide (column id.source name = p)) ||
    p.takesTable id.source ||
    p.takesKey id.mapping.target id.mapping.toColumns

/-- Whether the second part goes away with the first. -/
def takes (p : Part) : Part → Bool
  | schema name => decide (schema name = p)
  | table path => p.takesTable path
  | column path name => p.takesColumn path name
  | key path columns => p.takesKey path columns
  | reference id => p.takesReference id

/-- The edit that drops the part. -/
def drop : Part → Model.Edit (List String)
  | schema name => Model.dropSchema name
  | table path => Model.dropTable path
  | column path name => Model.dropColumn path name
  | key path columns => Model.dropKey path columns
  | reference id => Model.dropReference id

end Part

namespace Removal

/-- A part with all that goes away with it. -/
def of (p : Part) : Removal where
  removes := p.takes
  owned := by
    intro q q' howner htakes
    cases q <;> cases howner <;>
      simp_all [Part.takes, Part.takesTable, Part.takesColumn, Part.takesKey,
        Part.takesReference]

theorem of_schema {name : String} {p : Part} :
    (of (.schema name)).removes p = true ↔
      p.schemaName = name ∨
        ∃ id, p = .reference id ∧ id.mapping.target.schema = name := by
  cases p <;>
    simp [of, Part.takes, Part.takesTable, Part.takesColumn, Part.takesKey,
      Part.takesReference, Part.schemaName]

theorem of_table {path : TablePath} {p : Part} :
    (of (.table path)).removes p = true ↔
      p.tablePath? = some path ∨
        ∃ id, p = .reference id ∧ id.mapping.target = path := by
  cases p <;>
    simp [of, Part.takes, Part.takesTable, Part.takesColumn, Part.takesKey,
      Part.takesReference, Part.tablePath?]

theorem of_column {path : TablePath} {name : String} {p : Part} :
    (of (.column path name)).removes p = true ↔
      p = .column path name ∨
        (∃ columns, p = .key path columns ∧ name ∈ columns) ∨
        ∃ id, p = .reference id ∧
          (id.source = path ∧ name ∈ id.mapping.fromColumns ∨
            id.mapping.target = path ∧ name ∈ id.mapping.toColumns) := by
  cases p <;>
    simp [of, Part.takes, Part.takesTable, Part.takesColumn, Part.takesKey,
      Part.takesReference, and_comm]

theorem of_key {path : TablePath} {columns : ColumnSet} {p : Part} :
    (of (.key path columns)).removes p = true ↔
      p = .key path columns ∨
        ∃ id, p = .reference id ∧ id.mapping.target = path ∧
          id.mapping.toColumns = columns := by
  cases p <;>
    simp [of, Part.takes, Part.takesTable, Part.takesColumn, Part.takesKey,
      Part.takesReference]

theorem of_reference {id : ReferenceId} {p : Part} :
    (of (.reference id)).removes p = true ↔ p = .reference id := by
  cases p <;>
    simp [of, Part.takes, Part.takesTable, Part.takesColumn, Part.takesKey,
      Part.takesReference]

theorem of_cascades (p : Part) : (of p).Cascades where
  column_key := by
    intro path name columns htakes hname
    simp only [of, Part.takes, Part.takesColumn, Part.takesKey,
      Bool.or_eq_true, decide_eq_true_iff, List.any_eq_true] at htakes ⊢
    rcases htakes with hcolumn | htable
    · exact Or.inl (Or.inr ⟨name, hname, hcolumn⟩)
    · exact Or.inr htable
  column_reference := by
    intro name id htakes hname
    simp only [of, Part.takes, Part.takesColumn, Part.takesReference,
      Bool.or_eq_true, decide_eq_true_iff, List.any_eq_true] at htakes ⊢
    rcases htakes with hcolumn | htable
    · exact Or.inl (Or.inl (Or.inr ⟨name, hname, hcolumn⟩))
    · exact Or.inl (Or.inr htable)
  key_reference := by
    intro id htakes
    simp only [of, Part.takes, Part.takesReference, Bool.or_eq_true] at htakes ⊢
    exact Or.inr htakes

/-- A drop takes with a part all that it owns. -/
theorem of_removes_within {p q : Part}
    (h : (within p).removes q = true) : (of p).removes q = true := by
  have hself : (of p).removes p = true := by
    cases p <;>
      simp [of, Part.takes, Part.takesTable, Part.takesColumn, Part.takesKey,
        Part.takesReference]
  rcases of_decide_eq_true h with rfl | howner | howner
  · exact hself
  · exact (of p).owned howner hself
  · obtain ⟨owner, hq, hp⟩ := Option.bind_eq_some_iff.1 howner
    exact (of p).owned hq ((of p).owned hp hself)

end Removal

namespace Model

/-! ## Runs of edits -/

/-- The edit succeeds with a result and another model. -/
def Yields (e : Edit α) (m : Model) (a : α) (m' : Model) : Prop :=
  e.run.run m = (.ok a, m')

namespace Yields

variable {m m' m'' : Model}

theorem pure (a : α) : Yields (pure a) m a m := rfl

theorem bind {e : Edit α} {f : α → Edit β} {a : α} {b : β}
    (he : Yields e m a m') (hf : Yields (f a) m' b m'') :
    Yields (e >>= f) m b m'' := by
  unfold Yields at he hf ⊢
  rw [ExceptT.run_bind, StateT.run_bind, he]
  exact hf

theorem get : Yields get m m m := rfl

theorem set (m' : Model) : Yields (set m') m ⟨⟩ m' := rfl

theorem modify (f : Model → Model) : Yields (modify f) m ⟨⟩ (f m) := rfl

theorem lift {x : Except Error α} {a : α} (h : x = .ok a) :
    Yields (liftM x) m a m := by
  rw [h]
  rfl

end Yields

/-- The edit fails and changes nothing. -/
def Fails (e : Edit α) (m : Model) : Prop :=
  ∃ error, e.run.run m = (.error error, m)

namespace Fails

variable {m : Model}

theorem lift {x : Except Error α} (h : ∀ a, x ≠ .ok a) :
    Fails (liftM x : Edit α) m := by
  cases x with
  | error e => exact ⟨e, rfl⟩
  | ok a => exact absurd rfl (h a)

theorem bind {e : Edit α} {f : α → Edit β} (h : Fails e m) :
    Fails (e >>= f) m := by
  obtain ⟨error, h⟩ := h
  refine ⟨error, ?_⟩
  rw [ExceptT.run_bind, StateT.run_bind, h]
  rfl

theorem after {e : Edit α} {f : α → Edit β} {a : α} (he : Yields e m a m)
    (hf : Fails (f a) m) : Fails (e >>= f) m := by
  obtain ⟨error, hf⟩ := hf
  refine ⟨error, ?_⟩
  unfold Yields at he
  rw [ExceptT.run_bind, StateT.run_bind, he]
  exact hf

end Fails

/-- The edit removes parts of the model, and returns the statements that delete
their stored rows. -/
def Removes (e : Edit (List String)) (m : Model) (r : Removal) : Prop :=
  ∃ statements, Yields e m statements (m.without r) ∧
    statements.Perm (m.purges r)

theorem Named.purges_append {m : Model} (hm : m.Named) {r s : Removal}
    {first second : List String} (hfirst : first.Perm (m.purges r))
    (hsecond : second.Perm ((m.without r).purges s)) :
    (first ++ second).Perm (m.purges (r ∪ s)) :=
  (hfirst.append hsecond).trans (hm.purges_union r s).symm

/-- A list of edits each of which removes its part, and none the part of
another. -/
theorem mapM_removes {f : β → Edit (List String)} (part : β → Part)
    (removal : β → Removal)
    (hstep : ∀ {m x}, m.Closed → m.Has (part x) → Removes (f x) m (removal x))
    (hcascades : ∀ x, (removal x).Cascades)
    (hapart : ∀ {x y}, x ≠ y → (removal x).removes (part y) = false)
    {l : List β} (hnodup : l.Nodup) {m : Model} (hm : m.Closed)
    (hhas : ∀ x ∈ l, m.Has (part x)) :
    (m.without (.all (l.map removal))).Closed ∧
      ∃ statements,
        Yields (l.mapM f) m statements (m.without (.all (l.map removal))) ∧
          statements.flatten.Perm (m.purges (.all (l.map removal))) := by
  induction l generalizing m with
  | nil =>
      refine ⟨?_, [], ?_, ?_⟩
      · rw [List.map_nil, Removal.all, List.foldr_nil, hm.without_empty]
        exact hm
      · rw [List.map_nil, Removal.all, List.foldr_nil, hm.without_empty]
        exact .pure []
      · have hnone : m.purges ∅ = [] := by simp [purges]
        rw [List.map_nil, Removal.all, List.foldr_nil, hnone]
        exact List.Perm.refl _
  | cons x rest ih =>
      obtain ⟨hfresh, hrest⟩ := List.nodup_cons.1 hnodup
      obtain ⟨first, hfirst, hpurges⟩ :=
        hstep hm (hhas x List.mem_cons_self)
      have hstill : ∀ y ∈ rest, (m.without (removal x)).Has (part y) := by
        intro y hy
        refine (hm.named.has_without _ _).2
          ⟨hhas y (List.mem_cons_of_mem _ hy), hapart ?_⟩
        rintro rfl
        exact hfresh hy
      obtain ⟨hclosed, others, hothers, hpurges'⟩ :=
        ih hrest (hm.without (hcascades x)) hstill
      have hunion : (m.without (removal x)).without (.all (rest.map removal)) =
          m.without (.all ((x :: rest).map removal)) :=
        m.without_without _ _
      rw [hunion] at hclosed hothers
      refine ⟨hclosed, first :: others, ?_,
        hm.named.purges_append hpurges hpurges'⟩
      rw [List.mapM_cons]
      exact hfirst.bind (hothers.bind (.pure _))

/-! ## The drops -/

namespace Closed

variable {m : Model}

theorem dropReference_removes (hm : m.Closed) {id : ReferenceId}
    (h : m.Has (.reference id)) :
    Removes (dropReference id) m (within (.reference id)) := by
  obtain ⟨r, hr⟩ := has_reference.1 h
  refine ⟨r.purge m.systemSchema.name, ?_, ?_⟩
  · rw [← hm.removeReference_eq_without id]
    exact Yields.get.bind ((Yields.lift (reference_eq_ok_iff.2 hr)).bind
      ((Yields.set _).bind (.pure _)))
  · have hpurges := hm.named.purges_single (r := within (.reference id)) h
      fun q _ => by simp
    rw [hpurges, ← hm.named.reference_id hr]
    exact List.Perm.refl _

/-- The references of a model that satisfy a condition. -/
theorem dropReferences_removes (hm : m.Closed) {ids : List ReferenceId}
    (hnodup : ids.Nodup) {f : ReferenceId → Bool}
    (hids : ∀ id, id ∈ ids ↔ m.Has (.reference id) ∧ f id = true) :
    Removes (dropReferences ids) m (.references f) := by
  obtain ⟨_, purges, hpurges, hperm⟩ := mapM_removes (f := dropReference)
    Part.reference (fun id => within (.reference id))
    (fun hm h => hm.dropReference_removes h)
    Removal.within_reference_cascades
    (fun hne => by simpa using hne.symm) hnodup hm fun id hid => ((hids id).1 hid).1
  have hsame : ∀ p, m.Has p →
      (Removal.all (ids.map fun id => within (.reference id))).removes p =
        (Removal.references f).removes p := by
    intro p hp
    rw [Removal.removes_all_map, Bool.eq_iff_iff, List.any_eq_true]
    cases p with
    | reference id => simp [Removal.references, hids, hp]
    | _ => simp [Removal.references]
  rw [hm.without_congr hsame] at hpurges
  rw [hm.purges_congr hsame] at hperm
  exact ⟨_, hpurges.bind (.pure _), hperm⟩

/-- The references to a key go away before it. -/
theorem dropKey_removes (hm : m.Closed) {path : TablePath}
    {columns : ColumnSet} (h : m.Has (.key path columns)) :
    Removes (dropKey path columns) m (.of (.key path columns)) := by
  obtain ⟨key, hkey⟩ := has_key.1 h
  obtain ⟨t, ht, hget⟩ := key?_eq_some_iff.1 hkey
  obtain ⟨htable, hcolumns⟩ := hm.named.key hkey
  let inbound := Removal.references fun id =>
    decide (id.mapping.target = path ∧ id.mapping.toColumns = columns)
  obtain ⟨purges, hpurges, hperm⟩ : Removes
      (dropReferences key.referencedBy.elems) m inbound :=
    hm.dropReferences_removes key.referencedBy.nodup fun id => by
      rw [SortedSet.mem_elems, hm.mem_referencedBy hkey, decide_eq_true_iff]
  have hclosed : (m.without inbound).Closed :=
    hm.without (Removal.references_cascades _)
  have hhas : (m.without inbound).Has (.key path columns) :=
    (hm.named.has_without _ _).2 ⟨h, rfl⟩
  have hunion : inbound ∪ within (.key path columns) =
      .of (.key path columns) := by
    refine Removal.ext_removes fun p => ?_
    rw [Bool.eq_iff_iff, Removal.of_key]
    cases p <;> simp [inbound, Removal.references]
  refine ⟨purges ++ key.purge m.systemSchema.name, ?_, ?_⟩
  · rw [← hunion, ← without_without, ← hclosed.removeKey_eq_without]
    exact Yields.get.bind ((Yields.lift (table_eq_ok_iff.2 ht)).bind
      ((Yields.lift (Table.key_eq_ok_iff.2 hget)).bind
        (hpurges.bind ((Yields.modify _).bind (Yields.get.bind (.pure _))))))
  · rw [← hunion]
    refine hm.named.purges_append hperm ?_
    rw [hclosed.named.purges_single hhas fun q _ => by simp, ← htable,
      ← hcolumns]
    exact List.Perm.refl _

theorem mem_reference_ids (hm : m.Closed) {path : TablePath} {t : Table}
    (ht : m.table? path = some t) {id : ReferenceId} :
    id ∈ t.references.map Reference.id ↔
      m.Has (.reference id) ∧ id.source = path := by
  rw [(hm.table ht).mem_reference_ids, has_reference]
  constructor
  · rintro ⟨rfl, r, hr⟩
    exact ⟨⟨r, reference?_eq_some_iff.2 ⟨t, ht, hr⟩⟩, rfl⟩
  · rintro ⟨⟨r, hr⟩, rfl⟩
    obtain ⟨t', ht', hget⟩ := reference?_eq_some_iff.1 hr
    rw [ht, Option.some.injEq] at ht'
    subst ht'
    exact ⟨rfl, r, hget⟩

theorem mem_relatedReferences (hm : m.Closed) {path : TablePath} {t : Table}
    (ht : m.table? path = some t) {id : ReferenceId} :
    id ∈ relatedReferences t ↔
      m.Has (.reference id) ∧
        (id.source = path ∨ id.mapping.target = path) := by
  unfold relatedReferences
  rw [SortedSet.mem_ofList, List.mem_append, hm.mem_reference_ids ht,
    List.mem_flatMap, and_or_left]
  refine or_congr Iff.rfl ?_
  constructor
  · rintro ⟨key, hkey, hid⟩
    obtain ⟨columns, hget⟩ := SortedMap.mem_values_iff.1 hkey
    obtain ⟨hhas, htarget, _⟩ :=
      (hm.mem_referencedBy (key?_eq_some_iff.2 ⟨t, ht, hget⟩)).1 hid
    exact ⟨hhas, htarget⟩
  · rintro ⟨hhas, rfl⟩
    rw [has_reference, ← Option.isSome_iff_exists] at hhas
    obtain ⟨key, hkey, hid⟩ := (hm.linked _ _ id).2 ⟨hhas, rfl, rfl⟩
    obtain ⟨t', ht', hget⟩ := key?_eq_some_iff.1 hkey
    rw [ht, Option.some.injEq] at ht'
    subst ht'
    exact ⟨key, SortedMap.mem_values_iff.2 ⟨_, hget⟩, hid⟩

/-- The references from a table and to it go away before it. -/
theorem dropTable_removes (hm : m.Closed) {path : TablePath}
    (h : m.Has (.table path)) :
    Removes (dropTable path) m (.of (.table path)) := by
  obtain ⟨t, ht⟩ := has_table.1 h
  let related := Removal.references fun id =>
    decide (id.source = path ∨ id.mapping.target = path)
  obtain ⟨purges, hpurges, hperm⟩ : Removes
      (dropReferences (relatedReferences t).elems) m related :=
    hm.dropReferences_removes (relatedReferences t).nodup fun id => by
      rw [SortedSet.mem_elems, hm.mem_relatedReferences ht, decide_eq_true_iff]
  have hclosed : (m.without related).Closed :=
    hm.without (Removal.references_cascades _)
  have ht' : (m.without related).table? path = some (t.without related) := by
    rw [hm.named.table?_without, ht]
    rfl
  have hgone : ∀ id, ((m.without related).reference? id).isSome = true →
      id.source ≠ path := by
    rintro id hid rfl
    rw [hm.named.reference?_without, if_pos (by simp [related,
      Removal.references])] at hid
    cases hid
  have hunion : related ∪ within (.table path) = .of (.table path) := by
    refine Removal.ext_removes fun p => ?_
    rw [Bool.eq_iff_iff, Removal.of_table]
    cases p with
    | reference id =>
        by_cases hsource : id.source = path <;>
          simp [related, Removal.references, Part.tablePath?, hsource]
    | _ => simp [related, Removal.references, Part.tablePath?]
  refine ⟨purges ++ (t.without related).purge m.systemSchema.name, ?_, ?_⟩
  · rw [← hunion, ← without_without, ← hclosed.eraseTable_eq_without hgone]
    exact Yields.get.bind ((Yields.lift (table_eq_ok_iff.2 ht)).bind
      (hpurges.bind (Yields.get.bind
        ((Yields.lift (table_eq_ok_iff.2 ht')).bind
          ((Yields.modify _).bind (Yields.get.bind (.pure _)))))))
  · rw [← hunion]
    exact hm.named.purges_append hperm (hclosed.named.purges_table ht').symm

theorem has_target_key (hm : m.Closed) {id : ReferenceId}
    (h : m.Has (.reference id)) :
    m.Has (.key id.mapping.target id.mapping.toColumns) := by
  rw [has_reference, ← Option.isSome_iff_exists] at h
  obtain ⟨key, hkey, _⟩ := (hm.linked _ _ id).2 ⟨h, rfl, rfl⟩
  exact has_key.2 ⟨key, hkey⟩

/-- The references from a column, the keys with it and the column itself are all
that goes away with the column. -/
theorem removes_with_column (hm : m.Closed) {path : TablePath} {name : String}
    {keys : List ColumnSet}
    (hkeys : ∀ columns, columns ∈ keys ↔
      m.Has (.key path columns) ∧ name ∈ columns)
    (p : Part) (hp : m.Has p) :
    (Removal.references (fun id =>
        decide (id.source = path) && id.mapping.fromColumns.contains name) ∪
      Removal.all (keys.map fun columns => .of (.key path columns)) ∪
      within (.column path name)).removes p =
        (Removal.of (.column path name)).removes p := by
  rw [Bool.eq_iff_iff, Removal.removes_union, Removal.removes_union,
    Bool.or_eq_true, Bool.or_eq_true, Removal.removes_all_map,
    List.any_eq_true, Removal.of_column]
  simp only [Removal.of_key, hkeys]
  cases p with
  | schema name' => simp [Removal.references]
  | table path' => simp [Removal.references]
  | column path' name' => simp [Removal.references]
  | key path' columns =>
      simp only [Removal.references]
      constructor
      · rintro ((h | ⟨columns', ⟨_, hname⟩, heq | ⟨_, h, _⟩⟩) | h)
        · cases h
        · exact Or.inr (Or.inl ⟨columns', heq, hname⟩)
        · cases h
        · simp at h
      · rintro (h | ⟨columns', heq, hname⟩ | ⟨_, h, _⟩)
        · cases h
        · rw [heq] at hp
          exact Or.inl (Or.inr ⟨columns', ⟨hp, hname⟩, Or.inl heq⟩)
        · cases h
  | reference id =>
      have hkey := hm.has_target_key hp
      simp only [Removal.references, Bool.and_eq_true, decide_eq_true_iff,
        SortedSet.contains_iff]
      constructor
      · rintro ((⟨hsource, hname⟩ |
          ⟨columns, ⟨_, hname⟩, h | ⟨id', heq, htarget, hcolumns⟩⟩) | h)
        · exact Or.inr (Or.inr ⟨id, rfl, Or.inl ⟨hsource, hname⟩⟩)
        · cases h
        · subst hcolumns
          exact Or.inr (Or.inr ⟨id', heq, Or.inr ⟨htarget, hname⟩⟩)
        · simp at h
      · rintro (h | ⟨_, h, _⟩ | ⟨id', heq, hleaves | ⟨htarget, hname⟩⟩)
        · cases h
        · cases h
        · cases heq
          exact Or.inl (Or.inl hleaves)
        · cases heq
          subst htarget
          exact Or.inl (Or.inr ⟨_, ⟨hkey, hname⟩, Or.inr ⟨id, rfl, rfl, rfl⟩⟩)

theorem dropKeys_removes (hm : m.Closed) {path : TablePath}
    {keys : List ColumnSet} (hnodup : keys.Nodup)
    (hkeys : ∀ columns ∈ keys, m.Has (.key path columns)) :
    let removal := Removal.all (keys.map fun columns => .of (.key path columns))
    (m.without removal).Closed ∧
      ∃ statements,
        Yields (keys.mapM (dropKey path)) m statements (m.without removal) ∧
          statements.flatten.Perm (m.purges removal) := by
  refine mapM_removes (Part.key path) _ (fun hm h => hm.dropKey_removes h)
    (fun _ => Removal.of_cascades _) (fun hne => ?_) hnodup hm hkeys
  rw [Bool.eq_false_iff, ne_eq, Removal.of_key]
  simpa using hne.symm

/-- The references from a column and the keys with it go away before it. -/
theorem dropColumn_removes (hm : m.Closed) {path : TablePath} {name : String}
    (h : m.Has (.column path name)) :
    Removes (dropColumn path name) m (.of (.column path name)) := by
  obtain ⟨t, ht, hname⟩ := has_column.1 h
  obtain ⟨c, hc⟩ := Option.isSome_iff_exists.1 hname
  have hnamed := (hm.table ht).toNamed
  let leaves (id : ReferenceId) := id.mapping.fromColumns.contains name
  let outbound := Removal.references fun id =>
    decide (id.source = path) && leaves id
  let keys := t.keys.keys.filter fun columns => columns.contains name
  let withKeys := Removal.all (keys.map fun columns => .of (.key path columns))
  obtain ⟨purges, hpurges, hperm⟩ : Removes (dropReferences
      ((t.references.filter (leaves ∘ Reference.id)).map Reference.id)) m
        outbound := by
    refine hm.dropReferences_removes
      ((List.filter_sublist.map _).nodup hnamed.nodup_references) fun id => ?_
    rw [← List.filter_map, List.mem_filter, hm.mem_reference_ids ht,
      Bool.and_eq_true, decide_eq_true_iff, and_assoc]
  have hclosed : (m.without outbound).Closed :=
    hm.without (Removal.references_cascades _)
  have hkeys : ∀ columns, columns ∈ keys ↔
      m.Has (.key path columns) ∧ name ∈ columns := by
    intro columns
    rw [List.mem_filter, SortedMap.mem_keys_iff, SortedSet.contains_iff,
      has_key]
    simp [key?, ht, Table.key?]
  obtain ⟨hclosed', keyPurges, hkeyPurges, hkeyPerm⟩ :=
    hclosed.dropKeys_removes (t.keys.nodup_keys.filter _) fun columns hcolumns =>
      (hm.named.has_without _ _).2 ⟨((hkeys columns).1 hcolumns).1, rfl⟩
  have hhas : ((m.without outbound).without withKeys).Has
      (.column path name) := by
    have hkept : withKeys.removes (.column path name) = false := by
      rw [Removal.removes_all_map, List.any_eq_false]
      intro columns _
      simp [Removal.of_key]
    exact (hclosed.named.has_without _ _).2
      ⟨(hm.named.has_without _ _).2 ⟨h, rfl⟩, hkept⟩
  have hsame := hm.removes_with_column hkeys
  refine ⟨purges ++ keyPurges.flatten ++ c.purge m.systemSchema.name, ?_, ?_⟩
  · rw [← hm.without_congr hsame, ← without_without, ← without_without,
      ← hclosed'.removeColumn_eq_without]
    exact Yields.get.bind ((Yields.lift (table_eq_ok_iff.2 ht)).bind
      ((Yields.lift (Table.column_eq_ok_iff.2 hc)).bind
        (hpurges.bind (hkeyPurges.bind
          ((Yields.modify _).bind (Yields.get.bind (.pure _)))))))
  · rw [← hm.purges_congr hsame]
    refine hm.named.purges_append (hm.named.purges_append hperm hkeyPerm) ?_
    rw [← without_without, hclosed'.named.purges_single hhas fun q _ => by simp]
    obtain ⟨hmem, rfl⟩ := hnamed.column?_eq_some_iff.1 hc
    rw [← hnamed.column_table c hmem]
    exact List.Perm.refl _

/-- The tables of a schema and the schema itself are all that goes away with
the schema. -/
theorem removes_with_schema (hm : m.Closed) {name : String} {s : Schema}
    (hs : m.schemas.get? name = some s) (p : Part) (hp : m.Has p) :
    (Removal.all (s.tables.keys.map fun table => .of (.table ⟨name, table⟩)) ∪
      within (.schema name)).removes p =
        (Removal.of (.schema name)).removes p := by
  rw [Bool.eq_iff_iff, Removal.removes_union, Bool.or_eq_true,
    Removal.removes_all_map, List.any_eq_true, Removal.of_schema,
    Removal.removes_within_schema, decide_eq_true_iff]
  simp only [Removal.of_table, SortedMap.mem_keys_iff]
  constructor
  · rintro (⟨table, _, hpath | ⟨id, rfl, htarget⟩⟩ | hname)
    · exact Or.inl (Part.schemaName_of_tablePath? hpath)
    · exact Or.inr ⟨id, rfl, by rw [htarget]⟩
    · exact Or.inl hname
  · rintro (hname | ⟨id, rfl, htarget⟩)
    · exact Or.inr hname
    · obtain ⟨key, hkey⟩ := has_key.1 (hm.has_target_key hp)
      obtain ⟨t, ht, _⟩ := key?_eq_some_iff.1 hkey
      obtain ⟨s', hs', hget⟩ := table?_eq_some_iff.1 ht
      rw [htarget, hs, Option.some.injEq] at hs'
      subst hs'
      refine Or.inl ⟨_, ⟨t, hget⟩, Or.inr ⟨id, rfl, ?_⟩⟩
      rw [← htarget]

theorem dropTables_removes (hm : m.Closed) {schema : String}
    {tables : List String} (hnodup : tables.Nodup)
    (htables : ∀ table ∈ tables, m.Has (.table ⟨schema, table⟩)) :
    let removal := Removal.all
      (tables.map fun table => .of (.table ⟨schema, table⟩))
    (m.without removal).Closed ∧
      ∃ statements,
        Yields (tables.mapM fun table => dropTable ⟨schema, table⟩) m statements
            (m.without removal) ∧
          statements.flatten.Perm (m.purges removal) := by
  refine mapM_removes (fun table => Part.table ⟨schema, table⟩) _
    (fun hm h => hm.dropTable_removes h) (fun _ => Removal.of_cascades _)
    (fun hne => ?_) hnodup hm htables
  rw [Bool.eq_false_iff, ne_eq, Removal.of_table]
  simpa [Part.tablePath?] using hne.symm

/-- Nothing is left of a schema without its tables but the schema itself. -/
theorem eq_schema_of_has_without_tables (hm : m.Closed) {name : String}
    {s : Schema} (hs : m.schemas.get? name = some s) {p : Part}
    (hp : (m.without (.all (s.tables.keys.map fun table =>
      .of (.table ⟨name, table⟩)))).Has p)
    (hname : p.schemaName = name) : p = .schema name := by
  subst hname
  obtain ⟨hp, hkept⟩ := (hm.named.has_without _ _).1 hp
  cases hpath : p.tablePath? with
  | none => exact Part.eq_schema_of_tablePath? hpath
  | some path =>
      -- Its table went away with all that is in it.
      obtain ⟨t, ht⟩ := table_of_has hpath hp
      have hschema := Part.schemaName_of_tablePath? hpath
      obtain ⟨s', hs', hget⟩ := table?_eq_some_iff.1 ht
      rw [← hschema, hs, Option.some.injEq] at hs'
      subst hs'
      rw [Removal.removes_all_map, List.any_eq_false] at hkept
      have htable := hkept path.table (SortedMap.mem_keys_iff.2 ⟨t, hget⟩)
      rw [Removal.of_table, hschema] at htable
      exact absurd (Or.inl hpath) htable

/-- The tables of a schema go away before it. -/
theorem dropSchema_removes (hm : m.Closed) {name : String}
    (h : m.Has (.schema name)) :
    Removes (dropSchema name) m (.of (.schema name)) := by
  obtain ⟨s, hs⟩ := has_schema.1 h
  let withTables := Removal.all
    (s.tables.keys.map fun table => .of (.table ⟨name, table⟩))
  have htables : ∀ table ∈ s.tables.keys, m.Has (.table ⟨name, table⟩) := by
    intro table htable
    obtain ⟨t, ht⟩ := SortedMap.mem_keys_iff.1 htable
    exact has_table.2 ⟨t, table?_eq_some_iff.2 ⟨s, hs, ht⟩⟩
  obtain ⟨hclosed, purges, hpurges, hperm⟩ :=
    hm.dropTables_removes s.tables.nodup_keys htables
  have hgone : ∀ p, (m.without withTables).Has p → p.schemaName = name →
      p = .schema name :=
    fun p hp hname => hm.eq_schema_of_has_without_tables hs hp hname
  have hhas : (m.without withTables).Has (.schema name) := by
    have hkept : withTables.removes (.schema name) = false := by
      rw [Removal.removes_all_map, List.any_eq_false]
      intro table _
      simp [Removal.of_table, Part.tablePath?]
    exact (hm.named.has_without _ _).2 ⟨h, hkept⟩
  have hsame := hm.removes_with_schema hs
  refine ⟨purges.flatten ++ s.storageKey.purge m.systemSchema.name, ?_, ?_⟩
  · rw [← hm.without_congr hsame, ← without_without,
      ← hclosed.eraseSchema_eq_without]
    · exact Yields.get.bind ((Yields.lift (schema_eq_ok_iff.2 hs)).bind
        (hpurges.bind ((Yields.modify _).bind (Yields.get.bind (.pure _)))))
    · rintro id hid rfl
      rw [Option.isSome_iff_exists, ← has_reference] at hid
      cases hgone _ hid rfl
  · rw [← hm.purges_congr hsame]
    refine hm.named.purges_append hperm ?_
    rw [hclosed.named.purges_single hhas]
    · rw [← hm.schema_name hs]
      exact List.Perm.refl _
    · intro q hq
      rw [Removal.removes_within_schema, decide_eq_true_iff]
      exact ⟨hgone q hq, fun h => h ▸ rfl⟩

/-- Dropping a part of a closed model succeeds, and removes exactly the part and
what goes away with it. -/
theorem drop_removes (hm : m.Closed) {p : Part} (h : m.Has p) :
    Removes p.drop m (.of p) := by
  cases p with
  | schema name => exact hm.dropSchema_removes h
  | table path => exact hm.dropTable_removes h
  | column path name => exact hm.dropColumn_removes h
  | key path columns => exact hm.dropKey_removes h
  | reference id =>
      have hsame : within (.reference id) = .of (.reference id) := by
        refine Removal.ext_removes fun p => ?_
        rw [Bool.eq_iff_iff, Removal.of_reference]
        simp
      rw [← hsame]
      exact hm.dropReference_removes h

end Closed

/-- Dropping what is not there fails and changes nothing. -/
theorem drop_fails {m : Model} {p : Part} (h : ¬m.Has p) : Fails p.drop m := by
  cases p with
  | schema name =>
      refine .after .get (.bind (.lift fun s hs => h ?_))
      exact has_schema.2 ⟨s, schema_eq_ok_iff.1 hs⟩
  | table path =>
      refine .after .get (.bind (.lift fun t ht => h ?_))
      exact has_table.2 ⟨t, table_eq_ok_iff.1 ht⟩
  | column path name =>
      cases ht : m.table path with
      | error e =>
          refine .after .get (.bind (.lift fun t ht' => ?_))
          rw [ht] at ht'
          cases ht'
      | ok t =>
          refine .after .get (.after (.lift ht) (.bind (.lift fun c hc => h ?_)))
          refine has_column.2 ⟨t, table_eq_ok_iff.1 ht, ?_⟩
          rw [Table.hasColumn, Table.column_eq_ok_iff.1 hc]
          rfl
  | key path columns =>
      cases ht : m.table path with
      | error e =>
          refine .after .get (.bind (.lift fun t ht' => ?_))
          rw [ht] at ht'
          cases ht'
      | ok t =>
          refine .after .get
            (.after (.lift ht) (.bind (.lift fun key hkey => h ?_)))
          exact has_key.2 ⟨key, key?_eq_some_iff.2
            ⟨t, table_eq_ok_iff.1 ht, Table.key_eq_ok_iff.1 hkey⟩⟩
  | reference id =>
      refine .after .get (.bind (.lift fun r hr => h ?_))
      exact has_reference.2 ⟨r, reference_eq_ok_iff.1 hr⟩

end Model

end GovernedCatalog
