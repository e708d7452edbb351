import GovernedCatalog.Proofs.Model.Drop

/-!
# When references can be dropped

A reference is dropped if its table has it, whether or not its target is there.
References are dropped one after the other exactly if all of them are there in
the beginning, and a table is dropped exactly if all references from it and to it
are there.  Nothing of this needs a closed model.
-/

namespace GovernedCatalog

theorem Table.reference?_removeReference (t : Table)
    (removed mapping : ReferenceMap) :
    (t.removeReference removed).reference? mapping =
      if mapping = removed then none else t.reference? mapping := by
  unfold removeReference reference?
  simp only [SortedMap.get?_filter, SortedMap.get?_modify]
  by_cases hcolumns : mapping.fromColumns = removed.fromColumns
  · rw [if_pos hcolumns, hcolumns]
    cases t.foreignKeys.get? removed.fromColumns with
    | none => simp
    | some fk =>
        have hmapping : (fk.references.erase removed).get? mapping =
            if mapping = removed then none else fk.references.get? mapping :=
          SortedMap.get?_erase ..
        by_cases hempty : (fk.references.erase removed).isEmpty = true
        · have hnone := SortedMap.get?_of_isEmpty hempty mapping
          rw [hmapping] at hnone
          simp [Option.filter, hempty, hnone, Std.ReflOrd.compare_self]
        · simp [Option.filter, hempty, hmapping]
  · have hmapping : mapping ≠ removed := fun h => hcolumns (h ▸ rfl)
    rw [if_neg hcolumns, if_neg hmapping]
    cases t.foreignKeys.get? mapping.fromColumns with
    | none => rfl
    | some fk =>
        have hcompare : compare removed.fromColumns mapping.fromColumns ≠ .eq :=
          fun h => hcolumns (Std.LawfulEqOrd.eq_of_compare h).symm
        simp [Option.filter, hcompare]

namespace Model

/-- The model without a reference, and without its mention at its target. -/
def unlink (m : Model) (id : ReferenceId) : Model :=
  (m.updateTable id.source (·.removeReference id.mapping)).updateTable
    id.mapping.target fun target =>
      target.updateKey id.mapping.toColumns fun key =>
        { key with referencedBy := key.referencedBy.erase id }

variable {m m' : Model}

theorem reference?_unlink (m : Model) (id id' : ReferenceId) :
    (m.unlink id).reference? id' =
      if id' = id then none else m.reference? id' := by
  unfold unlink
  rw [reference?_updateKey, reference?_updateTable]
  obtain ⟨source, mapping⟩ := id
  obtain ⟨source', mapping'⟩ := id'
  by_cases hsource : source' = source
  · subst hsource
    rw [if_pos rfl, reference?]
    simp only [Table.reference?_removeReference, ReferenceId.mk.injEq, true_and]
    by_cases hmapping : mapping' = mapping <;> simp [hmapping]
  · simp [hsource]

theorem isSome_table?_unlink (m : Model) (id : ReferenceId) (path : TablePath) :
    ((m.unlink id).table? path).isSome = (m.table? path).isSome := by
  have hupdate : ∀ (m : Model) (changed : TablePath) (f : Table → Table),
      ((m.updateTable changed f).table? path).isSome =
        (m.table? path).isSome := by
    intro m changed f
    rw [table?_updateTable]
    by_cases hpath : path = changed
    · rw [if_pos hpath, hpath, Option.isSome_map]
    · rw [if_neg hpath]
  unfold unlink
  rw [hupdate, hupdate]

/-! ## Runs that succeed -/

theorem yields_bind_iff {e : Edit α} {f : α → Edit β} {b : β} {m'' : Model} :
    Yields (e >>= f) m b m'' ↔
      ∃ a m', Yields e m a m' ∧ Yields (f a) m' b m'' := by
  constructor
  · intro h
    unfold Yields at h
    rw [ExceptT.run_bind, StateT.run_bind] at h
    cases hrun : e.run.run m with
    | mk outcome m' =>
        rw [hrun] at h
        cases outcome with
        | error error => cases h
        | ok a => exact ⟨a, m', hrun, h⟩
  · rintro ⟨a, m', he, hf⟩
    exact he.bind hf

theorem yields_pure_iff {a b : α} :
    Yields (pure a) m b m' ↔ b = a ∧ m' = m := by
  constructor
  · intro h
    cases h
    exact ⟨rfl, rfl⟩
  · rintro ⟨rfl, rfl⟩
    exact .pure b

theorem yields_get_iff {n : Model} : Yields get m n m' ↔ n = m ∧ m' = m := by
  constructor
  · intro h
    cases h
    exact ⟨rfl, rfl⟩
  · rintro ⟨rfl, rfl⟩
    exact .get

theorem yields_set_iff {n : Model} {u : PUnit} :
    Yields (set n) m u m' ↔ m' = n := by
  constructor
  · intro h
    cases h
    rfl
  · rintro rfl
    exact .set m'

theorem yields_lift_iff {x : Except Error α} {a : α} :
    Yields (liftM x) m a m' ↔ x = .ok a ∧ m' = m := by
  constructor
  · intro h
    cases x with
    | error error => cases h
    | ok b =>
        cases h
        exact ⟨rfl, rfl⟩
  · rintro ⟨hx, rfl⟩
    exact .lift hx

theorem dropReference_yields_iff {id : ReferenceId} {purges : List String} :
    Yields (dropReference id) m purges m' ↔
      ∃ r, m.reference? id = some r ∧ purges = r.purge m.systemSchema.name ∧
        m' = m.unlink id := by
  unfold dropReference
  simp only [yields_bind_iff, yields_get_iff, yields_lift_iff, yields_set_iff,
    yields_pure_iff, reference_eq_ok_iff]
  constructor
  · rintro ⟨_, _, ⟨rfl, rfl⟩, r, _, ⟨hr, rfl⟩, _, _, rfl, rfl, rfl⟩
    exact ⟨r, hr, rfl, rfl⟩
  · rintro ⟨r, hr, rfl, rfl⟩
    exact ⟨_, _, ⟨rfl, rfl⟩, r, _, ⟨hr, rfl⟩, ⟨⟩, _, rfl, rfl, rfl⟩

/-- References are dropped one after the other exactly if all of them are there,
since dropping one leaves the others. -/
theorem dropAll_yields_iff {ids : List ReferenceId} (hnodup : ids.Nodup) :
    (∃ purges m', Yields (ids.mapM dropReference) m purges m') ↔
      ∀ id ∈ ids, (m.reference? id).isSome = true := by
  induction ids generalizing m with
  | nil =>
      constructor
      · simp
      · intro _
        exact ⟨_, _, .pure []⟩
  | cons id rest ih =>
      obtain ⟨hfresh, hrest⟩ := List.nodup_cons.1 hnodup
      have hothers : (∀ id' ∈ rest,
          ((m.unlink id).reference? id').isSome = true) ↔
            ∀ id' ∈ rest, (m.reference? id').isSome = true := by
        refine forall₂_congr fun id' hid' => ?_
        have hne : id' ≠ id := fun h => hfresh (h ▸ hid')
        rw [reference?_unlink, if_neg hne]
      rw [List.forall_mem_cons, ← hothers, ← ih hrest, List.mapM_cons]
      simp only [yields_bind_iff, yields_pure_iff, dropReference_yields_iff]
      constructor
      · rintro ⟨_, m', _, _, ⟨r, hr, rfl, rfl⟩, others, _, hmore, _⟩
        exact ⟨Option.isSome_iff_exists.2 ⟨r, hr⟩, others, _, hmore⟩
      · rintro ⟨hsome, others, m', hmore⟩
        obtain ⟨r, hr⟩ := Option.isSome_iff_exists.1 hsome
        exact ⟨_, m', _, _, ⟨r, hr, rfl, rfl⟩, others, m', hmore, rfl, rfl⟩

/-- Dropping references leaves every table where it is. -/
theorem isSome_table?_dropAll {ids : List ReferenceId}
    {purges : List (List String)}
    (h : Yields (ids.mapM dropReference) m purges m') (path : TablePath) :
    (m'.table? path).isSome = (m.table? path).isSome := by
  induction ids generalizing m purges with
  | nil =>
      cases h
      rfl
  | cons id rest ih =>
      rw [List.mapM_cons] at h
      simp only [yields_bind_iff, yields_pure_iff,
        dropReference_yields_iff] at h
      obtain ⟨_, _, ⟨r, _, rfl, rfl⟩, others, _, hmore, rfl, rfl⟩ := h
      rw [ih hmore, isSome_table?_unlink]

theorem table?_eraseTable (m : Model) (path : TablePath) :
    (m.updateSchema path.schema fun s =>
      { s with tables := s.tables.erase path.table }).table? path = none := by
  unfold table? updateSchema
  rw [SortedMap.get?_modify, if_pos rfl]
  cases m.schemas.get? path.schema <;> simp

/-- A table is removed exactly if all references from it and to it are there. -/
theorem dropTable_yields_iff {path : TablePath} {t : Table}
    (ht : m.table? path = some t) :
    (∃ purges m', Yields (dropTable path) m purges m' ∧
        m'.table? path = none) ↔
      ∀ id ∈ relatedReferences t, (m.reference? id).isSome = true := by
  have hall := dropAll_yields_iff (m := m) (relatedReferences t).nodup
  constructor
  · rintro ⟨purges, m', h, _⟩
    unfold dropTable dropReferences at h
    simp only [yields_bind_iff, yields_get_iff, yields_lift_iff,
      table_eq_ok_iff] at h
    obtain ⟨_, _, ⟨rfl, rfl⟩, t', _, ⟨ht', rfl⟩, _, _, ⟨all, _, hdrops, _⟩, _⟩ := h
    rw [ht, Option.some.injEq] at ht'
    subst ht'
    exact hall.1 ⟨all, _, hdrops⟩
  · intro hthere
    obtain ⟨all, dropped, hdrops⟩ := hall.2 hthere
    have hstill : (dropped.table? path).isSome = true := by
      rw [isSome_table?_dropAll hdrops, ht]
      rfl
    obtain ⟨t', ht'⟩ := Option.isSome_iff_exists.1 hstill
    have hreferences : Yields (dropReferences (relatedReferences t).elems) m
        all.flatten dropped := hdrops.bind (.pure _)
    refine ⟨all.flatten ++ t'.purge dropped.systemSchema.name, _, ?_,
      table?_eraseTable dropped path⟩
    exact Yields.get.bind ((Yields.lift (table_eq_ok_iff.2 ht)).bind
      (hreferences.bind (Yields.get.bind
        ((Yields.lift (table_eq_ok_iff.2 ht')).bind
          ((Yields.modify _).bind (Yields.get.bind (.pure _)))))))

end Model

end GovernedCatalog
