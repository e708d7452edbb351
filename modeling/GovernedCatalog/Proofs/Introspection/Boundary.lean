import GovernedCatalog.Proofs.Introspection.Grouping
import GovernedCatalog.Proofs.Introspection.Split
import GovernedCatalog.Proofs.Model.Unlinking

/-!
# References across the boundary of the system schema

References are read while the system schema is among the visible ones, and are
then linked at both ends.  When that schema is taken out, a reference into it
loses its key and a reference from it is no longer found, and nothing else is
lost.  The references to a visible table can be listed, and the table can be
dropped, if and only if none of them is from the system schema.
-/

namespace GovernedCatalog

theorem Model.inboundReferences_ok_iff {m : Model} {path : TablePath} {t : Table}
    (ht : m.table? path = some t) :
    (∃ references, m.inboundReferences path = .ok references) ↔
      ∀ key ∈ t.keys.values, ∀ id ∈ key.referencedBy,
        ∃ r, m.reference id = .ok r := by
  unfold inboundReferences
  rw [table_eq_ok_iff.2 ht]
  change (∃ references, List.mapM m.reference _ = _) ↔ _
  rw [mapM_ok_iff]
  simp only [List.mem_flatMap, SortedSet.mem_elems]
  constructor
  · intro h key hkey id hid
    exact h id ⟨key, hkey, hid⟩
  · rintro h id ⟨key, hkey, hid⟩
    exact h key hkey id hid

namespace Introspection

/-- What a table needs so that the references to it can be followed. -/
def ReferredVisibly (system : String) (t : Table) : Prop :=
  ∀ key ∈ t.keys.values, ∀ id ∈ key.referencedBy, id.source.schema ≠ system

/-- The links of a visible table that do not cross the boundary of the system
schema are whole, and no others. -/
structure LinkedVisibly (system : String) (m : Model) (path : TablePath)
    (t : Table) : Prop where
  outbound : ∀ r ∈ t.references,
    (∃ key, m.referencedKey r.mapping = .ok key) ↔
      r.mapping.target.schema ≠ system
  inbound : ∀ key ∈ t.keys.values, ∀ id ∈ key.referencedBy,
    (∃ r, m.reference id = .ok r) ↔ id.source.schema ≠ system
  listed : (∃ references, m.inboundReferences path = .ok references) ↔
    ReferredVisibly system t
  dropped : (∃ statements m',
      (Part.table path).drop.run.run m = (.ok statements, m') ∧
        m'.table? path = none) ↔
    ReferredVisibly system t

namespace Ends

variable {settings : Settings} {read result : Model}
  (h : Ends settings read result)

include h

theorem reference?_eq (id : ReferenceId) :
    result.reference? id =
      if id.source.schema = settings.naming.systemSchema then none
      else read.reference? id := by
  unfold Model.reference?
  rw [h.table?_eq]
  by_cases hschema : id.source.schema = settings.naming.systemSchema
  · rw [if_pos hschema, if_pos hschema]
    rfl
  · rw [if_neg hschema, if_neg hschema]

theorem key?_eq (path : TablePath) (columns : ColumnSet) :
    result.key? path columns =
      if path.schema = settings.naming.systemSchema then none
      else read.key? path columns := by
  unfold Model.key?
  rw [h.table?_eq]
  by_cases hschema : path.schema = settings.naming.systemSchema
  · rw [if_pos hschema, if_pos hschema]
    rfl
  · rw [if_neg hschema, if_neg hschema]

section Table

variable {path : TablePath} {t : Table} (ht : result.table? path = some t)

include ht

theorem table?_read : read.table? path = some t := by
  rw [h.table?_eq, Option.ite_none_left_eq_some] at ht
  exact ht.2

/-- A reference to a visible table was read, and is found if its own table is
still visible. -/
theorem reference_ok_iff {key : UniqueKey} (hkey : key ∈ t.keys.values)
    {id : ReferenceId} (hid : id ∈ key.referencedBy) :
    (∃ r, result.reference id = .ok r) ↔
      id.source.schema ≠ settings.naming.systemSchema := by
  obtain ⟨columns, hget⟩ := SortedMap.mem_values_iff.1 hkey
  have hread := Model.key?_eq_some_iff.2 ⟨t, h.table?_read ht, hget⟩
  obtain ⟨r, hr, _⟩ := h.reading.closed.inbound hread id hid
  rw [Model.reference_eq_ok_iff] at hr
  simp only [Model.reference_eq_ok_iff, h.reference?_eq]
  by_cases hschema : id.source.schema = settings.naming.systemSchema
  · simp [hschema]
  · simp [hschema, hr]

theorem referencedKey_ok_iff {r : Reference} (hr : r ∈ t.references) :
    (∃ key, result.referencedKey r.mapping = .ok key) ↔
      r.mapping.target.schema ≠ settings.naming.systemSchema := by
  obtain ⟨key, hkey, _⟩ := h.reading.closed.outbound (h.table?_read ht) r hr
  rw [Model.referencedKey_eq_ok_iff] at hkey
  simp only [Model.referencedKey_eq_ok_iff, h.key?_eq]
  by_cases hschema : r.mapping.target.schema = settings.naming.systemSchema
  · simp [hschema]
  · simp [hschema, hkey]

theorem referred_iff :
    (∀ key ∈ t.keys.values, ∀ id ∈ key.referencedBy,
      ∃ r, result.reference id = .ok r) ↔
        ReferredVisibly settings.naming.systemSchema t :=
  forall₂_congr fun _ hkey => forall₂_congr fun _ => h.reference_ok_iff ht hkey

theorem related_iff :
    (∀ id ∈ Model.relatedReferences t,
      (result.reference? id).isSome = true) ↔
        ReferredVisibly settings.naming.systemSchema t := by
  have hnamed := (h.reading.closed.table (h.table?_read ht)).toNamed
  -- The table's own references are found with it.
  have hown : ∀ id ∈ t.references.map Reference.id,
      ∃ r, result.reference id = .ok r := by
    intro id hid
    obtain ⟨hsource, r, hr⟩ := hnamed.mem_reference_ids.1 hid
    rw [← hsource] at ht
    exact ⟨r, Model.reference_eq_ok_iff.2
      (Model.reference?_eq_some_iff.2 ⟨t, ht, hr⟩)⟩
  rw [← h.referred_iff ht]
  simp only [Model.relatedReferences, SortedSet.mem_ofList, List.mem_append,
    List.mem_flatMap, SortedSet.mem_elems, Option.isSome_iff_exists,
    ← Model.reference_eq_ok_iff]
  constructor
  · intro hall key hkey id hid
    exact hall id (Or.inr ⟨key, hkey, hid⟩)
  · rintro hall id (hid | ⟨key, hkey, hid⟩)
    · exact hown id hid
    · exact hall key hkey id hid

theorem linkedVisibly :
    LinkedVisibly settings.naming.systemSchema result path t where
  outbound _ hr := h.referencedKey_ok_iff ht hr
  inbound _ hkey _ hid := h.reference_ok_iff ht hkey hid
  listed := (Model.inboundReferences_ok_iff ht).trans (h.referred_iff ht)
  dropped := (Model.dropTable_yields_iff ht).trans (h.related_iff ht)

end Table

end Ends

/-- The visible tables of an introspected model are linked with each other, and
with the tables of the system schema they are not. -/
theorem run_linkedVisibly {reader : Reader} {settings : Settings}
    {result : Introspection} (h : run reader settings = .ok result)
    {path : TablePath} {t : Table} (ht : result.model.table? path = some t) :
    LinkedVisibly settings.naming.systemSchema result.model path t := by
  obtain ⟨read, hends⟩ := run_ends_of_ok h
  exact hends.linkedVisibly ht

/-- Persons of realms, and realms of the system schema that persons keep. -/
def realms : Dump where
  schemas := [⟨"_ermrest", none⟩, ⟨"public", none⟩]
  columns :=
    [{ table := ⟨"_ermrest", "realm"⟩
       kind := "r"
       comment := none
       names := ["name", "keeper"]
       defaults := []
       types := ["text", "text"]
       elementTypes := []
       domainBases := []
       comments := []
       notNulls := [] },
      { table := ⟨"public", "person"⟩
        kind := "r"
        comment := none
        names := ["id", "realm"]
        defaults := []
        types := ["text", "text"]
        elementTypes := []
        domainBases := []
        comments := []
        notNulls := [] }]
  tables := []
  uniques :=
    [⟨⟨"_ermrest", "realm_pkey"⟩, ⟨"_ermrest", "realm"⟩, ["name"], none⟩,
      ⟨⟨"public", "person_pkey"⟩, ⟨"public", "person"⟩, ["id"], none⟩]
  foreignKeys :=
    [⟨⟨"_ermrest", "realm_keeper"⟩, ⟨"_ermrest", "realm"⟩, ["keeper"],
        ⟨"public", "person"⟩, ["id"], "NO ACTION", "NO ACTION", none⟩,
      ⟨⟨"public", "person_realm"⟩, ⟨"public", "person"⟩, ["realm"],
        ⟨"_ermrest", "realm"⟩, ["name"], "NO ACTION", "NO ACTION", none⟩]
  annotations := []
  acls := []
  bindings := []

/-- The table has a reference into the system schema and one from it. -/
def crosses (system : String) (t : Table) : Bool :=
  t.references.any (fun r => r.mapping.target.schema == system) &&
    t.keys.values.any fun key =>
      key.referencedBy.elems.any fun id => id.source.schema == system

theorem realms_crosses :
    ((run realms.reader .standard).toOption.bind fun result =>
      result.model.table? ⟨"public", "person"⟩).any (crosses "_ermrest") =
        true := by
  have huniques : realms.sortedUniques .standard = realms.uniques :=
    List.mergeSort_of_pairwise (by decide)
  have hforeignKeys : realms.sortedForeignKeys .standard = realms.foreignKeys :=
    List.mergeSort_of_pairwise (by decide)
  unfold run
  rw [readStructure_eq, huniques, hforeignKeys]
  decide +kernel

theorem realms_person :
    ∃ result t, run realms.reader .standard = .ok result ∧
      result.model.table? ⟨"public", "person"⟩ = some t ∧
      crosses "_ermrest" t = true := by
  obtain ⟨t, ht, hany⟩ := (Option.any_eq_true ..).1 realms_crosses
  obtain ⟨result, hresult, ht⟩ := Option.bind_eq_some_iff.1 ht
  exact ⟨result, t, toOption_eq_some_iff.1 hresult, ht, hany⟩

theorem run_linkedVisibly_realms :
    ∃ result t, run realms.reader .standard = .ok result ∧
      result.model.table? ⟨"public", "person"⟩ = some t ∧
      LinkedVisibly "_ermrest" result.model ⟨"public", "person"⟩ t := by
  obtain ⟨result, t, h, ht, _⟩ := realms_person
  exact ⟨result, t, h, ht, run_linkedVisibly h ht⟩

/-- A visible table whose reference has no key, whose key names a reference that
is not found, and which is neither followed backwards nor dropped. -/
theorem realms_severed :
    ∃ result t, run realms.reader .standard = .ok result ∧
      result.model.table? ⟨"public", "person"⟩ = some t ∧
      (∃ r ∈ t.references, ∀ key, result.model.referencedKey r.mapping ≠ .ok key) ∧
      (∃ key ∈ t.keys.values, ∃ id ∈ key.referencedBy,
        ∀ r, result.model.reference id ≠ .ok r) ∧
      (∀ references, result.model.inboundReferences ⟨"public", "person"⟩ ≠
        .ok references) ∧
      ∀ statements m', (Part.table ⟨"public", "person"⟩).drop.run.run
          result.model = (.ok statements, m') →
        m'.table? ⟨"public", "person"⟩ ≠ none := by
  obtain ⟨result, t, h, ht, hcrosses⟩ := realms_person
  obtain ⟨read, hends⟩ := run_ends_of_ok h
  have hlinked := hends.linkedVisibly ht
  have hsystem : Settings.standard.naming.systemSchema = "_ermrest" := rfl
  rw [hsystem] at hlinked
  unfold crosses at hcrosses
  rw [Bool.and_eq_true, List.any_eq_true, List.any_eq_true] at hcrosses
  obtain ⟨⟨r, hr, htarget⟩, key, hkey, hany⟩ := hcrosses
  obtain ⟨id, hid, hsource⟩ := List.any_eq_true.1 hany
  rw [beq_iff_eq] at htarget hsource
  have hcut : ¬ReferredVisibly "_ermrest" t :=
    fun hreferred => hreferred key hkey id hid hsource
  refine ⟨result, t, h, ht, ⟨r, hr, fun key hkey => ?_⟩,
    ⟨key, hkey, id, hid, fun r hr => ?_⟩, fun references hlist => ?_,
    fun statements m' hdrop hgone => ?_⟩
  · exact (hlinked.outbound r hr).1 ⟨key, hkey⟩ htarget
  · exact (hlinked.inbound key hkey id hid).1 ⟨r, hr⟩ hsource
  · exact hcut (hlinked.listed.1 ⟨references, hlist⟩)
  · exact hcut (hlinked.dropped.1 ⟨statements, m', hdrop, hgone⟩)

end Introspection

end GovernedCatalog
