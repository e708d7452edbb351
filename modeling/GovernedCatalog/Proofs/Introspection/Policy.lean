import GovernedCatalog.Proofs.Introspection.Split
import GovernedCatalog.Proofs.Overlay.Policy

/-!
# Introspected policies are valid

A stored access list or binding is attached only if it is valid for the kind of the
entity that it names; all others are counted as left out.
-/

namespace GovernedCatalog.Introspection

/-! ## What introspected entities carry

The rows of a database's structure say nothing of annotations, access lists and
bindings, so the entities that are read carry nothing before the stored rows are
attached. -/

variable {P : OverlayProperty} (hempty : ∀ kind, P kind ∅) {settings : Settings}

include hempty

theorem carries_enterable : Enterable settings (Model.Carries P) where
  addSchema hm row :=
    (hm.ensureSchema (hempty .schema) row.name).updateSchema row.name
      fun _ hs => { hs with own := hs.own }
  ensureTable {m} hm path kind := by
    unfold ensureTable
    refine .after fun kind => .ok ?_
    refine (hm.ensureSchema (hempty .schema) path.schema).updateSchema path.schema
      fun s hs => { hs with table := hs.table.getOrInsert ?_ }
    exact .of_empty (hempty .table) rfl rfl rfl
  addColumn := by
    intro m hm row name position read hread
    refine hm.addColumn row.table ?_
    obtain ⟨_, _, _, _, hstored⟩ := readColumn_stored _ _ _ _ read hread
    rw [hstored]
    exact hempty .column
  addKey hm path columns constraint? :=
    hm.addKey (hempty .key) path columns constraint?
  addReference hm source mapping constraint? onDelete onUpdate :=
    hm.addReference (hempty .keyReference) source mapping constraint? onDelete
      onUpdate
  commentTable hm path comment :=
    hm.updateTable path fun _ ht => ht.withOwn ht.own rfl rfl rfl
  commentKey hm path columns comment :=
    hm.updateTable path fun _ ht => ht.updateKey columns fun _ hkey => hkey
  commentReference hm path mapping comment :=
    hm.updateTable path fun _ ht => ht.updateReference mapping fun _ hr => hr

theorem readStructure_carries (reader : Reader) :
    Ensures (readStructure reader settings) fun r => r.1.Carries P :=
  (carries_enterable hempty).readStructure
    (.fresh (hempty .catalog) (hempty .schema) _) reader

theorem valueMap_carries (systemSchema : String) :
    (ValueMap.table systemSchema).Carries P where
  own := hempty .table
  column := by
    intro c hc
    obtain ⟨entry, _, rfl⟩ := List.mem_map.1 hc
    exact hempty .column
  key := SortedMap.all_empty
  reference := SortedMap.all_empty

theorem addValueMap_carries {m : Model} (hm : m.Carries P) :
    Ensures (addValueMap m) (Model.Carries P) := by
  intro m' h
  obtain ⟨s, hs, rfl⟩ := map_eq_ok.1 h
  exact { hm with system := hm.system.addTable (valueMap_carries hempty _) s hs }

theorem Ends.carries {read result : Model} (h : Ends settings read result)
    (hread : read.Carries P) : result.Carries P := by
  have hinstalled := hread.installSystemSchema settings.naming.systemSchema
  rcases h.split with rfl | hadd
  · exact hinstalled
  · exact addValueMap_carries hempty hinstalled result hadd

end GovernedCatalog.Introspection

namespace GovernedCatalog.Introspection

/-! ## Valid policies -/

theorem valid_attachable : Attachable (Model.Carries Overlay.Valid) where
  annotate kind row hm h := by
    obtain ⟨a, _, _, _, _, rfl⟩ := annotate?_eq_some h
    exact hm.setAnnotations fun _ _ ho => ⟨ho.acls, ho.bindings⟩
  restrict kind row hm h := by
    obtain ⟨_, a, e, _, acls, acls', _, he, hacls, hset, rfl⟩ :=
      restrict?_eq_some h
    have hvisible := (resolve?_eq_some_iff.1 he).2
    have hsupported := (hm.validIn_of_visible hvisible).acls hacls
    have hkind := Model.aclKind?_of_aclsOf? hacls
    rw [(Model.sameKind_of_visible hvisible).acl] at hkind
    exact hm.setAcls_of_supported hkind (hsupported.set hset)
  bind kind row hm h := by
    obtain ⟨a, e, _, bindings, bindings', he, hbindings, hset, rfl⟩ :=
      bind?_eq_some h
    have hvisible := (resolve?_eq_some_iff.1 he).2
    have hwellFormed := (hm.validIn_of_visible hvisible).bindings hbindings
    have hkind := Model.bindingKind?_of_bindingsOf? hbindings
    rw [(Model.sameKind_of_visible hvisible).binding] at hkind
    exact hm.setBindings_of_wellFormed hkind (hwellFormed.set hset)

/-- Every entity of an introspected model has a valid policy. -/
theorem run_valid (reader : Reader) (settings : Settings) :
    Ensures (run reader settings) fun result =>
      result.model.Carries Overlay.Valid := by
  intro result h
  obtain ⟨base, p, hbase, hattach, _, hends⟩ := run_steps result h
  have hread : base.Carries Overlay.Valid :=
    readStructure_carries Overlay.valid_empty reader _ hbase
  exact hends.carries Overlay.valid_empty
    (valid_attachable.attachAll reader settings hread p hattach)

end GovernedCatalog.Introspection
