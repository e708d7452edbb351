import GovernedCatalog.Policy.Binding
import GovernedCatalog.Proofs.Fallible
import GovernedCatalog.Proofs.Ordered.Map

/-!
# Valid policies

What the checks of access lists and of bindings accept is described without the
checks.  A policy that was set for a kind of entity, one list or binding after the
other, is valid for this kind.
-/

namespace GovernedCatalog

namespace Acls

variable {kind : AclKind} {acls acls' : Acls} {right : Right}
  {members : List String} {u : Unit}

/-- All lists are of rights that the kind carries. -/
def Supported (kind : AclKind) (acls : Acls) : Prop :=
  acls.All fun right _ => kind.supports right = true

theorem validate_eq_ok_iff : acls.validate kind = .ok u ↔ acls.Supported kind := by
  unfold validate Supported
  rw [SortedMap.all_iff_keys]
  cases hfind : acls.keys.find? fun right => !kind.supports right with
  | none =>
      refine iff_of_true rfl fun right hright => ?_
      simpa using List.find?_eq_none.1 hfind right hright
  | some right =>
      have hunsupported := List.find?_some hfind
      have hmem := List.mem_of_find?_eq_some hfind
      refine iff_of_false (by simp) fun h => ?_
      simp [h right hmem] at hunsupported

theorem set_eq_ok_iff :
    acls.set kind right members = .ok acls' ↔
      kind.supports right = true ∧ acls' = acls.insert right members := by
  unfold set
  by_cases hsupports : kind.supports right = true
  · rw [if_pos hsupports, Except.ok.injEq, eq_comm, and_iff_right hsupports]
  · rw [if_neg hsupports]
    exact iff_of_false (by simp) fun h => hsupports h.1

theorem Supported.set (h : acls.Supported kind)
    (hset : acls.set kind right members = .ok acls') : acls'.Supported kind := by
  obtain ⟨hsupports, rfl⟩ := set_eq_ok_iff.1 hset
  exact SortedMap.All.insert h hsupports

/-- Lists that were set, and perhaps removed again, for an entity of the kind. -/
inductive MadeFor (kind : AclKind) : Acls → Prop
  | empty : MadeFor kind ∅
  | set {acls acls' : Acls} {right : Right} {members : List String} :
      MadeFor kind acls → acls.set kind right members = .ok acls' →
        MadeFor kind acls'
  | erase {acls : Acls} (right : Right) :
      MadeFor kind acls → MadeFor kind (acls.erase right)

theorem MadeFor.supported (h : MadeFor kind acls) : acls.Supported kind := by
  induction h with
  | empty => exact SortedMap.all_empty
  | set _ hset ih => exact ih.set hset
  | erase right _ ih => exact SortedMap.All.erase ih right

end Acls

namespace Binding

variable {kind kind' : AclKind} {b : Binding} {u : Unit}

/-- A binding that grants something an entity of the kind can grant, by exactly
one source of its condition. -/
structure WellFormed (kind : AclKind) (b : Binding) : Prop where
  types_nonempty : b.types ≠ []
  types_supported : ∀ right ∈ b.types, right ∈ kind.dynamicRights
  one_source : b.projection.isSome = !b.clause.isSome
  /-- A projection is made of steps and a column at their end. -/
  splits : ∀ projection, b.projection = some projection →
    ∃ steps column, projection.split = .ok (steps, column)

theorem validateSource_eq_ok_iff :
    b.validateSource = .ok u ↔
      b.projection.isSome = !b.clause.isSome ∧
        ∀ projection, b.projection = some projection →
          ∃ steps column, projection.split = .ok (steps, column) := by
  unfold validateSource
  cases b.projection <;> cases b.clause <;> simp [map_eq_ok]

theorem validate_eq_ok_iff : b.validate kind = .ok u ↔ b.WellFormed kind := by
  have hfind : (b.types.find? fun right => !kind.dynamicRights.contains right) =
      none ↔ ∀ right ∈ b.types, right ∈ kind.dynamicRights := by
    simp
  unfold validate
  by_cases hempty : b.types.isEmpty = true
  · rw [if_pos hempty]
    refine iff_of_false (by simp) fun h => h.types_nonempty ?_
    exact List.isEmpty_iff.1 hempty
  · rw [if_neg hempty]
    cases hunsupported :
        b.types.find? fun right => !kind.dynamicRights.contains right with
    | some right =>
        refine iff_of_false (by simp) fun h => ?_
        rw [hfind.2 h.types_supported] at hunsupported
        cases hunsupported
    | none =>
        have hsupported := hfind.1 hunsupported
        rw [validateSource_eq_ok_iff]
        constructor
        · rintro ⟨hsource, hsplits⟩
          exact ⟨fun h => hempty (List.isEmpty_iff.2 h), hsupported, hsource,
            hsplits⟩
        · intro h
          exact ⟨h.one_source, h.splits⟩

/-- Kinds that can grant the same have the same bindings. -/
theorem WellFormed.of_dynamicRights (h : b.WellFormed kind)
    (hrights : kind.dynamicRights = kind'.dynamicRights) : b.WellFormed kind' :=
  { h with types_supported := hrights ▸ h.types_supported }

end Binding

/-- An entry that is disabled, or well formed for the kind. -/
def AclBinding.WellFormed (kind : AclKind) (entry : AclBinding) : Prop :=
  ∀ b, entry = .enabled b → b.WellFormed kind

theorem AclBinding.validate_eq_ok_iff {kind : AclKind} {entry : AclBinding}
    {u : Unit} : entry.validate kind = .ok u ↔ entry.WellFormed kind := by
  cases entry with
  | disabled => exact iff_of_true rfl fun _ h => by cases h
  | enabled b =>
      refine Binding.validate_eq_ok_iff.trans ⟨?_, fun h => h b rfl⟩
      intro hb _ h
      cases h
      exact hb

namespace Bindings

variable {kind kind' : AclKind} {bindings bindings' : Bindings} {name : String}
  {entry : AclBinding} {u : Unit}

/-- All entries are disabled or well formed for the kind. -/
def WellFormed (kind : AclKind) (bindings : Bindings) : Prop :=
  bindings.All fun _ entry => entry.WellFormed kind

theorem validate_eq_ok_iff :
    bindings.validate kind = .ok u ↔ bindings.WellFormed kind := by
  unfold validate WellFormed
  rw [SortedMap.all_iff_values]
  constructor
  · intro h entry hentry
    exact AclBinding.validate_eq_ok_iff.1 (forM_eq_ok h entry hentry)
  · intro h
    exact forM_ok fun entry hentry => AclBinding.validate_eq_ok_iff.2 (h entry hentry)

theorem set_eq_ok_iff :
    bindings.set kind name entry = .ok bindings' ↔
      entry.WellFormed kind ∧ bindings' = bindings.insert name entry := by
  unfold set
  rw [map_eq_ok]
  simp only [AclBinding.validate_eq_ok_iff]
  constructor
  · rintro ⟨_, hentry, rfl⟩
    exact ⟨hentry, rfl⟩
  · rintro ⟨hentry, rfl⟩
    exact ⟨⟨⟩, hentry, rfl⟩

theorem WellFormed.set (h : bindings.WellFormed kind)
    (hset : bindings.set kind name entry = .ok bindings') :
    bindings'.WellFormed kind := by
  obtain ⟨hentry, rfl⟩ := set_eq_ok_iff.1 hset
  exact SortedMap.All.insert h hentry

theorem WellFormed.of_dynamicRights (h : bindings.WellFormed kind)
    (hrights : kind.dynamicRights = kind'.dynamicRights) :
    bindings.WellFormed kind' :=
  SortedMap.All.imp h fun _ _ hentry b hb =>
    (hentry b hb).of_dynamicRights hrights

/-- The bindings of a column where they take the place of those of its table. -/
theorem WellFormed.overlay (h : bindings.WellFormed .table)
    (h' : bindings'.WellFormed .column) :
    WellFormed .column (bindings.overlay bindings') := by
  have htable : bindings.WellFormed .column := h.of_dynamicRights rfl
  exact SortedMap.All.overlay htable h'

theorem WellFormed.of_mem_values (h : bindings.WellFormed kind) {b : Binding}
    (hb : .enabled b ∈ bindings.values) : b.WellFormed kind :=
  SortedMap.all_iff_values.1 h _ hb b rfl

/-- Bindings that were set, and perhaps removed again, for an entity of the
kind. -/
inductive MadeFor (kind : AclKind) : Bindings → Prop
  | empty : MadeFor kind ∅
  | set {bindings bindings' : Bindings} {name : String} {entry : AclBinding} :
      MadeFor kind bindings → bindings.set kind name entry = .ok bindings' →
        MadeFor kind bindings'
  | erase {bindings : Bindings} (name : String) :
      MadeFor kind bindings → MadeFor kind (bindings.erase name)

theorem MadeFor.wellFormed (h : MadeFor kind bindings) :
    bindings.WellFormed kind := by
  induction h with
  | empty => exact SortedMap.all_empty
  | set _ hset ih => exact ih.set hset
  | erase name _ ih => exact SortedMap.All.erase ih name

end Bindings

end GovernedCatalog
