import GovernedCatalog.Overlay.Annotations
import GovernedCatalog.Policy.Document
import GovernedCatalog.Proofs.Json.Canonical
import GovernedCatalog.Proofs.Json.Record

/-!
# Policies are read as they were written

Access lists and bindings are read back from their documents: of the forms that a
reader tries in turn, the first that takes what was written is its own.  The operands
of the filters in a binding are read in canonical form, so they are the same again if
they had that form before, as in all bindings that have been read.
-/

namespace GovernedCatalog

open Json

def Annotations.IsCanonical (annotations : Annotations) : Prop :=
  ∀ j ∈ annotations.values, j.IsCanonical

def PathElement.IsCanonical : PathElement → Prop
  | follow _ _ => True
  | filter _ operand _ => operand.IsCanonical
  | column _ => True

def Projection.IsCanonical : Projection → Prop
  | column _ => True
  | path elements => ∀ e ∈ elements, e.IsCanonical

def Binding.IsCanonical (b : Binding) : Prop :=
  ∀ projection, b.projection = some projection → projection.IsCanonical

def AclBinding.IsCanonical : AclBinding → Prop
  | disabled => True
  | enabled b => b.IsCanonical

def Bindings.IsCanonical (bindings : Bindings) : Prop :=
  ∀ b ∈ bindings.values, b.IsCanonical

/-! ## Operands in canonical form -/

def PathElement.canonical : PathElement → PathElement
  | follow direction constraint => follow direction constraint
  | filter source operand operator => filter source operand.canonical operator
  | column name => column name

def Projection.canonical : Projection → Projection
  | column name => column name
  | path elements => path (elements.map PathElement.canonical)

def Binding.canonical (b : Binding) : Binding :=
  { b with projection := b.projection.map Projection.canonical }

def AclBinding.canonical : AclBinding → AclBinding
  | disabled => disabled
  | enabled b => enabled b.canonical

def Bindings.canonical (bindings : Bindings) : Bindings :=
  bindings.mapValues fun _ b => b.canonical

theorem PathElement.IsCanonical.canonical_eq {e : PathElement} (h : e.IsCanonical) :
    e.canonical = e := by
  cases e with
  | follow direction constraint => rfl
  | filter source operand operator =>
    have hoperand : operand.canonical = operand := h
    rw [canonical, hoperand]
  | column name => rfl

theorem Projection.IsCanonical.canonical_eq {p : Projection} (h : p.IsCanonical) :
    p.canonical = p := by
  cases p with
  | column name => rfl
  | path elements =>
    have helements : elements.map PathElement.canonical = elements.map id :=
      List.map_congr_left fun e he => (h e he).canonical_eq
    rw [canonical, helements, List.map_id]

theorem Binding.IsCanonical.canonical_eq {b : Binding} (h : b.IsCanonical) :
    b.canonical = b := by
  obtain ⟨types, projection?, type, clause?, scope⟩ := b
  cases projection? with
  | none => rfl
  | some projection =>
    have hprojection := (h projection rfl).canonical_eq
    rw [canonical, Option.map_some, hprojection]

theorem AclBinding.IsCanonical.canonical_eq {b : AclBinding} (h : b.IsCanonical) :
    b.canonical = b := by
  cases b with
  | disabled => rfl
  | enabled b => exact congrArg enabled (Binding.IsCanonical.canonical_eq h)

theorem Bindings.IsCanonical.canonical_eq {bindings : Bindings} (h : bindings.IsCanonical) :
    bindings.canonical = bindings := by
  have hentries : (bindings.canonical).entries = bindings.entries.map id :=
    List.map_congr_left fun e he =>
      congrArg (e.1, ·) (h e.2 (List.mem_map_of_mem he)).canonical_eq
  exact SortedMap.ext (hentries.trans (List.map_id _))

theorem Annotations.ofJson?_ofMap {annotations : Annotations}
    (h : annotations.IsCanonical) :
    asMap asAny (ofMap annotations) = some annotations := by
  have hread : asMap asAny (ofMap (annotations.mapValues fun _ j => j)) =
      some (annotations.mapValues fun _ j => j) :=
    asMap_ofMap fun j hj => (h j hj).asAny
  rwa [SortedMap.mapValues_id] at hread

/-! ## Access lists -/

theorem Right.ofName?_name (right : Right) : ofName? right.name = some right := by
  cases right <;> rfl

theorem Right.name_injective : Function.Injective name := by
  intro right right' h
  have hread := ofName?_name right
  rw [h, ofName?_name right', Option.some.injEq] at hread
  exact hread.symm

theorem Acls.ofJson?_toJson (acls : Acls) : ofJson? acls.toJson = some acls := by
  have hnames : ((acls.entries.map fun e => (e.1.name, strings e.2)).map
      Prod.fst).Nodup := by
    rw [List.map_map]
    have hkeys := acls.nodup_keys.map Right.name_injective
    rwa [SortedMap.keys, List.map_map] at hkeys
  obtain ⟨found, hread, hperm⟩ : ∃ found,
      asEntries Right.ofName? asStrings acls.toJson = some found ∧
        found.Perm (acls.entries.map id) :=
    asEntries_object
      (fun e _ => ⟨e.1.ofName?_name, asStrings_strings e.2⟩) hnames
  rw [List.map_id] at hperm
  unfold ofJson?
  rw [hread, Option.map_some, SortedMap.ofList_of_perm hperm]

/-! ## Bindings -/

theorem ConstraintName.ofJson?_toJson (c : ConstraintName) :
    ofJson? c.toJson = some c := rfl

namespace PathElement

/-- Only steps along a reference are read as such, each in its own direction. -/
theorem followOfJson?_toJson (direction : Direction) (e : PathElement) :
    followOfJson? direction e.toJson =
      match e with
      | follow followed c => if followed = direction then some (follow followed c) else none
      | _ => none := by
  unfold followOfJson?
  cases e with
  | follow followed c =>
    rw [toJson, objectFields_object _ (by simp)]
    cases followed <;> cases direction <;> rfl
  | filter source operand operator? =>
    cases operator? with
    | none =>
      rw [toJson, objectFields_object _ (by simp)]
      cases direction <;> rfl
    | some op =>
      rw [toJson, objectFields_object _ (by simp)]
      cases direction <;> rfl
  | column name => rfl

/-- Only filters are read as such. -/
theorem filterOfJson?_toJson (e : PathElement) :
    filterOfJson? e.toJson =
      match e with
      | filter source operand operator? => some (filter source operand.canonical operator?)
      | _ => none := by
  unfold filterOfJson?
  cases e with
  | follow direction c =>
    rw [toJson, objectFields_object _ (by simp)]
    cases direction <;> rfl
  | filter source operand operator? =>
    cases operator? with
    | none =>
      rw [toJson, objectFields_object _ (by simp)]
      rfl
    | some op =>
      rw [toJson, objectFields_object _ (by simp)]
      rfl
  | column name => rfl

theorem ofJson?_toJson (e : PathElement) : ofJson? e.toJson = some e.canonical := by
  unfold ofJson?
  rw [followOfJson?_toJson, followOfJson?_toJson, filterOfJson?_toJson]
  cases e with
  | follow direction c => cases direction <;> rfl
  | filter source operand operator? => rfl
  | column name => rfl

end PathElement

namespace Projection

theorem ofJson?_toJson (p : Projection) : ofJson? p.toJson = some p.canonical := by
  cases p with
  | column name => rfl
  | path elements =>
    have hread : asList PathElement.ofJson? (path elements).toJson =
        some (elements.map PathElement.canonical) :=
      asList_arr fun e _ => e.ofJson?_toJson
    exact congrArg (Option.map path) hread

theorem isNull_toJson (p : Projection) : p.toJson.isNull = false := by
  cases p <;> rfl

end Projection

theorem ProjectionType.ofName?_name (type : ProjectionType) :
    ofName? type.name = some type := by
  cases type <;> rfl

theorem Binding.ofJson?_toJson (b : Binding) : ofJson? b.toJson = some b.canonical := by
  have hread : ∀ fields : List (String × Json), (fields.map Prod.fst).Nodup →
      field? fields "types" = some (strings (b.types.map Right.name)) →
      field? fields "projection_type" = some (.str b.projectionType.name) →
      field? fields "scope_acl" = some (strings b.scope) →
      Fields.optional (field? fields) "projection" Projection.ofJson? =
        some (b.projection.map Projection.canonical) →
      Fields.optional (field? fields) "clause" asString = some b.clause →
        ofJson? (object fields) = some b.canonical := by
    intro fields hnodup htypes htype hscope hprojection hclause
    have hrights : asList (asName Right.ofName?)
        (strings (b.types.map Right.name)) = some (b.types.map id) := by
      unfold strings
      rw [List.map_map]
      exact asList_arr fun right _ => right.ofName?_name
    rw [List.map_id] at hrights
    have hjoin : asName ProjectionType.ofName? (.str b.projectionType.name) =
        some b.projectionType := b.projectionType.ofName?_name
    unfold ofJson?
    rw [recordFields_object _ hnodup]
    simp only [Option.bind_eq_bind, Option.bind_some]
    rw [Fields.required_eq_some htypes hrights, hprojection,
      Fields.withDefault_eq_some _ htype hjoin, hclause,
      Fields.withDefault_eq_some _ hscope (asStrings_strings b.scope)]
    rfl
  obtain ⟨types, projection?, type, clause?, scope⟩ := b
  cases projection? with
  | none =>
    cases clause? with
    | none =>
      exact hread _ (by simp) rfl rfl rfl (Fields.optional_absent rfl)
        (Fields.optional_absent rfl)
    | some clause =>
      exact hread _ (by simp) rfl rfl rfl (Fields.optional_absent rfl)
        (Fields.optional_eq_some rfl rfl rfl)
  | some projection =>
    have hprojection := projection.ofJson?_toJson
    have hnull := projection.isNull_toJson
    cases clause? with
    | none =>
      exact hread _ (by simp) rfl rfl rfl
        (Fields.optional_eq_some rfl hprojection hnull)
        (Fields.optional_absent rfl)
    | some clause =>
      exact hread _ (by simp) rfl rfl rfl
        (Fields.optional_eq_some rfl hprojection hnull)
        (Fields.optional_eq_some rfl rfl rfl)

theorem AclBinding.ofJson?_toJson (b : AclBinding) : ofJson? b.toJson = some b.canonical := by
  cases b with
  | disabled => rfl
  | enabled b => exact congrArg (Option.map enabled) b.ofJson?_toJson

theorem Bindings.ofJson?_toJson_canonical (bindings : Bindings) :
    ofJson? (toJson bindings) = some bindings.canonical :=
  asMap_ofMap fun b _ => b.ofJson?_toJson

theorem Bindings.ofJson?_toJson {bindings : Bindings} (h : bindings.IsCanonical) :
    ofJson? (toJson bindings) = some bindings := by
  rw [ofJson?_toJson_canonical, h.canonical_eq]

/-! ## Bindings that have been read -/

theorem PathElement.readsOnly : ReadsOnly ofJson? IsCanonical := by
  have hfollow : ∀ direction, ReadsOnly (followOfJson? direction) IsCanonical := by
    intro direction j e h
    simp only [followOfJson?, Option.bind_eq_bind, Option.bind_eq_some_iff,
      Option.pure_def, Option.some.injEq] at h
    obtain ⟨fields, -, constraint, -, rfl⟩ := h
    trivial
  intro j e h
  simp only [ofJson?, Option.orElse_eq_orElse, Option.orElse_eq_or,
    Option.or_eq_some_iff] at h
  obtain h | ⟨-, h | ⟨-, h | ⟨-, h⟩⟩⟩ := h
  · exact hfollow .outbound j e h
  · exact hfollow .inbound j e h
  · simp only [filterOfJson?, Option.bind_eq_bind, Option.bind_eq_some_iff,
      Option.pure_def, Option.some.injEq] at h
    obtain ⟨fields, -, source, -, operand, hoperand, operator, -, rfl⟩ := h
    exact readsOnly_asAny.required hoperand
  · obtain ⟨name, -, rfl⟩ := Option.map_eq_some_iff.1 h
    trivial

theorem Projection.readsOnly : ReadsOnly ofJson? IsCanonical := by
  intro j p h
  unfold ofJson? at h
  split at h
  · cases h
    trivial
  · obtain ⟨elements, helements, rfl⟩ := Option.map_eq_some_iff.1 h
    exact PathElement.readsOnly.asList j elements helements

theorem Binding.readsOnly : ReadsOnly ofJson? IsCanonical := by
  intro j b h
  simp only [ofJson?, Option.bind_eq_bind, Option.bind_eq_some_iff,
    Option.pure_def, Option.some.injEq] at h
  obtain ⟨fields, -, types, -, projection?, hprojection, type, -, clause, -,
    scope, -, rfl⟩ := h
  exact Projection.readsOnly.optional hprojection

theorem AclBinding.readsOnly : ReadsOnly ofJson? IsCanonical := by
  intro j b h
  unfold ofJson? at h
  split at h
  · cases h
    trivial
  · obtain ⟨b, hb, rfl⟩ := Option.map_eq_some_iff.1 h
    exact Binding.readsOnly j b hb

theorem Bindings.readsOnly : ReadsOnly ofJson? IsCanonical :=
  AclBinding.readsOnly.asMap

theorem Annotations.readsOnly : ReadsOnly (asMap asAny) IsCanonical :=
  readsOnly_asAny.asMap

/-- Every set of bindings is read back from its document, with its operands in canonical
form.  So it is the same set if they have this form, as they do in all sets that are
read. -/
theorem Bindings.toJson_lossless (bindings : Bindings) :
    ofJson? (toJson bindings) = some bindings.canonical ∧
      (bindings.IsCanonical → ofJson? (toJson bindings) = some bindings) ∧
      ∀ j found, ofJson? j = some found → found.IsCanonical :=
  ⟨bindings.ofJson?_toJson_canonical, ofJson?_toJson, readsOnly⟩

/-- A binding with all kinds of steps, whose operands are null and look like a step
themselves, and one that is disabled. -/
def Bindings.nightShift : Bindings :=
  let step : Json := .obj [("filter", .str "ward"), ("operand", .null)]
  let path : List PathElement :=
    [.follow .outbound ⟨"clinic", "shift_ward"⟩, .follow .inbound ⟨"clinic", "nurse_ward"⟩,
      .filter "ended" .null none, .filter "plan" step (some "::ne::"), .column "outbound"]
  .ofList [("staff", .enabled ⟨[.select, .update, .select], some (.path path), .nonnull, none, []⟩),
    ("", .disabled)]

theorem Bindings.toJson_lossless_nightShift :
    nightShift.IsCanonical ∧ ofJson? (toJson nightShift) = some nightShift := by
  have hcanonical : nightShift.IsCanonical := by
    intro b hb
    change b ∈ [AclBinding.disabled, _] at hb
    simp only [List.mem_cons, List.not_mem_nil, or_false] at hb
    rcases hb with rfl | rfl
    · trivial
    · rintro projection ⟨⟩ e he
      simp only [List.mem_cons, List.not_mem_nil, or_false] at he
      rcases he with rfl | rfl | rfl | rfl | rfl <;> trivial
  exact ⟨hcanonical, (toJson_lossless nightShift).2.1 hcanonical⟩

end GovernedCatalog
