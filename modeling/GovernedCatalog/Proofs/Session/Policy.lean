import GovernedCatalog.Proofs.Guard.Source
import GovernedCatalog.Proofs.Introspection.Policy
import GovernedCatalog.Proofs.Overlay.Policy
import GovernedCatalog.Proofs.Stateful
import GovernedCatalog.Session.Edit

/-!
# Policies of a session's model

A session starts with a fresh model or an introspected one.  Its requests change
the model and set and remove access lists and bindings; whether they are granted or
refused, every policy of the model is sound after each of them.
-/

/-!
## Edits keep policies valid

Access lists and bindings are edited at an address.  The entity that is reached
there is of the kind of the address, so what passes the check for the one kind can
be carried by the other.  Every edit of a session leaves a model with a valid policy
throughout, also if it is refused.
-/

namespace GovernedCatalog.Session

/-- Every entity of the session's model has a valid policy. -/
def Valid (s : Session) : Prop := s.model.Carries Overlay.Valid

section Reading

variable {P : Session → Prop} {α : Type}

theorem currentModel_upholds :
    Upholds P currentModel fun m => ∃ s, P s ∧ s.model = m :=
  .bind .get fun s hs => .pure ⟨s, hs, rfl⟩

theorem attempt_upholds (x : Except Error α) :
    Upholds P (attempt x) fun a => x = .ok a := by
  cases x with
  | ok a => exact .pure rfl
  | error e => exact .throw _

theorem suitable_upholds (x : Option α) :
    Upholds P (suitable x) fun a => x = some a := by
  cases x with
  | some a => exact .pure rfl
  | none => exact .throw _

theorem reach_upholds (a : Address) :
    Upholds P (reach a) fun e => ∃ s, P s ∧ s.model.reach a = .ok e := by
  refine .bind currentModel_upholds fun m hm => ?_
  obtain ⟨s, hs, rfl⟩ := hm
  exact (attempt_upholds _).imp fun e he => ⟨s, hs, he⟩

/-- The lists that are edited are valid, and of the kind of their address. -/
theorem acls_upholds (a : Address) :
    Upholds Valid (acls a) fun found =>
      a.aclKind? = some found.1 ∧ found.2.Supported found.1 := by
  -- The model is read twice; it is the same one, as nothing is changed.
  refine .of_unchanged fun s hs => .bind (reach_upholds a) fun e he =>
    .bind currentModel_upholds fun m hm => ?_
  obtain ⟨_, rfl, he⟩ := he
  obtain ⟨_, rfl, rfl⟩ := hm
  refine (suitable_upholds _).imp fun found hfound => ?_
  refine ⟨?_, (Model.Carries.validIn_of_reach hs he).acls hfound⟩
  rw [← (Model.sameKind_of_reach he).acl]
  exact Model.aclKind?_of_aclsOf? hfound

/-- The bindings that are edited are valid, and of the kind of their address. -/
theorem bindings_upholds (a : Address) :
    Upholds Valid (bindings a) fun found =>
      a.bindingKind? = some found.1 ∧ found.2.WellFormed found.1 := by
  refine .bind (reach_upholds a) fun e he => ?_
  obtain ⟨s, hs, he⟩ := he
  refine (suitable_upholds _).imp fun found hfound => ?_
  refine ⟨?_, (Model.Carries.validIn_of_reach hs he).bindings hfound⟩
  rw [← (Model.sameKind_of_reach he).binding]
  exact Model.bindingKind?_of_bindingsOf? hfound

theorem annotations_upholds (a : Address) :
    Upholds P (annotations a) fun _ => True :=
  .bind (reach_upholds a) fun _ _ => .bind currentModel_upholds fun _ _ =>
    (suitable_upholds _).imp fun _ _ => trivial

end Reading

/-! ### Changes of the model -/

theorem editTo_upholds {m : Model} (hm : m.Carries Overlay.Valid) :
    Upholds Valid (editTo m) fun _ => True :=
  .modify fun _ _ => hm

theorem changeAt_upholds (a : Address) {f : Model → Model}
    (hf : ∀ m, m.Carries Overlay.Valid → (f m).Carries Overlay.Valid) :
    Upholds Valid (changeAt a f) fun _ => True := by
  refine .bind currentModel_upholds fun m hm => ?_
  obtain ⟨s, hs, rfl⟩ := hm
  exact editTo_upholds (Model.Carries.changeAt hs a hf)

theorem takeSchema_upholds (name : String) :
    Upholds Valid (takeSchema name) fun _ => True := by
  refine .bind currentModel_upholds fun m hm => ?_
  obtain ⟨s, hs, rfl⟩ := hm
  exact .bind (editTo_upholds (Model.Carries.eraseSchema hs name)) fun _ _ =>
    .pure trivial

theorem installSystemSchema_upholds (name : String) :
    Upholds Valid (installSystemSchema name) fun _ => True := by
  refine .bind currentModel_upholds fun m hm => ?_
  obtain ⟨s, hs, rfl⟩ := hm
  exact .bind (editTo_upholds (Model.Carries.installSystemSchema hs name))
    fun _ _ => .pure trivial

theorem bare_upholds (a : Address) : Upholds Valid (bare a) fun _ => True := by
  refine .bind (reach_upholds a) fun e _ => .bind currentModel_upholds fun m _ =>
    .bind (changeAt_upholds a fun m hm => ?_) fun _ _ => .pure trivial
  exact hm.bareAt Overlay.valid_empty a

/-! ### Changes of what an entity carries -/

section Overlays

variable (a : Address)

theorem setAcl_upholds (right : Right) (members : List String) :
    Upholds Valid (setAcl a right members) fun _ => True := by
  refine .bind (acls_upholds a) fun (kind, acls) ⟨hkind, hacls⟩ =>
    .bind (attempt_upholds _) fun acls' hset =>
      .bind (changeAt_upholds a fun m hm => ?_) fun _ _ => .pure trivial
  exact hm.setAcls_of_supported hkind (hacls.set hset)

theorem removeAcl_upholds (right : Right) :
    Upholds Valid (removeAcl a right) fun _ => True := by
  refine .bind (acls_upholds a) fun (kind, acls) ⟨hkind, hacls⟩ =>
    .bind (changeAt_upholds a fun m hm => ?_) fun _ _ => .pure trivial
  exact hm.setAcls_of_supported hkind (hacls.erase right)

theorem clearAcls_upholds : Upholds Valid (clearAcls a) fun _ => True :=
  .bind (acls_upholds a).discard fun _ _ => changeAt_upholds a fun _ hm =>
    hm.setAcls fun _ _ _ ho => ⟨fun _ _ => SortedMap.all_empty, ho.bindings⟩

theorem setBinding_upholds (name : String) (b : AclBinding) :
    Upholds Valid (setBinding a name b) fun _ => True := by
  refine .bind (bindings_upholds a) fun (kind, bindings) ⟨hkind, hbindings⟩ =>
    .bind (attempt_upholds _) fun bindings' hset =>
      .bind (changeAt_upholds a fun m hm => ?_) fun _ _ => .pure trivial
  exact hm.setBindings_of_wellFormed hkind (hbindings.set hset)

theorem removeBinding_upholds (name : String) :
    Upholds Valid (removeBinding a name) fun _ => True := by
  refine .bind (bindings_upholds a) fun (kind, bindings) ⟨hkind, hbindings⟩ =>
    .bind (changeAt_upholds a fun m hm => ?_) fun _ _ => .pure trivial
  exact hm.setBindings_of_wellFormed hkind (hbindings.erase name)

theorem clearBindings_upholds : Upholds Valid (clearBindings a) fun _ => True :=
  .bind (bindings_upholds a).discard fun _ _ => changeAt_upholds a fun _ hm =>
    hm.setBindings fun _ _ _ ho => ⟨ho.acls, fun _ _ => SortedMap.all_empty⟩

/-- Annotations are no part of a policy. -/
theorem replaceAnnotations_upholds (annotations : Annotations) :
    Upholds Valid (changeAt a fun m => m.setAnnotations a annotations)
      fun _ => True :=
  changeAt_upholds a fun _ hm =>
    hm.setAnnotations fun _ _ ho => ⟨ho.acls, ho.bindings⟩

theorem setAnnotation_upholds (uri : String) (value : Json) :
    Upholds Valid ( setAnnotation a uri value) fun _ => True :=
  .bind (annotations_upholds a) fun _ _ =>
    .bind (replaceAnnotations_upholds a _) fun _ _ => .pure trivial

theorem removeAnnotation_upholds (uri : String) :
    Upholds Valid ( removeAnnotation a uri) fun _ => True :=
  .bind (annotations_upholds a) fun _ _ => .bind (attempt_upholds _)
    fun (_, _) _ =>
      .bind (replaceAnnotations_upholds a _) fun _ _ => .pure trivial

theorem clearAnnotations_upholds :
    Upholds Valid (clearAnnotations a) fun _ => True :=
  .bind (annotations_upholds a).discard fun _ _ =>
    replaceAnnotations_upholds a {}

end Overlays

/-! ### Comments -/

theorem commentColumns_upholds (a : Address) (t : Table)
    (comment : Column → String) :
    Upholds Valid (commentColumns a t comment) fun _ => True := by
  refine .bind (changeAt_upholds a fun m hm => ?_) fun _ _ => .pure trivial
  refine hm.updateTable t.path fun t ht => { ht with column := fun c hc => ?_ }
  obtain ⟨d, hd, rfl⟩ := List.mem_map.1 hc
  exact ht.column d hd

theorem commentReferences_upholds (a : Address) (t : Table)
    (comment : Reference → String) :
    Upholds Valid (commentReferences a t comment) fun _ => True := by
  refine .bind (changeAt_upholds a fun m hm => ?_) fun _ _ => .pure trivial
  exact hm.updateTable t.path fun t ht =>
    { ht with
      reference := ht.reference.mapValues fun _ _ hfk =>
        hfk.mapValues fun _ _ hr => hr }

theorem commentSchemas_upholds (comment : Schema → String) :
    Upholds Valid (commentSchemas comment) fun _ => True := by
  refine .bind currentModel_upholds fun m hm => ?_
  obtain ⟨s, hs, rfl⟩ := hm
  refine .bind (editTo_upholds ?_) fun _ _ => .pure trivial
  exact { hs with
    schema := hs.schema.mapValues fun _ _ h => { h with own := h.own } }

end GovernedCatalog.Session

/-! ## Policies of a whole model -/

namespace GovernedCatalog

/-- All policies of a model can be read and compiled. -/
structure Model.SoundPolicy (m : Model) : Prop where
  /-- An access list is of a right that its entity's kind carries. -/
  acls : ∀ e ∈ m.entities.map Prod.snd, ∀ kind acls,
    m.aclsOf? e = some (kind, acls) →
      ∀ right ∈ acls.keys, kind.supports right = true
  /-- A binding that is not disabled is well formed for its entity's kind. -/
  bindings : ∀ e ∈ m.entities.map Prod.snd, ∀ kind bindings,
    Model.bindingsOf? e = some (kind, bindings) →
      ∀ b, .enabled b ∈ bindings.values → b.WellFormed kind
  /-- A binding does not fail to compile for lack of a source. -/
  compiled : ∀ e ∈ m.entities.map Prod.snd, ∀ kind bindings,
    Model.bindingsOf? e = some (kind, bindings) →
      ∀ b, .enabled b ∈ bindings.values → ∀ roles t alias?,
        Guard.compileBinding m roles t alias? b ≠ .error .bindingWithoutSource
  /-- Nor does one of a table whose bindings are overlaid by those of a column. -/
  overlaid : ∀ t, .table t ∈ m.entities.map Prod.snd →
    ∀ c, .column c ∈ m.entities.map Prod.snd →
      ∀ b, .enabled b ∈ (t.bindings.overlay c.bindings).values →
        ∀ roles t' alias?,
          Guard.compileBinding m roles t' alias? b ≠ .error .bindingWithoutSource

theorem Model.Carries.soundPolicy {m : Model} (hm : m.Carries Overlay.Valid) :
    m.SoundPolicy := by
  have hwellFormed : ∀ e ∈ m.entities.map Prod.snd, ∀ kind bindings,
      Model.bindingsOf? e = some (kind, bindings) → bindings.WellFormed kind :=
    fun _ he _ _ h => (hm.validIn_of_mem he).bindings h
  refine ⟨?_, ?_, ?_, ?_⟩
  · intro e he kind acls h
    exact SortedMap.all_iff_keys.1 ((hm.validIn_of_mem he).acls h)
  · intro e he kind bindings h b hb
    exact (hwellFormed e he kind bindings h).of_mem_values hb
  · intro e he kind bindings h b hb roles t alias?
    exact Guard.compileBinding_avoids
      ((hwellFormed e he kind bindings h).of_mem_values hb) m roles t alias?
  · intro t ht c hc b hb roles t' alias?
    have htable := hwellFormed _ ht .table t.bindings rfl
    have hcolumn := hwellFormed _ hc .column c.bindings rfl
    exact Guard.compileBinding_avoids ((htable.overlay hcolumn).of_mem_values hb)
      m roles t' alias?

namespace Session

/-- A request that may change the model of a session. -/
inductive Request where
  /-- A change in reach of the schema that an address is in. -/
  | change (a : Address) (c : Change)
  | takeSchema (name : String)
  | installSystemSchema (name : String)
  | replaceSystemSchema (s : Schema)
  | setAcl (a : Address) (right : Right) (members : List String)
  | removeAcl (a : Address) (right : Right)
  | clearAcls (a : Address)
  | setBinding (a : Address) (name : String) (b : AclBinding)
  | removeBinding (a : Address) (name : String)
  | clearBindings (a : Address)
  | setAnnotation (a : Address) (uri : String) (value : Json)
  | removeAnnotation (a : Address) (uri : String)
  | clearAnnotations (a : Address)
  | commentColumns (a : Address) (t : Table) (comment : Column → String)
  | commentReferences (a : Address) (t : Table) (comment : Reference → String)
  | commentSchemas (comment : Schema → String)
  | bare (a : Address)

namespace Request

def act : Request → Run Unit
  | change a c => Session.changeAt a c.apply
  | takeSchema name => discard (Session.takeSchema name)
  | installSystemSchema name => discard (Session.installSystemSchema name)
  | replaceSystemSchema s => do
      editTo { (← currentModel) with systemSchema := s }
  | setAcl a right members => discard (Session.setAcl a right members)
  | removeAcl a right => discard (Session.removeAcl a right)
  | clearAcls a => Session.clearAcls a
  | setBinding a name b => discard (Session.setBinding a name b)
  | removeBinding a name => discard (Session.removeBinding a name)
  | clearBindings a => Session.clearBindings a
  | setAnnotation a uri value => discard <| Session.setAnnotation a uri value
  | removeAnnotation a uri => discard <| Session.removeAnnotation a uri
  | clearAnnotations a => Session.clearAnnotations a
  | commentColumns a t comment => discard (Session.commentColumns a t comment)
  | commentReferences a t comment =>
      discard (Session.commentReferences a t comment)
  | commentSchemas comment => discard (Session.commentSchemas comment)
  | bare a => discard (Session.bare a)

/-- Entities that are put in as a whole had their policies set for their kinds. -/
def WellMade : Request → Prop
  | change _ c => c.WellMade
  | replaceSystemSchema s => s.Carries Overlay.Made
  | _ => True

/-- Every request, granted or refused, keeps the policies valid. -/
theorem act_upholds {r : Request} (hr : r.WellMade) :
    Upholds Valid r.act fun _ => True := by
  cases r with
  | change a c => exact changeAt_upholds a fun _ hm => c.apply_carries hm hr
  | takeSchema name => exact (takeSchema_upholds name).discard
  | installSystemSchema name => exact (installSystemSchema_upholds name).discard
  | replaceSystemSchema s =>
      refine .bind currentModel_upholds fun m hm => ?_
      obtain ⟨s', hs', rfl⟩ := hm
      have hs : s.Carries Overlay.Valid := hr.imp fun _ _ => Overlay.Made.valid
      exact editTo_upholds { hs' with system := hs }
  | setAcl a right members => exact (setAcl_upholds a right members).discard
  | removeAcl a right => exact (removeAcl_upholds a right).discard
  | clearAcls a => exact clearAcls_upholds a
  | setBinding a name b => exact (setBinding_upholds a name b).discard
  | removeBinding a name => exact (removeBinding_upholds a name).discard
  | clearBindings a => exact clearBindings_upholds a
  | setAnnotation a uri value => exact (setAnnotation_upholds a uri value).discard
  | removeAnnotation a uri => exact (removeAnnotation_upholds a uri).discard
  | clearAnnotations a => exact clearAnnotations_upholds a
  | commentColumns a t comment =>
      exact (commentColumns_upholds a t comment).discard
  | commentReferences a t comment =>
      exact (commentReferences_upholds a t comment).discard
  | commentSchemas comment => exact (commentSchemas_upholds comment).discard
  | bare a => exact (bare_upholds a).discard

end Request

/-- A session that starts with a fresh model or an introspected one, after requests
that are granted or refused. -/
inductive Reached : Session → Prop
  | fresh (settings : Settings) (systemSchema : String) (roles : Roles) :
      Reached (start settings (.fresh systemSchema) roles)
  | introspected {reader : Reader} {settings : Settings}
      {result : Introspection} (roles : Roles) :
      Introspection.run reader settings = .ok result →
        Reached (start settings result.model roles)
  | request {s : Session} {r : Request} :
      Reached s → r.WellMade → Reached (r.act.run.run s).2

/-- The session after a run of requests. -/
def after (s : Session) (requests : List Request) : Session :=
  requests.foldl (fun s r => (r.act.run.run s).2) s

theorem Reached.after {s : Session} (h : s.Reached) {requests : List Request}
    (hmade : ∀ r ∈ requests, r.WellMade) : (s.after requests).Reached := by
  induction requests generalizing s with
  | nil => exact h
  | cons r rest ih =>
      obtain ⟨hr, hrest⟩ := List.forall_mem_cons.1 hmade
      exact ih (h.request hr) hrest

theorem Reached.valid {s : Session} (h : s.Reached) : s.Valid := by
  induction h with
  | fresh settings systemSchema roles =>
      exact .fresh (Overlay.valid_empty .catalog) (Overlay.valid_empty .schema)
        systemSchema
  | introspected roles h => exact Introspection.run_valid _ _ _ h
  | request _ hr ih => exact (Request.act_upholds hr _ ih).1

/-- Along every run of a session all policies of its model are sound. -/
theorem reached_soundPolicy {s : Session} (h : s.Reached) : s.model.SoundPolicy :=
  h.valid.soundPolicy

/-- A table with a policy, and a right that its column cannot carry. -/
def staffing : List Request :=
  let people : TablePath := ⟨"staff", "people"⟩
  let manager : Binding := ⟨[.owner], some (.column "boss"), .acl, none, ["*"]⟩
  Model.staff.map (Request.change .catalog) ++
    [.setAcl (.table people) .select ["hr"],
      .setBinding (.table people) "manager" (.enabled manager),
      .setBinding (.column people "boss") "manager" .disabled,
      .setAcl (.column people "boss") .create ["*"]]

theorem staffing_made : ∀ r ∈ staffing, r.WellMade := by
  have htable : ∀ name, (Table.fresh "staff" name .table).Carries Overlay.Made :=
    fun _ => .of_empty (Overlay.made_empty .table) rfl rfl rfl
  have hcolumn : ∀ path name position,
      (Column.stored path name position .text none).carried.Made .column :=
    fun _ _ _ => Overlay.made_empty .column
  simp [staffing, Model.staff, Request.WellMade, Change.WellMade, htable, hcolumn]

theorem reached_soundPolicy_staffing :
    let s := (start .standard (.fresh "sys") {}).after staffing
    s.model.SoundPolicy ∧
      (s.model.overlayAt? (.table ⟨"staff", "people"⟩)).map
          (fun o => (o.acls.keys, o.bindings.keys)) =
        some ([.select], ["manager"]) ∧
      (s.model.overlayAt? (.column ⟨"staff", "people"⟩ "boss")).map
          (fun o => (o.acls.keys, o.bindings.keys)) =
        some ([], ["manager"]) := by
  refine ⟨reached_soundPolicy (Reached.after (.fresh ..) staffing_made), ?_, ?_⟩
  · decide +kernel
  · decide +kernel

end Session

end GovernedCatalog
