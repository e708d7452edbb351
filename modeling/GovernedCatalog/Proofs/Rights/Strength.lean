import GovernedCatalog.Proofs.Model.History
import GovernedCatalog.Proofs.Rights.Interleaving

/-!
# Stronger requests

Decisions are ordered by strength: deny, indeterminate, allow.  A requester who
gains roles gets decisions that are at least as strong, and so does one who asks
for a right that is implied by the one asked for before.  Both follow from one
comparison of two requests, entity by entity along the rules.
-/

namespace GovernedCatalog

namespace Decision

def strength : Decision → Nat
  | deny => 0
  | indeterminate => 1
  | allow => 2

instance : LE Decision := ⟨fun d e => d.strength ≤ e.strength⟩

instance (d e : Decision) : Decidable (d ≤ e) :=
  inferInstanceAs (Decidable (d.strength ≤ e.strength))

theorem le_refl (d : Decision) : d ≤ d := Nat.le_refl _

theorem deny_le (d : Decision) : deny ≤ d := Nat.zero_le _

theorem le_allow (d : Decision) : d ≤ allow := by
  cases d <;> decide

theorem eq_allow_of_le {d e : Decision} (h : d ≤ e) (hd : d = allow) :
    e = allow := by
  subst hd
  cases e with
  | allow => rfl
  | deny => exact absurd h (by decide)
  | indeterminate => exact absurd h (by decide)

theorem ne_deny_of_le {d e : Decision} (h : d ≤ e) (hd : d ≠ deny) :
    e ≠ deny := by
  rintro rfl
  cases d with
  | deny => exact hd rfl
  | allow => exact absurd h (by decide)
  | indeterminate => exact absurd h (by decide)

theorem and_le_and {d d' e e' : Decision} (hd : d ≤ d') (he : e ≤ e') :
    d.and e ≤ d'.and e' := by
  revert hd he
  cases d <;> cases d' <;> cases e <;> cases e' <;> decide

theorem or_le_or {d d' e e' : Decision} (hd : d ≤ d') (he : e ≤ e') :
    d.or e ≤ d'.or e' := by
  revert hd he
  cases d <;> cases d' <;> cases e <;> cases e' <;> decide

/-- A decision that is only made unless something is denied. -/
theorem unless_denied_le {p q : Prop} [Decidable p] [Decidable q]
    {d e : Decision} (hpq : q → p) (h : d ≤ e) :
    (if p then deny else d) ≤ (if q then deny else e) := by
  by_cases hp : p
  · rw [if_pos hp]
    exact deny_le _
  · have hq : ¬q := fun hq => hp (hpq hq)
    rw [if_neg hp, if_neg hq]
    exact h

end Decision

/-! ## Rights that imply others -/

namespace Right

theorem impliedBy_refl (right : Right) : right.impliedBy right = true := by
  cases right <;> rfl

theorem impliedBy_trans {a b c : Right} (hab : a.impliedBy b = true)
    (hbc : b.impliedBy c = true) : a.impliedBy c = true := by
  revert hab hbc
  cases a <;> cases b <;> first | (intro h; cases h; done) | (cases c <;> decide)

theorem impliedBy_owner (right : Right) : right.impliedBy owner = true := by
  cases right <;> rfl

theorem enumerate_impliedBy (right : Right) :
    enumerate.impliedBy right = true := by
  cases right <;> rfl

theorem mem_sufficient {right granted : Right} :
    granted ∈ right.sufficient ↔ right.impliedBy granted = true :=
  List.contains_iff_mem.symm

end Right

/-- A request as strong as another one: it has at least the roles of the other,
and the right that it asks for is implied by that of the other. -/
structure Stronger (roles roles' : Roles) (right right' : Right) : Prop where
  roles : ∀ role ∈ roles, role ∈ roles'
  right : right'.impliedBy right = true

namespace Stronger

variable {roles roles' : Roles} {right right' : Right}
  (h : Stronger roles roles' right right')

include h

/-- The same requesters asking who sees an entity at all. -/
theorem enumerate : Stronger roles roles' .enumerate .enumerate where
  roles := h.roles
  right := rfl

theorem rolesMatch {members : List String}
    (hmatch : GovernedCatalog.rolesMatch members roles = true) :
    GovernedCatalog.rolesMatch members roles' = true := by
  unfold GovernedCatalog.rolesMatch at hmatch ⊢
  obtain ⟨member, hmember, hmatches⟩ := List.any_eq_true.1 hmatch
  rw [List.any_eq_true]
  refine ⟨member, hmember, ?_⟩
  rcases Bool.or_eq_true_iff.1 hmatches with hall | hrole
  · rw [hall, Bool.true_or]
  · have hrole' : roles'.contains member = true :=
      SortedSet.contains_iff.2 (h.roles _ (SortedSet.contains_iff.1 hrole))
    rw [hrole', Bool.or_true]

theorem listed {aclFor? : Right → Option (List String)}
    (hlisted : GovernedCatalog.listed aclFor? roles right = true) :
    GovernedCatalog.listed aclFor? roles' right' = true := by
  unfold GovernedCatalog.listed at hlisted ⊢
  obtain ⟨r, hr, hany⟩ := List.any_eq_true.1 hlisted
  have hr' : r ∈ right'.sufficient :=
    Right.mem_sufficient.2
      (Right.impliedBy_trans h.right (Right.mem_sufficient.1 hr))
  rw [List.any_eq_true]
  refine ⟨r, hr', ?_⟩
  obtain ⟨members, hacl, hmatch⟩ := (Option.any_eq_true _ _).1 hany
  exact (Option.any_eq_true _ _).2 ⟨members, hacl, h.rolesMatch hmatch⟩

theorem grants {b : Binding} (hgrants : b.grants right = true) :
    b.grants right' = true := by
  unfold Binding.grants at hgrants ⊢
  obtain ⟨type, htype, himplied⟩ := List.any_eq_true.1 hgrants
  rw [List.any_eq_true]
  exact ⟨type, htype, Right.impliedBy_trans h.right himplied⟩

theorem mem_granting {bindings : Bindings} {b : Binding}
    (hb : b ∈ bindings.granting right roles) :
    b ∈ bindings.granting right' roles' := by
  unfold Bindings.granting at hb ⊢
  obtain ⟨hmem, happlies⟩ := List.mem_filter.1 hb
  obtain ⟨hgrants, hscope⟩ := Bool.and_eq_true_iff.1 happlies
  have hscope' : b.inScope roles' = true := h.rolesMatch hscope
  exact List.mem_filter.2
    ⟨hmem, Bool.and_eq_true_iff.2 ⟨h.grants hgrants, hscope'⟩⟩

theorem verdict_le {aclFor? : Right → Option (List String)}
    {bindings : Bindings} :
    verdict aclFor? bindings roles right ≤
      verdict aclFor? bindings roles' right' := by
  unfold verdict
  by_cases hlisted : GovernedCatalog.listed aclFor? roles right = true
  · rw [if_pos hlisted, if_pos (h.listed hlisted)]
    exact Decision.le_refl _
  · rw [if_neg hlisted]
    by_cases hlisted' : GovernedCatalog.listed aclFor? roles' right' = true
    · rw [if_pos hlisted']
      exact Decision.le_allow _
    · rw [if_neg hlisted']
      refine Decision.unless_denied_le (fun hempty => ?_) (Decision.le_refl _)
      rw [List.isEmpty_iff, List.eq_nil_iff_forall_not_mem] at hempty ⊢
      exact fun b hb => hempty b (h.mem_granting hb)

/-! ## Entity by entity -/

section Rules

variable {m : Model}

theorem decide_catalog_le :
    decide m roles .catalog right ≤ decide m roles' .catalog right' :=
  h.verdict_le

theorem decide_schema_le (s : Schema) :
    decide m roles (.schema s) right ≤ decide m roles' (.schema s) right' :=
  h.verdict_le

theorem decide_table_le (t : Table) :
    decide m roles (.table t) right ≤ decide m roles' (.table t) right' := by
  rw [decide_table, decide_table]
  cases m.schemaOf? t.schema with
  | none => exact Decision.le_refl _
  | some s =>
      have hschema := h.enumerate.decide_schema_le (m := m) s
      refine Decision.unless_denied_le (fun hdeny => ?_) h.verdict_le
      by_contra hvisible
      exact Decision.ne_deny_of_le hschema hvisible hdeny

theorem decide_column_le (c : Column) :
    decide m roles (.column c) right ≤ decide m roles' (.column c) right' := by
  rw [decide_column, decide_column]
  cases m.tableOf? c.table with
  | none => exact Decision.le_refl _
  | some t =>
      have htable := h.decide_table_le (m := m) t
      refine Decision.unless_denied_le (fun hdeny => ?_) h.verdict_le
      by_contra hallowed
      exact Decision.ne_deny_of_le htable hallowed hdeny

theorem decideColumns_le (t : Table) (names : List String) :
    decideColumns m roles right t names ≤
      decideColumns m roles' right' t names := by
  induction names with
  | nil => exact Decision.le_refl _
  | cons name rest ih =>
      rw [decideColumns_cons, decideColumns_cons]
      cases t.column? name with
      | none => exact Decision.and_le_and (Decision.le_refl _) ih
      | some c => exact Decision.and_le_and (h.decide_column_le c) ih

theorem decide_key_le (k : UniqueKey) :
    decide m roles (.key k) right ≤ decide m roles' (.key k) right' := by
  rw [decide_key, decide_key]
  cases m.tableOf? k.table with
  | none => exact Decision.le_refl _
  | some t => exact h.decideColumns_le t _

theorem someColumnDenied_of_stronger {t : Table} {names : List String}
    (hdenied : someColumnDenied m roles' right' t names = true) :
    someColumnDenied m roles right t names = true := by
  induction names with
  | nil => exact hdenied
  | cons name rest ih =>
      rw [someColumnDenied_cons] at hdenied ⊢
      cases hc : t.column? name with
      | none => rfl
      | some c =>
          rw [hc] at hdenied
          dsimp only at hdenied ⊢
          by_cases hdeny : decide m roles (.column c) right = .deny
          · exact if_pos hdeny
          · have hallowed : decide m roles' (.column c) right' ≠ .deny :=
              Decision.ne_deny_of_le (h.decide_column_le c) hdeny
            rw [if_neg hallowed] at hdenied
            rw [if_neg hdeny]
            exact ih hdenied

theorem decide_reference_le (r : Reference) :
    decide m roles (.reference r) right ≤
      decide m roles' (.reference r) right' := by
  rw [decide_reference, decide_reference]
  cases m.referencedKey r.mapping with
  | error e => exact Decision.le_refl _
  | ok key =>
      have hkey := h.enumerate.decide_key_le (m := m) key
      refine Decision.unless_denied_le (fun hdeny => ?_) ?_
      · by_contra hvisible
        exact Decision.ne_deny_of_le hkey hvisible hdeny
      · cases m.tableOf? r.source with
        | none => exact Decision.le_refl _
        | some t =>
            exact Decision.unless_denied_le h.someColumnDenied_of_stronger
              h.verdict_le

theorem decideReferences_le (references : List Reference) :
    decideReferences m roles right references ≤
      decideReferences m roles' right' references := by
  induction references with
  | nil => exact Decision.le_refl _
  | cons r rest ih =>
      rw [decideReferences_cons, decideReferences_cons]
      exact Decision.or_le_or (h.decide_reference_le r) ih

theorem decide_foreignKey_le (fk : ForeignKey) :
    decide m roles (.foreignKey fk) right ≤
      decide m roles' (.foreignKey fk) right' := by
  rw [decide_foreignKey, decide_foreignKey]
  cases m.tableOf? fk.table with
  | none => exact Decision.le_refl _
  | some t =>
      exact Decision.and_le_and (h.decideColumns_le t _)
        (h.decideReferences_le _)

/-- The decision on the stronger request is at least as strong. -/
theorem decide_le (e : Entity) :
    decide m roles e right ≤ decide m roles' e right' := by
  cases e with
  | catalog => exact h.decide_catalog_le
  | schema s => exact h.decide_schema_le s
  | table t => exact h.decide_table_le t
  | column c => exact h.decide_column_le c
  | key k => exact h.decide_key_le k
  | foreignKey fk => exact h.decide_foreignKey_le fk
  | reference r => exact h.decide_reference_le r

end Rules

end Stronger

/-! ## Contexts that remember nothing -/

/-- The answer of a context that remembers nothing. -/
def Snapshot.decision (s : Snapshot) (roles : Roles) (e : Entity)
    (right : Right) : Decision :=
  (s.evaluate (.fresh roles) fun ask => ask e right).1

theorem Snapshot.decision_eq_decide {s : Snapshot} (hs : s.model.Addressable)
    {e : Entity} (he : e ∈ s.model.entities.map Prod.snd) (roles : Roles)
    (right : Right) :
    s.decision roles e right = decide s.model roles e right :=
  s.evaluate_of_answers (s.answers hs rfl roles) fun _ hask =>
    hask (hs.holds_of_mem_entities he) right

/-- A requester who gains roles loses nothing on any entity. -/
theorem Snapshot.decisions_mono (s : Snapshot) {roles roles' : Roles}
    (h : ∀ role ∈ roles, role ∈ roles') (right : Right) :
    (∀ e, decide s.model roles e right ≤ decide s.model roles' e right) ∧
      (s.model.Addressable → ∀ e ∈ s.model.entities.map Prod.snd,
        s.decision roles e right ≤ s.decision roles' e right) := by
  have hstronger : Stronger roles roles' right right :=
    ⟨h, Right.impliedBy_refl right⟩
  constructor
  · exact fun e => hstronger.decide_le e
  · intro hs e he
    rw [decision_eq_decide hs he, decision_eq_decide hs he]
    exact hstronger.decide_le e

/-- Staff that everyone can see and the curators own. -/
def curated : Model :=
  ((Model.fresh "sys").after Model.staff).setAcls .catalog
    (.ofList [(.owner, ["curator"]), (.enumerate, ["*"])])

theorem curated_addressable : curated.Addressable := by
  have hclosed := Model.after_closed (Model.fresh_closed "sys") Model.staff_built
  exact {
    toNamed := (hclosed.setAcls _ _).named
    system_table := fun h => by cases h
    system_apart := rfl }

theorem Snapshot.decisions_mono_curated :
    let s : Snapshot := ⟨1, curated⟩
    let curator : Roles := .ofList ["curator"]
    let people : TablePath := ⟨"staff", "people"⟩
    (∀ role ∈ ({} : Roles), role ∈ curator) ∧ curated.Addressable ∧
      (∀ e ∈ curated.entities.map Prod.snd,
        s.decision {} e .insert ≤ s.decision curator e .insert) ∧
      ∃ boss, curated.reference?
          ⟨people, people, .ofList [("boss", "id")], by decide⟩ = some boss ∧
        s.decision {} (.reference boss) .insert = .deny ∧
        s.decision curator (.reference boss) .insert = .allow := by
  have hroles : ∀ role ∈ ({} : Roles), role ∈ SortedSet.ofList ["curator"] :=
    fun role h => absurd h (SortedSet.not_mem_empty role)
  obtain ⟨_, hfresh⟩ := decisions_mono ⟨1, curated⟩ hroles .insert
  exact ⟨hroles, curated_addressable, hfresh curated_addressable, _, rfl,
    by decide +kernel, by decide +kernel⟩

/-- Decisions on the rights of one entity that respect which rights imply which
others. -/
structure RespectsImplication (decided : Right → Decision) : Prop where
  implied : ∀ {right granted : Right}, right.impliedBy granted = true →
    decided granted ≤ decided right
  owner : decided .owner = .allow → ∀ right, decided right = .allow
  enumerable : ∀ {right : Right}, decided right ≠ .deny →
    decided .enumerate ≠ .deny

theorem RespectsImplication.of_implied {decided : Right → Decision}
    (h : ∀ {right granted : Right}, right.impliedBy granted = true →
      decided granted ≤ decided right) : RespectsImplication decided where
  implied := h
  owner howner right :=
    Decision.eq_allow_of_le (h (Right.impliedBy_owner right)) howner
  enumerable {right} hheld :=
    Decision.ne_deny_of_le (h (Right.enumerate_impliedBy right)) hheld

/-- Whoever holds a right on an entity holds the rights that it implies. -/
theorem Snapshot.decisions_respect_implication (s : Snapshot) (roles : Roles) :
    (∀ e, RespectsImplication (decide s.model roles e)) ∧
      (s.model.Addressable → ∀ e ∈ s.model.entities.map Prod.snd,
        RespectsImplication (s.decision roles e)) := by
  have hrules : ∀ e, RespectsImplication (decide s.model roles e) := by
    intro e
    refine .of_implied fun {right granted} himplied => ?_
    have hstronger : Stronger roles roles granted right :=
      ⟨fun _ hrole => hrole, himplied⟩
    exact hstronger.decide_le e
  refine ⟨hrules, fun hs e he => ?_⟩
  have hsame : s.decision roles e = decide s.model roles e :=
    funext fun right => decision_eq_decide hs he roles right
  rw [hsame]
  exact hrules e

theorem Snapshot.decisions_respect_implication_curated :
    let s : Snapshot := ⟨1, curated⟩
    let curator : Roles := .ofList ["curator"]
    curated.Addressable ∧
      (∀ e ∈ curated.entities.map Prod.snd,
        RespectsImplication (s.decision curator e)) ∧
      s.decision curator .catalog .owner = .allow ∧
      s.decision {} .catalog .enumerate = .allow ∧
      s.decision {} .catalog .owner = .deny := by
  obtain ⟨_, hfresh⟩ :=
    decisions_respect_implication ⟨1, curated⟩ (.ofList ["curator"])
  exact ⟨curated_addressable, hfresh curated_addressable,
    by decide +kernel, by decide +kernel, by decide +kernel⟩

end GovernedCatalog

/-!
## What the owner of a table holds

Columns and references have no lists of owners of their own, so the owner of a
table owns what is in it.  Its references need their targets in sight: they are
owned by whoever owns both tables.
-/

namespace GovernedCatalog

variable {m : Model} {roles : Roles}

/-- An owner holds every right. -/
theorem decide_of_owner {e : Entity} (h : decide m roles e .owner = .allow)
    (right : Right) : decide m roles e right = .allow := by
  have hstronger : Stronger roles roles .owner right :=
    ⟨fun _ hrole => hrole, Right.impliedBy_owner right⟩
  exact Decision.eq_allow_of_le (hstronger.decide_le e) h

section Table

variable {t : Table} (howner : decide m roles (.table t) .owner = .allow)

include howner

theorem listed_owner : listed (t.aclFor? m) roles .owner = true := by
  have hvisible : decide m roles (.table t) .owner ≠ .deny := by simp [howner]
  rw [decide_table_of_ne_deny hvisible] at howner
  exact verdict_eq_allow_iff.1 howner

theorem owner_column {c : Column} (ht : m.tableOf? c.table = some t) :
    decide m roles (.column c) .owner = .allow := by
  have hvisible : ¬decide m roles (.table t) .owner = .deny := by simp [howner]
  rw [decide_column, ht]
  refine (if_neg hvisible).trans (verdict_eq_allow_iff.2 ?_)
  exact listed_owner howner

variable {path : TablePath} (hm : m.Addressable) (ht : m.table? path = some t)

include hm ht

theorem decide_column_of_owner {name : String} {c : Column}
    (hc : t.column? name = some c) (right : Right) :
    decide m roles (.column c) right = .allow := by
  have htable := (hm.table ht).column_table c (Table.column?_eq_some hc).1
  refine decide_of_owner (owner_column howner ?_) right
  rw [htable]
  exact hm.tableOf?_of_table? ht

theorem decideColumns_of_owner {names : List String}
    (hnames : ∀ name ∈ names, t.hasColumn name = true) (right : Right) :
    decideColumns m roles right t names = .allow := by
  induction names with
  | nil => rfl
  | cons name rest ih =>
    obtain ⟨hname, hrest⟩ := List.forall_mem_cons.1 hnames
    obtain ⟨c, hc⟩ := Option.isSome_iff_exists.1 hname
    rw [decideColumns_cons, hc, ih hrest]
    dsimp only
    rw [decide_column_of_owner howner hm ht hc]
    rfl

theorem someColumnDenied_of_owner {names : List String}
    (hnames : ∀ name ∈ names, t.hasColumn name = true) (right : Right) :
    someColumnDenied m roles right t names = false := by
  induction names with
  | nil => rfl
  | cons name rest ih =>
    obtain ⟨hname, hrest⟩ := List.forall_mem_cons.1 hnames
    obtain ⟨c, hc⟩ := Option.isSome_iff_exists.1 hname
    have hallowed := decide_column_of_owner howner hm ht hc right
    rw [someColumnDenied_cons, hc, ih hrest]
    simp [hallowed]

theorem decide_key_of_owner (hwell : t.WellFormed path) {columns : ColumnSet}
    {key : UniqueKey} (hkey : t.key? columns = some key) (right : Right) :
    decide m roles (.key key) right = .allow := by
  obtain ⟨htable, hcolumns⟩ := hwell.key hkey
  rw [decide_key, htable, hm.tableOf?_of_table? ht]
  refine decideColumns_of_owner howner hm ht (fun name hname => ?_) right
  exact hwell.key_columns hkey name (hcolumns ▸ hname)

end Table

/-- The owner of a reference's table and of its target owns the reference. -/
theorem owner_reference (hm : m.Addressable) (hclosed : m.Closed)
    {path : TablePath} {t : Table} (ht : m.table? path = some t)
    (howner : decide m roles (.table t) .owner = .allow) {r : Reference}
    (hr : r ∈ t.references)
    (htarget : ∀ target, m.table? r.mapping.target = some target →
      decide m roles (.table target) .owner = .allow) :
    decide m roles (.reference r) .owner = .allow := by
  have hwell := hclosed.table ht
  have hget := hwell.mem_references.1 hr
  obtain ⟨fk, hfk, -⟩ := Table.reference?_eq_some_iff.1 hget
  obtain ⟨key, hkey, -⟩ := hclosed.outbound ht r hr
  obtain ⟨target, htable, hkeyOf⟩ :=
    Model.key?_eq_some_iff.1 (Model.referencedKey_eq_ok_iff.1 hkey)
  have hvisible := decide_key_of_owner (htarget target htable) hm htable
    (hclosed.table htable) hkeyOf .enumerate
  have hcolumns := someColumnDenied_of_owner howner hm ht
    (hwell.foreignKey_columns hfk) .owner
  rw [decide_reference, hkey]
  refine (if_neg (by simp [hvisible])).trans ?_
  rw [(hwell.reference hget).1, hm.tableOf?_of_table? ht]
  refine (if_neg (by simp [hcolumns])).trans (verdict_eq_allow_iff.2 ?_)
  exact listed_owner howner

theorem decideReferences_of_mem {right : Right} {references : List Reference}
    {r : Reference} (hr : r ∈ references)
    (h : decide m roles (.reference r) right = .allow) :
    decideReferences m roles right references = .allow := by
  induction references with
  | nil => cases hr
  | cons first rest ih =>
    rw [decideReferences_cons]
    rcases List.mem_cons.1 hr with rfl | hr
    · rw [h]
      rfl
    · rw [ih hr]
      cases decide m roles (.reference first) right <;> rfl

/-- A foreign key is in sight of the owner of its table and of some target. -/
theorem decide_foreignKey_of_owner (hm : m.Addressable) {path : TablePath}
    {t : Table} (ht : m.table? path = some t) (hwell : t.WellFormed path)
    (howner : decide m roles (.table t) .owner = .allow) {columns : ColumnSet}
    {fk : ForeignKey} (hfk : t.foreignKeys.get? columns = some fk)
    {r : Reference} (hr : r ∈ fk.references.values) {right : Right}
    (hreference : decide m roles (.reference r) right = .allow) :
    decide m roles (.foreignKey fk) right = .allow := by
  have hnamed := hwell.foreignKey hfk
  rw [decide_foreignKey, hnamed.table_eq, hm.tableOf?_of_table? ht]
  dsimp only
  rw [decideColumns_of_owner howner hm ht (fun name hname =>
      hwell.foreignKey_columns hfk name (hnamed.columns_eq ▸ hname)),
    decideReferences_of_mem hr hreference]
  rfl

end GovernedCatalog
