import GovernedCatalog.Proofs.Rights.Addressable
import GovernedCatalog.Proofs.Rights.Afresh
import GovernedCatalog.Proofs.Rights.Recollection

/-!
# Deciding with a memory

A context remembers decisions under the stamp of the model, the address of the
entity and the right.  While every remembered decision is the one that the rules
make afresh, deciding with the memory gives the decisions made afresh and
remembers only such decisions.  This holds through any number of snapshots.
-/

namespace GovernedCatalog

/-! ## Faithful memories -/

/-- The context has the roles, and each decision that it remembers is the one
made afresh on the model with its stamp. -/
structure Context.Faithful (ctx : Context) (models : Nat → Model)
    (roles : Roles) : Prop where
  roles_eq : ctx.roles = roles
  remembered : ∀ {key : MemoKey} {d : Decision}, (key, d) ∈ ctx.memo →
    ∀ {e : Entity}, (models key.stamp).Holds e → e.address = key.entity →
      d = decide (models key.stamp) roles e key.right

namespace Context.Faithful

variable {ctx : Context} {models : Nat → Model} {roles : Roles}

theorem fresh (models : Nat → Model) (roles : Roles) :
    (Context.fresh roles).Faithful models roles where
  roles_eq := rfl
  remembered h := by cases h

theorem reset (hctx : ctx.Faithful models roles) :
    ctx.reset.Faithful models roles where
  roles_eq := hctx.roles_eq
  remembered h := by cases h

theorem bind (hctx : ctx.Faithful models roles) (stamp : Nat) :
    (ctx.bind stamp).Faithful models roles where
  roles_eq := hctx.roles_eq
  remembered := by
    intro key d h
    unfold Context.bind at h
    by_cases hbound : ctx.bound = stamp
    · rw [if_pos hbound] at h
      exact hctx.remembered h
    · rw [if_neg hbound] at h
      exact hctx.remembered (List.mem_filter.1 h).1

/-- A decision that is right for whatever has the address. -/
theorem remember_of (hctx : ctx.Faithful models roles) {key : MemoKey}
    {d : Decision}
    (hd : ∀ {e : Entity}, (models key.stamp).Holds e → e.address = key.entity →
      d = decide (models key.stamp) roles e key.right) :
    (ctx.remember key d).Faithful models roles where
  roles_eq := hctx.roles_eq
  remembered := by
    intro key' d' h e he haddress
    rcases List.mem_cons.1 h with h | h
    · cases h
      exact hd he haddress
    · exact hctx.remembered h he haddress

theorem remember (hctx : ctx.Faithful models roles) {stamp : Nat} {e : Entity}
    (he : (models stamp).Holds e) (right : Right) :
    (ctx.remember ⟨stamp, e.address, right⟩
      (decide (models stamp) roles e right)).Faithful models roles :=
  -- Only the entity itself has its address.
  hctx.remember_of fun he' haddress => by rw [he'.eq_of_address he haddress]

theorem eq_of_remembered? (hctx : ctx.Faithful models roles) {stamp : Nat}
    {e : Entity} (he : (models stamp).Holds e) {right : Right} {d : Decision}
    (h : ctx.remembered? ⟨stamp, e.address, right⟩ = some d) :
    d = decide (models stamp) roles e right := by
  obtain ⟨⟨key, d'⟩, hfind, rfl⟩ := Option.map_eq_some_iff.1 h
  have hkey : key = ⟨stamp, e.address, right⟩ := by
    simpa using List.find?_some hfind
  subst hkey
  exact hctx.remembered (List.mem_of_find?_eq_some hfind) he rfl

end Context.Faithful

/-- In every faithful context the evaluation has the result, and it leaves the
context faithful. -/
def Evaluates (models : Nat → Model) (roles : Roles) (x : StateM Context α)
    (a : α) : Prop :=
  ∀ ctx : Context, ctx.Faithful models roles →
    (x.run ctx).1 = a ∧ (x.run ctx).2.Faithful models roles

namespace Evaluates

variable {models : Nat → Model} {roles : Roles}

theorem pure (a : α) : Evaluates models roles (pure a) a :=
  fun _ hctx => ⟨rfl, hctx⟩

theorem bind {x : StateM Context α} {f : α → StateM Context β} {a : α} {b : β}
    (hx : Evaluates models roles x a) (hf : Evaluates models roles (f a) b) :
    Evaluates models roles (x >>= f) b := by
  intro ctx hctx
  obtain ⟨ha, hctx'⟩ := hx ctx hctx
  subst ha
  exact hf _ hctx'

theorem liftOk {ε : Type} {x : StateM Context α} {a : α}
    (hx : Evaluates models roles x a) :
    Evaluates models roles (ExceptT.lift x : ExceptT ε (StateM Context) α).run
      (.ok a) := by
  intro ctx hctx
  obtain ⟨ha, hctx'⟩ := hx ctx hctx
  exact ⟨congrArg Except.ok ha, hctx'⟩

theorem bindOk {ε : Type} {x : ExceptT ε (StateM Context) α}
    {f : α → ExceptT ε (StateM Context) β} {a : α} {b : Except ε β}
    (hx : Evaluates models roles x.run (.ok a))
    (hf : Evaluates models roles (f a).run b) :
    Evaluates models roles (x >>= f).run b := by
  have hrun : (x >>= f).run = x.run >>= ExceptT.bindCont f := rfl
  rw [hrun]
  exact bind hx hf

theorem bindError {ε : Type} {x : ExceptT ε (StateM Context) α}
    {f : α → ExceptT ε (StateM Context) β} {e : ε}
    (hx : Evaluates models roles x.run (.error e)) :
    Evaluates models roles (x >>= f).run (.error e) := by
  have hrun : (x >>= f).run = x.run >>= ExceptT.bindCont f := rfl
  rw [hrun]
  exact bind hx (pure _)

theorem ite {p : Prop} [Decidable p] {x y : StateM Context α} {a b : α}
    (hx : Evaluates models roles x a) (hy : Evaluates models roles y b) :
    Evaluates models roles (if p then x else y) (if p then a else b) := by
  by_cases hp : p
  · rw [if_pos hp, if_pos hp]
    exact hx
  · rw [if_neg hp, if_neg hp]
    exact hy

/-- A decision is the one made afresh, whether it is recalled or made. -/
theorem recalled {stamp : Nat} {e : Entity} (he : (models stamp).Holds e)
    {right : Right} {x : StateM Context Decision}
    (hx : Evaluates models roles x (decide (models stamp) roles e right)) :
    Evaluates models roles (recallFrom stamp e.address right x)
      (decide (models stamp) roles e right) := by
  intro ctx hctx
  rw [recallFrom_run]
  cases hmemo : ctx.remembered? ⟨stamp, e.address, right⟩ with
  | some d => exact ⟨hctx.eq_of_remembered? he hmemo, hctx⟩
  | none =>
      obtain ⟨hresult, hafter⟩ := hx ctx hctx
      dsimp only
      rw [hresult]
      exact ⟨rfl, hafter.remember he right⟩

section Rules

variable {stamp : Nat} (hm : (models stamp).Addressable) {right : Right}

theorem onSchema {s : Schema} (hs : (models stamp).Holds (.schema s)) :
    Evaluates models roles
      (Rule.onSchema (recallFrom stamp) (models stamp) roles s right)
      (decide (models stamp) roles (.schema s) right) :=
  recalled hs (pure _)

include hm

theorem onTable {t : Table} (ht : (models stamp).Holds (.table t)) :
    Evaluates models roles
      (Rule.onTable (recallFrom stamp) (models stamp) roles t right)
      (decide (models stamp) roles (.table t) right) := by
  refine recalled ht ?_
  rw [decide_table]
  cases hs : (models stamp).schemaOf? t.schema with
  | none => exact pure _
  | some s =>
      exact bind (onSchema (hm.holds_of_schemaOf? hs))
        (ite (pure _) (pure _))

/-- The rule for a column, which need not be one of the model. -/
theorem exists_onColumn_eq (c : Column) :
    ∃ rule, Rule.onColumn (recallFrom stamp) (models stamp) roles c right =
        recallFrom stamp (.column c.table c.name) right rule ∧
      Evaluates models roles rule
        (decide (models stamp) roles (.column c) right) := by
  refine ⟨_, rfl, ?_⟩
  rw [decide_column]
  cases ht : (models stamp).tableOf? c.table with
  | none => exact pure _
  | some t =>
      exact bind (onTable hm (hm.holds_of_tableOf? ht))
        (ite (pure _) (pure _))

theorem onColumn {c : Column} (hc : (models stamp).Holds (.column c)) :
    Evaluates models roles
      (Rule.onColumn (recallFrom stamp) (models stamp) roles c right)
      (decide (models stamp) roles (.column c) right) := by
  obtain ⟨rule, heq, hrule⟩ := exists_onColumn_eq hm c
  rw [heq]
  exact recalled hc hrule

theorem onColumns {path : TablePath} {t : Table}
    (ht : (models stamp).tableOf? path = some t) (names : List String) :
    Evaluates models roles
      (Rule.onColumns (recallFrom stamp) (models stamp) roles t right names)
      (decideColumns (models stamp) roles right t names) := by
  induction names with
  | nil => exact pure _
  | cons name rest ih =>
      rw [Rule.onColumns, decideColumns_cons]
      cases hc : t.column? name with
      | none => exact bind (pure _) (bind ih (pure _))
      | some c =>
          exact bind (onColumn hm (hm.holds_of_column? ht hc))
            (bind ih (pure _))

theorem onKey {k : UniqueKey} (hk : (models stamp).Holds (.key k)) :
    Evaluates models roles
      (Rule.onKey (recallFrom stamp) (models stamp) roles k right)
      (decide (models stamp) roles (.key k) right) := by
  refine recalled hk ?_
  rw [decide_key]
  cases ht : (models stamp).tableOf? k.table with
  | none => exact pure _
  | some t => exact onColumns hm ht _

theorem someDenied {path : TablePath} {t : Table}
    (ht : (models stamp).tableOf? path = some t) (names : List String) :
    Evaluates models roles
      (Rule.someDenied (recallFrom stamp) (models stamp) roles t right names)
      (someColumnDenied (models stamp) roles right t names) := by
  induction names with
  | nil => exact pure _
  | cons name rest ih =>
      rw [Rule.someDenied, someColumnDenied_cons]
      cases hc : t.column? name with
      | none => exact pure _
      | some c =>
          exact bind (onColumn hm (hm.holds_of_column? ht hc))
            (ite (pure _) ih)

theorem onReference {r : Reference} (hr : (models stamp).Holds (.reference r)) :
    Evaluates models roles
      (Rule.onReference (recallFrom stamp) (models stamp) roles r right)
      (decide (models stamp) roles (.reference r) right) := by
  refine recalled hr ?_
  rw [decide_reference]
  cases hk : (models stamp).referencedKey r.mapping with
  | error e => exact pure _
  | ok key =>
      refine bind (onKey hm (hm.holds_of_referencedKey hk))
        (ite (pure _) ?_)
      cases ht : (models stamp).tableOf? r.source with
      | none => exact pure _
      | some t =>
          exact bind (someDenied hm ht _) (ite (pure _) (pure _))

theorem onReferences {path : TablePath} {t : Table}
    (ht : (models stamp).tableOf? path = some t) (references : List Reference)
    (h : ∀ r ∈ references, r ∈ t.references) :
    Evaluates models roles
      (Rule.onReferences (recallFrom stamp) (models stamp) roles right
        references)
      (decideReferences (models stamp) roles right references) := by
  induction references with
  | nil => exact pure _
  | cons r rest ih =>
      rw [Rule.onReferences, decideReferences_cons]
      have hr := hm.holds_of_mem_references ht (h r List.mem_cons_self)
      refine bind (onReference hm hr) (bind (ih ?_) (pure _))
      exact fun r' hr' => h r' (List.mem_cons_of_mem _ hr')

theorem onForeignKey {fk : ForeignKey}
    (hfk : (models stamp).Holds (.foreignKey fk)) :
    Evaluates models roles
      (Rule.onForeignKey (recallFrom stamp) (models stamp) roles fk right)
      (decide (models stamp) roles (.foreignKey fk) right) := by
  refine recalled hfk ?_
  rw [decide_foreignKey]
  obtain ⟨t, ht, hget⟩ := Model.holds_foreignKey.1 hfk
  rw [ht]
  have hreferences : ∀ r ∈ fk.references.values, r ∈ t.references := by
    intro r hr
    obtain ⟨mapping, hmapping⟩ := SortedMap.mem_values_iff.1 hr
    exact Table.mem_references_iff.2 ⟨_, fk, mapping, hget, hmapping⟩
  exact bind (onColumns hm ht _)
    (bind (onReferences hm ht _ hreferences) (pure _))

/-- The rules with a memory decide as the rules without one. -/
theorem decide {e : Entity} (he : (models stamp).Holds e) :
    Evaluates models roles
      (Rule.decide (recallFrom stamp) (models stamp) roles e right)
      (GovernedCatalog.decide (models stamp) roles e right) := by
  cases e with
  | catalog => exact recalled he (pure _)
  | schema s => exact onSchema he
  | table t => exact onTable hm he
  | column c => exact onColumn hm he
  | key k => exact onKey hm he
  | foreignKey fk => exact onForeignKey hm he
  | reference r => exact onReference hm he

end Rules

end Evaluates

/-! ## Questions in a faithful context

Whatever is asked in a faithful context is answered by the decisions made afresh
on the model. -/

/-- Entities of the model are decided as they are afresh. -/
def Answers (models : Nat → Model) (roles : Roles) (ask : Ask (StateM Context))
    (m : Model) : Prop :=
  ∀ {e : Entity}, m.Holds e → ∀ right,
    Evaluates models roles (ask e right) (decide m roles e right)

theorem Snapshot.answers (s : Snapshot) (hs : s.model.Addressable)
    {models : Nat → Model} (hmodels : models s.stamp = s.model)
    (roles : Roles) : Answers models roles (s.ask roles) s.model := by
  intro e he right
  rw [← hmodels] at hs he
  have hdecide : Evaluates models roles
      (Rule.decide (recallFrom s.stamp) (models s.stamp) roles e right)
      (decide (models s.stamp) roles e right) := .decide hs he
  rw [hmodels] at hdecide
  exact hdecide

/-- A snapshot answers from the decisions on another model if the rules are the
same for what that has. -/
theorem Snapshot.answers_of_rules (s : Snapshot) {part : Model}
    (hpart : part.Addressable) {models : Nat → Model}
    (hmodels : models s.stamp = part) {roles : Roles}
    (hrules : ∀ {e : Entity}, part.Holds e → ∀ right,
      Rule.decide (recallFrom s.stamp) s.model roles e right =
        Rule.decide (recallFrom s.stamp) part roles e right) :
    Answers models roles (s.ask roles) part := by
  intro e he right
  have hanswers := answers ⟨s.stamp, part⟩ hpart hmodels roles he right
  unfold ask at hanswers ⊢
  rw [hrules he]
  exact hanswers

/-- What an evaluation gives in a fresh context. -/
theorem Snapshot.evaluate_of_answers (s : Snapshot) {part : Model}
    {roles : Roles}
    (hanswers : Answers (fun _ => part) roles (s.ask roles) part) {α : Type}
    {evaluation : Ask (StateM Context) → StateM Context α} {a : α}
    (h : ∀ ask, Answers (fun _ => part) roles ask part →
      Evaluates (fun _ => part) roles (evaluation ask) a) :
    (s.evaluate (.fresh roles) evaluation).1 = a := by
  have hfresh := (Context.Faithful.fresh (fun _ => part) roles).bind s.stamp
  exact (h _ hanswers _ hfresh).1

/-- Whether a column needs a guard of its own, by the decisions made afresh. -/
def restricted (m : Model) (roles : Roles) (c : Column) (right : Right) :
    Bool :=
  if decide m roles (.column c) right = .allow then false
  else
    match m.tableOf? c.table with
    | none => true
    | some t =>
        if decide m roles (.table t) right = .allow then true
        else c.bindings.keys.any t.bindings.contains

namespace Answers

variable {models : Nat → Model} {roles : Roles} {ask : Ask (StateM Context)}
  {m : Model} (hask : Answers models roles ask m)

include hask

theorem isVisible {e : Entity} (he : m.Holds e) :
    Evaluates models roles (isVisible ask e)
      (decide m roles e .enumerate != .deny) :=
  .bind (hask he .enumerate) (.pure _)

theorem isRestricted (hm : m.Addressable) {c : Column}
    (hc : m.Holds (.column c)) (right : Right) :
    Evaluates models roles (isRestricted ask m c right)
      (restricted m roles c right) := by
  refine .bind (hask hc right) (.ite (.pure _) ?_)
  cases ht : m.tableOf? c.table with
  | none => exact .pure _
  | some t =>
      exact .bind (hask (hm.holds_of_tableOf? ht) right)
        (.ite (.pure _) (.pure _))

end Answers

end GovernedCatalog
