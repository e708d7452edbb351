import GovernedCatalog.Proofs.Guard.Column
import GovernedCatalog.Proofs.Rights.Recollection

/-!
# What the guards' compiler may rely on

The compiler of guards relies on its callers to leave denied columns out.  A
caller that asks first does so in every context, since the compiler gets the
answer that the caller got.  In a faithful context the compiler can also rely on
the conditions of what it finds row-dependent: there is always one.
-/

namespace GovernedCatalog.Guard

/-! ## Calls that heed a decision -/

/-- Whether the compiler was called for a denied column. -/
def Fault.isMisuse : Fault → Bool
  | failed _ => false
  | deniedColumn .. => true

/-- From a context with the property the computation does not misuse the
compiler, and its result and the context after it are as described. -/
def Heeds (P : Context → Prop) (x : ExceptT Fault (StateM Context) α)
    (Q : α → Context → Prop) : Prop :=
  ∀ ctx, P ctx →
    match (x.run.run ctx).1 with
    | .ok a => Q a (x.run.run ctx).2
    | .error fault => fault.isMisuse = false

namespace Heeds

variable {P : Context → Prop} {Q : α → Context → Prop}
  {R : β → Context → Prop}

theorem pure {a : α} (h : ∀ ctx, P ctx → Q a ctx) :
    Heeds P (pure a : ExceptT Fault (StateM Context) α) Q := h

theorem fail {e : Error} :
    Heeds P (throw (.failed e) : ExceptT Fault (StateM Context) α) Q :=
  fun _ _ => rfl

theorem lift {x : StateM Context α}
    (h : ∀ ctx, P ctx → Q (x.run ctx).1 (x.run ctx).2) :
    Heeds P (ExceptT.lift x : ExceptT Fault (StateM Context) α) Q := h

theorem mk {x : StateM Context (Except Fault α)}
    (h : ∀ ctx, P ctx →
      (∀ a, Q a (x.run ctx).2) ∧
        ∀ fault, (x.run ctx).1 = .error fault → fault.isMisuse = false) :
    Heeds P (ExceptT.mk x) Q := by
  intro ctx hctx
  obtain ⟨hok, hfault⟩ := h ctx hctx
  change match (x.run ctx).1 with
    | .ok a => Q a (x.run ctx).2
    | .error fault => fault.isMisuse = false
  cases houtcome : (x.run ctx).1 with
  | ok a => exact hok a
  | error fault => exact hfault fault houtcome

theorem bind {x : ExceptT Fault (StateM Context) α}
    {f : α → ExceptT Fault (StateM Context) β} (hx : Heeds P x Q)
    (hf : ∀ a, Heeds (Q a) (f a) R) : Heeds P (x >>= f) R := by
  intro ctx hctx
  have hfirst := hx ctx hctx
  rw [ExceptT.run_bind, StateT.run_bind]
  cases hrun : x.run.run ctx with
  | mk outcome ctx' =>
      rw [hrun] at hfirst
      cases outcome with
      | ok a => exact hf a ctx' hfirst
      | error fault => exact hfirst

theorem always {x : ExceptT Fault (StateM Context) α}
    (hx : Heeds (fun _ => True) x Q) : Heeds P x Q :=
  fun ctx _ => hx ctx trivial

/-- A step that nothing is said about. -/
theorem after {x : StateM Context α}
    {f : α → ExceptT Fault (StateM Context) β}
    (hf : ∀ a, Heeds (fun _ => True) (f a) R) :
    Heeds P (ExceptT.lift x >>= f) R :=
  bind (lift fun _ _ => trivial) hf

theorem ite {p : Prop} [Decidable p] {x y : ExceptT Fault (StateM Context) α}
    (hx : p → Heeds P x Q) (hy : ¬ p → Heeds P y Q) :
    Heeds P (if p then x else y) Q := by
  by_cases hp : p
  · rw [if_pos hp]
    exact hx hp
  · rw [if_neg hp]
    exact hy hp

theorem isMisuse {x : ExceptT Fault (StateM Context) α}
    (hx : Heeds (fun _ => True) x Q) {ctx : Context} {fault : Fault}
    (h : (x.run.run ctx).1 = .error fault) : fault.isMisuse = false := by
  have hfault := hx ctx trivial
  rw [h] at hfault
  exact hfault

end Heeds

section Asked

variable (s : Snapshot) {roles : Roles} {c : Column} {right : Right}
  {d : Decision}

/-- What was asked about a column is remembered. -/
theorem heeds_ask {P : Context → Prop} :
    Heeds P (liftM (s.ask roles (.column c) right))
      fun d ctx => ctx.remembered? (s.memoKey (.column c) right) = some d :=
  .lift fun ctx _ => s.remembered?_ask roles ctx (.column c) right

theorem compileColumn_retains (m : Model) (alias? : Option String)
    (mode : Mode) :
    Retains (compileColumn (s.ask roles) m roles c alias? mode right) := by
  refine .bind (s.ask_retains roles _ _) fun d => ?_
  cases d with
  | deny => exact .pure _
  | allow => cases mode <;> exact .pure _
  | indeterminate =>
      cases mode with
      | predicate => exact .pure _
      | projection =>
          exact .bind (s.isRestricted_retains roles m c right) fun _ =>
            .ite (.pure _) (.pure _)

theorem isMisuse_of_failed {x : Except Error α} {fault : Fault}
    (h : x.mapError .failed = .error fault) : fault.isMisuse = false := by
  cases x with
  | ok a => cases h
  | error e =>
      cases h
      rfl

/-- The compiler gets the answer that its caller got, so it accepts a column
that its caller found not denied. -/
theorem compileColumn_isMisuse {ctx : Context}
    (hctx : ctx.remembered? (s.memoKey (.column c) right) = some d)
    (hd : d ≠ .deny) (m : Model) (alias? : Option String) (mode : Mode)
    {fault : Fault}
    (h : ((compileColumn (s.ask roles) m roles c alias? mode right).run ctx).1 =
      .error fault) :
    fault.isMisuse = false := by
  unfold compileColumn at h
  rw [run_bind, s.ask_of_remembered roles hctx] at h
  cases d with
  | deny => exact absurd rfl hd
  | allow => cases mode <;> cases h
  | indeterminate =>
      cases mode with
      | predicate => exact isMisuse_of_failed h
      | projection =>
          dsimp only at h
          rw [run_bind] at h
          split at h
          · exact isMisuse_of_failed h
          · cases h

theorem compileColumn_heeds (hd : d ≠ .deny) (m : Model)
    (alias? : Option String) (mode : Mode) :
    Heeds (fun ctx => ctx.remembered? (s.memoKey (.column c) right) = some d)
      (ExceptT.mk (compileColumn (s.ask roles) m roles c alias? mode right))
      fun _ ctx =>
        ctx.remembered? (s.memoKey (.column c) right) = some d := by
  have hretains : Retains
      (compileColumn (s.ask roles) m roles c alias? mode right) :=
    compileColumn_retains s m alias? mode
  exact .mk fun ctx hctx => ⟨fun _ => hretains ctx _ _ hctx, fun _ h =>
    compileColumn_isMisuse s hctx hd m alias? mode h⟩

theorem selectItem_heeds (hd : d ≠ .deny) (m : Model) (alias? : Option String) :
    Heeds (fun ctx => ctx.remembered? (s.memoKey (.column c) right) = some d)
      (ExceptT.mk (selectItem (s.ask roles) m roles c alias? right))
      fun _ _ => True := by
  refine .mk fun ctx hctx => ⟨fun _ => trivial, fun fault h => ?_⟩
  replace h : ((compileColumn (s.ask roles) m roles c alias? .projection
      right).run ctx).1.map _ = .error fault := h
  cases houtcome : ((compileColumn (s.ask roles) m roles c alias? .projection
      right).run ctx).1 with
  | ok sql =>
      rw [houtcome] at h
      cases h
  | error fault' =>
      rw [houtcome] at h
      cases h
      exact compileColumn_isMisuse s hctx hd m alias? .projection houtcome

end Asked

/-! ## Conditions of what is row-dependent -/

section Insisting

variable (m : Model) (roles : Roles) (alias? : Option String)

/-- The conditions that a guard of a table or column is made of. -/
def conditionsOf? (e : Entity) (right : Right) :
    Option (Except Error (List String)) :=
  match e with
  | .table t => some (grantingConditions m roles t t.bindings alias? right)
  | .column c => some (columnConditions m roles c alias? right)
  | _ => none

/-- Whether a guard of the entity would have to do without conditions. -/
def lacksConditions (e : Entity) (right : Right) : Bool :=
  match conditionsOf? m roles alias? e right with
  | some (.ok []) => true
  | _ => false

/-- Asks, and stops at an entity that depends on the row but lacks
conditions. -/
def insisting (ask : Ask (StateM Context)) :
    Ask (ExceptT Entity (StateM Context)) := fun e right => do
  let d ← ExceptT.lift (ask e right)
  if d = .indeterminate ∧ lacksConditions m roles alias? e right = true then
    throw e
  else return d

variable {m roles alias?}

theorem ne_nil_of_indeterminate {e : Entity} {right : Right}
    (h : decide m roles e right = .indeterminate) {conditions : List String}
    (hconditions : conditionsOf? m roles alias? e right = some (.ok conditions)) :
    conditions ≠ [] := by
  have hne : decide m roles e right ≠ .deny := by simp [h]
  cases e with
  | table t =>
      rw [decide_table_of_ne_deny hne] at h
      exact grantingConditions_ne_nil (verdict_eq_indeterminate_iff.1 h).2
        (Option.some.inj hconditions)
  | column c =>
      cases ht : m.tableOf? c.table with
      | none =>
          rw [decide_column, ht] at h
          cases h
      | some t =>
          rw [decide_column_of_ne_deny ht hne] at h
          replace hconditions := Option.some.inj hconditions
          rw [columnConditions, ht] at hconditions
          exact grantingConditions_ne_nil (verdict_eq_indeterminate_iff.1 h).2
            hconditions
  | _ => cases hconditions

theorem lacksConditions_of_indeterminate {e : Entity} {right : Right}
    (h : decide m roles e right = .indeterminate) :
    lacksConditions m roles alias? e right = false := by
  unfold lacksConditions
  split
  · next hconditions => exact absurd rfl (ne_nil_of_indeterminate h hconditions)
  · rfl

/-- In a faithful context the first computation does not stop and does what the
second does, whose result is as described. -/
def Insists (models : Nat → Model) (roles : Roles)
    (x : ExceptT Entity (StateM Context) α) (y : StateM Context α)
    (Q : α → Prop) : Prop :=
  ∀ ctx : Context, ctx.Faithful models roles →
    x.run.run ctx = (.ok (y.run ctx).1, (y.run ctx).2) ∧
      (y.run ctx).2.Faithful models roles ∧ Q (y.run ctx).1

namespace Insists

variable {models : Nat → Model}

theorem pure {a : α} {Q : α → Prop} (ha : Q a) :
    Insists models roles (pure a) (pure a) Q :=
  fun _ hctx => ⟨rfl, hctx, ha⟩

theorem bind {x : ExceptT Entity (StateM Context) α} {y : StateM Context α}
    {f : α → ExceptT Entity (StateM Context) β} {g : α → StateM Context β}
    {Q : α → Prop} {R : β → Prop} (hx : Insists models roles x y Q)
    (hf : ∀ a, Q a → Insists models roles (f a) (g a) R) :
    Insists models roles (x >>= f) (y >>= g) R := by
  intro ctx hctx
  obtain ⟨hrun, hctx', ha⟩ := hx ctx hctx
  rw [ExceptT.run_bind, StateT.run_bind, hrun]
  exact hf _ ha _ hctx'

theorem ite {p : Prop} [Decidable p] {x x' : ExceptT Entity (StateM Context) α}
    {y y' : StateM Context α} {Q : α → Prop} (hx : Insists models roles x y Q)
    (hx' : Insists models roles x' y' Q) :
    Insists models roles (if p then x else x') (if p then y else y') Q := by
  by_cases hp : p
  · rw [if_pos hp, if_pos hp]
    exact hx
  · rw [if_neg hp, if_neg hp]
    exact hx'

theorem liftOk {x : ExceptT Entity (StateM Context) α} {y : StateM Context α}
    {Q : α → Prop} (hx : Insists models roles x y Q) :
    Insists models roles
      (ExceptT.lift x : ExceptT Fault (ExceptT Entity (StateM Context)) α).run
      (ExceptT.lift y : ExceptT Fault (StateM Context) α).run
      fun outcome => Ensures outcome Q :=
  hx.bind fun _ ha => pure (.ok ha)

theorem mkOk {x : ExceptT Entity (StateM Context) (Except Fault α)}
    {y : StateM Context (Except Fault α)}
    (hx : Insists models roles x y fun _ => True) :
    Insists models roles (ExceptT.mk x).run (ExceptT.mk y).run
      fun outcome => Ensures outcome fun _ => True := by
  intro ctx hctx
  obtain ⟨hrun, hctx', -⟩ := hx ctx hctx
  exact ⟨hrun, hctx', fun _ _ => trivial⟩

theorem bindOk {x : ExceptT Fault (ExceptT Entity (StateM Context)) α}
    {y : ExceptT Fault (StateM Context) α}
    {f : α → ExceptT Fault (ExceptT Entity (StateM Context)) β}
    {g : α → ExceptT Fault (StateM Context) β} {Q : α → Prop}
    {R : β → Prop}
    (hx : Insists models roles x.run y.run fun outcome => Ensures outcome Q)
    (hf : ∀ a, Q a → Insists models roles (f a).run (g a).run
      fun outcome => Ensures outcome R) :
    Insists models roles (x >>= f).run (y >>= g).run
      fun outcome => Ensures outcome R := by
  have hrun : (x >>= f).run = x.run >>= ExceptT.bindCont f := rfl
  have hrun' : (y >>= g).run = y.run >>= ExceptT.bindCont g := rfl
  rw [hrun, hrun']
  refine hx.bind fun outcome houtcome => ?_
  cases outcome with
  | ok a => exact hf a (houtcome a rfl)
  | error fault => exact pure .error

end Insists

section Compilers

variable {models : Nat → Model} {ask : Ask (StateM Context)}
  (hask : Answers models roles ask m)

include hask

theorem insisting_insists {e : Entity} (he : m.Holds e) (right : Right) :
    Insists models roles (insisting m roles alias? ask e right) (ask e right)
      fun _ => True := by
  intro ctx hctx
  obtain ⟨hanswer, hctx'⟩ := hask he right ctx hctx
  refine ⟨?_, hctx', trivial⟩
  have hconditions : ¬ (((ask e right).run ctx).1 = .indeterminate ∧
      lacksConditions m roles alias? e right = true) := by
    rintro ⟨hdecide, hlacks⟩
    rw [lacksConditions_of_indeterminate (hanswer.symm.trans hdecide)] at hlacks
    cases hlacks
  change (if ((ask e right).run ctx).1 = .indeterminate ∧
      lacksConditions m roles alias? e right = true then throw e
    else pure ((ask e right).run ctx).1 :
      ExceptT Entity (StateM Context) Decision).run.run _ = _
  rw [if_neg hconditions]
  rfl

theorem isVisible_insists {e : Entity} (he : m.Holds e) :
    Insists models roles (isVisible (insisting m roles alias? ask) e)
      (isVisible ask e) fun _ => True :=
  (insisting_insists hask he .enumerate).bind fun _ _ => .pure trivial

theorem isRestricted_insists (hm : m.Addressable) {c : Column}
    (hc : m.Holds (.column c)) (right : Right) :
    Insists models roles (isRestricted (insisting m roles alias? ask) m c right)
      (isRestricted ask m c right) fun _ => True := by
  refine (insisting_insists hask hc right).bind fun _ _ =>
    .ite (.pure trivial) ?_
  cases ht : m.tableOf? c.table with
  | none => exact .pure trivial
  | some t =>
      exact (insisting_insists hask (hm.holds_of_tableOf? ht) right).bind
        fun _ _ => .ite (.pure trivial) (.pure trivial)

theorem compileColumn_insists (hm : m.Addressable) {c : Column}
    (hc : m.Holds (.column c)) (alias' : Option String) (mode : Mode)
    (right : Right) :
    Insists models roles
      (compileColumn (insisting m roles alias? ask) m roles c alias' mode right)
      (compileColumn ask m roles c alias' mode right) fun _ => True := by
  refine (insisting_insists hask hc right).bind fun d _ => ?_
  cases d with
  | deny => exact .pure trivial
  | allow => cases mode <;> exact .pure trivial
  | indeterminate =>
      cases mode with
      | predicate => exact .pure trivial
      | projection =>
          exact (isRestricted_insists hask hm hc right).bind fun _ _ =>
            .ite (.pure trivial) (.pure trivial)

theorem compileTable_insists {t : Table} (ht : m.Holds (.table t))
    (alias' : Option String) (right : Right) :
    Insists models roles
      (compileTable (insisting m roles alias? ask) m roles t alias' right)
      (compileTable ask m roles t alias' right) fun _ => True := by
  refine (insisting_insists hask ht right).bind fun d _ => ?_
  cases d <;> exact .pure trivial

end Compilers

end Insisting

end GovernedCatalog.Guard
