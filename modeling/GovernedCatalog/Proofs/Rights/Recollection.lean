import GovernedCatalog.Rights.Context
import GovernedCatalog.Rights.Summary

/-!
# Decisions that are remembered

A context that was asked something gives the same answer when it is asked again,
whatever else it was asked in between.  This holds of every context, also of one
whose memory does not agree with the model.
-/

namespace GovernedCatalog

theorem Context.remembered?_remember (ctx : Context) (key key' : MemoKey)
    (d : Decision) :
    (ctx.remember key d).remembered? key' =
      if key = key' then some d else ctx.remembered? key' := by
  unfold remembered? remember
  by_cases h : key = key' <;> simp [h]

/-- The context with a decision that is recalled or made. -/
theorem recallFrom_run (stamp : Nat) (a : Address) (right : Right)
    (decision : StateM Context Decision) (ctx : Context) :
    (recallFrom stamp a right decision).run ctx =
      match ctx.remembered? ⟨stamp, a, right⟩ with
      | some d => (d, ctx)
      | none =>
          ((decision.run ctx).1, (decision.run ctx).2.remember ⟨stamp, a, right⟩
            (decision.run ctx).1) := by
  cases hmemo : ctx.remembered? ⟨stamp, a, right⟩ with
  | some d =>
      simp only [recallFrom, StateT.run_bind, StateT.run_get, pure_bind, hmemo,
        StateT.run_pure]
      rfl
  | none =>
      simp only [recallFrom, StateT.run_bind, StateT.run_get, pure_bind, hmemo,
        StateT.run_modify, StateT.run_pure]
      rfl

theorem run_bind (x : StateM Context α) (f : α → StateM Context β)
    (ctx : Context) :
    (x >>= f).run ctx = (f (x.run ctx).1).run (x.run ctx).2 := rfl

/-- What is remembered before the evaluation is remembered after it. -/
def Retains (x : StateM Context α) : Prop :=
  ∀ (ctx : Context) (key : MemoKey) (d : Decision),
    ctx.remembered? key = some d → (x.run ctx).2.remembered? key = some d

namespace Retains

theorem pure (a : α) : Retains (pure a) := fun _ _ _ h => h

theorem bind {x : StateM Context α} {f : α → StateM Context β} (hx : Retains x)
    (hf : ∀ a, Retains (f a)) : Retains (x >>= f) :=
  fun ctx key d h => hf _ _ key d (hx ctx key d h)

theorem ite {p : Prop} [Decidable p] {x y : StateM Context α} (hx : Retains x)
    (hy : Retains y) : Retains (if p then x else y) := by
  by_cases hp : p
  · rw [if_pos hp]
    exact hx
  · rw [if_neg hp]
    exact hy

/-- A decision that is made anew is not about what was remembered. -/
theorem recalled (stamp : Nat) (a : Address) (right : Right)
    {x : StateM Context Decision} (hx : Retains x) :
    Retains (recallFrom stamp a right x) := by
  intro ctx key d h
  rw [recallFrom_run]
  cases hmemo : ctx.remembered? ⟨stamp, a, right⟩ with
  | some d' => exact h
  | none =>
      have hne : (⟨stamp, a, right⟩ : MemoKey) ≠ key := by
        rintro rfl
        rw [h] at hmemo
        cases hmemo
      dsimp only
      rw [Context.remembered?_remember, if_neg hne]
      exact hx ctx key d h

section Rules

variable {stamp : Nat} {m : Model} {roles : Roles} {right : Right}

theorem onSchema (s : Schema) :
    Retains (Rule.onSchema (recallFrom stamp) m roles s right) :=
  recalled _ _ _ (pure _)

theorem onTable (t : Table) :
    Retains (Rule.onTable (recallFrom stamp) m roles t right) := by
  refine recalled _ _ _ ?_
  cases m.schemaOf? t.schema with
  | none => exact pure _
  | some s => exact bind (onSchema s) fun _ => ite (pure _) (pure _)

theorem onColumn (c : Column) :
    Retains (Rule.onColumn (recallFrom stamp) m roles c right) := by
  refine recalled _ _ _ ?_
  cases m.tableOf? c.table with
  | none => exact pure _
  | some t => exact bind (onTable t) fun _ => ite (pure _) (pure _)

theorem onColumns (t : Table) (names : List String) :
    Retains (Rule.onColumns (recallFrom stamp) m roles t right names) := by
  induction names with
  | nil => exact pure _
  | cons name rest ih =>
      unfold Rule.onColumns
      cases t.column? name with
      | none => exact bind (pure _) fun _ => bind ih fun _ => pure _
      | some c => exact bind (onColumn c) fun _ => bind ih fun _ => pure _

theorem onKey (k : UniqueKey) :
    Retains (Rule.onKey (recallFrom stamp) m roles k right) := by
  refine recalled _ _ _ ?_
  cases m.tableOf? k.table with
  | none => exact pure _
  | some t => exact onColumns t _

theorem someDenied (t : Table) (names : List String) :
    Retains (Rule.someDenied (recallFrom stamp) m roles t right names) := by
  induction names with
  | nil => exact pure _
  | cons name rest ih =>
      unfold Rule.someDenied
      cases t.column? name with
      | none => exact pure _
      | some c => exact bind (onColumn c) fun _ => ite (pure _) ih

theorem onReference (r : Reference) :
    Retains (Rule.onReference (recallFrom stamp) m roles r right) := by
  refine recalled _ _ _ ?_
  cases m.referencedKey r.mapping with
  | error e => exact pure _
  | ok key =>
      refine bind (onKey key) fun _ => ite (pure _) ?_
      cases m.tableOf? r.source with
      | none => exact pure _
      | some t =>
          exact bind (someDenied t _) fun _ => ite (pure _) (pure _)

theorem onReferences (references : List Reference) :
    Retains (Rule.onReferences (recallFrom stamp) m roles right references) := by
  induction references with
  | nil => exact pure _
  | cons r rest ih =>
      exact bind (onReference r) fun _ => bind ih fun _ => pure _

theorem onForeignKey (fk : ForeignKey) :
    Retains (Rule.onForeignKey (recallFrom stamp) m roles fk right) := by
  refine recalled _ _ _ ?_
  cases m.tableOf? fk.table with
  | none => exact pure _
  | some t =>
      exact bind (onColumns t _) fun _ =>
        bind (onReferences _) fun _ => pure _

end Rules

end Retains

namespace Snapshot

variable (s : Snapshot) (roles : Roles)

/-- The key under which a decision on an entity is remembered. -/
def memoKey (e : Entity) (right : Right) : MemoKey := ⟨s.stamp, e.address, right⟩

theorem ask_retains (e : Entity) (right : Right) :
    Retains (s.ask roles e right) := by
  cases e with
  | catalog => exact .recalled _ _ _ (.pure _)
  | schema s => exact .onSchema s
  | table t => exact .onTable t
  | column c => exact .onColumn c
  | key k => exact .onKey k
  | foreignKey fk => exact .onForeignKey fk
  | reference r => exact .onReference r

/-- The rules decide an entity unless the decision can be recalled. -/
theorem exists_ask_eq (e : Entity) (right : Right) :
    ∃ decision,
      s.ask roles e right = recallFrom s.stamp e.address right decision := by
  cases e <;> exact ⟨_, rfl⟩

theorem isRestricted_retains (m : Model) (c : Column) (right : Right) :
    Retains (isRestricted (s.ask roles) m c right) := by
  refine .bind (s.ask_retains roles _ _) fun _ => .ite (.pure _) ?_
  cases m.tableOf? c.table with
  | none => exact .pure _
  | some t =>
      exact .bind (s.ask_retains roles _ _) fun _ => .ite (.pure _) (.pure _)

/-- What is remembered is answered. -/
theorem ask_of_remembered {ctx : Context} {e : Entity} {right : Right}
    {d : Decision} (h : ctx.remembered? (s.memoKey e right) = some d) :
    (s.ask roles e right).run ctx = (d, ctx) := by
  obtain ⟨decision, heq⟩ := s.exists_ask_eq roles e right
  unfold memoKey at h
  rw [heq, recallFrom_run, h]

/-- What is answered is remembered. -/
theorem remembered?_ask (ctx : Context) (e : Entity) (right : Right) :
    ((s.ask roles e right).run ctx).2.remembered? (s.memoKey e right) =
      some ((s.ask roles e right).run ctx).1 := by
  obtain ⟨decision, heq⟩ := s.exists_ask_eq roles e right
  rw [heq, recallFrom_run]
  cases hmemo : ctx.remembered? ⟨s.stamp, e.address, right⟩ with
  | some d => exact hmemo
  | none =>
      dsimp only
      rw [Context.remembered?_remember]
      exact if_pos rfl

end Snapshot

end GovernedCatalog
