import GovernedCatalog.Rights.Rule

/-!
# Contexts of evaluation

A context is a requester's roles with a memory of the decisions made for them.
A decision is remembered for one value of the model, which is told from others
by a stamp; binding the context to another value forgets the rest.
-/

namespace GovernedCatalog

structure MemoKey where
  stamp : Nat
  entity : Address
  right : Right
  deriving DecidableEq

structure Context where
  roles : Roles
  /-- Each key at most once. -/
  memo : List (MemoKey × Decision)
  /-- The stamp of the value that the context is bound to; zero is no stamp. -/
  bound : Nat

namespace Context

def fresh (roles : Roles) : Context := ⟨roles, [], 0⟩

def anonymous : Context := fresh {}

/-- Forgets all decisions. -/
def reset (ctx : Context) : Context := { ctx with memo := [] }

/-- Binds the context to the value with the given stamp. -/
def bind (ctx : Context) (stamp : Nat) : Context :=
  { ctx with
    bound := stamp
    memo :=
      if ctx.bound = stamp then ctx.memo
      else ctx.memo.filter fun e => e.1.stamp = stamp }

def remembered? (ctx : Context) (key : MemoKey) : Option Decision :=
  (ctx.memo.find? fun e => e.1 = key).map (·.2)

def remember (ctx : Context) (key : MemoKey) (decision : Decision) : Context :=
  { ctx with memo := (key, decision) :: ctx.memo }

end Context

/-- Recalls a decision, or makes it and remembers it. -/
def recallFrom (stamp : Nat) : Recall (StateM Context) :=
  fun entity right decide => do
    let key : MemoKey := ⟨stamp, entity, right⟩
    match (← get).remembered? key with
    | some decision => return decision
    | none =>
        let decision ← decide
        modify fun ctx => ctx.remember key decision
        return decision

/-- A value of the model with the stamp that tells it from others. -/
structure Snapshot where
  stamp : Nat
  model : Model

namespace Snapshot

/-- Decides with the memory of a context that is bound to the snapshot. -/
def ask (s : Snapshot) (roles : Roles) : Ask (StateM Context) :=
  Rule.decide (recallFrom s.stamp) s.model roles

/-- Runs an evaluation in a context after binding it to the snapshot. -/
def evaluate (s : Snapshot) (ctx : Context)
    (evaluation : Ask (StateM Context) → StateM Context α) : α × Context :=
  (evaluation (s.ask ctx.roles)).run (ctx.bind s.stamp)

end Snapshot

end GovernedCatalog
