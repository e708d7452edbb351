import GovernedCatalog.Proofs.Rights.Memory

/-!
# Interleaved uses of a context

A context is bound to snapshots and asked about their entities in any order.
Whatever it remembers by then, each answer is the one that it would give if it
remembered nothing.
-/

namespace GovernedCatalog

inductive Use where
  | bind (s : Snapshot)
  /-- The snapshot need not be the one that the context was bound to last. -/
  | ask (s : Snapshot) (e : Entity) (right : Right)
  | reset

namespace Use

/-- The answers to a use, and the context after it. -/
def apply (ctx : Context) : Use → List Decision × Context
  | bind s => ([], ctx.bind s.stamp)
  | ask s e right =>
      let result := (s.ask ctx.roles e right).run ctx
      ([result.1], result.2)
  | reset => ([], ctx.reset)

/-- The answers of a context that remembers nothing. -/
def answers (roles : Roles) (u : Use) : List Decision :=
  (u.apply (Context.fresh roles)).1

def snapshots : Use → List Snapshot
  | bind s | ask s _ _ => [s]
  | reset => []

end Use

namespace Context

/-- The answers to the uses of a context, one after the other. -/
def answers (ctx : Context) : List Use → List Decision
  | [] => []
  | u :: rest => (u.apply ctx).1 ++ answers (u.apply ctx).2 rest

/-- The context after some uses. -/
def after (ctx : Context) (uses : List Use) : Context :=
  uses.foldl (fun ctx u => (u.apply ctx).2) ctx

end Context

/-- A stamp stands for one addressable model, and snapshots are asked about
their own entities. -/
structure Coherent (uses : List Use) : Prop where
  stamps : ∀ s ∈ uses.flatMap Use.snapshots, ∀ s' ∈ uses.flatMap Use.snapshots,
    s.stamp = s'.stamp → s.model = s'.model
  addressable : ∀ s ∈ uses.flatMap Use.snapshots, s.model.Addressable
  own : ∀ {s : Snapshot} {e : Entity} {right : Right},
    .ask s e right ∈ uses → e ∈ s.model.entities.map Prod.snd

def modelOf (snapshots : List Snapshot) (stamp : Nat) : Model :=
  match snapshots.find? (·.stamp = stamp) with
  | some s => s.model
  | none => .fresh ""

namespace Coherent

variable {uses : List Use}

theorem modelOf_stamp (h : Coherent uses) {s : Snapshot}
    (hs : s ∈ uses.flatMap Use.snapshots) :
    modelOf (uses.flatMap Use.snapshots) s.stamp = s.model := by
  unfold modelOf
  cases hfind : (uses.flatMap Use.snapshots).find? (·.stamp = s.stamp) with
  | none => simpa using List.find?_eq_none.1 hfind s hs
  | some s' =>
      have hstamp : s'.stamp = s.stamp := by
        simpa using List.find?_some hfind
      exact h.stamps s' (List.mem_of_find?_eq_some hfind) s hs hstamp

variable {roles : Roles} {u : Use} {ctx : Context}

/-- A use of a faithful context gets the answers that a fresh context gives, and
leaves the context faithful. -/
theorem apply (h : Coherent uses) (hu : u ∈ uses)
    (hctx : ctx.Faithful (modelOf (uses.flatMap Use.snapshots)) roles) :
    (u.apply ctx).1 = u.answers roles ∧
      (u.apply ctx).2.Faithful (modelOf (uses.flatMap Use.snapshots))
        roles := by
  cases u with
  | bind s => exact ⟨rfl, hctx.bind s.stamp⟩
  | reset => exact ⟨rfl, hctx.reset⟩
  | ask s e right =>
      have hs : s ∈ uses.flatMap Use.snapshots :=
        List.mem_flatMap.2 ⟨_, hu, List.mem_singleton_self s⟩
      have hm := h.addressable s hs
      have hask := s.answers hm (h.modelOf_stamp hs) roles
        (hm.holds_of_mem_entities (h.own hu)) right
      -- Both contexts are faithful, so both give the decision made afresh.
      obtain ⟨hanswer, hafter⟩ := hask ctx hctx
      obtain ⟨hfresh, _⟩ := hask _ (Context.Faithful.fresh _ roles)
      refine ⟨?_, ?_⟩
      · change [((s.ask ctx.roles e right).run ctx).1] =
          [((s.ask roles e right).run (Context.fresh roles)).1]
        rw [hctx.roles_eq, hanswer, hfresh]
      · change ((s.ask ctx.roles e right).run ctx).2.Faithful _ _
        rw [hctx.roles_eq]
        exact hafter

theorem answers_eq (h : Coherent uses) {rest : List Use}
    (hrest : ∀ u ∈ rest, u ∈ uses)
    (hctx : ctx.Faithful (modelOf (uses.flatMap Use.snapshots)) roles) :
    ctx.answers rest = rest.flatMap (Use.answers roles) := by
  induction rest generalizing ctx with
  | nil => rfl
  | cons u rest ih =>
      obtain ⟨hanswers, hafter⟩ := h.apply (hrest u List.mem_cons_self) hctx
      rw [Context.answers, List.flatMap_cons, hanswers,
        ih (fun u' hu' => hrest u' (List.mem_cons_of_mem _ hu')) hafter]

theorem after (h : Coherent uses) {rest : List Use}
    (hrest : ∀ u ∈ rest, u ∈ uses)
    (hctx : ctx.Faithful (modelOf (uses.flatMap Use.snapshots)) roles) :
    (ctx.after rest).Faithful (modelOf (uses.flatMap Use.snapshots)) roles := by
  induction rest generalizing ctx with
  | nil => exact hctx
  | cons u rest ih =>
      exact ih (fun u' hu' => hrest u' (List.mem_cons_of_mem _ hu'))
        (h.apply (hrest u List.mem_cons_self) hctx).2

/-- The uses are coherent with another snapshot. -/
theorem cons_bind (h : Coherent uses) {s : Snapshot}
    (hs : s.model.Addressable)
    (hstamp : ∀ s' ∈ uses.flatMap Use.snapshots,
      s'.stamp = s.stamp → s'.model = s.model) :
    Coherent (.bind s :: uses) where
  stamps := by
    intro s₁ h₁ s₂ h₂ heq
    rw [List.flatMap_cons] at h₁ h₂
    rcases List.mem_append.1 h₁ with h₁ | h₁ <;>
      rcases List.mem_append.1 h₂ with h₂ | h₂
    · rw [List.mem_singleton.1 h₁, List.mem_singleton.1 h₂]
    · cases List.mem_singleton.1 h₁
      exact (hstamp s₂ h₂ heq.symm).symm
    · cases List.mem_singleton.1 h₂
      exact hstamp s₁ h₁ heq
    · exact h.stamps s₁ h₁ s₂ h₂ heq
  addressable := by
    intro s' h'
    rw [List.flatMap_cons] at h'
    rcases List.mem_append.1 h' with h' | h'
    · cases List.mem_singleton.1 h'
      exact hs
    · exact h.addressable s' h'
  own := by
    intro s' e right h'
    rcases List.mem_cons.1 h' with h' | h'
    · cases h'
    · exact h.own h'

/-- Uses of one snapshot. -/
theorem alone {s : Snapshot} (hs : s.model.Addressable)
    (honly : ∀ s' ∈ uses.flatMap Use.snapshots, s' = s)
    (hown : ∀ {e : Entity} {right : Right},
      .ask s e right ∈ uses → e ∈ s.model.entities.map Prod.snd) :
    Coherent uses where
  stamps := by
    intro s₁ h₁ s₂ h₂ _
    rw [honly s₁ h₁, honly s₂ h₂]
  addressable := by
    intro s' h'
    rw [honly s' h']
    exact hs
  own := by
    intro s' e right h'
    have hmem : s' ∈ uses.flatMap Use.snapshots :=
      List.mem_flatMap.2 ⟨_, h', List.mem_singleton_self s'⟩
    cases honly s' hmem
    exact hown h'

end Coherent

/-- An answer of a context that remembers nothing is the decision of the rules. -/
theorem Snapshot.ask_fresh {s : Snapshot} (hs : s.model.Addressable)
    {e : Entity} (he : e ∈ s.model.entities.map Prod.snd) (roles : Roles)
    (right : Right) :
    ((s.ask roles e right).run (Context.fresh roles)).1 =
      decide s.model roles e right := by
  have hask : Answers (fun _ => s.model) roles (s.ask roles) s.model :=
    s.answers hs rfl roles
  exact (hask (hs.holds_of_mem_entities he) right _
    (Context.Faithful.fresh _ roles)).1

/-- What a context remembers never changes an answer. -/
theorem Context.answers_eq_afresh (roles : Roles) (uses : List Use)
    (h : Coherent uses) :
    (Context.fresh roles).answers uses = uses.flatMap (Use.answers roles) :=
  h.answers_eq (fun _ hu => hu) (Context.Faithful.fresh _ roles)

/-- An empty model that everyone, or no one, can see. -/
def emptyModel (visible : Bool) : Model :=
  { Model.fresh "sys" with
    acls := SortedMap.ofList [(.enumerate, if visible then ["*"] else [])] }

theorem emptyModel_addressable (visible : Bool) :
    (emptyModel visible).Addressable where
  schema_name h := by cases h
  table h := by cases h
  system_table h := by cases h
  system_apart := rfl

/-- Two snapshots of a model, where the second hides what the first shows. -/
def backAndForth : List Use :=
  let shown : Snapshot := ⟨1, emptyModel true⟩
  let hidden : Snapshot := ⟨2, emptyModel false⟩
  let system : Entity := .schema (.fresh "sys")
  [.bind shown, .ask shown system .enumerate, .bind hidden,
    .ask hidden system .enumerate, .bind shown, .ask shown system .enumerate,
    .ask hidden .catalog .enumerate]

theorem Context.answers_eq_afresh_backAndForth :
    Coherent backAndForth ∧
      (Context.fresh {}).answers backAndForth =
        backAndForth.flatMap (Use.answers {}) ∧
      backAndForth.flatMap (Use.answers {}) = [.allow, .deny, .allow, .deny] := by
  have hcoherent : Coherent backAndForth := {
    stamps := by simp [backAndForth, Use.snapshots]
    addressable := by
      simp [backAndForth, Use.snapshots, emptyModel_addressable]
    own := by
      intro s e right h
      simp only [backAndForth, List.mem_cons, reduceCtorEq, Use.ask.injEq,
        List.not_mem_nil, or_false, false_or] at h
      rcases h with ⟨rfl, rfl, _⟩ | ⟨rfl, rfl, _⟩ | ⟨rfl, rfl, _⟩ |
          ⟨rfl, rfl, _⟩ <;>
        simp [Model.entities, Schema.entities, emptyModel, Model.fresh] }
  exact ⟨hcoherent, answers_eq_afresh {} backAndForth hcoherent, by decide⟩

end GovernedCatalog
