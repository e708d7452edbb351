import GovernedCatalog.Proofs.Fallible

/-!
# Computations that agree

Two computations agree if both fail, or if both succeed with related results.  A
loop whose steps commute agrees with the loop over the same elements in any other
order.
-/

namespace GovernedCatalog

variable {ε : Type u} {α β : Type v}

/-- Both fail, or both succeed with related results. -/
inductive Agree (R : α → β → Prop) : Except ε α → Except ε β → Prop
  | ok {a : α} {b : β} (related : R a b) : Agree R (.ok a) (.ok b)
  | error (e e' : ε) : Agree R (.error e) (.error e')

namespace Agree

theorem bind {α' β' : Type v} {R : α → β → Prop} {S : α' → β' → Prop}
    {x : Except ε α} {y : Except ε β} {f : α → Except ε α'}
    {g : β → Except ε β'} (hxy : Agree R x y)
    (hfg : ∀ a b, R a b → Agree S (f a) (g b)) :
    Agree S (x >>= f) (y >>= g) := by
  cases hxy with
  | ok related => exact hfg _ _ related
  | error e e' => exact .error e e'

/-- What follows one computation agrees if it does on every result. -/
theorem after {α' β' : Type v} {S : α' → β' → Prop} (x : Except ε α)
    {f : α → Except ε α'} {g : α → Except ε β'}
    (hfg : ∀ a, Agree S (f a) (g a)) : Agree S (x >>= f) (x >>= g) := by
  cases x with
  | ok a => exact hfg a
  | error e => exact .error e e

/-- Two computations that do not depend on each other may be exchanged. -/
theorem swap {γ : Type v} {S : γ → γ → Prop} (x : Except ε α) (y : Except ε β)
    {f g : α → β → γ} (hfg : ∀ a b, S (f a b) (g a b)) :
    Agree S (x >>= fun a => y.map fun b => f a b)
      (y >>= fun b => x.map fun a => g a b) := by
  cases x with
  | error e =>
      cases y with
      | error e' => exact .error e e'
      | ok b => exact .error e e
  | ok a =>
      cases y with
      | error e' => exact .error e' e'
      | ok b => exact .ok (hfg a b)

section Relation

variable {R : α → α → Prop}

theorem refl (hR : ∀ a, R a a) (x : Except ε α) : Agree R x x := by
  cases x with
  | ok a => exact .ok (hR a)
  | error e => exact .error e e

theorem trans (hR : Equivalence R) {x y z : Except ε α} (hxy : Agree R x y)
    (hyz : Agree R y z) : Agree R x z := by
  cases hxy with
  | ok hab =>
      cases hyz with
      | ok hbc => exact .ok (hR.trans hab hbc)
  | error e e' =>
      cases hyz with
      | error _ e'' => exact .error e e''

end Relation

section Loop

variable {σ : Type v} {R : σ → σ → Prop} {ι : Type w} {f : σ → ι → Except ε σ}

theorem foldlM (hstep : ∀ s s' i, R s s' → Agree R (f s i) (f s' i))
    (l : List ι) {s s' : σ} (hs : R s s') :
    Agree R (l.foldlM f s) (l.foldlM f s') := by
  induction l generalizing s s' with
  | nil => exact .ok hs
  | cons i rest ih =>
      simp only [List.foldlM_cons]
      exact (hstep s s' i hs).bind fun _ _ h => ih h

/-- A loop over elements with different keys does not depend on their order, if
it does not for any two of them. -/
theorem foldlM_perm {κ : Type x} {key : ι → κ} (hR : Equivalence R)
    (hstep : ∀ s s' i, R s s' → Agree R (f s i) (f s' i))
    (hswap : ∀ s i j, key i ≠ key j →
      Agree R (f s i >>= (f · j)) (f s j >>= (f · i)))
    {l l' : List ι} (hperm : l.Perm l') (hkeys : (l.map key).Nodup) {s s' : σ}
    (hs : R s s') : Agree R (l.foldlM f s) (l'.foldlM f s') := by
  induction hperm generalizing s s' with
  | nil => exact .ok hs
  | cons i _ ih =>
      rw [List.map_cons, List.nodup_cons] at hkeys
      simp only [List.foldlM_cons]
      exact (hstep s s' i hs).bind fun _ _ h => ih hkeys.2 h
  | swap i j rest =>
      have hne : key j ≠ key i := by
        intro heq
        simp [heq] at hkeys
      have hfirst : Agree R (f s j >>= (f · i)) (f s' i >>= (f · j)) := by
        have hmoved : Agree R (f s j >>= (f · i)) (f s' j >>= (f · i)) :=
          (hstep s s' j hs).bind fun _ _ h => hstep _ _ i h
        exact hmoved.trans hR (hswap s' j i hne)
      simp only [List.foldlM_cons, ← bind_assoc]
      exact hfirst.bind fun _ _ h => foldlM hstep rest h
  | trans hperm _ ih ih' =>
      have hmiddle := (hperm.map key).nodup_iff.1 hkeys
      exact (ih hkeys (hR.refl s)).trans hR (ih' hmiddle hs)

end Loop

end Agree

end GovernedCatalog
