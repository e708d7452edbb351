/-!
# Steps that keep a property of the state

What holds of a state after every run of a step, whether the run succeeds or
fails, and what holds of the results of the runs that succeed.
-/

namespace GovernedCatalog

variable {ε σ α β : Type}

/-- From a state with the property every run leads to one with it, and every
result is as described. -/
def Upholds (P : σ → Prop) (x : ExceptT ε (StateM σ) α) (Q : α → Prop) : Prop :=
  ∀ s, P s → P (x.run.run s).2 ∧ ∀ a, (x.run.run s).1 = .ok a → Q a

namespace Upholds

variable {P : σ → Prop} {Q : α → Prop} {R : β → Prop}

theorem pure {a : α} (ha : Q a) :
    Upholds P (pure a : ExceptT ε (StateM σ) α) Q := by
  intro s hs
  refine ⟨hs, fun b hb => ?_⟩
  cases hb
  exact ha

theorem bind {x : ExceptT ε (StateM σ) α} {f : α → ExceptT ε (StateM σ) β}
    (hx : Upholds P x Q) (hf : ∀ a, Q a → Upholds P (f a) R) :
    Upholds P (x >>= f) R := by
  intro s hs
  obtain ⟨hkept, hresult⟩ := hx s hs
  rw [ExceptT.run_bind, StateT.run_bind]
  cases hrun : x.run.run s with
  | mk outcome s' =>
      rw [hrun] at hkept hresult
      cases outcome with
      | ok a => exact hf a (hresult a rfl) s' hkept
      | error e =>
          refine ⟨hkept, fun b hb => ?_⟩
          cases hb

theorem imp {x : ExceptT ε (StateM σ) α} {Q' : α → Prop} (hx : Upholds P x Q)
    (h : ∀ a, Q a → Q' a) : Upholds P x Q' :=
  fun s hs => ⟨(hx s hs).1, fun a ha => h a ((hx s hs).2 a ha)⟩

/-- A step that leaves the state as it is, from every state with the property. -/
theorem of_unchanged {x : ExceptT ε (StateM σ) α}
    (h : ∀ s, P s → Upholds (· = s) x Q) : Upholds P x Q := by
  intro s hs
  obtain ⟨hsame, hresult⟩ := h s hs s rfl
  rw [← hsame] at hs
  exact ⟨hs, hresult⟩

/-- The state that is read has the property. -/
theorem get : Upholds P (get : ExceptT ε (StateM σ) σ) P := by
  intro s hs
  refine ⟨hs, fun s' h => ?_⟩
  cases h
  exact hs

theorem set {s : σ} (hs : P s) :
    Upholds P (set s : ExceptT ε (StateM σ) PUnit) fun _ => True :=
  fun _ _ => ⟨hs, fun _ _ => trivial⟩

theorem modify {f : σ → σ} (hf : ∀ s, P s → P (f s)) :
    Upholds P (modify f : ExceptT ε (StateM σ) PUnit) fun _ => True :=
  fun s hs => ⟨hf s hs, fun _ _ => trivial⟩

theorem throw (e : ε) : Upholds P (throw e : ExceptT ε (StateM σ) α) Q := by
  intro s hs
  refine ⟨hs, fun b hb => ?_⟩
  cases hb

theorem lift (x : Except ε α) :
    Upholds P (liftM x : ExceptT ε (StateM σ) α) fun a => x = .ok a := by
  cases x with
  | ok a => exact pure rfl
  | error e => exact throw e

theorem discard {x : ExceptT ε (StateM σ) α} (hx : Upholds P x Q) :
    Upholds P (discard x) fun _ => True := by
  change Upholds P ((fun _ => PUnit.unit) <$> x) _
  rw [map_eq_pure_bind]
  exact hx.bind fun _ _ => pure trivial

theorem mapM {f : α → ExceptT ε (StateM σ) β} {l : List α}
    (hf : ∀ a ∈ l, Upholds P (f a) fun _ => True) :
    Upholds P (l.mapM f) fun _ => True := by
  induction l with
  | nil => exact pure trivial
  | cons a rest ih =>
      obtain ⟨hfirst, hrest⟩ := List.forall_mem_cons.1 hf
      rw [List.mapM_cons]
      exact hfirst.bind fun _ _ => (ih hrest).bind fun _ _ => pure trivial

end Upholds

end GovernedCatalog
