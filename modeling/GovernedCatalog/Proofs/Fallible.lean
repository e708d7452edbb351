/-!
# Steps that can fail

What is known of each step of a computation that succeeds, and what holds of its
result whenever there is one.
-/

namespace GovernedCatalog

variable {ε δ : Type u} {α β : Type v}

theorem bind_eq_ok {x : Except ε α} {f : α → Except ε β} {b : β} :
    x >>= f = .ok b ↔ ∃ a, x = .ok a ∧ f a = .ok b := by
  cases x <;> simp [bind, Except.bind]

theorem bind_eq_error {x : Except ε α} {f : α → Except ε β} {e : ε} :
    x >>= f = .error e ↔ x = .error e ∨ ∃ a, x = .ok a ∧ f a = .error e := by
  cases x <;> simp [bind, Except.bind]

theorem map_eq_ok {x : Except ε α} {f : α → β} {b : β} :
    x.map f = .ok b ↔ ∃ a, x = .ok a ∧ f a = b := by
  cases x <;> simp [Except.map]

theorem map_eq_error {x : Except ε α} {f : α → β} {e : ε} :
    x.map f = .error e ↔ x = .error e := by
  cases x <;> simp [Except.map]

theorem map_map {α' β' : Type v} (x : Except ε α) (f : α → α') (g : α' → β') :
    (x.map f).map g = x.map fun a => g (f a) := by
  cases x <;> rfl

theorem map_bind {α' : Type v} (x : Except ε α) (f : α → α')
    (g : α' → Except ε β) : x.map f >>= g = x >>= fun a => g (f a) := by
  cases x <;> rfl

theorem mapError_eq_ok {x : Except ε α} {f : ε → δ} {a : α} :
    x.mapError f = .ok a ↔ x = .ok a := by
  cases x with
  | ok b =>
      constructor
      · intro h
        cases h
        rfl
      · intro h
        cases h
        rfl
  | error e =>
      constructor
      · intro h
        cases h
      · intro h
        cases h

theorem toOption_eq_some_iff {x : Except ε α} {a : α} :
    x.toOption = some a ↔ x = .ok a := by
  cases x <;> simp [Except.toOption]

theorem discard_eq_ok {x : Except ε α} {u : PUnit} :
    discard x = .ok u ↔ ∃ a, x = .ok a := by
  cases x <;> simp [discard, Functor.discard, Functor.mapConst, Except.map]

theorem forM_eq_ok {f : α → Except ε PUnit} {l : List α} {u : PUnit}
    (h : l.forM f = .ok u) : ∀ a ∈ l, f a = .ok ⟨⟩ := by
  induction l with
  | nil => simp
  | cons a rest ih =>
      obtain ⟨⟨⟩, ha, hrest⟩ := bind_eq_ok.1 h
      intro b hb
      rcases List.mem_cons.1 hb with rfl | hb
      · exact ha
      · exact ih hrest b hb

theorem forM_ok {f : α → Except ε PUnit} {l : List α}
    (h : ∀ a ∈ l, f a = .ok ⟨⟩) : l.forM f = .ok ⟨⟩ := by
  induction l with
  | nil => rfl
  | cons a rest ih =>
      obtain ⟨hfirst, hrest⟩ := List.forall_mem_cons.1 h
      rw [List.forM_eq_forM, List.forM_cons]
      exact bind_eq_ok.2 ⟨⟨⟩, hfirst, ih hrest⟩

/-- What is in the results came from the elements. -/
theorem mem_mapM_iff {f : α → Except ε β} {l : List α} {results : List β}
    (h : l.mapM f = .ok results) {b : β} :
    b ∈ results ↔ ∃ a ∈ l, f a = .ok b := by
  induction l generalizing results with
  | nil =>
      cases h
      simp
  | cons a rest ih =>
      rw [List.mapM_cons] at h
      obtain ⟨first, hfirst, h⟩ := bind_eq_ok.1 h
      obtain ⟨others, hothers, h⟩ := bind_eq_ok.1 h
      cases h
      simp [ih hothers, hfirst, eq_comm]

/-- A step for each element succeeds if every one of them does. -/
theorem mapM_ok_iff {f : α → Except ε β} {l : List α} :
    (∃ results, l.mapM f = .ok results) ↔ ∀ a ∈ l, ∃ b, f a = .ok b := by
  induction l with
  | nil =>
      constructor
      · simp
      · intro _
        exact ⟨[], rfl⟩
  | cons a rest ih =>
      rw [List.mapM_cons, List.forall_mem_cons, ← ih]
      constructor
      · rintro ⟨_, h⟩
        obtain ⟨b, hb, h⟩ := bind_eq_ok.1 h
        obtain ⟨others, hothers, _⟩ := bind_eq_ok.1 h
        exact ⟨⟨b, hb⟩, others, hothers⟩
      · rintro ⟨⟨b, hb⟩, others, hothers⟩
        rw [hb, hothers]
        exact ⟨b :: others, rfl⟩

theorem mapM_eq_ok_map {f : α → Except ε β} {g : α → β} {l : List α}
    (h : ∀ a ∈ l, f a = .ok (g a)) : l.mapM f = .ok (l.map g) := by
  induction l with
  | nil => rfl
  | cons a rest ih =>
      obtain ⟨hfirst, hrest⟩ := List.forall_mem_cons.1 h
      rw [List.mapM_cons]
      exact bind_eq_ok.2 ⟨g a, hfirst, bind_eq_ok.2 ⟨_, ih hrest, rfl⟩⟩

theorem length_of_mapM {f : α → Except ε β} {l : List α} {results : List β}
    (h : l.mapM f = .ok results) : results.length = l.length := by
  induction l generalizing results with
  | nil =>
    cases h
    rfl
  | cons a rest ih =>
    rw [List.mapM_cons] at h
    obtain ⟨b, -, h⟩ := bind_eq_ok.1 h
    obtain ⟨bs, hbs, h⟩ := bind_eq_ok.1 h
    cases h
    rw [List.length_cons, List.length_cons, ih hbs]

theorem mapM_concat_eq_ok {f : α → Except ε β} {init : List α} {last : α}
    {results : List β} {result : β} :
    (init ++ [last]).mapM f = .ok (results ++ [result]) ↔
      init.mapM f = .ok results ∧ f last = .ok result := by
  rw [List.mapM_append, bind_eq_ok]
  simp only [List.mapM_cons, List.mapM_nil, bind_eq_ok]
  constructor
  · rintro ⟨_, hinit, _, ⟨_, hlast, _, hnil, h⟩, happend⟩
    cases hnil
    cases h
    obtain ⟨rfl, h⟩ := List.append_inj' (Except.ok.inj happend) rfl
    cases h
    exact ⟨hinit, hlast⟩
  · rintro ⟨hinit, hlast⟩
    exact ⟨results, hinit, [result], ⟨result, hlast, [], rfl, rfl⟩, rfl⟩

/-- Two runs over a list one after the other are one run. -/
theorem mapM_bind_eq_ok {α' : Type v} {f : α → Except ε α'}
    {g : α' → Except ε β} {l : List α} {results : List β} :
    l.mapM (fun a => f a >>= g) = .ok results ↔
      ∃ between, l.mapM f = .ok between ∧ between.mapM g = .ok results := by
  induction l generalizing results with
  | nil =>
    constructor
    · rintro h
      exact ⟨[], rfl, h⟩
    · rintro ⟨between, hbetween, h⟩
      cases hbetween
      exact h
  | cons a rest ih =>
    simp only [List.mapM_cons, bind_eq_ok, ih]
    constructor
    · rintro ⟨b, ⟨c, hc, hb⟩, bs, ⟨cs, hcs, hbs⟩, h⟩
      refine ⟨c :: cs, ⟨c, hc, cs, hcs, rfl⟩, ?_⟩
      simp only [List.mapM_cons, bind_eq_ok]
      exact ⟨b, hb, bs, hbs, h⟩
    · rintro ⟨between, ⟨c, hc, cs, hcs, hbetween⟩, h⟩
      cases hbetween
      simp only [List.mapM_cons, bind_eq_ok] at h
      obtain ⟨b, hb, bs, hbs, h⟩ := h
      exact ⟨b, ⟨c, hc, hb⟩, bs, ⟨cs, hcs, hbs⟩, h⟩

/-- A run over a list leaves it as it is if every step does. -/
theorem mapM_eq_ok_self_iff {f : α → Except ε α} {l : List α} :
    l.mapM f = .ok l ↔ ∀ a ∈ l, f a = .ok a := by
  constructor
  · intro h
    induction l with
    | nil => exact List.forall_mem_nil _
    | cons a rest ih =>
      rw [List.mapM_cons] at h
      obtain ⟨b, hb, h⟩ := bind_eq_ok.1 h
      obtain ⟨bs, hbs, h⟩ := bind_eq_ok.1 h
      cases h
      exact List.forall_mem_cons.2 ⟨hb, ih hbs⟩
  · intro h
    simpa using mapM_eq_ok_map (g := id) h

/-- The results of the steps, if every one of them succeeds. -/
theorem filterMap_toOption_of_mapM {f : α → Except ε β} {l : List α}
    {results : List β} (h : l.mapM f = .ok results) :
    (l.filterMap fun a => (f a).toOption) = results := by
  induction l generalizing results with
  | nil =>
    cases h
    rfl
  | cons a rest ih =>
    rw [List.mapM_cons] at h
    obtain ⟨first, hfirst, h⟩ := bind_eq_ok.1 h
    obtain ⟨others, hothers, h⟩ := bind_eq_ok.1 h
    cases h
    have hsome := toOption_eq_some_iff.2 hfirst
    rw [List.filterMap_cons, hsome, ih hothers]

/-- Each element stands beside its own result. -/
theorem mem_zip_mapM_iff {f : α → Except ε β} {l : List α} {results : List β}
    (h : l.mapM f = .ok results) {a : α} {b : β} :
    (a, b) ∈ l.zip results ↔ a ∈ l ∧ f a = .ok b := by
  induction l generalizing results with
  | nil => simp
  | cons a' rest ih =>
    rw [List.mapM_cons] at h
    obtain ⟨first, hfirst, h⟩ := bind_eq_ok.1 h
    obtain ⟨others, hothers, h⟩ := bind_eq_ok.1 h
    cases h
    rw [List.zip_cons_cons, List.mem_cons, List.mem_cons, ih hothers,
      Prod.mk.injEq]
    constructor
    · rintro (⟨rfl, rfl⟩ | ⟨ha, hb⟩)
      · exact ⟨.inl rfl, hfirst⟩
      · exact ⟨.inr ha, hb⟩
    · rintro ⟨rfl | ha, hb⟩
      · rw [hfirst, Except.ok.injEq] at hb
        exact .inl ⟨rfl, hb.symm⟩
      · exact .inr ⟨ha, hb⟩

/-- The result has the property if there is one. -/
def Ensures (x : Except ε α) (P : α → Prop) : Prop := ∀ a, x = .ok a → P a

namespace Ensures

variable {P : β → Prop}

theorem ok {b : β} (hb : P b) : Ensures (.ok b : Except ε β) P := by
  intro b' h
  cases h
  exact hb

theorem error {e : ε} : Ensures (.error e : Except ε β) P := by
  intro b h
  cases h

theorem bind {x : Except ε α} {f : α → Except ε β} {Q : α → Prop}
    (hx : Ensures x Q) (hf : ∀ a, Q a → Ensures (f a) P) :
    Ensures (x >>= f) P := by
  intro b h
  obtain ⟨a, ha, hb⟩ := bind_eq_ok.1 h
  exact hf a (hx a ha) b hb

/-- A property that does not depend on the first step. -/
theorem after {x : Except ε α} {f : α → Except ε β}
    (hf : ∀ a, Ensures (f a) P) : Ensures (x >>= f) P :=
  bind (Q := fun _ => True) (fun _ _ => trivial) fun a _ => hf a

theorem error_bind {e : ε} {f : α → Except ε β} :
    Ensures (.error e >>= f) P := error

theorem ite {p : Prop} [Decidable p] {x y : Except ε β} (hx : Ensures x P)
    (hy : Ensures y P) : Ensures (if p then x else y) P := by
  by_cases hp : p
  · rw [if_pos hp]
    exact hx
  · rw [if_neg hp]
    exact hy

/-- What each step preserves holds after all of them. -/
theorem foldlM {f : β → α → Except ε β} {l : List α}
    (hf : ∀ b, ∀ a ∈ l, P b → Ensures (f b a) P) {b : β} (hb : P b) :
    Ensures (l.foldlM f b) P := by
  induction l generalizing b with
  | nil => exact ok hb
  | cons a rest ih =>
      rw [List.foldlM_cons]
      refine bind (hf b a List.mem_cons_self hb) fun b' hb' => ?_
      exact ih (fun b a ha => hf b a (List.mem_cons_of_mem _ ha)) hb'

/-- What each step carries from the elements before it to one more holds of all
of them in the end. -/
theorem foldlM_prefix {P : List α → β → Prop} {f : β → α → Except ε β}
    (hf : ∀ done b a, P done b → Ensures (f b a) (P (done ++ [a])))
    {done : List α} {b : β} (hb : P done b) (l : List α) :
    Ensures (l.foldlM f b) (P (done ++ l)) := by
  induction l generalizing done b with
  | nil =>
      rw [List.append_nil]
      exact ok hb
  | cons a rest ih =>
      rw [List.foldlM_cons, List.append_cons]
      exact bind (hf done b a hb) fun b' hb' => ih hb'

end Ensures

/-- The computation does not fail with the error. -/
def Avoids (x : Except ε α) (e : ε) : Prop := x ≠ .error e

namespace Avoids

variable {e e' : ε}

theorem ok {a : α} : Avoids (.ok a) e := by simp [Avoids]

theorem error (h : e' ≠ e) : Avoids (.error e' : Except ε α) e := by
  simpa [Avoids] using h

theorem bind {x : Except ε α} {f : α → Except ε β} (hx : Avoids x e)
    (hf : ∀ a, Avoids (f a) e) : Avoids (x >>= f) e := by
  cases x with
  | ok a => exact hf a
  | error e' => exact error fun h => hx (congrArg Except.error h)

theorem map {x : Except ε α} (hx : Avoids x e) (f : α → β) :
    Avoids (x.map f) e := by
  cases x with
  | ok a => exact ok
  | error e' => exact error fun h => hx (congrArg Except.error h)

theorem mapM {f : α → Except ε β} {l : List α} (hf : ∀ a ∈ l, Avoids (f a) e) :
    Avoids (l.mapM f) e := by
  induction l with
  | nil => exact ok
  | cons a rest ih =>
      obtain ⟨hfirst, hrest⟩ := List.forall_mem_cons.1 hf
      rw [List.mapM_cons]
      exact bind hfirst fun _ => bind (ih hrest) fun _ => ok

theorem foldlM {f : β → α → Except ε β} {l : List α}
    (hf : ∀ b a, Avoids (f b a) e) {b : β} : Avoids (l.foldlM f b) e := by
  induction l generalizing b with
  | nil => exact ok
  | cons a rest ih =>
      rw [List.foldlM_cons]
      exact bind (hf b a) fun _ => ih

end Avoids

end GovernedCatalog
