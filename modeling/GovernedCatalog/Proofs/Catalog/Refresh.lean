import GovernedCatalog.Proofs.Catalog.Query

/-!
# Refreshes step by step

A refresh passes statements to its reader, stores the report of the
introspection and publishes the model, one after the other.  The machine below
takes these steps on a state that keeps every published model in its place.
A refresh that fails has taken none of them.
-/

namespace GovernedCatalog

/-- A catalog in the middle of its steps. -/
structure Machine where
  settings : Settings
  /-- Every published model in its place, where readers find their snapshot. -/
  models : List Model
  /-- The place of the model that is published now. -/
  current : Nat
  version : Nat
  lastReport : Option Report
  /-- All statements that were passed to readers, in order. -/
  passed : List String

/-- The reader accepts every statement. -/
def Reader.Accepting (reader : Reader) : Prop :=
  ∀ statement, reader.execute statement = .ok ()

theorem Dump.reader_accepting (d : Dump) : d.reader.Accepting := fun _ => rfl

namespace Machine

abbrev Step := ExceptT Error (StateM Machine)

def start (settings : Settings) : Machine where
  settings := settings
  models := [.fresh settings.naming.systemSchema]
  current := 0
  version := 1
  lastReport := none
  passed := []

/-- The catalog that the machine is at. -/
def catalog? (s : Machine) : Option Catalog :=
  s.models[s.current]?.map fun m => ⟨s.settings, ⟨s.version, m⟩, s.lastReport⟩

/-- Passes a statement to the reader, which may fail after it got it. -/
def pass (reader : Reader) (statement : String) : Step Unit := do
  modify fun s => { s with passed := s.passed ++ [statement] }
  liftM (reader.execute statement)

/-- Puts the system schema apart and adds the value map if it is missing. -/
def complete (reader : Reader) (settings : Settings)
    (p : Introspection.Progress) (dropped : List String) :
    Step (Model × Report) := do
  let m := (p.model.installSystemSchema settings.naming.systemSchema).2
  let statements := Introspection.valueMapStatements settings m
  if statements.isEmpty then return (m, ⟨p.skipped, dropped, false⟩)
  statements.forM (pass reader)
  let m ← liftM (Introspection.addValueMap m)
  return (m, ⟨p.skipped, dropped, true⟩)

def introspect (reader : Reader) (settings : Settings) :
    Step (Model × Report) := do
  let base ← liftM (Introspection.readStructure reader settings)
  let p ← liftM (Introspection.attachAll reader settings base.1)
  complete reader settings p base.2

def storeReport (report : Report) : Step Unit :=
  modify fun s => { s with lastReport := some report }

/-- Puts the model in a new place and makes it the published one. -/
def publish (m : Model) : Step Unit :=
  modify fun s => { s with
    models := s.models ++ [m]
    current := s.models.length
    version := s.version + 1 }

def refresh (reader : Reader) : Step Unit := do
  let (m, report) ← introspect reader (← get).settings
  storeReport report
  publish m

/-- The machine after a refresh, whether it succeeds or fails. -/
def next (s : Machine) (reader : Reader) : Machine :=
  ((refresh reader).run.run s).2

def after (s : Machine) (readers : List Reader) : Machine :=
  readers.foldl next s

/-! ## One refresh -/

section Steps

variable {reader : Reader} {s : Machine}

theorem pass_run (statement : String) :
    (pass reader statement).run.run s =
      (reader.execute statement,
        { s with passed := s.passed ++ [statement] }) := by
  unfold pass
  cases reader.execute statement <;> rfl

/-- Statements are passed up to the first that fails. -/
theorem passAll_run (statements : List String) :
    ∃ sent, (statements.forM (pass reader)).run.run s =
        (statements.forM reader.execute,
          { s with passed := s.passed ++ sent }) ∧
      ∀ u, statements.forM reader.execute = .ok u → sent = statements := by
  induction statements generalizing s with
  | nil => exact ⟨[], by rw [List.append_nil]; rfl, fun _ _ => rfl⟩
  | cons statement rest ih =>
      simp only [List.forM_eq_forM, List.forM_cons] at ih ⊢
      rw [ExceptT.run_bind, StateT.run_bind, pass_run]
      cases hexecute : reader.execute statement with
      | error e =>
          refine ⟨[statement], rfl, fun u h => ?_⟩
          cases h
      | ok u =>
          obtain ⟨sent, hrun, hsent⟩ := @ih
            { s with passed := s.passed ++ [statement] }
          simp only [List.append_assoc] at hrun
          exact ⟨statement :: sent, hrun, fun u h => by rw [hsent u h]⟩

theorem addValueMap_ok {settings : Settings} {m : Model}
    (h : (Introspection.valueMapStatements settings m).isEmpty = false) :
    ∃ m', Introspection.addValueMap m = .ok m' := by
  have hnew : m.systemSchema.tables.contains ValueMap.tableName = false := by
    unfold Introspection.valueMapStatements at h
    cases hcontains : m.systemSchema.tables.contains ValueMap.tableName with
    | false => rfl
    | true =>
        rw [hcontains] at h
        cases h
  have hname : (ValueMap.table m.systemSchema.name).name =
      ValueMap.tableName := rfl
  simp [Introspection.addValueMap, Schema.addTable, hname, hnew, Except.map]

theorem lift_bind_run (x : Except Error α) (f : α → Step β) :
    (liftM x >>= f).run.run s =
      match x with
      | .ok a => (f a).run.run s
      | .error e => (.error e, s) := by
  cases x <;> rfl

theorem get_bind_run (f : Machine → Step α) :
    (get >>= f).run.run s = (f s).run.run s := rfl

/-- The step by step computation fails or succeeds as the whole does.  If it
succeeds it has passed the statements of the whole, and if it fails with a
reader that accepts all statements it has passed none. -/
def Follows (reader : Reader) (s : Machine) (x : Step (Model × Report))
    (whole : Except Error Introspection) : Prop :=
  ∃ sent, x.run.run s =
      (whole.map fun r => (r.model, r.report),
        { s with passed := s.passed ++ sent }) ∧
    (∀ r, whole = .ok r → sent = r.executed) ∧
    (reader.Accepting → ∀ e, whole = .error e → sent = [])

theorem Follows.of_error {x : Step (Model × Report)}
    {whole : Except Error Introspection} {e : Error} (hwhole : whole = .error e)
    (hx : x.run.run s = (.error e, s)) : Follows reader s x whole := by
  subst hwhole
  refine ⟨[], ?_, fun r h => ?_, fun _ _ _ => rfl⟩
  · rw [hx, List.append_nil]
    rfl
  · cases h

theorem Follows.of_eq {x x' : Step (Model × Report)}
    {whole whole' : Except Error Introspection}
    (h : Follows reader s x whole) (hx : x'.run.run s = x.run.run s)
    (hwhole : whole' = whole) : Follows reader s x' whole' := by
  unfold Follows
  rw [hx, hwhole]
  exact h

/-- The end of an introspection, as a whole. -/
def completion (reader : Reader) (settings : Settings)
    (p : Introspection.Progress) (dropped : List String) :
    Except Error Introspection := do
  let m := (p.model.installSystemSchema settings.naming.systemSchema).2
  let statements := Introspection.valueMapStatements settings m
  if statements.isEmpty then return ⟨m, ⟨p.skipped, dropped, false⟩, []⟩
  statements.forM reader.execute
  let m ← Introspection.addValueMap m
  return ⟨m, ⟨p.skipped, dropped, true⟩, statements⟩

theorem complete_follows (settings : Settings) (p : Introspection.Progress)
    (dropped : List String) :
    Follows reader s (complete reader settings p dropped)
      (completion reader settings p dropped) := by
  unfold complete completion
  extract_lets m statements
  cases hempty : statements.isEmpty with
  | true =>
      refine ⟨[], ?_, fun r h => ?_, fun _ e h => ?_⟩
      · rw [List.append_nil]
        rfl
      · cases h
        rfl
      · cases h
  | false =>
      obtain ⟨sent, hrun, hsent⟩ := @passAll_run reader s statements
      obtain ⟨m', hm'⟩ := addValueMap_ok hempty
      simp only [Bool.false_eq_true, if_false]
      refine ⟨sent, ?_, ?_, ?_⟩
      · rw [ExceptT.run_bind, StateT.run_bind, hrun, hm']
        cases statements.forM reader.execute <;> rfl
      · intro r h
        obtain ⟨u, hu, h⟩ := bind_eq_ok.1 h
        rw [hm'] at h
        cases h
        exact hsent u hu
      · intro haccepting e h
        have hall : statements.forM reader.execute = .ok () :=
          forM_ok fun statement _ => haccepting statement
        rw [hall, hm'] at h
        cases h

theorem run_eq (settings : Settings) :
    Introspection.run reader settings =
      (Introspection.readStructure reader settings >>= fun base =>
        Introspection.attachAll reader settings base.1 >>= fun p =>
          completion reader settings p base.2) := by
  unfold Introspection.run completion
  exact bind_congr fun base => rfl

theorem introspect_follows (reader : Reader) (settings : Settings) :
    Follows reader s (introspect reader settings)
      (Introspection.run reader settings) := by
  rw [run_eq]
  unfold introspect
  cases hbase : Introspection.readStructure reader settings with
  | error e => exact .of_error rfl (lift_bind_run _ _)
  | ok base =>
      change Follows reader s _
        (Introspection.attachAll reader settings base.1 >>= _)
      refine Follows.of_eq ?_ (lift_bind_run _ _) rfl
      cases hp : Introspection.attachAll reader settings base.1 with
      | error e => exact .of_error rfl (lift_bind_run _ _)
      | ok p =>
          exact (complete_follows settings p base.2).of_eq (lift_bind_run _ _) rfl

theorem refresh_run (reader : Reader) (s : Machine)
    {result : Except Error Introspection}
    (hresult : Introspection.run reader s.settings = result) :
    ∃ sent, (refresh reader).run.run s =
        (match result with
          | .ok r => (.ok (), { s with
              models := s.models ++ [r.model]
              current := s.models.length
              version := s.version + 1
              lastReport := some r.report
              passed := s.passed ++ sent })
          | .error e => (.error e, { s with passed := s.passed ++ sent })) ∧
      (∀ r, result = .ok r → sent = r.executed) ∧
      (reader.Accepting → ∀ e, result = .error e → sent = []) := by
  obtain ⟨sent, hrun, hsent⟩ := introspect_follows (s := s) reader s.settings
  rw [hresult] at hrun hsent
  refine ⟨sent, ?_, hsent⟩
  unfold refresh
  rw [get_bind_run, ExceptT.run_bind, StateT.run_bind, hrun]
  cases result <;> rfl

theorem refresh_outcome (reader : Reader) (s : Machine) :
    ((refresh reader).run.run s).1 =
      (Introspection.run reader s.settings).map fun _ => () := by
  obtain ⟨sent, hrun, _⟩ := refresh_run reader s rfl
  rw [hrun]
  cases Introspection.run reader s.settings <;> rfl

/-- A refresh that fails changes nothing, but for statements that were passed to
a reader that does not accept all of them. -/
theorem next_of_error {reader : Reader} {s : Machine} {e : Error}
    (h : ((refresh reader).run.run s).1 = .error e) :
    ∃ sent, s.next reader = { s with passed := s.passed ++ sent } ∧
      (reader.Accepting → sent = []) := by
  obtain ⟨sent, hrun, _, herror⟩ := refresh_run reader s rfl
  unfold next
  rw [refresh_outcome] at h
  cases hresult : Introspection.run reader s.settings with
  | error e => exact ⟨sent, by rw [hrun, hresult], fun ha => herror ha e hresult⟩
  | ok r =>
      rw [hresult] at h
      cases h

/-- What is in a place stays there. -/
theorem next_place {place : Nat} {m : Model} (h : s.models[place]? = some m) :
    (s.next reader).models[place]? = some m := by
  obtain ⟨sent, hrun, _⟩ := refresh_run reader s rfl
  unfold next
  rw [hrun]
  cases Introspection.run reader s.settings with
  | error e => exact h
  | ok r =>
      have hplace := (List.getElem?_eq_some_iff.1 h).1
      exact (List.getElem?_append_left hplace).trans h

end Steps

theorem after_place {s : Machine} {place : Nat} {m : Model}
    (h : s.models[place]? = some m) (readers : List Reader) :
    (s.after readers).models[place]? = some m := by
  induction readers generalizing s with
  | nil => exact h
  | cons reader rest ih => exact ih (next_place h)

/-! ## Many refreshes -/

section Runs

variable (settings : Settings)

/-- The introspections of the refreshes that succeed. -/
def successes (readers : List Reader) : List Introspection :=
  readers.filterMap fun reader => (Introspection.run reader settings).toOption

/-- The model of the last of some introspections, and an empty one at first. -/
def latest (done : List Introspection) : Model :=
  (done.getLast?.map (·.model)).getD (.fresh settings.naming.systemSchema)

/-- The machine after some introspections were published. -/
def reached (done : List Introspection) (passed : List String) : Machine where
  settings := settings
  models := .fresh settings.naming.systemSchema :: done.map (·.model)
  current := done.length
  version := 1 + done.length
  lastReport := done.getLast?.map (·.report)
  passed := passed

variable {settings} {done : List Introspection} {passed : List String}

theorem reached_published :
    (reached settings done passed).models[done.length]? =
      some (latest settings done) := by
  rcases List.eq_nil_or_concat done with rfl | ⟨init, last, rfl⟩
  · rfl
  · simp [reached, latest]

theorem next_reached (reader : Reader) :
    ∃ sent, (reached settings done passed).next reader =
        reached settings (done ++ successes settings [reader])
          (passed ++ sent) ∧
      (reader.Accepting →
        sent = (successes settings [reader]).flatMap (·.executed)) := by
  obtain ⟨sent, hrun, hok, herror⟩ := refresh_run
    reader (reached settings done passed) rfl
  change (∀ r, Introspection.run reader settings = .ok r → _) at hok
  change (_ → ∀ e, Introspection.run reader settings = .error e → _) at herror
  refine ⟨sent, ?_, fun haccepting => ?_⟩
  · unfold next
    rw [hrun]
    change (match Introspection.run reader settings with
      | .ok r => _
      | .error e => _ : Except Error Unit × Machine).2 = _
    unfold successes
    cases hresult : Introspection.run reader settings with
    | error e => simp [reached, hresult, Except.toOption]
    | ok r =>
        simp [reached, hresult, Except.toOption]
        omega
  · unfold successes
    cases hresult : Introspection.run reader settings with
    | error e => simp [herror haccepting e hresult, hresult, Except.toOption]
    | ok r => simp [hok r hresult, hresult, Except.toOption]

theorem successes_append (readers later : List Reader) :
    successes settings (readers ++ later) =
      successes settings readers ++ successes settings later :=
  List.filterMap_append

theorem after_reached (readers : List Reader) :
    ∃ sent, (reached settings done passed).after readers =
        reached settings (done ++ successes settings readers)
          (passed ++ sent) ∧
      ((∀ reader ∈ readers, reader.Accepting) →
        sent = (successes settings readers).flatMap (·.executed)) := by
  induction readers generalizing done passed with
  | nil => exact ⟨[], by simp [after, successes], fun _ => rfl⟩
  | cons reader rest ih =>
      obtain ⟨sent, hnext, hsent⟩ :=
        @next_reached settings done passed reader
      obtain ⟨later, hafter, hlater⟩ := @ih
        (done ++ successes settings [reader]) (passed ++ sent)
      rw [List.append_assoc, ← successes_append, List.append_assoc] at hafter
      refine ⟨sent ++ later, ?_, fun haccepting => ?_⟩
      · unfold after at hafter ⊢
        rw [List.foldl_cons, hnext, hafter, List.singleton_append]
      · obtain ⟨hfirst, hrest⟩ := List.forall_mem_cons.1 haccepting
        rw [← List.singleton_append, successes_append, List.flatMap_append,
          hsent hfirst, hlater hrest]

/-- The catalog after some introspections were published. -/
def catalogAt (settings : Settings) (done : List Introspection) : Catalog where
  settings := settings
  cell := ⟨1 + done.length, latest settings done⟩
  lastReport := done.getLast?.map (·.report)

theorem catalogAt_refreshed (reader : Reader) :
    (catalogAt settings done).refreshed reader =
      catalogAt settings (done ++ successes settings [reader]) := by
  have hrefresh : (catalogAt settings done).refresh reader =
      (Introspection.run reader settings).map fun r =>
        ⟨settings, ⟨1 + done.length + 1, r.model⟩, some r.report⟩ := by
    unfold Catalog.refresh
    change Introspection.run reader settings >>= _ = _
    cases Introspection.run reader settings <;> rfl
  unfold Catalog.refreshed successes
  rw [hrefresh]
  cases hresult : Introspection.run reader settings with
  | error e => simp [hresult, Except.toOption, Except.map]
  | ok r =>
      simp [hresult, Except.toOption, Except.map, catalogAt, latest]
      omega

theorem catalogAt_after (readers : List Reader) :
    (catalogAt settings done).after readers =
      catalogAt settings (done ++ successes settings readers) := by
  induction readers generalizing done with
  | nil => simp [Catalog.after, successes]
  | cons reader rest ih =>
      have hrest := @ih (done ++ successes settings [reader])
      rw [List.append_assoc, ← successes_append] at hrest
      unfold Catalog.after at hrest ⊢
      rw [List.foldl_cons, catalogAt_refreshed, hrest, List.singleton_append]

end Runs

/-- Refreshes are all or nothing, in any number and with readers of any kind.
What the catalog publishes is from the refreshes that succeeded, the last of
which gave the model and the report; a refresh that fails leaves all as it was,
and has passed no statement to a reader that accepts statements; and snapshots
that were taken are never touched. -/
theorem refreshes_all_or_nothing (settings : Settings) (readers : List Reader) :
    let s := (start settings).after readers
    let done := successes settings readers
    s.catalog? = some ((Catalog.fresh settings).after readers) ∧
      s.version = 1 + done.length ∧
      s.models[s.current]? = some (latest settings done) ∧
      s.lastReport = done.getLast?.map (·.report) ∧
      ((∀ reader ∈ readers, reader.Accepting) →
        s.passed = done.flatMap (·.executed)) ∧
      (∀ reader, ((refresh reader).run.run s).1 =
        (Introspection.run reader settings).map fun _ => ()) ∧
      (∀ reader e, ((refresh reader).run.run s).1 = .error e →
        ∃ sent, s.next reader = { s with passed := s.passed ++ sent } ∧
          (reader.Accepting → sent = [])) ∧
      ∀ (place : Nat) (m : Model), s.models[place]? = some m →
        ∀ later, (s.after later).models[place]? = some m := by
  intro s done
  obtain ⟨passed, hs, hpassed⟩ : ∃ passed, s = reached settings done passed ∧
      ((∀ reader ∈ readers, reader.Accepting) →
        passed = done.flatMap (·.executed)) :=
    @after_reached settings [] [] readers
  have hcatalog : (Catalog.fresh settings).after readers =
      catalogAt settings done := @catalogAt_after settings [] readers
  have hpublished : s.models[s.current]? = some (latest settings done) := by
    rw [hs]
    exact reached_published
  refine ⟨?_, by rw [hs]; rfl, hpublished, by rw [hs]; rfl, fun h => ?_,
    fun reader => ?_, fun _ _ => next_of_error, fun _ _ h => after_place h⟩
  · rw [catalog?, hpublished, hcatalog, hs]
    rfl
  · rw [hs]
    exact hpassed h
  · rw [refresh_outcome, hs]
    rfl

/-- A diary with a key on a column that it does not have. -/
def torn : Reader :=
  { Catalog.diary with
    uniques := .ok
      [⟨⟨"home", "diary_key"⟩, ⟨"home", "diary"⟩, ["page"], none⟩] }

theorem refreshes_all_or_nothing_diary :
    let s := (start .standard).after [Catalog.diary, torn]
    let done := successes .standard [Catalog.diary, torn]
    done.length = 1 ∧ s.version = 2 ∧ s.passed = done.flatMap (·.executed) ∧
      s.passed.isEmpty = false ∧
      (∃ e, ((refresh torn).run.run s).1 = .error e) ∧
      s.next torn = s ∧
      ∀ later, (s.after later).models[0]? =
        some (.fresh Settings.standard.naming.systemSchema) := by
  intro s done
  obtain ⟨_, hversion, _, _, hpassed, houtcome, herror, hplace⟩ :=
    refreshes_all_or_nothing .standard [Catalog.diary, torn]
  have hlength : done.length = 1 := by decide +kernel
  have haccepting : ∀ reader ∈ [Catalog.diary, torn], reader.Accepting := by
    simp [Reader.Accepting, Catalog.diary, torn]
  have hfails : (Introspection.run torn .standard).toOption.isNone = true := by
    decide +kernel
  obtain ⟨e, he⟩ : ∃ e, ((refresh torn).run.run s).1 = .error e := by
    rw [houtcome]
    cases hrun : Introspection.run torn .standard with
    | error e => exact ⟨e, rfl⟩
    | ok r =>
        rw [hrun] at hfails
        cases hfails
  obtain ⟨sent, hnext, hsent⟩ := herror torn e he
  rw [hsent (haccepting torn (by simp)), List.append_nil] at hnext
  refine ⟨hlength, ?_, hpassed haccepting, by decide +kernel, ⟨e, he⟩, hnext,
    hplace 0 _ ?_⟩
  · rw [hversion, hlength]
  · exact after_place rfl _

end Machine

end GovernedCatalog
