import GovernedCatalog.Json.Decode
import GovernedCatalog.Proofs.Ordered.Map

/-!
# Reading what was written

A record is read back from the object that was written of its fields, and a list
or a map from what was written of its items.  Fields that no reader asks for may
stand beside them.
-/

namespace GovernedCatalog.Json

/-! ## Lists -/

section Lists

variable {α β γ : Type} {decode : α → Option β} {write : γ → α} {read : γ → β}

theorem mapM_map_eq_some {l : List γ}
    (h : ∀ a ∈ l, decode (write a) = some (read a)) :
    (l.map write).mapM decode = some (l.map read) := by
  induction l with
  | nil => rfl
  | cons a rest ih =>
    obtain ⟨hfirst, hrest⟩ := List.forall_mem_cons.1 h
    rw [List.map_cons, List.mapM_cons, hfirst, ih hrest]
    rfl

theorem mapM_perm {l l' : List α} (h : l.Perm l') {found : List β}
    (hread : l.mapM decode = some found) :
    ∃ found', l'.mapM decode = some found' ∧ found.Perm found' := by
  induction h generalizing found with
  | nil => exact ⟨found, hread, .refl _⟩
  | cons a _ ih =>
    rw [List.mapM_cons] at hread ⊢
    obtain ⟨b, hb, hread⟩ := Option.bind_eq_some_iff.1 hread
    obtain ⟨others, hothers, hread⟩ := Option.bind_eq_some_iff.1 hread
    cases hread
    obtain ⟨others', hothers', hperm⟩ := ih hothers
    exact ⟨b :: others', by rw [hb, hothers']; rfl, hperm.cons b⟩
  | swap a a' l =>
    simp only [List.mapM_cons] at hread ⊢
    obtain ⟨b', hb', hread⟩ := Option.bind_eq_some_iff.1 hread
    obtain ⟨rest, hrest, hread⟩ := Option.bind_eq_some_iff.1 hread
    obtain ⟨b, hb, hrest⟩ := Option.bind_eq_some_iff.1 hrest
    obtain ⟨others, hothers, hrest⟩ := Option.bind_eq_some_iff.1 hrest
    cases hrest
    cases hread
    exact ⟨b :: b' :: others, by rw [hb, hb', hothers]; rfl, .swap ..⟩
  | trans _ _ ih ih' =>
    obtain ⟨found', hread', hperm⟩ := ih hread
    obtain ⟨found'', hread'', hperm'⟩ := ih' hread'
    exact ⟨found'', hread'', hperm.trans hperm'⟩

end Lists

theorem asList_arr {α β : Type} {decode : Json → Option α} {write : β → Json}
    {read : β → α} {l : List β}
    (h : ∀ a ∈ l, decode (write a) = some (read a)) :
    asList decode (arr (l.map write)) = some (l.map read) :=
  mapM_map_eq_some h

theorem asStrings_strings (texts : List String) :
    asStrings (strings texts) = some texts := by
  have hread : asStrings (strings texts) = some (texts.map id) :=
    asList_arr fun _ _ => rfl
  rwa [List.map_id] at hread

/-! ## Fields -/

theorem field?_eq_some_iff {fields : List (String × Json)}
    (h : (fields.map Prod.fst).Nodup) {name : String} {j : Json} :
    field? fields name = some j ↔ (name, j) ∈ fields := by
  unfold field?
  rw [Option.map_eq_some_iff]
  constructor
  · rintro ⟨⟨k, j⟩, hfind, rfl⟩
    have hname : k = name := by simpa using List.find?_some hfind
    exact hname ▸ List.mem_of_find?_eq_some hfind
  · intro hmem
    refine ⟨(name, j), ?_, rfl⟩
    cases hfind : fields.find? fun e => e.1 == name with
    | none =>
      have hne := List.find?_eq_none.1 hfind _ hmem
      simp at hne
    | some e =>
      have hname : e.1 = name := by simpa using List.find?_some hfind
      have he := List.mem_of_find?_eq_some hfind
      exact congrArg some (List.inj_on_of_nodup_map h he hmem hname)

theorem length_filter_key_le {fields : List (String × Json)}
    (h : (fields.map Prod.fst).Nodup) (name : String) :
    (fields.filter fun e => e.1 == name).length ≤ 1 := by
  have hcount := List.nodup_iff_count_le_one.1 h name
  rwa [List.count, List.countP_map, List.countP_eq_length_filter] at hcount

theorem mem_sortFields_iff {fields : List (String × Json)}
    (h : (fields.map Prod.fst).Nodup) {e : String × Json} :
    e ∈ sortFields fields ↔ e ∈ fields :=
  (SortedMap.entries_ofList_perm h).mem_iff

/-- The fields of an object that was written of fields with different names. -/
theorem objectFields_object (names : List String) {fields : List (String × Json)}
    (h : (fields.map Prod.fst).Nodup) :
    objectFields names (object fields) = some (field? fields) := by
  have hkeys := (SortedMap.ofList fields).nodup_keys
  have hlength : (names.all fun name => decide
      (((sortFields fields).filter fun e => e.1 == name).length ≤ 1)) = true := by
    rw [List.all_eq_true]
    intro name _
    exact decide_eq_true (length_filter_key_le hkeys name)
  refine (if_pos hlength).trans (congrArg some (funext fun name => ?_))
  refine Option.ext fun j => ?_
  unfold sortFields
  rw [field?_eq_some_iff hkeys, field?_eq_some_iff h,
    ← SortedMap.get?_eq_some_iff, SortedMap.get?_ofList h]

theorem object_entries (m : SortedMap String Json) :
    object m.entries = ofMap m := by
  unfold object sortFields
  rw [m.ofList_entries]
  rfl

theorem recordFields_object (names : List String) {fields : List (String × Json)}
    (h : (fields.map Prod.fst).Nodup) :
    recordFields names (object fields) = some (field? fields) :=
  objectFields_object names h

namespace Fields

variable {α : Type} {fields : Fields} {name : String} {decode : Json → Option α}
  {j : Json} {a : α}

theorem required_eq_some (hget : fields name = some j) (hj : decode j = some a) :
    fields.required name decode = some a := by
  unfold required
  rw [hget]
  exact hj

theorem withDefault_eq_some (default : α) (hget : fields name = some j)
    (hj : decode j = some a) :
    fields.withDefault name default decode = some a := by
  unfold withDefault
  rw [hget]
  exact hj

theorem optional_eq_some (hget : fields name = some j) (hj : decode j = some a)
    (hnull : j.isNull = false) : fields.optional name decode = some (some a) := by
  unfold optional asNullable
  rw [hget]
  cases j with
  | null => cases hnull
  | _ => exact congrArg (Option.map some) hj

theorem optional_null (hget : fields name = some .null) :
    fields.optional name decode = some none := by
  unfold optional
  rw [hget]
  rfl

theorem optional_absent (hget : fields name = none) :
    fields.optional name decode = some none := by
  unfold optional
  rw [hget]

theorem optional_str {text : String} (hget : fields name = some (.str text)) :
    fields.optional name asString = some (some text) :=
  optional_eq_some hget rfl rfl

theorem optional_text {text? : Option String}
    (hget : fields name = some (Json.optional text?)) :
    fields.optional name asString = some text? := by
  cases text? with
  | none => exact optional_null hget
  | some text => exact optional_str hget

end Fields

/-! ## Maps -/

section Maps

variable {ι κ α : Type} {key : String → Option κ} {decode : Json → Option α}

section Entries

variable {l : List ι} {write : ι → String × Json} {read : ι → κ × α}
  (h : ∀ a ∈ l,
    key (write a).1 = some (read a).1 ∧ decode (write a).2 = some (read a).2)

include h

theorem asEntries_obj :
    asEntries key decode (obj (l.map write)) = some (l.map read) := by
  refine mapM_map_eq_some fun a ha => ?_
  obtain ⟨hkey, hdecode⟩ := h a ha
  exact Option.bind_eq_some_iff.2 ⟨_, hkey,
    Option.bind_eq_some_iff.2 ⟨_, hdecode, rfl⟩⟩

/-- The entries of an object are those that it was written of, in the order of
their names. -/
theorem asEntries_object (hnodup : ((l.map write).map Prod.fst).Nodup) :
    ∃ found, asEntries key decode (object (l.map write)) = some found ∧
      found.Perm (l.map read) := by
  obtain ⟨found, hread, hperm⟩ := mapM_perm
    (SortedMap.entries_ofList_perm hnodup).symm (asEntries_obj h)
  exact ⟨found, hread, hperm.symm⟩

end Entries

theorem asMap_ofMap {m : SortedMap String ι} {write : ι → Json} {read : ι → α}
    (h : ∀ a ∈ m.values, decode (write a) = some (read a)) :
    asMap decode (ofMap (m.mapValues fun _ => write)) =
      some (m.mapValues fun _ => read) := by
  have hentries : asEntries some decode (ofMap (m.mapValues fun _ => write)) =
      some (m.mapValues fun _ => read).entries :=
    asEntries_obj fun e he => ⟨rfl, h e.2 (List.mem_map_of_mem he)⟩
  unfold asMap
  rw [hentries, Option.map_some, SortedMap.ofList_entries]

end Maps

end GovernedCatalog.Json
