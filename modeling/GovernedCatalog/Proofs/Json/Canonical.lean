import GovernedCatalog.Json.Decode
import GovernedCatalog.Proofs.Ordered.Map

/-!
# Canonical values

A value that is in canonical form already stays as it is when it is read.  All
values that are read have that form, in lists, maps and records as well.
-/

namespace GovernedCatalog.Json

/-- The value is in canonical form already. -/
def IsCanonical (j : Json) : Prop := j.canonical = j

theorem isCanonical_bool (b : Bool) : (bool b).IsCanonical := rfl

theorem isCanonical_str (s : String) : (str s).IsCanonical := rfl

theorem IsCanonical.asAny {j : Json} (h : j.IsCanonical) : asAny j = some j :=
  congrArg some h

theorem canonicalItems_eq_self {items : List Json}
    (h : ∀ j ∈ items, j.IsCanonical) : canonicalItems items = items := by
  induction items with
  | nil => rfl
  | cons j rest ih =>
    obtain ⟨hfirst, hrest⟩ := List.forall_mem_cons.1 h
    rw [canonicalItems, hfirst, ih hrest]

theorem canonicalFields_eq_self {fields : List (String × Json)}
    (h : ∀ e ∈ fields, e.2.IsCanonical) : canonicalFields fields = fields := by
  induction fields with
  | nil => rfl
  | cons e rest ih =>
    obtain ⟨hfirst, hrest⟩ := List.forall_mem_cons.1 h
    rw [canonicalFields, hfirst, ih hrest]

theorem mem_of_mem_sortFields {fields : List (String × Json)}
    {e : String × Json} (he : e ∈ sortFields fields) : e ∈ fields := by
  obtain he | he := SortedMap.mem_of_mem_foldl_insert he
  · cases he
  · exact he

theorem object_isCanonical {fields : List (String × Json)}
    (h : ∀ e ∈ fields, e.2.IsCanonical) : (object fields).IsCanonical := by
  have hfields : ∀ e ∈ sortFields fields, e.2.IsCanonical :=
    fun e he => h e (mem_of_mem_sortFields he)
  unfold IsCanonical object
  rw [canonical, canonicalFields_eq_self hfields]
  exact congrArg (obj ∘ SortedMap.entries) (SortedMap.ofList_entries _)

mutual

theorem canonical_isCanonical : ∀ j : Json, j.canonical.IsCanonical
  | null | bool _ | int _ | real _ | str _ => rfl
  | arr items =>
    congrArg arr (canonicalItems_eq_self (canonicalItems_isCanonical items))
  | obj fields => object_isCanonical (canonicalFields_isCanonical fields)

theorem canonicalItems_isCanonical :
    ∀ items : List Json, ∀ j ∈ canonicalItems items, j.IsCanonical
  | [], _, hj => by cases hj
  | first :: rest, j, hj => by
    rcases List.mem_cons.1 hj with rfl | hj
    · exact canonical_isCanonical first
    · exact canonicalItems_isCanonical rest j hj

theorem canonicalFields_isCanonical :
    ∀ fields : List (String × Json), ∀ e ∈ canonicalFields fields,
      e.2.IsCanonical
  | [], _, he => by cases he
  | (_, first) :: rest, e, he => by
    rcases List.mem_cons.1 he with rfl | he
    · exact canonical_isCanonical first
    · exact canonicalFields_isCanonical rest e he

end

/-! ## What is read -/

/-- Whatever the decoder reads has the property. -/
def ReadsOnly {α : Type} (decode : Json → Option α) (P : α → Prop) : Prop :=
  ∀ j a, decode j = some a → P a

theorem readsOnly_asAny : ReadsOnly asAny IsCanonical := by
  intro j a h
  cases h
  exact canonical_isCanonical j

theorem forall_of_mapM {α β : Type} {decode : α → Option β} {P : β → Prop}
    (h : ∀ a b, decode a = some b → P b) {l : List α} {found : List β}
    (hread : l.mapM decode = some found) : ∀ b ∈ found, P b := by
  induction l generalizing found with
  | nil =>
    cases hread
    exact fun b hb => absurd hb List.not_mem_nil
  | cons a rest ih =>
    rw [List.mapM_cons] at hread
    obtain ⟨first, hfirst, hread⟩ := Option.bind_eq_some_iff.1 hread
    obtain ⟨others, hothers, hread⟩ := Option.bind_eq_some_iff.1 hread
    cases hread
    exact List.forall_mem_cons.2 ⟨h a first hfirst, ih hothers⟩

namespace ReadsOnly

variable {α : Type} {decode : Json → Option α} {P : α → Prop}
  (h : ReadsOnly decode P)

include h

theorem asList : ReadsOnly (Json.asList decode) fun l => ∀ a ∈ l, P a := by
  intro j l hread
  cases j with
  | arr items => exact forall_of_mapM h hread
  | _ => cases hread

theorem asMap :
    ReadsOnly (Json.asMap decode) fun m => ∀ a ∈ m.values, P a := by
  intro j m hread
  obtain ⟨entries, hentries, rfl⟩ := Option.map_eq_some_iff.1 hread
  have hvalues : ∀ e ∈ entries, P e.2 := by
    cases j with
    | obj fields =>
      refine forall_of_mapM (fun (k, j) e he => ?_) hentries
      obtain ⟨k', hk, he⟩ := Option.bind_eq_some_iff.1 he
      obtain ⟨a, ha, he⟩ := Option.bind_eq_some_iff.1 he
      cases he
      exact h j a ha
    | _ => cases hentries
  intro a ha
  obtain ⟨e, he, rfl⟩ := List.mem_map.1 ha
  obtain he | he := SortedMap.mem_of_mem_foldl_insert he
  · cases he
  · exact hvalues e he

variable {fields : Fields} {name : String} {default : α} {a : α}

theorem withDefault (hdefault : P default)
    (hread : fields.withDefault name default decode = some a) : P a := by
  unfold Fields.withDefault at hread
  cases hget : fields name with
  | none =>
    rw [hget] at hread
    cases hread
    exact hdefault
  | some j =>
    rw [hget] at hread
    exact h j a hread

theorem required (hread : fields.required name decode = some a) : P a := by
  obtain ⟨j, -, hj⟩ := Option.bind_eq_some_iff.1 hread
  exact h j a hj

theorem optional {a? : Option α}
    (hread : fields.optional name decode = some a?) : ∀ a, a? = some a → P a := by
  rintro a rfl
  unfold Fields.optional at hread
  cases hget : fields name with
  | none =>
    rw [hget] at hread
    cases hread
  | some j =>
    rw [hget] at hread
    cases j with
    | null => cases hread
    | _ =>
      obtain ⟨a', ha', heq⟩ := Option.map_eq_some_iff.1 hread
      cases heq
      exact h _ a ha'

end ReadsOnly

end GovernedCatalog.Json
