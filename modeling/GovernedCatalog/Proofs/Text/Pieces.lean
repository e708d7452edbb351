import Mathlib.Data.List.TakeWhile
import GovernedCatalog.Text.Character
import GovernedCatalog.Text.Search

/-!
# Lists in one line

Texts that are joined by a comma and a blank are found again between the commas,
without the blanks around them, if no text has a comma or begins or ends with a
blank.
-/

namespace GovernedCatalog.Text

section Trim

variable {cs : List Char}

theorem trim_cons_blank (hc : isBlank c = true) (cs : List Char) :
    trim (c :: cs) = trim cs := by
  unfold trim
  rw [List.dropWhile_cons_of_pos hc]

theorem trim_of_forall (h : ∀ c ∈ cs, isBlank c = false) : trim cs = cs := by
  have hdrop {cs : List Char} (h : ∀ c ∈ cs, isBlank c = false) :
      cs.dropWhile isBlank = cs := by
    cases cs with
    | nil => rfl
    | cons c rest =>
      exact List.dropWhile_cons_of_neg (by simp [h c List.mem_cons_self])
  unfold trim
  rw [hdrop h, hdrop fun c hc => h c (List.mem_reverse.1 hc), List.reverse_reverse]

/-- Trimming takes blanks only. -/
theorem mem_trim {c : Char} (hc : isBlank c = false) (h : c ∈ cs) : c ∈ trim cs := by
  have hdrop {cs : List Char} (h : c ∈ cs) : c ∈ cs.dropWhile isBlank := by
    rw [← List.takeWhile_append_dropWhile (p := isBlank) (l := cs)] at h
    refine (List.mem_append.1 h).resolve_left fun h => ?_
    rw [List.mem_takeWhile_imp h] at hc
    cases hc
  unfold trim
  exact List.mem_reverse.2 (hdrop (List.mem_reverse.2 (hdrop h)))

/-- The text is what is left when it is trimmed, and there is something. -/
def IsTrimmed (cs : List Char) : Prop :=
  ∃ first last, cs.head? = some first ∧ isBlank first = false ∧
    cs.getLast? = some last ∧ isBlank last = false

theorem IsTrimmed.ne_nil (h : IsTrimmed cs) : cs ≠ [] := by
  rintro rfl
  obtain ⟨_, _, h, -⟩ := h
  cases h

theorem IsTrimmed.of_forall (hne : cs ≠ []) (h : ∀ c ∈ cs, isBlank c = false) :
    IsTrimmed cs :=
  ⟨cs.head hne, cs.getLast hne, List.head?_eq_some_head hne, h _ (List.head_mem hne),
    List.getLast?_eq_some_getLast hne, h _ (List.getLast_mem hne)⟩

/-- What follows a text decides how it ends. -/
theorem IsTrimmed.append {tail : List Char} {last : Char} (h : IsTrimmed cs)
    (hlast : tail.getLast? = some last) (hblank : isBlank last = false) :
    IsTrimmed (cs ++ tail) := by
  obtain ⟨first, -, hfirst, hblank', -⟩ := h
  refine ⟨first, last, ?_, hblank', ?_, hblank⟩
  · rw [List.head?_append, hfirst, Option.some_or]
  · rw [List.getLast?_append, hlast, Option.some_or]

theorem IsTrimmed.trim (h : IsTrimmed cs) : Text.trim cs = cs := by
  obtain ⟨first, last, hfirst, hblank, hlast, hblank'⟩ := h
  have hdrop {c : Char} {cs : List Char} (hhead : cs.head? = some c)
      (hc : isBlank c = false) : cs.dropWhile isBlank = cs := by
    obtain ⟨rest, rfl⟩ := List.head?_eq_some_iff.1 hhead
    exact List.dropWhile_cons_of_neg (by simp [hc])
  unfold Text.trim
  rw [hdrop hfirst hblank, hdrop (List.head?_reverse.trans hlast) hblank',
    List.reverse_reverse]

end Trim

section Split

variable {separator : Char} {cs : List Char}

theorem splitOn_of_not_mem (h : separator ∉ cs) : splitOn separator cs = [cs] := by
  induction cs with
  | nil => rfl
  | cons c cs ih =>
    obtain ⟨hc, hcs⟩ := not_or.1 (mt List.mem_cons.2 h)
    rw [splitOn, if_neg (Ne.symm hc), ih hcs]

theorem splitOn_append (h : separator ∉ cs) (rest : List Char) :
    splitOn separator (cs ++ separator :: rest) = cs :: splitOn separator rest := by
  induction cs with
  | nil => rw [List.nil_append, splitOn, if_pos rfl]
  | cons c cs ih =>
    obtain ⟨hc, hcs⟩ := not_or.1 (mt List.mem_cons.2 h)
    rw [List.cons_append, splitOn, if_neg (Ne.symm hc), ih hcs]

theorem length_splitOn (separator : Char) (cs : List Char) :
    (splitOn separator cs).length = cs.count separator + 1 := by
  induction cs with
  | nil => rfl
  | cons c cs ih =>
    rw [splitOn]
    split
    · next hc => simp [hc, ih]
    · next hc =>
      have hcount : (c :: cs).count separator = cs.count separator := by
        simp [hc]
      rw [hcount, ← ih]
      split
      · next hnil => simp [hnil] at ih
      · next hcons => simp [hcons]

end Split

/-- The texts between the commas. -/
def listed (cs : List Char) : List String :=
  (splitOn ',' cs).map fun piece => String.ofList (trim piece)

theorem length_listed (cs : List Char) :
    (listed cs).length = cs.count ',' + 1 := by
  rw [listed, List.length_map, length_splitOn]

theorem listed_cons_blank {c : Char} (hc : isBlank c = true) (hcomma : c ≠ ',')
    (cs : List Char) : listed (c :: cs) = listed cs := by
  unfold listed
  rw [splitOn, if_neg hcomma]
  split
  · next hnil =>
    have hlength := length_splitOn ',' cs
    simp [hnil] at hlength
  · next piece pieces hsplit => simp [hsplit, trim_cons_blank hc]

theorem join_cons_of_ne_nil (separator s : String) {rest : List String}
    (h : rest ≠ []) : join separator (s :: rest) = s ++ separator ++ join separator rest := by
  cases rest with
  | nil => exact absurd rfl h
  | cons s' rest => rfl

theorem mem_join {separator : String} {texts : List String} {c : Char}
    (h : c ∈ (join separator texts).toList) :
    c ∈ separator.toList ∨ ∃ s ∈ texts, c ∈ s.toList := by
  induction texts with
  | nil => cases h
  | cons s rest ih =>
    by_cases hrest : rest = []
    · subst hrest
      exact .inr ⟨s, List.mem_cons_self, h⟩
    · rw [join_cons_of_ne_nil _ _ hrest, String.toList_append, String.toList_append] at h
      rcases List.mem_append.1 h with h | h
      · exact (List.mem_append.1 h).elim
          (fun h => .inr ⟨s, List.mem_cons_self, h⟩) .inl
      · exact (ih h).imp_right fun ⟨t, ht, hc⟩ => ⟨t, List.mem_cons_of_mem s ht, hc⟩

/-- The text is one of a list. -/
structure IsListed (s : String) : Prop where
  trimmed : IsTrimmed s.toList
  unbroken : ',' ∉ s.toList

/-- A list is found again, its last text with what follows it. -/
theorem listed_join {init : List String} {last tail : String}
    (hinit : ∀ s ∈ init, IsListed s) (hlast : IsListed (last ++ tail)) :
    listed (join ", " (init ++ [last]) ++ tail).toList = init ++ [last ++ tail] := by
  induction init with
  | nil =>
    rw [List.nil_append, List.nil_append, join, listed,
      splitOn_of_not_mem hlast.unbroken, List.map_singleton, hlast.trimmed.trim,
      String.ofList_toList]
  | cons s init ih =>
    obtain ⟨hs, hinit⟩ := List.forall_mem_cons.1 hinit
    have htext : (join ", " (s :: (init ++ [last])) ++ tail).toList =
        s.toList ++ ',' :: ' ' :: (join ", " (init ++ [last]) ++ tail).toList := by
      rw [join_cons_of_ne_nil _ _ (by simp)]
      simp
    have hblank := listed_cons_blank (c := ' ') (by decide) (by decide)
      (join ", " (init ++ [last]) ++ tail).toList
    rw [List.cons_append, htext, List.cons_append, ← ih hinit, ← hblank]
    simp [listed, splitOn_append hs.unbroken, hs.trimmed.trim]

/-- A joined text has the commas of each of its texts, and those between them. -/
theorem length_add_count_le {texts : List String} {s : String} (h : s ∈ texts) :
    texts.length + s.toList.count ',' ≤ (join ", " texts).toList.count ',' + 1 := by
  induction texts generalizing s with
  | nil => cases h
  | cons head rest ih =>
    by_cases hrest : rest = []
    · rw [hrest, List.mem_singleton] at h
      subst hrest h
      exact (Nat.add_comm 1 _).le
    · rw [join_cons_of_ne_nil _ _ hrest]
      have hseparator : ", ".toList.count ',' = 1 := by decide
      simp only [String.toList_append, List.count_append, hseparator, List.length_cons]
      rcases List.mem_cons.1 h with rfl | h
      · obtain ⟨next, hnext⟩ := List.exists_mem_of_ne_nil rest hrest
        have := ih hnext
        omega
      · have := ih h
        omega

/-- As many texts as commas and one more means that no text has a comma. -/
theorem unbroken_of_length {texts : List String}
    (h : texts.length = (join ", " texts).toList.count ',' + 1) :
    ∀ s ∈ texts, ',' ∉ s.toList := by
  intro s hs
  have hle := length_add_count_le hs
  rw [← List.count_eq_zero]
  omega

end GovernedCatalog.Text
