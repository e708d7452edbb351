import GovernedCatalog.Json.Printer
import GovernedCatalog.Json.Reader
import GovernedCatalog.Proofs.Decimal.Reading
import GovernedCatalog.Proofs.Json.Canonical
import GovernedCatalog.Proofs.Text.Pieces

/-!
# Texts of values

The compact text of a value stands on one line.  A value in canonical form is
read back from it if its numbers are whole and in range and it does not nest too
deep; fractions are read with some loss.
-/

namespace GovernedCatalog.Json

/-- No value begins with a capital letter. -/
theorem read?_capital {text : String} (h : text.toList.head? = some 'A') :
    read? text = none := by
  obtain ⟨rest, htext⟩ := List.head?_eq_some_iff.1 h
  have hnumber : readNumber ('A' :: rest) = none := by
    simp [readNumber, readUnsigned]
  unfold read? ofText?
  simp [htext, readValue, skipSpace, isSpace, hnumber]

/-! ## One line -/

theorem newline_not_mem_escapeControl :
    ∀ n < 0x20, '\n' ∉ escapeChar (Char.ofNat n) := by decide +kernel

theorem newline_not_mem_escapeChar (c : Char) : '\n' ∉ escapeChar c := by
  by_cases hcontrol : c.toNat < 0x20
  · simpa using newline_not_mem_escapeControl c.toNat hcontrol
  · have hc : '\n' ≠ c := by
      rintro rfl
      exact hcontrol (by decide)
    unfold escapeChar
    split_ifs <;> simp [hc]

theorem newline_not_mem_quoted (s : String) : '\n' ∉ (quoted s).toList := by
  simp [quoted, newline_not_mem_escapeChar]

theorem newline_not_mem_writeReal (x : Float) : '\n' ∉ (writeReal x).toList := by
  unfold writeReal
  split
  · decide
  · intro h
    rcases Decimal.Layout.uses_of_mem_write h with h | h | h
    · cases h
    · exact absurd h (by decide)
    · exact absurd h (by decide)

theorem newline_not_mem_int (n : Int) : '\n' ∉ (toString n).toList := by
  intro h
  rcases Decimal.mem_toString_int h with h | h
  · cases h
  · cases h

theorem newline_not_mem_join {separator : String} {texts : List String}
    (hseparator : '\n' ∉ separator.toList) (h : ∀ s ∈ texts, '\n' ∉ s.toList) :
    '\n' ∉ (Text.join separator texts).toList := fun hmem =>
  (Text.mem_join hmem).elim hseparator fun ⟨s, hs, hmem⟩ => h s hs hmem

mutual

theorem newline_not_mem_write : ∀ v : Json, '\n' ∉ v.write.toList
  | null | bool true | bool false => by decide
  | int n => newline_not_mem_int n
  | real x => newline_not_mem_writeReal x
  | str s => newline_not_mem_quoted s
  | arr items => by
    have hitems := newline_not_mem_join (by decide : '\n' ∉ ",".toList)
      (newline_not_mem_writeItems items)
    simpa [write] using hitems
  | obj fields => by
    have hfields := newline_not_mem_join (by decide : '\n' ∉ ",".toList)
      (newline_not_mem_writeFields fields)
    simpa [write] using hfields

theorem newline_not_mem_writeItems :
    ∀ items : List Json, ∀ s ∈ writeItems items, '\n' ∉ s.toList
  | [], _, hs => by cases hs
  | first :: rest, s, hs => by
    rcases List.mem_cons.1 hs with rfl | hs
    · exact newline_not_mem_write first
    · exact newline_not_mem_writeItems rest s hs

theorem newline_not_mem_writeFields :
    ∀ fields : List (String × Json), ∀ s ∈ writeFields fields, '\n' ∉ s.toList
  | [], _, hs => by cases hs
  | (key, first) :: rest, s, hs => by
    rcases List.mem_cons.1 hs with rfl | hs
    · have hkey := newline_not_mem_quoted key
      have hfirst := newline_not_mem_write first
      simpa [hkey] using hfirst
    · exact newline_not_mem_writeFields rest s hs

end

/-! ## Texts in quotes -/

/-- What stands for a character between quotes. -/
inductive Escaped (c : Char) : List Char → Prop where
  | simple {e : Char} (h : simpleEscape? e = some c) : Escaped c ['\\', e]
  | control (h : c.toNat < 0x20) : Escaped c ('\\' :: 'u' :: controlDigits c.toNat)
  | plain (hquote : c ≠ '"') (hslash : c ≠ '\\') (h : ¬c.toNat < 0x20) : Escaped c [c]

theorem escapeChar_escaped (c : Char) : Escaped c (escapeChar c) := by
  have hchar {n : Nat} (h : c.toNat = n) : some (Char.ofNat n) = some c := by
    rw [← h, Char.ofNat_toNat]
  unfold escapeChar
  split_ifs with hquote hslash hback hfeed hline hreturn htab hcontrol
  · exact .simple (congrArg some hquote.symm)
  · exact .simple (congrArg some hslash.symm)
  · exact .simple (hchar hback)
  · exact .simple (hchar hfeed)
  · exact .simple (congrArg some hline.symm)
  · exact .simple (congrArg some hreturn.symm)
  · exact .simple (congrArg some htab.symm)
  · exact .control hcontrol
  · exact .plain hquote hslash hcontrol

theorem controlDigits_spec : ∀ n < 0x20,
    controlDigits n = ['0', '0', Nat.digitChar (n / 16), Nat.digitChar (n % 16)] ∧
      Text.hex4? '0' '0' (Nat.digitChar (n / 16)) (Nat.digitChar (n % 16)) = some n := by
  decide +kernel

theorem readString_simple {c e : Char} (hc : simpleEscape? c = some e) (tail : List Char) :
    readString ('\\' :: c :: tail) = (readString tail).map fun r => (e :: r.1, r.2) := by
  have hu : c ≠ 'u' := by
    rintro rfl
    cases hc
  rw [readString]
  · rw [hc]
    cases readString tail <;> rfl
  · exact fun _ _ _ _ _ h => absurd h hu

theorem Escaped.readString {c : Char} {text : List Char} (h : Escaped c text)
    (tail : List Char) :
    readString (text ++ tail) = (readString tail).map fun r => (c :: r.1, r.2) := by
  cases h with
  | simple h => exact readString_simple h tail
  | control hcontrol =>
    obtain ⟨hdigits, hhex⟩ := controlDigits_spec c.toNat hcontrol
    -- Surrogates come far behind the control characters.
    have hlow : ¬(0xDC00 ≤ c.toNat ∧ c.toNat ≤ 0xDFFF) := by omega
    have hhigh : ¬(0xD800 ≤ c.toNat ∧ c.toNat ≤ 0xDBFF) := by omega
    rw [hdigits]
    simp only [List.cons_append, List.nil_append, Json.readString, hhex, Option.bind_eq_bind,
      Option.bind_some, if_neg hlow, if_neg hhigh, Char.ofNat_toNat]
    cases Json.readString tail <;> rfl
  | plain hquote hslash hcontrol =>
    rw [List.singleton_append, Json.readString, if_neg (not_or.2 ⟨hslash, hcontrol⟩)]
    · cases Json.readString tail <;> rfl
    · exact hquote
    · rintro _ _ _ _ _ ⟨⟩
      exact absurd rfl hslash
    · rintro _ _ ⟨⟩
      exact absurd rfl hslash

theorem readString_escaped (cs tail : List Char) :
    readString (cs.flatMap escapeChar ++ '"' :: tail) = some (cs, tail) := by
  induction cs with
  | nil => simp [readString]
  | cons c cs ih =>
    rw [List.flatMap_cons, List.append_assoc, (escapeChar_escaped c).readString, ih]
    rfl

theorem toList_quoted (s : String) :
    (quoted s).toList = '"' :: (s.toList.flatMap escapeChar ++ ['"']) := by
  simp [quoted]

/-! ## Whole numbers -/

theorem collect_eq {significand : Nat} {cs : List Char}
    (h : 10 ^ cs.length * significand + Decimal.natOfDigits cs < significandBound) :
    collect significand cs =
      (10 ^ cs.length * significand + Decimal.natOfDigits cs, []) := by
  induction cs generalizing significand with
  | nil => simp [collect, Decimal.natOfDigits]
  | cons c cs ih =>
    have hsplit : 10 ^ (c :: cs).length * significand + Decimal.natOfDigits (c :: cs) =
        10 ^ cs.length * (10 * significand + Decimal.digitValue c) + Decimal.natOfDigits cs := by
      rw [Decimal.natOfDigits_cons, List.length_cons, pow_succ]
      ring
    rw [hsplit] at h ⊢
    have hfits : 10 * significand + Decimal.digitValue c < significandBound := by
      have hpower : 0 < 10 ^ cs.length := Nat.pow_pos (by norm_num)
      have := Nat.le_mul_of_pos_left (10 * significand + Decimal.digitValue c) hpower
      omega
    rw [collect, fits, if_pos (by simpa using hfits), ih h]

/-- What may stand behind a number. -/
def EndsNumber (rest : List Char) : Prop :=
  ∀ c ∈ rest.head?, c.isDigit = false ∧ c ≠ '.' ∧ c ≠ 'e' ∧ c ≠ 'E'

/-- A number of several digits does not begin with a zero. -/
theorem toDigits_leading (n : Nat) :
    ((Nat.toDigits 10 n).head? = some '0' && 1 < (Nat.toDigits 10 n).length) = false := by
  by_contra h
  rw [Bool.not_eq_false, Bool.and_eq_true, decide_eq_true_iff, decide_eq_true_iff] at h
  obtain ⟨rest, hdigits⟩ := List.head?_eq_some_iff.1 h.1
  have hlength := h.2
  have hvalue := Decimal.natOfDigits_toDigits n
  rw [hdigits] at hlength hvalue
  rw [List.length_cons] at hlength
  have hlt : n < 10 ^ rest.length := by
    rw [← hvalue, Decimal.natOfDigits_cons]
    have hrest : Decimal.natOfDigits rest < 10 ^ rest.length :=
      Decimal.natOfDigits_lt fun c hc =>
        Decimal.isDigit_of_mem_toDigits (hdigits ▸ List.mem_cons_of_mem _ hc)
    simpa [Decimal.digitValue] using hrest
  have hle := (Nat.length_toDigits_le_iff (by norm_num) (by omega)).2 hlt
  rw [hdigits, List.length_cons] at hle
  omega

theorem readUnsigned_toDigits {n : Nat} (hn : n < significandBound) (negative : Bool)
    {rest : List Char} (hrest : EndsNumber rest) :
    readUnsigned negative (Nat.toDigits 10 n ++ rest) = some (whole negative n, rest) := by
  obtain ⟨htake, hdrop⟩ := Decimal.takeWhile_dropWhile_digits
    (fun c => Decimal.isDigit_of_mem_toDigits (n := n)) fun c hc => (hrest c hc).1
  have hcollect : collect 0 (Nat.toDigits 10 n) = (n, []) := by
    have hall := @collect_eq 0 (Nat.toDigits 10 n)
    simpa [Decimal.natOfDigits_toDigits, hn] using hall
  have hempty : (Nat.toDigits 10 n).isEmpty = false := by simp [Nat.toDigits_ne_nil]
  unfold readUnsigned
  simp only [htake, hdrop, hcollect, toDigits_leading, hempty]
  cases rest with
  | nil => rfl
  | cons c tail =>
    obtain ⟨-, hpoint, he, he'⟩ := hrest c rfl
    simp [hpoint, he, he']

/-- A whole number that is kept as such. -/
def InRange (n : Int) : Prop := -9223372036854775808 ≤ n ∧ n ≤ 18446744073709551615

theorem readNumber_int {n : Int} (hn : InRange n) {rest : List Char}
    (hrest : EndsNumber rest) :
    readNumber ((toString n).toList ++ rest) = some (int n, rest) := by
  obtain ⟨hlow, hhigh⟩ := hn
  have hbound : significandBound = 18446744073709551616 := by decide +kernel
  rw [Decimal.toList_int]
  by_cases hneg : n < 0
  · have hread := readUnsigned_toDigits (n := n.natAbs) (by omega) true hrest
    have hwhole : whole true n.natAbs = int n := by
      unfold whole
      rw [if_neg (by decide), if_neg (by omega)]
      congr 1
      omega
    rw [Decimal.sign, if_pos (by simpa using hneg)]
    exact hwhole ▸ hread
  · have hread := readUnsigned_toDigits (n := n.natAbs) (by omega) false hrest
    have hwhole : whole false n.natAbs = int n := by
      unfold whole
      rw [if_pos (by decide)]
      congr 1
      omega
    obtain ⟨c, cs, hcs⟩ :=
      List.exists_cons_of_ne_nil (Nat.toDigits_ne_nil (n := n.natAbs) (b := 10))
    have hc : c.isDigit := Decimal.isDigit_of_mem_toDigits (hcs ▸ List.mem_cons_self)
    have hminus : c ≠ '-' := by
      rintro rfl
      cases hc
    rw [Decimal.sign, if_neg (by simpa using hneg), List.nil_append]
    rw [hwhole, hcs, List.cons_append] at hread
    rw [hcs, List.cons_append, readNumber]
    · exact hread
    · intro tail h
      cases h
      exact hminus rfl

/-! ## Values -/

mutual

/-- The value has no fractions, and its containers nest at most so deep. -/
def Readable (depth : Nat) : Json → Prop
  | int n => InRange n
  | real _ => False
  | arr items => ∃ inner, depth = inner + 1 ∧ ItemsReadable inner items
  | obj fields => ∃ inner, depth = inner + 1 ∧ FieldsReadable inner fields
  | _ => True

def ItemsReadable (depth : Nat) : List Json → Prop
  | [] => True
  | j :: rest => j.Readable depth ∧ ItemsReadable depth rest

def FieldsReadable (depth : Nat) : List (String × Json) → Prop
  | [] => True
  | (_, j) :: rest => j.Readable depth ∧ FieldsReadable depth rest

end

theorem fieldsReadable_iff {depth : Nat} {fields : List (String × Json)} :
    FieldsReadable depth fields ↔ ∀ e ∈ fields, e.2.Readable depth := by
  induction fields with
  | nil => simp [FieldsReadable]
  | cons e rest ih => simp [FieldsReadable, ih]

theorem object_readable {depth : Nat} {fields : List (String × Json)}
    (h : ∀ e ∈ fields, e.2.Readable depth) : (object fields).Readable (depth + 1) :=
  ⟨depth, rfl, fieldsReadable_iff.2 fun e he => h e (mem_of_mem_sortFields he)⟩

/-- How a value's text begins. -/
def Opens (c : Char) : Prop := isSpace c = false ∧ c ≠ ']' ∧ c ≠ '\x7d'

instance (c : Char) : Decidable (Opens c) := inferInstanceAs (Decidable (_ ∧ _))

theorem opens_number {c : Char} (hc : c.isDigit ∨ c = '-') : Opens c := by
  refine ⟨?_, ?_, ?_⟩
  · cases h : isSpace c with
    | false => rfl
    | true =>
      simp only [isSpace, Bool.or_eq_true, decide_eq_true_eq] at h
      rcases h with ((rfl | rfl) | rfl) | rfl <;> rcases hc with hc | hc <;> cases hc
  · rintro rfl
    rcases hc with hc | hc <;> cases hc
  · rintro rfl
    rcases hc with hc | hc <;> cases hc

theorem toList_arr (items : List Json) : (arr items).write.toList =
    '[' :: ((Text.join "," (writeItems items)).toList ++ [']']) := by
  simp [write]

theorem toList_obj (fields : List (String × Json)) : (obj fields).write.toList =
    '\x7b' :: ((Text.join "," (writeFields fields)).toList ++ ['\x7d']) := by
  simp [write]

theorem write_opens {depth : Nat} {v : Json} (h : v.Readable depth) :
    ∃ c cs, v.write.toList = c :: cs ∧ Opens c := by
  cases v with
  | null => exact ⟨'n', _, rfl, by decide⟩
  | bool b =>
    cases b
    · exact ⟨'f', _, rfl, by decide⟩
    · exact ⟨'t', _, rfl, by decide⟩
  | int n =>
    obtain ⟨c, cs, htext, hc⟩ := Decimal.toString_int_begins n
    exact ⟨c, cs, htext, opens_number hc⟩
  | real x => exact h.elim
  | str s => exact ⟨'"', _, toList_quoted s, by decide⟩
  | arr items => exact ⟨'[', _, toList_arr items, by decide⟩
  | obj fields => exact ⟨'\x7b', _, toList_obj fields, by decide⟩

theorem skipSpace_opens {c : Char} (hc : Opens c) (cs : List Char) :
    skipSpace (c :: cs) = c :: cs := by
  rw [skipSpace, List.dropWhile_cons_of_neg (by simp [hc.1])]

theorem readValue_number {c : Char} (hc : c.isDigit ∨ c = '-') (steps depth : Nat)
    (cs : List Char) : readValue (steps + 1) depth (c :: cs) = readNumber (c :: cs) := by
  rw [readValue, skipSpace_opens (opens_number hc)]
  split
  all_goals
    first
    | next h =>
      cases h
      rcases hc with hc | hc <;> cases hc
    | rfl

theorem readValue_array {c : Char} (hc : Opens c) (steps depth : Nat) (cs : List Char) :
    readValue (steps + 1) (depth + 1) ('[' :: c :: cs) =
      (readItems steps depth (c :: cs)).map fun r => (arr r.1, r.2) := by
  have hopen : Opens '[' := by decide
  simp only [readValue, skipSpace_opens hopen, skipSpace_opens hc]
  split
  · next h =>
    cases h
    exact absurd rfl hc.2.1
  · rfl

theorem readValue_object {c : Char} (hc : Opens c) (steps depth : Nat) (cs : List Char) :
    readValue (steps + 1) (depth + 1) ('\x7b' :: c :: cs) =
      (readFields steps depth (c :: cs)).map fun r => (obj r.1, r.2) := by
  have hopen : Opens '\x7b' := by decide
  simp only [readValue, skipSpace_opens hopen, skipSpace_opens hc]
  split
  · next h =>
    cases h
    exact absurd rfl hc.2.2
  · rfl

theorem readValue_string (steps depth : Nat) (s : String) (rest : List Char) :
    readValue (steps + 1) depth ((quoted s).toList ++ rest) = some (str s, rest) := by
  have hquote : Opens '"' := by decide
  rw [toList_quoted, List.cons_append, List.append_assoc]
  simp only [readValue, skipSpace_opens hquote]
  rw [List.singleton_append, readString_escaped]
  simp

theorem join_begins {first : String} {c : Char} {cs : List Char}
    (h : first.toList = c :: cs) (separator : String) (more : List String)
    (tail : List Char) :
    ∃ ds, (Text.join separator (first :: more)).toList ++ tail = c :: ds := by
  cases more with
  | nil => exact ⟨cs ++ tail, by simp [Text.join, h]⟩
  | cons second more =>
    exact ⟨cs ++ separator.toList ++ (Text.join separator (second :: more)).toList ++ tail,
      by simp [Text.join, h]⟩

theorem items_begin {depth : Nat} {items : List Json} (hne : items ≠ [])
    (h : ItemsReadable depth items) (tail : List Char) :
    ∃ c cs, (Text.join "," (writeItems items)).toList ++ tail = c :: cs ∧ Opens c := by
  obtain ⟨first, more, rfl⟩ := List.exists_cons_of_ne_nil hne
  obtain ⟨c, cs, hfirst, hc⟩ := write_opens h.1
  obtain ⟨ds, hds⟩ := join_begins hfirst "," (writeItems more) tail
  exact ⟨c, ds, hds, hc⟩

theorem fields_begin {fields : List (String × Json)} (hne : fields ≠ [])
    (tail : List Char) :
    ∃ cs, (Text.join "," (writeFields fields)).toList ++ tail = '"' :: cs := by
  obtain ⟨⟨key, first⟩, more, rfl⟩ := List.exists_cons_of_ne_nil hne
  obtain ⟨cs, hfirst⟩ : ∃ cs, (quoted key ++ ":" ++ first.write).toList = '"' :: cs := by
    rw [String.toList_append, String.toList_append, toList_quoted]
    exact ⟨_, rfl⟩
  exact join_begins hfirst "," (writeFields more) tail

theorem endsNumber_mark {c : Char} (hc : c ∈ [',', ']', '\x7d']) (rest : List Char) :
    EndsNumber (c :: rest) := by
  intro c' hc'
  cases hc'
  simp only [List.mem_cons, List.not_mem_nil, or_false] at hc
  rcases hc with rfl | rfl | rfl <;> decide

section Steps

variable {steps depth : Nat} {j : Json} {cs rest tail : List Char}

theorem readItems_last (h : readValue steps depth cs = some (j, ']' :: rest)) :
    readItems (steps + 1) depth cs = some ([j], rest) := by
  have hopen : skipSpace (']' :: rest) = ']' :: rest := rfl
  simp [readItems, h, hopen]

theorem readItems_next {items : List Json} (h : readValue steps depth cs = some (j, ',' :: rest))
    (hrest : readItems steps depth rest = some (items, tail)) :
    readItems (steps + 1) depth cs = some (j :: items, tail) := by
  have hopen : skipSpace (',' :: rest) = ',' :: rest := rfl
  simp [readItems, h, hopen, hrest]

variable {key : String}

theorem readFields_last (h : readValue steps depth cs = some (j, '\x7d' :: rest)) :
    readFields (steps + 1) depth ((quoted key).toList ++ ':' :: cs) =
      some ([(key, j)], rest) := by
  have hquote (cs : List Char) : skipSpace ('"' :: cs) = '"' :: cs := rfl
  have hcolon : skipSpace (':' :: cs) = ':' :: cs := rfl
  have hopen : skipSpace ('\x7d' :: rest) = '\x7d' :: rest := rfl
  rw [toList_quoted, List.cons_append, List.append_assoc, List.singleton_append]
  simp [readFields, hquote, readString_escaped, hcolon, h, hopen]

theorem readFields_next {fields : List (String × Json)}
    (h : readValue steps depth cs = some (j, ',' :: rest))
    (hrest : readFields steps depth rest = some (fields, tail)) :
    readFields (steps + 1) depth ((quoted key).toList ++ ':' :: cs) =
      some ((key, j) :: fields, tail) := by
  have hquote (cs : List Char) : skipSpace ('"' :: cs) = '"' :: cs := rfl
  have hcolon : skipSpace (':' :: cs) = ':' :: cs := rfl
  have hopen : skipSpace (',' :: rest) = ',' :: rest := rfl
  rw [toList_quoted, List.cons_append, List.append_assoc, List.singleton_append]
  simp [readFields, hquote, readString_escaped, hcolon, h, hopen, hrest]

end Steps

mutual

theorem readValue_write : ∀ (v : Json) {steps depth : Nat} {rest : List Char},
    v.Readable depth → v.write.toList.length ≤ steps → EndsNumber rest →
    readValue steps depth (v.write.toList ++ rest) = some (v, rest)
  | null, steps, depth, rest, _, hsteps, _
  | bool true, steps, depth, rest, _, hsteps, _
  | bool false, steps, depth, rest, _, hsteps, _ => by
    obtain ⟨steps, rfl⟩ := Nat.exists_eq_add_of_le'
      (show 1 ≤ steps from le_trans (by decide) hsteps)
    rfl
  | int n, steps, depth, rest, hn, hsteps, hrest => by
    obtain ⟨c, cs, htext, hc⟩ := Decimal.toString_int_begins n
    change (toString n).toList.length ≤ steps at hsteps
    change readValue steps depth ((toString n).toList ++ rest) = _
    rw [htext, List.length_cons] at hsteps
    obtain ⟨steps, rfl⟩ := Nat.exists_eq_add_of_le' (show 1 ≤ steps by omega)
    rw [htext, List.cons_append, readValue_number hc, ← List.cons_append, ← htext]
    exact readNumber_int hn hrest
  | real x, _, _, _, h, _, _ => h.elim
  | str s, steps, depth, rest, _, hsteps, _ => by
    change (quoted s).toList.length ≤ steps at hsteps
    rw [toList_quoted, List.length_cons] at hsteps
    obtain ⟨steps, rfl⟩ := Nat.exists_eq_add_of_le' (show 1 ≤ steps by omega)
    exact readValue_string steps depth s rest
  | arr items, steps, depth, rest, ⟨inner, hdepth, hitems⟩, hsteps, _ => by
    subst hdepth
    rw [toList_arr, List.length_cons, List.length_append, List.length_singleton] at hsteps
    obtain ⟨steps, rfl⟩ := Nat.exists_eq_add_of_le' (show 1 ≤ steps by omega)
    rw [toList_arr, List.cons_append, List.append_assoc, List.singleton_append]
    by_cases hne : items = []
    · subst hne
      rfl
    · obtain ⟨c, cs, htext, hc⟩ := items_begin hne hitems (']' :: rest)
      rw [htext, readValue_array hc, ← htext, readItems_write items hne hitems (by omega)]
      rfl
  | obj fields, steps, depth, rest, ⟨inner, hdepth, hfields⟩, hsteps, _ => by
    subst hdepth
    rw [toList_obj, List.length_cons, List.length_append, List.length_singleton] at hsteps
    obtain ⟨steps, rfl⟩ := Nat.exists_eq_add_of_le' (show 1 ≤ steps by omega)
    rw [toList_obj, List.cons_append, List.append_assoc, List.singleton_append]
    by_cases hne : fields = []
    · subst hne
      rfl
    · obtain ⟨cs, htext⟩ := fields_begin hne ('\x7d' :: rest)
      have hquote : Opens '"' := by decide
      rw [htext, readValue_object hquote, ← htext,
        readFields_write fields hne hfields (by omega)]
      rfl

theorem readItems_write : ∀ (items : List Json) {steps depth : Nat} {rest : List Char},
    items ≠ [] → ItemsReadable depth items →
    (Text.join "," (writeItems items)).toList.length + 1 ≤ steps →
    readItems steps depth ((Text.join "," (writeItems items)).toList ++ ']' :: rest) =
      some (items, rest)
  | [], _, _, _, hne, _, _ => absurd rfl hne
  | first :: more, steps, depth, rest, _, h, hsteps => by
    obtain ⟨steps, rfl⟩ := Nat.exists_eq_add_of_le' (show 1 ≤ steps by omega)
    by_cases hmore : more = []
    · subst hmore
      have hlength : first.write.toList.length ≤ steps := Nat.le_of_succ_le_succ hsteps
      exact readItems_last (readValue_write first h.1 hlength (endsNumber_mark (by simp) rest))
    · have hne : writeItems more ≠ [] := by
        obtain ⟨second, more, rfl⟩ := List.exists_cons_of_ne_nil hmore
        exact List.cons_ne_nil _ _
      have hcomma : ",".toList = [','] := rfl
      rw [writeItems, Text.join_cons_of_ne_nil _ _ hne] at hsteps ⊢
      simp only [String.toList_append, hcomma, List.length_append, List.length_singleton]
        at hsteps
      simp only [String.toList_append, hcomma, List.append_assoc, List.singleton_append]
      exact readItems_next
        (readValue_write first h.1 (by omega) (endsNumber_mark (by simp) _))
        (readItems_write more hmore h.2 (by omega))

theorem readFields_write : ∀ (fields : List (String × Json)) {steps depth : Nat}
    {rest : List Char}, fields ≠ [] → FieldsReadable depth fields →
    (Text.join "," (writeFields fields)).toList.length + 1 ≤ steps →
    readFields steps depth ((Text.join "," (writeFields fields)).toList ++ '\x7d' :: rest) =
      some (fields, rest)
  | [], _, _, _, hne, _, _ => absurd rfl hne
  | (key, first) :: more, steps, depth, rest, _, h, hsteps => by
    obtain ⟨steps, rfl⟩ := Nat.exists_eq_add_of_le' (show 1 ≤ steps by omega)
    have hcolon : ":".toList = [':'] := rfl
    by_cases hmore : more = []
    · subst hmore
      simp only [writeFields, Text.join, String.toList_append, hcolon, List.length_append,
        List.length_singleton] at hsteps
      simp only [writeFields, Text.join, String.toList_append, hcolon, List.append_assoc,
        List.singleton_append]
      exact readFields_last
        (readValue_write first h.1 (by omega) (endsNumber_mark (by simp) rest))
    · have hne : writeFields more ≠ [] := by
        obtain ⟨⟨_, second⟩, more, rfl⟩ := List.exists_cons_of_ne_nil hmore
        exact List.cons_ne_nil _ _
      have hcomma : ",".toList = [','] := rfl
      rw [writeFields, Text.join_cons_of_ne_nil _ _ hne] at hsteps ⊢
      simp only [String.toList_append, hcolon, hcomma, List.length_append,
        List.length_singleton] at hsteps
      simp only [String.toList_append, hcolon, hcomma, List.append_assoc,
        List.singleton_append]
      exact readFields_next
        (readValue_write first h.1 (by omega) (endsNumber_mark (by simp) _))
        (readFields_write more hmore h.2 (by omega))

end

/-- A canonical value without fractions is read back from its text. -/
theorem read?_write {v : Json} (hcanonical : v.IsCanonical) (h : v.Readable maxDepth) :
    read? v.write = some v := by
  have hend : EndsNumber [] := by simp [EndsNumber]
  have hread := readValue_write v h (Nat.le_succ v.write.toList.length) hend
  rw [List.append_nil] at hread
  unfold read? ofText?
  simp only [hread, skipSpace]
  exact congrArg some hcanonical

end GovernedCatalog.Json
