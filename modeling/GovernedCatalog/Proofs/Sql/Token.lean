import Mathlib.Data.List.Find
import Mathlib.Data.List.TakeWhile
import GovernedCatalog.Sql.Token

/-!
# Tokens before a delimiter

A blank, comma, parenthesis or bracket is never part of a longer token, so a
text put before one is read as it is read alone.  The exception is a text whose
last comment runs to the end of its line: the comment takes the delimiter with
it.
-/

namespace GovernedCatalog.Sql.Token

/-- The text ends in a comment that nothing but the end of its line closes. -/
inductive EndsInLineComment : List Char → Prop
  | comment {rest : List Char} (unclosed : '\n' ∉ rest) :
      EndsInLineComment ('-' :: '-' :: rest)
  | step {cs rest : List Char} {token? : Option Token}
      (read : read? cs = some (token?, rest)) (ends : EndsInLineComment rest) :
      EndsInLineComment cs

/-- The characters that end the token before them, wherever they stand outside
of quotes and comments. -/
def delimiters : List Char := [' ', '(', ')', ',', '[', ']']

section Delimited

variable {p : Char → Bool} {d : Char} (tail : List Char)

@[elab_as_elim]
theorem of_mem_delimiters {P : Char → Prop} (hd : d ∈ delimiters)
    (h : P ' ' ∧ P '(' ∧ P ')' ∧ P ',' ∧ P '[' ∧ P ']') : P d := by
  obtain ⟨hspace, hopen, hclose, hcomma, hopening, hclosing⟩ := h
  simp only [delimiters, List.mem_cons, List.not_mem_nil, or_false] at hd
  rcases hd with rfl | rfl | rfl | rfl | rfl | rfl <;> assumption

theorem dropWhile_append_delimiter (hp : p d = false) (cs : List Char) :
    (cs ++ d :: tail).dropWhile p = cs.dropWhile p ++ d :: tail := by
  induction cs with
  | nil => simp [hp]
  | cons c cs ih => by_cases hc : p c <;> simp [hc, ih]

theorem takeWhile_append_delimiter (hp : p d = false) (cs : List Char) :
    (cs ++ d :: tail).takeWhile p = cs.takeWhile p := by
  induction cs with
  | nil => simp [hp]
  | cons c cs ih => by_cases hc : p c <;> simp [hc, ih]

theorem skipLine_append (tail : List Char) {cs : List Char} (h : '\n' ∈ cs) :
    skipLine (cs ++ tail) = skipLine cs ++ tail := by
  induction cs with
  | nil => simp at h
  | cons c cs ih =>
    by_cases hc : c = '\n'
    · subst hc
      rfl
    · have hcs : '\n' ∈ cs := by simpa [Ne.symm hc] using h
      simpa [skipLine, hc] using ih hcs

theorem skipLine_append_of_notMem (tail : List Char) {cs : List Char}
    (h : '\n' ∉ cs) : skipLine (cs ++ tail) = skipLine tail := by
  induction cs with
  | nil => rfl
  | cons c cs ih =>
    have hc : c ≠ '\n' := fun hc => h (by simp [hc])
    have hcs : '\n' ∉ cs := fun hcs => h (List.mem_cons_of_mem c hcs)
    simpa [skipLine, hc] using ih hcs

theorem skipLine_of_notMem {cs : List Char} (h : '\n' ∉ cs) :
    skipLine cs = [] := by
  simpa [skipLine] using skipLine_append_of_notMem [] h

theorem skipComment_append (tail : List Char) {depth : Nat} {last : Char}
    {cs rest : List Char} (h : skipComment depth last cs = some rest) :
    skipComment depth last (cs ++ tail) = some (rest ++ tail) := by
  fun_induction skipComment depth last cs with
  | case1 => simp at h
  | case2 depth last c cs opens ih =>
    simpa [skipComment, opens] using ih h
  | case3 last c cs opens closes =>
    obtain rfl : cs = rest := by simpa [skipComment, opens, closes] using h
    simp [skipComment, closes]
  | case4 last c cs opens closes depth ih =>
    simpa [skipComment, opens, closes] using ih h
  | case5 depth last c cs opens closes ih =>
    simpa [skipComment, opens, closes] using ih h

theorem scan_append_delimiter {quote : Char} (hquote : quote ≠ d)
    {cs : List Char} {r : List Char × List Char}
    (h : Text.scan quote cs = some r) :
    Text.scan quote (cs ++ d :: tail) = some (r.1, r.2 ++ d :: tail) := by
  fun_induction Text.scan quote cs generalizing r with
  | case1 => simp at h
  | case2 =>
    obtain rfl : ([], []) = r := by simpa using h
    simp [Text.scan, Ne.symm hquote]
  | case3 rest ih =>
    obtain ⟨r', hrest, rfl⟩ := Option.map_eq_some_iff.mp h
    simp [Text.scan, ih hrest]
  | case4 c rest hc =>
    obtain rfl : ([], c :: rest) = r := by simpa using h
    simp [Text.scan, hc]
  | case5 c rest hc ih =>
    obtain ⟨r', hrest, rfl⟩ := Option.map_eq_some_iff.mp h
    rw [List.cons_append, Text.scan.eq_def]
    simp [hc, ih hrest]

theorem readEscaped_append_delimiter (hd : d ≠ '\'') {escaped : Bool}
    {cs : List Char} {r : List Char × List Char}
    (h : readEscaped escaped cs = some r) :
    readEscaped escaped (cs ++ d :: tail) = some (r.1, r.2 ++ d :: tail) := by
  fun_induction readEscaped escaped cs generalizing r with
  | case1 => simp at h
  | case2 c rest ih =>
    obtain ⟨r', hrest, rfl⟩ := Option.map_eq_some_iff.mp h
    simp [readEscaped, ih hrest]
  | case3 rest ih =>
    obtain ⟨r', hrest, rfl⟩ := Option.map_eq_some_iff.mp h
    simp [readEscaped, ih hrest]
  | case4 rest single =>
    obtain rfl : ([], rest) = r := by simpa using h
    cases rest with
    | nil => simp [readEscaped, hd]
    | cons c rest =>
      have hc : c ≠ '\'' := fun hc => single rest (by rw [hc])
      simp [readEscaped, hc]
  | case5 rest ih => simpa [readEscaped] using ih h
  | case6 c rest noPair noQuote noSlash ih =>
    obtain ⟨r', hrest, rfl⟩ := Option.map_eq_some_iff.mp h
    rw [List.cons_append, readEscaped, ih hrest]
    · rfl
    · exact fun _ hc _ => noQuote hc
    · exact noQuote
    · exact noSlash

theorem isPrefixOf_append_delimiter {part : List Char} (hpart : d ∉ part)
    (cs : List Char) :
    part.isPrefixOf (cs ++ d :: tail) = part.isPrefixOf cs := by
  induction part generalizing cs with
  | nil => simp
  | cons c part ih =>
    obtain ⟨hc, hrest⟩ : d ≠ c ∧ d ∉ part := by simpa using hpart
    cases cs with
    | nil => simp [List.isPrefixOf, Ne.symm hc]
    | cons c' cs => simp [List.isPrefixOf, ih hrest]

theorem skipPast_append_delimiter {closing : List Char}
    (hclosing : d ∉ closing) {cs rest : List Char}
    (h : skipPast closing cs = some rest) :
    skipPast closing (cs ++ d :: tail) = some (rest ++ d :: tail) := by
  induction cs with
  | nil => simp [skipPast] at h
  | cons c cs ih =>
    have hprefix := isPrefixOf_append_delimiter tail hclosing (c :: cs)
    rw [List.cons_append] at hprefix
    by_cases hc : closing.isPrefixOf (c :: cs)
    · have hlength : closing.length - 1 ≤ cs.length := by
        have := (List.isPrefixOf_iff_prefix.mp hc).length_le
        simp only [List.length_cons] at this
        omega
      obtain rfl : cs.drop (closing.length - 1) = rest := by
        simpa [skipPast, hc] using h
      simp [skipPast, hprefix, hc, List.drop_append_of_le_length hlength]
    · have hcs : skipPast closing cs = some rest := by
        simpa [skipPast, hc] using h
      simp [skipPast, hprefix, hc, ih hcs]

theorem isPrefixOf_dropWhile_append_delimiter {closing : List Char}
    (hclosing : d ∉ closing) (hne : closing ≠ []) {q : Char → Bool}
    {cs : List Char} (h : closing.isPrefixOf (cs.dropWhile q)) :
    closing.isPrefixOf ((cs ++ d :: tail).dropWhile q) ∧
      ((cs ++ d :: tail).dropWhile q).drop closing.length =
        (cs.dropWhile q).drop closing.length ++ d :: tail := by
  have hwhile : (cs ++ d :: tail).dropWhile q =
      cs.dropWhile q ++ d :: tail := by
    have hrest : cs.dropWhile q ≠ [] := by
      intro hempty
      exact hne (by simpa [hempty] using h)
    rw [List.dropWhile_append, if_neg (by simpa using hrest)]
  have hlength : closing.length ≤ (cs.dropWhile q).length :=
    (List.isPrefixOf_iff_prefix.mp h).length_le
  rw [hwhile, isPrefixOf_append_delimiter tail hclosing,
    List.drop_append_of_le_length hlength]
  exact ⟨h, rfl⟩

/-- What a delimiter is not part of. -/
theorem not_isPart_of_delimiter (hd : d ∈ delimiters) :
    d.isDigit = false ∧ Text.isHexDigit d = false ∧ isWordPart d = false ∧
      Text.isNumeral d = false ∧ Text.isLetter d = false :=
  of_mem_delimiters hd (by decide)

theorem readDollar_append_delimiter (hd : d ∈ delimiters) {cs : List Char}
    {r : Token × List Char} (h : readDollar cs = some r) :
    readDollar (cs ++ d :: tail) = some (r.1, r.2 ++ d :: tail) := by
  let isTag (c : Char) : Bool := Text.isLetter c || Text.isNumeral c || c = '_'
  have hne : d ≠ '$' ∧ d ≠ '_' :=
    of_mem_delimiters hd (by decide)
  have hpart : isTag d = false := by
    obtain ⟨-, -, -, hnumeral, hletter⟩ := not_isPart_of_delimiter hd
    simp [isTag, hnumeral, hletter, hne.2]
  have htake : (cs ++ d :: tail).takeWhile isTag = cs.takeWhile isTag :=
    takeWhile_append_delimiter tail hpart cs
  have hdrop : (cs ++ d :: tail).dropWhile isTag =
      cs.dropWhile isTag ++ d :: tail :=
    dropWhile_append_delimiter tail hpart cs
  have htag : d ∉ cs.takeWhile isTag := fun hmem => by
    simpa [hpart] using List.mem_takeWhile_imp hmem
  simp only [isTag] at htake hdrop htag
  simp only [readDollar, htake, hdrop] at h ⊢
  generalize List.takeWhile _ cs = tag at h htag ⊢
  generalize List.dropWhile _ cs = after at h ⊢
  split at h
  · rename_i rest
    simp only [List.cons_append]
    split at h
    · rename_i htagEmpty
      obtain ⟨rest', hskip, rfl⟩ := Option.map_eq_some_iff.mp h
      rw [if_pos htagEmpty, skipPast_append_delimiter tail (by simp [hne.1]) hskip]
      rfl
    · rename_i htagEmpty
      split at h
      · rename_i hprefix
        obtain rfl := Option.some.inj h
        have hclosing : d ∉ '$' :: (tag ++ ['$']) := by
          simpa [hne.1] using htag
        obtain ⟨hprefix', hrest⟩ := isPrefixOf_dropWhile_append_delimiter tail
          hclosing (by simp) hprefix
        rw [if_neg htagEmpty, if_pos hprefix', hrest]
      · simp at h
  · rename_i noDollar
    obtain rfl : (parameter, after) = r := by simpa using h
    cases after with
    | nil => simp [hne.1]
    | cons c after =>
      have hc : c ≠ '$' := fun hc => noDollar after (by rw [hc])
      simp [hc]

theorem skipExponent_append_delimiter (hd : d ∈ delimiters) (cs : List Char) :
    skipExponent (cs ++ d :: tail) = skipExponent cs ++ d :: tail := by
  have hdigit := (not_isPart_of_delimiter hd).1
  have hexponent : ¬(d = 'e' ∨ d = 'E') ∧ ¬(d = '+' ∨ d = '-') :=
    of_mem_delimiters hd (by decide)
  have hdrop := dropWhile_append_delimiter tail hdigit
  unfold skipExponent
  cases cs with
  | nil => simp [hexponent]
  | cons c rest =>
    by_cases hc : c = 'e' ∨ c = 'E'
    · cases rest with
      | nil => simp [hc, hexponent, hdigit]
      | cons s rest =>
        by_cases hs : s = '+' ∨ s = '-'
        · cases rest with
          | nil => simp [hc, hs, hdigit]
          | cons c' rest =>
            by_cases hc' : c'.isDigit <;> simp [hc, hs, hc', hdrop]
        · by_cases hs' : s.isDigit <;> simp [hc, hs, hs', hdrop]
    · simp [hc]

theorem skipExponent_suffix (cs : List Char) : skipExponent cs <:+ cs := by
  have hdrop (front rest : List Char) :
      rest.dropWhile Char.isDigit <:+ front ++ rest :=
    (List.dropWhile_suffix _).trans (List.suffix_append front rest)
  unfold skipExponent
  cases cs with
  | nil => exact List.suffix_rfl
  | cons c rest =>
    by_cases hc : c = 'e' ∨ c = 'E'
    · cases rest with
      | nil => simp [hc]
      | cons s rest =>
        by_cases hs : s = '+' ∨ s = '-'
        · cases rest with
          | nil => simp [hc, hs]
          | cons d rest =>
            by_cases hd : d.isDigit
            · simpa [hc, hs, hd] using hdrop [c, s, d] rest
            · simp [hc, hs, hd]
        · by_cases hd : s.isDigit
          · simpa [hc, hs, hd] using hdrop [c, s] rest
          · simp [hc, hs, hd]
    · simp [hc]

theorem closeNumber_append_delimiter (hd : d ∈ delimiters)
    {cs rest : List Char} (h : rest <:+ cs) :
    closeNumber (cs ++ d :: tail) (rest ++ d :: tail) =
      ((closeNumber cs rest).1, (closeNumber cs rest).2 ++ d :: tail) := by
  have hlong : d ≠ 'L' :=
    of_mem_delimiters hd (by decide)
  obtain ⟨digits, rfl⟩ := h
  unfold closeNumber
  cases rest with
  | nil => simp [hlong]
  | cons c rest => by_cases hc : c = 'L' <;> simp [hc]

theorem readNumber_append_delimiter (hd : d ∈ delimiters) (cs : List Char) :
    readNumber (cs ++ d :: tail) =
      ((readNumber cs).1, (readNumber cs).2 ++ d :: tail) := by
  obtain ⟨hdigit, hhex, -⟩ := not_isPart_of_delimiter hd
  have hmark : d ≠ '.' ∧ d ≠ 'x' :=
    of_mem_delimiters hd (by decide)
  have hafter : cs.dropWhile Char.isDigit <:+ cs := List.dropWhile_suffix _
  have hclose {rest : List Char} (hrest : rest <:+ cs) :
      closeNumber (cs ++ d :: tail) (skipExponent (rest ++ d :: tail)) =
        ((closeNumber cs (skipExponent rest)).1,
          (closeNumber cs (skipExponent rest)).2 ++ d :: tail) := by
    rw [skipExponent_append_delimiter tail hd, closeNumber_append_delimiter tail
      hd ((skipExponent_suffix rest).trans hrest)]
  simp only [readNumber, takeWhile_append_delimiter tail hdigit,
    dropWhile_append_delimiter tail hdigit]
  generalize cs.takeWhile Char.isDigit = whole
  generalize cs.dropWhile Char.isDigit = after at hafter ⊢
  cases after with
  | nil =>
    have hplain := hclose hafter
    simp only [List.nil_append] at hplain ⊢
    grind
  | cons c rest =>
    by_cases hc : c = '.'
    · subst hc
      have hrest : rest.dropWhile Char.isDigit <:+ cs :=
        (List.dropWhile_suffix _).trans ((List.suffix_cons _ rest).trans hafter)
      have hplain := hclose hrest
      simp only [List.cons_append, dropWhile_append_delimiter tail hdigit,
        List.length_append, Nat.add_right_cancel_iff]
      split <;> simp [hplain]
    · by_cases hx : whole = ['0'] ∧ c = 'x'
      · obtain ⟨rfl, rfl⟩ := hx
        simp [dropWhile_append_delimiter tail hhex]
      · have hplain := hclose hafter
        grind

theorem readWord_append_delimiter (hd : d ∈ delimiters) (cs : List Char) :
    readWord (cs ++ d :: tail) =
      ((readWord cs).1, (readWord cs).2 ++ d :: tail) := by
  obtain ⟨-, -, hpart, -⟩ := not_isPart_of_delimiter hd
  simp [readWord, takeWhile_append_delimiter tail hpart,
    dropWhile_append_delimiter tail hpart]

theorem readMark_append_delimiter (hd : d ∈ delimiters) (c : Char)
    (cs : List Char) :
    readMark (c :: cs ++ d :: tail) =
      (readMark (c :: cs)).map fun r => (r.1, r.2 ++ d :: tail) := by
  have hmarks : ∀ m ∈ marks, m.toList = [d] ∨ d ∉ m.toList :=
    of_mem_delimiters hd (by decide)
  have hprefix : ∀ m ∈ marks, m.toList.isPrefixOf (c :: cs ++ d :: tail) =
      m.toList.isPrefixOf (c :: cs) := by
    intro m hm
    cases hmarks m hm with
    | inl hsame => simp [hsame, List.isPrefixOf]
    | inr hother => exact isPrefixOf_append_delimiter tail hother (c :: cs)
  have hfind : marks.find? (fun m => m.toList.isPrefixOf (c :: cs ++ d :: tail))
      = marks.find? fun m => m.toList.isPrefixOf (c :: cs) :=
    List.find?_congr hprefix
  unfold readMark
  rw [hfind, Option.map_map]
  cases hm : marks.find? fun m => m.toList.isPrefixOf (c :: cs) with
  | none => rfl
  | some m =>
    have hprefix : m.toList <+: c :: cs :=
      List.isPrefixOf_iff_prefix.mp (by simpa using List.find?_some hm)
    have hlength : m.length ≤ (c :: cs).length := by
      rw [← String.length_toList]
      exact hprefix.length_le
    rw [Option.map_some, Option.map_some, Function.comp,
      List.drop_append_of_le_length hlength]

theorem readQuoted_append_delimiter {quote : Char} (hquote : quote ≠ d)
    {cs : List Char} {r : Token × List Char} (h : readQuoted quote cs = some r) :
    readQuoted quote (cs ++ d :: tail) = some (r.1, r.2 ++ d :: tail) := by
  obtain ⟨r', hscan, rfl⟩ := Option.map_eq_some_iff.mp h
  simp [readQuoted, scan_append_delimiter tail hquote hscan]

theorem readOther_append_delimiter (hd : d ∈ delimiters) (c : Char)
    (cs : List Char) :
    read?.readOther c (cs ++ d :: tail) =
      ((read?.readOther c cs).1, (read?.readOther c cs).2 ++ d :: tail) := by
  have hnumber := readNumber_append_delimiter tail hd (c :: cs)
  have hword := readWord_append_delimiter tail hd (c :: cs)
  have hmark := readMark_append_delimiter tail hd c cs
  simp only [List.cons_append] at hnumber hword hmark
  simp only [read?.readOther, hnumber, hword, hmark]
  cases readMark (c :: cs) <;> grind

/-- A token that is read alike with a delimiter somewhere behind. -/
theorem map_append_delimiter {α : Type} (token : α → Option Token)
    {read read' : Option (α × List Char)} {token? : Option Token}
    {rest : List Char}
    (hread : ∀ {r}, read = some r → read' = some (r.1, r.2 ++ d :: tail))
    (h : (read.map fun r => (token r.1, r.2)) = some (token?, rest)) :
    (read'.map fun r => (token r.1, r.2)) =
      some (token?, rest ++ d :: tail) := by
  obtain ⟨r, hr, heq⟩ := Option.map_eq_some_iff.mp h
  obtain ⟨rfl, rfl⟩ := Prod.mk.inj heq
  rw [hread hr]
  rfl

theorem read?_append_delimiter (hd : d ∈ delimiters) {cs rest : List Char}
    {token? : Option Token} (h : read? cs = some (token?, rest))
    (hcomment : ∀ line, cs = '-' :: '-' :: line → '\n' ∈ line) :
    read? (cs ++ d :: tail) = some (token?, rest ++ d :: tail) := by
  have hquotes : '\'' ≠ d ∧ '"' ≠ d ∧ '\x60' ≠ d ∧ d ≠ '-' ∧ d ≠ '*' :=
    of_mem_delimiters hd (by decide)
  obtain ⟨hsingle, hdouble, hback, hline, hstar⟩ := hquotes
  fun_cases read? cs with
  | case1 => simp [read?] at h
  | case2 line =>
    obtain ⟨rfl, rfl⟩ : none = token? ∧ skipLine line = rest := by
      simpa [read?] using h
    simp [read?, skipLine_append _ (hcomment line rfl)]
  | case3 line =>
    obtain ⟨r, hr, heq⟩ := Option.map_eq_some_iff.mp h
    obtain ⟨rfl, rfl⟩ := Prod.mk.inj heq
    simp [read?, skipComment_append _ hr]
  | case4 line =>
    exact map_append_delimiter tail (fun t => some (text (String.ofList t)))
      (scan_append_delimiter tail hsingle) h
  | case5 line =>
    exact map_append_delimiter tail some
      (readQuoted_append_delimiter tail hdouble) h
  | case6 line =>
    exact map_append_delimiter tail some
      (readQuoted_append_delimiter tail hback) h
  | case7 line =>
    exact map_append_delimiter tail some (readDollar_append_delimiter tail hd) h
  | case8 line =>
    obtain ⟨-, -, -, hnumeral, -⟩ := not_isPart_of_delimiter hd
    obtain ⟨rfl, rfl⟩ : some parameter = token? ∧
        line.dropWhile Text.isNumeral = rest := by simpa [read?] using h
    simp [read?, dropWhile_append_delimiter tail hnumeral]
  | case9 c line _ _ _ _ _ hc =>
    simp only [read?, List.cons_append, hc] at h ⊢
    exact map_append_delimiter tail (fun _ => some national)
      (scan_append_delimiter tail hsingle) h
  | case10 c line _ _ _ _ _ hc =>
    simp only [read?, List.cons_append, hc] at h ⊢
    exact map_append_delimiter tail (fun _ => some hexadecimal)
      (scan_append_delimiter tail hsingle) h
  | case11 c line _ _ _ _ _ hc =>
    simp only [read?, List.cons_append, hc] at h ⊢
    exact map_append_delimiter tail (fun t => some (escaped (String.ofList t)))
      (readEscaped_append_delimiter tail (Ne.symm hsingle)) h
  | case12 c line _ _ _ _ _ hn hx he =>
    have hother := readOther_append_delimiter tail hd c ('\'' :: line)
    simp only [read?, List.cons_append] at h hother ⊢
    rw [hother]
    simp_all
  | case13 c line noLine noComment h1 h2 h3 h4 h5 noQuote =>
    have hhead {c' : Char} (hc' : d ≠ c') (hline : ∀ r, line ≠ c' :: r)
        (r : List Char) : line ++ d :: tail ≠ c' :: r := by
      cases line with
      | nil => simp [hc']
      | cons c'' line =>
        intro heq
        exact hline line (by rw [(List.cons.inj heq).1])
    have hother := readOther_append_delimiter tail hd c line
    rw [read?] at h
    obtain ⟨rfl, rfl⟩ := Prod.mk.inj (Option.some.inj h)
    rw [List.cons_append, read?, hother]
    · rfl
    · exact fun r hc => hhead hline (fun r' => noLine r' hc) r
    · exact fun r hc => hhead hstar (fun r' => noComment r' hc) r
    all_goals first | assumption | exact hhead (Ne.symm hsingle) noQuote

end Delimited

theorem not_endsInLineComment_nil : ¬EndsInLineComment [] := by
  intro h
  cases h with
  | step read ends => simp [read?] at read

theorem readAll_succ_of_ne_nil (steps : Nat) {cs : List Char} (hne : cs ≠ []) :
    readAll (steps + 1) cs = (read? cs).bind fun r =>
      (readAll steps r.2).map fun later => r.1.toList ++ later := by
  obtain ⟨c, cs, rfl⟩ := List.exists_cons_of_ne_nil hne
  rw [readAll.eq_3 _ _ (by simp)]
  cases read? (c :: cs) with
  | none => rfl
  | some r =>
    obtain ⟨token?, rest⟩ := r
    cases hlater : readAll steps rest <;> cases token? <;> simp [hlater]

/-- The first step of reading all tokens. -/
theorem readAll_step {steps : Nat} {cs : List Char} {tokens : List Token}
    (h : readAll steps cs = some tokens) (hne : cs ≠ []) :
    ∃ steps' token? rest later, steps = steps' + 1 ∧
      read? cs = some (token?, rest) ∧ readAll steps' rest = some later ∧
      tokens = token?.toList ++ later := by
  cases steps with
  | zero => cases cs <;> simp [readAll] at h hne
  | succ steps =>
    rw [readAll_succ_of_ne_nil steps hne] at h
    obtain ⟨⟨token?, rest⟩, hread, h⟩ := Option.bind_eq_some_iff.mp h
    obtain ⟨later, hlater, rfl⟩ := Option.map_eq_some_iff.mp h
    exact ⟨steps, token?, rest, later, rfl, hread, hlater, rfl⟩

theorem readAll_of_read? {steps : Nat} {cs rest : List Char}
    {token? : Option Token} {later : List Token}
    (hread : read? cs = some (token?, rest))
    (hlater : readAll steps rest = some later) :
    readAll (steps + 1) cs = some (token?.toList ++ later) := by
  have hne : cs ≠ [] := by
    rintro rfl
    simp [read?] at hread
  simp [readAll_succ_of_ne_nil steps hne, hread, hlater]

theorem readAll_mono {steps steps' : Nat} {cs : List Char}
    {tokens : List Token} (h : readAll steps cs = some tokens)
    (hle : steps ≤ steps') : readAll steps' cs = some tokens := by
  induction steps' generalizing steps cs tokens with
  | zero => rwa [Nat.le_zero.mp hle] at h
  | succ steps' ih =>
    by_cases hne : cs = []
    · subst hne
      simpa [readAll] using h
    · obtain ⟨steps, token?, rest, later, rfl, hread, hlater, rfl⟩ :=
        readAll_step h hne
      exact readAll_of_read? hread (ih hlater (Nat.le_of_succ_le_succ hle))

/-- What stands behind the delimiter is read as it is read alone. -/
theorem readAll_append_delimiter {d : Char} (hd : d ∈ delimiters)
    {steps steps' : Nat} {cs tail : List Char} {tokens later : List Token}
    (h : readAll steps cs = some tokens) (hends : ¬EndsInLineComment cs)
    (hlater : readAll steps' (d :: tail) = some later) :
    readAll (steps + steps') (cs ++ d :: tail) = some (tokens ++ later) := by
  induction steps generalizing cs tokens with
  | zero =>
    cases cs with
    | nil =>
      obtain rfl : [] = tokens := by simpa [readAll] using h
      simpa using hlater
    | cons c cs => simp [readAll] at h
  | succ steps ih =>
    by_cases hne : cs = []
    · subst hne
      obtain rfl : [] = tokens := by simpa [readAll] using h
      exact readAll_mono hlater (Nat.le_add_left _ _)
    · obtain ⟨steps', token?, rest, later', hsteps, hread, hlater', rfl⟩ :=
        readAll_step h hne
      obtain rfl := Nat.succ.inj hsteps
      have hcomment : ∀ line, cs = '-' :: '-' :: line → '\n' ∈ line := by
        rintro line rfl
        by_contra hline
        exact hends (.comment hline)
      have hrest : ¬EndsInLineComment rest := fun hrest =>
        hends (.step hread hrest)
      have := readAll_of_read? (read?_append_delimiter tail hd hread hcomment)
        (ih hlater' hrest)
      rw [Nat.add_right_comm, List.append_assoc]
      exact this

/-- A last comment that runs to the end of its line takes the closing
parenthesis and the rest of the line with it. -/
theorem readAll_append_of_endsInLineComment {steps steps' : Nat}
    {cs tail : List Char} {tokens later : List Token}
    (hends : EndsInLineComment cs) (h : readAll steps cs = some tokens)
    (hlater : readAll steps' (skipLine tail) = some later) :
    readAll (steps + steps') (cs ++ ')' :: tail) = some (tokens ++ later) := by
  induction hends generalizing steps tokens with
  | @comment line unclosed =>
    obtain ⟨steps, token?, rest, later', rfl, hread, hlater', rfl⟩ :=
      readAll_step h (by simp)
    obtain ⟨rfl, rfl⟩ : none = token? ∧ skipLine line = rest := by
      simpa [read?] using hread
    obtain rfl : [] = later' := by
      simpa [skipLine_of_notMem unclosed, readAll] using hlater'
    have hread' : read? ('-' :: '-' :: line ++ ')' :: tail) =
        some (none, skipLine tail) := by
      simp [read?, skipLine_append_of_notMem _ unclosed, skipLine]
    have := readAll_of_read? hread'
      (readAll_mono hlater (Nat.le_add_left steps' steps))
    rw [Nat.add_right_comm]
    exact this
  | @step cs rest token? read ends ih =>
    have hne : cs ≠ [] := by
      rintro rfl
      simp [read?] at read
    obtain ⟨steps, token?, rest, later', rfl, hread, hlater', rfl⟩ :=
      readAll_step h hne
    obtain ⟨rfl, rfl⟩ := Prod.mk.inj (Option.some.inj (read.symm.trans hread))
    have hcomment : ∀ line, cs = '-' :: '-' :: line → '\n' ∈ line := by
      rintro line rfl
      by_contra hline
      obtain ⟨rfl, rfl⟩ : none = token? ∧ rest = [] := by
        simpa [read?, skipLine_of_notMem hline] using read
      exact not_endsInLineComment_nil ends
    have hclosing : ')' ∈ delimiters := by decide
    have := readAll_of_read? (read?_append_delimiter tail hclosing read hcomment)
      (ih hlater')
    rw [Nat.add_right_comm, List.append_assoc]
    exact this

/-- The token of a delimiter; a blank is none. -/
def ofDelimiter? (d : Char) : Option Token :=
  if d = ' ' then none else some (mark (String.singleton d))

@[simp] theorem ofDelimiter?_opening : ofDelimiter? '(' = some (mark "(") := rfl

@[simp] theorem ofDelimiter?_closing : ofDelimiter? ')' = some (mark ")") := rfl

/-- A character that begins no text, quoted name, comment or parameter. -/
theorem read?_of_plain {c : Char}
    (hplain : c ∉ ['-', '/', '\'', '"', '\x60', '$', '?'])
    (hletter : c.toLower ∉ ['n', 'x', 'e']) (cs : List Char) :
    read? (c :: cs) = some (read?.readOther c cs) := by
  simp only [List.mem_cons, List.not_mem_nil, or_false, not_or] at hplain hletter
  cases cs with
  | nil => rw [read?] <;> simp [hplain]
  | cons d cs =>
    by_cases hd : d = '\''
    · subst hd
      simp [read?, hplain, hletter]
    · rw [read?] <;> simp [hd, hplain]

theorem read?_delimiter {d : Char} (hd : d ∈ delimiters) (cs : List Char) :
    read? (d :: cs) = some (ofDelimiter? d, cs) := by
  have hother : read?.readOther d cs = (ofDelimiter? d, cs) := by
    simp only [delimiters, List.mem_cons, List.not_mem_nil, or_false] at hd
    rcases hd with rfl | rfl | rfl | rfl | rfl | rfl <;> rfl
  rw [read?_of_plain _ _ cs, hother]
  · exact of_mem_delimiters hd (by decide)
  · exact of_mem_delimiters hd (by decide)

theorem ofText?_parenthesised {sql after : String} {tokens later : List Token}
    (hsql : ofText? sql = some tokens) (hafter : ofText? after = some later)
    (hends : ¬EndsInLineComment sql.toList) :
    ofText? ("(" ++ sql ++ ")" ++ after) =
      some (mark "(" :: tokens ++ mark ")" :: later) := by
  have hopening : '(' ∈ delimiters ∧ ')' ∈ delimiters := by decide
  have hclosing := readAll_of_read?
    (read?_delimiter hopening.2 after.toList) hafter
  have hinner := readAll_append_delimiter hopening.2 hsql hends hclosing
  have houter := readAll_of_read? (read?_delimiter hopening.1 _) hinner
  have hlength : ("(" ++ sql ++ ")" ++ after).length =
      sql.length + (after.length + 1) + 1 := by
    simp only [String.length_append, show "(".length = 1 from rfl,
      show ")".length = 1 from rfl]
    omega
  simpa [ofText?, hlength] using houter

theorem ofText?_parenthesised_of_endsInLineComment {sql : String}
    {tokens : List Token} (hsql : ofText? sql = some tokens)
    (hends : EndsInLineComment sql.toList) :
    ofText? ("(" ++ sql ++ ")") = some (mark "(" :: tokens) := by
  have hlater : readAll 1 (skipLine []) = some [] := rfl
  have hinner := readAll_append_of_endsInLineComment hends hsql hlater
  have hopening : '(' ∈ delimiters := by decide
  have houter := readAll_of_read? (read?_delimiter hopening _) hinner
  have hlength : ("(" ++ sql ++ ")").length = sql.length + 1 + 1 := by
    simp only [String.length_append, show "(".length = 1 from rfl,
      show ")".length = 1 from rfl]
    omega
  simpa [ofText?, hlength] using houter

end GovernedCatalog.Sql.Token
