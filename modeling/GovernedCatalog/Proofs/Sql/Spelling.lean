import GovernedCatalog.Proofs.Sql.Token
import GovernedCatalog.Sql.Name
import GovernedCatalog.Text.Search
import Mathlib.Data.List.Forall2

/-!
# Texts that spell tokens

A text spells tokens if it is read as these tokens whatever text stands behind
it, as long as that text begins with a character that ends the last token.  So
what a text spells follows from what its parts spell.
-/

/-!
## Quoted texts read back

Behind an opening quote the reader of quoted texts stops at the closing quote,
whatever stands between them, as long as no other quote follows.
-/

namespace GovernedCatalog

namespace Text

theorem scan_double (quote : Char) (cs rest : List Char)
    (hrest : rest.head? ≠ some quote) :
    scan quote (double quote cs ++ quote :: rest) = some (cs, rest) := by
  induction cs with
  | nil =>
    cases rest with
    | nil => simp [double, scan]
    | cons d rest =>
      have hd : d ≠ quote := by simpa using hrest
      simp [double, scan, hd]
  | cons c cs ih =>
    by_cases hc : c = quote
    · subst hc
      simp [double, scan, ih]
    · rw [double, if_neg hc, List.cons_append, scan.eq_def]
      simp [hc, ih]

end Text

namespace Sql

theorem toList_identifier (name : String) :
    (identifier name).toList = '"' :: (Text.double '"' name.toList ++ ['"']) := by
  simp [identifier, Text.enclose]

theorem toList_literal (text : String) :
    (literal text).toList =
      '\'' :: (Text.double '\'' text.toList ++ ['\'']) := by
  simp [literal, Text.enclose]

end Sql

end GovernedCatalog

/-! ## Texts and what may stand behind them -/

namespace GovernedCatalog.Sql.Token

/-- The text is empty or begins with such a character. -/
def Begins (p : Char → Prop) (cs : List Char) : Prop := ∀ c ∈ cs.head?, p c

theorem begins_nil (p : Char → Prop) : Begins p [] := by simp [Begins]

@[simp] theorem begins_cons {p : Char → Prop} {c : Char} {cs : List Char} :
    Begins p (c :: cs) ↔ p c := by simp [Begins]

theorem begins_any (cs : List Char) : Begins (fun _ => True) cs :=
  fun _ _ => trivial

/-- The text begins with a delimiter. -/
def Delimited (sql : String) : Prop :=
  ∃ d ∈ delimiters, sql.toList.head? = some d

instance (sql : String) : Decidable (Delimited sql) :=
  List.decidableBEx (fun d => sql.toList.head? = some d) delimiters

/-- The text is read as the tokens, also between parentheses. -/
def ReadsAs (sql : String) (tokens : List Token) : Prop :=
  ofText? sql = some tokens ∧
    ofText? ("(" ++ sql ++ ")") = some (mark "(" :: tokens ++ [mark ")"])

instance (sql : String) (tokens : List Token) : Decidable (ReadsAs sql tokens) :=
  inferInstanceAs (Decidable (_ ∧ _))

/-- A comment would take the closing parenthesis. -/
theorem ReadsAs.not_endsInLineComment {sql : String} {tokens : List Token}
    (h : ReadsAs sql tokens) : ¬EndsInLineComment sql.toList := by
  intro hends
  have hopen := ofText?_parenthesised_of_endsInLineComment h.1 hends
  rw [h.2] at hopen
  simp at hopen

/-- In front of every text that begins with such a character the text is read
as the tokens. -/
def Spells (p : Char → Prop) (sql : String) (tokens : List Token) : Prop :=
  ∀ (rest : List Char) (later : List Token), Begins p rest →
    readAll rest.length rest = some later →
      readAll (sql.toList ++ rest).length (sql.toList ++ rest) =
        some (tokens ++ later)

/-- What the text spells in front of a delimiter. -/
abbrev SpellsWhole : String → List Token → Prop := Spells (· ∈ delimiters)

/-- What the text spells in front of any other one. -/
abbrev SpellsAlways : String → List Token → Prop := Spells fun _ => True

namespace Spells

variable {p q : Char → Prop} {sql sql' : String} {tokens tokens' : List Token}

theorem ofText? (h : Spells p sql tokens) :
    Token.ofText? sql = some tokens := by
  have hread := h [] [] (begins_nil p) rfl
  simpa [Token.ofText?, String.length_toList] using hread

theorem mono (h : Spells p sql tokens) (hpq : ∀ c, q c → p c) :
    Spells q sql tokens :=
  fun rest later hrest => h rest later fun c hc => hpq c (hrest c hc)

theorem append (h : Spells p sql tokens) (h' : Spells q sql' tokens')
    (hbegins : ∀ {rest}, Begins q rest → Begins p (sql'.toList ++ rest)) :
    Spells q (sql ++ sql') (tokens ++ tokens') := by
  intro rest later hrest hlater
  have hread := h _ _ (hbegins hrest) (h' rest later hrest hlater)
  rwa [String.toList_append, List.append_assoc, List.append_assoc]

theorem then_ (h : SpellsAlways sql tokens) (h' : Spells q sql' tokens') :
    Spells q (sql ++ sql') (tokens ++ tokens') :=
  h.append h' fun _ => begins_any _

/-- A text that ends where a delimiter begins the next one. -/
theorem before (h : SpellsWhole sql tokens) (h' : Spells q sql' tokens')
    (hstart : Delimited sql') : Spells q (sql ++ sql') (tokens ++ tokens') := by
  apply h.append h'
  intro rest _ c hc
  obtain ⟨d, hd, hhead⟩ := hstart
  rw [List.head?_append, hhead] at hc
  cases hc
  exact hd

theorem whole (h : SpellsAlways sql tokens) : SpellsWhole sql tokens :=
  h.mono fun _ _ => trivial

/-- A quote is no delimiter. -/
theorem of_quote {quote : Char} (h : Spells (· ≠ quote) sql tokens)
    (hquote : quote ∉ delimiters) : SpellsWhole sql tokens := by
  apply h.mono
  rintro c hc rfl
  exact hquote hc

theorem of_read? {token? : Option Token} {c : Char} {cs : List Char}
    (hsql : sql.toList = c :: cs)
    (h : ∀ rest, Begins p rest →
      read? (c :: (cs ++ rest)) = some (token?, rest)) :
    Spells p sql token?.toList := by
  intro rest later hrest hlater
  rw [hsql]
  apply readAll_mono (readAll_of_read? (h rest hrest) hlater)
  simp

theorem of_token {token : Token} {c : Char} {cs : List Char}
    (hsql : sql.toList = c :: cs)
    (h : ∀ rest, Begins p rest →
      read? (c :: (cs ++ rest)) = some (some token, rest)) :
    Spells p sql [token] :=
  of_read? hsql h

/-- A text that does not end inside of a comment. -/
theorem of_ofText? (h : Token.ofText? sql = some tokens)
    (hends : ¬EndsInLineComment sql.toList) : SpellsWhole sql tokens := by
  intro rest later hrest hlater
  unfold Token.ofText? at h
  cases rest with
  | nil =>
      obtain rfl : [] = later := by simpa [readAll] using hlater
      simpa [String.length_toList] using h
  | cons d rest =>
      have hread := readAll_append_delimiter (begins_cons.1 hrest) h hends hlater
      simpa [String.length_toList] using hread

theorem of_readsAs (h : ReadsAs sql tokens) : SpellsWhole sql tokens :=
  of_ofText? h.1 h.not_endsInLineComment

/-- A text and a fixed end. -/
theorem ended (h : SpellsWhole sql tokens)
    (hend : Delimited sql' ∧ ReadsAs sql' tokens') :
    SpellsWhole (sql ++ sql') (tokens ++ tokens') :=
  h.before (of_readsAs hend.2) hend.1

end Spells

/-! ## Parts of texts -/

theorem spells_delimiter (d : Char) (hd : d ∈ delimiters) :
    SpellsAlways (String.singleton d) (ofDelimiter? d).toList :=
  Spells.of_read? (String.toList_singleton d) fun rest _ =>
    read?_delimiter hd rest

theorem Spells.closed {sql : String} {tokens : List Token}
    (h : SpellsWhole sql tokens) (d : Char) (hd : d ∈ delimiters) :
    SpellsAlways (sql ++ String.singleton d)
      (tokens ++ (ofDelimiter? d).toList) :=
  h.append (spells_delimiter d hd) fun _ => by simpa using hd

/-- A fixed text with a blank behind it. -/
theorem spells_spaced (front : String) {tokens : List Token}
    (h : ReadsAs front tokens) : SpellsAlways (front ++ " ") tokens := by
  have hspells := (Spells.of_readsAs h).closed ' ' (by decide)
  have hblank : (ofDelimiter? ' ').toList = [] := rfl
  rwa [hblank, List.append_nil] at hspells

/-- A text that can stand between any two others. -/
structure Separates (sql : String) (tokens : List Token) : Prop where
  starts : Delimited sql
  spells : SpellsAlways sql tokens

theorem separates_spaced (front : String) {tokens : List Token}
    (h : Delimited (front ++ " ") ∧ ReadsAs front tokens) :
    Separates (front ++ " ") tokens :=
  ⟨h.1, spells_spaced front h.2⟩

theorem separates_comma : Separates ", " [mark ","] :=
  separates_spaced "," (by decide +kernel)

theorem Spells.separated {q : Char → Prop} {sql separator sql' : String}
    {tokens between tokens' : List Token} (h : SpellsWhole sql tokens)
    (hseparator : Separates separator between) (h' : Spells q sql' tokens') :
    Spells q (sql ++ separator ++ sql') (tokens ++ between ++ tokens') :=
  (h.before hseparator.spells hseparator.starts).then_ h'

/-- A quoted name is one token, which ends where it was closed. -/
theorem read?_identifier (name : String) {rest : List Char}
    (hrest : rest.head? ≠ some '"') :
    read? ((identifier name).toList ++ rest) = some (some (quoted '"' name), rest) := by
  have hscan := Text.scan_double '"' name.toList rest hrest
  simp [toList_identifier, read?, readQuoted, hscan]

theorem read?_literal (value : String) {rest : List Char}
    (hrest : rest.head? ≠ some '\'') :
    read? ((literal value).toList ++ rest) = some (some (text value), rest) := by
  have hscan := Text.scan_double '\'' value.toList rest hrest
  simp [toList_literal, read?, hscan]

theorem spells_identifier (name : String) :
    Spells (· ≠ '"') (identifier name) [quoted '"' name] := by
  apply Spells.of_token (toList_identifier name)
  intro rest hrest
  have hread := read?_identifier name fun hquote => hrest '"' hquote rfl
  rwa [toList_identifier] at hread

theorem spells_literal (value : String) :
    Spells (· ≠ '\'') (literal value) [text value] := by
  apply Spells.of_token (toList_literal value)
  intro rest hrest
  have hread := read?_literal value fun hquote => hrest '\'' hquote rfl
  rwa [toList_literal] at hread

theorem spells_cast : SpellsAlways "::" [mark "::"] :=
  Spells.of_token rfl fun _ _ => rfl

theorem spells_null : SpellsAlways "NULL::" [word "NULL", mark "::"] := by
  intro rest later _ hlater
  have hcast := spells_cast rest later (begins_any rest) hlater
  have hnull : read? ("NULL".toList ++ ("::".toList ++ rest)) =
      some (some (word "NULL"), "::".toList ++ rest) := rfl
  exact readAll_mono (readAll_of_read? hnull hcast) (by simp)

/-- A point before a quoted name. -/
theorem spells_point : Spells (· = '"') "." [mark "."] := by
  have hsql : ".".toList = ['.'] := rfl
  apply Spells.of_token hsql
  intro rest hrest
  cases rest with
  | nil => rfl
  | cons c rest =>
      obtain rfl := begins_cons.1 hrest
      have hother : read? ('.' :: '"' :: rest) =
          some (read?.readOther '.' ('"' :: rest)) := rfl
      have hnumber : readNumber ('.' :: '"' :: rest) =
          (mark ".", '"' :: rest) := by
        simp [readNumber]
      simp [hother, read?.readOther, hnumber]

/-- A quoted name, whatever is in it. -/
theorem whole_identifier (name : String) :
    SpellsWhole (identifier name) [quoted '"' name] :=
  (spells_identifier name).of_quote (by decide)

theorem whole_literal (value : String) :
    SpellsWhole (literal value) [text value] :=
  (spells_literal value).of_quote (by decide)

theorem spells_qualified (schema name : String) :
    Spells (· ≠ '"') (qualified schema name)
      [quoted '"' schema, mark ".", quoted '"' name] := by
  have hpoint := spells_point.append (spells_identifier name) fun _ => by
    simp [toList_identifier]
  have hname := (spells_identifier schema).append hpoint fun _ => by simp
  rwa [← String.append_assoc] at hname

/-! ## Texts with separators -/

/-- Lists of tokens with the separator between neighbours. -/
def joined (separator : List Token) : List (List Token) → List Token
  | [] => []
  | [tokens] => tokens
  | tokens :: rest => tokens ++ (separator ++ joined separator rest)

theorem spells_empty (p : Char → Prop) : Spells p "" [] := by
  intro rest later _ hlater
  exact hlater

theorem spells_join {separator : String} {between : List Token}
    (hseparator : Separates separator between) {texts : List String} {tokens : List (List Token)}
    (h : List.Forall₂ SpellsWhole texts tokens) :
    SpellsWhole (Text.join separator texts) (joined between tokens) := by
  induction h with
  | nil => exact spells_empty _
  | @cons sql ts texts tokens hfirst hrest ih =>
      cases hrest with
      | nil => exact hfirst
      | cons hsecond hrest =>
          have hlater := hfirst.separated hseparator ih
          rwa [List.append_assoc] at hlater

/-- The text spells tokens with the property. -/
def Writes (P : List Token → Prop) (sql : String) : Prop :=
  ∃ tokens, SpellsWhole sql tokens ∧ P tokens

theorem Writes.mono {P Q : List Token → Prop} {sql : String} (h : Writes P sql)
    (hPQ : ∀ tokens, P tokens → Q tokens) : Writes Q sql := by
  obtain ⟨tokens, hsql, htokens⟩ := h
  exact ⟨tokens, hsql, hPQ tokens htokens⟩

/-- Texts with separators spell tokens with separators. -/
theorem Writes.join {separator : String} {between : List Token}
    (hseparator : Separates separator between)
    {P : List Token → Prop} {texts : List String}
    (h : ∀ sql ∈ texts, Writes P sql) :
    Writes (fun tokens => ∃ items, joined between items = tokens ∧
        (texts ≠ [] → items ≠ []) ∧ ∀ item ∈ items, P item)
      (Text.join separator texts) := by
  have hall : ∃ items, List.Forall₂ SpellsWhole texts items ∧
      ∀ item ∈ items, P item := by
    induction texts with
    | nil => exact ⟨[], .nil, by simp⟩
    | cons sql texts ih =>
        obtain ⟨⟨first, hfirst, hP⟩, htexts⟩ := List.forall_mem_cons.1 h
        obtain ⟨items, hspells, hitems⟩ := ih htexts
        exact ⟨first :: items, .cons hfirst hspells,
          List.forall_mem_cons.2 ⟨hP, hitems⟩⟩
  obtain ⟨items, hspells, hitems⟩ := hall
  refine ⟨_, spells_join hseparator hspells, items, rfl, ?_, hitems⟩
  rintro hne rfl
  cases hspells
  exact hne rfl

end GovernedCatalog.Sql.Token
