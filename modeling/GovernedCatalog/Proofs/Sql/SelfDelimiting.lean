import GovernedCatalog.Overlay.Storage
import GovernedCatalog.Proofs.Sql.Spelling

/-!
# Texts that say where they end

A quoted name or text is one token for a reader of SQL, whatever is in it, and so
tells its value and its own end.  What is put together from such texts with fixed
ones between them does so too: two statements that delete stored rows are equal only
if they are for the same rows, whatever the names of these rows contain.
-/

namespace GovernedCatalog.Sql

open Token (Begins begins_nil begins_cons)

/-- The text begins with such a character. -/
def StartsWith (p : Char → Prop) (sql : String) : Prop :=
  ∃ c, sql.toList.head? = some c ∧ p c

theorem StartsWith.begins {p : Char → Prop} {sql : String} (h : StartsWith p sql)
    (rest : List Char) : Begins p (sql.toList ++ rest) := by
  obtain ⟨c, hhead, hc⟩ := h
  intro d hd
  rw [List.head?_append, hhead] at hd
  cases hd
  exact hc

/-- A text that begins in one way is no text that begins in another way, or that is
empty. -/
theorem StartsWith.append_ne {p : Char → Prop} {sql : String} (h : StartsWith p sql)
    (rest : List Char) {other : List Char} (hother : Begins (¬p ·) other) :
    sql.toList ++ rest ≠ other := by
  rintro rfl
  obtain ⟨c, hhead, hc⟩ := h
  exact hother c (by rw [List.head?_append, hhead]; rfl) hc

theorem StartsWith.append {p : Char → Prop} {sql : String} (h : StartsWith p sql)
    (sql' : String) : StartsWith p (sql ++ sql') := by
  obtain ⟨c, hhead, hc⟩ := h
  exact ⟨c, by rw [String.toList_append, List.head?_append, hhead]; rfl, hc⟩

/-- What is written for a value tells the value and where it ends, in front of every
text that begins with such a character. -/
def SelfDelimiting {α : Type} (p : Char → Prop) (write : α → String) : Prop :=
  ∀ ⦃a a' : α⦄ ⦃rest rest' : List Char⦄, Begins p rest → Begins p rest' →
    (write a).toList ++ rest = (write a').toList ++ rest' → a = a' ∧ rest = rest'

namespace SelfDelimiting

variable {α β : Type} {p q : Char → Prop} {write : α → String} {write' : β → String}

theorem injective (h : SelfDelimiting p write) : Function.Injective write := by
  intro a a' heq
  exact (h (begins_nil p) (begins_nil p) (by rw [heq])).1

/-- Two values with a fixed text between them. -/
theorem pair (h : SelfDelimiting p write) (h' : SelfDelimiting q write')
    {between : String} (hbetween : StartsWith p between) :
    SelfDelimiting q fun x : α × β => write x.1 ++ between ++ write' x.2 := by
  intro x x' rest rest' hrest hrest' heq
  simp only [String.toList_append, List.append_assoc] at heq
  obtain ⟨hfirst, heq⟩ := h (hbetween.begins _) (hbetween.begins _) heq
  obtain ⟨hsecond, hend⟩ := h' hrest hrest' (List.append_cancel_left heq)
  exact ⟨Prod.ext hfirst hsecond, hend⟩

/-- A value between two fixed texts. -/
theorem enclosed (h : SelfDelimiting p write) (before : String) {after : String}
    (hafter : StartsWith p after) :
    SelfDelimiting q fun a => before ++ write a ++ after := by
  intro a a' rest rest' _ _ heq
  simp only [String.toList_append, List.append_assoc] at heq
  obtain ⟨hvalue, heq⟩ :=
    h (hafter.begins rest) (hafter.begins rest') (List.append_cancel_left heq)
  exact ⟨hvalue, List.append_cancel_left heq⟩

/-- A value that a fixed text follows, whatever stands behind that. -/
theorem eq_of_append (h : SelfDelimiting p write) {before between rest rest' : String}
    (hbetween : StartsWith p between) {a a' : α}
    (heq : before ++ (write a ++ (between ++ rest)) =
      before ++ (write a' ++ (between ++ rest'))) : a = a' := by
  have htext := congrArg String.toList heq
  simp only [String.toList_append] at htext
  exact (h (hbetween.begins _) (hbetween.begins _) (List.append_cancel_left htext)).1

end SelfDelimiting

/-! ## Lists -/

/-- Values that follow others, each behind a separator. -/
def further {α : Type} (separator : String) (write : α → String) (values : List α) :
    List Char :=
  values.flatMap fun a => separator.toList ++ (write a).toList

theorem toList_join_cons {α : Type} (separator : String) (write : α → String) (a : α)
    (values : List α) :
    (Text.join separator ((a :: values).map write)).toList =
      (write a).toList ++ further separator write values := by
  induction values generalizing a with
  | nil => simp [Text.join, further]
  | cons b values ih =>
    have hrest := ih b
    rw [List.map_cons] at hrest
    simp [Text.join, hrest, further]

section Lists

variable {α : Type} {p : Char → Prop} {write : α → String} {separator : String}
  {last : Char} (h : SelfDelimiting p write)
  (hseparator : StartsWith (fun c => c ≠ last ∧ p c) separator) (hlast : p last)

include hseparator

theorem further_begins (hlast : p last) (values : List α) {rest : List Char}
    (hrest : Begins (· = last) rest) : Begins p (further separator write values ++ rest) := by
  cases values with
  | nil => exact fun c hc => hrest c hc ▸ hlast
  | cons a values =>
    obtain ⟨c, hhead, -, hc⟩ := hseparator
    have hstarts : StartsWith p separator := ⟨c, hhead, hc⟩
    simpa [further] using hstarts.begins _

include h hlast

/-- The values that follow are told by what is written for them, in front of a
character with which no separator begins. -/
theorem further_inj {values values' : List α} {rest rest' : List Char}
    (hrest : Begins (· = last) rest) (hrest' : Begins (· = last) rest')
    (heq : further separator write values ++ rest =
      further separator write values' ++ rest') : values = values' ∧ rest = rest' := by
  have hapart : ∀ (a : α) (values : List α) (rest : List Char) {other : List Char},
      Begins (· = last) other →
        further separator write (a :: values) ++ rest ≠ other := by
    intro a values rest other hother
    have hne := hseparator.append_ne ((write a).toList ++ further separator write values ++ rest)
      fun c hc hstarts => hstarts.1 (hother c hc)
    simpa [further] using hne
  induction values generalizing values' with
  | nil =>
    cases values' with
    | nil => exact ⟨rfl, heq⟩
    | cons a' values' => exact absurd heq.symm (hapart a' values' rest' hrest)
  | cons a values ih =>
    cases values' with
    | nil => exact absurd heq (hapart a values rest hrest')
    | cons a' values' =>
      simp only [further, List.flatMap_cons, List.append_assoc] at heq
      obtain ⟨hfirst, heq⟩ := h (further_begins hseparator hlast values hrest)
        (further_begins hseparator hlast values' hrest') (List.append_cancel_left heq)
      obtain ⟨hvalues, hend⟩ := ih heq
      exact ⟨by rw [hfirst, hvalues], hend⟩

/-- A list of values in front of a character with which neither a value nor a
separator begins. -/
theorem SelfDelimiting.join (hvalue : ∀ a, StartsWith (· ≠ last) (write a)) :
    SelfDelimiting (· = last) fun values : List α =>
      Text.join separator (values.map write) := by
  have hapart : ∀ (a : α) (values : List α) (rest : List Char) {other : List Char},
      Begins (· = last) other →
        (Text.join separator ((a :: values).map write)).toList ++ rest ≠ other := by
    intro a values rest other hother
    rw [toList_join_cons, List.append_assoc]
    exact (hvalue a).append_ne _ fun c hc hne => hne (hother c hc)
  intro values values' rest rest' hrest hrest' heq
  cases values with
  | nil =>
    cases values' with
    | nil => exact ⟨rfl, heq⟩
    | cons a' values' => exact absurd heq.symm (hapart a' values' rest' hrest)
  | cons a values =>
    cases values' with
    | nil => exact absurd heq (hapart a values rest hrest')
    | cons a' values' =>
      simp only [toList_join_cons, List.append_assoc] at heq
      obtain ⟨hfirst, heq⟩ := h (further_begins hseparator hlast values hrest)
        (further_begins hseparator hlast values' hrest') heq
      obtain ⟨hvalues, hend⟩ := further_inj h hseparator hlast hrest hrest' heq
      exact ⟨by rw [hfirst, hvalues], hend⟩

end Lists

/-! ## Names and texts -/

theorem enclose_selfDelimiting (quote : Char) :
    SelfDelimiting (· ≠ quote) fun text : String =>
      String.ofList (Text.enclose quote text.toList) := by
  intro text text' rest rest' hrest hrest' heq
  have hread : ∀ (text : String) {rest : List Char}, Begins (· ≠ quote) rest →
      Text.scan quote (Text.double quote text.toList ++ quote :: rest) =
        some (text.toList, rest) :=
    fun text rest hrest => Text.scan_double quote text.toList rest fun hquote =>
      hrest quote hquote rfl
  have heq' : Text.double quote text.toList ++ quote :: rest =
      Text.double quote text'.toList ++ quote :: rest' := by
    simpa [Text.enclose] using heq
  have hsame := hread text hrest
  rw [heq', hread text' hrest', Option.some.injEq, Prod.mk.injEq, String.toList_inj] at hsame
  exact ⟨hsame.1.symm, hsame.2.symm⟩

theorem identifier_selfDelimiting : SelfDelimiting (· ≠ '"') identifier :=
  enclose_selfDelimiting '"'

theorem literal_selfDelimiting : SelfDelimiting (· ≠ '\'') literal :=
  enclose_selfDelimiting '\''

theorem identifier_starts (name : String) : StartsWith (· = '"') (identifier name) :=
  ⟨'"', by rw [toList_identifier]; rfl, rfl⟩

theorem literal_starts (text : String) : StartsWith (· = '\'') (literal text) :=
  ⟨'\'', by rw [toList_literal]; rfl, rfl⟩

theorem qualified_selfDelimiting :
    SelfDelimiting (· ≠ '"') fun names : String × String => qualified names.1 names.2 :=
  identifier_selfDelimiting.pair identifier_selfDelimiting ⟨'.', rfl, by decide⟩

/-- A name in SQL is the name of one thing only. -/
theorem identifier_inj {name name' : String} :
    identifier name = identifier name' ↔ name = name' :=
  identifier_selfDelimiting.injective.eq_iff

/-- No name is a name with a schema. -/
theorem qualified_ne_identifier (schema name name' : String) :
    qualified schema name ≠ identifier name' := by
  intro h
  have hdot : StartsWith (· ≠ '"') "." := ⟨'.', rfl, by decide⟩
  have htext : (identifier schema).toList ++ (".".toList ++ (identifier name).toList) =
      (identifier name').toList ++ [] := by
    simp [← h, qualified]
  have hend := (identifier_selfDelimiting (hdot.begins _) (begins_nil _) htext).2
  simp at hend

theorem textArray_selfDelimiting {p : Char → Prop} : SelfDelimiting p textArray := by
  have hseparator : StartsWith (fun c => c ≠ ']' ∧ c ≠ '\'') ", " := ⟨',', rfl, by decide⟩
  have hitems := literal_selfDelimiting.join hseparator (by decide) fun text => ?_
  · exact hitems.enclosed "ARRAY[" ⟨']', rfl, rfl⟩
  · obtain ⟨c, hhead, rfl⟩ := literal_starts text
    exact ⟨_, hhead, by decide⟩

end GovernedCatalog.Sql

namespace GovernedCatalog

open Sql

/-! ## Statements on stored rows -/

theorem KeyValue.sql_selfDelimiting : SelfDelimiting (· ≠ '\'') KeyValue.sql := by
  have hapart : ∀ (s : String) (items : List String) (rest rest' : List Char),
      (literal s).toList ++ rest ≠ (Sql.textArray items).toList ++ rest' := by
    intro s items rest rest'
    refine (literal_starts s).append_ne rest ?_
    simp [Sql.textArray]
  intro value value' rest rest' hrest hrest' heq
  cases value with
  | text s =>
    cases value' with
    | text s' =>
      obtain ⟨rfl, hend⟩ := literal_selfDelimiting hrest hrest' heq
      exact ⟨rfl, hend⟩
    | textArray items' => exact absurd heq (hapart s items' rest rest')
  | textArray items =>
    cases value' with
    | text s' => exact absurd heq.symm (hapart s' items rest' rest)
    | textArray items' =>
      obtain ⟨rfl, hend⟩ := textArray_selfDelimiting hrest hrest' heq
      exact ⟨rfl, hend⟩

theorem StorageKind.annotationTable_injective :
    Function.Injective annotationTable := by
  intro kind kind' h
  cases kind <;> cases kind' <;> first | rfl | exact absurd h (by decide)

namespace StorageKey

/-- The condition tells the key columns and their values. -/
theorem condition_selfDelimiting (kind : StorageKind) :
    SelfDelimiting (· = ';') fun columns => condition ⟨kind, columns⟩ := by
  have hequals : StartsWith (· ≠ '"') " = " := ⟨' ', rfl, by decide⟩
  have hcolumn := identifier_selfDelimiting.pair KeyValue.sql_selfDelimiting hequals
  have hstarts : ∀ c : String × KeyValue,
      StartsWith (· = '"') (identifier c.1 ++ " = " ++ c.2.sql) :=
    fun c => ((identifier_starts c.1).append _).append _
  have hseparator : StartsWith (fun c => c ≠ ';' ∧ c ≠ '\'') " AND " := ⟨' ', rfl, by decide⟩
  have hcolumns := hcolumn.join hseparator (by decide) fun c => by
      obtain ⟨q, hhead, rfl⟩ := hstarts c
      exact ⟨_, hhead, by decide⟩
  have hnonempty : ∀ (c : String × KeyValue) columns,
      condition ⟨kind, c :: columns⟩ = Text.join " AND "
        ((c :: columns).map fun c => identifier c.1 ++ " = " ++ c.2.sql) :=
    fun _ _ => rfl
  have hapart : ∀ (c : String × KeyValue) columns (rest rest' : List Char),
      (condition ⟨kind, c :: columns⟩).toList ++ rest ≠
        (condition ⟨kind, []⟩).toList ++ rest' := by
    intro c columns rest rest'
    rw [hnonempty, toList_join_cons, List.append_assoc]
    exact (hstarts c).append_ne _ (by simp [condition])
  intro columns columns' rest rest' hrest hrest' heq
  cases columns with
  | nil =>
    cases columns' with
    | nil => exact ⟨rfl, List.append_cancel_left heq⟩
    | cons c' columns' => exact absurd heq.symm (hapart c' columns' rest' rest)
  | cons c columns =>
    cases columns' with
    | nil => exact absurd heq (hapart c columns rest rest')
    | cons c' columns' => exact hcolumns hrest hrest' heq

/-- A statement tells the table from which it deletes rows, and the rows. -/
theorem deletion_injective (kind : StorageKind) :
    Function.Injective fun x : (String × String) × List (String × KeyValue) =>
      "DELETE FROM " ++ (qualified x.1.1 x.1.2 ++ " WHERE " ++
        condition ⟨kind, x.2⟩) ++ ";" := by
  have hwhere : StartsWith (· ≠ '"') " WHERE " := ⟨' ', rfl, by decide⟩
  have hparts := qualified_selfDelimiting.pair (condition_selfDelimiting kind) hwhere
  exact (hparts.enclosed (q := fun _ => True) "DELETE FROM " ⟨';', rfl, rfl⟩).injective

theorem purge_inj {key key' : StorageKey} {systemSchema systemSchema' : String} :
    key.purge systemSchema = key'.purge systemSchema' ↔
      key = key' ∧ systemSchema = systemSchema' := by
  constructor
  · intro h
    obtain ⟨kind, columns⟩ := key
    obtain ⟨kind', columns'⟩ := key'
    -- Every kind has a table of annotations, which stands first.
    have hfirst := congrArg List.head? h
    simp only [purge, StorageKind.tables, List.map_cons, List.head?_cons,
      Option.some.injEq] at hfirst
    have hcolumns : condition ⟨kind', columns'⟩ = condition ⟨kind, columns'⟩ := rfl
    rw [hcolumns] at hfirst
    have hsame := ((deletion_injective kind).eq_iff
      (a := ((systemSchema, kind.annotationTable), columns))
      (b := ((systemSchema', kind'.annotationTable), columns'))).1
      (by simpa only [String.append_assoc] using hfirst)
    simp only [Prod.mk.injEq] at hsame
    obtain ⟨⟨hsystem, htable⟩, rfl⟩ := hsame
    obtain rfl := StorageKind.annotationTable_injective htable
    exact ⟨rfl, hsystem⟩
  · rintro ⟨rfl, rfl⟩
    rfl

end StorageKey

/-- A name or text that is written is read as one token, which ends where it ended and
has the name or text in it.  So arrays of texts, qualified names and the statements
that delete stored rows tell what they were written for. -/
theorem written_recovered :
    (∀ name rest, rest.head? ≠ some '"' →
      Token.read? ((identifier name).toList ++ rest) = some (some (.quoted '"' name), rest)) ∧
    (∀ text rest, rest.head? ≠ some '\'' →
      Token.read? ((literal text).toList ++ rest) = some (some (.text text), rest)) ∧
    (∀ texts texts', textArray texts = textArray texts' ↔ texts = texts') ∧
    (∀ schema name schema' name', qualified schema name = qualified schema' name' ↔
      schema = schema' ∧ name = name') ∧
    ∀ (key key' : StorageKey) (systemSchema systemSchema' : String),
      key.purge systemSchema = key'.purge systemSchema' ↔
        key = key' ∧ systemSchema = systemSchema' := by
  refine ⟨fun name _ => Token.read?_identifier name,
    fun text _ => Token.read?_literal text, fun _ _ => ?_,
    fun schema name schema' name' => ?_, fun _ _ _ _ => StorageKey.purge_inj⟩
  · exact (textArray_selfDelimiting (p := fun _ => True)).injective.eq_iff
  · have hinj := qualified_selfDelimiting.injective.eq_iff (a := (schema, name))
      (b := (schema', name'))
    rwa [Prod.mk.injEq] at hinj

/-- A name that looks like the end of a condition, and a text that looks like the end
of an array. -/
theorem written_recovered_hostile :
    let name := "a\" = 'b' OR \"\""
    let text := "a', 'b']::text[] AND ''"
    [';'].head? ≠ some '"' ∧
      Token.read? ((identifier name).toList ++ [';']) = some (some (.quoted '"' name), [';']) ∧
      [']'].head? ≠ some '\'' ∧
      Token.read? ((literal text).toList ++ [']']) = some (some (.text text), [']']) ∧
      textArray [text] ≠ textArray ["a", "b"] := by
  intro name text
  obtain ⟨hname, htext, harray, -⟩ := written_recovered
  exact ⟨by decide, hname name _ (by decide), by decide, htext text _ (by decide),
    mt (harray _ _).1 (by decide)⟩

end GovernedCatalog
