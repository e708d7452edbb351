import GovernedCatalog.Digest.Sha256
import GovernedCatalog.Text.Quoted
import GovernedCatalog.Text.Search

/-!
# Names and texts in SQL

Identifiers stand between double quotes and texts between single quotes.
-/

namespace GovernedCatalog.Sql

def identifier (name : String) : String :=
  String.ofList (Text.enclose '"' name.toList)

def literal (text : String) : String :=
  String.ofList (Text.enclose '\'' text.toList)

def qualified (schema name : String) : String :=
  identifier schema ++ "." ++ identifier name

/-- An array constant of texts. -/
def textArray (texts : List String) : String :=
  "ARRAY[" ++ Text.join ", " (texts.map literal) ++ "]::text[]"

/-! ## Names derived from other names

The name of an object that belongs to other named objects is a readable
beginning, eight digits of a digest, and its kind, as in
`people_name_1f0c9a2e_idx`.  The digest covers every part on its own, so that it
tells parts apart whose joined texts coincide. -/

/-- Goes back from a byte position until it is between two characters, and fails
where it would go below zero. -/
def boundary? (text : String) (position : Nat) : Option text.Pos :=
  if h : (String.Pos.Raw.mk position).IsValid text then some ⟨⟨position⟩, h⟩
  else
    match position with
    | 0 => none
    | previous + 1 => boundary? text previous

/-- A step back from a position that is no boundary passes none. -/
theorem posLE_succ {text : String} {position : Nat}
    (hinvalid : ¬(String.Pos.Raw.mk (position + 1)).IsValid text) :
    text.posLE ⟨position + 1⟩ = text.posLE ⟨position⟩ := by
  rw [String.posLE_eq_iff]
  constructor
  · have hle : (text.posLE ⟨position⟩).offset ≤ ⟨position⟩ := String.offset_posLE_le
    exact Nat.le_succ_of_le hle
  · intro p hp
    have hne : p.offset.byteIdx ≠ position + 1 := fun heq => hinvalid (heq ▸ p.isValid)
    have hle : p.offset.byteIdx ≤ position + 1 := hp
    exact String.le_posLE_iff.2 (Nat.le_of_lt_succ (Nat.lt_of_le_of_ne hle hne))

/-- The way back ends, at the last boundary that is not behind the position: position
zero is one. -/
theorem boundary?_eq_posLE (text : String) (position : Nat) :
    boundary? text position = some (text.posLE ⟨position⟩) := by
  induction position with
  | zero =>
    have hstart : (String.Pos.Raw.mk 0).IsValid text := String.Pos.Raw.isValid_zero
    rw [boundary?, dif_pos hstart, String.posLE_eq_pos hstart]
    rfl
  | succ previous ih =>
    rw [boundary?]
    split
    · next hvalid =>
      rw [String.posLE_eq_pos hvalid]
      rfl
    · next hinvalid =>
      rw [posLE_succ hinvalid]
      exact ih

theorem boundary?_isSome (text : String) (position : Nat) :
    (boundary? text position).isSome := by
  rw [boundary?_eq_posLE]
  rfl

/-- What stands in front of the boundary that is reached from a byte position. -/
def beginning (text : String) (position : Nat) : String :=
  let reached := (boundary? text position).get (boundary?_isSome text position)
  (text.sliceTo reached).copy

def utf8 (text : String) : List UInt8 := text.toUTF8.data.toList

/-- Every part followed by a zero byte, then the kind. -/
def digestInput (parts : List String) (kind : String) : List UInt8 :=
  (parts.flatMap fun part => utf8 part ++ [0]) ++ utf8 kind

/-- The first eight digits of the digest. -/
def digestDigits (digest : List UInt8 → List UInt8) (parts : List String)
    (kind : String) : List Char :=
  ((digest (digestInput parts kind)).flatMap Sha256.hexByte).take 8

/-- The end of a derived name: eight digits of the digest and the kind. -/
def derivedTail (digest : List UInt8 → List UInt8) (parts : List String)
    (kind : String) : List Char :=
  '_' :: (digestDigits digest parts kind ++ '_' :: kind.toList)

/-- The derived name for a given digest function. -/
def derivedNameWith (digest : List UInt8 → List UInt8) (parts : List String)
    (kind : String) (limit : Nat) : String :=
  let tail := String.ofList (derivedTail digest parts kind)
  let readable := Text.join "_" parts
  beginning readable (min (limit - tail.utf8ByteSize) readable.utf8ByteSize) ++ tail

def derivedName : List String → String → Nat → String :=
  derivedNameWith Sha256.digest

/-- The longest name the database keeps, in bytes. -/
def maxNameBytes : Nat := 63

end GovernedCatalog.Sql
