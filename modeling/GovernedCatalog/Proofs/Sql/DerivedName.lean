import GovernedCatalog.Model.Definition
import GovernedCatalog.Proofs.Fallible
import GovernedCatalog.Proofs.Sql.SelfDelimiting
import GovernedCatalog.Settings.Document
import GovernedCatalog.Toml.Document
import Mathlib.Data.List.Basic
import Mathlib.Data.String.Basic

/-!
# Derived names

A derived name has a readable part and a tail: eight digits of a digest and the kind.
The readable part is the longest beginning of the joined parts that has room in front of
the tail, and the tail is never cut.  So the name fits exactly if its tail does.  Settings
admit limits into which the tail of an index on values fits, but not that of an index on
texts.

The tail has a fixed length for each kind, whatever stands in front of it.  So names of
one kind tell the digits of their digests, and an index on values is never named like an
index on texts.  What is digested tells the parts and the kind: the zero bytes in it stand
behind the parts, if there are no NUL characters in them.
-/

namespace GovernedCatalog

namespace Sha256

theorem length_bigEndian (count n : Nat) : (bigEndian count n).length = count := by
  simp [bigEndian]

theorem length_digest (message : List UInt8) : (digest message).length = 32 := by
  simp [digest, length_bigEndian]

theorem four_le_length_digest (message : List UInt8) : 4 ≤ (digest message).length := by
  rw [length_digest]
  decide

/-- Bytes are written with digits in base sixteen. -/
theorem exists_digit_of_mem_hexByte {b : UInt8} {c : Char} (h : c ∈ hexByte b) :
    ∃ n < 16, c = Nat.digitChar n := by
  have hbyte : b.toNat < 256 := b.toNat_lt
  simp only [hexByte, List.mem_cons, List.not_mem_nil, or_false] at h
  rcases h with rfl | rfl
  · exact ⟨b.toNat / 16, by omega, rfl⟩
  · exact ⟨b.toNat % 16, Nat.mod_lt _ (by decide), rfl⟩

theorem length_flatMap_hexByte (bytes : List UInt8) :
    (bytes.flatMap hexByte).length = 2 * bytes.length := by
  simp [List.length_flatMap, hexByte, Nat.mul_comm]

end Sha256

namespace Sql

open String (utf8Len)

/-! ## The readable part -/

theorem beginning_eq (text : String) (position : Nat) :
    beginning text position = (text.sliceTo (text.posLE ⟨position⟩)).copy := by
  simp only [beginning, boundary?_eq_posLE, Option.get_some]

theorem utf8ByteSize_beginning_le (text : String) (position : Nat) :
    (beginning text position).utf8ByteSize ≤ position := by
  rw [beginning_eq, String.Slice.utf8ByteSize_copy, String.utf8ByteSize_sliceTo]
  exact String.offset_posLE_le

/-- The longest of the beginnings of a text that consist of whole characters and have
room. -/
structure IsLongestWithin (room : Nat) (text start : String) : Prop where
  begins : start.toList <+: text.toList
  fits : start.utf8ByteSize ≤ room
  longest : ∀ other : String, other.toList <+: text.toList → other.utf8ByteSize ≤ room →
    other.toList <+: start.toList

theorem IsLongestWithin.eq_empty {text start : String} (h : IsLongestWithin 0 text start) :
    start = "" :=
  String.utf8ByteSize_eq_zero_iff.1 (Nat.le_zero.1 h.fits)

/-- Of two beginnings of a text the one with fewer bytes is a beginning of the other. -/
theorem isPrefix_of_utf8Len_le {cs cs' text : List Char} (h : cs <+: text)
    (h' : cs' <+: text) (hsize : utf8Len cs ≤ utf8Len cs') : cs <+: cs' := by
  rcases List.prefix_or_prefix_of_prefix h h' with hcs | ⟨more, rfl⟩
  · exact hcs
  · have hmore : more = [] := by
      rw [String.utf8Len_append] at hsize
      exact String.utf8Len_eq_zero.1 (by omega)
    simp [hmore]

/-- Every beginning of a text ends at one of its boundaries. -/
theorem exists_boundary_of_isPrefix {start text : String} (h : start.toList <+: text.toList) :
    ∃ p : text.Pos, p.offset.byteIdx = start.utf8ByteSize := by
  obtain ⟨rest, hrest⟩ := h
  have htext : text = start ++ String.ofList rest := by
    rw [← String.toList_inj, String.toList_append, String.toList_ofList, hrest]
  have hvalid : start.rawEndPos.IsValid text :=
    String.Pos.Raw.isValid_iff_exists_append.2 ⟨start, String.ofList rest, htext, rfl⟩
  exact ⟨⟨start.rawEndPos, hvalid⟩, rfl⟩

theorem isLongestWithin_beginning (room : Nat) (text : String) :
    IsLongestWithin room text (beginning text (min room text.utf8ByteSize)) := by
  have hbegins : (beginning text (min room text.utf8ByteSize)).toList <+: text.toList := by
    rw [beginning_eq]
    exact ⟨_, by rw [← String.toList_append, String.sliceTo_append_sliceFrom]⟩
  refine ⟨hbegins, (utf8ByteSize_beginning_le _ _).trans (Nat.min_le_left _ _), ?_⟩
  intro other hother hroom
  refine isPrefix_of_utf8Len_le hother hbegins ?_
  obtain ⟨p, hp⟩ := exists_boundary_of_isPrefix hother
  have hwithin : p.offset ≤ ⟨min room text.utf8ByteSize⟩ :=
    Nat.le_min.2 ⟨hp.le.trans hroom, p.isValid.le_utf8ByteSize⟩
  have hreached : p ≤ text.posLE ⟨min room text.utf8ByteSize⟩ := String.le_posLE_iff.2 hwithin
  rw [String.utf8Len_toList, String.utf8Len_toList, ← hp, beginning_eq,
    String.Slice.utf8ByteSize_copy, String.utf8ByteSize_sliceTo]
  exact hreached

/-! ## The tail and the size -/

/-- The bytes of a derived name's tail. -/
def tailBytes (kind : String) : Nat := kind.utf8ByteSize + 10

theorem mem_digestDigits {digest : List UInt8 → List UInt8} {parts : List String}
    {kind : String} {c : Char} (h : c ∈ digestDigits digest parts kind) :
    ∃ n < 16, c = Nat.digitChar n := by
  obtain ⟨b, -, hc⟩ := List.mem_flatMap.1 (List.mem_of_mem_take h)
  exact Sha256.exists_digit_of_mem_hexByte hc

theorem utf8Len_eq_length {cs : List Char} (h : ∀ c ∈ cs, c.utf8Size = 1) :
    utf8Len cs = cs.length := by
  induction cs with
  | nil => rfl
  | cons c cs ih =>
    rw [List.forall_mem_cons] at h
    rw [String.utf8Len_cons, ih h.2, h.1, List.length_cons]

section Size

variable {digest : List UInt8 → List UInt8} (hdigest : ∀ message, 4 ≤ (digest message).length)
  (parts : List String) (kind : String) (limit : Nat)

include hdigest

theorem length_digestDigits : (digestDigits digest parts kind).length = 8 := by
  have hbytes := hdigest (digestInput parts kind)
  rw [digestDigits, List.length_take, Sha256.length_flatMap_hexByte]
  omega

theorem utf8Len_derivedTail : utf8Len (derivedTail digest parts kind) = tailBytes kind := by
  have hone : ∀ n < 16, (Nat.digitChar n).utf8Size = 1 := by decide
  have hdigits : utf8Len (digestDigits digest parts kind) = 8 := by
    rw [utf8Len_eq_length, length_digestDigits hdigest]
    intro c hc
    obtain ⟨n, hn, rfl⟩ := mem_digestDigits hc
    exact hone n hn
  simp [derivedTail, tailBytes, hdigits, String.utf8Len_toList, show '_'.utf8Size = 1 from rfl]
  omega

theorem derivedNameWith_size :
    (derivedNameWith digest parts kind limit).utf8ByteSize ≤ max limit (tailBytes kind) ∧
      tailBytes kind ≤ (derivedNameWith digest parts kind limit).utf8ByteSize := by
  have htail : (String.ofList (derivedTail digest parts kind)).utf8ByteSize =
      tailBytes kind := by
    rw [String.utf8ByteSize_ofList, utf8Len_derivedTail hdigest]
  have hreadable := utf8ByteSize_beginning_le (Text.join "_" parts)
    (min (limit - tailBytes kind) (Text.join "_" parts).utf8ByteSize)
  simp only [derivedNameWith, String.utf8ByteSize_append, htail]
  omega

end Size

/-- A derived name is at least as long as its tail, and no longer than the limit if the
tail is not. -/
theorem derivedName_size (parts : List String) (kind : String) (limit : Nat) :
    (derivedName parts kind limit).utf8ByteSize ≤ max limit (tailBytes kind) ∧
      tailBytes kind ≤ (derivedName parts kind limit).utf8ByteSize :=
  derivedNameWith_size Sha256.four_le_length_digest parts kind limit

/-! ## What the tail tells -/

theorem ofList_derivedTail (digest : List UInt8 → List UInt8) (parts : List String)
    (kind : String) :
    String.ofList (derivedTail digest parts kind) =
      "_" ++ String.ofList (digestDigits digest parts kind) ++ "_" ++ kind := by
  rw [← String.toList_inj]
  simp [derivedTail]

theorem exists_toList_derivedNameWith (digest : List UInt8 → List UInt8)
    (parts : List String) (kind : String) (limit : Nat) :
    ∃ start, (derivedNameWith digest parts kind limit).toList =
      (start ++ '_' :: digestDigits digest parts kind) ++ '_' :: kind.toList := by
  obtain ⟨start, hstart⟩ : ∃ start, derivedNameWith digest parts kind limit =
      start ++ String.ofList (derivedTail digest parts kind) := ⟨_, rfl⟩
  refine ⟨start.toList, ?_⟩
  rw [hstart, String.toList_append, String.toList_ofList, List.append_assoc]
  rfl

section Tail

variable {digest : List UInt8 → List UInt8} (hdigest : ∀ message, 4 ≤ (digest message).length)
  {parts parts' : List String} {kind kind' : String} {limit limit' : Nat}

include hdigest

/-- The digits stand at the same distance from the end in all names of a kind. -/
theorem digestDigits_eq_of_derivedNameWith_eq
    (h : derivedNameWith digest parts kind limit = derivedNameWith digest parts' kind limit') :
    digestDigits digest parts kind = digestDigits digest parts' kind := by
  obtain ⟨start, hname⟩ := exists_toList_derivedNameWith digest parts kind limit
  obtain ⟨start', hname'⟩ := exists_toList_derivedNameWith digest parts' kind limit'
  have hfront : start ++ '_' :: digestDigits digest parts kind =
      start' ++ '_' :: digestDigits digest parts' kind :=
    List.append_cancel_right (by rw [← hname, h, hname'])
  have hlength : ('_' :: digestDigits digest parts kind).length =
      ('_' :: digestDigits digest parts' kind).length := by
    rw [List.length_cons, List.length_cons, length_digestDigits hdigest,
      length_digestDigits hdigest]
  exact (List.cons.inj (List.append_inj' hfront hlength).2).2

/-- In front of the kind stands a digit.  So a kind that ends in another one, behind a
character that is no digit, gives other names. -/
theorem derivedNameWith_ne_of_kind {before : List Char} {c : Char}
    (hkind : kind'.toList = before ++ c :: '_' :: kind.toList)
    (hc : ∀ n < 16, c ≠ Nat.digitChar n) :
    derivedNameWith digest parts kind limit ≠ derivedNameWith digest parts' kind' limit' := by
  intro h
  obtain ⟨start, hname⟩ := exists_toList_derivedNameWith digest parts kind limit
  obtain ⟨start', hname'⟩ := exists_toList_derivedNameWith digest parts' kind' limit'
  have hfront : start ++ '_' :: digestDigits digest parts kind =
      (start' ++ '_' :: digestDigits digest parts' kind' ++ '_' :: before) ++ [c] := by
    apply List.append_cancel_right
    rw [← hname, h, hname', hkind]
    simp only [List.append_assoc, List.cons_append, List.nil_append]
  have hdigits : digestDigits digest parts kind ≠ [] := by
    rw [← List.length_pos_iff, length_digestDigits hdigest]
    decide
  have hlast : (digestDigits digest parts kind).getLast? = some c := by
    have hends := congrArg List.getLast? hfront
    rwa [List.getLast?_concat, List.getLast?_append_of_ne_nil _ (List.cons_ne_nil _ _),
      List.getLast?_cons_of_ne_nil hdigits] at hends
  obtain ⟨n, hn, rfl⟩ := mem_digestDigits (List.mem_of_getLast? hlast)
  exact hc n hn rfl

theorem derivedNameWith_idx_ne_pgtrgm_idx :
    derivedNameWith digest parts "idx" limit ≠
      derivedNameWith digest parts' "pgtrgm_idx" limit' :=
  derivedNameWith_ne_of_kind hdigest
    (show "pgtrgm_idx".toList = "pgtrg".toList ++ 'm' :: '_' :: "idx".toList by decide)
    (by decide)

end Tail

/-! ## The input of the digest -/

theorem utf8_eq_flatMap (text : String) :
    utf8 text = text.toList.flatMap String.utf8EncodeChar := by
  obtain ⟨cs, rfl⟩ : ∃ cs, text = String.ofList cs := ⟨_, String.ofList_toList.symm⟩
  rw [utf8, String.toUTF8_eq_toByteArray, String.toByteArray_ofList, List.utf8Encode,
    List.toList_data_toByteArray, String.toList_ofList]

theorem utf8_injective : Function.Injective utf8 := by
  intro text text' h
  exact String.toByteArray_inj.1 (ByteArray.ext (Array.toList_inj.1 h))

theorem ofNat_ne_zero {n : Nat} (hpos : 0 < n) (hn : n < 256) : (0 : UInt8) ≠ UInt8.ofNat n := by
  intro heq
  have hvalue := congrArg UInt8.toNat heq
  rw [UInt8.toNat_zero, UInt8.toNat_ofNat', Nat.mod_eq_of_lt hn] at hvalue
  omega

/-- Only the NUL character is written with a zero byte: each byte of a character with
several has a mark in its high bits. -/
theorem zero_notMem_utf8EncodeChar {c : Char} (h : c ≠ '\x00') :
    0 ∉ String.utf8EncodeChar c := by
  have hpos : 0 < c.val.toNat := Nat.pos_of_ne_zero fun hzero => h (Char.toNat_inj.1 hzero)
  fun_cases String.utf8EncodeChar c with
  | case1 v hone =>
    rw [List.mem_singleton]
    exact ofNat_ne_zero hpos (by omega)
  | case2 v _ _ =>
    simp only [List.mem_cons, List.not_mem_nil, or_false, not_or]
    refine ⟨?_, ?_⟩ <;> exact ofNat_ne_zero (by omega) (by omega)
  | case3 v _ _ _ =>
    simp only [List.mem_cons, List.not_mem_nil, or_false, not_or]
    refine ⟨?_, ?_, ?_⟩ <;> exact ofNat_ne_zero (by omega) (by omega)
  | case4 v _ _ _ =>
    simp only [List.mem_cons, List.not_mem_nil, or_false, not_or]
    refine ⟨?_, ?_, ?_, ?_⟩ <;> exact ofNat_ne_zero (by omega) (by omega)

theorem zero_notMem_utf8 {text : String} (h : '\x00' ∉ text.toList) : 0 ∉ utf8 text := by
  intro hzero
  rw [utf8_eq_flatMap, List.mem_flatMap] at hzero
  obtain ⟨c, hc, hbyte⟩ := hzero
  have hne : c ≠ '\x00' := fun heq => h (heq ▸ hc)
  exact zero_notMem_utf8EncodeChar hne hbyte

/-- The zero bytes divide what is digested into the parts and the kind. -/
theorem splitOn_digestInput {parts : List String} {kind : String}
    (h : ∀ text ∈ kind :: parts, '\x00' ∉ text.toList) :
    (digestInput parts kind).splitOn 0 = (parts ++ [kind]).map utf8 := by
  rw [List.forall_mem_cons] at h
  obtain ⟨hkind, hparts⟩ := h
  induction parts with
  | nil => exact List.splitOn_eq_singleton (zero_notMem_utf8 hkind)
  | cons part parts ih =>
    rw [List.forall_mem_cons] at hparts
    have hinput : digestInput (part :: parts) kind =
        utf8 part ++ 0 :: digestInput parts kind := by
      simp [digestInput]
    rw [hinput, List.splitOn_append_cons_self_of_not_mem (zero_notMem_utf8 hparts.1),
      ih hparts.2]
    rfl

theorem digestInput_inj {parts parts' : List String} {kind kind' : String}
    (h : ∀ text ∈ kind :: parts, '\x00' ∉ text.toList)
    (h' : ∀ text ∈ kind' :: parts', '\x00' ∉ text.toList)
    (heq : digestInput parts kind = digestInput parts' kind') :
    parts = parts' ∧ kind = kind' := by
  have htexts : (parts ++ [kind]).map utf8 = (parts' ++ [kind']).map utf8 := by
    rw [← splitOn_digestInput h, heq, splitOn_digestInput h']
  exact List.append_singleton_inj.1 (utf8_injective.list_map htexts)

/-! ## What derived names keep and tell -/

theorem derivedNameWith_eq (digest : List UInt8 → List UInt8) (parts : List String)
    (kind : String) (limit : Nat) :
    let readable := Text.join "_" parts
    let tail := "_" ++ String.ofList (digestDigits digest parts kind) ++ "_" ++ kind
    let room := limit - tail.utf8ByteSize
    derivedNameWith digest parts kind limit =
      beginning readable (min room readable.utf8ByteSize) ++ tail := by
  rw [derivedNameWith, ofList_derivedTail]

/-- A derived name is the longest beginning of its parts that has room in front of its
tail, and the tail; the way back to the end of this beginning does not get below zero.
Names of one kind tell the digits of their digests, and those of indexes on values and on
texts are never the same.  What is digested tells the parts and the kind, if there are no
NUL characters in them. -/
theorem derivedNameWith_keeps_beginning_and_digits {digest : List UInt8 → List UInt8}
    (hdigest : ∀ message, (digest message).length = 32) :
    (∀ (parts : List String) (kind : String) (limit : Nat),
      let readable := Text.join "_" parts
      let digits := digestDigits digest parts kind
      let tail := "_" ++ String.ofList digits ++ "_" ++ kind
      let room := limit - tail.utf8ByteSize
      (digits <+: (digest (digestInput parts kind)).flatMap Sha256.hexByte ∧
        digits.length = 8) ∧
      ∃ reached : readable.Pos,
        boundary? readable (min room readable.utf8ByteSize) = some reached ∧
        let start := (readable.sliceTo reached).copy
        derivedNameWith digest parts kind limit = start ++ tail ∧
        IsLongestWithin room readable start ∧
        (limit ≤ tail.utf8ByteSize → start = "")) ∧
    (∀ (parts parts' : List String) (kind : String) (limit limit' : Nat),
      derivedNameWith digest parts kind limit = derivedNameWith digest parts' kind limit' →
        digestDigits digest parts kind = digestDigits digest parts' kind) ∧
    (∀ (parts parts' : List String) (limit limit' : Nat),
      derivedNameWith digest parts "idx" limit ≠
        derivedNameWith digest parts' "pgtrgm_idx" limit') ∧
    ∀ (parts parts' : List String) (kind kind' : String),
      (∀ text ∈ kind :: parts, '\x00' ∉ text.toList) →
      (∀ text ∈ kind' :: parts', '\x00' ∉ text.toList) →
      digestInput parts kind = digestInput parts' kind' → parts = parts' ∧ kind = kind' := by
  have hfour : ∀ message, 4 ≤ (digest message).length := fun message => by
    rw [hdigest]
    decide
  refine ⟨?_, fun _ _ _ _ _ => digestDigits_eq_of_derivedNameWith_eq hfour,
    fun _ _ _ _ => derivedNameWith_idx_ne_pgtrgm_idx hfour, fun _ _ _ _ => digestInput_inj⟩
  intro parts kind limit readable digits tail room
  have hlongest := isLongestWithin_beginning room readable
  have hname : derivedNameWith digest parts kind limit =
      beginning readable (min room readable.utf8ByteSize) ++ tail :=
    derivedNameWith_eq digest parts kind limit
  rw [beginning_eq] at hlongest hname
  refine ⟨⟨List.take_prefix _ _, length_digestDigits hfour _ _⟩,
    readable.posLE ⟨min room readable.utf8ByteSize⟩, boundary?_eq_posLE _ _, hname, hlongest, ?_⟩
  intro hnoRoom
  have hroom : room = 0 := Nat.sub_eq_zero_of_le hnoRoom
  rw [hroom] at hlongest ⊢
  exact hlongest.eq_empty

/-- Two columns of a table in whose name the limit falls inside a character. -/
def collidingParts : List String × List String :=
  (["café", "price_24527"], ["café", "owner_20251"])

/-- With the digest that is used the two columns get the same name.  It leaves the cut
character out, and their digits agree, although what is digested differs. -/
theorem derivedName_keeps_beginning_and_digits_collision :
    let (parts, parts') := collidingParts
    (∀ message, (Sha256.digest message).length = 32) ∧
      (∀ text ∈ "idx" :: parts, '\x00' ∉ text.toList) ∧
      (∀ text ∈ "idx" :: parts', '\x00' ∉ text.toList) ∧
      derivedName parts "idx" 17 = "caf" ++ "_f4bb2b1a_idx" ∧
      IsLongestWithin 4 "café_price_24527" "caf" ∧
      derivedName parts "idx" 17 = derivedName parts' "idx" 17 ∧
      digestDigits Sha256.digest parts "idx" = digestDigits Sha256.digest parts' "idx" ∧
      derivedName parts "idx" 17 ≠ derivedName parts' "pgtrgm_idx" 17 ∧
      digestInput parts "idx" ≠ digestInput parts' "idx" := by
  obtain ⟨hkeeps, hdigits, hkinds, hinput⟩ :=
    derivedNameWith_keeps_beginning_and_digits Sha256.length_digest
  have hnul : ∀ text ∈ "idx" :: collidingParts.1, '\x00' ∉ text.toList := by decide
  have hnul' : ∀ text ∈ "idx" :: collidingParts.2, '\x00' ∉ text.toList := by decide
  have hname : derivedName collidingParts.1 "idx" 17 = "caf" ++ "_f4bb2b1a_idx" := by
    decide +kernel
  have hname' : derivedName collidingParts.2 "idx" 17 = "caf" ++ "_f4bb2b1a_idx" := by
    decide +kernel
  have hsame := hname.trans hname'.symm
  have hfirst : digestDigits Sha256.digest collidingParts.1 "idx" = "f4bb2b1a".toList := by
    decide +kernel
  obtain ⟨-, reached, -, hkept, hlongest, -⟩ := hkeeps collidingParts.1 "idx" 17
  have htail : "_" ++ String.ofList "f4bb2b1a".toList ++ "_" ++ "idx" = "_f4bb2b1a_idx" := by
    decide
  rw [hfirst, htail] at hkept hlongest
  have hstart := String.append_left_inj _ |>.1 (hkept.symm.trans hname)
  have hroom : 17 - "_f4bb2b1a_idx".utf8ByteSize = 4 := by decide
  have htext : Text.join "_" collidingParts.1 = "café_price_24527" := by decide
  rw [hstart, hroom, htext] at hlongest
  refine ⟨Sha256.length_digest, hnul, hnul', hname, hlongest, hsame,
    hdigits _ _ _ _ _ hsame, hkinds _ _ _ _, fun heq => ?_⟩
  have hparts := (hinput _ _ _ _ hnul hnul' heq).1
  exact absurd hparts (by decide)

end Sql

/-! ## Limits that settings admit -/

namespace Settings

theorem leastNameLimit_le {document : Json} {s : Settings} (h : read document = .ok s) :
    leastNameLimit ≤ s.naming.maxNameLength := by
  have hvalid : ∀ s : Settings, s.validate = .ok () →
      leastNameLimit ≤ s.naming.maxNameLength := by
    intro s hs
    unfold validate at hs
    split at hs
    · cases hs
    · split at hs
      · cases hs
      · next hlimit => exact Nat.le_of_not_lt hlimit
  unfold read at h
  split at h
  · cases h
    decide
  · dsimp only at h
    split at h
    · split at h
      · cases h
      · obtain ⟨_, hs, rfl⟩ := map_eq_ok.1 h
        exact hvalid _ hs
    · cases h

/-- The standard settings with another limit on names. -/
def limitedTo (limit : Nat) : Settings :=
  { standard with naming := { standard.naming with maxNameLength := limit } }

def leastLimitText : String := "[catalog]\nmax_identifier_length = 16\n"

/-- The least limit can be set. -/
theorem leastLimitText_read :
    ∃ document, Toml.ofText? leastLimitText = some document ∧
      read document = .ok (limitedTo 16) := by
  have hread : ((Toml.ofText? leastLimitText).bind fun document =>
      (read document).toOption) = some (limitedTo 16) := by decide +kernel
  obtain ⟨document, hdocument, hsettings⟩ := Option.bind_eq_some_iff.1 hread
  exact ⟨document, hdocument, toOption_eq_some_iff.1 hsettings⟩

end Settings

/-! ## The names of indexes -/

namespace Table

/-- The statements create an index with the name on the table. -/
def CreatesIndex (t : Table) (sql name : String) : Prop :=
  ∃ target, sql = t.indexStatements name target

theorem createsIndex_indexStatements (t : Table) (index target : String) :
    ∀ name, t.CreatesIndex (t.indexStatements index target) name ↔ name = index := by
  intro name
  constructor
  · rintro ⟨target', h⟩
    have hbetween : Sql.StartsWith (· ≠ '"') " ;\nCREATE INDEX " := ⟨' ', rfl, by decide⟩
    unfold indexStatements at h
    simp only [String.append_assoc] at h
    have hnames : (t.schema, index) = (t.schema, name) :=
      Sql.qualified_selfDelimiting.eq_of_append hbetween h
    exact (Prod.mk.inj hnames).2.symm
  · rintro rfl
    exact ⟨target, rfl⟩

theorem indexName_size (t : Table) (c : Column) (kind : String) (limit : Nat) :
    (t.indexName c kind limit).utf8ByteSize ≤ max limit (Sql.tailBytes kind) ∧
      Sql.tailBytes kind ≤ (t.indexName c kind limit).utf8ByteSize :=
  Sql.derivedName_size [t.name, c.name] kind limit

end Table

/-- Statements for the indexes of a column tell the name of the index.  With the limit of
settings that were read, the name of an index on values fits, and that of an index on
texts exactly if the limit is no less than the twenty bytes of its tail. -/
theorem Table.index_fits {document : Json} {s : Settings} (h : Settings.read document = .ok s)
    (t : Table) (c : Column) (systemSchema : String) :
    (∀ sql, t.valueIndex? c s.naming.maxNameLength = some sql →
      ∃ index, (∀ name, t.CreatesIndex sql name ↔ name = index) ∧
        index.utf8ByteSize ≤ s.naming.maxNameLength) ∧
    ∀ sql, t.textIndex? c systemSchema s.naming.maxNameLength = some sql →
      ∃ index, (∀ name, t.CreatesIndex sql name ↔ name = index) ∧
        index.utf8ByteSize ≤ max s.naming.maxNameLength 20 ∧
        (index.utf8ByteSize ≤ s.naming.maxNameLength ↔ 20 ≤ s.naming.maxNameLength) := by
  have hleast : 16 ≤ s.naming.maxNameLength := Settings.leastNameLimit_le h
  constructor
  · intro sql hsql
    obtain ⟨-, hsql⟩ := Option.ite_none_left_eq_some.1 hsql
    obtain rfl := Option.some.inj hsql
    have hsize := t.indexName_size c "idx" s.naming.maxNameLength
    rw [show Sql.tailBytes "idx" = 13 from rfl] at hsize
    exact ⟨_, t.createsIndex_indexStatements _ _, by omega⟩
  · intro sql hsql
    obtain ⟨-, hsql⟩ := Option.ite_none_left_eq_some.1 hsql
    obtain rfl := Option.some.inj hsql
    have hsize := t.indexName_size c "pgtrgm_idx" s.naming.maxNameLength
    rw [show Sql.tailBytes "pgtrgm_idx" = 20 from rfl] at hsize
    exact ⟨_, t.createsIndex_indexStatements _ _, by omega⟩

/-- A column of texts in the table of the orders of a shop. -/
def Table.orderNotes : Table × Column :=
  let orders := Table.fresh "shop" "orders" .table
  (orders, Column.stored orders.path "note" 0 .text none)

/-- With the standard settings both indexes of the notes fit. -/
theorem Table.index_fits_orderNotes :
    let (t, c) := Table.orderNotes
    Settings.read .null = .ok .standard ∧
      (∃ sql index, t.valueIndex? c 63 = some sql ∧ t.CreatesIndex sql index ∧
        index.utf8ByteSize ≤ 63) ∧
      ∃ sql index, t.textIndex? c "_ermrest" 63 = some sql ∧ t.CreatesIndex sql index ∧
        index.utf8ByteSize ≤ 63 := by
  have hread : Settings.read .null = .ok .standard := rfl
  obtain ⟨hvalue, htext⟩ := Table.index_fits hread Table.orderNotes.1 Table.orderNotes.2 "_ermrest"
  obtain ⟨value, hnamed, hsize⟩ := hvalue _ rfl
  obtain ⟨text, hnamed', -, hsize'⟩ := htext _ rfl
  exact ⟨hread, ⟨_, value, rfl, (hnamed value).2 rfl, hsize⟩,
    _, text, rfl, (hnamed' text).2 rfl, hsize'.2 (by decide)⟩

/-- With the least limit that can be set the name of the index on the notes' texts
exceeds it. -/
theorem Table.index_exceeds_orderNotes :
    let (t, c) := Table.orderNotes
    (∃ document, Toml.ofText? Settings.leastLimitText = some document ∧
        Settings.read document = .ok (.limitedTo 16)) ∧
      ∃ sql, t.textIndex? c "_ermrest" 16 = some sql ∧
        ∀ name, t.CreatesIndex sql name → 16 < name.utf8ByteSize := by
  refine ⟨Settings.leastLimitText_read, _, rfl, fun name hname => ?_⟩
  rw [(Table.createsIndex_indexStatements _ _ _ _).1 hname]
  exact (Table.indexName_size Table.orderNotes.1 Table.orderNotes.2 "pgtrgm_idx" 16).2.trans_lt'
    (by decide)

/-- An index on values is never named like one on texts, in whatever tables, so the
statements for neither of them drop the other. -/
theorem Table.valueIndex_name_ne {t t' : Table} {c c' : Column} {limit limit' : Nat}
    {systemSchema sql sql' name name' : String}
    (h : t.valueIndex? c limit = some sql) (hname : t.CreatesIndex sql name)
    (h' : t'.textIndex? c' systemSchema limit' = some sql')
    (hname' : t'.CreatesIndex sql' name') : name ≠ name' := by
  obtain ⟨-, hsql⟩ := Option.ite_none_left_eq_some.1 h
  obtain rfl := Option.some.inj hsql
  obtain ⟨-, hsql'⟩ := Option.ite_none_left_eq_some.1 h'
  obtain rfl := Option.some.inj hsql'
  rw [(t.createsIndex_indexStatements _ _ name).1 hname,
    (t'.createsIndex_indexStatements _ _ name').1 hname']
  exact Sql.derivedNameWith_idx_ne_pgtrgm_idx Sha256.four_le_length_digest

end GovernedCatalog
