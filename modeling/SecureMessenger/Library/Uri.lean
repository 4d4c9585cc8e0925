import Mathlib.Data.FinEnum
import Mathlib.Data.List.TakeWhile

/-!
# File URIs and percent escapes

`read` is how SQLite reads a file name when URIs are enabled. A name with the scheme
`file:` may have an authority between two slashes and the next one, which must be empty
or the local host and is dropped. The path extends to the first question mark or hash,
the query from the question mark to the hash. Escapes are decoded in the path, the names
and the values, each of which ends at an escaped zero.

`escape` writes every byte that is not plain as an escape. Reading undoes it for any
choice of plain bytes that leaves out the three characters with a meaning, with one
exception: two slashes at the beginning start an authority.
-/

namespace Uri

/-- The bytes of a string. -/
def bytes (text : String) : List UInt8 := text.toByteArray.data.toList

/-- The string with these bytes, if they are UTF-8. -/
def text? (bytes : List UInt8) : Option String := String.fromUTF8? bytes.toByteArray

@[simp] theorem text?_bytes (text : String) : text? (bytes text) = some text := by
  have same : (bytes text).toByteArray = text.toByteArray :=
    ByteArray.ext (by simp [bytes])
  rw [text?, same, String.fromUTF8?, dif_pos text.isValidUTF8]
  rfl

theorem bytes_inj {text text' : String} (same : bytes text = bytes text') : text = text' := by
  have texts := congrArg text? same
  rwa [text?_bytes, text?_bytes, Option.some.injEq] at texts

@[simp] theorem bytes_append (text text' : String) :
    bytes (text ++ text') = bytes text ++ bytes text' := by
  simp [bytes]

theorem utf8EncodeChar_ofUInt8 : ∀ byte : UInt8, byte < 128 →
    String.utf8EncodeChar (Char.ofUInt8 byte) = [byte] := by
  decide +kernel

/-- Pushing an ASCII character adds one byte. -/
theorem bytes_push (text : String) {byte : UInt8} (ascii : byte < 128) :
    bytes (text.push (Char.ofUInt8 byte)) = bytes text ++ [byte] := by
  simp [bytes, List.utf8Encode, utf8EncodeChar_ofUInt8 byte ascii]

def percent : UInt8 := '%'.toUInt8
def slash : UInt8 := '/'.toUInt8
def question : UInt8 := '?'.toUInt8
def hash : UInt8 := '#'.toUInt8
def ampersand : UInt8 := '&'.toUInt8
def equals : UInt8 := '='.toUInt8

/-- The value of a hexadecimal digit. -/
def digitValue? (byte : UInt8) : Option UInt8 :=
  if 48 ≤ byte ∧ byte ≤ 57 then some (byte - 48)
  else if 65 ≤ byte ∧ byte ≤ 70 then some (byte - 55)
  else if 97 ≤ byte ∧ byte ≤ 102 then some (byte - 87)
  else none

def octet? (high low : UInt8) : Option UInt8 := do
  let high ← digitValue? high
  let low ← digitValue? low
  some (high <<< 4 + low)

/-- Escapes are replaced by their bytes. A percent sign without two digits stands for
itself. -/
def decode : List UInt8 → List UInt8
  | byte :: high :: low :: rest =>
      if byte = percent then
        match octet? high low with
        | some value => value :: decode rest
        | none => byte :: decode (high :: low :: rest)
      else byte :: decode (high :: low :: rest)
  | [byte, next] => [byte, next]
  | [byte] => [byte]
  | [] => []

/-- A path, name or value: an escaped zero ends it. -/
def component (raw : List UInt8) : List UInt8 := (decode raw).takeWhile (· ≠ 0)

/-- A file name as it is read. -/
structure Reading where
  path : List UInt8
  parameters : List (List UInt8 × List UInt8)
deriving DecidableEq

def parameter (raw : List UInt8) : List UInt8 × List UInt8 :=
  (component (raw.takeWhile (· ≠ equals)), component ((raw.dropWhile (· ≠ equals)).drop 1))

/-- Parameters without a name are ignored. -/
def parameters (query : List UInt8) : List (List UInt8 × List UInt8) :=
  ((query.splitOn ampersand).map parameter).filter (fun entry => entry.1 ≠ [])

/-- What follows the authority, if there is one. Only the next slash ends it. -/
def afterAuthority : List UInt8 → Option (List UInt8)
  | first :: second :: rest =>
      if first = slash ∧ second = slash then
        let authority := rest.takeWhile (· ≠ slash)
        if authority = [] ∨ authority = bytes "localhost" then
          some (rest.dropWhile (· ≠ slash))
        else none
      else some (first :: second :: rest)
  | rest => some rest

/-- The path and the query, behind the authority. -/
def reading (rest : List UInt8) : Reading :=
  let located := rest.takeWhile (· ≠ hash)
  { path := component (located.takeWhile (· ≠ question))
    parameters := parameters ((located.dropWhile (· ≠ question)).drop 1) }

/-- Reading a file name; `none` is a URI that is refused. -/
def read (name : List UInt8) : Option Reading :=
  if (bytes "file:").isPrefixOf name then (afterAuthority (name.drop 5)).map reading
  else some ⟨name, []⟩

/-- The digit of a value below 16. -/
def digit (value : UInt8) : UInt8 := if value < 10 then 48 + value else 55 + value

section Escape

variable (plain : UInt8 → Bool)

def escapeByte (byte : UInt8) : List UInt8 :=
  if plain byte then [byte] else [percent, digit (byte >>> 4), digit (byte &&& 15)]

def escape (text : List UInt8) : List UInt8 := text.flatMap (escapeByte plain)

@[simp] theorem escape_nil : escape plain [] = [] := rfl

@[simp] theorem escape_cons (byte : UInt8) (text : List UInt8) :
    escape plain (byte :: text) = escapeByte plain byte ++ escape plain text := rfl

@[simp] theorem escape_append (text text' : List UInt8) :
    escape plain (text ++ text') = escape plain text ++ escape plain text' :=
  List.flatMap_append

end Escape

theorem digitValue?_digit {value : UInt8} (small : value < 16) :
    digitValue? (digit value) = some value := by
  unfold digit
  split
  · next few =>
    have decimal : 48 ≤ 48 + value ∧ 48 + value ≤ 57 := by grind
    rw [digitValue?, if_pos decimal, UInt8.add_comm, UInt8.add_sub_cancel]
  · next many =>
    have other : ¬ (48 ≤ 55 + value ∧ 55 + value ≤ 57) := by grind
    have letter : 65 ≤ 55 + value ∧ 55 + value ≤ 70 := by grind
    rw [digitValue?, if_neg other, if_pos letter, UInt8.add_comm, UInt8.add_sub_cancel]

section Halves

variable (byte : UInt8)

theorem toNat_low : (byte &&& 15).toNat = byte.toNat % 16 := by
  rw [UInt8.toNat_and]
  exact Nat.and_two_pow_sub_one_eq_mod byte.toNat 4

theorem toNat_high : (byte >>> 4).toNat = byte.toNat / 16 := by
  rw [UInt8.toNat_shiftRight]
  exact Nat.shiftRight_eq_div_pow byte.toNat 4

theorem low_lt : byte &&& 15 < 16 := by
  rw [UInt8.lt_iff_toNat_lt, toNat_low]
  exact Nat.mod_lt _ (by decide)

theorem high_lt : byte >>> 4 < 16 := by
  have bound := byte.toNat_lt
  rw [UInt8.lt_iff_toNat_lt, toNat_high]
  show byte.toNat / 16 < 16
  omega

/-- A byte consists of its two halves. -/
theorem high_add_low : (byte >>> 4) <<< 4 + (byte &&& 15) = byte := by
  have bound := byte.toNat_lt
  have high : ((byte >>> 4) <<< 4).toNat = byte.toNat / 16 * 16 := by
    rw [UInt8.toNat_shiftLeft, toNat_high]
    show (byte.toNat / 16) <<< 4 % 256 = _
    rw [Nat.shiftLeft_eq]
    omega
  rw [← UInt8.toNat_inj, UInt8.toNat_add, high, toNat_low]
  omega

theorem octet?_digits : octet? (digit (byte >>> 4)) (digit (byte &&& 15)) = some byte := by
  rw [octet?, digitValue?_digit (high_lt byte), digitValue?_digit (low_lt byte)]
  exact congrArg some (high_add_low byte)

end Halves

theorem decode_cons {byte : UInt8} (ordinary : byte ≠ percent) (rest : List UInt8) :
    decode (byte :: rest) = byte :: decode rest := by
  match rest with
  | [] => rfl
  | [_] => rfl
  | _ :: _ :: _ => rw [decode, if_neg ordinary]

section Mark

variable {mark : UInt8} {text : List UInt8}

theorem ne_of_absent (absent : mark ∉ text) : ∀ byte ∈ text, decide (byte ≠ mark) = true :=
  fun _ member => decide_eq_true fun same => absent (same ▸ member)

/-- Text up to the first mark. -/
theorem takeWhile_mark (absent : mark ∉ text) (rest : List UInt8) :
    (text ++ mark :: rest).takeWhile (· ≠ mark) = text := by
  rw [List.takeWhile_append_of_pos (ne_of_absent absent), List.takeWhile_cons_of_neg (by simp),
    List.append_nil]

theorem dropWhile_mark (absent : mark ∉ text) (rest : List UInt8) :
    (text ++ mark :: rest).dropWhile (· ≠ mark) = mark :: rest := by
  rw [List.dropWhile_append_of_pos (ne_of_absent absent), List.dropWhile_cons_of_neg (by simp)]

end Mark

variable {plain : UInt8 → Bool}

/-- One byte is read back, whatever follows. -/
theorem decode_escapeByte (escaped : plain percent = false) (byte : UInt8) (rest : List UInt8) :
    decode (escapeByte plain byte ++ rest) = byte :: decode rest := by
  unfold escapeByte
  split
  · next isPlain =>
    have ordinary : byte ≠ percent := by
      rintro rfl
      rw [escaped] at isPlain
      cases isPlain
    exact decode_cons ordinary rest
  · simp only [List.cons_append, List.nil_append, decode, if_true, octet?_digits]

theorem decode_escape (escaped : plain percent = false) (text : List UInt8) :
    decode (escape plain text) = text := by
  induction text with
  | nil => rfl
  | cons byte text ih => rw [escape_cons, decode_escapeByte escaped, ih]

theorem escape_inj (escaped : plain percent = false) {text text' : List UInt8}
    (same : escape plain text = escape plain text') : text = text' := by
  rw [← decode_escape escaped text, same, decode_escape escaped]

theorem component_escape (escaped : plain percent = false) {text : List UInt8}
    (nonzero : 0 ∉ text) : component (escape plain text) = text := by
  rw [component, decode_escape escaped]
  exact List.takeWhile_eq_self_iff.mpr (ne_of_absent nonzero)

/-- Plain bytes are written as they are. -/
theorem escape_of_plain {text : List UInt8} (all : ∀ byte ∈ text, plain byte = true) :
    escape plain text = text := by
  induction text with
  | nil => rfl
  | cons byte text ih =>
      rw [escape_cons, escapeByte, if_pos (all byte List.mem_cons_self),
        ih fun byte member => all byte (List.mem_cons_of_mem _ member)]
      rfl

/-- A byte that belongs to no escape comes from the text. -/
theorem mem_of_mem_escape {mark : UInt8} (notPercent : mark ≠ percent)
    (notDigit : digitValue? mark = none) {text : List UInt8} (member : mark ∈ escape plain text) :
    mark ∈ text ∧ plain mark = true := by
  obtain ⟨byte, inside, member⟩ := List.mem_flatMap.mp member
  unfold escapeByte at member
  split at member
  · next isPlain =>
    rw [List.mem_singleton.mp member]
    exact ⟨inside, isPlain⟩
  · have digits : ∀ value : UInt8, value < 16 → mark ≠ digit value := by
      rintro value small rfl
      rw [digitValue?_digit small] at notDigit
      cases notDigit
    simp only [List.mem_cons, List.not_mem_nil, or_false] at member
    obtain isPercent | isHigh | isLow := member
    · exact absurd isPercent notPercent
    · exact absurd isHigh (digits _ (high_lt byte))
    · exact absurd isLow (digits _ (low_lt byte))

/-- The plain bytes leave out the characters with a meaning of their own. -/
structure Safe (plain : UInt8 → Bool) : Prop where
  noPercent : plain percent = false
  noQuestion : plain question = false
  noHash : plain hash = false

theorem Safe.question_not_mem (safe : Safe plain) (text : List UInt8) :
    question ∉ escape plain text :=
  fun member => Bool.false_ne_true
    (safe.noQuestion.symm.trans (mem_of_mem_escape (by decide) (by decide) member).2)

theorem Safe.hash_not_mem (safe : Safe plain) (text : List UInt8) : hash ∉ escape plain text :=
  fun member => Bool.false_ne_true
    (safe.noHash.symm.trans (mem_of_mem_escape (by decide) (by decide) member).2)

/-- The path is read back and the query is read by itself. -/
theorem reading_escape (safe : Safe plain) {text : List UInt8} (nonzero : 0 ∉ text)
    (query : List UInt8) :
    reading (escape plain text ++ question :: query) =
      ⟨text, parameters (query.takeWhile (· ≠ hash))⟩ := by
  have located : (escape plain text ++ question :: query).takeWhile (· ≠ hash) =
      escape plain text ++ question :: query.takeWhile (· ≠ hash) := by
    rw [List.takeWhile_append_of_pos (ne_of_absent (safe.hash_not_mem text)),
      List.takeWhile_cons_of_pos (by decide)]
  rw [reading, located, takeWhile_mark (safe.question_not_mem text),
    dropWhile_mark (safe.question_not_mem text), component_escape safe.noPercent nonzero]
  rfl

theorem read_scheme (rest : List UInt8) :
    read (bytes "file:" ++ rest) = (afterAuthority rest).map reading := by
  rw [read, if_pos (List.isPrefixOf_iff_prefix.mpr (List.prefix_append _ _))]
  rfl

/-- Without two slashes there is no authority. -/
theorem afterAuthority_of_not {rest : List UInt8} (single : ¬ [slash, slash] <+: rest) :
    afterAuthority rest = some rest := by
  match rest with
  | [] => rfl
  | [_] => rfl
  | first :: second :: rest =>
      refine if_neg ?_
      rintro ⟨rfl, rfl⟩
      exact single (List.prefix_append [slash, slash] rest)

/-- A slash at the beginning is a slash of the text. -/
theorem escapeByte_slash {byte : UInt8} {tail rest : List UInt8}
    (same : escapeByte plain byte ++ tail = slash :: rest) : byte = slash ∧ tail = rest := by
  unfold escapeByte at same
  split at same
  · exact List.cons.inj same
  · exact absurd (List.cons.inj same).1 (by decide)

theorem prefix_of_prefix_escape {text query : List UInt8}
    (double : [slash, slash] <+: escape plain text ++ question :: query) :
    [slash, slash] <+: text := by
  obtain ⟨rest, same⟩ := double
  have questions : ∀ rest, question :: query ≠ slash :: rest :=
    fun rest same => absurd (List.cons.inj same).1 (by decide)
  match text with
  | [] => exact absurd same.symm (questions _)
  | [byte] =>
      rw [escape_cons, List.append_assoc] at same
      obtain ⟨_, same⟩ := escapeByte_slash same.symm
      exact absurd same (questions _)
  | byte :: next :: text =>
      rw [escape_cons, escape_cons, List.append_assoc, List.append_assoc] at same
      obtain ⟨rfl, following⟩ := escapeByte_slash same.symm
      obtain ⟨rfl, _⟩ := escapeByte_slash following
      exact List.prefix_append [slash, slash] text

/-- A path that does not begin with two slashes is read back. -/
theorem read_escape (safe : Safe plain) {text : List UInt8} (nonzero : 0 ∉ text)
    (single : ¬ [slash, slash] <+: text) (query : List UInt8) :
    read (bytes "file:" ++ (escape plain text ++ question :: query)) =
      some ⟨text, parameters (query.takeWhile (· ≠ hash))⟩ := by
  rw [read_scheme, afterAuthority_of_not fun double => single (prefix_of_prefix_escape double),
    Option.map_some, reading_escape safe nonzero]

theorem escape_slash (plainSlash : plain slash = true) (text : List UInt8) :
    escape plain (slash :: text) = slash :: escape plain text := by
  rw [escape_cons, escapeByte, if_pos plainSlash]
  rfl

theorem slash_not_mem_escape {host : List UInt8} (within : slash ∉ host) :
    slash ∉ escape plain host :=
  fun member => within (mem_of_mem_escape (by decide) (by decide) member).1

/-- After two slashes, the text up to the next slash is not a part of the path. -/
theorem read_authority (safe : Safe plain) (plainSlash : plain slash = true)
    {host tail : List UInt8} (within : slash ∉ host) (nonzero : 0 ∉ tail) (query : List UInt8) :
    read (bytes "file:" ++
        (escape plain (slash :: slash :: (host ++ slash :: tail)) ++ question :: query)) =
      if host = [] ∨ escape plain host = bytes "localhost" then
        some ⟨slash :: tail, parameters (query.takeWhile (· ≠ hash))⟩
      else none := by
  have absent : slash ∉ escape plain host := slash_not_mem_escape within
  have empty : escape plain host = [] ↔ host = [] :=
    ⟨fun same => escape_inj safe.noPercent same, fun same => by rw [same, escape_nil]⟩
  have nonzero' : 0 ∉ slash :: tail := by
    simp only [List.mem_cons, not_or]
    exact ⟨by decide, nonzero⟩
  have split : escape plain (host ++ slash :: tail) ++ question :: query =
      escape plain host ++ slash :: (escape plain tail ++ question :: query) := by
    rw [escape_append, escape_slash plainSlash, List.append_assoc]
    rfl
  rw [read_scheme, escape_slash plainSlash, escape_slash plainSlash, List.cons_append,
    List.cons_append, split, afterAuthority, if_pos ⟨rfl, rfl⟩]
  simp only [takeWhile_mark absent, dropWhile_mark absent, empty]
  split
  · rw [Option.map_some, ← List.cons_append, ← escape_slash plainSlash,
      reading_escape safe nonzero']
  · rfl

/-- An authority that no slash ends extends into the query and is refused. -/
theorem read_unended (plainSlash : plain slash = true) {host : List UInt8}
    (within : slash ∉ host) (query : List UInt8) :
    read (bytes "file:" ++ (escape plain (slash :: slash :: host) ++ question :: query)) =
      none := by
  have authority : (escape plain host ++ question :: query).takeWhile (· ≠ slash) =
      escape plain host ++ question :: query.takeWhile (· ≠ slash) := by
    rw [List.takeWhile_append_of_pos (ne_of_absent (slash_not_mem_escape within)),
      List.takeWhile_cons_of_pos (by decide)]
  have member : question ∈ escape plain host ++ question :: query.takeWhile (· ≠ slash) := by
    simp
  rw [read_scheme, escape_slash plainSlash, escape_slash plainSlash, List.cons_append,
    List.cons_append, afterAuthority, if_pos ⟨rfl, rfl⟩]
  simp only [authority]
  rw [if_neg, Option.map_none]
  rintro (empty | local')
  · rw [empty] at member
    cases member
  · rw [local'] at member
    exact absurd member (by decide)

/-- A path is read back exactly if it does not begin with two slashes. -/
theorem read_escape_iff (safe : Safe plain) (plainSlash : plain slash = true)
    {text : List UInt8} (nonzero : 0 ∉ text) (query : List UInt8) :
    read (bytes "file:" ++ (escape plain text ++ question :: query)) =
      some ⟨text, parameters (query.takeWhile (· ≠ hash))⟩ ↔ ¬ [slash, slash] <+: text := by
  refine ⟨?_, fun single => read_escape safe nonzero single query⟩
  rintro same ⟨rest, rfl⟩
  simp only [List.cons_append, List.nil_append] at same nonzero
  by_cases ended : slash ∈ rest
  · obtain ⟨host, tail, rfl, within⟩ := List.eq_append_cons_of_mem ended
    have nonzero' : 0 ∉ tail := fun member => nonzero (by simp [member])
    rw [read_authority safe plainSlash within nonzero'] at same
    split at same
    · -- What was read is shorter by the two slashes and the authority.
      have lengths := congrArg List.length (Reading.mk.inj (Option.some.inj same)).1
      simp only [List.length_cons, List.length_append] at lengths
      omega
    · cases same
  · rw [read_unended plainSlash ended] at same
    cases same

end Uri
