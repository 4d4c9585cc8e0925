import SecureMessenger.Library.Uri
import SecureMessenger.Relay.Opening

/-!
# The preflight of an existing database

Before a relay file is opened normally, it is opened read-only and immutable under a URI
made from its path, and its schema is validated. `FileSystem` collects what the operating
system and SQLite answer about paths; no law relates the answers, and the URI is read by
the rules of SQLite.

The URI names the given path unless the path begins with two slashes. Then the text up to
the next slash is taken for an authority: a healthy database is refused, or another file
is inspected in its place. For all other paths `open_at` is the open of `Relay.Schema`.
-/

namespace SecureMessenger

open Fallible Uri

/-- The errors of the operating system that the source tells apart. -/
inductive ErrorKind
  | notFound
  | other
deriving DecidableEq

structure Metadata where
  isFile : Bool
  len : Nat

/-- What is found at paths. A file that cannot be opened or read has no contents; the
database under a name is what SQLite finds there with the parameters of the name. -/
structure FileSystem where
  metadata : Bytes → Except ErrorKind Metadata
  canonicalize : Bytes → Option Bytes
  contents : Bytes → Option Bytes
  database : Reading → Option Image

def isAsciiAlphanumeric (byte : UInt8) : Bool :=
  (48 ≤ byte && byte ≤ 57) || (65 ≤ byte && byte ≤ 90) || (97 ≤ byte && byte ≤ 122)

/-- The bytes that `immutable_uri` copies. -/
def isCopied (byte : UInt8) : Bool :=
  isAsciiAlphanumeric byte || (bytes "/.-_:").contains byte

def hex : FixedBytes 16 := ⟨bytes "0123456789ABCDEF", by decide⟩

def hexDigit (value : UInt8) (small : value < 16) : Char :=
  .ofUInt8 (hex.toList.get ⟨value.toNat, by rw [hex.length_toList]; exact small⟩)

def pushByte (uri : String) (byte : UInt8) : String :=
  if isCopied byte then uri.push (.ofUInt8 byte)
  else ((uri.push '%').push (hexDigit (byte >>> 4) (high_lt byte))).push
    (hexDigit (byte &&& 15) (low_lt byte))

def immutableUri (path : Bytes) : Except LabError String :=
  match text? path with
  | none => .error .storage
  | some path => .ok ((bytes path).foldl pushByte "file:" ++ "?mode=ro&immutable=1")

/-- A non-empty file beside the database, with an exact suffix. -/
def nonemptyCompanion (files : FileSystem) (path : Bytes) (suffix : String) :
    Except LabError Bool :=
  match files.metadata (path ++ bytes suffix) with
  | .ok metadata => .ok (0 < metadata.len)
  | .error .notFound => .ok false
  | .error .other => .error .storage

/-- A file too short for a header is not in WAL mode. -/
def databaseHeaderUsesWal (files : FileSystem) (path : Bytes) : Except LabError Bool :=
  match files.contents path with
  | none => .error .storage
  | some contents =>
      if contents.length < 20 then .ok false
      else .ok (contents.take 16 = bytes "SQLite format 3\x00" ∧ contents[18]? = some 2 ∧
        contents[19]? = some 2)

def rejectAnomalousWal (files : FileSystem) (path : Bytes) : Except LabError Unit := do
  let resolved := (files.canonicalize path).getD path
  if (← nonemptyCompanion files resolved "-wal") = false then .ok ()
  else if ← databaseHeaderUsesWal files resolved then .ok ()
  else .error .storage

def hasNonemptyRecoveryCompanion (files : FileSystem) (path : Bytes) : Except LabError Bool :=
  match files.canonicalize path with
  | none => .error .storage
  | some resolved => do
      if ← nonemptyCompanion files resolved "-journal" then .ok true
      else if ← nonemptyCompanion files resolved "-wal" then databaseHeaderUsesWal files resolved
      else .ok false

/-- Validating the schema of the database under a name. -/
def FileSystem.validate (files : FileSystem) (name : Reading) : Except LabError Unit :=
  match files.database name with
  | none => .error .storage
  | some image => validateSchemaForOpen image

/-- The same for a URI; a URI that is refused opens no database. -/
def FileSystem.validateUri (files : FileSystem) (uri : String) : Except LabError Unit :=
  match Uri.read (bytes uri) with
  | none => .error .storage
  | some name => files.validate name

def preflightExistingDatabase (files : FileSystem) (path : Bytes) : Except LabError Unit :=
  match files.metadata path with
  | .error .notFound => .ok ()
  | .error .other => .error .storage
  | .ok metadata => do
      rejectIf (metadata.isFile = false) .storage
      if metadata.len = 0 then rejectAnomalousWal files path
      else do
        rejectAnomalousWal files path
        if ← hasNonemptyRecoveryCompanion files path then .ok ()
        else do
          let uri ← immutableUri path
          files.validateUri uri

section Uri

theorem hexDigit_eq : ∀ (value : UInt8) (small : value < 16),
    hexDigit value small = .ofUInt8 (digit value) := by
  decide +kernel

theorem digit_ascii {value : UInt8} (small : value < 16) : digit value < 128 := by
  unfold digit
  split <;> grind

theorem ascii_of_isCopied : ∀ byte : UInt8, isCopied byte = true → byte < 128 := by
  decide +kernel

theorem bytes_pushByte (uri : String) (byte : UInt8) :
    bytes (pushByte uri byte) = bytes uri ++ escapeByte isCopied byte := by
  have sign : '%' = Char.ofUInt8 percent := by decide
  unfold pushByte escapeByte
  split
  · next copied => exact bytes_push uri (ascii_of_isCopied byte copied)
  · rw [hexDigit_eq, hexDigit_eq, bytes_push _ (digit_ascii (low_lt byte)),
      bytes_push _ (digit_ascii (high_lt byte)), sign, bytes_push _ (by decide),
      List.append_assoc, List.append_assoc]
    rfl

theorem bytes_foldl_pushByte (text : Bytes) (uri : String) :
    bytes (text.foldl pushByte uri) = bytes uri ++ escape isCopied text := by
  induction text generalizing uri with
  | nil => rw [List.foldl_nil, escape_nil, List.append_nil]
  | cons byte text ih =>
      rw [List.foldl_cons, ih, bytes_pushByte, escape_cons, List.append_assoc]

/-- The URI of a path is the scheme, the escaped path and the fixed query. -/
theorem immutableUri_bytes (path : String) :
    ∃ uri, immutableUri (bytes path) = .ok uri ∧
      bytes uri = bytes "file:" ++ (escape isCopied (bytes path) ++
        question :: bytes "mode=ro&immutable=1") := by
  refine ⟨_, by rw [immutableUri, text?_bytes], ?_⟩
  rw [bytes_append, bytes_foldl_pushByte, List.append_assoc]
  rfl

theorem safe_isCopied : Safe isCopied := by
  constructor <;> decide

/-- The query of the URI. -/
def readOnly : List (Bytes × Bytes) :=
  [(bytes "mode", bytes "ro"), (bytes "immutable", bytes "1")]

theorem parameters_readOnly :
    parameters ((bytes "mode=ro&immutable=1").takeWhile (· ≠ hash)) = readOnly := by
  decide

/-- The URI made from a path is accepted, and names this path and the two parameters. -/
def NamesPath (path : String) : Prop :=
  ∃ uri, immutableUri (bytes path) = .ok uri ∧ Uri.read (bytes uri) = some ⟨bytes path, readOnly⟩

theorem namesPath_iff {path uri : String} (made : immutableUri (bytes path) = .ok uri) :
    NamesPath path ↔ Uri.read (bytes uri) = some ⟨bytes path, readOnly⟩ := by
  constructor
  · rintro ⟨uri', made', named⟩
    cases made.symm.trans made'
    exact named
  · exact fun named => ⟨uri, made, named⟩

/-- The URI names the path exactly if the path does not begin with two slashes. -/
theorem immutable_uri_names_path (path : String) (nonzero : 0 ∉ bytes path) :
    NamesPath path ↔ ¬ bytes "//" <+: bytes path := by
  obtain ⟨uri, made, spelled⟩ := immutableUri_bytes path
  rw [namesPath_iff made, spelled, ← parameters_readOnly]
  exact read_escape_iff safe_isCopied (by decide) nonzero _

theorem immutable_uri_names_path_reserved : NamesPath "/srv/lab 1/naïve?#100%.db" :=
  (immutable_uri_names_path "/srv/lab 1/naïve?#100%.db" (by decide)).mpr (by decide)

end Uri

section Preflight

variable {files : FileSystem}

/-- A database without recovery companions, which reaches the immutable open. -/
structure FileSystem.Regular (files : FileSystem) (path : Bytes) : Prop where
  file : ∃ metadata, files.metadata path = .ok metadata ∧ metadata.isFile = true ∧
    metadata.len ≠ 0
  expected : rejectAnomalousWal files path = .ok ()
  unaccompanied : hasNonemptyRecoveryCompanion files path = .ok false

theorem preflight_of_regular {path : Bytes} (regular : files.Regular path) :
    preflightExistingDatabase files path = immutableUri path >>= files.validateUri := by
  obtain ⟨metadata, found, isFile, nonempty⟩ := regular.file
  have passes : ¬ metadata.isFile = false := by rw [isFile]; decide
  simp only [preflightExistingDatabase, found, rejectIf_of_not passes, ok_bind, if_neg nonempty,
    regular.expected, regular.unaccompanied, Bool.false_eq_true, if_false]

/-- The preflight validates the database that the caller named. -/
theorem preflight_of_single {path : String} (nonzero : 0 ∉ bytes path)
    (single : ¬ bytes "//" <+: bytes path) (regular : files.Regular (bytes path)) :
    preflightExistingDatabase files (bytes path) = files.validate ⟨bytes path, readOnly⟩ := by
  obtain ⟨uri, made, spelled⟩ := immutableUri_bytes path
  have named : Uri.read (bytes uri) = some ⟨bytes path, readOnly⟩ := by
    rw [spelled, ← parameters_readOnly]
    exact read_escape safe_isCopied nonzero single _
  rw [preflight_of_regular regular, made, ok_bind, FileSystem.validateUri, named]

theorem escape_eq_localhost {host : String} :
    escape isCopied (bytes host) = bytes "localhost" ↔ host = "localhost" := by
  have copied : escape isCopied (bytes "localhost") = bytes "localhost" :=
    escape_of_plain (by decide +kernel)
  constructor
  · intro same
    rw [← copied] at same
    exact bytes_inj (escape_inj safe_isCopied.noPercent same)
  · rintro rfl
    exact copied

/-- After two slashes it validates the database behind the next slash, or none. -/
theorem preflight_of_double {host tail : String} (within : slash ∉ bytes host)
    (nonzero : 0 ∉ bytes tail) (regular : files.Regular (bytes ("//" ++ host ++ "/" ++ tail))) :
    preflightExistingDatabase files (bytes ("//" ++ host ++ "/" ++ tail)) =
      if host = "" ∨ host = "localhost" then files.validate ⟨bytes ("/" ++ tail), readOnly⟩
      else .error .storage := by
  obtain ⟨uri, made, spelled⟩ := immutableUri_bytes ("//" ++ host ++ "/" ++ tail)
  have path : bytes ("//" ++ host ++ "/" ++ tail) =
      slash :: slash :: (bytes host ++ slash :: bytes tail) := by
    simp only [bytes_append, List.append_assoc]
    rfl
  have empty : bytes host = [] ↔ host = "" :=
    ⟨fun same => bytes_inj same, fun same => by rw [same]; rfl⟩
  rw [path] at spelled
  have named := read_authority safe_isCopied (by decide) within nonzero
    (bytes "mode=ro&immutable=1")
  rw [← spelled, parameters_readOnly] at named
  simp only [empty, escape_eq_localhost] at named
  rw [preflight_of_regular regular, made, ok_bind, FileSystem.validateUri, named]
  by_cases known : host = "" ∨ host = "localhost"
  · rw [if_pos known, if_pos known, bytes_append]
    rfl
  · rw [if_neg known, if_neg known]

/-- The file that the caller named: absent or empty, or a database by itself. -/
inductive FileSystem.Stores (files : FileSystem) (path : Bytes) : Option Image → Prop
  | absent (missing : files.metadata path = .error .notFound) : Stores files path none
  | empty (metadata : Metadata) (found : files.metadata path = .ok metadata)
      (isFile : metadata.isFile = true) (vacant : metadata.len = 0)
      (expected : rejectAnomalousWal files path = .ok ()) : Stores files path none
  | database (image : Image) (regular : files.Regular path)
      (found : files.database ⟨path, readOnly⟩ = some image) : Stores files path (some image)

/-- The preflight and the initialization make up the open of the named file. -/
theorem openAt_of_preflight {path : String} {file : Option Image} (nonzero : 0 ∉ bytes path)
    (single : ¬ bytes "//" <+: bytes path) (stores : files.Stores (bytes path) file)
    (now : UInt64) :
    (do preflightExistingDatabase files (bytes path)
        initializeRelay (file.getD .blank) now) = openAt file now := by
  cases stores with
  | absent missing =>
      rw [preflightExistingDatabase, missing]
      rfl
  | empty metadata found isFile vacant expected =>
      have passes : ¬ metadata.isFile = false := by rw [isFile]; decide
      simp only [preflightExistingDatabase, found, rejectIf_of_not passes, ok_bind, if_pos vacant,
        expected]
      rfl
  | database image regular found =>
      rw [preflight_of_single nonzero single regular, FileSystem.validate, found]
      rfl

end Preflight

namespace Doubled

/-- Every path holds the same healthy relay database, and no companions. -/
def files : FileSystem where
  metadata path :=
    if bytes "-wal" <:+ path ∨ bytes "-journal" <:+ path then .error .notFound
    else .ok ⟨true, 57344⟩
  canonicalize path := some path
  contents _ := some []
  database _ := some .created

theorem regular {path : Bytes} (main : ¬ (bytes "-wal" <:+ path ∨ bytes "-journal" <:+ path)) :
    files.Regular path where
  file := ⟨⟨true, 57344⟩, if_neg main, rfl, by decide⟩
  expected := by simp [rejectAnomalousWal, nonemptyCompanion, files]
  unaccompanied := by simp [hasNonemptyRecoveryCompanion, nonemptyCompanion, files]

end Doubled

open Doubled in
/-- A healthy database below two slashes is refused, since its directory is taken for an
authority; with one slash it is accepted. If the directory is `localhost`, another file is
inspected. -/
theorem doubled_slash_misread :
    0 ∉ bytes "//srv/relay.db" ∧ ¬ NamesPath "//srv/relay.db" ∧
    preflightExistingDatabase files (bytes "//srv/relay.db") = .error .storage ∧
    preflightExistingDatabase files (bytes "/srv/relay.db") = .ok () ∧
    ∃ uri, immutableUri (bytes "//localhost/relay.db") = .ok uri ∧
      Uri.read (bytes uri) = some ⟨bytes "/relay.db", readOnly⟩ := by
  obtain ⟨uri, made, spelled⟩ := immutableUri_bytes "//srv/relay.db"
  have refused : Uri.read (bytes uri) = none := by
    rw [spelled]
    decide +kernel
  obtain ⟨uri', made', spelled'⟩ := immutableUri_bytes "//localhost/relay.db"
  refine ⟨by decide, ?_, ?_, ?_, uri', made', ?_⟩
  · rw [namesPath_iff made, refused]
    exact fun named => by cases named
  · rw [preflight_of_regular (regular (by decide)), made, ok_bind, FileSystem.validateUri, refused]
  · rw [preflight_of_single (by decide) (by decide) (regular (by decide))]
    rfl
  · rw [spelled']
    decide +kernel

end SecureMessenger
