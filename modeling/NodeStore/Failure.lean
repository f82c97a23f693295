import NodeStore.FileFault
import NodeStore.Issue
import NodeStore.RowCheck
import NodeStore.Text.Quoted
import NodeStore.Text.Raw
import NodeStore.Text.Utf8

/-!
# Failures

Every way in which an operation can fail, as its cause. `Failure.message` gives the wording.
`FailureKind` is the tree of kinds that callers tell apart: all but one lie under `store`, and an
invalid peer is a special case of an invalid record. A secret that opens but is no phrase is
outside the tree: only another program can have written it.
-/

namespace NodeStore

/-! ## Kinds -/

/-- The kinds of failure. -/
inductive FailureKind where
  | store
  | database
  | notInitialized
  | alreadyInitialized
  | wrongPassword
  | invalidRecord
  | invalidPeer
  | invalidMnemonic
  | transfer
  | corruptSecret
deriving DecidableEq, Repr

namespace FailureKind

/-- The kind that a kind is a special case of. -/
def parent : FailureKind → Option FailureKind
  | store => none
  | corruptSecret => none
  | invalidPeer => some invalidRecord
  | _ => some store

/-- The kinds that a kind is a special case of, nearest first. -/
def ancestors (k : FailureKind) : List FailureKind :=
  match k.parent with
  | none => []
  | some p =>
    match p.parent with
    | none => [p]
    | some q => [p, q]

/-- The text of a failure that is reported without a message. -/
def defaultText : FailureKind → String
  | notInitialized => "Node has not been initialized"
  | alreadyInitialized => "Node has already been initialized"
  | wrongPassword => "The provided password is incorrect"
  | _ => ""

/-- The text of a failure with a message. -/
def text (k : FailureKind) (message : String) : String :=
  if k = database then "Database error: " ++ message else message

end FailureKind

/-! ## Causes -/

/-- What a database engine reports. -/
inductive EngineFault where
  | noSuchTable (table : String)
  | notUnique (table column : String)
  | notNull (table column : String)
  | cannotOpen
  | notADatabase
  | closed
deriving DecidableEq, Repr

/-- The engine's wording. -/
def EngineFault.message : EngineFault → String
  | noSuchTable t => "no such table: " ++ t
  | notUnique t c => "UNIQUE constraint failed: " ++ t ++ "." ++ c
  | notNull t c => "NOT NULL constraint failed: " ++ t ++ "." ++ c
  | cannotOpen => "unable to open database file"
  | notADatabase => "file is not a database"
  | closed => "Cannot operate on a closed database."

/-- The look-up of a row by a column, as the engine is asked for it; without a key it looks for a
row whose column has no value. -/
structure Statement where
  table : String
  columns : List String
  key : Option String
deriving DecidableEq, Repr

namespace Statement

/-- A column of the table; a reserved word is quoted. -/
def column (s : Statement) (c : String) : String :=
  s.table ++ "." ++ (if c = "key" then "\"key\"" else c)

/-- The statement and its parameter. -/
def text (s : Statement) : String :=
  let condition := match s.key with
    | some key => " = ?]\n[parameters: (" ++ Text.quoted key ++ ",)]"
    | none => " IS NULL]"
  "[SQL: SELECT " ++ ", ".intercalate (s.columns.map s.column) ++ " \nFROM " ++ s.table ++
    " \nWHERE " ++ s.column ((s.columns.drop 1).headD "") ++ condition

end Statement

/-- A fault of one of the two stores. -/
inductive DatabaseFault where
  /-- The relational store, with the statement that failed if it is told. -/
  | relational (fault : EngineFault) (statement : Option Statement)
  /-- The secret store, with what it was doing if it is told. -/
  | secret (doing : Option String) (fault : EngineFault)
  /-- A transaction that the engine did not carry out. -/
  | refused (reason : String)
deriving DecidableEq, Repr

namespace DatabaseFault

/-- The class that the engine reports a fault under, and where more is told about it. -/
def engineClass : EngineFault → String × String
  | .notUnique .. => ("IntegrityError", "gkpj")
  | .notNull .. => ("IntegrityError", "gkpj")
  | .notADatabase => ("DatabaseError", "4xp6")
  | _ => ("OperationalError", "e3q8")

/-- The wording of a fault. -/
def message : DatabaseFault → String
  | relational fault statement =>
    let (name, page) := engineClass fault
    let asked := match statement with
      | some s => s.text ++ "\n"
      | none => ""
    "(sqlite3." ++ name ++ ") " ++ fault.message ++ "\n" ++ asked ++
      "(Background on this error at: https:" ++ "//sqlalche.me/e/21/" ++ page ++ ")"
  | secret none fault => fault.message
  | secret (some doing) fault => doing ++ ": " ++ fault.message
  | refused reason => reason

end DatabaseFault

/-- Why a sealed value has not the form of one. -/
inductive SealFault where
  | noSeparator
  | malformedSalt
  | saltSize (found : Nat)
deriving DecidableEq, Repr

/-- The wording of a fault. -/
def SealFault.message : SealFault → String
  | noSeparator => "Sealed value is missing its salt separator"
  | malformedSalt => "Sealed value has a malformed salt"
  | saltSize n => s!"Sealed value salt must be 16 bytes, got {n}"

/-- Why bytes are not a channel map, or a map cannot be written. -/
inductive ChannelMapFault where
  | truncated
  | badMagic
  | badVersion (found : Nat)
  | badSize (expected found : Nat)
  | badIdSize
  /-- The header has no room for the number of pairs. The packing of numbers reports it, and not
  the format. -/
  | tooMany
deriving DecidableEq, Repr

/-- The wording of a fault. -/
def ChannelMapFault.message : ChannelMapFault → String
  | truncated => "channel_ids: truncated header"
  | badMagic => "channel_ids: bad magic"
  | badVersion v => s!"channel_ids: unsupported version {v}"
  | badSize expected found => s!"channel_ids: expected {expected} bytes, got {found}"
  | badIdSize => "channel ids must be 32 bytes"
  | tooMany => "'I' format requires 0 <= number <= 4294967295"

/-- Why a peer is refused. -/
inductive PeerFault where
  /-- The key or address that was handed over, or the address that was read. -/
  | given (problem : RowProblem)
  /-- The key that was read. -/
  | storedKey (problem : RowProblem)
deriving DecidableEq, Repr

/-- The wording of a fault. -/
def PeerFault.message : PeerFault → String
  | given p => p.message
  | storedKey p => "Invalid public key: " ++ p.message

/-- Why a legacy or published file could not be read or written. -/
inductive TransferFault where
  | unreadable (path : String) (fault : FileFault)
  | notText (path : String) (fault : Utf8.Fault)
  | notAChannelMap (fault : ChannelMapFault)
  | noStorage (path : String)
  | notSynced (keys : List String)
deriving DecidableEq, Repr

/-- The wording of a fault of the file system, with the path. -/
def FileFault.at (f : FileFault) (path : String) : String :=
  f.message ++ ": " ++ Text.quoted path

/-- The wording of a fault. -/
def TransferFault.message : TransferFault → String
  | unreadable path fault => "Failed to read " ++ path ++ ": " ++ fault.at path
  | notText path fault => "Failed to read " ++ path ++ ": " ++ fault.message
  | notAChannelMap fault => "Unreadable channel_ids file, left in place: " ++ fault.message
  | noStorage path => "Storage directory not accessible: " ++ path
  | notSynced keys => "Failed to sync config to files: " ++ ", ".intercalate keys

/-- Why an argument is refused. -/
inductive ArgumentFault where
  | noIterations
  | badStrength
  | idSize (name : String) (found : Nat)
  | revocation (problem : RowProblem)
  | hex (position : Nat)
  /-- A variable's name cannot be set in the environment. -/
  | variableName (hasNul : Bool)
deriving DecidableEq, Repr

/-- The wording of a fault. -/
def ArgumentFault.message : ArgumentFault → String
  | noIterations => "iteration value must be greater than 0."
  | badStrength => "Invalid strength value. Allowed values are [128, 160, 192, 224, 256]."
  | idSize name found => s!"{name} must be 32 bytes, got {found}"
  | revocation p => p.message
  | hex i => s!"non-hexadecimal number found in fromhex() arg at position {i}"
  | variableName true => "embedded null byte"
  | variableName false => "illegal environment variable name"

/-- What is beyond the numbers that key derivation works with. -/
inductive LimitFault where
  /-- The number of iterations does not fit into a machine word. -/
  | number
  | passwordSize
  | iterations
deriving DecidableEq, Repr

/-- The wording of a fault. -/
def LimitFault.message : LimitFault → String
  | number => "Python int too large to convert to C long"
  | passwordSize => "password is too long."
  | iterations => "iteration value is too great."

/-- Where bytes stand in a text column whose text is needed. -/
inductive BytesFault where
  /-- A setting that is to be published. -/
  | setting
  /-- A sealed phrase that is to be opened. -/
  | sealedPhrase
deriving DecidableEq, Repr

/-- The wording of a fault. -/
def BytesFault.message : BytesFault → String
  | setting => "data must be str, not bytes"
  | sealedPhrase => "a bytes-like object is required, not 'str'"

/-- Why an operation failed. -/
inductive Failure where
  | database (fault : DatabaseFault)
  | notInitialized
  | alreadyInitialized
  | wrongPassword
  | invalidRecord (fault : SealFault)
  | invalidPeer (fault : PeerFault)
  | invalidMnemonic
  | transfer (fault : TransferFault)
  | corruptSecret
  | channelMap (fault : ChannelMapFault)
  | argument (fault : ArgumentFault)
  | limit (fault : LimitFault)
  | notText (fault : Utf8.Fault)
  | notEncodable (fault : SurrogateFault)
  | bytes (fault : BytesFault)
  | invalid (issues : List Issue)
  | file (fault : FileFault)
deriving DecidableEq, Repr

namespace Failure

/-- The kind of a failure, unless it lies outside the tree of kinds. -/
def kind? : Failure → Option FailureKind
  | database _ => some .database
  | notInitialized => some .notInitialized
  | alreadyInitialized => some .alreadyInitialized
  | wrongPassword => some .wrongPassword
  | invalidRecord _ => some .invalidRecord
  | invalidPeer _ => some .invalidPeer
  | invalidMnemonic => some .invalidMnemonic
  | transfer _ => some .transfer
  | corruptSecret => some .corruptSecret
  | channelMap _ | argument _ | limit _ | notText _ | notEncodable _ | bytes _ | invalid _
  | file _ => none

/-- Lies under the root of the tree of kinds. -/
def isStore (f : Failure) : Bool :=
  match f.kind? with
  | some k => k == .store || k.ancestors.contains .store
  | none => false

/-- The wording of a failure. -/
def message : Failure → String
  | database fault => FailureKind.database.text fault.message
  | notInitialized => FailureKind.notInitialized.defaultText
  | alreadyInitialized => FailureKind.alreadyInitialized.defaultText
  | wrongPassword => FailureKind.wrongPassword.defaultText
  | invalidRecord fault => fault.message
  | invalidPeer fault => fault.message
  | invalidMnemonic => "Invalid mnemonic phrase"
  | transfer fault => fault.message
  | corruptSecret => "stored secret is not a valid mnemonic"
  | channelMap fault => fault.message
  | argument fault => fault.message
  | limit fault => fault.message
  | notText fault => fault.message
  | notEncodable fault => fault.message
  | bytes fault => fault.message
  | invalid _ => ""
  | file fault => fault.message

end Failure

end NodeStore
