import NodeStore.Cell
import NodeStore.Hex
import NodeStore.Text.Digit

/-!
# Checks of stored rows

What is read back from a store is checked before it is used: a channel id is 32 bytes of hex, a
peer's identity a compressed public key, its address `host:port`, a revocation id any hex text
that stands for at least one byte. A check answers with the decoded value or with the one
problem that it found; whoever asks decides whether a bad row is skipped or refused.
-/

namespace NodeStore

/-- Why a stored value is refused. -/
inductive RowProblem where
  /-- The column does not hold text. -/
  | notText (column kind : String)
  | badHex (column value : String)
  | badLength (column : String) (expected : Int) (found : Nat)
  | emptyRevocationId
  | badKeyMark (value : String)
  | badAddress (value : String)
  | badPort (value : String)
deriving DecidableEq, Repr

/-- The wording of a problem. -/
def RowProblem.message : RowProblem → String
  | notText column kind => s!"{column} must be str, got {kind}"
  | badHex column value => s!"Invalid {column} hex in database: {value}"
  | badLength column expected found =>
    s!"Invalid {column} length in database: expected {Text.decimalInt expected}, got {Text.decimal found}"
  | emptyRevocationId => "Empty revocation_id in database"
  | badKeyMark value => s!"Invalid public key prefix: {value}"
  | badAddress value => s!"Invalid socket address: {value}"
  | badPort value => s!"Invalid socket address port: {value}"

/-- The outcome of a check. -/
abbrev RowCheck := Except RowProblem

namespace RowCheck

/-- The size of a channel id in bytes. -/
def channelIdSize : Nat := 32

/-- The size of a compressed public key in bytes. -/
def publicKeySize : Nat := 33

/-- The greatest port. -/
def maxPort : Nat := 65535

/-- Decodes a hex column, of a given length if there is one. -/
def hex (v : Value) (column : String) (expected : Option Int) : RowCheck Bytes :=
  match v with
  | .text s =>
    match Hex.decode? s with
    | none => .error (.badHex column s)
    | some b =>
      match expected with
      | none => .ok b
      | some n => if (b.length : Int) = n then .ok b else .error (.badLength column n b.length)
  | v => .error (.notText column v.kindName)

/-- A row of the channel-id table: the temporary id is checked first. -/
def channelIds (temporary final : Value) : RowCheck (Bytes × Bytes) := do
  let t ← hex temporary "temporary_channel_id" (some channelIdSize)
  let f ← hex final "channel_id" (some channelIdSize)
  return (t, f)

/-- A revocation id stands for at least one byte. -/
def revocationId (v : Value) : RowCheck Bytes := do
  match ← hex v "revocation_id" none with
  | [] => .error .emptyRevocationId
  | b => return b

/-- A public key is 33 bytes of which the first is 2 or 3. The value kept is its canonical
spelling, lowercase hex. -/
def publicKey (v : Value) : RowCheck String :=
  match v with
  | .text s => do
    let b ← hex (.text s) "public_key" (some publicKeySize)
    if b.head? = some 2 ∨ b.head? = some 3 then return Hex.encode b
    else .error (.badKeyMark s)
  | v => .error (.notText "public_key" v.kindName)

/-! ## Addresses -/

/-- Splits at the last occurrence of a character. -/
def splitLast (c : Char) : List Char → Option (List Char × List Char)
  | [] => none
  | d :: ds =>
    match splitLast c ds with
    | some (a, b) => some (d :: a, b)
    | none => if d = c then some ([], ds) else none

/-- What may stand between the brackets of a host. -/
def isBracketChar (c : Char) : Bool :=
  (Hex.value? c).isSome || c == ':' || c == '.'

/-- What may stand in a host without brackets. -/
def isHostChar (c : Char) : Bool :=
  !(Text.isBlank c || c == ':' || c == '[' || c == ']')

/-- A host is a bracketed list of hex digits, colons and dots, or a plain name. -/
def isHost (cs : List Char) : Bool :=
  match cs with
  | '[' :: rest =>
    match rest.reverse with
    | ']' :: inner => !inner.isEmpty && inner.all isBracketChar
    | _ => false
  | cs => !cs.isEmpty && cs.all isHostChar

/-- The value of one to five decimal digits. -/
def portValue? (cs : List Char) : Option Nat :=
  if cs.isEmpty ∨ 5 < cs.length then none
  else (cs.mapM Text.digitValue?).map Text.natOfDigits

/-- A text without one final line feed. -/
def dropFinalNewline (cs : List Char) : List Char :=
  match cs.reverse with
  | '\n' :: rest => rest.reverse
  | _ => cs

/-- The port of an address that has the form `host:port`. -/
def addressPort? (s : String) : Option Nat :=
  match splitLast ':' (dropFinalNewline s.toList) with
  | some (host, port) => if isHost host then portValue? port else none
  | none => none

/-- An address is `host:port`; it is kept as it is written. -/
def socketAddress (v : Value) : RowCheck String :=
  match v with
  | .text s =>
    match addressPort? s with
    | none => .error (.badAddress s)
    | some p => if maxPort < p then .error (.badPort s) else .ok s
  | v => .error (.notText "socket_addr" v.kindName)

end RowCheck

end NodeStore
