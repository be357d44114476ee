import HomeAuto.BindPage
import HomeAuto.Lib.QuotedText
import HomeAuto.ConfigRecords
import HomeAuto.OutputTags

/-!
# The backup (`tools.shtml`)

The tags put the settings into the hidden inputs of the tools page.  `buildJson` makes a JSON
text of the values that the browser reads back from them, and `doRestore` sends such a text to
the device, 200 UTF-16 units at a time, as hexadecimal digits of the low bytes.

The browser itself is not in the source; `Browser` is what the page relies on of it.
-/

namespace HomeAuto

open Unicode (utf16)

/-! ## The settings -/

/-- A C string in a field of `room + 1` bytes. -/
structure FieldStr (room : Nat) where
  text : CStr
  noNul : 0 ∉ text
  fits : text.length ≤ room

/-- `strncpy` into a field, which ends in a NUL already. -/
def FieldStr.strncpy (room : Nat) (s : CStr) : FieldStr room where
  text := (s.takeWhile (· ≠ 0)).take room
  noNul := by
    intro h
    have hne := List.mem_takeWhile_imp (List.mem_of_mem_take h)
    simp at hne
  fits := List.length_take_le _ _

/-- The settings that a backup contains, with the bounds that the pages check. -/
structure BackupSettings where
  host : FieldStr (cfgHostLen - 1)
  port : { p : Nat // 0 < p ∧ p ≤ 65535 }
  client : FieldStr (cfgClientIDLen - 1)
  user : FieldStr (cfgUserLen - 1)
  pass : FieldStr (cfgPassLen - 1)
  topic : FieldStr (cfgTopicLen - 1)
  useAuth : Bool
  din : Fin 16
  relay : Fin 16
  ntpServer : FieldStr (cfgNtpServerLen - 1)
  tz : { z : Int // -12 ≤ z ∧ z ≤ 14 }
  inputType : Nat → BitVec 8
  binds : { t : BindTable // ∀ i k, (t i k).Stored }
  inName : Nat → FieldStr (cfgNameLen - 1)
  outName : Nat → FieldStr (cfgNameLen - 1)

/-- The device counts are nibbles. -/
instance neZero_sixteen : NeZero (16 : Nat) := ⟨by decide⟩

/-- Settings without names and with one device each. -/
def plainSettings : BackupSettings where
  host := ⟨ascii "broker", by decide, by decide⟩
  port := ⟨1883, by decide⟩
  client := ⟨ascii "dev", by decide, by decide⟩
  user := ⟨[], by decide, by decide⟩
  pass := ⟨[], by decide, by decide⟩
  topic := ⟨ascii "home", by decide, by decide⟩
  useAuth := false
  din := 1
  relay := 1
  ntpServer := ⟨ascii "pool", by decide, by decide⟩
  tz := ⟨0, by decide⟩
  inputType := fun _ => 0#8
  binds := ⟨fun _ _ => .unused, fun _ _ => BindSlot.stored_unused⟩
  inName := fun _ => ⟨[], by decide, by decide⟩
  outName := fun _ => ⟨[], by decide, by decide⟩

/-- `IOInputCount`, with the local inputs of the platform. -/
def ioInputCountOf (localInputs din : Nat) : Nat :=
  if 0 < localInputs ∧ din < dinMaxBytes ∧ din * 8 + localInputs ≤ cfgMaxInputs then
    din * 8 + localInputs
  else din * 8

/-- `ConfigInputIsPushbutton`. -/
def isPushbutton (inputType : Nat → BitVec 8) (i : Nat) : Bool :=
  if cfgMaxInputs ≤ i then false else (inputType (i / 8) &&& (1#8 <<< (i % 8))) != 0#8

/-! ## The page -/

/-- The hidden inputs of the page. -/
inductive PageInput
  | host | port | client | user | pass | topic | auth | din | relay | ntp | tz | types | binds
  | innames | outnames
  deriving DecidableEq

/-- `%d`. -/
def fmtInt (z : Int) : CStr := if z < 0 then 45 :: fmtDecimal z.natAbs else fmtDecimal z.natAbs

/-- The tags `INNAMES` and `OUTNAMES`. -/
def ssiNames (names : Nat → FieldStr (cfgNameLen - 1)) (count : Nat) : CStr :=
  emitBlocks ((List.range count).map fun i => nameBlock (nameField (names i).text))

namespace BackupSettings

variable (localInputs : Nat) (s : BackupSettings)

def ioInputCount : Nat := ioInputCountOf localInputs s.din

/-- How many input and output names the tags list. -/
def listedInNames : Nat := min (s.ioInputCount localInputs) cfgNamesMaxInputs
def listedOutNames : Nat := min (s.relay * 8) cfgNamesMaxOutputs

/-- The texts that the tags insert. -/
def tags : PageInput → CStr
  | .host => s.host.text
  | .port => fmtDecimal s.port
  | .client => s.client.text
  | .user => s.user.text
  | .pass => s.pass.text
  | .topic => s.topic.text
  | .auth => if s.useAuth then ascii "checked" else []
  | .din => fmtDecimal s.din
  | .relay => fmtDecimal s.relay
  | .ntp => s.ntpServer.text
  | .tz => fmtInt s.tz
  | .types => ssiIoTypes (isPushbutton s.inputType) (s.ioInputCount localInputs)
  | .binds => ssiIoBinds s.binds (s.ioInputCount localInputs)
  | .innames => ssiNames s.inName (s.listedInNames localInputs)
  | .outnames => ssiNames s.outName s.listedOutNames

end BackupSettings

/-- The character of an ASCII byte. -/
def byteChar (b : UInt8) : Char := Char.ofNat b.toNat

/-- Printable ASCII that ends no attribute and begins no character reference. -/
def PlainAttr (b : UInt8) : Prop := 32 ≤ b ∧ b ≤ 126 ∧ b ≠ 34 ∧ b ≠ 38

instance : DecidablePred PlainAttr := fun b =>
  inferInstanceAs (Decidable (32 ≤ b ∧ b ≤ 126 ∧ b ≠ 34 ∧ b ≠ 38))

instance (v : CStr) : Decidable (∀ b ∈ v, PlainAttr b) := List.decidableBAll _ v

/-- A browser: the values of the inputs for the texts that the tags insert.  Where no text has
a quotation mark, each attribute is read by itself.  Of how it is read the following is used:
plain ASCII is read as it is; blanks and backslashes belong to no character reference and to no
longer UTF-8 sequence, so what stands around one is read separately; and a reference or sequence
has at least as many bytes as the units it stands for. -/
structure Browser where
  value : (PageInput → CStr) → PageInput → List Char
  attr : CStr → List Char
  value_eq : ∀ tags, (∀ i, 34 ∉ tags i) → ∀ i, value tags i = attr (tags i)
  attr_plain : ∀ v, (∀ b ∈ v, PlainAttr b) → attr v = v.map byteChar
  attr_split : ∀ v w c, c = 32 ∨ c = 92 → attr (v ++ c :: w) = attr v ++ byteChar c :: attr w
  units_le : ∀ v, ((attr v).flatMap utf16).length ≤ v.length

/-! ## The JSON text -/

/-- A value of the object. -/
inductive JsonValue
  | str (v : List Char)
  | num (n : Int)

/-- `parseInt`, without blanks or a radix prefix in front. -/
def jsDigits (v : List Char) : Option Nat :=
  parseInt ((v.takeWhile Char.isDigit).map fun c => UInt8.ofNat c.toNat)
def jsParseInt : List Char → Option Int
  | '-' :: ds => (jsDigits ds).map fun n : Nat => -(n : Int)
  | v => (jsDigits v).map Int.ofNat

/-- `parseInt(.)||dflt`. -/
def jsIntOr (v : List Char) (dflt : Int) : Int :=
  match jsParseInt v with
  | none => dflt
  | some n => if n = 0 then dflt else n

/-- `buildJson`, up to the object. -/
def buildObject (v : PageInput → List Char) : List (CStr × JsonValue) :=
  [(ascii "host", .str (v .host)),
    (ascii "port", .num (jsIntOr (v .port) 1883)),
    (ascii "client", .str (v .client)),
    (ascii "user", .str (v .user)),
    (ascii "pass", .str (v .pass)),
    (ascii "topic", .str (v .topic)),
    (ascii "auth", .num (if v .auth = "checked".toList ∨ v .auth = ['1'] then 1 else 0)),
    (ascii "din", .num (jsIntOr (v .din) 0)),
    (ascii "relay", .num (jsIntOr (v .relay) 0)),
    (ascii "ntp", .str (v .ntp)),
    (ascii "tz", .num (jsIntOr (v .tz) 0)),
    (ascii "types", .str (v .types)),
    (ascii "binds", .str (v .binds)),
    (ascii "innames", .str (v .innames)),
    (ascii "outnames", .str (v .outnames))]

/-- The characters that `JSON.stringify` escapes. -/
def escaped (c : Char) : Bool := c = '"' || c = '\\' || c.toNat < 32

/-- The letter after the backslash, of the characters that have one. -/
def escapeLetter (c : Char) : Option Char :=
  if c = '"' ∨ c = '\\' then some c
  else if c.toNat = 8 then some 'b'
  else if c.toNat = 9 then some 't'
  else if c.toNat = 10 then some 'n'
  else if c.toNat = 12 then some 'f'
  else if c.toNat = 13 then some 'r'
  else none

/-- `QuoteJSONString`, without the quotation marks. -/
def jsonEscape (c : Char) : List Char :=
  if escaped c then
    match escapeLetter c with
    | some l => ['\\', l]
    | none => '\\' :: 'u' :: '0' :: '0' :: (hex2 c.toNat).map byteChar
  else [c]

/-- A value as text. -/
def JsonValue.text : JsonValue → List Char
  | .str v => '"' :: (v.flatMap jsonEscape ++ ['"'])
  | .num n => (fmtInt n).map byteChar

/-- A property on its line, with the indent of two blanks. -/
def propertyText (p : CStr × JsonValue) : List Char :=
  ((32 :: 32 :: QuotedText.quoted 34 p.1 ++ [58, 32]).map byteChar) ++ p.2.text

/-- `JSON.stringify(., null, 2)`. -/
def jsonStringify (ps : List (CStr × JsonValue)) : List Char :=
  ['{', '\n'] ++ [',', '\n'].intercalate (ps.map propertyText) ++ ['\n', '}']

/-- `buildJson`. -/
def buildJson (v : PageInput → List Char) : List Char := jsonStringify (buildObject v)

/-! ## The upload -/

/-- `CFGCHUNK`. -/
def cfgChunk : Nat := 200

/-- `toHexStr`. -/
def toHexStr (units : List Nat) : CStr := units.flatMap fun u => hex2 (u &&& 0xFF)

/-- The query of chunk number `seq`. -/
def chunkFields (units : List Nat) (seq : Nat) : List (CStr × CStr) :=
  [(ascii "seq", fmtDecimal seq),
    (ascii "last", if units.length ≤ (seq + 1) * cfgChunk then ascii "1" else ascii "0"),
    (ascii "data", toHexStr ((units.drop (seq * cfgChunk)).take cfgChunk))]

/-- The requests of `doRestore`.  The text comes out of the file and the text area as it was
made: it has no lone surrogate, no carriage return and no blank at its ends. -/
def doRestore (json : List Char) : List CgiParams :=
  (List.range (((json.flatMap utf16).length + (cfgChunk - 1)) / cfgChunk)).map fun seq =>
    extractUriParameters (queryText (chunkFields (json.flatMap utf16) seq))

end HomeAuto
