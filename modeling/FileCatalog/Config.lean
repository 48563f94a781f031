import FileCatalog.Path
import FileCatalog.Toml

/-!
# Configuration

The configuration of a store is where it lies and two sizes. It is read from the table `store` of a
TOML text. What the text does not say keeps its default, and keys that mean nothing are passed
over. The settings may also be given as an array, in the order of their declaration, and a moment
in the place of the table gives none of them.

A size is an integer that is not negative. A text that breaks a rule of TOML, or gives a setting
another type, is no configuration.
-/

namespace FileCatalog

/-- Where a store lies and how it buffers. -/
structure Settings where
  /-- The directory of the store. -/
  directory : String := "/var/lib/metanode"
  /-- The octets of memory for pages. -/
  cacheSize : UInt64 := 64 * 1024 * 1024
  /-- The payload that makes a commit durable. -/
  writeBuffer : UInt64 := 4 * 1024 * 1024
  deriving Repr, Inhabited

namespace Settings

/-- The settings with another directory. -/
def withDirectory (s : Settings) (directory : String) : Settings := { s with directory }

/-- Whether the settings are the defaults; the directory may be written in another way. -/
def isDefault (s : Settings) : Bool :=
  let default : Settings := {}
  Path.isAlike s.directory default.directory && s.cacheSize = default.cacheSize &&
    s.writeBuffer = default.writeBuffer

/-! ## From TOML -/

/-- A directory. -/
def ofText : Toml.Value → Option String
  | .text s => some s
  | _ => none

/-- A size. -/
def ofSize : Toml.Value → Option UInt64
  | .integer n => if 0 ≤ n then some (UInt64.ofNat n.toNat) else none
  | _ => none

/-- A setting that may be missing. -/
def setting {α : Type} (v : Option Toml.Value) (default : α) (read : Toml.Value → Option α) :
    Option α :=
  match v with
  | some v => read v
  | none => some default

/-- The settings whose values are looked up. -/
def ofLookup (directory cacheSize writeBuffer : Option Toml.Value) : Option Settings := do
  let default : Settings := {}
  return {
    directory := ← setting directory default.directory ofText
    cacheSize := ← setting cacheSize default.cacheSize ofSize
    writeBuffer := ← setting writeBuffer default.writeBuffer ofSize }

/-- The settings in the members of a table. -/
def ofMembers (ms : Toml.Members) : Option Settings :=
  ofLookup (ms.lookup "data_dir") (ms.lookup "cache_size") (ms.lookup "write_buffer_size")

/-- The settings that a value holds. -/
def ofValue : Toml.Value → Option Settings
  | .table _ members => ofMembers members
  | .array items => ofLookup items[0]? items[1]? items[2]?
  | .moment .. => some {}
  | _ => none

/-- The settings that a TOML text holds. -/
def parse (text : String) : Option Settings := do
  let root ← Toml.parse text
  setting (root.lookup "store") {} ofValue

end Settings

end FileCatalog
