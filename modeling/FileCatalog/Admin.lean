import FileCatalog.Admin.Arguments
import FileCatalog.Config
import FileCatalog.Files

/-!
# The admin tool

One run of the tool: it reads its arguments, then the configuration, opens the store, performs the
command and releases the store. The first of these that fails ends the run. `Admin.run` tells what
the run prints, its exit code and the first line of its error.
-/

namespace FileCatalog.Admin

/-- What a run of the tool leaves behind. -/
structure Outcome where
  /-- Zero for success, one for an error, two for arguments that are refused. -/
  exit : Nat
  stdout : String := ""
  /-- The wording of the error; arguments that are refused have none. -/
  error : Option String := none
  deriving DecidableEq, Repr

/-- The outcome of an error after some output. -/
def Outcome.failed (stdout message : String) : Outcome :=
  { exit := 1, stdout, error := some message }

/-- The first line of the error. -/
def Outcome.headline (o : Outcome) : Option String :=
  o.error.map fun message => String.ofList (message.toList.takeWhile (· ≠ '\n'))

/-! ## Questions -/

/-- What the tool says to a question for its version. -/
def versionText : String := "metanode-admin 0.1.0\n"

/-- What the tool says about itself. -/
def toolHelp : String :=
  "Metanode store admin tool\n\n" ++
  "Usage: metanode-admin [OPTIONS] <COMMAND>\n\n" ++
  "Commands:\n" ++
  "  stat       Show apply index and record counts\n" ++
  "  dump       Print every record of a collection as JSON lines\n" ++
  "  get-inode  Print one inode as JSON\n" ++
  "  flush      Force a durable commit of buffered writes\n" ++
  "  help       Print this message or the help of the given subcommand(s)\n\n" ++
  "Options:\n" ++
  "  -c, --config <CONFIG>        TOML config file\n" ++
  "  -d, --data-dir <DATA_DIR>    Store directory (overrides config)\n" ++
  "      --log-level <LOG_LEVEL>  Log level [default: warn]\n" ++
  "  -h, --help                   Print help\n" ++
  "  -V, --version                Print version\n"

/-- What the tool says about one of its commands. -/
def commandHelp (about usage words : String) : String :=
  about ++ "\n\nUsage: metanode-admin " ++ usage ++ "\n\n" ++ words ++
    "Options:\n  -h, --help  Print help\n"

/-- What the tool says to a question for help. -/
def helpText : Option String → String
  | some "stat" => commandHelp "Show apply index and record counts" "stat" ""
  | some "dump" =>
    commandHelp "Print every record of a collection as JSON lines" "dump <COLLECTION>"
      "Arguments:\n  <COLLECTION>  inode, dentry, extend or multipart\n\n"
  | some "get-inode" =>
    commandHelp "Print one inode as JSON" "get-inode <INO>" "Arguments:\n  <INO>  \n\n"
  | some "flush" => commandHelp "Force a durable commit of buffered writes" "flush" ""
  | some "help" =>
    "Print this message or the help of the given subcommand(s)\n\n" ++
    "Usage: metanode-admin help [COMMAND]...\n\n" ++
    "Arguments:\n  [COMMAND]...  Print help for the subcommand(s)\n"
  | _ => toolHelp

/-- What the tool says to a question. -/
def answer : Question → String
  | .version => versionText
  | .help command => helpText command

/-! ## Runs -/

variable {m : Type → Type} [Monad m]

/-- The settings of a request: those of its configuration, or the defaults, with the directory that
it names. -/
def settings (files : Files m) (r : Request) : m (Except String Settings) := do
  let configured : Except String Settings ←
    match r.config with
    | none => pure (.ok {})
    | some path => do
      match ← files.readText path with
      | none => pure (.error s!"failed to read config {path}")
      | some text =>
        match Settings.parse text with
        | none => pure (.error s!"failed to parse config {path}")
        | some s => pure (.ok s)
  return configured.map fun s =>
    match r.directory with
    | some directory => s.withDirectory directory
    | none => s

/-- Performs a command on the store in a directory. -/
def runOn (files : Files m) (s : Settings) (command : Command) : m Outcome := do
  match ← files.openStore s.directory s.writeBuffer with
  | .error _ => return .failed "" (StoreError.openHeadline s.directory)
  | .ok store =>
    let (store, output) := command.run store
    let _ ← files.saveStore store
    match output.fault with
    | none => return { exit := 0, stdout := output.text }
    | some fault => return .failed output.text fault.message

/-- One run of the tool. -/
def run (files : Files m) (arguments : List String) : m Outcome := do
  match ask arguments with
  | .refused => return { exit := 2 }
  | .question q => return { exit := 0, stdout := answer q }
  | .request r =>
    match ← settings files r with
    | .error message => return .failed "" message
    | .ok s => runOn files s r.command

end FileCatalog.Admin
