import FileCatalog.Admin.Command

/-!
# Arguments of the admin tool

Options stand before the command, and at most once each. The value of an option is the argument
after it, or stands in the same argument: behind an equals sign, or right behind the letter of a
short option. An argument that begins with a dash, a lone dash apart, is no value of the argument
before it. Paths are not empty.

Arguments are taken from left to right. What is refused first decides, and so does a question for
the version or for help: neither looks at what follows.
-/

namespace FileCatalog.Admin

/-- What the tool is asked to do. -/
structure Request where
  /-- The file with the configuration. -/
  config : Option String := none
  /-- The directory of the store, before the one in the configuration. -/
  directory : Option String := none
  /-- How much is logged. -/
  logLevel : Option String := none
  command : Command
  deriving DecidableEq, Repr

/-- A question that is answered without a store. -/
inductive Question where
  | version
  /-- Help on the tool, or on the command of a name. -/
  | help (command : Option String)
  deriving DecidableEq, Repr

/-- What arguments amount to. -/
inductive Asked where
  | request (r : Request)
  | question (q : Question)
  /-- The arguments are refused. -/
  | refused
  deriving DecidableEq, Repr

/-! ## Options -/

/-- An option with a value. -/
inductive Setting where
  | config
  | directory
  | logLevel
  deriving DecidableEq, Repr

/-- The options that are set so far. -/
structure Options where
  config : Option String := none
  directory : Option String := none
  logLevel : Option String := none
  deriving Repr

namespace Options

/-- The value of an option. -/
def get? (o : Options) : Setting → Option String
  | .config => o.config
  | .directory => o.directory
  | .logLevel => o.logLevel

/-- Gives an option its value, once; only the log level may be empty. -/
def set? (o : Options) (s : Setting) (value : String) : Option Options :=
  if (o.get? s).isSome then none
  else match s with
    | .config => if value.isEmpty then none else some { o with config := some value }
    | .directory => if value.isEmpty then none else some { o with directory := some value }
    | .logLevel => some { o with logLevel := some value }

end Options

/-- How an argument begins. -/
inductive Shape where
  /-- Two dashes and nothing more. -/
  | divider
  /-- A long option, with the value behind its equals sign. -/
  | long (name : List Char) (value : Option (List Char))
  /-- Short options: one letter, and what follows it. -/
  | short (letter : Char) (rest : List Char)
  /-- Anything else. -/
  | word
  deriving DecidableEq, Repr

/-- The shape of an argument. -/
def shape (argument : String) : Shape :=
  match argument.toList with
  | ['-', '-'] => .divider
  | '-' :: '-' :: cs =>
    match cs.dropWhile (· ≠ '=') with
    | [] => .long cs none
    | _ :: value => .long (cs.takeWhile (· ≠ '=')) (some value)
  | '-' :: letter :: rest => .short letter rest
  | _ => .word

/-- What a known option asks for. -/
inductive Meaning where
  | setting (s : Setting)
  | version
  | help
  deriving DecidableEq, Repr

/-- The meaning of a long option. -/
def longMeaning? (name : List Char) : Option Meaning :=
  match String.ofList name with
  | "config" => some (.setting .config)
  | "data-dir" => some (.setting .directory)
  | "log-level" => some (.setting .logLevel)
  | "version" => some .version
  | "help" => some .help
  | _ => none

/-- The meaning of a short option. -/
def shortMeaning? : Char → Option Meaning
  | 'c' => some (.setting .config)
  | 'd' => some (.setting .directory)
  | 'V' => some .version
  | 'h' => some .help
  | _ => none

/-- The value right behind the letter of a short option. -/
def attached : List Char → Option (List Char)
  | [] => none
  | '=' :: value => some value
  | value => some value

/-! ## Commands -/

/-- The number of an inode: decimal digits, perhaps behind a plus, that fit 64 bits. -/
def inodeNumber? (argument : String) : Option UInt64 :=
  let digits :=
    match argument.toList with
    | '+' :: digits => digits
    | digits => digits
  if digits.isEmpty || !digits.all Char.isDigit then none
  else
    let n := digits.foldl (fun sum c => 10 * sum + (c.toNat - '0'.toNat)) 0
    if n < UInt64.size then some (UInt64.ofNat n) else none

/-- What the words of a command make of it. -/
def command? (name : String) (words : List String) : Option Command :=
  match name, words with
  | "stat", [] => some .stat
  | "dump", [word] => Command.dump <$> Collection.ofName? word
  | "get-inode", [word] => Command.getInode <$> inodeNumber? word
  | "flush", [] => some .flush
  | _, _ => none

/-- The names of the commands. -/
def commandNames : List String := ["stat", "dump", "get-inode", "flush"]

/-- How many words a command takes. -/
def wordCount (name : String) : Nat := if name = "dump" || name = "get-inode" then 1 else 0

/-- Whether a question for help asks for it here: the words before it have to be sound. -/
def asksHelp (name : String) (words : List String) : Bool :=
  words.isEmpty || (command? name words).isSome

/-- The arguments behind a command; after a divider all of them are words. -/
def commandArguments (name : String) (o : Options) (words : List String) (isDivided : Bool) :
    List String → Asked
  | [] =>
    match command? name words with
    | some command =>
      .request { config := o.config, directory := o.directory, logLevel := o.logLevel, command }
    | none => .refused
  | argument :: rest =>
    let word : Asked :=
      if words.length < wordCount name then
        commandArguments name o (words ++ [argument]) isDivided rest
      else .refused
    if isDivided then word
    else match shape argument with
      | .divider => commandArguments name o words true rest
      | .word => word
      | .long optionName none =>
        if longMeaning? optionName = some .help && asksHelp name words then
          .question (.help (some name))
        else .refused
      | .long _ (some _) => .refused
      | .short letter _ =>
        if shortMeaning? letter = some .help && asksHelp name words then
          .question (.help (some name))
        else .refused

/-- The arguments behind the command for help. -/
def helpArguments : List String → Asked
  | [] => .question (.help none)
  | [name] => if name ∈ "help" :: commandNames then .question (.help (some name)) else .refused
  | _ => .refused

/-! ## The whole line -/

/-- What arguments ask for, with the options that are set so far. -/
def readArguments (o : Options) : List String → Asked
  | [] => .refused
  | argument :: rest =>
    let give (s : Setting) (value : Option (List Char)) : Asked :=
      match value with
      | some value =>
        match o.set? s (String.ofList value) with
        | some o => readArguments o rest
        | none => .refused
      | none =>
        match rest with
        | [] => .refused
        | next :: rest =>
          match shape next with
          | .word =>
            match o.set? s next with
            | some o => readArguments o rest
            | none => .refused
          | _ => .refused
    match shape argument with
    | .divider => .refused
    | .word =>
      if argument = "help" then helpArguments rest
      else if argument ∈ commandNames then commandArguments argument o [] false rest
      else .refused
    | .long name value =>
      match longMeaning? name, value with
      | some (.setting s), value => give s value
      | some .version, none => .question .version
      | some .help, none => .question (.help none)
      | _, _ => .refused
    | .short letter more =>
      match shortMeaning? letter with
      | some (.setting s) => give s (attached more)
      | some .version => .question .version
      | some .help => .question (.help none)
      | none => .refused

/-- What the arguments of the tool ask for. -/
def ask (arguments : List String) : Asked := readArguments {} arguments

end FileCatalog.Admin
