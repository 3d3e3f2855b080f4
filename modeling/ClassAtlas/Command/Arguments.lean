import ClassAtlas.Command.Invocation

/-!
# Reading arguments

A reader of arguments: at most one path, options with a value, and flags, in any order. The
arguments are taken from left to right, and the first one that is wrong, or asks for help or for the
version, decides. A value stands behind its option, after an equals sign or as the next argument; in
the latter form it does not begin with a dash. After `--` every argument is a path. Paths may be any
bytes; names of options and flags, letters and profiles have to be text.
-/
namespace ClassAtlas.Command

inductive Flag where
  | pretty
  | verbose
  | help
  | version
  deriving DecidableEq, Repr

/-- An option with a value. -/
inductive Choice where
  | config
  | profile
  deriving DecidableEq, Repr

def Flag.name : Flag → String
  | pretty => "pretty"
  | verbose => "verbose"
  | help => "help"
  | version => "version"

/-- The letter of a flag. -/
def Flag.letter? : Flag → Option Char
  | pretty => none
  | verbose => some 'v'
  | help => some 'h'
  | version => some 'V'

def Choice.name : Choice → String
  | config => "config"
  | profile => "profile"

def Flag.all : List Flag := [pretty, verbose, help, version]

def Choice.all : List Choice := [config, profile]

/-- The flag with this name; names are not abbreviated. -/
def Flag.ofName? (name : String) : Option Flag := all.find? fun flag => flag.name == name

/-- The flag with this letter. -/
def Flag.ofLetter? (letter : Char) : Option Flag :=
  all.find? fun flag => flag.letter? == some letter

def Choice.ofName? (name : String) : Option Choice := all.find? fun choice => choice.name == name

/-- What is wrong with the arguments. -/
inductive Misuse where
  | unknownOption (written : SystemText)
  | repeated (name : String)
  | valueMissing (name : String)
  | valueUnexpected (name : String)
  | unknownProfile (word : String)
  | profileNotText
  | pathEmpty
  | secondPath (written : SystemText)
  deriving DecidableEq, Repr

def Misuse.message : Misuse → String
  | unknownOption written => "unexpected argument '" ++ written.shown ++ "'"
  | repeated name => "'--" ++ name ++ "' is given more than once"
  | valueMissing name => "'--" ++ name ++ "' needs a value"
  | valueUnexpected name => "'--" ++ name ++ "' takes no value"
  | unknownProfile word => "invalid value for '--profile': " ++ Profile.unknownMessage word
  | profileNotText => "invalid UTF-8 in the value for '--profile'"
  | pathEmpty => "the path is empty"
  | secondPath written => "unexpected argument '" ++ written.shown ++ "'"

/-- The name of the command and its version. -/
def versionLine : String := "cs-structure 0.1.1\n"

def helpText : String :=
  "Describe the classes of a C# source file as JSON\n\n" ++
  "Usage: cs-structure [OPTIONS] [PATH]\n\n" ++
  "Arguments:\n" ++
  "  [PATH]  C# source file. Read from stdin when omitted\n\n" ++
  "Options:\n" ++
  "      --config <FILE>      TOML file with extractor settings\n" ++
  "      --profile <PROFILE>  Extraction profile: full or public-surface\n" ++
  "      --pretty             Pretty-print the JSON array\n" ++
  "  -v, --verbose            Log debug details to stderr\n" ++
  "  -h, --help               Print help\n" ++
  "  -V, --version            Print version\n"

def Halt.help : Halt := ⟨.help, helpText⟩

def Halt.version : Halt := ⟨.version, versionLine⟩

def Misuse.halt (m : Misuse) : Halt := ⟨.misuse, "error: " ++ m.message ++ "\n"⟩

/-- What an argument is when it is not the value of the option before it. -/
inductive Argument where
  /-- All further arguments are paths. -/
  | pathsFollow
  | path (path : SystemText)
  /-- Flags by their letters, with nothing for what is no letter. -/
  | letters (letters : List (Option Char))
  | flag (flag : Flag)
  /-- An option, perhaps with its value. -/
  | choice (choice : Choice) (value? : Option SystemText)
  | wrong (misuse : Misuse)
  deriving DecidableEq, Repr

/-- The byte that options and flags begin with. -/
def dash : UInt8 := 0x2D

/-- An argument that begins an option: a dash and something after it. -/
def beginsOption (written : SystemText) : Bool :=
  written.bytes.head? == some dash && written.bytes.length != 1

/-- The byte between the name of an option and its value. -/
def equalsSign : UInt8 := 0x3D

/-- The name in an option and the value behind its equals sign. -/
def splitValue (option : List UInt8) : SystemText × Option SystemText :=
  (⟨option.takeWhile (· != equalsSign)⟩,
    ((option.dropWhile (· != equalsSign)).tail?).map SystemText.mk)

namespace Argument

/-- The option or flag of this name, perhaps with a value. -/
def ofName (written name : SystemText) (value? : Option SystemText) : Argument :=
  match name.text?.bind Choice.ofName?, name.text?.bind Flag.ofName?, value? with
  | some found, _, value? => .choice found value?
  | none, some found, none => .flag found
  | none, some found, some _ => .wrong (.valueUnexpected found.name)
  | none, none, _ => .wrong (.unknownOption written)

/-- What an argument is, going by how it is written. -/
def ofWritten (written : SystemText) : Argument :=
  if written.bytes = [dash, dash] then .pathsFollow
  else if [dash, dash].isPrefixOf written.bytes then
    let (name, value?) := splitValue (written.bytes.drop 2)
    ofName written name value?
  else if beginsOption written then .letters (Text.Utf8.decode (written.bytes.drop 1))
  else .path written

end Argument

namespace Invocation

/-- No arguments at all. -/
def plain : Invocation := ⟨none, none, none, false, false⟩

/-- Takes a flag. -/
def withFlag (i : Invocation) : Flag → Except Halt Invocation
  | .pretty =>
    if i.pretty then .error (Misuse.repeated Flag.pretty.name).halt
    else .ok { i with pretty := true }
  | .verbose =>
    if i.verbose then .error (Misuse.repeated Flag.verbose.name).halt
    else .ok { i with verbose := true }
  | .help => .error .help
  | .version => .error .version

/-- Takes an option with its value. -/
def withValue (i : Invocation) (choice : Choice) (value : SystemText) : Except Halt Invocation :=
  match choice with
  | .config =>
    if i.config?.isSome then .error (Misuse.repeated Choice.config.name).halt
    else if value.bytes.isEmpty then .error (Misuse.valueMissing Choice.config.name).halt
    else .ok { i with config? := some value }
  | .profile =>
    if i.profile?.isSome then .error (Misuse.repeated Choice.profile.name).halt
    else match value.text? with
      | none => .error Misuse.profileNotText.halt
      | some word =>
        match Profile.ofWord? word with
        | none => .error (Misuse.unknownProfile word).halt
        | some profile => .ok { i with profile? := some profile }

/-- Takes a path. -/
def withPath (i : Invocation) (path : SystemText) : Except Halt Invocation :=
  if i.path?.isSome then .error (Misuse.secondPath path).halt
  else if path.bytes.isEmpty then .error Misuse.pathEmpty.halt
  else .ok { i with path? := some path }

/-- Takes the letters of an argument with a single dash. -/
def withLetters (i : Invocation) (written : SystemText) :
    List (Option Char) → Except Halt Invocation
  | [] => .ok i
  | letter? :: rest =>
    match letter?.bind Flag.ofLetter? with
    | none => .error (Misuse.unknownOption written).halt
    | some flag => (i.withFlag flag).bind fun i => i.withLetters written rest

/-- Takes arguments that are all paths. -/
def withPaths (i : Invocation) : List SystemText → Except Halt Invocation
  | [] => .ok i
  | path :: rest => (i.withPath path).bind fun i => i.withPaths rest

/-- Takes arguments one by one. -/
def withArguments (i : Invocation) : List SystemText → Except Halt Invocation
  | [] => .ok i
  | written :: rest =>
    match Argument.ofWritten written with
    | .pathsFollow => i.withPaths rest
    | .path path => (i.withPath path).bind fun i => i.withArguments rest
    | .letters letters => (i.withLetters written letters).bind fun i => i.withArguments rest
    | .flag flag => (i.withFlag flag).bind fun i => i.withArguments rest
    | .choice choice (some value) => (i.withValue choice value).bind fun i => i.withArguments rest
    | .choice choice none =>
      match rest with
      | [] => .error (Misuse.valueMissing choice.name).halt
      | value :: rest =>
        if beginsOption value then .error (Misuse.valueMissing choice.name).halt
        else (i.withValue choice value).bind fun i => i.withArguments rest
    | .wrong misuse => .error misuse.halt

/-- What a list of arguments asks for. -/
def ofArguments (arguments : List SystemText) : Except Halt Invocation :=
  plain.withArguments arguments

end Invocation

end ClassAtlas.Command
