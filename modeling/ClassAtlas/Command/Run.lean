import ClassAtlas.Command.Invocation
import ClassAtlas.Extraction.Document
import ClassAtlas.Extraction.File

/-!
# Running the command

One run of the command as a function of what it can see and of the libraries that it is built with.
The arguments come first, then the configuration file, the path of the source and its file; only
then is anything described. The first step that fails ends the run, and then nothing is written to
the standard output.
-/
namespace ClassAtlas.Command

/-- How a run ended. -/
inductive Status where
  | success
  /-- The user's input is at fault. -/
  | inputFailure
  | processingFailure
  deriving DecidableEq, Repr

/-- The exit code. -/
def Status.code : Status → Nat
  | success => 0
  | inputFailure => 1
  | processingFailure => 2

/-- What a run can see: files by their paths, and the standard input. -/
structure Surroundings where
  read : SystemText → Reading
  standardInput : List UInt8

/-- The libraries that the command is built with: they read arguments, configurations and C#. -/
structure Libraries where
  arguments : List SystemText → Except Halt Invocation
  configuration : ConfigurationReader
  parse : Parser

/-- What a run leaves behind; the log is kept apart from the reports on the standard error. -/
structure Outcome where
  status : Status
  standardOutput : String
  standardError : String
  log : List Event
  deriving Repr

/-- The outcome of arguments that ask for no description. -/
def Halt.outcome (h : Halt) : Outcome :=
  if h.isError then ⟨.inputFailure, "", h.text, []⟩ else ⟨.success, h.text, "", []⟩

/-- Everything that can fail before a source is parsed: the settings and the source. -/
def Invocation.prepare (i : Invocation) (l : Libraries) (s : Surroundings) :
    Except Failure (Settings × SourceFile) := do
  let configured ← match i.config? with
    | none => .ok Settings.standard
    | some path => Settings.load l.configuration s.read path
  let settings := i.override configured
  let path ← inputPath i.path? s.standardInput
  let source ← SourceFile.load s.read path
  settings.validate
  return (settings, source)

/-- The outcome of a failure before the source is parsed. -/
def failed (failure : Failure) : Outcome :=
  ⟨if failure.isInputFailure then .inputFailure else .processingFailure, "",
    "Error: " ++ failure.message ++ "\n", []⟩

/-- The outcome of a failure to describe a source. -/
def failedOn (source : SourceFile) (failure : Failure) : Outcome :=
  ⟨.processingFailure, "",
    "Error processing " ++ source.path.shown ++ ": failed to extract class descriptors: " ++
      failure.message ++ "\n", []⟩

/-- The events that a run reports: warnings, or with more words everything but the finest ones. -/
def Invocation.reports (i : Invocation) (event : Event) : Bool :=
  match event.level with
  | .warn => true
  | .info | .debug => i.verbose
  | .trace => false

/-- Describes a source. -/
def Invocation.describe (i : Invocation) (l : Libraries) (settings : Settings)
    (source : SourceFile) : Outcome :=
  match source.describe l.parse settings with
  | .error failure => failedOn source failure
  | .ok extraction =>
    ⟨.success, ClassDescriptor.output extraction.classes settings.pretty, "",
      extraction.events.filter i.reports⟩

/-- Runs the command. -/
def run (l : Libraries) (arguments : List SystemText) (s : Surroundings) : Outcome :=
  match l.arguments arguments with
  | .error halt => halt.outcome
  | .ok i =>
    match i.prepare l s with
    | .error failure => failed failure
    | .ok (settings, source) => i.describe l settings source

end ClassAtlas.Command
