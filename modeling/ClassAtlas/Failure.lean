import ClassAtlas.Settings
import ClassAtlas.Text.System

/-!
# Failures

Everything that can keep a file from being described, by its cause, and how it is reported. Failures
that the user can mend by other input are told apart from the rest.
-/
namespace ClassAtlas

/-- What is wrong with a configuration. -/
inductive ConfigFailure where
  | flaw (flaw : Settings.Flaw)
  | missing (path : SystemText)
  | unreadable (path : SystemText) (cause : String)
  /-- The text is no configuration in TOML. -/
  | malformed
  | other (reason : String)
  deriving DecidableEq, Repr

inductive Failure where
  | emptyPath
  | notFound (path : SystemText)
  | unreadable (path : SystemText) (cause : String)
  | config (failure : ConfigFailure)
  | io (cause : String)
  | noGrammar (cause : String)
  | noTree
  | malformedJson
  deriving DecidableEq, Repr

def Settings.Flaw.message : Settings.Flaw → String
  | indentNotBlank => "indent must contain only whitespace"
  | newlineNotBlank => "newline must be a non-empty whitespace sequence"
  | sentinelBlank => "namespace_sentinel must not be empty"

def ConfigFailure.message : ConfigFailure → String
  | flaw f => f.message
  | missing path => "config file not found: " ++ path.shown
  | unreadable path cause => "failed to read " ++ path.shown ++ ": " ++ cause
  | malformed => "TOML parse error"
  | other reason => reason

namespace Failure

/-- The report of a failure. -/
def message : Failure → String
  | emptyPath => "No input path given"
  | notFound path => "File not found: " ++ path.shown
  | unreadable path cause => "Failed to read " ++ path.shown ++ ": " ++ cause
  | config failure => "Invalid configuration: " ++ failure.message
  | io cause => "IO error: " ++ cause
  | noGrammar cause => "Failed to load C# grammar: " ++ cause
  | noTree => "Parser produced no syntax tree"
  | malformedJson => "JSON error"

/-- The failure stems from the user's input rather than from processing it. -/
def isInputFailure : Failure → Bool
  | emptyPath | notFound _ | unreadable _ _ | config _ => true
  | io _ | noGrammar _ | noTree | malformedJson => false

/-- Text that is not UTF-8 where UTF-8 is required. -/
def invalidUtf8 : String := "stream did not contain valid UTF-8"

end Failure

/-- Accepts settings that can be used. -/
def Settings.validate (s : Settings) : Except Failure Unit :=
  match s.flaw? with
  | none => .ok ()
  | some flaw => .error (.config (.flaw flaw))

end ClassAtlas
