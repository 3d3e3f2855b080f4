import ClassAtlas.Configuration
import ClassAtlas.Input.Directory

/-!
# Sources

Where the text to be described comes from: which path is meant, and what its file holds. A source is
decoded whatever its bytes are, because a description of most of a file is worth more than none, and
so is a path that is an argument. A path on the standard input and a configuration have to be proper
text.
-/
namespace ClassAtlas

/-- A file of C# source; the path is kept as it was given. -/
structure SourceFile where
  path : SystemText
  text : String
  deriving DecidableEq, Repr

/-- The text without one byte order mark at its start. -/
def withoutByteOrderMark (text : String) : String := Text.dropHead "\uFEFF" text

/-- A path without surrounding blanks, unless nothing is left. -/
def trimmedPath (written : String) : Except Failure SystemText :=
  let path := Text.trim written
  if path.isEmpty then .error .emptyPath else .ok (.ofText path)

/-- The path of the source: the argument, or without one all of the standard input. -/
def inputPath (argument? : Option SystemText) (standardInput : List UInt8) :
    Except Failure SystemText :=
  match argument? with
  | some argument => trimmedPath argument.shown
  | none =>
    match Text.Utf8.text? standardInput with
    | none => .error (.io Failure.invalidUtf8)
    | some written => trimmedPath written

/-- Loads a source. -/
def SourceFile.load (read : SystemText → Reading) (path : SystemText) :
    Except Failure SourceFile :=
  match read path with
  | .absent => .error (.notFound path)
  | .unreadable cause => .error (.unreadable path cause)
  | .content bytes => .ok ⟨path, withoutByteOrderMark (Text.Utf8.lossyText bytes)⟩

/-- Loads the settings of a configuration file. -/
def Settings.load (reader : ConfigurationReader) (read : SystemText → Reading)
    (path : SystemText) : Except Failure Settings :=
  match read path with
  | .absent => .error (.config (.missing path))
  | .unreadable cause => .error (.config (.unreadable path cause))
  | .content bytes =>
    match Text.Utf8.text? bytes with
    | none => .error (.config (.unreadable path Failure.invalidUtf8))
    | some text => Settings.ofText reader text

end ClassAtlas
