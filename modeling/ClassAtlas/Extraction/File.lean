import ClassAtlas.Extraction.Describe
import ClassAtlas.Input.Source

/-!
# Describing sources

From a source to the descriptors of its classes. How C# is parsed is left open: a parser is any
function from sources to trees, and it may fail to give one.
-/
namespace ClassAtlas

/-- What a parser of C# makes of a source, if anything. -/
abbrev Parser := SourceFile → Option ParsedFile

/-- Describes the classes of a source, by settings that can be used. -/
def SourceFile.describe (source : SourceFile) (parse : Parser) (settings : Settings) :
    Except Failure Extraction :=
  match parse source with
  | none => .error .noTree
  | some file => .ok (file.describe settings source.path.shown)

/-- Describes the classes of the file at a path. -/
def describeFile (read : SystemText → Reading) (parse : Parser) (settings : Settings)
    (path : SystemText) : Except Failure Extraction := do
  settings.validate
  let source ← SourceFile.load read path
  source.describe parse settings

end ClassAtlas
