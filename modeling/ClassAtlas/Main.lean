import ClassAtlas.Command.Arguments
import ClassAtlas.Command.Run
import ClassAtlas.Syntax.Document
import ClassAtlas.Toml.Settings

/-!
# The command

Gathers what a run can see and carries out what it leaves behind. Parsing C# is the work of another
program: the tree of `Order.cs` is read from the document `Order.cs.tree.json` beside it.
-/
namespace ClassAtlas.Command

/-- Reads a file; only paths that are text can be opened. -/
def readFile (path : SystemText) : IO Reading := do
  let some path := path.text? | return .absent
  if path.isEmpty || path.endsWith "/" then return .absent
  try
    return .content (← IO.FS.readBinFile path).toList
  catch failure =>
    match failure with
    | .noFileOrDirectory .. | .inappropriateType .. | .noSuchThing .. => return .absent
    | failure => return .unreadable (toString failure)

/-- The path of the document with the tree of a source. -/
def treePath (path : SystemText) : SystemText :=
  ⟨path.bytes ++ (SystemText.ofText ".tree.json").bytes⟩

/-- Reads each of the files once. -/
def readFiles (paths : List SystemText) : IO (List (SystemText × Reading)) :=
  paths.mapM fun path => return (path, ← readFile path)

/-- What was read from a file. -/
def lookup (files : List (SystemText × Reading)) (path : SystemText) : Reading :=
  (files.lookup path).getD .absent

/-- A parser that takes the trees of sources from their documents. -/
def parserOf (files : List (SystemText × Reading)) : Parser := fun source =>
  match lookup files (treePath source.path) with
  | .content bytes =>
    (Tree.ofDocument? source.text (Text.Utf8.lossyText bytes)).map fun (tree, hasError) =>
      ⟨tree, hasError⟩
  | _ => none

/-- Reads a stream to its end. -/
partial def readAll (stream : IO.FS.Stream) (done : ByteArray) : IO ByteArray := do
  let chunk ← stream.read 65536
  if chunk.isEmpty then return done
  readAll stream (done ++ chunk)

/-- Reads what a run can need: the configuration, the standard input when it has to name the source,
the source, and its tree. -/
def gather (arguments : List SystemText) : IO (List (SystemText × Reading) × List UInt8) := do
  match Invocation.ofArguments arguments with
  | .error _ => return ([], [])
  | .ok i =>
    let standardInput ← if i.path?.isSome then pure []
      else (·.toList) <$> readAll (← IO.getStdin) ByteArray.empty
    let sources := match inputPath i.path? standardInput with
      | .ok path => [path, treePath path]
      | .error _ => []
    return (← readFiles (i.config?.toList ++ sources), standardInput)

/-- The libraries of the command, with the trees from the given files. -/
def libraries (files : List (SystemText × Reading)) : Libraries :=
  ⟨Invocation.ofArguments, .toml, parserOf files⟩

end ClassAtlas.Command

/-- Runs the command on its arguments. -/
def main (arguments : List String) : IO UInt32 := do
  let arguments := arguments.map ClassAtlas.SystemText.ofText
  let (files, standardInput) ← ClassAtlas.Command.gather arguments
  let outcome := ClassAtlas.Command.run (ClassAtlas.Command.libraries files) arguments
    ⟨ClassAtlas.Command.lookup files, standardInput⟩
  for event in outcome.log do
    IO.eprintln (event.level.name ++ " " ++ event.message)
  IO.eprint outcome.standardError
  IO.print outcome.standardOutput
  return outcome.status.code.toUInt32
