import ClassAtlas.Layout.Render

/-!
# Settings

What a user may choose: the profile, which selects the types and methods to describe, the layout of
normalized source, the form of the output, and two words that stand in for missing information.
-/
namespace ClassAtlas

/-- Which types and methods are described. -/
inductive Profile where
  /-- Every class-like type and every method. -/
  | full
  /-- No abstract types except static ones, and only public methods. -/
  | publicSurface
  deriving DecidableEq, Repr

namespace Profile

/-- The name of a profile. -/
def name : Profile → String
  | full => "full"
  | publicSurface => "public-surface"

/-- The profile with exactly this name. -/
def ofName? (name : String) : Option Profile :=
  if name == "full" then some full
  else if name == "public-surface" then some publicSurface
  else none

/-- A word as profiles are looked up by it: without surrounding blanks, ASCII letters in lower
case. -/
def normalizedWord (word : String) : String :=
  String.ofList ((Text.trim word).toList.map Char.toLower)

/-- The profile that a word from the command line asks for. -/
def ofWord? (word : String) : Option Profile :=
  let word := normalizedWord word
  if word == "full" then some full
  else if ["public-surface", "public_surface", "public"].contains word then some publicSurface
  else none

/-- What is said about a word that names no profile. -/
def unknownMessage (word : String) : String :=
  "unknown profile '" ++ normalizedWord word ++ "' (expected 'full' or 'public-surface')"

/-- A type with these modifiers is described. -/
def includesType (p : Profile) (isAbstract isStatic : Bool) : Bool :=
  match p with
  | full => true
  | publicSurface => !isAbstract || isStatic

/-- A method of this visibility is described. -/
def includesMethod (p : Profile) (isPublic : Bool) : Bool :=
  match p with
  | full => true
  | publicSurface => isPublic

end Profile

structure Settings where
  profile : Profile
  /-- One unit of indentation of normalized source. -/
  indent : String
  /-- The line terminator of normalized source. -/
  newline : String
  /-- Lay the JSON output out on many lines. -/
  pretty : Bool
  /-- Follow type arguments, array elements and the like when collecting referenced types. -/
  followTypeArguments : Bool
  /-- The namespace reported for types outside any namespace. -/
  namespaceSentinel : String
  /-- The exception type reported when a guard throws something it has not created. -/
  fallbackExceptionType : String
  deriving DecidableEq, Repr

namespace Settings

/-- What holds where nothing is chosen. -/
def standard : Settings :=
  { profile := .full
    indent := LayoutOptions.standard.indent
    newline := LayoutOptions.standard.newline
    pretty := false
    followTypeArguments := true
    namespaceSentinel := "Global"
    fallbackExceptionType := "Exception" }

/-- The layout of normalized source. -/
def layout (s : Settings) : LayoutOptions := ⟨s.indent, s.newline⟩

/-- Why settings cannot be used. -/
inductive Flaw where
  | indentNotBlank
  | newlineNotBlank
  | sentinelBlank
  deriving DecidableEq, Repr

/-- The first reason why the settings cannot be used. -/
def flaw? (s : Settings) : Option Flaw :=
  if !Text.allBlank s.indent then some .indentNotBlank
  else if s.newline.isEmpty || !Text.allBlank s.newline then some .newlineNotBlank
  else if Text.allBlank s.namespaceSentinel then some .sentinelBlank
  else none

end Settings

end ClassAtlas
