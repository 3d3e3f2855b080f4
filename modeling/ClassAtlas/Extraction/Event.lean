import ClassAtlas.Settings

/-!
# Events

What is logged while a file is described.
-/
namespace ClassAtlas

inductive Level where
  | warn
  | info
  | debug
  | trace
  deriving DecidableEq, Repr

inductive Event where
  | syntaxErrors (count : Nat)
  | declared (types scopes : Nat)
  /-- A class-like node of this kind is no declaration of a type. -/
  | undeclared (kind : String) (line : Nat)
  | skipped (profile : Profile) (name : String)
  | unnamedMethod (line : Nat)
  | collected (name : String)
  | described (name : String) (methods references : Nat)
  | extracted (count : Nat) (path : String)
  deriving DecidableEq, Repr

namespace Event

def level : Event → Level
  | syntaxErrors _ => .warn
  | extracted _ _ => .info
  | collected _ => .trace
  | declared .. | undeclared .. | skipped .. | unnamedMethod _ | described .. => .debug

def message : Event → String
  | syntaxErrors count =>
    "Source contains syntax errors; extraction continues on the recovered tree (" ++
      toString count ++ " error nodes)"
  | declared types scopes =>
    "Declared " ++ toString types ++ " types in " ++ toString scopes ++ " namespace scopes"
  | undeclared kind line => "Skipping unresolved " ++ kind ++ " at line " ++ toString line
  | skipped profile name => "Profile " ++ profile.name ++ " skips " ++ name
  | unnamedMethod line => "Skipping unnamed method at line " ++ toString line
  | collected name => "Collected " ++ name
  | described name methods references =>
    name ++ ": " ++ toString methods ++ " methods, " ++ toString references ++ " referenced types"
  | extracted count path =>
    "Extracted " ++ toString count ++ " class descriptors from " ++ path

end Event

def Level.name : Level → String
  | warn => "WARN"
  | info => "INFO"
  | debug => "DEBUG"
  | trace => "TRACE"

end ClassAtlas
