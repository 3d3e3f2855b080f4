import ClassAtlas.Types.TypeRef

/-!
# Display of types

Types as they are reported: source types fully qualified, core types by keyword or full name,
unknown names as written. Here is also which type of the source a reference stands for.
-/
namespace ClassAtlas

/-- The name of a source type before its type arguments. -/
def SymbolTable.displayHead (table : SymbolTable) (id : TypeId) : String :=
  table.displayPrefix id ++ ((table.get? id).map TypeSymbol.name).getD ""

namespace TypeRef

/-- A name followed by its type arguments. -/
def withArguments (name : String) (args : List String) : String :=
  name ++ "<" ++ String.intercalate ", " args ++ ">"

/-- A type and the name of the tuple element it has. -/
def namedElement (type : String) : Option String → String
  | none => type
  | some name => type ++ " " ++ name

mutual
/-- The reported form of a type. -/
def display (table : SymbolTable) : TypeRef → String
  | .declared id args =>
    if args.isEmpty then table.displayName id
    else withArguments (table.displayHead id) (displayAll table args)
  | .core type args =>
    match displayAll table args with
    | [] => type.keyword?.getD type.fullName
    | [inner] =>
      if type.space == "System" && type.name == "Nullable" then inner ++ "?"
      else withArguments type.fullName [inner]
    | args => withArguments type.fullName args
  | .external name args => if args.isEmpty then name else withArguments name (displayAll table args)
  | .param name => name
  | .nullable inner => display table inner ++ "?"
  | .array element rank =>
    display table element ++ "[" ++ String.ofList (List.replicate (rank - 1) ',') ++ "]"
  | .tuple elements => "(" ++ String.intercalate ", " (displayElements table elements) ++ ")"
  | .pointer target => display table target ++ "*"
  | .dynamic => "dynamic"
def displayAll (table : SymbolTable) : List TypeRef → List String
  | [] => []
  | t :: rest => display table t :: displayAll table rest
def displayElement (table : SymbolTable) : TupleElement → String
  | ⟨name?, type⟩ => namedElement (display table type) name?
def displayElements (table : SymbolTable) : List TupleElement → List String
  | [] => []
  | e :: rest => displayElement table e :: displayElements table rest
end

/-- The source type that a reference stands for. A nullable reference type stands for the type it
annotates. -/
def inSource? (table : SymbolTable) : TypeRef → Option TypeId
  | .declared id _ => some id
  | .nullable (.declared id _) =>
    if (table.get? id).any fun s => s.kind.isReference then some id else none
  | _ => none

end TypeRef

end ClassAtlas
