import ClassAtlas.Extraction.Descriptor
import ClassAtlas.Failure
import ClassAtlas.Json.Read
import ClassAtlas.Json.Write

/-!
# Documents

Descriptors as a JSON document, and read back from one. A record is an object with its keys in a
fixed order; reading accepts them in any order, ignores other keys, refuses a key that occurs twice,
and also takes the bare list of values. The definitions of referenced types are an object with their
full names as keys; of two members with one key the place of the first and the value of the last
count.
-/
namespace ClassAtlas

namespace JsonValue

/-- The text of a string value. -/
def text? : JsonValue → Option String
  | string text => some text
  | _ => none

/-- The truth value of a Boolean value. -/
def flag? : JsonValue → Option Bool
  | bool value => some value
  | _ => none

/-- The items of an array, each read by `read`. -/
def list? {α : Type} (read : JsonValue → Option α) : JsonValue → Option (List α)
  | array items => items.mapM read
  | _ => none

/-- The value of a key that occurs exactly once. -/
def only? (members : List (String × JsonValue)) (key : String) : Option JsonValue :=
  match members.filter fun member => member.1 == key with
  | [member] => some member.2
  | _ => none

/-- The values of a record with the given keys, in their order. -/
def record? (keys : List String) : JsonValue → Option (List JsonValue)
  | object members => keys.mapM (only? members)
  | array items => if items.length = keys.length then some items else none
  | _ => none

/-- An array of strings. -/
def strings (texts : List String) : JsonValue := array (texts.map string)

end JsonValue

open JsonValue

namespace ExceptionCondition

def keys : List String := ["ConditionExpression", "ExceptionType"]

def toJson (c : ExceptionCondition) : JsonValue :=
  object (keys.zip [string c.condition, string c.exceptionType])

def ofJson? (value : JsonValue) : Option ExceptionCondition := do
  match ← record? keys value with
  | [condition, exceptionType] => return ⟨← text? condition, ← text? exceptionType⟩
  | _ => none

end ExceptionCondition

namespace ConstructorDescriptor

def keys : List String := ["Signature", "Parameters", "ExceptionConditions"]

def toJson (c : ConstructorDescriptor) : JsonValue :=
  object (keys.zip [string c.signature, strings c.parameters,
    array (c.exceptionConditions.map ExceptionCondition.toJson)])

def ofJson? (value : JsonValue) : Option ConstructorDescriptor := do
  match ← record? keys value with
  | [signature, parameters, conditions] =>
    return ⟨← text? signature, ← list? text? parameters,
      ← list? ExceptionCondition.ofJson? conditions⟩
  | _ => none

end ConstructorDescriptor

namespace MethodDescriptor

def keys : List String :=
  ["Name", "Signature", "ReturnType", "IsStatic", "IsAbstract", "IsAsync", "Parameters",
    "ExceptionConditions", "DependencyTypes", "SourceCode"]

def toJson (m : MethodDescriptor) : JsonValue :=
  object (keys.zip [string m.name, string m.signature, string m.returnType, bool m.isStatic,
    bool m.isAbstract, bool m.isAsync, strings m.parameters,
    array (m.exceptionConditions.map ExceptionCondition.toJson), strings m.dependencyTypes,
    string m.sourceCode])

def ofJson? (value : JsonValue) : Option MethodDescriptor := do
  match ← record? keys value with
  | [name, signature, returnType, isStatic, isAbstract, isAsync, parameters, conditions,
      dependencies, source] =>
    return ⟨← text? name, ← text? signature, ← text? returnType, ← flag? isStatic,
      ← flag? isAbstract, ← flag? isAsync, ← list? text? parameters,
      ← list? ExceptionCondition.ofJson? conditions, ← list? text? dependencies, ← text? source⟩
  | _ => none

end MethodDescriptor

namespace PropertyDescriptor

def keys : List String := ["Name", "Type"]

def toJson (p : PropertyDescriptor) : JsonValue :=
  object (keys.zip [string p.name, string p.typeName])

def ofJson? (value : JsonValue) : Option PropertyDescriptor := do
  match ← record? keys value with
  | [name, typeName] => return ⟨← text? name, ← text? typeName⟩
  | _ => none

end PropertyDescriptor

namespace Definitions

/-- Sets the text of a name: in its place if it is recorded, otherwise at the end. -/
def put (definitions : Definitions) (name text : String) : Definitions :=
  match definitions with
  | [] => [(name, text)]
  | (first, old) :: rest =>
    if first = name then (name, text) :: rest else (first, old) :: put rest name text

def toJson (definitions : Definitions) : JsonValue :=
  object (definitions.map fun definition => (definition.1, string definition.2))

def ofJson? : JsonValue → Option Definitions
  | object members => do
    let definitions ← members.mapM fun member => (text? member.2).map fun text => (member.1, text)
    return definitions.foldl (fun done definition => put done definition.1 definition.2) []
  | _ => none

end Definitions

namespace ClassDescriptor

def keys : List String :=
  ["FilePath", "NamespaceName", "ClassName", "IsStatic", "IsAbstract", "Constructors", "Methods",
    "Properties", "UsingDirectives", "ReferencedTypeDefinitions"]

def toJson (c : ClassDescriptor) : JsonValue :=
  object (keys.zip [string c.filePath, string c.namespaceName, string c.className,
    bool c.isStatic, bool c.isAbstract, array (c.constructors.map ConstructorDescriptor.toJson),
    array (c.methods.map MethodDescriptor.toJson),
    array (c.properties.map PropertyDescriptor.toJson), strings c.usingDirectives,
    Definitions.toJson c.referencedTypes])

def ofJson? (value : JsonValue) : Option ClassDescriptor := do
  match ← record? keys value with
  | [path, space, name, isStatic, isAbstract, constructors, methods, properties, usings,
      references] =>
    return ⟨← text? path, ← text? space, ← text? name, ← flag? isStatic, ← flag? isAbstract,
      ← list? ConstructorDescriptor.ofJson? constructors, ← list? MethodDescriptor.ofJson? methods,
      ← list? PropertyDescriptor.ofJson? properties, ← list? text? usings,
      ← Definitions.ofJson? references⟩
  | _ => none

/-- Descriptors as the text of a JSON document. -/
def document (classes : List ClassDescriptor) (pretty : Bool) : String :=
  (array (classes.map toJson)).toText (if pretty then .pretty else .compact)

/-- A document as it is written out, with a line feed at its end. -/
def output (classes : List ClassDescriptor) (pretty : Bool) : String :=
  document classes pretty ++ "\n"

/-- Reads descriptors back from a document. -/
def ofDocument (text : String) : Except Failure (List ClassDescriptor) :=
  match (JsonValue.ofText text).bind (list? ofJson?) with
  | some classes => .ok classes
  | none => .error .malformedJson

end ClassDescriptor

end ClassAtlas
