import ClassAtlas.Types.CoreLibrary
import ClassAtlas.Symbols.Table

/-!
# Type references

What a piece of type syntax denotes. Types declared in the source are known by their place in the
symbol table; a name that denotes nothing known stays as it was written. Substitution replaces type
parameters by type arguments, all at once.
-/
namespace ClassAtlas

mutual
inductive TypeRef where
  | declared (id : TypeId) (args : List TypeRef)
  | core (type : CoreType) (args : List TypeRef)
  /-- A name that denotes nothing known. -/
  | external (name : String) (args : List TypeRef)
  | param (name : String)
  | nullable (inner : TypeRef)
  | array (element : TypeRef) (rank : Nat)
  | tuple (elements : List TupleElement)
  | pointer (target : TypeRef)
  | dynamic
  deriving Repr
structure TupleElement where
  name? : Option String
  type : TypeRef
  deriving Repr
end

namespace TypeRef

/-! ## Equality -/

mutual
/-- Two references are the same. -/
def same : TypeRef → TypeRef → Bool
  | .declared id args, .declared id' args' => id == id' && sameAll args args'
  | .core type args, .core type' args' => type == type' && sameAll args args'
  | .external name args, .external name' args' => name == name' && sameAll args args'
  | .param name, .param name' => name == name'
  | .nullable inner, .nullable inner' => same inner inner'
  | .array element rank, .array element' rank' => rank == rank' && same element element'
  | .tuple elements, .tuple elements' => sameElements elements elements'
  | .pointer target, .pointer target' => same target target'
  | .dynamic, .dynamic => true
  | _, _ => false
def sameAll : List TypeRef → List TypeRef → Bool
  | [], [] => true
  | t :: rest, t' :: rest' => same t t' && sameAll rest rest'
  | _, _ => false
def sameElement : TupleElement → TupleElement → Bool
  | ⟨name, type⟩, ⟨name', type'⟩ => name == name' && same type type'
def sameElements : List TupleElement → List TupleElement → Bool
  | [], [] => true
  | e :: rest, e' :: rest' => sameElement e e' && sameElements rest rest'
  | _, _ => false
end

mutual
theorem same_iff : (a b : TypeRef) → (same a b = true ↔ a = b)
  | .declared _ args, b => by cases b <;> simp [same, sameAll_iff args]
  | .core _ args, b => by cases b <;> simp [same, sameAll_iff args]
  | .external _ args, b => by cases b <;> simp [same, sameAll_iff args]
  | .param _, b => by cases b <;> simp [same]
  | .nullable inner, b => by cases b <;> simp [same, same_iff inner]
  | .array element _, b => by cases b <;> simp [same, same_iff element, and_comm]
  | .tuple elements, b => by cases b <;> simp [same, sameElements_iff elements]
  | .pointer target, b => by cases b <;> simp [same, same_iff target]
  | .dynamic, b => by cases b <;> simp [same]
theorem sameAll_iff : (a b : List TypeRef) → (sameAll a b = true ↔ a = b)
  | [], b => by cases b <;> simp [sameAll]
  | t :: rest, b => by cases b <;> simp [sameAll, same_iff t, sameAll_iff rest]
theorem sameElement_iff : (a b : TupleElement) → (sameElement a b = true ↔ a = b)
  | ⟨_, type⟩, b => by cases b; simp [sameElement, same_iff type]
theorem sameElements_iff : (a b : List TupleElement) → (sameElements a b = true ↔ a = b)
  | [], b => by cases b <;> simp [sameElements]
  | e :: rest, b => by cases b <;> simp [sameElements, sameElement_iff e, sameElements_iff rest]
end

instance : DecidableEq TypeRef := fun a b => decidable_of_iff _ (same_iff a b)

instance : DecidableEq TupleElement := fun a b => decidable_of_iff _ (sameElement_iff a b)

/-! ## Size -/

mutual
/-- The number of references in a reference, itself included. -/
def size : TypeRef → Nat
  | .declared _ args | .core _ args | .external _ args => sizeAll args + 1
  | .nullable inner => size inner + 1
  | .array element _ => size element + 1
  | .tuple elements => sizeElements elements + 1
  | .pointer target => size target + 1
  | .param _ | .dynamic => 1
def sizeAll : List TypeRef → Nat
  | [] => 0
  | t :: rest => size t + sizeAll rest
def sizeElement : TupleElement → Nat
  | ⟨_, type⟩ => size type
def sizeElements : List TupleElement → Nat
  | [] => 0
  | e :: rest => sizeElement e + sizeElements rest
end

theorem totalOf_size (types : List TypeRef) : totalOf size types = sizeAll types := by
  induction types with
  | nil => simp [sizeAll]
  | cons t rest ih => simp [sizeAll, ih]

theorem totalOf_size_elements (elements : List TupleElement) :
    totalOf (fun e => e.type.size) elements = sizeElements elements := by
  induction elements with
  | nil => simp [sizeElements]
  | cons e rest ih =>
    obtain ⟨name, type⟩ := e
    simp [sizeElements, sizeElement, ih]

/-! ## Parts -/

/-- A core type without type arguments. -/
def ofCore (type : CoreType) : TypeRef := .core type []

/-- The type behind a keyword. -/
def predefined? (keyword : String) : Option TypeRef := (CoreType.predefined? keyword).map ofCore

/-- An unknown name without type arguments. -/
def written (name : String) : TypeRef := .external name []

/-- The type arguments of a named type. -/
def typeArguments : TypeRef → List TypeRef
  | declared _ args | core _ args | external _ args => args
  | _ => []

/-- The reference is to the core type with this namespace and name. -/
def isCore (space name : String) : TypeRef → Bool
  | core type _ => type.space == space && type.name == name
  | _ => false

/-- A named type, as opposed to an array, a pointer or a type parameter. -/
def isNamed : TypeRef → Bool
  | declared .. | core .. | external .. | tuple _ => true
  | nullable inner => inner.isNamed
  | param _ | array .. | pointer _ | dynamic => false

/-! ## Substitution -/

mutual
/-- Replaces the type parameters for which `assign` has a type. -/
def replace (assign : String → Option TypeRef) : TypeRef → TypeRef
  | .declared id args => .declared id (replaceAll assign args)
  | .core type args => .core type (replaceAll assign args)
  | .external name args => .external name (replaceAll assign args)
  | .param name => (assign name).getD (.param name)
  | .nullable inner => .nullable (replace assign inner)
  | .array element rank => .array (replace assign element) rank
  | .tuple elements => .tuple (replaceElements assign elements)
  | .pointer target => .pointer (replace assign target)
  | .dynamic => .dynamic
def replaceAll (assign : String → Option TypeRef) : List TypeRef → List TypeRef
  | [] => []
  | t :: rest => replace assign t :: replaceAll assign rest
def replaceElement (assign : String → Option TypeRef) : TupleElement → TupleElement
  | ⟨name, type⟩ => ⟨name, replace assign type⟩
def replaceElements (assign : String → Option TypeRef) : List TupleElement → List TupleElement
  | [] => []
  | e :: rest => replaceElement assign e :: replaceElements assign rest
end

/-- Replaces type parameters by the type arguments in the same places. Lists of different lengths
belong to no type, and then nothing is replaced. -/
def substitute (t : TypeRef) (params : List String) (args : List TypeRef) : TypeRef :=
  if params.length = args.length then t.replace fun name => (params.zip args).lookup name else t

end TypeRef

end ClassAtlas
