import ClassAtlas.Guard
import ClassAtlas.Model.References

/-!
# Descriptors

What is reported about a class: where it is declared, its constructors, methods and properties, and
the declarations of the types it refers to.
-/
namespace ClassAtlas

structure ConstructorDescriptor where
  signature : String
  parameters : List String
  exceptionConditions : List ExceptionCondition
  deriving DecidableEq, Repr

structure MethodDescriptor where
  name : String
  signature : String
  returnType : String
  isStatic : Bool
  isAbstract : Bool
  isAsync : Bool
  parameters : List String
  exceptionConditions : List ExceptionCondition
  dependencyTypes : List String
  sourceCode : String
  deriving DecidableEq, Repr

structure PropertyDescriptor where
  name : String
  typeName : String
  deriving DecidableEq, Repr

/-- One declaration of a class, struct or record. -/
structure ClassDescriptor where
  filePath : String
  namespaceName : String
  className : String
  isStatic : Bool
  isAbstract : Bool
  constructors : List ConstructorDescriptor
  methods : List MethodDescriptor
  properties : List PropertyDescriptor
  usingDirectives : List String
  /-- The source types that can be reached from the class. -/
  referencedTypes : Definitions
  deriving DecidableEq, Repr

end ClassAtlas
