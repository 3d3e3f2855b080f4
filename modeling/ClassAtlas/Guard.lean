import ClassAtlas.Syntax.Declaration
import ClassAtlas.Syntax.Preorder

/-!
# Guards

The conditions under which a member throws: every `throw` statement in the consequence of an `if`
statement is reported with the condition of that `if`. The alternative after `else` is no part of
the consequence, because the condition is false there.
-/
namespace ClassAtlas

/-- A condition and the exception that is thrown when it holds. -/
structure ExceptionCondition where
  condition : String
  exceptionType : String
  deriving DecidableEq, Repr

namespace Node

/-- The written type of the exception in `throw new T(...)`. -/
def thrownType? (throwing : Node) : Option String :=
  (throwing.namedChildren.find? fun c => !c.isComment).bind fun thrown =>
    if thrown.kind == "object_creation_expression" then thrown.writtenType?.map trimmedText
    else none

/-- The guards of one `if` statement. -/
def guardsOfIf (fallback : String) (n : Node) : List ExceptionCondition :=
  match n.child? "condition", n.child? "consequence" with
  | some condition, some consequence =>
    (consequence.subtree.filter fun d => d.kind == "throw_statement").map fun throwing =>
      ⟨condition.trimmedText, throwing.thrownType?.getD fallback⟩
  | _, _ => []

/-- The guards anywhere inside a member in document order; `fallback` stands for exceptions that are
not created where they are thrown. -/
def exceptionConditions (member : Node) (fallback : String) : List ExceptionCondition :=
  (member.descendants.filter fun n => n.kind == "if_statement").flatMap (guardsOfIf fallback)

end Node

end ClassAtlas
