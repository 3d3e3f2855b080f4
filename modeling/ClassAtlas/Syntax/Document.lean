import ClassAtlas.Json.Read
import ClassAtlas.Syntax.Listing

/-!
# Trees as documents

A listed tree as a JSON document: an object with the listing under the key `tree`, four items a
node, and under `has_error` whether the parser has found errors.
-/
namespace ClassAtlas

/-- The number of a literal with digits only. -/
def JsonValue.nat? : JsonValue → Option Nat
  | .number literal => literal.toNat?
  | _ => none

/-- The lines of a listing, four items each. -/
def Listed.ofItems? : List JsonValue → Option (List Listed)
  | [] => some []
  | .string label :: start :: stop :: childCount :: rest => do
    let line : Listed := ⟨label, ← start.nat?, ← stop.nat?, ← childCount.nat?⟩
    return line :: (← Listed.ofItems? rest)
  | _ => none

/-- The tree of a source from its document, and whether the parser has found errors. -/
def Tree.ofDocument? (source document : String) : Option (Tree × Bool) := do
  let .object members ← JsonValue.ofText document | none
  let .array items ← members.lookup "tree" | none
  let tree ← Tree.ofListing? source (← Listed.ofItems? items)
  return (tree, members.lookup "has_error" matches some (.bool true))

end ClassAtlas
