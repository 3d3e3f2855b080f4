/-!
# JSON values

A JSON document as a tree. Numbers keep their written form. Members of objects keep their order, and
a key may occur twice: what that means is for the reader of the object to say.
-/
namespace ClassAtlas

inductive JsonValue where
  | null
  | bool (value : Bool)
  | number (literal : String)
  | string (text : String)
  | array (items : List JsonValue)
  | object (members : List (String × JsonValue))
  /-- A string with half a surrogate pair, or an object with such a key. It is well-formed JSON but
  stands for no text. -/
  | unpaired
  deriving Repr

end ClassAtlas
