import ClassAtlas.Text.Utf8

/-!
# Text of the system

Arguments and paths come from the operating system as bytes, which need not be UTF-8. They are told
apart by their bytes; to be read as text, each fault in them is replaced.
-/
namespace ClassAtlas

/-- An argument or a path as the operating system has it. -/
structure SystemText where
  bytes : List UInt8
  deriving DecidableEq, Repr

namespace SystemText

/-- A text as the operating system has it. -/
def ofText (text : String) : SystemText := ⟨Text.Utf8.encode text⟩

/-- The text, when the bytes are UTF-8. -/
def text? (t : SystemText) : Option String := Text.Utf8.text? t.bytes

/-- A text for any bytes; it is what is shown of a path. -/
def shown (t : SystemText) : String := Text.Utf8.lossyText t.bytes

@[simp] theorem text?_ofText (text : String) : (ofText text).text? = some text :=
  Text.Utf8.text?_encode text

@[simp] theorem shown_ofText (text : String) : (ofText text).shown = text :=
  Text.Utf8.lossyText_encode text

end SystemText

end ClassAtlas
