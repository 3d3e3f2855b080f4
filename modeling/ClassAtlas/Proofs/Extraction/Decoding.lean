import ClassAtlas.Extraction.Document
import ClassAtlas.Proofs.Json.RoundTrip

/-!
# Documents read back

Descriptors are read back from their document as they were, in either style: a record has each of
its keys once, and the definitions of referenced types keep their order as long as no name occurs
twice among them. The two texts stand for one value, and the compact one has a single line.
-/
namespace ClassAtlas

open JsonValue

namespace JsonValue

/-! ### Arrays and records -/

theorem list?_array {α : Type} {write : α → JsonValue} {read : JsonValue → Option α}
    (each : ∀ x, read (write x) = some x) (xs : List α) :
    list? read (array (xs.map write)) = some xs := by
  have all := mapM_map_eq_some write read id fun x (_ : x ∈ xs) => each x
  rwa [List.map_id] at all

@[simp] theorem list?_strings (texts : List String) :
    list? text? (strings texts) = some texts := by
  have each : ∀ text, text? (string text) = some text := fun _ => rfl
  exact list?_array each texts

theorem only?_eq_some {members : List (String × JsonValue)}
    (distinct : (members.map Prod.fst).Nodup) {member : String × JsonValue}
    (inside : member ∈ members) : only? members member.1 = some member.2 := by
  have single : members.filter (fun other => other.1 == member.1) = [member] := by
    induction members with
    | nil => exact absurd inside List.not_mem_nil
    | cons first rest ih =>
      rw [List.map_cons, List.nodup_cons] at distinct
      obtain ⟨other, distinct⟩ := distinct
      rcases List.mem_cons.mp inside with rfl | later
      · have none_left : rest.filter (fun other => other.1 == member.1) = [] := by
          rw [List.filter_eq_nil_iff]
          intro x found same
          exact other (beq_iff_eq.mp same ▸ List.mem_map_of_mem found)
        simp [none_left]
      · have differs : first.1 ≠ member.1 := by
          intro same
          exact other (same ▸ List.mem_map_of_mem later)
        simp [differs, ih distinct later]
  simp [only?, single]

/-- The values of a record come back if each key occurs once and has a value. -/
theorem record?_zip {keys : List String} {values : List JsonValue} (distinct : keys.Nodup)
    (complete : keys.length = values.length) :
    record? keys (object (keys.zip values)) = some values := by
  have names : (keys.zip values).map Prod.fst = keys := List.map_fst_zip (by omega)
  have contents : (keys.zip values).map Prod.snd = values := List.map_snd_zip (by omega)
  have each : ∀ member ∈ keys.zip values,
      only? (keys.zip values) member.1 = some member.2 :=
    fun member inside => only?_eq_some (by rwa [names]) inside
  have all := mapM_map_eq_some Prod.fst (only? (keys.zip values)) Prod.snd each
  rwa [names, contents] at all

theorem textual_array {α : Type} {write : α → JsonValue} (textual : ∀ x, Textual (write x))
    (xs : List α) : Textual (array (xs.map write)) := by
  refine .array fun item member => ?_
  obtain ⟨x, -, rfl⟩ := List.mem_map.mp member
  exact textual x

theorem textual_strings (texts : List String) : Textual (strings texts) :=
  textual_array .string texts

theorem textual_record {keys : List String} {values : List JsonValue}
    (each : ∀ value ∈ values, Textual value) : Textual (object (keys.zip values)) :=
  .object fun _ inside => each _ (List.of_mem_zip inside).2

end JsonValue

/-! ### Records -/

namespace ExceptionCondition

theorem ofJson?_toJson (c : ExceptionCondition) : ofJson? c.toJson = some c := by
  have read : record? keys c.toJson = _ := record?_zip (by decide) rfl
  simp [ofJson?, read, text?]

theorem textual_toJson (c : ExceptionCondition) : Textual c.toJson :=
  textual_record (by simp [Textual.string])

end ExceptionCondition

namespace ConstructorDescriptor

theorem ofJson?_toJson (c : ConstructorDescriptor) : ofJson? c.toJson = some c := by
  have read : record? keys c.toJson = _ := record?_zip (by decide) rfl
  simp [ofJson?, read, text?, list?_array ExceptionCondition.ofJson?_toJson]

theorem textual_toJson (c : ConstructorDescriptor) : Textual c.toJson :=
  textual_record (by
    simp [Textual.string, textual_strings, textual_array ExceptionCondition.textual_toJson])

end ConstructorDescriptor

namespace MethodDescriptor

theorem ofJson?_toJson (m : MethodDescriptor) : ofJson? m.toJson = some m := by
  have read : record? keys m.toJson = _ := record?_zip (by decide) rfl
  simp [ofJson?, read, text?, flag?, list?_array ExceptionCondition.ofJson?_toJson]

theorem textual_toJson (m : MethodDescriptor) : Textual m.toJson :=
  textual_record (by
    simp [Textual.string, Textual.bool, textual_strings,
      textual_array ExceptionCondition.textual_toJson])

end MethodDescriptor

namespace PropertyDescriptor

theorem ofJson?_toJson (p : PropertyDescriptor) : ofJson? p.toJson = some p := by
  have read : record? keys p.toJson = _ := record?_zip (by decide) rfl
  simp [ofJson?, read, text?]

theorem textual_toJson (p : PropertyDescriptor) : Textual p.toJson :=
  textual_record (by simp [Textual.string])

end PropertyDescriptor

namespace Definitions

/-- A name that is not recorded is added at the end. -/
theorem put_of_not_mem {definitions : Definitions} {name : String}
    (new : name ∉ definitions.map Prod.fst) (text : String) :
    put definitions name text = definitions ++ [(name, text)] := by
  induction definitions with
  | nil => rfl
  | cons first rest ih =>
    rw [List.map_cons, List.mem_cons, not_or] at new
    simp [put, Ne.symm new.1, ih new.2]

/-- Definitions with distinct names that are added one by one keep their order. -/
theorem foldl_put (done : Definitions) {more : Definitions}
    (distinct : ((done ++ more).map Prod.fst).Nodup) :
    more.foldl (fun done definition => put done definition.1 definition.2) done = done ++ more := by
  induction more generalizing done with
  | nil => simp
  | cons first rest ih =>
    have new : first.1 ∉ done.map Prod.fst := by
      rw [List.map_append, List.nodup_append] at distinct
      intro found
      exact distinct.2.2 _ found first.1 (by simp) rfl
    rw [List.foldl_cons, put_of_not_mem new, ih _ (by simpa using distinct)]
    simp

theorem ofJson?_toJson {definitions : Definitions} (distinct : (definitions.map Prod.fst).Nodup) :
    ofJson? (toJson definitions) = some definitions := by
  have read := mapM_map_eq_some (fun definition : String × String =>
      (definition.1, string definition.2))
    (fun member => (text? member.2).map fun text => (member.1, text)) id
    fun definition (_ : definition ∈ definitions) => rfl
  simp [ofJson?, toJson, read, foldl_put [] distinct]

theorem textual_toJson (definitions : Definitions) : Textual (toJson definitions) := by
  refine .object fun member inside => ?_
  obtain ⟨definition, -, rfl⟩ := List.mem_map.mp inside
  exact .string definition.2

end Definitions

namespace ClassDescriptor

theorem ofJson?_toJson {c : ClassDescriptor} (distinct : (c.referencedTypes.map Prod.fst).Nodup) :
    ofJson? c.toJson = some c := by
  have read : record? keys c.toJson = _ := record?_zip (by decide) rfl
  simp [ofJson?, read, text?, flag?, list?_array ConstructorDescriptor.ofJson?_toJson,
    list?_array MethodDescriptor.ofJson?_toJson, list?_array PropertyDescriptor.ofJson?_toJson,
    Definitions.ofJson?_toJson distinct]

theorem textual_toJson (c : ClassDescriptor) : Textual c.toJson :=
  textual_record (by
    simp [Textual.string, Textual.bool, textual_strings,
      textual_array ConstructorDescriptor.textual_toJson,
      textual_array MethodDescriptor.textual_toJson,
      textual_array PropertyDescriptor.textual_toJson, Definitions.textual_toJson])

/-- A document stands for the same value in both styles. -/
theorem ofText_document (classes : List ClassDescriptor) (pretty : Bool) :
    JsonValue.ofText (document classes pretty) = some (array (classes.map toJson)) :=
  ofText_toText (textual_array textual_toJson classes) _

end ClassDescriptor

/-- Descriptors come back from their document, whether pretty or not, with the definitions of
referenced types in their order. Both documents stand for one value, and the compact one has no line
feed. -/
theorem document_decodes (classes : List ClassDescriptor)
    (distinct : ∀ c ∈ classes, (c.referencedTypes.map Prod.fst).Nodup) :
    (∀ pretty, ClassDescriptor.ofDocument (ClassDescriptor.document classes pretty) = .ok classes) ∧
      (∃ value, ∀ pretty, JsonValue.ofText (ClassDescriptor.document classes pretty) = some value) ∧
      '\n' ∉ (ClassDescriptor.document classes false).toList := by
  refine ⟨fun pretty => ?_, ⟨_, ClassDescriptor.ofText_document classes⟩, ?_⟩
  · have all := mapM_map_eq_some ClassDescriptor.toJson ClassDescriptor.ofJson? id
      fun c member => ClassDescriptor.ofJson?_toJson (distinct c member)
    simp [ClassDescriptor.ofDocument, ClassDescriptor.ofText_document, list?, all]
  · simpa [ClassDescriptor.document, toText] using
      (textual_array ClassDescriptor.textual_toJson classes).lineFeed_not_mem_write 0

/-! ### A class with texts to escape -/

/-- A class whose texts hold quotes, a backslash, line ends, a control character and a character
beyond the basic plane. -/
def quotedClass : ClassDescriptor where
  filePath := "Src\\Quoted.cs"
  namespaceName := "Global"
  className := "Quoted"
  isStatic := false
  isAbstract := true
  constructors := [⟨"Quoted(string s)", ["string s"], [⟨"s == \"\"", "ArgumentException"⟩]⟩]
  methods := []
  properties := [⟨"Face", "string"⟩]
  usingDirectives := ["System"]
  referencedTypes := [("Tab", "enum Tab\n\t\x01"), ("Face", "// 😀")]

theorem quotedClass_decoded :
    (∀ c ∈ [quotedClass], (c.referencedTypes.map Prod.fst).Nodup) ∧
      ClassDescriptor.ofDocument (ClassDescriptor.document [quotedClass] true) =
        .ok [quotedClass] ∧
      ClassDescriptor.ofDocument (ClassDescriptor.document [quotedClass] false) =
        .ok [quotedClass] ∧
      '\n' ∉ (ClassDescriptor.document [quotedClass] false).toList := by
  have distinct : ∀ c ∈ [quotedClass], (c.referencedTypes.map Prod.fst).Nodup := by decide
  obtain ⟨decoded, -, one_line⟩ := document_decodes [quotedClass] distinct
  exact ⟨distinct, decoded true, decoded false, one_line⟩

end ClassAtlas
