import ClassAtlas.Extraction.Describe
import ClassAtlas.Proofs.References.Reachable

/-!
# Descriptors of a file

What a file is described by, without the log: the descriptors of its class declarations one by one,
and in each of them the descriptors of its methods and the definitions collected from everything it
mentions.
-/
namespace ClassAtlas

/-- The reference that a step follows. -/
def Step.visit? : Step → Option Visit
  | note _ => none
  | follow type => some (.reference type)

namespace Model

/-- The descriptor of a method; a method without a name has none. -/
def methodDescriptor? (m : Model) (settings : Settings) (method : Node) :
    Option MethodDescriptor :=
  (m.methodSymbol? method).map (m.describeMethod settings method)

/-- The descriptor of a class, if the profile includes its type. -/
def descriptor? (m : Model) (settings : Settings) (path : String) (c : ClassDeclaration) :
    Option ClassDescriptor :=
  ((m.table.get? c.id).filter fun s =>
    settings.profile.includesType s.isAbstract s.isStatic).map fun s =>
      (m.describe settings path c s).1

/-- The methods of a class whose declarations a profile includes. -/
def includedMethods (settings : Settings) (c : ClassDeclaration) : List Node :=
  (c.node.membersOfKind "method_declaration").filter fun method =>
    settings.profile.includesMethod (method.hasModifier "public")

/-- The types of the variables of a method, as they are followed when it is described. -/
def methodMentions (m : Model) (method : Node) : List Visit :=
  if (m.methodSymbol? method).isSome then (m.localTypes method).map .reference else []

/-- The references that are followed for a class, in order. -/
def mentions (m : Model) (settings : Settings) (c : ClassDeclaration) : List Visit :=
  (m.steps settings c).filterMap Step.visit?

variable {m : Model} {settings : Settings} {path : String}

/-- Steps collect what their references lead to; the events have no part in it. -/
theorem runSteps_fst (m : Model) (settings : Settings) (definitions : Definitions)
    (steps : List Step) :
    (m.runSteps settings definitions steps).1 =
      m.collectAll settings.layout settings.followTypeArguments (steps.filterMap Step.visit?)
        definitions := by
  induction steps generalizing definitions with
  | nil => rfl
  | cons step rest ih =>
    cases step with
    | note event => exact ih definitions
    | follow type => exact ih _

theorem isPublic_of_methodSymbol? {method : Node} {symbol : MethodSymbol}
    (found : m.methodSymbol? method = some symbol) :
    symbol.isPublic = method.hasModifier "public" := by
  unfold methodSymbol? at found
  split at found
  · obtain ⟨name, -, rfl⟩ := Option.map_eq_some_iff.mp found
    rfl
  · cases found

/-- The methods of a class are described one by one as far as the profile includes them. -/
theorem methods_eq (m : Model) (settings : Settings) (c : ClassDeclaration) :
    m.methods settings c.node =
      (includedMethods settings c).filterMap (m.methodDescriptor? settings) := by
  rw [methods, includedMethods, List.filterMap_filter]
  refine List.filterMap_congr fun method _ => ?_
  unfold includedMethod? methodDescriptor?
  cases found : m.methodSymbol? method with
  | none => simp
  | some symbol =>
    rw [Option.filter_some, isPublic_of_methodSymbol? found]
    split <;> rfl

theorem filterMap_follow (types : List TypeRef) :
    (types.map Step.follow).filterMap Step.visit? = types.map .reference := by
  rw [List.filterMap_map]
  exact congrFun List.filterMap_eq_map types

/-- The profile decides whether the types of the variables of a method are followed, not how. -/
theorem filterMap_methodSteps (m : Model) (settings : Settings) (method : Node) :
    (m.methodSteps settings method).filterMap Step.visit? =
      if settings.profile.includesMethod (method.hasModifier "public") then
        m.methodMentions method
      else [] := by
  unfold methodSteps methodMentions
  cases found : m.methodSymbol? method with
  | none => simp [Step.visit?]
  | some symbol =>
    rw [← isPublic_of_methodSymbol? found]
    dsimp only [Option.isSome_some]
    split
    · exact filterMap_follow _
    · rfl

/-- What is followed for a class: the variables of its methods as far as these are included, then
its properties, its members and its base types. -/
theorem mentions_eq (m : Model) (settings : Settings) (c : ClassDeclaration) :
    m.mentions settings c =
      (includedMethods settings c).flatMap m.methodMentions ++
        (m.propertyTypes c.node ++ m.memberTypes c.node ++ m.baseTypes c.id).map .reference := by
  -- Of the steps for the methods only the references count, method after method.
  have own (methods : List Node) :
      (methods.flatMap (m.methodSteps settings)).filterMap Step.visit? =
        (methods.filter fun method =>
          settings.profile.includesMethod (method.hasModifier "public")).flatMap
            m.methodMentions := by
    induction methods with
    | nil => rfl
    | cons method rest ih =>
      rw [List.flatMap_cons, List.filterMap_append, ih, filterMap_methodSteps, List.filter_cons]
      split
      · rw [List.flatMap_cons]
      · rw [List.nil_append]
  rw [mentions, steps, List.filterMap_append, own, filterMap_follow, includedMethods]

/-- What a class is described to refer to is collected from what it mentions. -/
theorem referencedTypes_describe (m : Model) (settings : Settings) (path : String)
    (c : ClassDeclaration) (s : TypeSymbol) :
    (m.describe settings path c s).1.referencedTypes =
      m.collectAll settings.layout settings.followTypeArguments (m.mentions settings c) [] :=
  m.runSteps_fst settings [] (m.steps settings c)

theorem descriptor?_of_get? {c : ClassDeclaration} {s : TypeSymbol}
    (there : m.table.get? c.id = some s) :
    m.descriptor? settings path c =
      if settings.profile.includesType s.isAbstract s.isStatic then
        some (m.describe settings path c s).1
      else none := by
  rw [descriptor?, there, Option.filter_some]
  split <;> rfl

theorem describeIncluded_fst (m : Model) (settings : Settings) (path : String)
    (c : ClassDeclaration) :
    (m.describeIncluded settings path c).1 = (m.descriptor? settings path c).toList := by
  unfold describeIncluded descriptor?
  cases m.table.get? c.id with
  | none => rfl
  | some s =>
    rw [Option.filter_some]
    dsimp only
    split <;> rfl

end Model

namespace ParsedFile

open Model

/-- Class after class, a file is described by the descriptors of those that the profile includes. -/
theorem classes_describe (file : ParsedFile) (settings : Settings) (path : String) :
    (file.describe settings path).classes =
      (ofTree file.tree).classDeclarations.filterMap
        ((ofTree file.tree).descriptor? settings path) := by
  rw [describe, List.flatMap_map, List.filterMap_eq_flatMap_toList]
  exact congrArg (List.flatMap · _) (funext fun c => describeIncluded_fst _ _ _ c)

/-- Settings that can be used are the only condition for describing a file. -/
theorem extract_of_valid (file : ParsedFile) {settings : Settings} (path : String)
    (valid : settings.flaw? = none) :
    file.extract settings path = .ok (file.describe settings path) := by
  rw [extract, Settings.validate, valid]
  rfl

end ParsedFile

end ClassAtlas
