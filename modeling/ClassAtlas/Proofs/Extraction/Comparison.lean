import ClassAtlas.Proofs.Extraction.Descriptors
import ClassAtlas.Proofs.References.Inclusion
import ClassAtlas.Proofs.Symbols.Coherence
import ClassAtlas.Proofs.Symbols.Identity

/-!
# Extractions compared

How the descriptors of a file depend on two of the settings. The public surface keeps some classes
and some of their methods, and follows fewer references for them. Following type arguments changes
nothing but the referenced types, of which there are more.
-/
namespace ClassAtlas

/-- The settings with another profile. -/
def Settings.withProfile (settings : Settings) (profile : Profile) : Settings :=
  { settings with profile := profile }

theorem forall₂_filter_zip {α β : Type} {f g : α → Option β} {keep : β → Bool}
    {R : α → β → β → Prop} {xs : List α}
    (each : ∀ x ∈ xs, ∃ y, f x = some y ∧
      if keep y then ∃ z, g x = some z ∧ R x y z else g x = none) :
    (xs.filterMap f).length = xs.length ∧
      List.Forall₂ (fun p z => R p.1 p.2 z)
        ((xs.zip (xs.filterMap f)).filter fun p => keep p.2) (xs.filterMap g) := by
  induction xs with
  | nil => exact ⟨rfl, .nil⟩
  | cons x rest ih =>
    obtain ⟨⟨y, found, outcome⟩, others⟩ := List.forall_mem_cons.mp each
    obtain ⟨equal, related⟩ := ih others
    rw [List.filterMap_cons_some found, List.zip_cons_cons, List.filter_cons]
    refine ⟨congrArg Nat.succ equal, ?_⟩
    split at outcome
    · next kept =>
      obtain ⟨z, found', relates⟩ := outcome
      rw [if_pos kept, List.filterMap_cons_some found']
      exact .cons relates related
    · next dropped =>
      rw [if_neg dropped, List.filterMap_cons_none outcome]
      exact related

namespace Model

/-- A descriptor of a class in full and one of its public surface: the latter has the public methods
only, and its referenced types are among those of the former. -/
structure Narrows (m : Model) (settings : Settings) (c : ClassDeclaration)
    (wide narrow : ClassDescriptor) : Prop where
  same : narrow =
    { wide with methods := narrow.methods, referencedTypes := narrow.referencedTypes }
  modified : ∃ s, m.table.get? c.id = some s ∧ wide.isAbstract = s.isAbstract ∧
    wide.isStatic = s.isStatic
  all : wide.methods =
    (c.node.membersOfKind "method_declaration").filterMap (m.methodDescriptor? settings)
  chosen : narrow.methods =
    ((c.node.membersOfKind "method_declaration").filter fun method =>
      method.hasModifier "public").filterMap (m.methodDescriptor? settings)
  references : narrow.referencedTypes ⊆ wide.referencedTypes

variable {settings : Settings} {tree : Tree}

theorem includedMethods_full (c : ClassDeclaration) :
    includedMethods (settings.withProfile .full) c = c.node.membersOfKind "method_declaration" :=
  List.filter_true _

/-- The public surface of a class mentions less. -/
theorem mentions_sublist (m : Model) (c : ClassDeclaration) :
    (m.mentions (settings.withProfile .publicSurface) c).Sublist
      (m.mentions (settings.withProfile .full) c) := by
  -- The profile selects among the methods; what follows them is mentioned in any case.
  rw [mentions_eq, mentions_eq, includedMethods_full]
  have fewer : (includedMethods (settings.withProfile .publicSurface) c).Sublist
      (c.node.membersOfKind "method_declaration") := List.filter_sublist
  exact (fewer.flatMap _).append_right _

theorem describe_narrows (plain : PlainlyNamed (ofTree tree).table.types) (path : String)
    {c : ClassDeclaration} {s : TypeSymbol} (there : (ofTree tree).table.get? c.id = some s) :
    (ofTree tree).Narrows settings c
      ((ofTree tree).describe (settings.withProfile .full) path c s).1
      ((ofTree tree).describe (settings.withProfile .publicSurface) path c s).1 where
  same := rfl
  modified := ⟨s, there, rfl, rfl⟩
  all := by
    refine (methods_eq _ _ c).trans ?_
    rw [includedMethods_full]
    rfl
  chosen := methods_eq _ _ c
  references := by
    rw [referencedTypes_describe, referencedTypes_describe]
    exact collectAll_subset plain _ id (mentions_sublist _ c).subset

end Model

open Model in
/-- The public surface of a file has a descriptor for each class that is not abstract or is static,
in the order of the full description. Such a descriptor has exactly the public methods, and no types
that are not referenced in full. -/
theorem publicSurface_narrows (file : ParsedFile) (settings : Settings) (path : String)
    (valid : settings.flaw? = none) (plain : PlainlyNamed (ofTree file.tree).table.types) :
    ∃ full surface, file.extract (settings.withProfile .full) path = .ok full ∧
      file.extract (settings.withProfile .publicSurface) path = .ok surface ∧
      full.classes.length = (ofTree file.tree).classDeclarations.length ∧
      List.Forall₂ (fun p narrow => (ofTree file.tree).Narrows settings p.1 p.2 narrow)
        (((ofTree file.tree).classDeclarations.zip full.classes).filter fun p =>
          !p.2.isAbstract || p.2.isStatic)
        surface.classes := by
  refine ⟨_, _, file.extract_of_valid path valid, file.extract_of_valid path valid, ?_⟩
  rw [file.classes_describe, file.classes_describe]
  have each : ∀ c ∈ (ofTree file.tree).classDeclarations, ∃ wide,
      (ofTree file.tree).descriptor? (settings.withProfile .full) path c = some wide ∧
        if !wide.isAbstract || wide.isStatic then
          ∃ narrow, (ofTree file.tree).descriptor? (settings.withProfile .publicSurface) path c =
            some narrow ∧ (ofTree file.tree).Narrows settings c wide narrow
        else (ofTree file.tree).descriptor? (settings.withProfile .publicSurface) path c = none := by
    intro c listed
    obtain ⟨s, there, -, -⟩ := mem_classDeclarations.mp listed
    refine ⟨_, descriptor?_of_get? there, ?_⟩
    rw [descriptor?_of_get? there]
    -- The flags of the descriptor are those of the type, by which the profile selects.
    split
    · next included => exact ⟨_, if_pos included, describe_narrows plain path there⟩
    · next excluded => exact if_neg excluded
  exact forall₂_filter_zip each

/-! ### A page with a hidden method -/

/-- `void Load() { Box<Order> held; }`, a method that is not public and has a variable. -/
def loadMethod : Tree :=
  firstRowTree "method_declaration" none 78 "void Load() \x7b Box<Order> held; \x7d"
    [firstRowTree "predefined_type" (some "returns") 78 "void" [],
      firstRowTree "identifier" (some "name") 83 "Load" [],
      firstRowTree "parameter_list" (some "parameters") 87 "()" [],
      firstRowTree "block" (some "body") 90 "\x7b Box<Order> held; \x7d"
        [firstRowTree "local_declaration_statement" none 92 "Box<Order> held;"
          [firstRowTree "variable_declaration" none 92 "Box<Order> held"
            [firstRowTree "generic_name" (some "type") 92 "Box<Order>"
                [firstRowTree "identifier" none 92 "Box" [],
                  firstRowTree "type_argument_list" none 95 "<Order>"
                    [firstRowTree "identifier" none 96 "Order" []]],
              firstRowTree "variable_declarator" none 103 "held"
                [firstRowTree "identifier" (some "name") 103 "held" []]]]]]

/-- `class Page { public void Show() { } void Load() { Box<Order> held; } }` -/
def pageClass : Tree :=
  firstRowTree "class_declaration" none 42
    "class Page \x7b public void Show() \x7b \x7d void Load() \x7b Box<Order> held; \x7d \x7d"
    [firstRowTree "identifier" (some "name") 48 "Page" [],
      firstRowTree "declaration_list" (some "body") 53
        "\x7b public void Show() \x7b \x7d void Load() \x7b Box<Order> held; \x7d \x7d"
        [firstRowTree "method_declaration" none 55 "public void Show() \x7b \x7d"
          [firstRowTree "modifier" none 55 "public" [],
            firstRowTree "predefined_type" (some "returns") 62 "void" [],
            firstRowTree "identifier" (some "name") 67 "Show" [],
            firstRowTree "parameter_list" (some "parameters") 71 "()" [],
            firstRowTree "block" (some "body") 74 "\x7b \x7d" []],
          loadMethod]]

/-- `abstract class Order { } class Box<T> { }`, then the page. -/
def orderPage : Tree :=
  .node ⟨"compilation_unit", none, true, false, ⟨0, 112, 0, 0⟩,
    "abstract class Order \x7b \x7d class Box<T> \x7b \x7d " ++ pageClass.info.text⟩
    [firstRowTree "class_declaration" none 0 "abstract class Order \x7b \x7d"
      [firstRowTree "modifier" none 0 "abstract" [],
        firstRowTree "identifier" (some "name") 15 "Order" [],
        firstRowTree "declaration_list" (some "body") 21 "\x7b \x7d" []],
      firstRowTree "class_declaration" none 25 "class Box<T> \x7b \x7d"
        [firstRowTree "identifier" (some "name") 31 "Box" [],
          firstRowTree "type_parameter_list" none 34 "<T>"
            [firstRowTree "type_parameter" none 35 "T"
              [firstRowTree "identifier" (some "name") 35 "T" []]],
          firstRowTree "declaration_list" (some "body") 38 "\x7b \x7d" []],
      pageClass]

theorem orderPage_plainlyNamed : PlainlyNamed (Model.ofTree orderPage).table.types :=
  .of_undotted (by decide +kernel)

/-- The public surface has neither the abstract class nor the hidden method. -/
theorem orderPage_narrowed :
    Settings.standard.flaw? = none ∧ PlainlyNamed (Model.ofTree orderPage).table.types ∧
      ∃ full surface : Extraction,
        List.Forall₂ (fun p narrow => (Model.ofTree orderPage).Narrows .standard p.1 p.2 narrow)
          (((Model.ofTree orderPage).classDeclarations.zip full.classes).filter fun p =>
            !p.2.isAbstract || p.2.isStatic)
          surface.classes ∧
        full.classes.map (fun d => (d.className, d.methods.map MethodDescriptor.name)) =
          [("Order", []), ("Box", []), ("Page", ["Show", "Load"])] ∧
        surface.classes.map (fun d => (d.className, d.methods.map MethodDescriptor.name)) =
          [("Box", []), ("Page", ["Show"])] := by
  have valid : Settings.standard.flaw? = none := by decide +kernel
  have valid' (profile : Profile) : (Settings.standard.withProfile profile).flaw? = none := valid
  obtain ⟨full, surface, first, second, -, narrowed⟩ :=
    publicSurface_narrows ⟨orderPage, false⟩ .standard "In.cs" valid orderPage_plainlyNamed
  refine ⟨valid, orderPage_plainlyNamed, full, surface, narrowed, ?_, ?_⟩
  · cases (ParsedFile.extract_of_valid _ _ (valid' .full)).symm.trans first
    decide +kernel
  · cases (ParsedFile.extract_of_valid _ _ (valid' .publicSurface)).symm.trans second
    decide +kernel

/-! ### Type arguments -/

/-- The settings with another choice about type arguments. -/
def Settings.withArguments (settings : Settings) (follow : Bool) : Settings :=
  { settings with followTypeArguments := follow }

/-- The descriptors agree in everything but the referenced types, and those of the first are among
those of the second. -/
structure ClassDescriptor.Refers (few many : ClassDescriptor) : Prop where
  same : many = { few with referencedTypes := many.referencedTypes }
  references : few.referencedTypes ⊆ many.referencedTypes

/-- What is mentioned does not depend on whether type arguments are followed, so all that changes
are the referenced types. -/
theorem Model.describe_refers {settings : Settings} {tree : Tree}
    (plain : PlainlyNamed (Model.ofTree tree).table.types) (path : String) (c : ClassDeclaration)
    (s : TypeSymbol) :
    ((Model.ofTree tree).describe (settings.withArguments false) path c s).1.Refers
      ((Model.ofTree tree).describe (settings.withArguments true) path c s).1 where
  same := rfl
  references := by
    rw [referencedTypes_describe, referencedTypes_describe]
    exact collectAll_subset plain _ nofun (List.Subset.refl _)

open Model in
/-- Whether type arguments are followed or not, a file has the same descriptors up to the referenced
types, and following type arguments adds to these. -/
theorem typeArguments_add_references (file : ParsedFile) (settings : Settings) (path : String)
    (valid : settings.flaw? = none) (plain : PlainlyNamed (ofTree file.tree).table.types) :
    ∃ few many, file.extract (settings.withArguments false) path = .ok few ∧
      file.extract (settings.withArguments true) path = .ok many ∧
      List.Forall₂ ClassDescriptor.Refers few.classes many.classes := by
  refine ⟨_, _, file.extract_of_valid path valid, file.extract_of_valid path valid, ?_⟩
  rw [file.classes_describe, file.classes_describe]
  have each (c : ClassDeclaration) : Option.Rel ClassDescriptor.Refers
      ((ofTree file.tree).descriptor? (settings.withArguments false) path c)
      ((ofTree file.tree).descriptor? (settings.withArguments true) path c) := by
    cases there : (ofTree file.tree).table.get? c.id with
    | none =>
      rw [descriptor?, descriptor?, there]
      exact .none
    | some s =>
      have found (follow : Bool) :
          (ofTree file.tree).descriptor? (settings.withArguments follow) path c =
            if settings.profile.includesType s.isAbstract s.isStatic then
              some ((ofTree file.tree).describe (settings.withArguments follow) path c s).1
            else none := descriptor?_of_get? there
      -- The profile is the same, so that both descriptions have the class or neither has it.
      by_cases included : settings.profile.includesType s.isAbstract s.isStatic = true
      · rw [found, found, if_pos included, if_pos included]
        exact .some (describe_refers plain path c s)
      · rw [found, found, if_neg included, if_neg included]
        exact .none
  refine List.rel_filterMap (R := Eq) ?_ (List.forall₂_same.mpr fun _ _ => rfl)
  rintro c _ rfl
  exact each c

/-- With type arguments the page may refer to more types, and nothing else changes. -/
theorem orderPage_refers :
    Settings.standard.flaw? = none ∧ PlainlyNamed (Model.ofTree orderPage).table.types ∧
      ∃ few many : Extraction, List.Forall₂ ClassDescriptor.Refers few.classes many.classes ∧
        few.classes.map ClassDescriptor.className = ["Order", "Box", "Page"] := by
  have valid : Settings.standard.flaw? = none := by decide +kernel
  have valid' (follow : Bool) : (Settings.standard.withArguments follow).flaw? = none := valid
  obtain ⟨few, many, first, -, refers⟩ :=
    typeArguments_add_references ⟨orderPage, false⟩ .standard "In.cs" valid orderPage_plainlyNamed
  refine ⟨valid, orderPage_plainlyNamed, few, many, refers, ?_⟩
  cases (ParsedFile.extract_of_valid _ _ (valid' false)).symm.trans first
  decide +kernel

end ClassAtlas
