import ClassAtlas.Model.Hierarchy
import ClassAtlas.Proofs.Types.WellFormed

/-!
# Binding gives well-formed references

Whatever a name or a piece of type syntax denotes is well formed, in the whole of a file, also where
the source is broken. The same holds of base types and of the types of members.
-/
namespace ClassAtlas

theorem Node.one_le_arrayRank (n : Node) : 1 ≤ n.arrayRank := by
  unfold arrayRank
  split
  · exact Nat.le_refl 1
  · exact Nat.le_add_left 1 _

namespace Model

open TypeRef

variable {m : Model}

/-! ### Names -/

theorem lookup?_of_typeIn? {spaces : List String} {path : String} {arity : Nat} {id : TypeId}
    (found : m.typeIn? spaces path arity = some id) :
    ∃ full, m.table.lookup? full arity = some id := by
  obtain ⟨space, -, found⟩ := List.exists_of_findSome?_eq_some found
  exact ⟨joined space path, found⟩

theorem wellFormed_resolvePath (path : String) (at_ : Node) :
    (m.resolvePath path at_).WellFormed m.table := by
  unfold resolvePath
  dsimp only
  split
  next id found =>
    rcases Option.or_eq_some_iff.mp found with whole | ⟨-, relative⟩
    · exact wellFormed_of_lookup? whole (List.forall_mem_nil _)
    · obtain ⟨full, found⟩ := lookup?_of_typeIn? relative
      exact wellFormed_of_lookup? found (List.forall_mem_nil _)
  next =>
    split
    next type found => exact wellFormed_ofCore found
    next => exact wellFormed_written _

theorem wellFormed_unboundIdentifier? {name : String} {t : TypeRef}
    (found : unboundIdentifier? name = some t) : t.WellFormed m.table := by
  unfold unboundIdentifier? at found
  split at found
  · cases found
  · split at found
    · cases found
      exact wellFormed_iff.mpr ⟨trivial, nofun⟩
    · cases found
      exact wellFormed_written name

section

variable {args : List TypeRef} (each : ∀ a ∈ args, a.WellFormed m.table)
include each

theorem wellFormed_boundBy? {name : String} {ancestor : Node} {t : TypeRef}
    (found : m.boundBy? name args ancestor = some t) : t.WellFormed m.table := by
  unfold boundBy? at found
  split at found
  · cases found
    exact wellFormed_param name
  · split at found
    · cases found
    · split at found
      · cases found
        exact wellFormed_param name
      · obtain ⟨nested, inner, rfl⟩ := Option.map_eq_some_iff.mp found
        exact wellFormed_of_nested? inner each

theorem wellFormed_importedFrom? {space name : String} {t : TypeRef}
    (found : m.importedFrom? space name args = some t) : t.WellFormed m.table := by
  unfold importedFrom? at found
  split at found
  next id known =>
    cases found
    exact wellFormed_of_lookup? known each
  next =>
    obtain ⟨type, known, rfl⟩ := Option.map_eq_some_iff.mp found
    exact wellFormed_core known each

theorem wellFormed_usedIn? {name : String} {at_ : Node} {scope : NamespaceScope} {t : TypeRef}
    (found : m.usedIn? name args at_ scope = some t) : t.WellFormed m.table := by
  unfold usedIn? at found
  dsimp only at found
  split at found
  · cases found
    exact wellFormed_resolvePath _ at_
  · obtain ⟨directive, -, imported⟩ := List.exists_of_findSome?_eq_some found
    split at imported
    · exact wellFormed_importedFrom? each imported
    · cases imported

theorem wellFormed_lookupSimple? {name : String} {at_ : Node} {t : TypeRef}
    (found : m.lookupSimple? name args at_ = some t) : t.WellFormed m.table := by
  unfold lookupSimple? at found
  split at found
  next bound around =>
    cases found
    obtain ⟨ancestor, -, around⟩ := List.exists_of_findSome?_eq_some around
    exact wellFormed_boundBy? each around
  next =>
    split at found
    next id known =>
      cases found
      obtain ⟨full, known⟩ := lookup?_of_typeIn? known
      exact wellFormed_of_lookup? known each
    next =>
      obtain ⟨scope, -, used⟩ := List.exists_of_findSome?_eq_some found
      exact wellFormed_usedIn? each used

theorem wellFormed_memberOfSpace? {spaces : List String} {name space : String} {t : TypeRef}
    (found : m.memberOfSpace? spaces name args space = some t) : t.WellFormed m.table := by
  unfold memberOfSpace? at found
  split at found
  next id known =>
    cases found
    obtain ⟨outer, -, known⟩ := List.exists_of_findSome?_eq_some known
    exact wellFormed_of_lookup? known each
  next =>
    obtain ⟨type, known, rfl⟩ := Option.map_eq_some_iff.mp found
    exact wellFormed_core known each

theorem wellFormed_lookupQualified? {n qualifier : Node} {qualifierType? : Option TypeRef}
    {name : String} {t : TypeRef}
    (found : m.lookupQualified? n qualifier qualifierType? name args = some t) :
    t.WellFormed m.table := by
  unfold lookupQualified? at found
  split at found
  · obtain ⟨nested, inner, rfl⟩ := Option.map_eq_some_iff.mp found
    exact wellFormed_of_nested? inner each
  · dsimp only at found
    split at found
    · cases found
    · obtain ⟨space, -, inSpace⟩ := List.exists_of_findSome?_eq_some found
      exact wellFormed_memberOfSpace? each inSpace

end

/-! ### Type syntax -/

/-- What a node denotes as a type, and its type arguments, are well formed. -/
structure BindsWell (m : Model) (n : Node) : Prop where
  resolved : ∀ {t}, m.resolve? n = some t → t.WellFormed m.table
  arguments : ∀ {name args}, m.simpleName? n = some (name, args) →
    ∀ a ∈ args, a.WellFormed m.table

theorem wellFormed_getD {found? : Option TypeRef} {other : TypeRef}
    (found : ∀ t, found? = some t → t.WellFormed m.table) (wf : other.WellFormed m.table) :
    (found?.getD other).WellFormed m.table := by
  cases found? with
  | none => exact wf
  | some t => exact found t rfl

section

variable {n : Node} (smaller : ∀ c : Node, c.size < n.size → BindsWell m c)
include smaller

theorem elementType_of_smaller {t : TypeRef} (found : m.elementType? n = some t) :
    t.WellFormed m.table := by
  rw [elementType?] at found
  split at found
  · cases found
  next type inner => exact (smaller type (Node.size_lt_of_innerType? inner)).resolved found

theorem arguments_of_smaller {name : String} {args : List TypeRef}
    (found : m.simpleName? n = some (name, args)) : ∀ a ∈ args, a.WellFormed m.table := by
  rw [simpleName?] at found
  split at found
  · cases found
    exact List.forall_mem_nil _
  · obtain ⟨name, -, made⟩ := Option.map_eq_some_iff.mp found
    cases made
    refine List.forall_mem_map.mpr ?_
    rintro ⟨arg, member⟩ -
    have bound := smaller arg (Node.size_lt_of_mem_typeArgumentNodes member)
    exact wellFormed_getD (fun t => bound.resolved) (wellFormed_written _)
  · cases found

theorem qualified_of_smaller {t : TypeRef} (found : m.qualified? n = some t) :
    t.WellFormed m.table := by
  rw [qualified?] at found
  split at found
  next qualifier simple _ unqualified =>
    obtain ⟨⟨name, args⟩, known, found⟩ := Option.bind_eq_some_iff.mp found
    have bound := smaller simple (Node.size_lt_of_unqualified? unqualified)
    exact wellFormed_lookupQualified? (bound.arguments known) found
  next => cases found

theorem exists_inner {c : Node} {wrap : TypeRef → TypeRef} {t : TypeRef} (below : c.size < n.size)
    (found : (m.resolve? c).map wrap = some t) :
    ∃ inner : TypeRef, inner.WellFormed m.table ∧ wrap inner = t := by
  obtain ⟨inner, bound, same⟩ := Option.map_eq_some_iff.mp found
  exact ⟨inner, (smaller c below).resolved bound, same⟩

theorem resolved_of_smaller {t : TypeRef} (found : m.resolve? n = some t) :
    t.WellFormed m.table := by
  rw [resolve?] at found
  -- One case for each kind of node that is read as a type, in the order of the definition.
  split at found
  case h_1 => exact wellFormed_predefined found
  case h_2 =>
    rcases Option.or_eq_some_iff.mp found with known | ⟨-, unbound⟩
    · exact wellFormed_lookupSimple? (List.forall_mem_nil _) known
    · exact wellFormed_unboundIdentifier? unbound
  case h_3 =>
    obtain ⟨⟨name, args⟩, named, rfl⟩ := Option.map_eq_some_iff.mp found
    have each := arguments_of_smaller smaller named
    exact wellFormed_getD (fun t => wellFormed_lookupSimple? each) (wellFormed_external each)
  case h_4 =>
    split at found
    next bound known =>
      cases found
      exact qualified_of_smaller smaller known
    next =>
      split at found
      next qualifier simple _ unqualified =>
        obtain ⟨⟨name, args⟩, named, rfl⟩ := Option.map_eq_some_iff.mp found
        have bound := smaller simple (Node.size_lt_of_unqualified? unqualified)
        exact wellFormed_external (bound.arguments named)
      next => cases found
  case h_5 =>
    cases found
    exact wellFormed_resolvePath _ n
  case h_6 =>
    split at found
    · cases found
    next c inner =>
      obtain ⟨type, wf, rfl⟩ := exists_inner smaller (Node.size_lt_of_innerType? inner) found
      exact wellFormed_nullable wf
  case h_7 =>
    split at found
    · cases found
    next c inner =>
      obtain ⟨type, wf, rfl⟩ := exists_inner smaller (Node.size_lt_of_innerType? inner) found
      exact wellFormed_array wf n.one_le_arrayRank
  case h_8 =>
    split at found
    · cases found
    next c inner =>
      obtain ⟨type, wf, rfl⟩ := exists_inner smaller (Node.size_lt_of_innerType? inner) found
      exact wellFormed_pointer wf
  case h_9 =>
    cases found
    refine wellFormed_tuple (List.forall_mem_map.mpr ?_)
    rintro ⟨element, member⟩ -
    have below := Node.size_lt_of_mem_tupleElementNodes member
    have bound (c : Node) (inside : c.size < element.size) := smaller c (Nat.lt_trans inside below)
    exact wellFormed_getD (fun t => elementType_of_smaller bound) (wellFormed_written _)
  case h_10 | h_11 =>
    split at found
    · cases found
    next c inner => exact (smaller c (Node.size_lt_of_modifiedType? inner)).resolved found
  case h_12 =>
    cases found
    exact wellFormed_written _
  case h_13 => cases found

end

theorem bindsWell (m : Model) (n : Node) : BindsWell m n := by
  -- Binding a node binds only nodes below it.
  induction bound : n.size using Nat.strongRecOn generalizing n with
  | ind size ih =>
    subst bound
    have smaller (c : Node) (below : c.size < n.size) : BindsWell m c := ih c.size below c rfl
    exact ⟨resolved_of_smaller smaller, arguments_of_smaller smaller⟩

theorem wellFormed_resolve? {n : Node} {t : TypeRef} (found : m.resolve? n = some t) :
    t.WellFormed m.table :=
  (bindsWell m n).resolved found

theorem wellFormed_named? {n : Node} {t : TypeRef} (found : m.named? n = some t) :
    t.WellFormed m.table := by
  have smaller (c : Node) (_ : c.size < n.size) := bindsWell m c
  rw [named?] at found
  split at found
  case h_1 | h_2 =>
    obtain ⟨⟨name, args⟩, named, known⟩ := Option.bind_eq_some_iff.mp found
    exact wellFormed_lookupSimple? ((bindsWell m n).arguments named) known
  case h_3 => exact qualified_of_smaller smaller found
  case h_4 => exact wellFormed_predefined found
  case h_5 => cases found

theorem wellFormed_writtenType? {n : Node} {t : TypeRef} (found : m.writtenType? n = some t) :
    t.WellFormed m.table := by
  obtain ⟨type, -, bound⟩ := Option.bind_eq_some_iff.mp found
  exact wellFormed_resolve? bound

/-! ### Members and base types -/

theorem wellFormed_of_mem_baseTypes {id : TypeId} {t : TypeRef} (base : t ∈ m.baseTypes id) :
    t.WellFormed m.table := by
  unfold baseTypes at base
  split at base
  · exact absurd base List.not_mem_nil
  · obtain ⟨entry, -, bound⟩ := List.mem_filterMap.mp (List.mem_eraseDups.mp base)
    exact wellFormed_resolve? bound

theorem wellFormed_valueType? {name : String} {member : Node} {t : TypeRef}
    (found : m.valueType? name member = some t) : t.WellFormed m.table := by
  unfold valueType? at found
  split at found
  case h_1 =>
    split at found
    · exact wellFormed_writtenType? found
    · cases found
  case h_2 | h_3 =>
    obtain ⟨declaration, -, written⟩ := Option.bind_eq_some_iff.mp found
    exact wellFormed_writtenType? written
  case h_4 => cases found

theorem wellFormed_memberType? {id : TypeId} {name : String} {t : TypeRef}
    (found : m.memberType? id name = some t) : t.WellFormed m.table := by
  obtain ⟨member, -, declared⟩ := List.exists_of_findSome?_eq_some found
  exact wellFormed_valueType? declared

theorem wellFormed_methodSymbol? {n : Node} {method : MethodSymbol} {t : TypeRef}
    (found : m.methodSymbol? n = some method) (returned : method.returnType? = some t) :
    t.WellFormed m.table := by
  unfold methodSymbol? at found
  split at found
  · obtain ⟨name, -, rfl⟩ := Option.map_eq_some_iff.mp found
    obtain ⟨type, -, bound⟩ := Option.bind_eq_some_iff.mp returned
    exact wellFormed_resolve? bound
  · cases found

theorem wellFormed_methodReturnType? {id : TypeId} {name : String} {t : TypeRef}
    (found : m.methodReturnType? id name = some t) : t.WellFormed m.table := by
  obtain ⟨member, -, declared⟩ := List.exists_of_findSome?_eq_some found
  obtain ⟨method, facts, returned⟩ := Option.bind_eq_some_iff.mp declared
  split at returned
  · exact wellFormed_methodSymbol? facts returned
  · cases returned

end Model

end ClassAtlas
