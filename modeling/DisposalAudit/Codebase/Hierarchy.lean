import DisposalAudit.Codebase.Basic

/-!
# The type hierarchy

A type has an interface if it declares it, or if a type that it inherits
from does: its base type, an interface of its own, and so on. Only loaded
types are followed. The names still to be looked at are kept on a list, and
no name is looked at twice, so cycles end.

## Main definitions

* `TypeDefinition.parents` — the names that a type inherits from.
* `reaches` — whether one of some names has an interface.
* `Codebase.implements` — whether a type name has an interface.
-/

namespace DisposalAudit

/-- The names that a type inherits from directly. An empty base name stands
for no base type. -/
def TypeDefinition.parents (t : TypeDefinition) : List String :=
  (t.baseType.toList.filter fun name => name ≠ "") ++ t.interfaces

theorem lastType?_eq_some {types : List TypeDefinition} {name : String} {t : TypeDefinition}
    (h : lastType? types name = some t) : t ∈ types ∧ t.name = name := by
  refine ⟨?_, ?_⟩
  · exact List.mem_reverse.1 (List.mem_of_find?_eq_some h)
  · simpa using List.find?_some h

/-- Types whose name has not been looked at. -/
def unvisited (types : List TypeDefinition) (visited : List String) : Nat :=
  types.countP fun t => !visited.contains t.name

theorem unvisited_cons_le (types : List TypeDefinition) (visited : List String) (name : String) :
    unvisited types (name :: visited) ≤ unvisited types visited := by
  refine List.countP_mono_left fun t _ h => ?_
  simp_all

theorem unvisited_cons_lt {types : List TypeDefinition} {visited : List String}
    {t : TypeDefinition} (mem : t ∈ types) (fresh : visited.contains t.name = false) :
    unvisited types (t.name :: visited) < unvisited types visited := by
  induction types with
  | nil => cases mem
  | cons first rest ih =>
    simp only [unvisited, List.countP_cons] at ih ⊢
    have mono := unvisited_cons_le rest visited t.name
    simp only [unvisited] at mono
    by_cases same : first.name = t.name
    · have seen : (t.name :: visited).contains first.name = true := by simp [same]
      have unseen : visited.contains first.name = false := by rw [same]; exact fresh
      simp only [seen, unseen, Bool.not_true, Bool.not_false, if_true, Bool.false_eq_true, if_false]
      omega
    · have rest_mem : t ∈ rest := by
        rcases List.mem_cons.1 mem with rfl | h
        · exact absurd rfl same
        · exact h
      have := ih rest_mem
      simp_all

/-- Whether one of the pending names has an interface, apart from what can
be seen only through visited names. -/
def reaches (types : List TypeDefinition) (target : String) (visited : List String) :
    List String → Bool
  | [] => false
  | name :: pending =>
    if _fresh : visited.contains name = false then
      match _found : lastType? types name with
      | none => reaches types target (name :: visited) pending
      | some t =>
        t.interfaces.contains target ||
          reaches types target (name :: visited) (t.parents ++ pending)
    else reaches types target visited pending
termination_by pending => (unvisited types visited, pending.length)
decreasing_by
  · rcases Nat.lt_or_eq_of_le (unvisited_cons_le types visited name) with h | h
    · exact Prod.Lex.left _ _ h
    · rw [h]
      exact Prod.Lex.right _ (Nat.lt_succ_self _)
  · obtain ⟨mem, rfl⟩ := lastType?_eq_some _found
    exact Prod.Lex.left _ _ (unvisited_cons_lt mem _fresh)
  · exact Prod.Lex.right _ (Nat.lt_succ_self _)

/-- Whether the type of that name has an interface, its own or inherited. -/
def Codebase.implements (c : Codebase) (typeName interfaceName : String) : Bool :=
  reaches c.types interfaceName [] [typeName]

end DisposalAudit
