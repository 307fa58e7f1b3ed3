import DisposalAudit.Codebase.Hierarchy
import Mathlib.Logic.Relation

/-!
# Inheritance as reachability

The search through the hierarchy keeps a list of names to look at and a list
of names that it has looked at. What it finds has nothing to do with either:
a type has an interface exactly if a chain of parents leads from it to a
type that declares the interface.

A name may wait on the list many times over, but it adds its parents only
the first time, so that no more names are ever put on the list than all
types together have parents. That bounds the number of looks.

## Main definitions

* `Inherits`, `Declares` — one step up, and an interface of a type's own.
* `Search` — a search under way, with one look and a limited number of looks.

## Main results

* `exists_chain_of_reaches` — a success comes with a chain.
* `exists_closed_of_not_reaches` — a failure leaves a set of names that no
  chain leaves.
* `reaches_singleton_iff` — the search decides reachability.
* `Search.answer?_eq_some` — the search ends, and when.
* `Codebase.implements_decides` — both, for a type of a codebase.
-/

namespace DisposalAudit

/-- A loaded type inherits from a name directly. -/
def Inherits (types : List TypeDefinition) (child parent : String) : Prop :=
  ∃ t, lastType? types child = some t ∧ parent ∈ t.parents

/-- A loaded type declares an interface itself. -/
def Declares (types : List TypeDefinition) (target name : String) : Prop :=
  ∃ t, lastType? types name = some t ∧ target ∈ t.interfaces

variable {types : List TypeDefinition} {target : String}

theorem exists_chain_of_reaches (visited pending : List String)
    (h : reaches types target visited pending = true) :
    ∃ start ∈ pending, ∃ name,
      Relation.ReflTransGen (Inherits types) start name ∧ Declares types target name := by
  fun_induction reaches types target visited pending with
  | case1 => cases h
  | case2 visited name pending fresh hnone ih =>
      obtain ⟨start, hstart, hchain⟩ := ih h
      exact ⟨start, List.mem_cons_of_mem name hstart, hchain⟩
  | case3 visited name pending fresh t hfound ih =>
      rw [Bool.or_eq_true] at h
      rcases h with hown | hrest
      · exact ⟨name, List.mem_cons_self, name, .refl, t, hfound, List.contains_iff_mem.1 hown⟩
      · obtain ⟨start, hstart, last, hchain, hdeclares⟩ := ih hrest
        rcases List.mem_append.1 hstart with hparent | hpending
        · exact ⟨name, List.mem_cons_self, last, hchain.head ⟨t, hfound, hparent⟩, hdeclares⟩
        · exact ⟨start, List.mem_cons_of_mem name hpending, last, hchain, hdeclares⟩
  | case4 visited name pending seen ih =>
      obtain ⟨start, hstart, hchain⟩ := ih h
      exact ⟨start, List.mem_cons_of_mem name hstart, hchain⟩

/-- When the search fails, all that it has looked at is closed under
inheritance, apart from what had been looked at before. -/
theorem exists_closed_of_not_reaches (visited pending : List String)
    (h : reaches types target visited pending = false) :
    ∃ closed : String → Prop, (∀ name ∈ visited, closed name) ∧ (∀ name ∈ pending, closed name) ∧
      ∀ name, closed name → name ∉ visited →
        ¬ Declares types target name ∧ ∀ parent, Inherits types name parent → closed parent := by
  fun_induction reaches types target visited pending with
  | case1 visited =>
      exact ⟨fun name => name ∈ visited, fun _ hv => hv, by simp, fun _ hv hn => absurd hv hn⟩
  | case2 visited name pending fresh hnone ih =>
      obtain ⟨closed, hvisited, hpending, hclosed⟩ := ih h
      refine ⟨closed, fun other hv => hvisited other (List.mem_cons_of_mem name hv), ?_, ?_⟩
      · intro other hother
        rcases List.mem_cons.1 hother with rfl | hrest
        · exact hvisited other List.mem_cons_self
        · exact hpending other hrest
      · intro other hin hout
        by_cases hsame : other = name
        · subst hsame
          refine ⟨fun ⟨t, ht, _⟩ => ?_, fun parent ⟨t, ht, _⟩ => ?_⟩ <;>
            exact absurd (hnone.symm.trans ht) (by simp)
        · exact hclosed other hin (by simp [hsame, hout])
  | case3 visited name pending fresh t hfound ih =>
      rw [Bool.or_eq_false_iff] at h
      obtain ⟨closed, hvisited, hpending, hclosed⟩ := ih h.2
      refine ⟨closed, fun other hv => hvisited other (List.mem_cons_of_mem name hv), ?_, ?_⟩
      · intro other hother
        rcases List.mem_cons.1 hother with rfl | hrest
        · exact hvisited other List.mem_cons_self
        · exact hpending other (List.mem_append_right t.parents hrest)
      · intro other hin hout
        by_cases hsame : other = name
        · subst hsame
          refine ⟨fun ⟨u, hu, hdeclared⟩ => ?_, fun parent ⟨u, hu, hparent⟩ => ?_⟩
          · obtain rfl := Option.some.inj (hfound.symm.trans hu)
            rw [← List.contains_iff_mem, h.1] at hdeclared
            cases hdeclared
          · obtain rfl := Option.some.inj (hfound.symm.trans hu)
            exact hpending parent (List.mem_append_left pending hparent)
        · exact hclosed other hin (by simp [hsame, hout])
  | case4 visited name pending seen ih =>
      obtain ⟨closed, hvisited, hpending, hclosed⟩ := ih h
      have hname : name ∈ visited := by simpa using seen
      refine ⟨closed, hvisited, ?_, hclosed⟩
      intro other hother
      rcases List.mem_cons.1 hother with rfl | hrest
      · exact hvisited other hname
      · exact hpending other hrest

/-- The search from one name succeeds exactly if a chain of parents leads to
a type that declares the interface. -/
theorem reaches_singleton_iff (start : String) :
    reaches types target [] [start] = true ↔
      ∃ name, Relation.ReflTransGen (Inherits types) start name ∧ Declares types target name := by
  constructor
  · intro h
    obtain ⟨_, hstart, hchain⟩ := exists_chain_of_reaches [] [start] h
    rw [List.mem_singleton.1 hstart] at hchain
    exact hchain
  · intro hall
    obtain ⟨name, hchain, hdeclares⟩ := hall
    cases hresult : reaches types target [] [start] with
    | true => rfl
    | false =>
        obtain ⟨closed, -, hpending, hclosed⟩ := exists_closed_of_not_reaches [] [start] hresult
        have hreached : closed name := by
          clear hdeclares
          induction hchain with
          | refl => exact hpending start List.mem_cons_self
          | tail _ hstep ih => exact (hclosed _ ih (by simp)).2 _ hstep
        exact absurd hdeclares (hclosed name hreached (by simp)).1

/-! ## The search ends -/

section Looks

variable {visited pending : List String} {name : String}

theorem reaches_of_seen (hseen : name ∈ visited) :
    reaches types target visited (name :: pending) = reaches types target visited pending := by
  rw [reaches, dif_neg (by simp [hseen])]

theorem reaches_of_missing (hfresh : name ∉ visited) (hnone : lastType? types name = none) :
    reaches types target visited (name :: pending) =
      reaches types target (name :: visited) pending := by
  rw [reaches, dif_pos (by simp [hfresh])]
  split
  · rfl
  · rename_i t hfound
    exact absurd (hnone.symm.trans hfound) (by simp)

theorem reaches_of_found {t : TypeDefinition} (hfresh : name ∉ visited)
    (hfound : lastType? types name = some t) :
    reaches types target visited (name :: pending) =
      (decide (target ∈ t.interfaces) ||
        reaches types target (name :: visited) (t.parents ++ pending)) := by
  rw [reaches, dif_pos (by simp [hfresh])]
  split
  · rename_i hnone
    exact absurd (hnone.symm.trans hfound) (by simp)
  · rename_i u hother
    obtain rfl := Option.some.inj (hfound.symm.trans hother)
    rw [List.contains_eq_mem]

end Looks

/-- Number of parents of the types whose name has not been looked at. -/
def openParents (types : List TypeDefinition) (visited : List String) : Nat :=
  ((types.filter fun t => !visited.contains t.name).flatMap TypeDefinition.parents).length

theorem openParents_nil (types : List TypeDefinition) :
    openParents types [] = (types.flatMap TypeDefinition.parents).length := by
  have hall : types.filter (fun t => !([] : List String).contains t.name) = types := by simp
  rw [openParents, hall]

theorem openParents_cons (first : TypeDefinition) (rest : List TypeDefinition)
    (visited : List String) :
    openParents (first :: rest) visited =
      (if first.name ∈ visited then 0 else first.parents.length) + openParents rest visited := by
  by_cases hseen : first.name ∈ visited <;> simp [openParents, hseen]

theorem openParents_cons_le (types : List TypeDefinition) (visited : List String)
    (name : String) : openParents types (name :: visited) ≤ openParents types visited := by
  induction types with
  | nil => exact Nat.le_refl _
  | cons first rest ih =>
      rw [openParents_cons, openParents_cons]
      refine Nat.add_le_add ?_ ih
      by_cases hseen : first.name ∈ visited
      · simp [hseen]
      · rw [if_neg hseen]
        split <;> omega

/-- The parents of a type that is looked at are open no longer. -/
theorem openParents_add_le {visited : List String} {t : TypeDefinition} (hmem : t ∈ types)
    (hfresh : t.name ∉ visited) :
    openParents types (t.name :: visited) + t.parents.length ≤ openParents types visited := by
  induction types with
  | nil => cases hmem
  | cons first rest ih =>
      rw [openParents_cons, openParents_cons]
      rcases List.mem_cons.1 hmem with rfl | hrest
      · have hmono := openParents_cons_le rest visited t.name
        rw [if_pos List.mem_cons_self, if_neg hfresh]
        omega
      · have hstep := ih hrest
        by_cases hseen : first.name ∈ visited
        · rw [if_pos (List.mem_cons_of_mem t.name hseen), if_pos hseen]
          omega
        · rw [if_neg hseen]
          split <;> omega

/-- A search under way. -/
structure Search where
  /-- Names that have been looked at. -/
  visited : List String
  /-- Names to look at, the next one first, some of them more than once. -/
  pending : List String

namespace Search

/-- One look: the answer, or the search that is left. -/
def look (types : List TypeDefinition) (target : String) (s : Search) : Bool ⊕ Search :=
  match s.pending with
  | [] => .inl false
  | name :: pending =>
    if name ∈ s.visited then .inr ⟨s.visited, pending⟩
    else
      match lastType? types name with
      | none => .inr ⟨name :: s.visited, pending⟩
      | some t =>
        if target ∈ t.interfaces then .inl true
        else .inr ⟨name :: s.visited, t.parents ++ pending⟩

/-- The answer, if so many looks come to one. -/
def answer? (types : List TypeDefinition) (target : String) : Nat → Search → Option Bool
  | 0, _ => none
  | looks + 1, s =>
    match s.look types target with
    | .inl answer => some answer
    | .inr next => answer? types target looks next

/-- The names that can still be looked at, as often as they can be. -/
def remaining (types : List TypeDefinition) (s : Search) : Nat :=
  s.pending.length + openParents types s.visited

/-- An answer is that of the search, and otherwise less is left to do. -/
theorem look_cases (s : Search) :
    match s.look types target with
    | .inl answer => answer = reaches types target s.visited s.pending
    | .inr next =>
      next.remaining types < s.remaining types ∧
        reaches types target next.visited next.pending =
          reaches types target s.visited s.pending := by
  obtain ⟨visited, pending⟩ := s
  cases pending with
  | nil => simp [look, reaches]
  | cons name pending =>
      by_cases hseen : name ∈ visited
      · rw [reaches_of_seen hseen]
        simp [look, remaining, hseen]
      · cases hfound : lastType? types name with
        | none =>
            have hmono := openParents_cons_le types visited name
            rw [reaches_of_missing hseen hfound]
            simp only [look, remaining, hseen, hfound, if_false, List.length_cons, and_true]
            omega
        | some t =>
            obtain ⟨hmem, rfl⟩ := lastType?_eq_some hfound
            have hopen := openParents_add_le hmem hseen
            rw [reaches_of_found hseen hfound]
            by_cases hown : target ∈ t.interfaces
            · simp [look, hseen, hfound, hown]
            · simp only [look, remaining, hseen, hfound, hown, if_false, List.length_cons,
                List.length_append, decide_false, Bool.false_or, and_true]
              omega

/-- With more looks than names can be looked at, the search has ended. -/
theorem answer?_eq_some (looks : Nat) (s : Search) (hlooks : s.remaining types < looks) :
    s.answer? types target looks = some (reaches types target s.visited s.pending) := by
  induction looks generalizing s with
  | zero => exact absurd hlooks (Nat.not_lt_zero _)
  | succ looks ih =>
      have hlook := @look_cases types target s
      rw [answer?]
      cases hresult : s.look types target with
      | inl answer =>
          rw [hresult] at hlook
          exact congrArg some hlook
      | inr next =>
          rw [hresult] at hlook
          obtain ⟨hless, hsame⟩ := hlook
          exact (ih next (by omega)).trans (congrArg some hsame)

end Search

/-! ## Types of a codebase -/

theorem TypeDefinition.mem_parents_iff {t : TypeDefinition} {parent : String} :
    parent ∈ t.parents ↔ parent ∈ t.interfaces ∨ t.baseType = some parent ∧ parent ≠ "" := by
  simp [parents, or_comm]

namespace Codebase

/-- A definition is the last one that is loaded under its name. -/
def Defines (c : Codebase) (name : String) (t : TypeDefinition) : Prop :=
  ∃ before after, c.types = before ++ t :: after ∧ t.name = name ∧
    ∀ later ∈ after, later.name ≠ name

/-- A loaded type names another as an interface or as its base type. -/
def Extends (c : Codebase) (child parent : String) : Prop :=
  ∃ t, c.Defines child t ∧
    (parent ∈ t.interfaces ∨ t.baseType = some parent ∧ parent ≠ "")

variable {c : Codebase}

theorem lastType?_eq_some_iff {name : String} {t : TypeDefinition} :
    lastType? c.types name = some t ↔ c.Defines name t := by
  simp [lastType?, find?_reverse_eq_some_iff, Defines]

theorem inherits_iff_extends {child parent : String} :
    Inherits c.types child parent ↔ c.Extends child parent := by
  simp only [Inherits, Extends, lastType?_eq_some_iff, TypeDefinition.mem_parents_iff]

/--
**Interfaces by reachability.** Whatever the types of a codebase name as
their parents, themselves and missing types included, the search for an
interface comes to an answer within two looks more than all types together
have parents, and the answer is whether a chain of loaded types leads from
the given name to one that declares the interface.
-/
theorem implements_decides (c : Codebase) (typeName interfaceName : String) :
    (Search.mk [] [typeName]).answer? c.types interfaceName
        ((c.types.flatMap TypeDefinition.parents).length + 2) =
        some (c.implements typeName interfaceName) ∧
      (c.implements typeName interfaceName = true ↔
        ∃ name, Relation.ReflTransGen c.Extends typeName name ∧
          ∃ t, c.Defines name t ∧ interfaceName ∈ t.interfaces) := by
  have hsteps : Inherits c.types = c.Extends := by
    funext child parent
    exact propext inherits_iff_extends
  constructor
  · refine Search.answer?_eq_some _ _ ?_
    simp only [Search.remaining, openParents_nil, List.length_singleton]
    omega
  · rw [implements, reaches_singleton_iff, hsteps]
    simp only [Declares, lastType?_eq_some_iff]

end Codebase

end DisposalAudit
