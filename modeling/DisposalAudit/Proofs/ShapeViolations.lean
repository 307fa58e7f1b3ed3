import DisposalAudit.Dump.Shape
import DisposalAudit.Proofs.WholeCounts
import Mathlib.Data.List.Basic

/-!
# All violations of a shape

A value is compared with a shape part by part, and what is wrong with a part
does not depend on where it stands or on what is wrong elsewhere. So the
violations of a value can be told without the comparison: they are the faults
of the parts that the shape leads to, each with the path of the part.

## Main definitions

* `Shape.Conforms` — a value has a shape at every depth.
* `Shape.Leads`, `Shape.Breaks` — the parts that a shape leads to, and what
  is wrong with one of them.
* `Shape.ownFaults`, `Shape.parts` — the same as lists, in reporting order.

## Main results

* `Shape.violations_nil_eq` — a value is reported before its parts.
* `Shape.mem_violations_iff` — the violations that are reported.
* `Shape.violations_eq_nil_iff` — the values without violations.
-/

namespace DisposalAudit

/-! ## Parts of values -/

/-- The part of a value that a step leads to. -/
def Value.part? : Value → PathStep → Option Value
  | .list values, .item index => values[index]?
  | .record members, .member name => Members.get? members name
  | _, _ => none

namespace Shape

/-- The shape that parts have at a step. -/
inductive At : Shape → PathStep → Shape → Prop
  | item {nonempty : Bool} {item : Shape} {index : Nat} :
      At (.list nonempty item) (.item index) item
  | member {fields : List (String × Bool × Shape)} {name : String} {isRequired : Bool}
      {shape : Shape} (field : (name, isRequired, shape) ∈ fields) :
      At (.record fields) (.member name) shape

/-- A path from a value to a part of it, along the shape of the value to that
of the part. -/
inductive Leads : Shape → Value → List PathStep → Shape → Value → Prop
  | here {shape : Shape} {value : Value} : Leads shape value [] shape value
  | step {shape sub last : Shape} {value part target : Value} {step : PathStep}
      {path : List PathStep} (offered : shape.At step sub) (given : value.part? step = some part)
      (rest : Leads sub part path last target) : Leads shape value (step :: path) last target

/-- What is wrong with a value itself. -/
inductive Breaks : Shape → Value → ShapeFault → Prop
  | notText {nonempty : Bool} {value : Value} (other : ∀ s, value ≠ .text s) :
      Breaks (.text nonempty) value (.wrongKind "string")
  | emptyText : Breaks (.text true) (.text "") .emptyText
  | notBool {value : Value} (other : ∀ b, value ≠ .bool b) :
      Breaks .bool value (.wrongKind "boolean")
  | notInteger {value : Value}
      (other : ∀ n, value = .number n → ¬ n.IsInteger ∧ ∀ negative, n ≠ .infinite negative) :
      Breaks .count value (.wrongKind "integer")
  | negative {n : Number} (below : n = .nan ∨ n < 0) : Breaks .count (.number n) .negative
  | noChoice {names : List String} {value : Value} (other : ∀ s ∈ names, value ≠ .text s) :
      Breaks (.choice names) value .noChoice
  | notList {nonempty : Bool} {item : Shape} {value : Value}
      (other : ∀ values, value ≠ .list values) :
      Breaks (.list nonempty item) value (.wrongKind "array")
  | emptyList {item : Shape} : Breaks (.list true item) (.list []) .emptyList
  | notRecord {fields : List (String × Bool × Shape)} {value : Value}
      (other : ∀ members, value ≠ .record members) :
      Breaks (.record fields) value (.wrongKind "object")
  | missing {fields : List (String × Bool × Shape)} {members : Members} {name : String}
      {shape : Shape} (required : (name, true, shape) ∈ fields)
      (absent : Members.get? members name = none) :
      Breaks (.record fields) (.record members) (.missing name)
  | unknown {fields : List (String × Bool × Shape)} {members : Members} {name : String}
      {value : Value} (given : (name, value) ∈ members) (other : name ∉ fields.map Prod.fst) :
      Breaks (.record fields) (.record members) .unknownMember

/-- A value has a shape, and so have all its parts. -/
inductive Conforms : Shape → Value → Prop
  | text {nonempty : Bool} {s : String} (given : nonempty = true → s ≠ "") :
      Conforms (.text nonempty) (.text s)
  | bool {b : Bool} : Conforms .bool (.bool b)
  | count {n : Number} (isCount : n.IsCount ∨ n.IsLimit) : Conforms .count (.number n)
  | choice {names : List String} {s : String} (listed : s ∈ names) :
      Conforms (.choice names) (.text s)
  | list {nonempty : Bool} {item : Shape} {values : List Value}
      (given : nonempty = true → values ≠ []) (items : ∀ value ∈ values, Conforms item value) :
      Conforms (.list nonempty item) (.list values)
  | record {fields : List (String × Bool × Shape)} {members : Members}
      (required : ∀ field ∈ fields, field.2.1 = true → Members.get? members field.1 ≠ none)
      (known : ∀ member ∈ members, member.1 ∈ fields.map Prod.fst)
      (parts : ∀ field ∈ fields, ∀ value, Members.get? members field.1 = some value →
        Conforms field.2.2 value) :
      Conforms (.record fields) (.record members)

/-! ## One value and its parts -/

/-- Faults of a value itself, in their order. -/
def ownFaults : Shape → Value → List ShapeFault
  | .text nonempty, .text s => if nonempty && s.isEmpty then [.emptyText] else []
  | .text _, _ => [.wrongKind "string"]
  | .bool, .bool _ => []
  | .bool, _ => [.wrongKind "boolean"]
  | .count, .number n =>
    (if n.isWhole then [] else [.wrongKind "integer"]) ++
      (if n.isNonnegative then [] else [.negative])
  | .count, _ => [.wrongKind "integer"]
  | .choice names, .text s => if names.contains s then [] else [.noChoice]
  | .choice _, _ => [.noChoice]
  | .list nonempty _, .list values => if nonempty && values.isEmpty then [.emptyList] else []
  | .list _ _, _ => [.wrongKind "array"]
  | .record fields, .record members =>
    ((fields.filter fun field => field.2.1 && (Members.get? members field.1).isNone).map
        fun field => .missing field.1) ++
      (members.filter fun member => !(fields.any fun field => field.1 = member.1)).map
        fun _ => .unknownMember
  | .record _, _ => [.wrongKind "object"]

/-- The parts of a value that are looked at, in their order. -/
def parts : Shape → Value → List (PathStep × Shape × Value)
  | .list _ item, .list values => values.zipIdx.map fun (value, index) => (.item index, item, value)
  | .record fields, .record members => fields.filterMap fun field =>
    (Members.get? members field.1).map fun value => (.member field.1, field.2.2, value)
  | _, _ => []

variable {shape sub : Shape} {value part : Value} {step : PathStep} {path : List PathStep}
  {fault : ShapeFault}

theorem mem_parts_iff :
    (step, sub, part) ∈ shape.parts value ↔ shape.At step sub ∧ value.part? step = some part := by
  constructor
  · intro h
    unfold parts at h
    split at h
    · obtain ⟨⟨entry, index⟩, hentry, heq⟩ := List.mem_map.1 h
      cases heq
      exact ⟨.item, List.mk_mem_zipIdx_iff_getElem?.1 hentry⟩
    · obtain ⟨⟨name, isRequired, shape⟩, hfield, heq⟩ := List.mem_filterMap.1 h
      obtain ⟨entry, hentry, heq⟩ := Option.map_eq_some_iff.1 heq
      cases heq
      exact ⟨.member hfield, hentry⟩
    · cases h
  · rintro ⟨hat, hpart⟩
    cases hat with
    | item =>
        cases value with
        | list values =>
            exact List.mem_map.2 ⟨(part, _), List.mk_mem_zipIdx_iff_getElem?.2 hpart, rfl⟩
        | _ => cases hpart
    | member hfield =>
        cases value with
        | record members =>
            exact List.mem_filterMap.2 ⟨_, hfield, Option.map_eq_some_iff.2 ⟨part, hpart, rfl⟩⟩
        | _ => cases hpart

theorem fieldViolations_eq (path : List PathStep) (members : Members)
    (fields : List (String × Bool × Shape)) :
    fieldViolations path members fields =
      (parts (.record fields) (.record members)).flatMap fun p =>
        p.2.1.violations (path ++ [p.1]) p.2.2 := by
  induction fields with
  | nil => rfl
  | cons field rest ih =>
      obtain ⟨name, isRequired, shape⟩ := field
      rw [fieldViolations, ih, parts, parts, List.filterMap_cons]
      cases Members.get? members name <;> rfl

/-- A value is listed before its parts, and these one after the other. -/
theorem violations_eq (path : List PathStep) (shape : Shape) (value : Value) :
    shape.violations path value =
      (shape.ownFaults value).map (Violation.mk path) ++
        (shape.parts value).flatMap fun p => p.2.1.violations (path ++ [p.1]) p.2.2 := by
  cases shape with
  | text nonempty =>
      cases value with
      | text s => simp only [violations, ownFaults, parts]; split <;> rfl
      | _ => simp [violations, ownFaults, parts]
  | bool => cases value <;> simp [violations, ownFaults, parts]
  | count =>
      cases value with
      | number n =>
          simp only [violations, ownFaults, parts, List.map_append, List.flatMap_nil,
            List.append_nil]
          split <;> split <;> rfl
      | _ => simp [violations, ownFaults, parts]
  | choice names =>
      cases value with
      | text s => simp only [violations, ownFaults, parts]; split <;> rfl
      | _ => simp [violations, ownFaults, parts]
  | list nonempty item =>
      cases value with
      | list values =>
          simp only [violations, ownFaults, parts, List.flatMap_map]
          split <;> rfl
      | _ => simp [violations, ownFaults, parts]
  | record fields =>
      cases value with
      | record members =>
          rw [violations, fieldViolations_eq, missing, unknown, ownFaults, List.map_append,
            List.map_map, List.map_map]
          rfl
      | _ => simp [violations, ownFaults, parts]

/-! ## Where a value stands -/

theorem sizeOf_lt_of_at (h : shape.At step sub) : sizeOf sub < sizeOf shape := by
  cases h with
  | item => simp
  | member hfield =>
      have hlt := List.sizeOf_lt_of_mem hfield
      simp only [Prod.mk.sizeOf_spec] at hlt
      simp only [record.sizeOf_spec]
      omega

end Shape

/-- A violation of a part, as a violation of the value that a path leads from. -/
def Violation.under (path : List PathStep) (v : Violation) : Violation := ⟨path ++ v.path, v.fault⟩

namespace Shape

variable {shape sub : Shape} {value part : Value} {step : PathStep} {path : List PathStep}
  {fault : ShapeFault}

/-- Where a value stands shows in the paths of its violations only. -/
theorem violations_under (path : List PathStep) (shape : Shape) (value : Value) :
    shape.violations path value = (shape.violations [] value).map (Violation.under path) := by
  rw [violations_eq path, violations_eq [], List.map_append, List.map_map, List.map_flatMap]
  congr 1
  · simp [Violation.under, Function.comp_def]
  · refine List.flatMap_congr fun p hp => ?_
    obtain ⟨step, sub, part⟩ := p
    -- the shape of a part is smaller, so the part may stand at either path
    have hlt := sizeOf_lt_of_at (mem_parts_iff.1 hp).1
    rw [violations_under (path ++ [step]) sub part, violations_under ([] ++ [step]) sub part,
      List.map_map]
    simp [Violation.under, Function.comp_def]
termination_by sizeOf shape

theorem violations_nil_eq (shape : Shape) (value : Value) :
    shape.violations [] value =
      (shape.ownFaults value).map (Violation.mk []) ++
        (shape.parts value).flatMap fun p =>
          (p.2.1.violations [] p.2.2).map (Violation.under [p.1]) := by
  rw [violations_eq []]
  congr 1
  refine List.flatMap_congr fun p _ => ?_
  rw [violations_under ([] ++ [p.1]), List.nil_append]

/-! ## Which violations there are -/

/-- A name that no field has. -/
theorem any_name_eq_false_iff {fields : List (String × Bool × Shape)} {name : String} :
    (fields.any fun field => field.1 = name) = false ↔ name ∉ fields.map Prod.fst := by
  rw [List.any_eq_false, List.mem_map]
  simp only [decide_eq_true_eq, not_exists, not_and]

theorem breaks_of_mem_count {n : Number} (h : fault ∈ count.ownFaults (.number n)) :
    count.Breaks (.number n) fault := by
  rcases List.mem_append.1 h with hkind | hsign
  · split at hkind
    · cases hkind
    · rename_i hwhole
      rw [Number.isWhole_iff, not_or, not_exists] at hwhole
      rw [List.mem_singleton.1 hkind]
      refine .notInteger fun n hn => ?_
      cases hn
      exact hwhole
  · split at hsign
    · cases hsign
    · rename_i hbelow
      rw [Number.isNonnegative_iff, not_and_or, Classical.not_not, Classical.not_not] at hbelow
      rw [List.mem_singleton.1 hsign]
      exact .negative hbelow

theorem breaks_of_mem_record {fields : List (String × Bool × Shape)} {members : Members}
    (h : fault ∈ (record fields).ownFaults (.record members)) :
    (record fields).Breaks (.record members) fault := by
  rcases List.mem_append.1 h with hmissing | hunknown
  · obtain ⟨⟨name, isRequired, shape⟩, hfield, rfl⟩ := List.mem_map.1 hmissing
    obtain ⟨hfield, habsent⟩ := List.mem_filter.1 hfield
    simp only [Bool.and_eq_true, Option.isNone_iff_eq_none] at habsent
    obtain ⟨rfl, habsent⟩ := habsent
    exact .missing hfield habsent
  · obtain ⟨⟨name, part⟩, hmember, rfl⟩ := List.mem_map.1 hunknown
    obtain ⟨hmember, hother⟩ := List.mem_filter.1 hmember
    rw [Bool.not_eq_true', any_name_eq_false_iff] at hother
    exact .unknown hmember hother

theorem breaks_of_mem_ownFaults (h : fault ∈ shape.ownFaults value) : shape.Breaks value fault := by
  cases shape with
  | text nonempty =>
      cases value with
      | text s =>
          simp only [ownFaults, List.mem_ite_nil_right, List.mem_singleton, Bool.and_eq_true,
            String.isEmpty_iff] at h
          obtain ⟨⟨rfl, rfl⟩, rfl⟩ := h
          exact .emptyText
      | _ =>
          rw [List.mem_singleton.1 h]
          exact .notText nofun
  | bool =>
      cases value with
      | bool b => cases h
      | _ =>
          rw [List.mem_singleton.1 h]
          exact .notBool nofun
  | count =>
      cases value with
      | number n => exact breaks_of_mem_count h
      | _ =>
          rw [List.mem_singleton.1 h]
          exact .notInteger nofun
  | choice names =>
      cases value with
      | text s =>
          simp only [ownFaults, List.mem_ite_nil_left, List.mem_singleton,
            List.contains_iff_mem] at h
          obtain ⟨hnot, rfl⟩ := h
          refine .noChoice fun s' hs' heq => hnot ?_
          cases heq
          exact hs'
      | _ =>
          rw [List.mem_singleton.1 h]
          exact .noChoice nofun
  | list nonempty item =>
      cases value with
      | list values =>
          simp only [ownFaults, List.mem_ite_nil_right, List.mem_singleton, Bool.and_eq_true,
            List.isEmpty_iff] at h
          obtain ⟨⟨rfl, rfl⟩, rfl⟩ := h
          exact .emptyList
      | _ =>
          rw [List.mem_singleton.1 h]
          exact .notList nofun
  | record fields =>
      cases value with
      | record members => exact breaks_of_mem_record h
      | _ =>
          rw [List.mem_singleton.1 h]
          exact .notRecord nofun

theorem mem_ownFaults_of_breaks (h : shape.Breaks value fault) : fault ∈ shape.ownFaults value := by
  cases h with
  | notText other =>
      cases value with
      | text s => exact absurd rfl (other s)
      | _ => simp [ownFaults]
  | emptyText => simp [ownFaults]
  | notBool other =>
      cases value with
      | bool b => exact absurd rfl (other b)
      | _ => simp [ownFaults]
  | notInteger other =>
      cases value with
      | number n =>
          have hwhole : ¬ n.isWhole = true := by
            rw [Number.isWhole_iff, not_or, not_exists]
            exact other n rfl
          exact List.mem_append_left _ (by rw [if_neg hwhole]; exact List.mem_singleton_self _)
      | _ => simp [ownFaults]
  | @negative n below =>
      have hsign : ¬ n.isNonnegative = true := by
        rw [Number.isNonnegative_iff, not_and_or, Classical.not_not, Classical.not_not]
        exact below
      exact List.mem_append_right _ (by rw [if_neg hsign]; exact List.mem_singleton_self _)
  | @noChoice names _ other =>
      cases value with
      | text s =>
          have hnot : s ∉ names := fun hs => other s hs rfl
          simp [ownFaults, hnot]
      | _ => simp [ownFaults]
  | notList other =>
      cases value with
      | list values => exact absurd rfl (other values)
      | _ => simp [ownFaults]
  | emptyList => simp [ownFaults]
  | notRecord other =>
      cases value with
      | record members => exact absurd rfl (other members)
      | _ => simp [ownFaults]
  | missing required absent =>
      refine List.mem_append_left _ (List.mem_map.2 ⟨_, List.mem_filter.2 ⟨required, ?_⟩, rfl⟩)
      simp [absent]
  | unknown given other =>
      refine List.mem_append_right _ (List.mem_map.2 ⟨_, List.mem_filter.2 ⟨given, ?_⟩, rfl⟩)
      rw [Bool.not_eq_true', any_name_eq_false_iff]
      exact other

theorem mem_ownFaults_iff : fault ∈ shape.ownFaults value ↔ shape.Breaks value fault :=
  ⟨breaks_of_mem_ownFaults, mem_ownFaults_of_breaks⟩

theorem mem_violations_nil_iff :
    ⟨[], fault⟩ ∈ shape.violations [] value ↔ fault ∈ shape.ownFaults value := by
  rw [violations_nil_eq]
  simp [Violation.under]

theorem mem_violations_cons_iff :
    ⟨step :: path, fault⟩ ∈ shape.violations [] value ↔
      ∃ sub part, (step, sub, part) ∈ shape.parts value ∧
        ⟨path, fault⟩ ∈ sub.violations [] part := by
  rw [violations_nil_eq, List.mem_append, List.mem_flatMap]
  constructor
  · rintro (hown | ⟨⟨step', sub, part⟩, hpart, hmem⟩)
    · obtain ⟨_, -, heq⟩ := List.mem_map.1 hown
      cases heq
    · obtain ⟨v, hv, heq⟩ := List.mem_map.1 hmem
      cases heq
      exact ⟨sub, part, hpart, hv⟩
  · rintro ⟨sub, part, hpart, hmem⟩
    exact .inr ⟨_, hpart, List.mem_map.2 ⟨_, hmem, rfl⟩⟩

/-- The violations are the faults of the parts that the shape leads to. -/
theorem mem_violations_iff :
    ⟨path, fault⟩ ∈ shape.violations [] value ↔
      ∃ sub part, shape.Leads value path sub part ∧ sub.Breaks part fault := by
  induction path generalizing shape value with
  | nil =>
      rw [mem_violations_nil_iff, mem_ownFaults_iff]
      constructor
      · intro h
        exact ⟨shape, value, .here, h⟩
      · rintro ⟨_, _, hleads, hbreaks⟩
        cases hleads
        exact hbreaks
  | cons step path ih =>
      simp only [mem_violations_cons_iff, mem_parts_iff, ih]
      constructor
      · rintro ⟨sub, part, ⟨hat, hpart⟩, last, target, hleads, hbreaks⟩
        exact ⟨last, target, .step hat hpart hleads, hbreaks⟩
      · rintro ⟨last, target, hleads, hbreaks⟩
        cases hleads with
        | step hat hpart hrest => exact ⟨_, _, ⟨hat, hpart⟩, last, target, hrest, hbreaks⟩

/-! ## The values without violations -/

theorem Conforms.not_breaks (h : shape.Conforms value) : ¬ shape.Breaks value fault := by
  intro hbreaks
  cases hbreaks with
  | notText other => cases h; exact other _ rfl
  | emptyText => cases h with | text given => exact given rfl rfl
  | notBool other => cases h; exact other _ rfl
  | notInteger other =>
      cases h with
      | count isCount =>
          obtain ⟨hinteger, hfinite⟩ := other _ rfl
          rcases isCount with hcount | hlimit
          · exact hinteger hcount.1
          · exact hfinite _ hlimit
  | negative below =>
      cases h with
      | count isCount =>
          obtain ⟨hnan, hsign⟩ :=
            Number.isNonnegative_iff.1 (Number.isCount_or_isLimit_iff.1 isCount).2
          exact below.elim hnan hsign
  | noChoice other => cases h with | choice listed => exact other _ listed rfl
  | notList other => cases h; exact other _ rfl
  | emptyList => cases h with | list given => exact given rfl rfl
  | notRecord other => cases h; exact other _ rfl
  | missing hfield absent => cases h with | record required => exact required _ hfield rfl absent
  | unknown given other => cases h with | record _ known => exact other (known _ given)

theorem Conforms.at (h : shape.Conforms value) (hat : shape.At step sub)
    (hpart : value.part? step = some part) : sub.Conforms part := by
  cases hat with
  | item => cases h with | list _ items => exact items part (List.mem_of_getElem? hpart)
  | member hfield => cases h with | record _ _ parts => exact parts _ hfield part hpart

/-- A value without faults whose parts have their shapes has its shape. -/
theorem conforms_of_parts (hfine : ∀ fault, ¬ shape.Breaks value fault)
    (hparts : ∀ step sub part, shape.At step sub → value.part? step = some part →
      sub.Conforms part) : shape.Conforms value := by
  cases shape with
  | text nonempty =>
      cases value with
      | text s =>
          refine .text fun hnonempty hempty => ?_
          subst hnonempty hempty
          exact hfine _ .emptyText
      | _ => exact absurd (.notText nofun) (hfine _)
  | bool =>
      cases value with
      | bool b => exact .bool
      | _ => exact absurd (.notBool nofun) (hfine _)
  | count =>
      cases value with
      | number n =>
          have hown : count.ownFaults (.number n) = [] :=
            List.eq_nil_iff_forall_not_mem.2 fun fault hmem => hfine fault (breaks_of_mem_count hmem)
          rw [ownFaults, List.append_eq_nil_iff] at hown
          exact .count (Number.isCount_or_isLimit_iff.2 (by simpa using hown))
      | _ => exact absurd (.notInteger nofun) (hfine _)
  | choice names =>
      cases value with
      | text s =>
          by_cases hs : s ∈ names
          · exact .choice hs
          · exact absurd (.noChoice fun s' hs' heq => hs (by cases heq; exact hs')) (hfine _)
      | _ => exact absurd (.noChoice nofun) (hfine _)
  | list nonempty item =>
      cases value with
      | list values =>
          refine .list (fun hnonempty hempty => ?_) fun entry hentry => ?_
          · subst hnonempty hempty
            exact hfine _ .emptyList
          · obtain ⟨i, hi⟩ := List.mem_iff_getElem?.1 hentry
            exact hparts (.item i) item entry .item hi
      | _ => exact absurd (.notList nofun) (hfine _)
  | record fields =>
      cases value with
      | record members =>
          refine .record (fun field hfield hrequired habsent => ?_) (fun member hmember => ?_)
            fun field hfield entry hentry => ?_
          · obtain ⟨name, _, shape⟩ := field
            subst hrequired
            exact hfine _ (.missing hfield habsent)
          · by_cases hknown : member.1 ∈ fields.map Prod.fst
            · exact hknown
            · exact absurd (.unknown hmember hknown) (hfine _)
          · exact hparts (.member field.1) field.2.2 entry (.member hfield) hentry
      | _ => exact absurd (.notRecord nofun) (hfine _)

/-- A value has a shape if nothing is wrong with any part that the shape leads
to. -/
theorem conforms_of_leads {shape : Shape} {value : Value}
    (hfine : ∀ path sub part fault, shape.Leads value path sub part → ¬ sub.Breaks part fault) :
    shape.Conforms value := by
  refine conforms_of_parts (fun fault => hfine [] shape value fault .here) ?_
  intro step sub part hat hpart
  -- the induction is on the shape, which is smaller at every step
  have hlt := sizeOf_lt_of_at hat
  exact conforms_of_leads fun path last target fault hleads =>
    hfine (step :: path) last target fault (.step hat hpart hleads)
termination_by sizeOf shape

theorem Leads.conforms (h : shape.Leads value path sub part) (hconforms : shape.Conforms value) :
    sub.Conforms part := by
  induction h with
  | here => exact hconforms
  | step hat hpart _ ih => exact ih (hconforms.at hat hpart)

/-- The values without violations are those that have the shape at every
depth. -/
theorem violations_eq_nil_iff : shape.violations [] value = [] ↔ shape.Conforms value := by
  constructor
  · intro hnil
    refine conforms_of_leads fun path sub part fault hleads hbreaks => ?_
    have hmem : ⟨path, fault⟩ ∈ shape.violations [] value :=
      mem_violations_iff.2 ⟨sub, part, hleads, hbreaks⟩
    rw [hnil] at hmem
    cases hmem
  · intro hconforms
    refine List.eq_nil_iff_forall_not_mem.2 fun v hv => ?_
    obtain ⟨sub, part, hleads, hbreaks⟩ := mem_violations_iff.1 hv
    exact (hleads.conforms hconforms).not_breaks hbreaks

end Shape

end DisposalAudit
