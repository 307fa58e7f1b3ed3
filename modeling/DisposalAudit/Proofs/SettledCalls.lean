import DisposalAudit.Proofs.LoadOrder

/-!
# Settled calls

A load settles the calls that their dumps leave open, and touches nothing
else. A call that is settled stays as it is, so of several loads only the
first one counts, and a module that has been loaded is left alone by every
later load.

How many values an instruction takes changes in one case only: an open call
counts as one to an instance method, so that settling it can take the
instance away, and never adds one.

## Main definitions

* `Operand.reference?` — the method that an operand refers to.
* `Codebase.passesThis` — whether an open call comes to pass an instance.
* `MethodRef.settledBy` — a reference after the first load, if there was one.
* `Instruction.LosesThis` — an open call to a static method.
* `Module.IsSettled` — a module that no load changes.

## Main results

* `Module.mapRefs_settledBy_settledBy` — the first load decides.
* `Instruction.stackEffect?_settle_of_losesThis`,
  `Instruction.stackEffect?_settle_of_not_losesThis` — stack effects.
* `Method.facts_mapRefs` — the facts about a body do not change.
-/

namespace DisposalAudit

/-! ## References -/

/-- The method that an operand refers to. -/
def Operand.reference? : Operand → Option MethodRef
  | method ref => some ref
  | _ => none

section MapRefs

variable (f g : MethodRef → MethodRef)

theorem Instruction.mapRef_mapRef (ins : Instruction) :
    (ins.mapRef f).mapRef g = ins.mapRef fun ref => g (f ref) := by
  obtain ⟨offset, opcode, operand, flow, stack, mnemonic⟩ := ins
  cases operand <;> rfl

theorem Instruction.mapRef_id (ins : Instruction) : (ins.mapRef fun ref => ref) = ins := by
  obtain ⟨offset, opcode, operand, flow, stack, mnemonic⟩ := ins
  cases operand <;> rfl

theorem Method.mapRefs_mapRefs (m : Method) :
    (m.mapRefs f).mapRefs g = m.mapRefs fun ref => g (f ref) := by
  show { m with body := (m.body.map (Instruction.mapRef f)).map (Instruction.mapRef g) } = _
  rw [List.map_map]
  exact congrArg (fun body => { m with body := body })
    (List.map_congr_left fun ins _ => Instruction.mapRef_mapRef f g ins)

theorem TypeDefinition.mapRefs_mapRefs (t : TypeDefinition) :
    (t.mapRefs f).mapRefs g = t.mapRefs fun ref => g (f ref) := by
  show { t with methods := (t.methods.map (Method.mapRefs f)).map (Method.mapRefs g) } = _
  rw [List.map_map]
  exact congrArg (fun methods => { t with methods := methods })
    (List.map_congr_left fun m _ => Method.mapRefs_mapRefs f g m)

theorem Module.mapRefs_mapRefs (a : Module) :
    (a.mapRefs f).mapRefs g = a.mapRefs fun ref => g (f ref) := by
  show { a with types := (a.types.map (TypeDefinition.mapRefs f)).map (TypeDefinition.mapRefs g) } =
    _
  rw [List.map_map]
  exact congrArg (fun types => { a with types := types })
    (List.map_congr_left fun t _ => TypeDefinition.mapRefs_mapRefs f g t)

theorem Module.mapRefs_id (a : Module) : (a.mapRefs fun ref => ref) = a := by
  have hmethod : ∀ m : Method, (m.mapRefs fun ref => ref) = m := fun m =>
    congrArg (fun body => { m with body := body }) (List.map_id'' Instruction.mapRef_id m.body)
  have htype : ∀ t : TypeDefinition, (t.mapRefs fun ref => ref) = t := fun t =>
    congrArg (fun methods => { t with methods := methods }) (List.map_id'' hmethod t.methods)
  exact congrArg (fun types => { a with types := types }) (List.map_id'' htype a.types)

@[simp] theorem Instruction.mapRef_opcode (ins : Instruction) :
    (ins.mapRef f).opcode = ins.opcode := by
  obtain ⟨offset, opcode, operand, flow, stack, mnemonic⟩ := ins
  cases operand <;> rfl

@[simp] theorem Instruction.mapRef_targets (ins : Instruction) :
    (ins.mapRef f).targets = ins.targets := by
  obtain ⟨offset, opcode, operand, flow, stack, mnemonic⟩ := ins
  cases operand <;> rfl

theorem Instruction.reference?_mapRef (ins : Instruction) :
    (ins.mapRef f).operand.reference? = ins.operand.reference?.map f := by
  obtain ⟨offset, opcode, operand, flow, stack, mnemonic⟩ := ins
  cases operand <;> rfl

/-- The facts about a body do not depend on what its calls pass. -/
@[simp] theorem Method.facts_mapRefs (m : Method) : (m.mapRefs f).facts = m.facts := by
  have hopcodes : (m.mapRefs f).opcodes = m.opcodes := by
    rw [opcodes, opcodes, mapRefs, List.foldl_map]
    simp only [Instruction.mapRef_opcode]
  have htargets : (m.mapRefs f).branchTargets = m.branchTargets := by
    rw [branchTargets, branchTargets, mapRefs, List.flatMap_map]
    simp only [Instruction.mapRef_targets]
  rw [facts, facts, hopcodes, htargets]

end MapRefs

/-! ## Settling -/

/-- Whether an open call comes to pass an instance in a codebase: not if its
callee is loaded and static. -/
def Codebase.passesThis (c : Codebase) (ref : MethodRef) : Bool :=
  match c.resolve? ref with
  | some callee => !callee.isStatic
  | none => true

/-- A reference after the first load, if there was one. -/
def MethodRef.settledBy : Option Codebase → MethodRef → MethodRef
  | none, ref => ref
  | some c, ref => ref.settle c.resolve?

theorem MethodRef.settle_of_given {ref : MethodRef} {given : Bool}
    (h : ref.hasThis = some given) (resolve? : MethodRef → Option Callee) :
    ref.settle resolve? = ref := by
  rw [settle, h]

theorem MethodRef.settle_of_open {ref : MethodRef} (h : ref.hasThis = none) (c : Codebase) :
    ref.settle c.resolve? = { ref with hasThis := some (c.passesThis ref) } := by
  rw [settle, h, Codebase.passesThis]
  cases c.resolve? ref <;> rfl

/-- A call is settled once. -/
theorem MethodRef.settle_settle (first second : MethodRef → Option Callee) (ref : MethodRef) :
    (ref.settle first).settle second = ref.settle first := by
  cases hthis : ref.hasThis with
  | some given => rw [settle_of_given hthis, settle_of_given hthis]
  | none =>
      have hsettled : (ref.settle first).hasThis =
          some ((first ref).all fun callee => !callee.isStatic) := by
        rw [settle, hthis]
      exact settle_of_given hsettled second

theorem MethodRef.settledBy_settledBy (first second : Option Codebase) (ref : MethodRef) :
    (ref.settledBy first).settledBy second = ref.settledBy (first.or second) := by
  cases first with
  | none => rfl
  | some c =>
      cases second with
      | none => rfl
      | some d => exact settle_settle c.resolve? d.resolve? ref

/-- Of two loads the first one decides. -/
theorem Module.mapRefs_settledBy_settledBy (first second : Option Codebase) (a : Module) :
    (a.mapRefs (MethodRef.settledBy first)).mapRefs (MethodRef.settledBy second) =
      a.mapRefs (MethodRef.settledBy (first.or second)) := by
  rw [mapRefs_mapRefs]
  congr 1
  funext ref
  exact ref.settledBy_settledBy first second

/-- A module with nothing left to settle. -/
def Module.IsSettled (a : Module) : Prop :=
  ∀ load : Option Codebase, a.mapRefs (MethodRef.settledBy load) = a

theorem Module.isSettled_mapRefs (c : Codebase) (a : Module) :
    (a.mapRefs (MethodRef.settledBy (some c))).IsSettled := by
  intro load
  rw [mapRefs_settledBy_settledBy, Option.some_or]

/-- What a reference means does not depend on which calls are settled. -/
theorem Codebase.resolve?_link (c : Codebase) : c.link.resolve? = c.resolve? := by
  have hcallees : c.link.callees = c.callees := by
    rw [callees_eq, callees_eq, link, List.flatMap_map]
    simp only [callees_mapRefs]
  funext ref
  rw [resolve?, resolve?, hcallees]

/-- A load gives every module with its calls settled by what it gives. -/
theorem Codebase.link_modules (c : Codebase) :
    c.link.modules = c.modules.map (Module.mapRefs (MethodRef.settledBy (some c.link))) := by
  have hsettle : MethodRef.settledBy (some c.link) = MethodRef.settle c.resolve? := by
    funext ref
    show ref.settle c.link.resolve? = ref.settle c.resolve?
    rw [resolve?_link]
  rw [hsettle]
  rfl

/-! ## Stack effects -/

namespace Instruction

/-- An open call to a method that is loaded and static. -/
def LosesThis (c : Codebase) (ins : Instruction) : Prop :=
  ∃ ref callee, ins.IsCall ∧ ins.operand = .method ref ∧ ref.hasThis = none ∧
    c.resolve? ref = some callee ∧ callee.isStatic = true

variable {c : Codebase} {ins : Instruction}

/-- An open call to a static method took one value too many. -/
theorem stackEffect?_settle_of_losesThis (h : ins.LosesThis c) :
    ∃ n push, ins.stackEffect? = some ⟨.ofNat (n + 1), push⟩ ∧
      (ins.mapRef (MethodRef.settledBy (some c))).stackEffect? = some ⟨.ofNat n, push⟩ := by
  obtain ⟨ref, callee, hcall, hoperand, hopen, hcallee, hstatic⟩ := h
  have hpasses : c.passesThis ref = false := by
    rw [Codebase.passesThis, hcallee]
    exact congrArg (!·) hstatic
  have hsettled : ref.settledBy (some c) = { ref with hasThis := some false } := by
    rw [← hpasses]
    exact MethodRef.settle_of_open hopen c
  have hbefore : ref.arity = .ofNat (ref.parameters.length + 1) := by
    rw [MethodRef.arity, hopen]
    rfl
  have hafter : (ref.settledBy (some c)).arity = .ofNat ref.parameters.length := by
    rw [hsettled]
    rfl
  have hreturn : (ref.settledBy (some c)).returnType = ref.returnType := by
    rw [hsettled]
  refine ⟨ref.parameters.length, if ref.returnType = voidType then 0 else 1, ?_, ?_⟩
  · rw [← hbefore]
    rcases hcall with hopcode | hopcode <;> simp only [stackEffect?, hopcode, hoperand]
  · rw [← hafter]
    rcases hcall with hopcode | hopcode <;>
      simp only [stackEffect?, mapRef, hopcode, hoperand, hreturn]

/-- Every other instruction takes and gives what it did. -/
theorem stackEffect?_settle_of_not_losesThis (h : ¬ ins.LosesThis c) :
    (ins.mapRef (MethodRef.settledBy (some c))).stackEffect? = ins.stackEffect? := by
  cases hoperand : ins.operand with
  | nothing => simp only [mapRef, hoperand]
  | field ref => simp only [mapRef, hoperand]
  | targets offsets => simp only [mapRef, hoperand]
  | method ref =>
      cases hthis : ref.hasThis with
      | some given =>
          have hsame : ref.settledBy (some c) = ref := MethodRef.settle_of_given hthis _
          simp only [mapRef, hoperand, hsame]
          rw [← hoperand]
      | none =>
          have hsettled : ref.settledBy (some c) =
              { ref with hasThis := some (c.passesThis ref) } := MethodRef.settle_of_open hthis c
          by_cases hcall : ins.IsCall
          · -- an open call that stays one to an instance method
            have hpasses : c.passesThis ref = true := by
              rw [Codebase.passesThis]
              cases hcallee : c.resolve? ref with
              | none => rfl
              | some callee =>
                  by_contra hstatic
                  exact h ⟨ref, callee, hcall, hoperand, hthis, hcallee, by simpa using hstatic⟩
            have harity : (ref.settledBy (some c)).arity = ref.arity := by
              rw [hsettled, hpasses, MethodRef.arity, MethodRef.arity, hthis]
              rfl
            have hreturn : (ref.settledBy (some c)).returnType = ref.returnType := by
              rw [hsettled]
            rcases hcall with hopcode | hopcode <;>
              simp only [stackEffect?, mapRef, hopcode, hoperand, harity, hreturn]
          · -- only calls count the instance among their values
            have hparameters : (ref.settledBy (some c)).parameters = ref.parameters := by
              rw [hsettled]
            rw [IsCall, not_or] at hcall
            simp only [stackEffect?, mapRef, hoperand]
            cases hopcode : ins.opcode with
            | none => rfl
            | some opcode => cases opcode <;> simp_all

end Instruction

end DisposalAudit
