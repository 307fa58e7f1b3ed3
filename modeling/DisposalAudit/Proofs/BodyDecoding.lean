import DisposalAudit.Proofs.BodyValidity
import DisposalAudit.Proofs.DumpShape
import Mathlib.Data.List.Forall2

/-!
# The bodies that a dump can be read for

Decoding never fails: what a dump leaves open, or says in a way that does
not suit the mnemonic, is found only by the check of the decoded body. Here
is what that check asks of the dump as it was written.

## Main definitions

* `Mnemonic.IsListed` — a name whose counts are known without the dump.
* `InstructionDump.IsReadable` — what an entry has to give for its mnemonic.
* `MethodDump.IsAnalyzable` — what a body has to give.
* `MethodDump.HasFiniteOffsets` — the offsets of a body are finite.

## Main results

* `InstructionDump.decode_fits_iff` — the entries whose instruction fits.
* `Module.hasValidBody_iff_isAnalyzable` — the bodies without a flaw.
-/

namespace DisposalAudit

/-! ## Mnemonics -/

namespace Mnemonic

/-- Names of instructions that take a method. -/
def calls : List String := ["call", "callvirt", "newobj"]

/-- Names of instructions that take a field. -/
def fieldAccesses : List String := ["ldfld", "stfld", "ldflda"]

/-- The counts of a lower-case name are known: by the table, or because they
follow from the method. -/
def IsListed (op : String) : Prop := op = "ret" ∨ op = "ldarg.0" ∨ ∃ row ∈ table, op ∈ row.2

variable {op returnType : String} {isStatic : Bool} {effect : StackEffect}

/-- The kinds of names exclude each other. -/
theorem calls_apart : ∀ op ∈ calls,
    op ∉ fieldAccesses ∧ op ≠ "ldarg.0" ∧ op ≠ "constructor" ∧ op ≠ "__proto__" := by
  decide

theorem fieldAccesses_apart : ∀ op ∈ fieldAccesses,
    op ∉ calls ∧ op ≠ "ldarg.0" ∧ op ≠ "constructor" ∧ op ≠ "__proto__" := by
  decide

theorem category?_of_reserved (h : op ∈ reserved) : category? op isStatic = none := by
  unfold category?
  rw [if_pos (List.contains_iff_mem.2 h)]

theorem category?_of_calls (h : op ∈ calls) :
    category? op isStatic = some .callDirect ∨ category? op isStatic = some .callVirtual ∨
      category? op isStatic = some .construct := by
  simp only [calls, List.mem_cons, List.not_mem_nil, or_false] at h
  rcases h with rfl | rfl | rfl
  · left; rfl
  · right; left; rfl
  · right; right; rfl

theorem category?_of_fieldAccesses (h : op ∈ fieldAccesses) :
    category? op isStatic = some .loadField ∨ category? op isStatic = some .storeField ∨
      category? op isStatic = some .loadFieldAddress := by
  simp only [fieldAccesses, List.mem_cons, List.not_mem_nil, or_false] at h
  rcases h with rfl | rfl | rfl
  · left; rfl
  · right; left; rfl
  · right; right; rfl

theorem category?_of_other (hreserved : op ∉ reserved) (hcall : op ∉ calls)
    (hfield : op ∉ fieldAccesses) (hself : ¬ (op = "ldarg.0" ∧ isStatic = false)) :
    category? op isStatic = some .other := by
  have hnamed : named.lookup op = none := by
    rw [List.lookup_eq_none_iff]
    simp only [calls, fieldAccesses, List.mem_cons, List.not_mem_nil, or_false, not_or]
      at hcall hfield
    simp [named, hcall, hfield]
  unfold category?
  rw [if_neg (fun h => hreserved (List.contains_iff_mem.1 h)), if_neg (by simpa using hself),
    hnamed]
  rfl

/-! ### Counts -/

theorem isSome_stackEffect?_iff : (stackEffect? op returnType).isSome = true ↔ IsListed op := by
  unfold stackEffect? IsListed
  by_cases hret : op = "ret"
  · simp [hret]
  · by_cases hself : op = "ldarg.0"
    · simp [hself]
    · rw [if_neg hret, if_neg hself, Option.isSome_map, List.find?_isSome]
      simp [hret, hself]

theorem stackEffect?_isCount (h : stackEffect? op returnType = some effect) :
    effect.pop.IsCount ∧ effect.push.IsCount := by
  unfold stackEffect? at h
  split at h
  · cases h
    refine ⟨?_, Number.isCount_ofNat 0⟩
    dsimp only
    split
    · exact Number.isCount_ofNat 0
    · exact Number.isCount_ofNat 1
  · split at h
    · cases h
      exact ⟨Number.isCount_ofNat 0, Number.isCount_ofNat 1⟩
    · obtain ⟨row, -, rfl⟩ := Option.map_eq_some_iff.1 h
      exact ⟨Number.isCount_ofNat row.1.1, Number.isCount_ofNat row.1.2⟩

theorem isSome_or_stackEffect?_iff (own : Option Number) (op returnType : String)
    (count : StackEffect → Number) :
    (own.or ((stackEffect? op returnType).map count)).isSome ↔ own.isSome ∨ IsListed op := by
  rw [Option.isSome_or, Option.isSome_map, Bool.or_eq_true, isSome_stackEffect?_iff]

/-- A count that is given or known is not negative. -/
theorem not_lt_zero_of_or_stackEffect? {own : Option Number} {count : StackEffect → Number}
    (hown : ∀ n, own = some n → n.IsCount ∨ n.IsLimit)
    (htable : ∀ effect, stackEffect? op returnType = some effect → (count effect).IsCount) :
    ∀ n, own.or ((stackEffect? op returnType).map count) = some n → ¬ n < 0 := by
  intro n hn
  rcases Option.or_eq_some_iff.1 hn with hfirst | ⟨-, hsecond⟩
  · exact (Number.isNonnegative_iff.1 (Number.isCount_or_isLimit_iff.1 (hown n hfirst)).2).2
  · obtain ⟨effect, heffect, rfl⟩ := Option.map_eq_some_iff.1 hsecond
    exact (htable effect heffect).2

end Mnemonic

/-! ## Entries -/

namespace InstructionDump

/-- The name in lower case. -/
def lowerOp (d : InstructionDump) : String := Mnemonic.fold d.op

/-- What an entry has to give for its mnemonic, in a method that is or is
not static. A method hides a field, and a field hides targets. -/
structure IsReadable (d : InstructionDump) (isStatic : Bool) : Prop where
  call : d.lowerOp ∈ Mnemonic.calls → d.method.isSome
  fieldAccess : d.lowerOp ∈ Mnemonic.fieldAccesses → d.field.isSome ∧ d.method = none
  self : d.lowerOp = "ldarg.0" → isStatic = false →
    d.method = none ∧ d.field = none ∧ d.targets = none
  unreserved : d.lowerOp ≠ "constructor" ∧ d.lowerOp ≠ "__proto__"
  counted : d.lowerOp ∉ Mnemonic.calls → d.lowerOp ∉ Mnemonic.fieldAccesses →
    ¬ (d.lowerOp = "ldarg.0" ∧ isStatic = false) →
    (d.pop.isSome ∨ Mnemonic.IsListed d.lowerOp) ∧ (d.push.isSome ∨ Mnemonic.IsListed d.lowerOp)

variable {d : InstructionDump} {isStatic : Bool} {op returnType : String}

theorem operand_kind_eq_method_iff : d.operand.kind = .method ↔ d.method.isSome := by
  unfold operand
  cases d.method <;> cases d.field <;> cases d.targets <;> simp [Operand.kind]

theorem operand_kind_eq_field_iff :
    d.operand.kind = .field ↔ d.field.isSome ∧ d.method = none := by
  unfold operand
  cases d.method <;> cases d.field <;> cases d.targets <;> simp [Operand.kind]

theorem operand_kind_eq_nothing_iff :
    d.operand.kind = .nothing ↔ d.method = none ∧ d.field = none ∧ d.targets = none := by
  unfold operand
  cases d.method <;> cases d.field <;> cases d.targets <;> simp [Operand.kind]

theorem mem_targets_decode_iff {target : Number} :
    target ∈ (d.decode isStatic returnType).targets ↔
      d.method = none ∧ d.field = none ∧
        ∃ offsets, d.targets = some offsets ∧ target ∈ offsets := by
  have hoperand : (d.decode isStatic returnType).operand = d.operand := rfl
  unfold Instruction.targets
  rw [hoperand]
  unfold operand
  cases d.method <;> cases d.field <;> cases d.targets <;> simp

/-- Both counts are found apart from each other: one may come from the entry
and the other from the table. -/
theorem exists_stackEffect?_iff (hcounts : d.HasCounts) :
    (∃ effect, d.stackEffect? op returnType = some effect ∧
        ¬ effect.pop < 0 ∧ ¬ effect.push < 0) ↔
      (d.pop.isSome ∨ Mnemonic.IsListed op) ∧ (d.push.isSome ∨ Mnemonic.IsListed op) := by
  have htable : ∀ effect, Mnemonic.stackEffect? op returnType = some effect →
      effect.pop.IsCount ∧ effect.push.IsCount := fun _ h => Mnemonic.stackEffect?_isCount h
  have hpop :=
    Mnemonic.not_lt_zero_of_or_stackEffect? hcounts.pop fun effect h => (htable effect h).1
  have hpush :=
    Mnemonic.not_lt_zero_of_or_stackEffect? hcounts.push fun effect h => (htable effect h).2
  rw [← Mnemonic.isSome_or_stackEffect?_iff d.pop op returnType StackEffect.pop,
    ← Mnemonic.isSome_or_stackEffect?_iff d.push op returnType StackEffect.push]
  unfold stackEffect?
  dsimp only
  cases hpopCount : d.pop.or ((Mnemonic.stackEffect? op returnType).map StackEffect.pop) with
  | none => simp
  | some pop =>
      cases hpushCount : d.push.or ((Mnemonic.stackEffect? op returnType).map StackEffect.push) with
      | none => simp
      | some push => simp [hpop pop hpopCount, hpush push hpushCount]

/-! ### One kind of name at a time -/

theorem isReadable_iff_of_calls (hcall : d.lowerOp ∈ Mnemonic.calls) :
    d.IsReadable isStatic ↔ d.method.isSome := by
  obtain ⟨hfield, hself, hunreserved⟩ := Mnemonic.calls_apart _ hcall
  constructor
  · intro h
    exact h.call hcall
  · intro hmethod
    exact
      { call := fun _ => hmethod
        fieldAccess := fun h => absurd h hfield
        self := fun h => absurd h hself
        unreserved := hunreserved
        counted := fun h => absurd hcall h }

theorem isReadable_iff_of_fieldAccesses (hfield : d.lowerOp ∈ Mnemonic.fieldAccesses) :
    d.IsReadable isStatic ↔ d.field.isSome ∧ d.method = none := by
  obtain ⟨hcall, hself, hunreserved⟩ := Mnemonic.fieldAccesses_apart _ hfield
  constructor
  · intro h
    exact h.fieldAccess hfield
  · intro hoperand
    exact
      { call := fun h => absurd h hcall
        fieldAccess := fun _ => hoperand
        self := fun h => absurd h hself
        unreserved := hunreserved
        counted := fun _ h => absurd hfield h }

theorem isReadable_iff_of_self (hself : d.lowerOp = "ldarg.0") :
    d.IsReadable false ↔ d.method = none ∧ d.field = none ∧ d.targets = none := by
  constructor
  · intro h
    exact h.self hself rfl
  · intro hoperand
    refine
      { call := fun h => absurd hself (Mnemonic.calls_apart _ h).2.1
        fieldAccess := fun h => absurd hself (Mnemonic.fieldAccesses_apart _ h).2.1
        self := fun _ _ => hoperand
        unreserved := ?_
        counted := fun _ _ h => absurd ⟨hself, rfl⟩ h }
    rw [hself]
    decide

theorem isReadable_iff_of_other (hreserved : d.lowerOp ∉ Mnemonic.reserved)
    (hcall : d.lowerOp ∉ Mnemonic.calls) (hfield : d.lowerOp ∉ Mnemonic.fieldAccesses)
    (hself : ¬ (d.lowerOp = "ldarg.0" ∧ isStatic = false)) :
    d.IsReadable isStatic ↔
      (d.pop.isSome ∨ Mnemonic.IsListed d.lowerOp) ∧
        (d.push.isSome ∨ Mnemonic.IsListed d.lowerOp) := by
  constructor
  · intro h
    exact h.counted hcall hfield hself
  · intro hcounted
    exact
      { call := fun h => absurd h hcall
        fieldAccess := fun h => absurd h hfield
        self := fun hname hinstance => absurd ⟨hname, hinstance⟩ hself
        unreserved := by simpa [Mnemonic.reserved] using hreserved
        counted := fun _ _ _ => hcounted }

/-- An entry gives what its mnemonic needs exactly when its instruction fits
its category. -/
theorem decode_fits_iff (hcounts : d.HasCounts) :
    (d.decode isStatic returnType).Fits ↔ d.IsReadable isStatic := by
  have hopcode : (d.decode isStatic returnType).opcode = Mnemonic.category? d.lowerOp isStatic :=
    rfl
  have hoperand : (d.decode isStatic returnType).operand = d.operand := rfl
  rw [Instruction.fits_iff_category, hopcode, hoperand]
  by_cases hreserved : d.lowerOp ∈ Mnemonic.reserved
  · rw [Mnemonic.category?_of_reserved hreserved]
    simp only [Mnemonic.reserved, List.mem_cons, List.not_mem_nil, or_false] at hreserved
    constructor
    · intro h
      exact h.elim
    · intro h
      rcases hreserved with hname | hname
      · exact h.unreserved.1 hname
      · exact h.unreserved.2 hname
  by_cases hcall : d.lowerOp ∈ Mnemonic.calls
  · rw [isReadable_iff_of_calls hcall, ← operand_kind_eq_method_iff]
    rcases Mnemonic.category?_of_calls hcall with h | h | h <;> rw [h]
  by_cases hfield : d.lowerOp ∈ Mnemonic.fieldAccesses
  · rw [isReadable_iff_of_fieldAccesses hfield, ← operand_kind_eq_field_iff]
    rcases Mnemonic.category?_of_fieldAccesses hfield with h | h | h <;> rw [h]
  by_cases hself : d.lowerOp = "ldarg.0" ∧ isStatic = false
  · obtain ⟨hname, rfl⟩ := hself
    rw [isReadable_iff_of_self hname, ← operand_kind_eq_nothing_iff, hname]
    rfl
  · have hother := Mnemonic.category?_of_other hreserved hcall hfield hself
    have hstack : (d.decode isStatic returnType).stack = d.stackEffect? d.lowerOp returnType :=
      if_pos hother
    rw [isReadable_iff_of_other hreserved hcall hfield hself, hother, hstack,
      ← exists_stackEffect?_iff hcounts]

end InstructionDump

/-! ## Bodies -/

namespace MethodDump

/-- What a body has to give, entry by entry and as a whole, for a method that
is not static unless the dump says so. -/
structure IsAnalyzable (d : MethodDump) : Prop where
  increasing : (d.body.map InstructionDump.offset).Pairwise (· < ·)
  readable : ∀ entry ∈ d.body, entry.IsReadable (d.isStatic.getD false)
  lands : ∀ entry ∈ d.body, entry.method = none → entry.field = none →
    ∀ offsets, entry.targets = some offsets →
      ∀ target ∈ offsets, ∃ landing ∈ d.body, landing.offset = target

/-- No offset is the infinity that a dump may hold in its place. -/
def HasFiniteOffsets (d : MethodDump) : Prop := ∀ entry ∈ d.body, ¬ entry.offset.IsLimit

instance (d : MethodDump) : Decidable d.HasFiniteOffsets :=
  inferInstanceAs (Decidable (∀ entry ∈ d.body, ¬ entry.offset.IsLimit))

theorem decode_hasValidBody_iff {d : MethodDump} {declaringType : String} {generatedType : Bool}
    (hcounts : ∀ entry ∈ d.body, entry.HasCounts) :
    (d.decode declaringType generatedType).hasValidBody = true ↔
      d.HasFiniteOffsets ∧ d.IsAnalyzable := by
  have hbody : (d.decode declaringType generatedType).body =
      d.body.map fun entry => entry.decode (d.isStatic.getD false) (d.returnType.getD voidType) :=
    rfl
  have hoffsets : (d.body.map fun entry =>
      entry.decode (d.isStatic.getD false) (d.returnType.getD voidType)).map Instruction.offset =
        d.body.map InstructionDump.offset := by
    rw [List.map_map]
    rfl
  rw [Method.hasValidBody_iff, hbody, hoffsets]
  simp only [List.forall_mem_map]
  constructor
  · intro hall
    obtain ⟨hoffsets, hincreasing, hfits, hlands⟩ := hall
    refine ⟨?_, hincreasing, ?_, ?_⟩
    · intro entry hentry hlimit
      have hcount : entry.offset.IsCount := hoffsets entry hentry
      rw [hlimit] at hcount
      exact hcount.1
    · intro entry hentry
      exact (InstructionDump.decode_fits_iff (hcounts entry hentry)).1 (hfits entry hentry)
    · intro entry hentry hmethod hfield offsets htargets target htarget
      have hjump : target ∈
          (entry.decode (d.isStatic.getD false) (d.returnType.getD voidType)).targets :=
        InstructionDump.mem_targets_decode_iff.2 ⟨hmethod, hfield, offsets, htargets, htarget⟩
      obtain ⟨_, hdecoded, heq⟩ := hlands entry hentry target hjump
      obtain ⟨landing, hlanding, rfl⟩ := List.mem_map.1 hdecoded
      exact ⟨landing, hlanding, heq⟩
  · rintro ⟨hfinite, h⟩
    refine ⟨fun entry hentry => (hcounts entry hentry).offset.resolve_right (hfinite entry hentry),
      h.increasing, ?_, ?_⟩
    · intro entry hentry
      exact (InstructionDump.decode_fits_iff (hcounts entry hentry)).2 (h.readable entry hentry)
    · intro entry hentry target htarget
      obtain ⟨hmethod, hfield, offsets, htargets, hjump⟩ :=
        InstructionDump.mem_targets_decode_iff.1 htarget
      obtain ⟨landing, hlanding, heq⟩ :=
        h.lands entry hentry hmethod hfield offsets htargets target hjump
      exact ⟨_, List.mem_map_of_mem hlanding, heq⟩

end MethodDump

/-- **Decoder and body check agree.** Of every dump, the methods whose
decoded bodies have no flaw are those that the dump can be read for, entry by
entry, and whose offsets are finite. Types and methods are matched by their
places. -/
theorem Module.hasValidBody_iff_isAnalyzable {source : String} {value : Value} {m : Module}
    (h : Module.ofValue source value = .ok m) :
    List.Forall₂
      (fun (type : TypeDefinition) (typeDump : TypeDump) =>
        List.Forall₂
          (fun (method : Method) (dump : MethodDump) =>
            method.hasValidBody = true ↔ dump.HasFiniteOffsets ∧ dump.IsAnalyzable)
          type.methods typeDump.methods)
      m.types (ModuleDump.ofValue value).types := by
  obtain ⟨hshape, rfl⟩ := Module.ofValue_eq_ok_iff.1 h
  have hcounts := ModuleDump.hasCounts_ofValue ⟨[], hshape⟩
  show List.Forall₂ _ ((ModuleDump.ofValue value).types.map TypeDump.decode) _
  rw [List.forall₂_map_left_iff, List.forall₂_same]
  intro type htype
  show List.Forall₂ _ (type.methods.map fun method =>
    method.decode type.name (isGeneratedType type.name type.attributes)) _
  rw [List.forall₂_map_left_iff, List.forall₂_same]
  intro method hmethod
  exact MethodDump.decode_hasValidBody_iff (hcounts type htype method hmethod)

/-- A method of an instance that leaves early if a field of it is set. -/
def leavingMethod : Value := .record
  [("name", .text "Leave"),
    ("body", .list
      [.record [("offset", .number 0), ("op", .text "ldarg.0")],
        .record [("offset", .number 1), ("op", .text "LDFLD"),
          ("field", .record
            [("declaringType", .text "Clinic.Visit"), ("name", .text "ended")])],
        .record [("offset", .number 6), ("op", .text "brtrue.s"), ("targets", .list [.number 9])],
        .record [("offset", .number 8), ("op", .text "calli"), ("pop", .number 0),
          ("push", .number 0)],
        .record [("offset", .number 9), ("op", .text "ret")]])]

/-- A method with an instruction that is in no table and says only how much
it pops. -/
def halfCountedMethod : Value := .record
  [("name", .text "Return"),
    ("body", .list
      [.record [("offset", .number 0), ("op", .text "calli"), ("pop", .number 0)],
        .record [("offset", .number 5), ("op", .text "ret")]])]

/-- A method whose only offset is too large for a finite number. -/
def unboundedMethod : Value := .record
  [("name", .text "Wait"),
    ("body", .list [.record [("offset", .number (.infinite false)), ("op", .text "ret")]])]

/-- A dump of one type with these methods. -/
def clinicDump : Value := .record
  [("module", .text "Clinic"),
    ("types", .list
      [.record
        [("name", .text "Clinic.Visit"),
          ("methods", .list [leavingMethod, halfCountedMethod, unboundedMethod])]])]

theorem clinicDump_reads :
    Module.ofValue "clinic.yaml" clinicDump =
      .ok ((ModuleDump.ofValue clinicDump).decode "clinic.yaml") :=
  Module.ofValue_eq_ok_iff.2 ⟨by decide +kernel, rfl⟩

theorem leavingMethod_isAnalyzable :
    Module.ofValue "clinic.yaml" clinicDump =
        .ok ((ModuleDump.ofValue clinicDump).decode "clinic.yaml") ∧
      (MethodDump.ofValue leavingMethod).IsAnalyzable ∧
      ¬ (MethodDump.ofValue halfCountedMethod).IsAnalyzable := by
  have hmethods :=
    (List.forall₂_cons.1 (Module.hasValidBody_iff_isAnalyzable clinicDump_reads)).1
  obtain ⟨hleaving, hrest⟩ := List.forall₂_cons.1 hmethods
  obtain ⟨hhalfCounted, -⟩ := List.forall₂_cons.1 hrest
  refine ⟨clinicDump_reads, (hleaving.1 ?_).2, fun h => ?_⟩
  · decide +kernel
  · have hvalid := hhalfCounted.2 ⟨by decide +kernel, h⟩
    revert hvalid
    decide +kernel

/-- Beyond the finite, the two do not agree: the dump has its shape and can be
read for the method, but the decoded body has a flaw. -/
theorem unboundedMethod_isAnalyzable :
    Module.ofValue "clinic.yaml" clinicDump =
        .ok ((ModuleDump.ofValue clinicDump).decode "clinic.yaml") ∧
      (MethodDump.ofValue unboundedMethod).IsAnalyzable ∧
      ((MethodDump.ofValue unboundedMethod).decode "Clinic.Visit" false).hasValidBody = false := by
  refine ⟨clinicDump_reads, ⟨by decide +kernel, ?_, ?_⟩, by decide +kernel⟩
  · intro entry hentry
    obtain rfl := List.mem_singleton.1 hentry
    refine (InstructionDump.isReadable_iff_of_other ?_ ?_ ?_ ?_).2 ⟨.inr (.inl ?_), .inr (.inl ?_)⟩
    all_goals decide
  · intro entry hentry hmethod hfield offsets htargets
    obtain rfl := List.mem_singleton.1 hentry
    cases htargets

end DisposalAudit
