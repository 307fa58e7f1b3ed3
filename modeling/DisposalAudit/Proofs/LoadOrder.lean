import DisposalAudit.Codebase.Basic
import DisposalAudit.Proofs.GuardDecision
import DisposalAudit.Proofs.Inheritance
import DisposalAudit.Run
import Mathlib.Data.List.Nodup

/-!
# The order of loading

A name that is defined in several modules stands for the definition that was
loaded last, so the order of loading can be seen in what a rule flags. It
cannot be seen as long as the modules agree on what they define in common:
then every method gets the same verdict in any order, and the findings are
the same up to their order.

## Main definitions

* `Module.Agrees` — two modules say the same of the names that both define.
* `Codebase.verdictsAt?` — the verdicts on one method, found by names.

## Main results

* `lastDefinition_rel` — the last definition under a permutation.
* `link_perm` — calls are settled in the same way in any order.
* `load_perm_verdicts` — verdicts and findings in any order.
* `verdict_of_load_order` — two modules that do not agree.
-/

namespace DisposalAudit

/-! ## Last definitions -/

section LastDefinition

variable {α β : Type} {p : β → Bool} {f : α → List β}

theorem exists_of_find?_reverse_flatMap {x : β} (l : List α)
    (h : (l.flatMap f).reverse.find? p = some x) :
    ∃ a ∈ l, (f a).reverse.find? p = some x := by
  induction l with
  | nil => cases h
  | cons a rest ih =>
      rw [List.flatMap_cons, List.reverse_append, List.find?_append] at h
      rcases Option.or_eq_some_iff.1 h with hrest | ⟨-, hfirst⟩
      · obtain ⟨b, hb, hx⟩ := ih hrest
        exact ⟨b, List.mem_cons_of_mem a hb, hx⟩
      · exact ⟨a, List.mem_cons_self, hfirst⟩

theorem find?_reverse_flatMap_eq_none_iff (l : List α) :
    (l.flatMap f).reverse.find? p = none ↔ ∀ a ∈ l, (f a).reverse.find? p = none := by
  simp only [List.find?_eq_none, List.mem_reverse, List.mem_flatMap]
  constructor
  · intro h a ha x hx
    exact h x ⟨a, ha, hx⟩
  · rintro h x ⟨a, ha, hx⟩
    exact h a ha x hx

/-- When parts are put together in two orders, the last entry of one order
is related to the last entry of the other, if the last entries of any two
parts are related. -/
theorem lastDefinition_rel {R : β → β → Prop} {l l' : List α} (hperm : l.Perm l')
    (hagree : ∀ a ∈ l, ∀ b ∈ l, ∀ x y, (f a).reverse.find? p = some x →
      (f b).reverse.find? p = some y → R x y) :
    Option.Rel R ((l.flatMap f).reverse.find? p) ((l'.flatMap f).reverse.find? p) := by
  cases hx : (l.flatMap f).reverse.find? p with
  | none =>
      have hnone : (l'.flatMap f).reverse.find? p = none := by
        rw [find?_reverse_flatMap_eq_none_iff] at hx ⊢
        exact fun a ha => hx a (hperm.mem_iff.2 ha)
      rw [hnone]
      exact .none
  | some x =>
      obtain ⟨a, ha, hax⟩ := exists_of_find?_reverse_flatMap l hx
      cases hy : (l'.flatMap f).reverse.find? p with
      | none =>
          rw [find?_reverse_flatMap_eq_none_iff] at hy
          rw [hy a (hperm.mem_iff.1 ha)] at hax
          cases hax
      | some y =>
          obtain ⟨b, hb, hby⟩ := exists_of_find?_reverse_flatMap l' hy
          exact .some (hagree a ha b (hperm.mem_iff.2 hb) x y hax hby)

/-- What does not tell related entries apart is the same of both answers. -/
theorem eq_of_rel {γ : Type} {R : β → β → Prop} {o o' : Option β} (h : Option.Rel R o o')
    (g : Option β → γ) (hsome : ∀ x y, R x y → g (some x) = g (some y)) : g o = g o' := by
  cases h with
  | some hrelated => exact hsome _ _ hrelated
  | none => rfl

end LastDefinition

/-! ## Agreement -/

/-- Two definitions of a type that have the same parents and interfaces, and
are both generated or both not. -/
structure TypeDefinition.SameHead (t u : TypeDefinition) : Prop where
  parents : ∀ name, name ∈ t.parents ↔ name ∈ u.parents
  interfaces : ∀ name, name ∈ t.interfaces ↔ name ∈ u.interfaces
  generated : isGeneratedType t.name t.attributes = isGeneratedType u.name u.attributes

/-- Two callees of the same type, visibility and kind. -/
structure Callee.SameMember (x y : Callee) : Prop where
  declaringType : x.declaringType = y.declaringType
  isPublic : x.isPublic = y.isPublic
  isStatic : x.isStatic = y.isStatic

/-- The methods of a module that references can mean. -/
def Module.callees (a : Module) : List (String × Callee) :=
  a.types.flatMap TypeDefinition.callees

/-- Two modules agree if they say the same of every type name and of every
written form of a method that both define. -/
structure Module.Agrees (a b : Module) : Prop where
  heads : ∀ name t u, lastType? a.types name = some t → lastType? b.types name = some u →
    t.SameHead u
  members : ∀ key x y, lastCallee? a.callees key = some x → lastCallee? b.callees key = some y →
    x.SameMember y

theorem Codebase.callees_eq (c : Codebase) : c.callees = c.modules.flatMap Module.callees := by
  rw [callees, types, List.flatMap_assoc]
  rfl

/-- In two orders of modules that agree, a type name stands for definitions
with the same head. -/
theorem lastType?_rel {modules modules' : List Module} (hperm : modules.Perm modules')
    (hagree : ∀ a ∈ modules, ∀ b ∈ modules, a.Agrees b) (name : String) :
    Option.Rel TypeDefinition.SameHead (lastType? (modules.flatMap Module.types) name)
      (lastType? (modules'.flatMap Module.types) name) :=
  lastDefinition_rel hperm fun a ha b hb x y hx hy => (hagree a ha b hb).heads name x y hx hy

/-- In two orders of modules that agree, a reference means callees that no
verdict tells apart. -/
theorem lastCallee?_rel {modules modules' : List Module} (hperm : modules.Perm modules')
    (hagree : ∀ a ∈ modules, ∀ b ∈ modules, a.Agrees b) (key : String) :
    Option.Rel Callee.SameMember (lastCallee? (modules.flatMap Module.callees) key)
      (lastCallee? (modules'.flatMap Module.callees) key) := by
  have hentries : Option.Rel (fun x y : String × Callee => x.2.SameMember y.2)
      ((modules.flatMap Module.callees).reverse.find? fun entry => entry.1 = key)
      ((modules'.flatMap Module.callees).reverse.find? fun entry => entry.1 = key) := by
    refine lastDefinition_rel hperm fun a ha b hb x y hx hy => ?_
    exact (hagree a ha b hb).members key x.2 y.2 (congrArg (Option.map Prod.snd) hx)
      (congrArg (Option.map Prod.snd) hy)
  have hmap : ∀ o o' : Option (String × Callee),
      Option.Rel (fun x y : String × Callee => x.2.SameMember y.2) o o' →
      Option.Rel Callee.SameMember (o.map Prod.snd) (o'.map Prod.snd) := by
    rintro _ _ (h | _)
    · exact .some h
    · exact .none
  exact hmap _ _ hentries

/-! ## Linking -/

theorem settle_congr {resolve resolve' : MethodRef → Option Callee}
    (h : ∀ ref, Option.Rel Callee.SameMember (resolve ref) (resolve' ref)) :
    MethodRef.settle resolve = MethodRef.settle resolve' := by
  funext ref
  have hstatic := eq_of_rel (h ref) (fun o => o.all fun callee => !callee.isStatic)
    fun x y hmember => by simp [hmember.isStatic]
  rw [MethodRef.settle, MethodRef.settle, hstatic]

@[simp] theorem callees_mapRefs (f : MethodRef → MethodRef) (a : Module) :
    (a.mapRefs f).callees = a.callees := by
  have htype : ∀ t : TypeDefinition, (t.mapRefs f).callees = t.callees := by
    intro t
    rw [TypeDefinition.callees, TypeDefinition.mapRefs, List.map_map]
    rfl
  rw [Module.callees, Module.callees, Module.mapRefs, List.flatMap_map]
  simp only [htype]

theorem lastType?_mapRefs (f : MethodRef → MethodRef) (a : Module) (name : String) :
    lastType? (a.mapRefs f).types name =
      (lastType? a.types name).map (TypeDefinition.mapRefs f) := by
  rw [lastType?, lastType?, Module.mapRefs, ← List.map_reverse, List.find?_map]
  rfl

/-- Linking leaves alone what modules agree on. -/
theorem Module.Agrees.mapRefs {a b : Module} (h : a.Agrees b) (f : MethodRef → MethodRef) :
    (a.mapRefs f).Agrees (b.mapRefs f) := by
  refine ⟨fun name t u ht hu => ?_, fun key x y hx hy => ?_⟩
  · rw [lastType?_mapRefs] at ht hu
    obtain ⟨t₀, ht₀, rfl⟩ := Option.map_eq_some_iff.1 ht
    obtain ⟨u₀, hu₀, rfl⟩ := Option.map_eq_some_iff.1 hu
    have hhead := h.heads name t₀ u₀ ht₀ hu₀
    exact ⟨hhead.parents, hhead.interfaces, hhead.generated⟩
  · rw [callees_mapRefs] at hx hy
    exact h.members key x y hx hy

/-- Modules that agree are linked alike in any order. -/
theorem link_perm {modules modules' : List Module} (hperm : modules.Perm modules')
    (hagree : ∀ a ∈ modules, ∀ b ∈ modules, a.Agrees b) :
    ∃ f, (Codebase.load modules).modules = modules.map (Module.mapRefs f) ∧
      (Codebase.load modules').modules = modules'.map (Module.mapRefs f) := by
  refine ⟨MethodRef.settle fun ref => lastCallee? (Codebase.callees ⟨modules⟩) ref.key, rfl, ?_⟩
  have hsettle : MethodRef.settle (fun ref => lastCallee? (Codebase.callees ⟨modules⟩) ref.key) =
      MethodRef.settle fun ref => lastCallee? (Codebase.callees ⟨modules'⟩) ref.key := by
    refine settle_congr fun ref => ?_
    rw [Codebase.callees_eq, Codebase.callees_eq]
    exact lastCallee?_rel hperm hagree ref.key
  rw [hsettle]
  rfl

/-! ## Contexts -/

section Context

variable {modules modules' : List Module} (hperm : modules.Perm modules')
  (hagree : ∀ a ∈ modules, ∀ b ∈ modules, a.Agrees b)

include hperm hagree

theorem inherits_iff_of_perm (child parent : String) :
    Inherits (modules.flatMap Module.types) child parent ↔
      Inherits (modules'.flatMap Module.types) child parent := by
  refine Iff.of_eq (eq_of_rel (lastType?_rel hperm hagree child)
    (fun o => ∃ t, o = some t ∧ parent ∈ t.parents) ?_)
  intro x y hhead
  simp only [Option.some.injEq, exists_eq_left', hhead.parents]

theorem declares_iff_of_perm (target name : String) :
    Declares (modules.flatMap Module.types) target name ↔
      Declares (modules'.flatMap Module.types) target name := by
  refine Iff.of_eq (eq_of_rel (lastType?_rel hperm hagree name)
    (fun o => ∃ t, o = some t ∧ target ∈ t.interfaces) ?_)
  intro x y hhead
  simp only [Option.some.injEq, exists_eq_left', hhead.interfaces]

/-- The hierarchy of modules that agree does not depend on their order. -/
theorem implements_perm (typeName interfaceName : String) :
    Codebase.implements ⟨modules⟩ typeName interfaceName =
      Codebase.implements ⟨modules'⟩ typeName interfaceName := by
  have hinherits : Inherits (modules.flatMap Module.types) =
      Inherits (modules'.flatMap Module.types) := by
    funext child parent
    exact propext (inherits_iff_of_perm hperm hagree child parent)
  rw [Bool.eq_iff_iff, Codebase.implements, Codebase.implements, reaches_singleton_iff,
    reaches_singleton_iff]
  refine exists_congr fun name => and_congr ?_ (declares_iff_of_perm hperm hagree _ name)
  rw [Codebase.types, Codebase.types, hinherits]

theorem isGenerated_perm (m : Method) :
    Codebase.isGenerated ⟨modules⟩ m = Codebase.isGenerated ⟨modules'⟩ m := by
  rw [Codebase.isGenerated, Codebase.isGenerated]
  have hmark := eq_of_rel (lastType?_rel hperm hagree m.declaringType)
    (fun o => o.any fun t : TypeDefinition => isGeneratedType t.name t.attributes)
    fun x y hhead => hhead.generated
  exact congrArg (m.flags.isGenerated || ·) hmark

theorem hiddenMember_perm (ownType : String) (ref : MethodRef) :
    (Codebase.resolve? ⟨modules⟩ ref).any (GuardOptions.isHiddenMember ownType) =
      (Codebase.resolve? ⟨modules'⟩ ref).any (GuardOptions.isHiddenMember ownType) := by
  rw [Codebase.resolve?, Codebase.resolve?, Codebase.callees_eq, Codebase.callees_eq]
  refine eq_of_rel (lastCallee?_rel hperm hagree ref.key)
    (fun o => o.any (GuardOptions.isHiddenMember ownType)) ?_
  intro x y hmember
  simp only [Option.any_some, GuardOptions.isHiddenMember, hmember.declaringType,
    hmember.isPublic, hmember.isStatic]

/-- The guard rule inspects a method alike in any order of modules that
agree. -/
theorem inspect_perm (options : GuardOptions) (m : Method) :
    options.inspect (Codebase.context ⟨modules⟩) m.facts m =
      options.inspect (Codebase.context ⟨modules'⟩) m.facts m :=
  GuardOptions.inspect_congr m.facts (implements_perm hperm hagree _ _)
    (isGenerated_perm hperm hagree m) (hiddenMember_perm hperm hagree m.declaringType)

end Context

/-! ## Runs -/

/-- The trials of a module's methods, without their places. -/
def Module.trialsIn (rules : List Rule) (context : RuleContext) (a : Module) : List Trial :=
  a.types.flatMap fun t => t.methods.flatMap fun m => rules.map (Trial.of context m.facts m)

theorem flatMap_zipIdx_fst {α β : Type} (f : α → List β) (l : List α) :
    l.zipIdx.flatMap (fun entry => f entry.1) = l.flatMap f := by
  rw [← List.flatMap_map Prod.fst f, List.zipIdx_map_fst]

theorem trials_eq_trialsIn (rules : List Rule) (context : RuleContext) (position : Nat)
    (a : Module) :
    a.trials rules context (fun _ m => m.facts) position = a.trialsIn rules context := by
  rw [Module.trials, Module.trialsIn]
  simp only [flatMap_zipIdx_fst fun m : Method => rules.map (Trial.of context m.facts m)]
  exact flatMap_zipIdx_fst (fun t : TypeDefinition =>
    t.methods.flatMap fun m => rules.map (Trial.of context m.facts m)) a.types

/-- The findings of a run are those of its modules, one after the other. -/
theorem findings_run (rules : List Rule) (settings : Settings) (c : Codebase) :
    (c.run rules settings).findings =
      c.modules.flatMap fun a => (a.trialsIn rules c.context).flatMap (Trial.kept settings) := by
  rw [Codebase.run, Codebase.runWith]
  simp only [trials_eq_trialsIn, List.flatMap_map, List.flatMap_assoc]
  exact flatMap_zipIdx_fst (fun a : Module =>
    (a.trialsIn rules c.context).flatMap (Trial.kept settings)) c.modules

/-- The verdicts of some rules on the method at a place of the module of some
name. -/
def Codebase.verdictsAt? (c : Codebase) (rules : List Rule) (moduleName : String)
    (type method : Nat) : Option (List Verdict) := do
  let a ← c.modules.find? fun a => a.name = moduleName
  let t ← a.types[type]?
  let m ← t.methods[method]?
  pure (rules.map fun rule => (Trial.of c.context m.facts m rule).verdict)

theorem trial_perm {modules modules' : List Module} (hperm : modules.Perm modules')
    (hagree : ∀ a ∈ modules, ∀ b ∈ modules, a.Agrees b) (overrides : Option RuleOverrides)
    (m : Method) :
    ∀ rule ∈ registeredRules overrides,
      Trial.of (Codebase.context ⟨modules⟩) m.facts m rule =
        Trial.of (Codebase.context ⟨modules'⟩) m.facts m rule := by
  intro rule hrule
  obtain rfl := List.mem_singleton.1 hrule
  exact congrArg (Trial.mk disposedGuardId m.signature) (inspect_perm hperm hagree _ m)

theorem trialsIn_perm {modules modules' : List Module} (hperm : modules.Perm modules')
    (hagree : ∀ a ∈ modules, ∀ b ∈ modules, a.Agrees b) (overrides : Option RuleOverrides)
    (a : Module) :
    a.trialsIn (registeredRules overrides) (Codebase.context ⟨modules⟩) =
      a.trialsIn (registeredRules overrides) (Codebase.context ⟨modules'⟩) := by
  have hmethod : ∀ m : Method,
      (registeredRules overrides).map (Trial.of (Codebase.context ⟨modules⟩) m.facts m) =
        (registeredRules overrides).map (Trial.of (Codebase.context ⟨modules'⟩) m.facts m) :=
    fun m => List.map_congr_left (trial_perm hperm hagree overrides m)
  simp only [Module.trialsIn, hmethod]

/-- In two orders of modules with different names, a name finds the same
module. -/
theorem find?_name_perm {modules modules' : List Module} (hperm : modules.Perm modules')
    (hnames : (modules.map Module.name).Nodup) (name : String) :
    (modules.find? fun a => a.name = name) = modules'.find? fun a => a.name = name := by
  have hreversed : modules.reverse.Perm modules'.reverse :=
    (List.reverse_perm modules).trans (hperm.trans (List.reverse_perm modules').symm)
  have hlast := lastDefinition_rel (R := Eq) (p := fun a : Module => a.name = name)
    (f := fun a => [a]) hreversed fun a ha b hb x y hx hy => ?_
  · simp only [List.flatMap_singleton', List.reverse_reverse] at hlast
    exact eq_of_rel hlast id fun x y heq => congrArg some heq
  · obtain ⟨ha', rfl⟩ : a.name = name ∧ a = x := by simpa using hx
    obtain ⟨hb', rfl⟩ : b.name = name ∧ b = y := by simpa using hy
    exact List.inj_on_of_nodup_map hnames (List.mem_reverse.1 ha) (List.mem_reverse.1 hb)
      (ha'.trans hb'.symm)

/--
**Loading order.** If the modules have different names and agree on what
they define in common, then in any order of loading the registered rules
give every method the same verdict, and the findings are the same up to
their order.
-/
theorem load_perm_verdicts {modules modules' : List Module} (hperm : modules.Perm modules')
    (hnames : (modules.map Module.name).Nodup)
    (hagree : ∀ a ∈ modules, ∀ b ∈ modules, a.Agrees b) (overrides : Option RuleOverrides)
    (settings : Settings) :
    (∀ moduleName type method,
      (Codebase.load modules).verdictsAt? (registeredRules overrides) moduleName type method =
        (Codebase.load modules').verdictsAt? (registeredRules overrides) moduleName type method) ∧
      (((Codebase.load modules).run (registeredRules overrides) settings).findings).Perm
        ((Codebase.load modules').run (registeredRules overrides) settings).findings := by
  obtain ⟨f, hload, hload'⟩ := link_perm hperm hagree
  have hlinked : (Codebase.load modules).modules.Perm (Codebase.load modules').modules := by
    rw [hload, hload']
    exact hperm.map _
  have hagreed : ∀ a ∈ (Codebase.load modules).modules, ∀ b ∈ (Codebase.load modules).modules,
      a.Agrees b := by
    simp only [hload, List.mem_map]
    rintro _ ⟨a, ha, rfl⟩ _ ⟨b, hb, rfl⟩
    exact (hagree a ha b hb).mapRefs f
  have hlinkedNames : ((Codebase.load modules).modules.map Module.name).Nodup := by
    rwa [hload, List.map_map]
  refine ⟨fun moduleName type method => ?_, ?_⟩
  · rw [Codebase.verdictsAt?, Codebase.verdictsAt?, find?_name_perm hlinked hlinkedNames]
    have hverdicts : ∀ m : Method,
        ((registeredRules overrides).map fun rule =>
            (Trial.of (Codebase.load modules).context m.facts m rule).verdict) =
          (registeredRules overrides).map fun rule =>
            (Trial.of (Codebase.load modules').context m.facts m rule).verdict :=
      fun m => List.map_congr_left fun rule hrule =>
        congrArg Trial.verdict (trial_perm hlinked hagreed overrides m rule hrule)
    simp only [hverdicts]
  · have htrials : ∀ a : Module,
        a.trialsIn (registeredRules overrides) (Codebase.load modules).context =
          a.trialsIn (registeredRules overrides) (Codebase.load modules').context :=
      trialsIn_perm hlinked hagreed overrides
    rw [findings_run, findings_run]
    simp only [htrials]
    exact hlinked.flatMap_right _

/-! ## Modules that share a type -/

/-- A public method that reads a field of its own instance. -/
def readingMethod : Method where
  declaringType := "T"
  name := "Read"
  returnType := voidType
  parameters := []
  flags := ⟨true, false, false, false, false, false, false⟩
  body :=
    [⟨0, some .loadSelf, .nothing, .next, none, none⟩,
      ⟨1, some .loadField, .field ⟨"T", "state", "System.Object"⟩, .next, none, none⟩,
      ⟨2, some .other, .nothing, .returns, some ⟨1, 0⟩, none⟩]

/-- A module that defines one type, with some interfaces and methods. -/
def sharingModule (name : String) (interfaces : List String) (methods : List Method) : Module :=
  ⟨name, name ++ ".json", [⟨"T", none, interfaces, [], methods⟩]⟩

/-- A module that makes the type disposable, and has its method. -/
def disposingModule : Module := sharingModule "A" ["System.IDisposable"] [readingMethod]

/-- A module in which the type is not disposable. -/
def plainModule : Module := sharingModule "B" [] []

/-- A module in which the type is disposable too. -/
def agreeingModule : Module := sharingModule "B" ["System.IDisposable"] []

theorem lastType?_sharingModule {name typeName : String} {interfaces : List String}
    {methods : List Method} {t : TypeDefinition}
    (h : lastType? (sharingModule name interfaces methods).types typeName = some t) :
    t = ⟨"T", none, interfaces, [], methods⟩ :=
  List.mem_singleton.1 (lastType?_eq_some h).1

theorem agrees_of_same_interfaces :
    ∀ a ∈ [disposingModule, agreeingModule], ∀ b ∈ [disposingModule, agreeingModule],
      a.Agrees b := by
  have hshape : ∀ a ∈ [disposingModule, agreeingModule], ∃ name methods,
      a = sharingModule name ["System.IDisposable"] methods := by
    simp only [List.mem_cons, List.not_mem_nil, or_false]
    rintro _ (rfl | rfl)
    · exact ⟨"A", [readingMethod], rfl⟩
    · exact ⟨"B", [], rfl⟩
  have hmember : ∀ a ∈ [disposingModule, agreeingModule], ∀ key x,
      lastCallee? a.callees key = some x → x = ⟨"T", "Read", true, false⟩ := by
    simp only [List.mem_cons, List.not_mem_nil, or_false]
    rintro _ (rfl | rfl) key x hx
    · obtain ⟨entry, hentry, rfl⟩ := Option.map_eq_some_iff.1 hx
      have hmem := List.mem_reverse.1 (List.mem_of_find?_eq_some hentry)
      exact congrArg Prod.snd (List.mem_singleton.1 hmem)
    · cases hx
  intro a ha b hb
  refine ⟨fun typeName t u ht hu => ?_, fun key x y hx hy => ?_⟩
  · obtain ⟨_, _, rfl⟩ := hshape a ha
    obtain ⟨_, _, rfl⟩ := hshape b hb
    rw [lastType?_sharingModule ht, lastType?_sharingModule hu]
    exact ⟨fun _ => Iff.rfl, fun _ => Iff.rfl, rfl⟩
  · rw [hmember a ha key x hx, hmember b hb key y hy]
    exact ⟨rfl, rfl, rfl⟩

/-- The type may be defined twice, as long as it is disposable twice. -/
theorem verdict_of_agreeing_modules :
    ([disposingModule, agreeingModule].map Module.name).Nodup ∧
      disposingModule.Agrees agreeingModule ∧
      (Codebase.load [disposingModule, agreeingModule]).verdictsAt? (registeredRules none) "A" 0
          0 =
        (Codebase.load [agreeingModule, disposingModule]).verdictsAt? (registeredRules none) "A" 0
          0 ∧
      (((Codebase.load [disposingModule, agreeingModule]).run (registeredRules none)
        .none).findings).Perm
        ((Codebase.load [agreeingModule, disposingModule]).run (registeredRules none)
          .none).findings := by
  have hperm : [disposingModule, agreeingModule].Perm [agreeingModule, disposingModule] :=
    List.Perm.swap _ _ _
  have hnames : ([disposingModule, agreeingModule].map Module.name).Nodup := by decide
  obtain ⟨hverdicts, hfindings⟩ :=
    load_perm_verdicts hperm hnames agrees_of_same_interfaces none .none
  exact ⟨hnames, agrees_of_same_interfaces _ (by simp) _ (by simp), hverdicts "A" 0 0, hfindings⟩

theorem implements_of_disposing_last :
    (Codebase.load [plainModule, disposingModule]).implements "T" "System.IDisposable" = true := by
  rw [Codebase.implements, reaches_singleton_iff]
  exact ⟨"T", .refl, _, rfl, List.mem_cons_self⟩

theorem not_implements_of_plain_last :
    (Codebase.load [disposingModule, plainModule]).implements "T" "System.IDisposable" =
      false := by
  rw [← Bool.not_eq_true, Codebase.implements, reaches_singleton_iff]
  intro hall
  obtain ⟨name, -, t, ht, hdeclared⟩ := hall
  by_cases hname : "T" = name
  · subst hname
    obtain rfl := Option.some.inj (Eq.trans rfl ht)
    cases hdeclared
  · have hnone : lastType? (Codebase.load [disposingModule, plainModule]).types name = none := by
      simp [lastType?, Codebase.types, Codebase.load, Codebase.link, disposingModule, plainModule,
        sharingModule, Module.mapRefs, TypeDefinition.mapRefs, hname]
    rw [hnone] at ht
    cases ht

/-- The hierarchy is asked one question about the reading method. -/
theorem inspect_readingMethod {c : Codebase} {answer : Bool}
    (h : c.implements "T" "System.IDisposable" = answer) :
    GuardOptions.standard.inspect c.context readingMethod.facts readingMethod =
      GuardOptions.standard.inspect { c.context with implements := fun _ _ => answer }
        readingMethod.facts readingMethod :=
  GuardOptions.inspect_congr readingMethod.facts h rfl fun _ => rfl

/-- The same two modules, in two orders: what is a failure in one does not
concern the rule in the other. -/
theorem verdict_of_load_order :
    [plainModule, disposingModule].Perm [disposingModule, plainModule] ∧
      ([plainModule, disposingModule].map Module.name).Nodup ∧
      (Codebase.load [plainModule, disposingModule]).verdictsAt? (registeredRules none) "A" 0 0 =
        some [.failure] ∧
      (Codebase.load [disposingModule, plainModule]).verdictsAt? (registeredRules none) "A" 0 0 =
        some [.doesNotApply] := by
  refine ⟨List.Perm.swap _ _ _, by decide, ?_, ?_⟩
  · show some [Trial.verdict ⟨disposedGuardId, readingMethod.signature,
      GuardOptions.standard.inspect (Codebase.load [plainModule, disposingModule]).context
        readingMethod.facts readingMethod⟩] = _
    rw [inspect_readingMethod implements_of_disposing_last]
    decide +kernel
  · show some [Trial.verdict ⟨disposedGuardId, readingMethod.signature,
      GuardOptions.standard.inspect (Codebase.load [disposingModule, plainModule]).context
        readingMethod.facts readingMethod⟩] = _
    rw [inspect_readingMethod not_implements_of_plain_last]
    decide +kernel

end DisposalAudit
