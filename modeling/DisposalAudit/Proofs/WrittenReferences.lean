import DisposalAudit.Codebase.Basic
import DisposalAudit.Proofs.DumpShape
import Mathlib.Data.List.Find
import Mathlib.Data.List.Infix

/-!
# References and their written form

A reference is looked up by its written form, which runs the declaring type,
the name and the parameter types together. Two references may have one
written form: the text of a parameter list does not tell whether a comma
divides two types or belongs to the name of one. A reference then means a
method that it does not describe.

As long as no other method has the written form of a reference, the
reference means the method that it describes, if one is loaded, and nothing
if none is. That is so whenever the names are of the kind that compilers
write: no double colon in a type, no parenthesis in the name of a method,
and commas in a type only between brackets, as in
`Dictionary<String,Int32>` or `Int32[,]`.

## Main definitions

* `openBrackets` — reads a type name and counts its open brackets.
* `IsLegible` — names whose written form can be taken apart.
* `MethodRef.Describes`, `Codebase.IsUnmistakable` — the meaning of a
  reference without its written form.

## Main results

* `referenceText_inj` — legible names have different written forms.
* `Codebase.resolve?_exact` — what a reference means.
* `resolve?_joins_parameters` — a reference that means another method.
-/

namespace DisposalAudit

/-! ## Taking texts apart -/

section Separators

variable {separator front front' rest rest' : List Char}

/-- A separator that does not begin inside the text before it ends the
shorter of two texts with the same beginning. -/
theorem eq_of_prefix_separator (hfront : ¬ separator <:+: front ++ separator.dropLast)
    (h : front' ++ separator <+: front ++ separator) : front' = front := by
  have hseparator : separator ≠ [] := by
    rintro rfl
    exact hfront (List.nil_infix)
  obtain ⟨behind, hbehind⟩ := h
  rcases List.eq_nil_or_concat behind with rfl | ⟨middle, last, rfl⟩
  · rw [List.append_nil] at hbehind
    exact List.append_cancel_right hbehind
  · have hdrop := congrArg List.dropLast hbehind
    rw [List.concat_eq_append, ← List.append_assoc, List.dropLast_concat,
      List.dropLast_append_of_ne_nil hseparator] at hdrop
    exact absurd ⟨front', middle, hdrop⟩ hfront

/-- What stands before the first separator, and what stands behind it. -/
theorem append_separator_inj (hfront : ¬ separator <:+: front ++ separator.dropLast)
    (hfront' : ¬ separator <:+: front' ++ separator.dropLast)
    (h : front ++ separator ++ rest = front' ++ separator ++ rest') :
    front = front' ∧ rest = rest' := by
  have heq : front = front' := by
    rcases List.prefix_or_prefix_of_prefix (List.prefix_append (front ++ separator) rest)
      (h ▸ List.prefix_append (front' ++ separator) rest') with hshort | hshort
    · exact eq_of_prefix_separator hfront' hshort
    · exact (eq_of_prefix_separator hfront hshort).symm
  subst heq
  exact ⟨rfl, List.append_cancel_left h⟩

end Separators

/-! ## Type names -/

/-- Number of brackets that are open behind some characters, unless a comma
stands outside of all brackets. -/
def openBrackets (count : Nat) : List Char → Option Nat
  | [] => some count
  | c :: rest =>
    if ['<', '[', '('].contains c then openBrackets (count + 1) rest
    else if ['>', ']', ')'].contains c then openBrackets (count - 1) rest
    else if c = ',' ∧ count = 0 then none
    else openBrackets count rest

theorem openBrackets_append (front back : List Char) :
    ∀ count, openBrackets count (front ++ back) =
      (openBrackets count front).bind (openBrackets · back) := by
  induction front with
  | nil => intro count; rfl
  | cons c rest ih =>
      intro count
      rw [List.cons_append, openBrackets, openBrackets]
      split
      · exact ih _
      · split
        · exact ih _
        · split
          · rfl
          · exact ih _

/-- Every comma stands inside brackets, and no bracket stays open. -/
def IsOneType (type : List Char) : Prop := openBrackets 0 type = some 0

instance (type : List Char) : Decidable (IsOneType type) := by
  unfold IsOneType
  infer_instance

/-- A comma behind a type name is outside of its brackets. -/
theorem IsOneType.not_append_comma {type rest : List Char} (h : IsOneType type) :
    ¬ IsOneType (type ++ ',' :: rest) := by
  rw [IsOneType, openBrackets_append, h]
  simp [openBrackets]

/-- A type name ends where the list of types ends or goes on with a comma. -/
theorem IsOneType.append_inj {type type' rest rest' : List Char} (h : IsOneType type)
    (h' : IsOneType type') (hrest : ∀ c ∈ rest.head?, c = ',') (hrest' : ∀ c ∈ rest'.head?, c = ',')
    (heq : type ++ rest = type' ++ rest') : type = type' ∧ rest = rest' := by
  rcases List.append_eq_append_iff.1 heq with ⟨more, rfl, rfl⟩ | ⟨more, rfl, rfl⟩
  · cases more with
    | nil => simp
    | cons c more =>
        obtain rfl := hrest c rfl
        exact absurd h' h.not_append_comma
  · cases more with
    | nil => simp
    | cons c more =>
        obtain rfl := hrest' c rfl
        exact absurd h h'.not_append_comma

theorem head?_flatMap_comma (types : List (List Char)) :
    ∀ c ∈ (types.flatMap (',' :: ·)).head?, c = ',' := by
  cases types with
  | nil => simp
  | cons type rest => simp

/-- Types with a comma in front of each can be told apart. -/
theorem flatMap_comma_inj {types : List (List Char)} :
    ∀ {types' : List (List Char)}, (∀ type ∈ types, IsOneType type) →
      (∀ type ∈ types', IsOneType type) →
      types.flatMap (',' :: ·) = types'.flatMap (',' :: ·) → types = types' := by
  induction types with
  | nil =>
      intro types' _ _ heq
      cases types' with
      | nil => rfl
      | cons type' rest' => simp at heq
  | cons type rest ih =>
      intro types' h h' heq
      cases types' with
      | nil => simp at heq
      | cons type' rest' =>
          obtain ⟨hone, hrest⟩ := List.forall_mem_cons.1 h
          obtain ⟨hone', hrest'⟩ := List.forall_mem_cons.1 h'
          rw [List.flatMap_cons, List.flatMap_cons, List.cons_append, List.cons_append] at heq
          obtain ⟨rfl, hmore⟩ := hone.append_inj hone' (head?_flatMap_comma rest)
            (head?_flatMap_comma rest') (List.tail_eq_of_cons_eq heq)
          rw [ih hrest hrest' hmore]

/-- Joined types with one more comma in front. -/
theorem cons_intercalate_comma {type : List Char} {rest : List (List Char)} :
    ',' :: [','].intercalate (type :: rest) = (type :: rest).flatMap (',' :: ·) := by
  induction rest generalizing type with
  | nil => simp
  | cons next rest ih =>
      rw [List.intercalate_cons_cons, List.append_assoc, List.singleton_append, ih,
        List.flatMap_cons]
      rfl

/-- A list of types can be read back from its types joined with commas. -/
theorem intercalate_comma_inj {types types' : List (List Char)}
    (h : ∀ type ∈ types, type ≠ [] ∧ IsOneType type)
    (h' : ∀ type ∈ types', type ≠ [] ∧ IsOneType type)
    (heq : [','].intercalate types = [','].intercalate types') : types = types' := by
  have hcomma := congrArg (',' :: ·) heq
  cases types with
  | nil =>
      cases types' with
      | nil => rfl
      | cons type' rest' =>
          have hne := (h' type' List.mem_cons_self).1
          simp [cons_intercalate_comma, hne] at hcomma
  | cons type rest =>
      cases types' with
      | nil =>
          have hne := (h type List.mem_cons_self).1
          simp [cons_intercalate_comma, hne] at hcomma
      | cons type' rest' =>
          simp only [cons_intercalate_comma] at hcomma
          exact flatMap_comma_inj (fun type htype => (h type htype).2)
            (fun type htype => (h' type htype).2) hcomma

/-! ## Written forms -/

/-- Names of which the written form can be taken apart again: no double
colon before the end of the type, no opening parenthesis in the name, and
commas in the parameter types inside brackets only. -/
structure IsLegible (declaringType name : String) (parameters : List String) : Prop where
  declaringType : ¬ [':', ':'] <:+: declaringType.toList ++ [':']
  name : '(' ∉ name.toList
  parameters : ∀ type ∈ parameters, IsOneType type.toList

instance (declaringType name : String) (parameters : List String) :
    Decidable (IsLegible declaringType name parameters) :=
  decidable_of_iff
    (¬ [':', ':'] <:+: declaringType.toList ++ [':'] ∧ '(' ∉ name.toList ∧
      ∀ type ∈ parameters, IsOneType type.toList)
    ⟨fun h => ⟨h.1, h.2.1, h.2.2⟩, fun h => ⟨h.declaringType, h.name, h.parameters⟩⟩

theorem toList_referenceText (declaringType name : String) (parameters : List String) :
    (referenceText declaringType name parameters).toList =
      declaringType.toList ++ [':', ':'] ++ (name.toList ++ ['('] ++
        ([','].intercalate (parameters.map String.toList) ++ [')'])) := by
  simp [referenceText, String.toList_intercalate]

/-- Legible names with the same written form are the same names. -/
theorem referenceText_inj {declaringType declaringType' name name' : String}
    {parameters parameters' : List String} (h : IsLegible declaringType name parameters)
    (h' : IsLegible declaringType' name' parameters')
    (hne : ∀ type ∈ parameters, type ≠ "") (hne' : ∀ type ∈ parameters', type ≠ "")
    (htext : referenceText declaringType name parameters =
      referenceText declaringType' name' parameters') :
    declaringType = declaringType' ∧ name = name' ∧ parameters = parameters' := by
  have hlists := congrArg String.toList htext
  rw [toList_referenceText, toList_referenceText] at hlists
  obtain ⟨htype, hrest⟩ := append_separator_inj h.declaringType h'.declaringType hlists
  have hparenthesis : ∀ {text : List Char}, '(' ∉ text → ¬ ['('] <:+: text ++ ['('].dropLast := by
    intro text htext hwithin
    rw [List.dropLast_singleton, List.append_nil] at hwithin
    exact htext (hwithin.subset List.mem_cons_self)
  obtain ⟨hname, hjoined⟩ :=
    append_separator_inj (hparenthesis h.name) (hparenthesis h'.name) hrest
  have hwords : ∀ {types : List String}, (∀ type ∈ types, type ≠ "") →
      (∀ type ∈ types, IsOneType type.toList) →
      ∀ type ∈ types.map String.toList, type ≠ [] ∧ IsOneType type := by
    intro types hnonempty hone type htype
    obtain ⟨s, hs, rfl⟩ := List.mem_map.1 htype
    exact ⟨fun hnil => hnonempty s hs (String.toList_eq_nil_iff.1 hnil), hone s hs⟩
  have hparameters := intercalate_comma_inj (hwords hne h.parameters)
    (hwords hne' h'.parameters) (List.append_cancel_right hjoined)
  exact ⟨String.toList_inj.1 htype, String.toList_inj.1 hname,
    (List.map_inj_right fun _ _ => String.toList_inj.1).1 hparameters⟩

/-! ## References in a codebase -/

/-- A method together with the type that declares it. -/
structure Declaration where
  type : TypeDefinition
  method : Method

namespace Declaration

/-- Written form of the references that mean the method. -/
def text (d : Declaration) : String :=
  referenceText d.type.name d.method.name d.method.parameterTypes

/-- What a rule may know about the method. -/
def callee (d : Declaration) : Callee :=
  ⟨d.type.name, d.method.name, d.method.flags.isPublic, d.method.flags.isStatic⟩

/-- Whether the written form of the method can be taken apart. -/
def IsLegible (d : Declaration) : Prop :=
  DisposalAudit.IsLegible d.type.name d.method.name d.method.parameterTypes

instance (d : Declaration) : Decidable d.IsLegible := by
  unfold IsLegible
  infer_instance

end Declaration

namespace MethodRef

/-- A reference describes a method by the name of its type, its own name and
the types of its parameters. -/
def Describes (ref : MethodRef) (d : Declaration) : Prop :=
  d.type.name = ref.declaringType ∧ d.method.name = ref.name ∧
    d.method.parameterTypes = ref.parameters

instance (ref : MethodRef) (d : Declaration) : Decidable (ref.Describes d) := by
  unfold Describes
  infer_instance

/-- Whether the written form of the reference can be taken apart. -/
def IsLegible (ref : MethodRef) : Prop :=
  DisposalAudit.IsLegible ref.declaringType ref.name ref.parameters

instance (ref : MethodRef) : Decidable ref.IsLegible := by
  unfold IsLegible
  infer_instance

theorem Describes.text_eq {ref : MethodRef} {d : Declaration} (h : ref.Describes d) :
    d.text = ref.key := by
  rw [Declaration.text, key, h.1, h.2.1, h.2.2]

end MethodRef

/-- A module that a document value describes. Its references may have been
settled since it was decoded. -/
def Module.IsFromDump (a : Module) : Prop :=
  ∃ source value m f, Module.ofValue source value = .ok m ∧ a = m.mapRefs f

theorem Module.IsFromDump.parameterTypes_ne_empty {a : Module} (h : a.IsFromDump) :
    ∀ t ∈ a.types, ∀ m ∈ t.methods, ∀ type ∈ m.parameterTypes, type ≠ "" := by
  obtain ⟨source, value, decoded, f, hdecoded, rfl⟩ := h
  obtain ⟨hshape, rfl⟩ := Module.ofValue_eq_ok_iff.1 hdecoded
  intro t ht m hm type htype
  obtain ⟨_, hdecodedType, rfl⟩ := List.mem_map.1 ht
  obtain ⟨typeDump, htypeDump, rfl⟩ := List.mem_map.1 hdecodedType
  obtain ⟨_, hdecodedMethod, rfl⟩ := List.mem_map.1 hm
  obtain ⟨methodDump, hmethodDump, rfl⟩ := List.mem_map.1 hdecodedMethod
  obtain ⟨parameter, hparameter, rfl⟩ := List.mem_map.1 htype
  obtain ⟨⟨parameterDump, i⟩, hentry, rfl⟩ := List.mem_map.1 hparameter
  have hparameterDump : parameterDump ∈ methodDump.parameters :=
    List.mem_of_getElem? (List.mk_mem_zipIdx_iff_getElem?.1 hentry)
  exact ModuleDump.parameter_type_ne_empty ⟨[], hshape⟩ typeDump htypeDump methodDump hmethodDump
    parameterDump hparameterDump

namespace Codebase

variable {c : Codebase} {ref : MethodRef}

/-- Every method with its type, in loading order. -/
def declarations (c : Codebase) : List Declaration :=
  c.types.flatMap fun t => t.methods.map fun m => ⟨t, m⟩

/-- No method has the written form of a reference that does not describe
it. -/
def IsUnmistakable (c : Codebase) (ref : MethodRef) : Prop :=
  ∀ d ∈ c.declarations, d.text = ref.key → ref.Describes d

/-- The callee is the method that was loaded last of those that a reference
describes. -/
def LastDescribed (c : Codebase) (ref : MethodRef) (callee : Callee) : Prop :=
  ∃ before d after, c.declarations = before ++ d :: after ∧ ref.Describes d ∧
    (∀ later ∈ after, ¬ ref.Describes later) ∧
    callee = ⟨ref.declaringType, ref.name, d.method.flags.isPublic, d.method.flags.isStatic⟩

theorem callees_eq_map : c.callees = c.declarations.map fun d => (d.text, d.callee) := by
  simp only [callees, declarations, List.map_flatMap, List.map_map]
  rfl

/-- A reference means the last method with its written form. -/
theorem resolve?_eq (c : Codebase) (ref : MethodRef) :
    c.resolve? ref =
      (c.declarations.reverse.find? fun d => d.text = ref.key).map Declaration.callee := by
  rw [resolve?, lastCallee?, callees_eq_map, ← List.map_reverse, List.find?_map, Option.map_map]
  rfl

/-- Without mistakes, the written form picks the methods that a reference
describes. -/
theorem IsUnmistakable.resolve?_eq (h : c.IsUnmistakable ref) :
    c.resolve? ref =
      (c.declarations.reverse.find? fun d => ref.Describes d).map Declaration.callee := by
  rw [Codebase.resolve?_eq]
  congr 1
  refine List.find?_congr fun d hd => ?_
  have hiff : d.text = ref.key ↔ ref.Describes d :=
    ⟨h d (List.mem_reverse.1 hd), MethodRef.Describes.text_eq⟩
  exact decide_eq_decide.2 hiff

theorem IsUnmistakable.resolve?_eq_some_iff (h : c.IsUnmistakable ref) (callee : Callee) :
    c.resolve? ref = some callee ↔ c.LastDescribed ref callee := by
  rw [h.resolve?_eq, Option.map_eq_some_iff]
  simp only [find?_reverse_eq_some_iff, decide_eq_true_eq, decide_eq_false_iff_not]
  constructor
  · rintro ⟨d, ⟨before, after, hsplit, hdescribes, hlater⟩, rfl⟩
    refine ⟨before, d, after, hsplit, hdescribes, hlater, ?_⟩
    rw [Declaration.callee, hdescribes.1, hdescribes.2.1]
  · rintro ⟨before, d, after, hsplit, hdescribes, hlater, rfl⟩
    refine ⟨d, ⟨before, after, hsplit, hdescribes, hlater⟩, ?_⟩
    rw [Declaration.callee, hdescribes.1, hdescribes.2.1]

theorem resolve?_eq_none_iff :
    c.resolve? ref = none ↔ ∀ d ∈ c.declarations, d.text ≠ ref.key := by
  simp [resolve?_eq]

/-- Legible references to legible methods are unmistakable. -/
theorem isUnmistakable_of_isLegible (hdumps : ∀ a ∈ c.modules, a.IsFromDump)
    (hparameters : ∀ type ∈ ref.parameters, type ≠ "") (href : ref.IsLegible)
    (hdeclarations : ∀ d ∈ c.declarations, d.IsLegible) : c.IsUnmistakable ref := by
  intro d hd htext
  obtain ⟨t, ht, hmethods⟩ := List.mem_flatMap.1 hd
  obtain ⟨a, ha, hta⟩ := List.mem_flatMap.1 ht
  obtain ⟨m, hm, rfl⟩ := List.mem_map.1 hmethods
  exact referenceText_inj (hdeclarations _ hd) href
    ((hdumps a ha).parameterTypes_ne_empty t hta m hm) hparameters htext

/--
**What a reference means.** Let all modules come from dumps, and let the
parameter types of a reference have names. If no method has the written form
of the reference without being described by it, the reference means the
described method that was loaded last, and nothing if none is described; and
this is so if the names of the reference and of all methods are legible. A
reference that describes no method nevertheless means one exactly if it can
be mistaken.
-/
theorem resolve?_exact (hdumps : ∀ a ∈ c.modules, a.IsFromDump)
    (hparameters : ∀ type ∈ ref.parameters, type ≠ "") :
    (c.IsUnmistakable ref →
      (∀ callee, c.resolve? ref = some callee ↔ c.LastDescribed ref callee) ∧
        (c.resolve? ref = none ↔ ∀ d ∈ c.declarations, ¬ ref.Describes d)) ∧
      (ref.IsLegible → (∀ d ∈ c.declarations, d.IsLegible) → c.IsUnmistakable ref) ∧
      ((∀ d ∈ c.declarations, ¬ ref.Describes d) →
        (c.resolve? ref ≠ none ↔ ¬ c.IsUnmistakable ref)) := by
  refine ⟨fun h => ⟨h.resolve?_eq_some_iff, ?_⟩,
    isUnmistakable_of_isLegible hdumps hparameters, fun hnone => not_congr ?_⟩
  · rw [h.resolve?_eq]
    simp
  · rw [resolve?_eq_none_iff]
    exact ⟨fun h d hd htext => absurd htext (h d hd), fun h d hd htext => hnone d hd (h d hd htext)⟩

end Codebase

/-! ## One type or two -/

/-- A dump of a type with a public method for each list of parameters. -/
def overloadsDump (overloads : List (List String)) : Value := .record
  [("module", .text "Acme.Cache"),
    ("types", .list
      [.record
        [("name", .text "Acme.Cache.Store"),
          ("methods", .list (overloads.map fun parameters =>
            .record
              [("name", .text "Put"), ("visibility", .text "public"),
                ("parameters", .list (parameters.map fun type =>
                  .record [("type", .text type)]))]))]])]

/-- The code with such a type. -/
def overloadsCode (overloads : List (List String)) : Codebase :=
  .load [(ModuleDump.ofValue (overloadsDump overloads)).decode "cache.yaml"]

/-- A reference to one of the methods. -/
def putReference (parameters : List String) : MethodRef :=
  ⟨"Acme.Cache.Store", "Put", voidType, parameters, none⟩

theorem overloadsCode_isFromDump {overloads : List (List String)}
    (hshape : ModuleDump.shape.violations [] (overloadsDump overloads) = []) :
    ∀ a ∈ (overloadsCode overloads).modules, a.IsFromDump := by
  intro a ha
  obtain ⟨m, hm, rfl⟩ := List.mem_map.1 ha
  obtain rfl := List.mem_singleton.1 hm
  exact ⟨"cache.yaml", _, _, _, Module.ofValue_eq_ok_iff.2 ⟨hshape, rfl⟩, rfl⟩

/-- A comma between brackets is part of one type. -/
theorem resolve?_bracketed_comma :
    let c := overloadsCode
      [["System.Int32[,]"], ["System.String", "System.Int32"], ["Dictionary<String,Int32>"]]
    let ref := putReference ["Dictionary<String,Int32>"]
    (∀ a ∈ c.modules, a.IsFromDump) ∧ (∀ type ∈ ref.parameters, type ≠ "") ∧
      ref.IsLegible ∧ (∀ d ∈ c.declarations, d.IsLegible) ∧ c.IsUnmistakable ref ∧
      c.resolve? ref = some ⟨"Acme.Cache.Store", "Put", true, false⟩ := by
  intro c ref
  have hdumps : ∀ a ∈ c.modules, a.IsFromDump := overloadsCode_isFromDump (by decide +kernel)
  have hparameters : ∀ type ∈ ref.parameters, type ≠ "" := by decide
  have hlegible : ref.IsLegible := by decide +kernel
  have hdeclarations : ∀ d ∈ c.declarations, d.IsLegible := by decide +kernel
  obtain ⟨hexact, hunmistakable, -⟩ := Codebase.resolve?_exact hdumps hparameters
  have hmeans := hexact (hunmistakable hlegible hdeclarations)
  refine ⟨hdumps, hparameters, hlegible, hdeclarations, hunmistakable hlegible hdeclarations,
    (hmeans.1 _).2 ?_⟩
  exact ⟨c.declarations.take 2, _, [], rfl, by decide +kernel, by simp, rfl⟩

/-- A comma outside of brackets may be part of one type as well: a reference
to a method with two parameters means the method with one. -/
theorem resolve?_joins_parameters :
    let c := overloadsCode [["System.String, mscorlib"]]
    let ref := putReference ["System.String", " mscorlib"]
    (∀ a ∈ c.modules, a.IsFromDump) ∧ (∀ d ∈ c.declarations, ¬ ref.Describes d) ∧
      c.resolve? ref = some ⟨"Acme.Cache.Store", "Put", true, false⟩ :=
  ⟨overloadsCode_isFromDump (by decide +kernel), by decide +kernel, by decide +kernel⟩

end DisposalAudit
