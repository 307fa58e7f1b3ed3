import DisposalAudit.Body.Method

/-!
# Method patterns

A method described by its name and, where given, its return type and the
types of its parameters.

## Main definitions

* `MethodPattern.accepts` — whether a method fits.
* `MethodPattern.finalize`, … — the methods that every object has, and
  `close`.
-/

namespace DisposalAudit

/-- A description of methods. -/
structure MethodPattern where
  name : String
  /-- Any return type if absent. -/
  returnType : Option String
  /-- Any parameters if absent; an absent entry stands for any type. -/
  parameters : Option (List (Option String))
  deriving DecidableEq

namespace MethodPattern

/-- Whether parameter types fit a list of expected ones, one by one. -/
def acceptsTypes : List (Option String) → List String → Bool
  | [], [] => true
  | expected :: patterns, type :: types =>
    (expected.all fun name => name = type) && acceptsTypes patterns types
  | _, _ => false

/-- Whether a method fits the pattern. -/
def accepts (pattern : MethodPattern) (m : Method) : Bool :=
  m.name = pattern.name &&
    (pattern.returnType.all fun type => type = m.returnType) &&
    (pattern.parameters.all fun types => acceptsTypes types m.parameterTypes)

/-- The finalizer. -/
def finalize : MethodPattern := ⟨"Finalize", some voidType, some []⟩

/-- The hash code of an object. -/
def getHashCode : MethodPattern := ⟨"GetHashCode", some "System.Int32", some []⟩

/-- The text of an object. -/
def toText : MethodPattern := ⟨"ToString", some "System.String", some []⟩

/-- Equality with one other object of any type. -/
def equals : MethodPattern := ⟨"Equals", some "System.Boolean", some [none]⟩

/-- Closing, which disposable types offer as another name of disposal. -/
def close : MethodPattern := ⟨"Close", some voidType, some []⟩

/-- The patterns above under their short names, sorted. -/
def wellKnown : List (String × MethodPattern) :=
  [("Close", close), ("Equals1", equals), ("Finalize", finalize),
    ("GetHashCode", getHashCode), ("ToString", toText)]

end MethodPattern

end DisposalAudit
