import DisposalAudit.Body.Instruction

/-!
# Mnemonics

What the name of an instruction alone says: its category, where control
goes, and how many values it takes off and puts onto the stack. Names are
compared without regard to case.

## Main definitions

* `Mnemonic.fold` — a name in lower case.
* `Mnemonic.category?` — the category of a name.
* `Mnemonic.flow` — how control leaves the instruction.
* `Mnemonic.stackEffect?` — the counts of the names in the table.
-/

namespace DisposalAudit.Mnemonic

/-- Lower case of a character. All names that are looked for are ASCII, and
the only other character whose lower case is an ASCII letter is the Kelvin
sign. -/
def lower (c : Char) : Char := if c = '\u212A' then 'k' else c.toLower

/-- A name in lower case. -/
def fold (op : String) : String := String.ofList (op.toList.map lower)

/-- Names that belong to no category at all. -/
def reserved : List String := ["constructor", "__proto__"]

/-- Names with a category of their own. -/
def named : List (String × Opcode) :=
  [("call", .callDirect), ("callvirt", .callVirtual), ("ldfld", .loadField),
    ("stfld", .storeField), ("ldflda", .loadFieldAddress), ("newobj", .construct)]

/-- The category of a lower-case name. The first argument of an instance
method is the instance itself. -/
def category? (op : String) (isStatic : Bool) : Option Opcode :=
  if reserved.contains op then none
  else if op = "ldarg.0" ∧ !isStatic then some .loadSelf
  else some ((named.lookup op).getD .other)

/-- How control leaves an instruction with that lower-case name and operand. -/
def flow (op : String) (operand : Operand) : Flow :=
  if ["ret", "endfinally"].contains op then .returns
  else if ["throw", "rethrow"].contains op then .throws
  else if ["br", "br.s", "leave", "leave.s"].contains op then .jump
  else if operand.kind = .targets then .branch
  else .next

/-- Names by the values that they pop and push. -/
def table : List ((Nat × Nat) × List String) :=
  [((0, 0), ["nop", "br", "br.s", "leave", "leave.s", "rethrow", "endfinally"]),
    ((0, 1), ["ldarg.1", "ldarg.2", "ldarg.3", "ldarg.s", "ldarg", "ldarga.s", "ldloc.0",
      "ldloc.1", "ldloc.2", "ldloc.3", "ldloc.s", "ldloca.s", "ldnull", "ldstr", "ldc.i4.m1",
      "ldc.i4.0", "ldc.i4.1", "ldc.i4.2", "ldc.i4.3", "ldc.i4.4", "ldc.i4.5", "ldc.i4.6",
      "ldc.i4.7", "ldc.i4.8", "ldc.i4.s", "ldc.i4", "ldc.i8", "ldc.r4", "ldc.r8", "ldsfld",
      "ldsflda", "ldtoken", "ldftn"]),
    ((1, 0), ["starg.s", "stloc.0", "stloc.1", "stloc.2", "stloc.3", "stloc.s", "pop", "stsfld",
      "brtrue", "brtrue.s", "brfalse", "brfalse.s", "switch", "throw"]),
    ((1, 1), ["ldlen", "newarr", "castclass", "isinst", "box", "unbox.any", "conv.i4", "conv.i8",
      "neg", "not"]),
    ((1, 2), ["dup"]),
    ((2, 0), ["beq", "beq.s", "bne.un", "bne.un.s", "bge", "bge.s", "bgt", "bgt.s", "ble",
      "ble.s", "blt", "blt.s"]),
    ((2, 1), ["ldelem.ref", "ldelem.i4", "add", "sub", "mul", "div", "rem", "and", "or", "xor",
      "ceq", "cgt", "clt"]),
    ((3, 0), ["stelem.ref", "stelem.i4"])]

/-- Values that an instruction with that lower-case name pops and pushes in
a method with that return type. Returning takes the result along, and the
first argument is pushed like any other. -/
def stackEffect? (op returnType : String) : Option StackEffect :=
  if op = "ret" then some ⟨if returnType = voidType then 0 else 1, 0⟩
  else if op = "ldarg.0" then some ⟨0, 1⟩
  else
    (table.find? fun row => row.2.contains op).map fun row =>
      ⟨.ofNat row.1.1, .ofNat row.1.2⟩

end DisposalAudit.Mnemonic
