import A64.Binary64.Text
import A64.Error
import A64.Instruction
import A64.Text.Numeral

/-! Assembly text. An instruction is written as its mnemonic and its operands; the first operand that
assembly cannot write is reported by its index. -/

namespace A64

/-- The base in which immediate values are written. Counts are always decimal. -/
inductive ImmediateFormat where
  | hex
  | decimal
  deriving DecidableEq, Repr

def ImmediateFormat.ofDecimal (decimal : Bool) : ImmediateFormat := if decimal then .decimal else .hex

inductive OperandDefect where
  | namelessRegister
  | notFinite
  | noBase
  | indexAndDisplacement
  | indexWithWriteback
  | vectorOutOfRange
  | controlOutOfRange
  | emptyName
  deriving DecidableEq, Repr

def OperandDefect.message : OperandDefect → String
  | namelessRegister => "register has no A64 name"
  | notFinite => "floating-point immediate is not finite"
  | noBase => "memory operand without a base register"
  | indexAndDisplacement => "memory operand with index and displacement"
  | indexWithWriteback => "register index with writeback"
  | vectorOutOfRange => "vector register out of range"
  | controlOutOfRange => "control register out of range"
  | emptyName => "empty operand name"

/-- An immediate value after its hash sign. The sign of a negative one stands before `0x`. -/
def immediateText (format : ImmediateFormat) (v : Int) : String :=
  match format with
  | .decimal => "#" ++ Numeral.text v
  | .hex => (if v < 0 then "#-" else "#") ++ Hex.text v.natAbs

def Register.render (r : Register) : Except OperandDefect String :=
  if r.isValid then .ok r.text else .error .namelessRegister

def ExtendedRegister.suffix (e : ExtendedRegister) : String :=
  match e.extend, e.amount with
  | .lsl, none => ""
  | extend, none => ", " ++ extend.text
  | extend, some amount => ", " ++ extend.text ++ " #" ++ amount.repr

def ExtendedRegister.render (e : ExtendedRegister) : Except OperandDefect String :=
  e.reg.render.map (· ++ e.suffix)

def MemoryRef.displacementText (format : ImmediateFormat) (base : String) (displacement : Int) :
    IndexMode → String
  | .offset =>
    if displacement = 0 then "[" ++ base ++ "]"
    else "[" ++ base ++ ", " ++ immediateText format displacement ++ "]"
  | .preIndex => "[" ++ base ++ ", " ++ immediateText format displacement ++ "]!"
  | .postIndex => "[" ++ base ++ "], " ++ immediateText format displacement

def MemoryRef.render (format : ImmediateFormat) (m : MemoryRef) : Except OperandDefect String :=
  match m.base with
  | none => .error .noBase
  | some r =>
    r.render.bind fun base =>
      match m.index with
      | none => .ok (displacementText format base m.displacement m.mode)
      | some index =>
        if m.displacement ≠ 0 then .error .indexAndDisplacement
        else if m.mode.writesBack then .error .indexWithWriteback
        else index.render.map fun i => "[" ++ base ++ ", " ++ i ++ "]"

def Operand.render (format : ImmediateFormat) : Operand → Except OperandDefect String
  | .register r => r.render
  | .shifted r shift amount => r.render.map (· ++ ", " ++ shift.text ++ " #" ++ amount.repr)
  | .extended e => e.render
  | .immediate i => .ok (immediateText format i.value)
  | .shiftedImmediate value shift =>
    .ok (immediateText format value ++ if shift = 0 then "" else ", lsl #" ++ shift.repr)
  | .count n => .ok ("#" ++ n.repr)
  | .float x => if x.isFinite then .ok ("#" ++ x.text) else .error .notFinite
  | .memory m => m.render format
  | .pcRelative _ target => .ok (Hex.text target.toNat)
  | .condition c => .ok c.suffix
  | .vector reg arrangement =>
    if reg < 32 then .ok ("v" ++ reg.repr ++ "." ++ arrangement.text) else .error .vectorOutOfRange
  | .element reg size index =>
    if reg < 32 then .ok ("v" ++ reg.repr ++ "." ++ size.text ++ "[" ++ index.repr ++ "]")
    else .error .vectorOutOfRange
  | .systemRegister r => .ok r.text
  | .controlRegister n => if n < 16 then .ok ("c" ++ n.repr) else .error .controlOutOfRange
  | .named name => if name.isEmpty then .error .emptyName else .ok name

/-- The texts of operands, the first standing at index `i`; or the first index without a text. -/
def Operand.renderAll (format : ImmediateFormat) (i : Nat) :
    List Operand → Except (Nat × OperandDefect) (List String)
  | [] => .ok []
  | op :: ops =>
    match op.render format with
    | .error d => .error (i, d)
    | .ok t => (renderAll format (i + 1) ops).map (t :: ·)

def assemblyLine (mnemonic : String) : List String → String
  | [] => mnemonic
  | ts => mnemonic ++ " " ++ ", ".intercalate ts

def Instruction.render (format : ImmediateFormat) (i : Instruction) : Except RenderError String :=
  match i.mnemonic with
  | none => .error (.unnamed i.address i.raw i.encodingClass)
  | some mnemonic =>
    match Operand.renderAll format 0 i.operands with
    | .error (index, d) => .error (.invalidOperand i.address i.raw index d.message)
    | .ok ts => .ok (assemblyLine mnemonic ts)

end A64
