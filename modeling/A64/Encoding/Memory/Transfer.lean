import A64.Encoding.Field
import A64.Encoding.Form

/-! Transfers of one register: what moves, in which direction and how much of it. -/

namespace A64.Encoding

inductive Access where
  | load
  | store
  | prefetch
  deriving DecidableEq, Repr

inductive DataView where
  | general (wide : Bool)
  | float (bits : Nat)
  deriving DecidableEq, Repr

def DataView.register (n : RegisterField) : DataView → Register
  | general wide => n.gp wide
  | float bits => n.float bits

inductive TransferFamily where
  | scaled
  | unscaled
  | unprivileged
  deriving DecidableEq, Repr

/-- `scale` is the power of two of the number of bytes that move. -/
structure Transfer where
  access : Access
  view : DataView
  suffix : String
  scale : Nat
  deriving DecidableEq, Repr

namespace Transfer

def float? (size opc : BitVec 2) : Option Transfer :=
  let access : Access := if opc.getLsbD 0 then .load else .store
  if opc.getLsbD 1 then
    if size = 0 then some ⟨access, .float 128, "", 4⟩ else none
  else some ⟨access, .float (8 <<< size.toNat), "", size.toNat⟩

def general? (size opc : BitVec 2) : Option Transfer :=
  match size.toNat, opc.toNat with
  | 0, 0 => some ⟨.store, .general false, "b", 0⟩
  | 0, 1 => some ⟨.load, .general false, "b", 0⟩
  | 0, 2 => some ⟨.load, .general true, "sb", 0⟩
  | 0, _ => some ⟨.load, .general false, "sb", 0⟩
  | 1, 0 => some ⟨.store, .general false, "h", 1⟩
  | 1, 1 => some ⟨.load, .general false, "h", 1⟩
  | 1, 2 => some ⟨.load, .general true, "sh", 1⟩
  | 1, _ => some ⟨.load, .general false, "sh", 1⟩
  | 2, 0 => some ⟨.store, .general false, "", 2⟩
  | 2, 1 => some ⟨.load, .general false, "", 2⟩
  | 2, 2 => some ⟨.load, .general true, "sw", 2⟩
  | 2, _ => none
  | _, 0 => some ⟨.store, .general true, "", 3⟩
  | _, 1 => some ⟨.load, .general true, "", 3⟩
  | _, 2 => some ⟨.prefetch, .general true, "", 3⟩
  | _, _ => none

def ofWord (w : Word) : Except Refusal Transfer :=
  let size := w.field 30 2
  let opc := w.field 22 2
  match if w.bit 26 then float? size opc else general? size opc with
  | some t => .ok t
  | none => malformed "unallocated load/store size"

def stem (t : Transfer) (family : TransferFamily) : String :=
  match t.access, family with
  | .load, .scaled => "ldr"
  | .load, .unscaled => "ldur"
  | .load, .unprivileged => "ldtr"
  | .store, .scaled => "str"
  | .store, .unscaled => "stur"
  | .store, .unprivileged => "sttr"
  | .prefetch, .unscaled => "prfum"
  | .prefetch, _ => "prfm"

def mnemonic (t : Transfer) (family : TransferFamily) : String := t.stem family ++ t.suffix

def operation (t : Transfer) : Operation :=
  match t.access with
  | .load => .load
  | .store => .store
  | .prefetch => .prefetch

end Transfer

def prefetchOperand (n : RegisterField) : Operand :=
  let target? : Option String := ["pld", "pli", "pst"][(n.extractLsb' 3 2).toNat]?
  let level? : Option String := ["l1", "l2", "l3"][(n.extractLsb' 1 2).toNat]?
  match target?, level? with
  | some target, some level =>
    .named (target ++ level ++ if n.getLsbD 0 then "strm" else "keep")
  | _, _ => .count n.toNat

structure SingleTransfer extends Transfer where
  family : TransferFamily
  rt : RegisterField
  rn : RegisterField
  index : Option ExtendedRegister
  displacement : Int
  mode : IndexMode
  deriving DecidableEq, Repr

namespace SingleTransfer

def data (e : SingleTransfer) : Register := e.view.register e.rt

def base (e : SingleTransfer) : Register := e.rn.base

def memory (e : SingleTransfer) : MemoryRef := ⟨some e.base, e.index, e.displacement, e.mode⟩

def dataOperand (e : SingleTransfer) : Operand :=
  if e.access = .prefetch then prefetchOperand e.rt else .register e.data

def form (e : SingleTransfer) : Form where
  toSpelling := spelled (e.mnemonic e.family) e.operation [e.dataOperand, .memory e.memory]
  reads := .of
    ([e.base] ++ (if e.access = .store then [e.data] else []) ++ (e.index.map (·.reg)).toList)
  writes := .of
    ((if e.access = .load then [e.data] else []) ++ if e.mode.writesBack then [e.base] else [])

end SingleTransfer

end A64.Encoding
