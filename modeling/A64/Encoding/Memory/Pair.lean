import A64.Encoding.Memory.Transfer

/-! Transfers of two registers. -/

namespace A64.Encoding

/-- `nonTemporal` hints that the data will not be used again soon. -/
structure PairTransfer where
  load : Bool
  nonTemporal : Bool
  signed : Bool
  view : DataView
  scale : Nat
  mode : IndexMode
  units : BitVec 7
  rt : RegisterField
  rt2 : RegisterField
  rn : RegisterField
  deriving DecidableEq, Repr

namespace PairTransfer

def modeOf (b : BitVec 2) : IndexMode :=
  match b.toNat with
  | 1 => .postIndex
  | 3 => .preIndex
  | _ => .offset

def kind (simd load nonTemporal : Bool) (opc : BitVec 2) : Except Refusal (DataView × Nat × Bool) :=
  match simd, opc.toNat with
  | true, 0 => .ok (.float 32, 2, false)
  | true, 1 => .ok (.float 64, 3, false)
  | true, 2 => .ok (.float 128, 4, false)
  | false, 0 => .ok (.general false, 2, false)
  | false, 1 =>
    if nonTemporal then malformed "unallocated pair size"
    else if load then .ok (.general true, 2, true)
    else unsupported
  | false, 2 => .ok (.general true, 3, false)
  | _, _ => malformed "unallocated pair size"

def ofWord (w : Word) : Except Refusal PairTransfer :=
  let load := w.bit 22
  let nonTemporal := w.field 23 2 == 0
  (kind (w.bit 26) load nonTemporal (w.field 30 2)).map fun (view, scale, signed) =>
    ⟨load, nonTemporal, signed, view, scale, modeOf (w.field 23 2), w.field 15 7, w.rd, w.ra, w.rn⟩

def mnemonic (e : PairTransfer) : String :=
  match e.load, e.nonTemporal, e.signed with
  | true, true, _ => "ldnp"
  | true, false, true => "ldpsw"
  | true, false, false => "ldp"
  | false, true, _ => "stnp"
  | false, false, _ => "stp"

def displacement (e : PairTransfer) : Int := e.units.toInt <<< e.scale

def form (e : PairTransfer) : Form :=
  let first := e.view.register e.rt
  let second := e.view.register e.rt2
  let base := e.rn.base
  { toSpelling :=
      spelled e.mnemonic (if e.load then .load else .store)
        [.register first, .register second, .memory (.withMode base e.displacement e.mode)]
    reads := .of ([base] ++ if e.load then [] else [first, second])
    writes := .of
      ((if e.load then [first, second] else []) ++ if e.mode.writesBack then [base] else []) }

end PairTransfer

end A64.Encoding
