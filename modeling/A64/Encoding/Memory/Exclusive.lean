import A64.Encoding.Field
import A64.Encoding.Form
import A64.Encoding.Memory.Ordering

/-! Exclusive and ordered accesses, and compare and swap. -/

namespace A64.Encoding

/-- `size` is the power of two of the bytes that move, and `fenced` says that the access acquires or
releases. -/
inductive ExclusiveAccess where
  | single (load fenced : Bool) (size : BitVec 2) (rs rt rn : RegisterField)
  | pair (load fenced : Bool) (wide : Bool) (rs rt rt2 rn : RegisterField)
  | ordered (load strict : Bool) (size : BitVec 2) (rt rn : RegisterField)
  | swap (acquire release : Bool) (size : BitVec 2) (rs rt rn : RegisterField)
  | swapPair (acquire release : Bool) (wide : Bool) (rs rt rn : RegisterField)
  deriving DecidableEq, Repr

namespace ExclusiveAccess

/-- A pair is compared and swapped in registers that start at an even number. -/
def ofWord (w : Word) : Except Refusal ExclusiveAccess :=
  let size := w.field 30 2
  let load := w.bit 22
  let o0 := w.bit 15
  match w.bit 23, w.bit 21 with
  | false, false => .ok (single load o0 size w.rm w.rd w.rn)
  | false, true =>
    if size.getLsbD 1 then .ok (pair load o0 (size.getLsbD 0) w.rm w.rd w.ra w.rn)
    else if w.rm.getLsbD 0 || w.rd.getLsbD 0 then
      malformed "compare and swap pair needs even registers"
    else .ok (swapPair load o0 (size.getLsbD 0) w.rm w.rd w.rn)
  | true, false => .ok (ordered load o0 size w.rd w.rn)
  | true, true => .ok (swap load o0 size w.rm w.rd w.rn)

/-- The access through `[base]` of instructions that never write their base. -/
def access (mnemonic : String) (operation : Operation) (operands : List Register)
    (base : Register) (reads writes : List Register) : Form where
  toSpelling := spelled mnemonic operation (operands.map .register ++ [.memory (.ofBase base)])
  reads := .of (base :: reads)
  writes := .of writes

def orderedStem (load strict : Bool) : String :=
  match load, strict with
  | true, true => "ldar"
  | true, false => "ldlar"
  | false, true => "stlr"
  | false, false => "stllr"

def successor (wide : Bool) (n : RegisterField) : Register := .gp wide (n.toNat + 1)

def form : ExclusiveAccess → Form
  | single load fenced size rs rt rn =>
    let data := rt.gp (size = 3)
    let status := rs.gp false
    if load then
      access ((if fenced then "ldaxr" else "ldxr") ++ sizeSuffix size) .load [data] rn.base [] [data]
    else
      access ((if fenced then "stlxr" else "stxr") ++ sizeSuffix size) .store [status, data] rn.base
        [data] [status]
  | pair load fenced wide rs rt rt2 rn =>
    let first := rt.gp wide
    let second := rt2.gp wide
    let status := rs.gp false
    if load then
      access (if fenced then "ldaxp" else "ldxp") .load [first, second] rn.base [] [first, second]
    else
      access (if fenced then "stlxp" else "stxp") .store [status, first, second] rn.base
        [first, second] [status]
  | ordered load strict size rt rn =>
    let data := rt.gp (size = 3)
    let mnemonic := orderedStem load strict ++ sizeSuffix size
    if load then access mnemonic .load [data] rn.base [] [data]
    else access mnemonic .store [data] rn.base [data] []
  | swap acquire release size rs rt rn =>
    let compared := rs.gp (size = 3)
    let new := rt.gp (size = 3)
    access ("cas" ++ orderingSuffix acquire release ++ sizeSuffix size) .compareExchange
      [compared, new] rn.base [compared, new] [compared]
  | swapPair acquire release wide rs rt rn =>
    let compared := [rs.gp wide, successor wide rs]
    let new := [rt.gp wide, successor wide rt]
    access ("casp" ++ orderingSuffix acquire release) .compareExchange (compared ++ new) rn.base
      (compared ++ new) compared

end ExclusiveAccess

end A64.Encoding
