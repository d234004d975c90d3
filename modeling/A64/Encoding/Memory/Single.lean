import A64.Encoding.Memory.Transfer

/-! The addressing forms of single transfers. -/

namespace A64.Encoding

def unsignedOffset (w : Word) : Except Refusal SingleTransfer :=
  (Transfer.ofWord w).map fun t =>
    { toTransfer := t, family := .scaled, rt := w.rd, rn := w.rn, index := none
      displacement := ((w.field 10 12).toNat <<< t.scale : Nat), mode := .offset }

/-- A signed offset in bytes. There is no prefetch with a write-back, and none without privilege; nor
are vector registers moved without privilege. -/
def signedOffset (w : Word) (family : TransferFamily) (mode : IndexMode) :
    Except Refusal SingleTransfer :=
  (Transfer.ofWord w).bind fun t =>
    if t.access = .prefetch ∧ mode.writesBack then malformed "prefetch has no writeback form"
    else if family = .unprivileged ∧ (w.bit 26 ∨ t.access = .prefetch) then
      malformed "unallocated unprivileged load/store"
    else .ok
      { toTransfer := t, family, rt := w.rd, rn := w.rn, index := none
        displacement := (w.field 12 9).toInt, mode }

/-- The extension of an index register. The one that changes nothing is spelled `lsl`. -/
def indexExtend (option : BitVec 3) : Extend := if option = 3 then .lsl else .ofCode option

def registerOffset (w : Word) : Except Refusal SingleTransfer :=
  (Transfer.ofWord w).bind fun t =>
    let option := w.field 13 3
    if option.getLsbD 1 then .ok
      { toTransfer := t, family := .scaled, rt := w.rd, rn := w.rn
        index := some
          ⟨w.rm.gp (option.getLsbD 0), indexExtend option, if w.bit 12 then some t.scale else none⟩
        displacement := 0, mode := .offset }
    else malformed "reserved register offset extend"

end A64.Encoding
