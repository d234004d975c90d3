import A64.Encoding.Float.Arithmetic

/-! Comparisons, selections and immediates of scalars. -/

namespace A64.Encoding

def floatCompare (w : Word) (width : Nat) : Except Refusal Form :=
  if w.field 14 2 != 0 || w.field 0 3 != 0 then malformed "unallocated floating-point compare"
  else .ok
    { toSpelling :=
        spelled (if w.bit 4 then "fcmpe" else "fcmp") .floatCompare
          [w.rn.scalar width, if w.bit 3 then .float .zero else w.rm.scalar width]
      writes := .flags }

def floatConditionalCompare (w : Word) (width : Nat) : Form where
  toSpelling :=
    spelled (if w.bit 4 then "fccmpe" else "fccmp") .floatCompare
      [w.rn.scalar width, w.rm.scalar width, .count (w.field 0 4).toNat,
       .condition (.ofCode (w.field 12 4))]
  reads := .flags
  writes := .flags

def floatSelect (w : Word) (width : Nat) : Form where
  toSpelling :=
    spelled "fcsel" .conditionalSelect
      [w.rd.scalar width, w.rn.scalar width, w.rm.scalar width, .condition (.ofCode (w.field 12 4))]
  reads := .flags

def floatImmediate (w : Word) (width : Nat) : Except Refusal Form :=
  if w.field 5 5 ≠ 0 then malformed "unallocated floating-point immediate"
  else .ok (.plain (spelled "fmov" .move
    [w.rd.scalar width, .float (.ofImmediate (w.field 13 8))]))

end A64.Encoding
