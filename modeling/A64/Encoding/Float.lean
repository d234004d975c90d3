import A64.Encoding.Float.Compare

/-! Scalar floating point. -/

namespace A64.Encoding

/-- The scalar operations of one width, told apart by bits 15 to 10. -/
def scalarForm (w : Word) (width : Nat) : Except Refusal Form :=
  match (w.field 10 2).toNat with
  | 1 => .ok (floatConditionalCompare w width)
  | 2 => floatTwoSource w width
  | 3 => .ok (floatSelect w width)
  | _ =>
    if w.field 10 5 = 16 then floatOneSource w width
    else if w.field 10 4 = 8 then floatCompare w width
    else if w.field 10 3 = 4 then floatImmediate w width
    else malformed "unallocated scalar floating point"

def floatForm (w : Word) : Except Refusal Form :=
  if w.bit 29 then malformed "S bit set in scalar floating point"
  else if w.field 10 6 = 0 then integerConversionForm w
  else if w.bit 31 then malformed "M bit set in scalar floating point"
  else (floatWidth w).bind (scalarForm w)

end A64.Encoding
