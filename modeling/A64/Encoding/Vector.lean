import A64.Encoding.Float
import A64.Encoding.Vector.Copy
import A64.Encoding.Vector.Crypto
import A64.Encoding.Vector.ThreeSame
import A64.Encoding.Vector.TwoRegister

/-! Vectors and floating point. The groups are told apart by fixed bits, the narrower ones first. -/

namespace A64.Encoding

def hasBits (w mask bits : Word) : Bool := w &&& mask == bits

def vectorForm (w : Word) : Except Refusal Form :=
  if hasBits w 0xFF3E0C00 0x4E280800 then cipherForm w
  else if hasBits w 0xFF208C00 0x5E000000 then hashThreeForm w
  else if hasBits w 0xFF3E0C00 0x5E280800 then hashTwoForm w
  else if hasBits w 0x5F200000 0x1E200000 then floatForm w
  else if hasBits w 0x5F200000 0x1E000000 then fixedConversionForm w
  else if hasBits w 0x5F000000 0x1F000000 then floatThreeSource w
  else if hasBits w 0x9FE08400 0x0E000400 then copyForm w
  else if hasBits w 0x9F200400 0x0E200400 then threeSameForm w
  else if hasBits w 0x9F3E0C00 0x0E200800 then twoRegisterForm w
  else if hasBits w 0x9F3E0C00 0x0E300800 then acrossLanesForm w
  else unsupported

end A64.Encoding
