import A64.Encoding.Field
import A64.Encoding.Form

/-! Rounds of ciphers and hashes. -/

namespace A64.Encoding

def cipherName? (opcode : BitVec 5) : Option String :=
  match opcode.toNat with
  | 4 => some "aese"
  | 5 => some "aesd"
  | 6 => some "aesmc"
  | 7 => some "aesimc"
  | _ => none

def cipherForm (w : Word) : Except Refusal Form :=
  if w.field 22 2 ≠ 0 then malformed "reserved aes size"
  else
    match cipherName? (w.field 12 5) with
    | some mnemonic => .ok (.plain (spelled mnemonic .crypto [w.rd.lanes .b16, w.rn.lanes .b16]))
    | none => malformed "unallocated aes opcode"

inductive HashView where
  | scalar (width : Nat)
  | words
  deriving DecidableEq, Repr

def HashView.operand (n : RegisterField) : HashView → Operand
  | scalar width => n.scalar width
  | words => n.lanes .s4

def hashThree? (opcode : BitVec 3) : Option (String × HashView × HashView) :=
  match opcode.toNat with
  | 0 => some ("sha1c", .scalar 128, .scalar 32)
  | 1 => some ("sha1p", .scalar 128, .scalar 32)
  | 2 => some ("sha1m", .scalar 128, .scalar 32)
  | 3 => some ("sha1su0", .words, .words)
  | 4 => some ("sha256h", .scalar 128, .scalar 128)
  | 5 => some ("sha256h2", .scalar 128, .scalar 128)
  | 6 => some ("sha256su1", .words, .words)
  | _ => none

def hashThreeForm (w : Word) : Except Refusal Form :=
  if w.field 22 2 ≠ 0 then malformed "reserved sha size"
  else
    match hashThree? (w.field 12 3) with
    | some (mnemonic, first, second) =>
      .ok (.plain (spelled mnemonic .crypto
        [first.operand w.rd, second.operand w.rn, w.rm.lanes .s4]))
    | none => malformed "unallocated sha opcode"

def hashTwo? (opcode : BitVec 5) : Option (String × HashView) :=
  match opcode.toNat with
  | 0 => some ("sha1h", .scalar 32)
  | 1 => some ("sha1su1", .words)
  | 2 => some ("sha256su0", .words)
  | _ => none

def hashTwoForm (w : Word) : Except Refusal Form :=
  if w.field 22 2 ≠ 0 then malformed "reserved sha size"
  else
    match hashTwo? (w.field 12 5) with
    | some (mnemonic, view) =>
      .ok (.plain (spelled mnemonic .crypto [view.operand w.rd, view.operand w.rn]))
    | none => malformed "unallocated sha opcode"

end A64.Encoding
