import A64.Encoding.Field
import A64.Encoding.Form

/-! Branches to a register, with and without pointer authentication, and returns. -/

namespace A64.Encoding

inductive AuthKey where
  | a
  | b
  deriving DecidableEq, Repr

def AuthKey.letter : AuthKey → String
  | a => "a"
  | b => "b"

inductive BranchRegister where
  | plain (link : Bool) (rn : RegisterField)
  /-- Authenticated with zero as modifier. -/
  | authZero (link : Bool) (key : AuthKey) (rn : RegisterField)
  /-- Authenticated with a register as modifier. -/
  | auth (link : Bool) (key : AuthKey) (rn rm : RegisterField)
  | ret (rn : RegisterField)
  | retAuth (key : AuthKey)
  | exceptionReturn (key : Option AuthKey)
  | debugReturn
  deriving DecidableEq, Repr

namespace BranchRegister

/-- The key of the opcode field: none, one of the two, or not allocated. -/
def key? (b : BitVec 6) : Option (Option AuthKey) :=
  match b.toNat with
  | 0 => some none
  | 2 => some (some .a)
  | 3 => some (some .b)
  | _ => none

def of? (opc : BitVec 4) (key : Option AuthKey) (rn last : RegisterField) : Option BranchRegister :=
  match opc.toNat, key with
  | 0, none => if last = 0 then some (plain false rn) else none
  | 0, some k => if last = 31 then some (authZero false k rn) else none
  | 1, none => if last = 0 then some (plain true rn) else none
  | 1, some k => if last = 31 then some (authZero true k rn) else none
  | 2, none => if last = 0 then some (ret rn) else none
  | 2, some k => if last = 31 ∧ rn = 31 then some (retAuth k) else none
  | 4, none => if last = 0 ∧ rn = 31 then some (exceptionReturn none) else none
  | 4, some k => if last = 31 ∧ rn = 31 then some (exceptionReturn (some k)) else none
  | 5, none => if last = 0 ∧ rn = 31 then some debugReturn else none
  | 8, some k => some (auth false k rn last)
  | 9, some k => some (auth true k rn last)
  | _, _ => none

def ofWord? (w : Word) : Option BranchRegister :=
  if w.field 16 5 = 31 then
    (key? (w.field 10 6)).bind fun key => of? (w.field 21 4) key w.rn w.rd
  else none

def ofWord (w : Word) : Except Refusal BranchRegister :=
  match ofWord? w with
  | some e => .ok e
  | none => malformed "unallocated branch register encoding"

def stem (link : Bool) : String := if link then "blr" else "br"

def jump (link : Bool) (mnemonic : String) (sources : List Register) : Form where
  toSpelling :=
    spelled mnemonic (if link then .call else .jump) (sources.map .register)
  reads := .of sources
  writes := if link then .of [.lr] else .empty
  branch := if link then .call else .unconditional

/-- A return that depends on more than registers can say. -/
def unwind (mnemonic : String) : Form where
  toSpelling := spelled mnemonic .return []
  reads := .all
  writes := .all
  branch := .exception

/-- A return to the link register does not write it. -/
def form : BranchRegister → Form
  | plain link rn => jump link (stem link) [rn.gp true]
  | authZero link key rn => jump link (stem link ++ "a" ++ key.letter ++ "z") [rn.gp true]
  | auth link key rn rm => jump link (stem link ++ "a" ++ key.letter) [rn.gp true, rm.base]
  | ret rn =>
    { toSpelling := spelled "ret" .return (if rn = 30 then [] else [.register (rn.gp true)])
      reads := .of [rn.gp true]
      branch := .unconditional }
  | retAuth key =>
    { toSpelling := spelled ("reta" ++ key.letter) .return []
      reads := .of [.lr, .sp]
      branch := .unconditional }
  | exceptionReturn none => unwind "eret"
  | exceptionReturn (some key) => unwind ("ereta" ++ key.letter)
  | debugReturn => unwind "drps"

end BranchRegister

end A64.Encoding
