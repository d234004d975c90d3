import A64.Operand

/-! Register fields. Five bits name a register, and the encoding decides which bank and width they
mean. -/

namespace A64

abbrev RegisterField := BitVec 5

namespace RegisterField

def gp (n : RegisterField) (wide : Bool) : Register := .gp wide n.toNat

def gpOrSp (n : RegisterField) (wide : Bool) : Register := .gpOrSp wide n.toNat

def base (n : RegisterField) : Register := n.gpOrSp true

def float (n : RegisterField) (size : Nat) : Register := .float size n.toNat

def scalar (n : RegisterField) (size : Nat) : Operand := .register (n.float size)

def lanes (n : RegisterField) (arrangement : Arrangement) : Operand := .vector n.toNat arrangement

def lane (n : RegisterField) (size : ElementSize) (index : Nat) : Operand :=
  .element n.toNat size index

end RegisterField

namespace Word

def rd (w : Word) : RegisterField := w.field 0 5

def rn (w : Word) : RegisterField := w.field 5 5

def ra (w : Word) : RegisterField := w.field 10 5

def rm (w : Word) : RegisterField := w.field 16 5

end Word

end A64
