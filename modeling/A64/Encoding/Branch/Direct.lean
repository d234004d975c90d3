import A64.Encoding.Field
import A64.Encoding.Form

/-! Branches to a displacement from the instruction, counted in words. -/

namespace A64.Encoding

structure BranchImmediate where
  link : Bool
  words : BitVec 26
  deriving DecidableEq, Repr

namespace BranchImmediate

def ofWord (w : Word) : BranchImmediate := ⟨w.bit 31, w.field 0 26⟩

def form (e : BranchImmediate) : Form where
  toSpelling := if e.link then spelled "bl" .call [] else spelled "b" .jump []
  writes := if e.link then .of [.lr] else .empty
  branch := if e.link then .call else .unconditional
  reference := some (.displaced .longBranch (4 * e.words.toInt))

end BranchImmediate

structure CompareBranch where
  wide : Bool
  nonzero : Bool
  words : BitVec 19
  rt : RegisterField
  deriving DecidableEq, Repr

namespace CompareBranch

def ofWord (w : Word) : CompareBranch := ⟨w.bit 31, w.bit 24, w.field 5 19, w.rd⟩

def form (e : CompareBranch) : Form where
  toSpelling :=
    spelled (if e.nonzero then "cbnz" else "cbz") .conditionalJump [.register (e.rt.gp e.wide)]
  reads := .of [e.rt.gp e.wide]
  branch := .conditional
  reference := some (.displaced .shortBranch (4 * e.words.toInt))

end CompareBranch

structure TestBranch where
  nonzero : Bool
  position : BitVec 6
  words : BitVec 14
  rt : RegisterField
  deriving DecidableEq, Repr

namespace TestBranch

def ofWord (w : Word) : TestBranch :=
  ⟨w.bit 24, w.field 31 1 ++ w.field 19 5, w.field 5 14, w.rd⟩

/-- The tested register is as narrow as its tested bit allows. -/
def tested (e : TestBranch) : Register := e.rt.gp (32 ≤ e.position.toNat)

def form (e : TestBranch) : Form where
  toSpelling :=
    spelled (if e.nonzero then "tbnz" else "tbz") .conditionalJump
      [.register e.tested, .count e.position.toNat]
  reads := .of [e.tested]
  branch := .conditional
  reference := some (.displaced .shortBranch (4 * e.words.toInt))

end TestBranch

structure ConditionalBranch where
  condition : Condition
  words : BitVec 19
  deriving DecidableEq, Repr

namespace ConditionalBranch

def ofWord (w : Word) : Except Refusal ConditionalBranch :=
  if w.bit 25 || w.bit 24 then malformed "unallocated conditional branch"
  else if w.bit 4 then unsupported
  else .ok ⟨.ofCode (w.field 0 4), w.field 5 19⟩

/-- A condition that always holds makes a plain jump. -/
def form (e : ConditionalBranch) : Form where
  toSpelling :=
    spelled ("b." ++ e.condition.suffix)
      (if e.condition.isAlways then .jump else .conditionalJump) []
  reads := RegisterSet.empty.withFlags !e.condition.isAlways
  branch := if e.condition.isAlways then .unconditional else .conditional
  reference := some (.displaced .shortBranch (4 * e.words.toInt))

end ConditionalBranch

end A64.Encoding
