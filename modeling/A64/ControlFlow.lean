/-! How an instruction leaves the straight line, and what it computes from its own address. -/

namespace A64

inductive Branch where
  | none
  | call
  | conditional
  | unconditional
  | exception
  deriving DecidableEq, Repr

namespace Branch

def all : List Branch := [none, call, conditional, unconditional, exception]

def label? : Branch → Option String
  | none => Option.none
  | call => some "call"
  | conditional => some "cond"
  | unconditional => some "uncond"
  | exception => some "exception"

end Branch

inductive PcRelative where
  | none
  | shortBranch
  | longBranch
  | addressPage
  | addressIndex
  deriving DecidableEq, Repr

namespace PcRelative

def all : List PcRelative := [none, shortBranch, longBranch, addressPage, addressIndex]

def label? : PcRelative → Option String
  | none => Option.none
  | shortBranch => some "br-short"
  | longBranch => some "br-long"
  | addressPage => some "addr-page"
  | addressIndex => some "addr-index"

end PcRelative

end A64
