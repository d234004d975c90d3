import A64.Word

/-! System registers, identified by five numbers. -/

namespace A64

structure SystemRegister where
  op0 : Nat
  op1 : Nat
  crn : Nat
  crm : Nat
  op2 : Nat
  deriving DecidableEq, Repr

namespace SystemRegister

def nzcv : SystemRegister := ⟨3, 3, 4, 2, 0⟩

/-- The register of a 15-bit field. Its top bit tells `op0` 3 from `op0` 2. -/
def ofField (f : BitVec 15) : SystemRegister :=
  ⟨2 + (f.extractLsb' 14 1).toNat, (f.extractLsb' 11 3).toNat, (f.extractLsb' 7 4).toNat,
    (f.extractLsb' 3 4).toNat, (f.extractLsb' 0 3).toNat⟩

def named : List (SystemRegister × String) :=
  [(nzcv, "nzcv"),
   (⟨3, 3, 4, 2, 1⟩, "daif"),
   (⟨3, 3, 4, 4, 0⟩, "fpcr"),
   (⟨3, 3, 4, 4, 1⟩, "fpsr"),
   (⟨3, 3, 13, 0, 2⟩, "tpidr_el0"),
   (⟨3, 3, 13, 0, 3⟩, "tpidrro_el0"),
   (⟨3, 0, 13, 0, 4⟩, "tpidr_el1"),
   (⟨3, 3, 0, 0, 1⟩, "ctr_el0"),
   (⟨3, 3, 0, 0, 7⟩, "dczid_el0"),
   (⟨3, 3, 14, 0, 0⟩, "cntfrq_el0"),
   (⟨3, 3, 14, 0, 1⟩, "cntpct_el0"),
   (⟨3, 3, 14, 0, 2⟩, "cntvct_el0"),
   (⟨3, 3, 9, 12, 0⟩, "pmcr_el0"),
   (⟨3, 3, 9, 13, 0⟩, "pmccntr_el0"),
   (⟨3, 0, 0, 0, 0⟩, "midr_el1"),
   (⟨3, 0, 0, 0, 5⟩, "mpidr_el1"),
   (⟨3, 0, 1, 0, 0⟩, "sctlr_el1"),
   (⟨3, 0, 2, 0, 0⟩, "ttbr0_el1"),
   (⟨3, 0, 2, 0, 1⟩, "ttbr1_el1"),
   (⟨3, 0, 2, 0, 2⟩, "tcr_el1"),
   (⟨3, 0, 4, 0, 0⟩, "spsr_el1"),
   (⟨3, 0, 4, 0, 1⟩, "elr_el1"),
   (⟨3, 0, 4, 1, 0⟩, "sp_el0"),
   (⟨3, 0, 4, 2, 2⟩, "currentel"),
   (⟨3, 0, 5, 2, 0⟩, "esr_el1"),
   (⟨3, 0, 6, 0, 0⟩, "far_el1"),
   (⟨3, 0, 10, 2, 0⟩, "mair_el1"),
   (⟨3, 0, 12, 0, 0⟩, "vbar_el1"),
   (⟨3, 4, 1, 1, 0⟩, "hcr_el2"),
   (⟨3, 4, 12, 0, 0⟩, "vbar_el2")]

def name? (r : SystemRegister) : Option String := named.lookup r

def generic (r : SystemRegister) : String :=
  "s" ++ r.op0.repr ++ "_" ++ r.op1.repr ++ "_c" ++ r.crn.repr ++ "_c" ++ r.crm.repr ++ "_" ++
    r.op2.repr

def text (r : SystemRegister) : String := r.name?.getD r.generic

end SystemRegister

end A64
