import A64.Proofs.Assembler.Fields

/-! The assembler of atomic accesses. Their mnemonics are a stem with suffixes for the ordering and the
size. No stem begins another and no ordering begins a size, so a mnemonic is read from left to right.
Main statement: a decoded atomic access is read back from its text. -/

namespace A64.Encoding

variable {w : Word}

namespace AtomicOp

def code : AtomicOp → BitVec 3
  | add => 0
  | clr => 1
  | eor => 2
  | set => 3
  | smax => 4
  | smin => 5
  | umax => 6
  | umin => 7

theorem code_ofCode : ∀ b : BitVec 3, (ofCode b).code = b := by decide

def read? : List Char → Option (AtomicOp × List Char)
  | 'a' :: 'd' :: 'd' :: rest => some (add, rest)
  | 'c' :: 'l' :: 'r' :: rest => some (clr, rest)
  | 'e' :: 'o' :: 'r' :: rest => some (eor, rest)
  | 's' :: 'e' :: 't' :: rest => some (set, rest)
  | 's' :: 'm' :: 'a' :: 'x' :: rest => some (smax, rest)
  | 's' :: 'm' :: 'i' :: 'n' :: rest => some (smin, rest)
  | 'u' :: 'm' :: 'a' :: 'x' :: rest => some (umax, rest)
  | 'u' :: 'm' :: 'i' :: 'n' :: rest => some (umin, rest)
  | _ => none

theorem read?_name (op : AtomicOp) (rest : List Char) :
    read? (op.name.toList ++ rest) = some (op, rest) := by
  cases op <;> rfl

end AtomicOp

def accessSize? (wide : Bool) : List Char → Option (BitVec 2)
  | ['b'] => some 0
  | ['h'] => some 1
  | [] => some (if wide then 3 else 2)
  | _ => none

theorem accessSize?_sizeSuffix : ∀ size : BitVec 2,
    accessSize? (size = 3#2) (sizeSuffix size).toList = some size := by decide

def accessKind? (wide : Bool) : List Char → Option (Bool × Bool × BitVec 2)
  | 'a' :: 'l' :: rest => (accessSize? wide rest).map (true, true, ·)
  | 'a' :: rest => (accessSize? wide rest).map (true, false, ·)
  | 'l' :: rest => (accessSize? wide rest).map (false, true, ·)
  | rest => (accessSize? wide rest).map (false, false, ·)

theorem accessKind?_suffixes : ∀ (acquire release : Bool) (size : BitVec 2),
    accessKind? (size = 3#2) ((orderingSuffix acquire release).toList ++ (sizeSuffix size).toList) =
      some (acquire, release, size) := by decide

namespace AtomicAccess

def wordOf (size : BitVec 2) (acquire release : Bool) (rs : RegisterField) (exchange : Bool)
    (opc : BitVec 3) (rn rt : RegisterField) : Word :=
  size ++ 0b111000#6 ++ BitVec.ofBool acquire ++ BitVec.ofBool release ++ 1#1 ++ rs ++
    BitVec.ofBool exchange ++ opc ++ 0b00#2 ++ rn ++ rt

theorem wordOf_fields (hhigh : w.field 24 6 = 0b111000#6) (hr : w.bit 21 = true)
    (hlow : w.field 10 2 = 0b00#2) :
    wordOf (w.field 30 2) (w.bit 23) (w.bit 22) w.rm (w.bit 15) (w.field 12 3) w.rn w.rd = w := by
  have hone : w.field 21 1 = 1#1 := Word.field_of_bit hr
  simp only [wordOf, Word.ofBool_bit, Word.rm, Word.rn, Word.rd, ← hhigh, ← hlow, ← hone,
    Word.field_append]
  exact w.field_all

def word : AtomicAccess → Word
  | modify op acquire release size rs rt rn => wordOf size acquire release rs false op.code rn rt
  | swap acquire release size rs rt rn => wordOf size acquire release rs true 0 rn rt
  | loadAcquire size rt rn => wordOf size true false 31 true 4 rn rt

theorem word_of_ofWord {e : AtomicAccess} (hhigh : w.field 24 6 = 0b111000#6)
    (hr : w.bit 21 = true) (hlow : w.field 10 2 = 0b00#2) (he : ofWord w = .ok e) : e.word = w := by
  have hw := wordOf_fields hhigh hr hlow
  simp only [ofWord] at he
  split at he
  case isTrue hexchange =>
    rw [hexchange] at hw
    split at he
    · next hopc =>
      cases he
      rwa [hopc] at hw
    · split at he
      · next hacquire =>
        obtain ⟨hopc, hacq, hrel, hrm⟩ := hacquire
        rw [Bool.not_eq_true'] at hrel
        cases he
        rwa [hopc, hacq, hrel, hrm] at hw
      · simp at he
  case isFalse hexchange =>
    cases he
    rwa [Bool.eq_false_of_not_eq_true hexchange, ← AtomicOp.code_ofCode (w.field 12 3)] at hw

def loading? (source data base : Register) : List Char → Option AtomicAccess
  | 's' :: 'w' :: 'p' :: rest =>
    (accessKind? source.isWide rest).map fun (acquire, release, size) =>
      swap acquire release size source.field data.field base.field
  | 'l' :: 'd' :: rest =>
    (AtomicOp.read? rest).bind fun (op, rest) =>
      (accessKind? source.isWide rest).map fun (acquire, release, size) =>
        modify op acquire release size source.field data.field base.field
  | _ => none

def single? (reg base : Register) : List Char → Option AtomicAccess
  | 's' :: 't' :: rest =>
    (AtomicOp.read? rest).bind fun (op, rest) =>
      (accessKind? reg.isWide rest).map fun (acquire, release, size) =>
        modify op acquire release size reg.field 31 base.field
  | 'l' :: 'd' :: 'a' :: 'p' :: 'r' :: rest =>
    (accessSize? reg.isWide rest).map (loadAcquire · reg.field base.field)
  | _ => none

def ofText? (m : String) : List Operand → Option AtomicAccess
  | [.register source, .register data, .memory memory] =>
    memory.base.bind fun base => loading? source data base m.toList
  | [.register reg, .memory memory] => memory.base.bind fun base => single? reg base m.toList
  | _ => none

theorem ofText?_form (e : AtomicAccess) :
    e.form.mnemonic.bind (ofText? · e.form.operands) = some e := by
  have hbase (base : Register) : (MemoryRef.ofBase base).base = some base := rfl
  cases e with
  | modify op acquire release size rs rt rn =>
    by_cases hstore : rt = 31#5 ∧ acquire = false
    · obtain ⟨rfl, rfl⟩ := hstore
      simp [form, spelled, ofText?, hbase, single?, AtomicOp.read?_name, accessKind?_suffixes]
    · simp [form, spelled, hstore, ofText?, hbase, loading?, AtomicOp.read?_name,
        accessKind?_suffixes]
  | swap acquire release size rs rt rn =>
    simp [form, spelled, ofText?, hbase, loading?, accessKind?_suffixes]
  | loadAcquire size rt rn =>
    simp [form, spelled, ofText?, hbase, single?, accessSize?_sizeSuffix]

end AtomicAccess

end A64.Encoding
