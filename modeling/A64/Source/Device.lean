import A64.Source

/-! Devices: sources over fixed bytes that deliver in pieces, are interrupted at regular calls, fail from
some position on, and may seek badly. -/

namespace A64

inductive Seeking where
  | honest
  /-- Offsets from `limit` on are refused. -/
  | bounded (limit : Nat) (fault : Fault)
  /-- The device moves, but reports a position that is off. -/
  | skewed (amount : Address)
  | refused (fault : Fault)
  deriving DecidableEq, Repr

/-- `chunk` bounds the bytes of one reply. Every `period`-th call is interrupted; a period below two
interrupts none. From the position of `failure` on reading fails. -/
structure Device where
  data : Array UInt8
  position : Nat := 0
  chunk : Option Nat := none
  failure : Option (Nat × Fault) := none
  period : Nat := 0
  calls : Nat := 0
  seeking : Seeking := .honest

namespace Device

def interruptsNext (d : Device) : Bool := 2 ≤ d.period && (d.calls + 1) % d.period == 0

def fault? (d : Device) : Option Fault :=
  d.failure.bind fun (start, fault) => if start ≤ d.position then some fault else none

/-- How many bytes a call for `n` of them gives, interruptions and faults aside. -/
def available (d : Device) (n : Nat) : Nat :=
  let n := d.chunk.elim n (min n)
  d.failure.elim n fun (start, _) => min n (start - d.position)

def read (d : Device) (n : Nat) : Reply × Device :=
  let called := { d with calls := d.calls + 1 }
  if d.interruptsNext then (.interrupted, called)
  else
    match d.fault? with
    | some fault => (.failed fault, called)
    | none =>
      let bs := (d.data.extract d.position (d.position + d.available n)).toList
      (.bytes bs, { called with position := d.position + bs.length })

def reported (d : Device) (p : Address) : Except Fault Address :=
  match d.seeking with
  | .honest | .bounded _ _ => .ok p
  | .skewed amount => .ok (p + amount)
  | .refused fault => .error fault

def seek (offset : Address) (d : Device) : Except Fault Address × Device :=
  match d.seeking with
  | .refused fault => (.error fault, d)
  | .bounded limit fault =>
    if limit ≤ offset.toNat then (.error fault, d) else (.ok offset, { d with position := offset.toNat })
  | _ => (d.reported offset, { d with position := offset.toNat })

/-- Two for each byte that is left, and one for an interruption that is due. -/
def weight (d : Device) : Nat :=
  2 * (d.data.size - d.position) + if d.interruptsNext then 1 else 0

theorem available_le (d : Device) (n : Nat) : d.available n ≤ n := by
  unfold available
  cases d.chunk <;> cases d.failure <;> dsimp only [Option.elim] <;> omega

theorem interruptsNext_called {d : Device} (h : d.interruptsNext = true) :
    ({ d with calls := d.calls + 1 } : Device).interruptsNext = false := by
  simp only [interruptsNext, Bool.and_eq_true, decide_eq_true_eq, beq_iff_eq] at h
  obtain ⟨hp, hm⟩ := h
  have : (d.calls + 1 + 1) % d.period = 1 := by
    rw [Nat.add_mod, hm, Nat.mod_eq_of_lt (by omega : 1 < d.period)]
    simp [Nat.mod_eq_of_lt (by omega : 1 < d.period)]
  simp [interruptsNext, this]

theorem read_eq_bytes {n : Nat} {d : Device} {bs : List UInt8} (h : (d.read n).1 = .bytes bs) :
    d.interruptsNext = false ∧ bs = (d.data.extract d.position (d.position + d.available n)).toList ∧
      (d.read n).2 = { d with calls := d.calls + 1, position := d.position + bs.length } := by
  unfold read at h ⊢
  split at h
  · simp at h
  · split at h
    · simp at h
    · simp only [Reply.bytes.injEq] at h
      simp_all

theorem read_eq_interrupted {n : Nat} {d : Device} (h : (d.read n).1 = .interrupted) :
    d.interruptsNext = true ∧ (d.read n).2 = { d with calls := d.calls + 1 } := by
  unfold read at h ⊢
  split at h
  · simp_all
  · split at h <;> simp at h

theorem length_extract_le (d : Device) (n : Nat) :
    (d.data.extract d.position (d.position + n)).toList.length ≤ min n (d.data.size - d.position) := by
  simp

instance : Source Device where
  read n d := d.read n
  position d := d.reported (BitVec.ofNat 64 d.position)
  seek := seek
  patience d := if d.interruptsNext then 1 else 0
  length_le := by
    intro n d bs h
    obtain ⟨_, rfl, _⟩ := read_eq_bytes h
    have := d.length_extract_le (d.available n)
    have := d.available_le n
    omega
  patience_interrupted := by
    intro n d h
    obtain ⟨hi, hd⟩ := read_eq_interrupted h
    rw [hd]
    simp [hi, interruptsNext_called hi]

instance : Source.Ends Device where
  weight := weight
  weight_bytes := by
    intro n d bs h hne
    obtain ⟨_, hbs, hd⟩ := read_eq_bytes h
    have hlen := d.length_extract_le (d.available n)
    have : 0 < bs.length := List.length_pos_iff.mpr hne
    rw [← hbs] at hlen
    change (d.read n).2.weight < d.weight
    rw [hd]
    simp only [weight]
    split <;> split <;> omega
  weight_interrupted := by
    intro n d h
    obtain ⟨hi, hd⟩ := read_eq_interrupted h
    change (d.read n).2.weight < d.weight
    rw [hd]
    simp [weight, hi, interruptsNext_called hi]

end Device

end A64
