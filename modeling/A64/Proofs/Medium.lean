import Mathlib.Algebra.Group.Nat.Defs
import A64.Proofs.Supply
import A64.Source.Device

/-! Media: fixed bytes that a source reads from the place where it stands. The sizes of the pieces and
the interruptions are left to the source. Main statement: what a reader supplies depends on the medium
and on the place alone. -/

namespace A64

open Source

/-- Fixed bytes, and the place from which on they cannot be read, with the fault. Places have 64 bits. -/
structure Medium where
  bytes : List UInt8
  failure : Option (Nat × Fault)
  length_lt : bytes.length < 2 ^ 64

namespace Medium

variable {m : Medium} {p : Nat}

def faultAt (m : Medium) (p : Nat) : Option Fault :=
  m.failure.bind fun (start, fault) => if start ≤ p then some fault else none

def readable (m : Medium) : List UInt8 :=
  m.failure.elim m.bytes fun (start, _) => m.bytes.take start

/-- The fault that a reader meets in the end who starts at the place `p`. -/
def faultFrom (m : Medium) (p : Nat) : Option Fault := m.faultAt (max p m.readable.length)

/-- What a reader at the place `p` may be answered, and where it stands then. -/
inductive Answers (m : Medium) (p : Nat) : Reply → Nat → Prop where
  | interrupted : Answers m p .interrupted p
  | piece {bs : List UInt8} (hne : bs ≠ []) (hbs : bs <+: m.readable.drop p) :
      Answers m p (.bytes bs) (p + bs.length)
  | ended (hend : m.bytes.length ≤ p) (hf : m.faultAt p = none) : Answers m p (.bytes []) p
  | failed {fault : Fault} (hf : m.faultAt p = some fault) : Answers m p (.failed fault) p

theorem length_readable_le (m : Medium) : m.readable.length ≤ m.bytes.length := by
  cases h : m.failure with
  | none => simp [readable, h]
  | some failure =>
    rw [readable, h]
    exact List.length_take_le' _ _

theorem length_readable_le_of_faultAt {fault : Fault} (h : m.faultAt p = some fault) :
    m.readable.length ≤ p := by
  obtain ⟨⟨start, _⟩, hf, hp⟩ := Option.bind_eq_some_iff.mp h
  have hle : start ≤ p := by
    rcases Nat.lt_or_ge p start with hlt | hle
    · simp [Nat.not_le.mpr hlt] at hp
    · exact hle
  simp only [readable, hf, Option.elim, List.length_take]
  omega

theorem faultFrom_of_length_le (h : m.readable.length ≤ p) : m.faultFrom p = m.faultAt p := by
  rw [faultFrom, Nat.max_eq_left h]

theorem faultFrom_add {k : Nat} (h : p + k ≤ m.readable.length) :
    m.faultFrom (p + k) = m.faultFrom p := by
  rw [faultFrom, faultFrom, Nat.max_eq_right h, Nat.max_eq_right (by omega)]

/-- The relation `stands` holds of the states of a source that read the medium and of the places where
they stand. Such a source knows its place, and it goes where it is sent. -/
structure Reads (m : Medium) {σ : Type} [Source σ] (stands : σ → Nat → Prop) : Prop where
  position : ∀ {s p}, stands s p → Source.position s = .ok (BitVec.ofNat 64 p)
  seek : ∀ {s p} (offset : Address), stands s p →
    (Source.seek offset s).1 = .ok offset ∧ stands (Source.seek offset s).2 offset.toNat
  read : ∀ {s p n}, stands s p → 0 < n →
    ∃ q, m.Answers p (Source.read n s).1 q ∧ stands (Source.read n s).2 q

namespace Reads

variable {σ : Type} [Source σ] {stands : σ → Nat → Prop}

/-- There is only one thing that a reader can supply. -/
theorem eq_of_supplies (hm : m.Reads stands) {k : Nat} {s : σ} {data : List UInt8}
    {failure : Option Fault} (h : Supplies k s data failure) (hs : stands s p) :
    data = m.readable.drop p ∧ failure = m.faultFrom p := by
  -- Induction on the replies; the place moves with the pieces only.
  induction h generalizing p with
  | ended hr =>
    obtain ⟨q, ha, _⟩ := hm.read hs (missing_pos _)
    rw [hr] at ha
    cases ha with
    | piece hne => exact absurd rfl hne
    | ended hend hf =>
      have hle := Nat.le_trans m.length_readable_le hend
      rw [faultFrom_of_length_le hle, hf, List.drop_of_length_le hle]
      exact ⟨rfl, rfl⟩
  | failed hr =>
    obtain ⟨q, ha, _⟩ := hm.read hs (missing_pos _)
    rw [hr] at ha
    cases ha with
    | failed hf =>
      have hle := length_readable_le_of_faultAt hf
      rw [faultFrom_of_length_le hle, hf, List.drop_of_length_le hle]
      exact ⟨rfl, rfl⟩
  | interrupted hr _ ih =>
    obtain ⟨q, ha, hq⟩ := hm.read hs (missing_pos _)
    rw [hr] at ha
    cases ha
    exact ih hq
  | piece hr hne _ ih =>
    obtain ⟨q, ha, hq⟩ := hm.read hs (missing_pos _)
    rw [hr] at ha
    cases ha with
    | ended => exact absurd rfl hne
    | piece _ hbs =>
      obtain ⟨rest, hrest⟩ := hbs
      obtain ⟨rfl, rfl⟩ := ih hq
      have hpos := List.length_pos_iff.mpr hne
      have hlen := congrArg List.length hrest
      rw [List.length_append, List.length_drop] at hlen
      refine ⟨?_, faultFrom_add (by omega)⟩
      rw [← List.drop_drop, ← hrest, List.drop_left]

theorem supplies [Ends σ] (hm : m.Reads stands) {s : σ} (hs : stands s p) (k : Nat) :
    Supplies k s (m.readable.drop p) (m.faultFrom p) := by
  obtain ⟨data, failure, h⟩ := exists_supplies k s
  obtain ⟨rfl, rfl⟩ := hm.eq_of_supplies h hs
  exact h

theorem stands_fill (hm : m.Reads stands) {s : σ} (hs : stands s p) (got : List UInt8) :
    ∃ q, stands (fill got s).2 q ∧
      ∀ bs, (fill got s).1 = .ok bs → p + bs.length = q + got.length := by
  fun_induction fill got s generalizing p with
  | case1 got s hg hr =>
    obtain ⟨q, ha, hq⟩ := hm.read (n := 4 - got.length) hs (by omega)
    rw [hr] at ha
    refine ⟨q, hq, fun bs hbs => ?_⟩
    cases hbs
    cases ha <;> rfl
  | case2 got s hg b bs hr ih =>
    obtain ⟨q, ha, hq⟩ := hm.read (n := 4 - got.length) hs (by omega)
    rw [hr] at ha
    obtain ⟨q', hq', hlen⟩ := ih hq
    refine ⟨q', hq', fun bs' hbs => ?_⟩
    have := hlen bs' hbs
    cases ha
    simp only [List.length_append] at this
    omega
  | case3 got s hg hr ih =>
    obtain ⟨q, ha, hq⟩ := hm.read (n := 4 - got.length) hs (by omega)
    rw [hr] at ha
    cases ha
    exact ih hq
  | case4 got s hg fault hr =>
    obtain ⟨q, _, hq⟩ := hm.read (n := 4 - got.length) hs (by omega)
    exact ⟨q, hq, by simp⟩
  | case5 got s hg =>
    refine ⟨p, hs, fun bs hbs => ?_⟩
    cases hbs
    rfl

theorem stands_readWord (hm : m.Reads stands) {s : σ} (hs : stands s p) :
    ∃ q, stands (readWord s).2 q ∧ ∀ w, (readWord s).1 = .ok (some w) → q = p + 4 := by
  obtain ⟨q, hq, hlen⟩ := hm.stands_fill hs []
  rw [readWord]
  rcases hf : fill [] s with ⟨r, t⟩
  rw [hf] at hq hlen
  refine ⟨q, ?_, fun w hw => ?_⟩
  · split <;> simp_all
  · split at hw <;> simp_all

end Reads

end Medium

namespace Device

def medium (d : Device) (h : d.data.size < 2 ^ 64) : Medium := ⟨d.data.toList, d.failure, h⟩

/-- The device `e` is the device `d` after some calls, and stands at the place `p`. -/
def Continues (d e : Device) (p : Nat) : Prop := ∃ calls, e = { d with calls := calls, position := p }

theorem continues_self (d : Device) : d.Continues d d.position := ⟨d.calls, rfl⟩

theorem available_pos {d : Device} {n : Nat} (hn : 0 < n) (hc : d.chunk ≠ some 0)
    (hf : d.fault? = none) : 0 < d.available n := by
  have hstart : ∀ failure, d.failure = some failure → d.position < failure.1 := by
    rintro ⟨start, fault⟩ hs
    rcases Nat.lt_or_ge d.position start with hlt | hle
    · exact hlt
    · simp [fault?, hs, hle] at hf
  have hchunk : ∀ k, d.chunk = some k → 0 < k := by
    intro k hk
    rcases Nat.eq_zero_or_pos k with rfl | hpos
    · exact absurd hk hc
    · exact hpos
  cases hs : d.failure with
  | none =>
    cases hk : d.chunk with
    | none => simpa [available, hs, hk]
    | some k =>
      have := hchunk k hk
      simp only [available, hs, hk, Option.elim]
      omega
  | some failure =>
    have := hstart failure hs
    cases hk : d.chunk with
    | none =>
      simp only [available, hs, hk, Option.elim]
      omega
    | some k =>
      have := hchunk k hk
      simp only [available, hs, hk, Option.elim]
      omega

theorem extract_prefix_readable (d : Device) (h : d.data.size < 2 ^ 64) (n : Nat) :
    (d.data.extract d.position (d.position + d.available n)).toList <+:
      (d.medium h).readable.drop d.position := by
  have hextract : (d.data.extract d.position (d.position + d.available n)).toList =
      (d.data.toList.drop d.position).take (d.available n) := by
    rw [Array.toList_extract, List.extract_eq_take_drop, Nat.add_sub_cancel_left]
  rw [hextract]
  cases hs : d.failure with
  | none =>
    simp only [Medium.readable, medium, hs, Option.elim]
    exact List.take_prefix _ _
  | some failure =>
    have hle : d.available n ≤ failure.1 - d.position := by
      simp only [available, hs, Option.elim]
      omega
    simp only [Medium.readable, medium, hs, Option.elim]
    rw [List.drop_take]
    exact List.take_prefix_take_left hle

theorem answers_read (d : Device) (h : d.data.size < 2 ^ 64) (hc : d.chunk ≠ some 0) {n : Nat}
    (hn : 0 < n) :
    ∃ q, (d.medium h).Answers d.position (d.read n).1 q ∧
      (d.read n).2 = { d with calls := d.calls + 1, position := q } := by
  unfold Device.read
  split
  · exact ⟨d.position, .interrupted, rfl⟩
  · split
    · next fault hf => exact ⟨d.position, .failed hf, rfl⟩
    · next hf =>
      by_cases hbs : (d.data.extract d.position (d.position + d.available n)).toList = []
      · have hpos := available_pos hn hc hf
        have hlen := congrArg List.length hbs
        simp only [Array.length_toList, Array.size_extract, List.length_nil] at hlen
        have hend : d.data.toList.length ≤ d.position := by
          rw [Array.length_toList]
          omega
        simp only [hbs]
        exact ⟨d.position, .ended hend hf, rfl⟩
      · exact ⟨_, .piece hbs (d.extract_prefix_readable h n), rfl⟩

/-- A device that gives at least a byte at a time, and seeks as it should, reads its bytes. -/
theorem reads_medium (d : Device) (h : d.data.size < 2 ^ 64) (hc : d.chunk ≠ some 0)
    (hs : d.seeking = .honest) : (d.medium h).Reads d.Continues where
  position := by
    rintro _ p ⟨calls, rfl⟩
    simp only [Source.position, reported, hs]
  seek := by
    rintro _ p offset ⟨calls, rfl⟩
    simp only [Source.seek, Device.seek, reported, hs]
    exact ⟨trivial, calls, by rw [hs]⟩
  read := by
    rintro _ p n ⟨calls, rfl⟩ hn
    obtain ⟨q, ha, hq⟩ := answers_read { d with calls := calls, position := p } h hc hn
    exact ⟨q, ha, calls + 1, hq⟩

end Device

end A64
