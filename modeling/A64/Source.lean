import A64.Fault
import A64.Word

/-! Byte sources. A source hands out bytes in pieces of its own choice and may be interrupted in between, though
only finitely often in a row. It may go on for ever; if it does not, it can be read to its end. Main statement:
reading a word uses up some of what a source that ends still has to give. -/

namespace A64

/-- What a source answers when bytes are asked for. No bytes are the end. -/
inductive Reply where
  | bytes (bs : List UInt8)
  | interrupted
  | failed (fault : Fault)
  deriving DecidableEq, Repr

/-- A byte source. `patience` bounds the interruptions in a row. -/
class Source (σ : Type) where
  read : Nat → σ → Reply × σ
  position : σ → Except Fault Address
  /-- Moves to an offset and tells where the source then stands. -/
  seek : Address → σ → Except Fault Address × σ
  patience : σ → Nat
  length_le : ∀ {n : Nat} {s : σ} {bs : List UInt8}, (read n s).1 = .bytes bs → bs.length ≤ n
  patience_interrupted : ∀ {n : Nat} {s : σ},
    (read n s).1 = .interrupted → patience (read n s).2 < patience s

/-- A source that comes to an end or fails. `weight` bounds the replies that it gives before. -/
class Source.Ends (σ : Type) [Source σ] where
  weight : σ → Nat
  weight_bytes : ∀ {n : Nat} {s : σ} {bs : List UInt8},
    (Source.read n s).1 = .bytes bs → bs ≠ [] → weight (Source.read n s).2 < weight s
  weight_interrupted : ∀ {n : Nat} {s : σ},
    (Source.read n s).1 = .interrupted → weight (Source.read n s).2 < weight s

structure Delivery where
  words : List Word
  fault : Option Fault
  deriving DecidableEq, Repr

namespace Source

variable {σ : Type} [Source σ]

def fill (got : List UInt8) (s : σ) : Except Fault (List UInt8) × σ :=
  if got.length < 4 then
    match h : (read (4 - got.length) s).1 with
    | .bytes [] => (.ok got, (read (4 - got.length) s).2)
    | .bytes (b :: bs) => fill (got ++ b :: bs) (read (4 - got.length) s).2
    -- An interruption is not an end.
    | .interrupted => fill got (read (4 - got.length) s).2
    | .failed fault => (.error fault, (read (4 - got.length) s).2)
  else (.ok got, s)
termination_by (4 - got.length, patience s)
decreasing_by
  · exact .left _ _ (by simp; omega)
  · exact .right _ (patience_interrupted h)

def readWord (s : σ) : Except Fault (Option Word) × σ :=
  match fill [] s with
  | (.error fault, s') => (.error fault, s')
  | (.ok [], s') => (.ok none, s')
  | (.ok [a, b, c, d], s') => (.ok (some (.ofBytes a b c d)), s')
  | (.ok bs, s') => (.error (.partialWord bs.length), s')

variable [Ends σ]

theorem fill_weight {got bs : List UInt8} {s t : σ} (h : fill got s = (.ok bs, t))
    (full : 4 ≤ bs.length) : Ends.weight t < Ends.weight s ∨ 4 ≤ got.length ∧ t = s := by
  fun_induction fill got s with
  | case1 => simp_all; omega
  | case2 got s _ b bs' hr ih =>
    have hw := Ends.weight_bytes hr (List.cons_ne_nil b bs')
    rcases ih h with hlt | ⟨_, rfl⟩
    · exact .inl (Nat.lt_trans hlt hw)
    · exact .inl hw
  | case3 got s hlen hr ih =>
    have hw := Ends.weight_interrupted hr
    rcases ih h with hlt | ⟨_, rfl⟩
    · exact .inl (Nat.lt_trans hlt hw)
    · exact .inl hw
  | case4 => simp at h
  | case5 => simp_all

theorem readWord_weight {s t : σ} {w : Word} (h : readWord s = (.ok (some w), t)) :
    Ends.weight t < Ends.weight s := by
  unfold readWord at h
  split at h <;> simp_all
  next hf =>
    have := fill_weight hf (by simp)
    simp_all

/-- Reads words to the end. `before` holds the words already read, the last one first. -/
def deliverAfter (before : List Word) (s : σ) : Delivery :=
  match hr : readWord s with
  | (.ok (some w), t) =>
    have := readWord_weight hr
    deliverAfter (w :: before) t
  | (.ok none, _) => ⟨before.reverse, none⟩
  | (.error fault, _) => ⟨before.reverse, some fault⟩
termination_by Ends.weight s

def deliver (s : σ) : Delivery := deliverAfter [] s

end Source

end A64
