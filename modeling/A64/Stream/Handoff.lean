/-! Handing items over. A producer makes the items of a stream one by one and offers each to the consumer,
who has to take it before the next one is made. Main statement: taking from a fresh stream gives its first
items in order. -/

namespace A64

/-- Where a producer stands; `rest` holds the items it has not made yet. -/
inductive Producer (ι : Type) where
  /-- Looks next whether the stream was cancelled. -/
  | idle (rest : List ι)
  | reading (rest : List ι)
  /-- Has an item, and looks once more before it offers it. -/
  | ready (item : ι) (rest : List ι)
  | offering (item : ι) (rest : List ι)
  | exited
  deriving DecidableEq, Repr

namespace Producer

variable {ι : Type}

def pending : Producer ι → List ι
  | idle rest | reading rest => rest
  | ready item rest | offering item rest => item :: rest
  | exited => []

def weight : Producer ι → Nat
  | idle rest => 4 * rest.length + 2
  | reading rest => 4 * rest.length + 1
  | ready _ rest => 4 * rest.length + 4
  | offering _ rest => 4 * rest.length + 3
  | exited => 0

end Producer

/-- A producer and its consumer. The consumer may raise the flag `cancelled`, and is `connected` as long as
it listens. -/
structure Handoff (ι : Type) where
  producer : Producer ι
  cancelled : Bool
  connected : Bool
  deriving DecidableEq, Repr

namespace Handoff

variable {ι : Type}

def start (items : List ι) : Handoff ι := ⟨.idle items, false, true⟩

/-- A step that the producer makes by itself. It makes none while the consumer has an offer to take, and
none after it has exited. -/
def step? (h : Handoff ι) : Option (Handoff ι) :=
  match h.producer with
  | .idle rest => some { h with producer := if h.cancelled then .exited else .reading rest }
  | .reading [] => some { h with producer := .exited }
  | .reading (item :: rest) => some { h with producer := .ready item rest }
  | .ready item rest =>
    some { h with producer := if h.cancelled then .exited else .offering item rest }
  | .offering _ _ => if h.connected then none else some { h with producer := .exited }
  | .exited => none

theorem weight_step? {h k : Handoff ι} (hs : h.step? = some k) :
    k.producer.weight < h.producer.weight := by
  obtain ⟨p, cancelled, connected⟩ := h
  cases p with
  | idle rest =>
    cases cancelled <;> simp only [step?, Option.some.injEq] at hs <;> subst hs <;>
      simp [Producer.weight]
  | reading rest =>
    cases rest <;> simp only [step?, Option.some.injEq] at hs <;> subst hs <;>
      simp [Producer.weight]
    omega
  | ready item rest =>
    cases cancelled <;> simp only [step?, Option.some.injEq] at hs <;> subst hs <;>
      simp [Producer.weight]
  | offering item rest =>
    cases connected
    · simp only [step?, Bool.false_eq_true, if_false, Option.some.injEq] at hs
      subst hs
      simp [Producer.weight]
    · simp [step?] at hs
  | exited => simp [step?] at hs

def settle (h : Handoff ι) : Handoff ι :=
  match hs : h.step? with
  | none => h
  | some k =>
    have := weight_step? hs
    k.settle
termination_by h.producer.weight

def receive? (h : Handoff ι) : Option (ι × Handoff ι) :=
  match h.connected, h.producer with
  | true, .offering item rest => some (item, { h with producer := .idle rest })
  | _, _ => none

/-- The consumer raises the flag, stops listening and waits for the producer to exit. -/
def cancel (h : Handoff ι) : Handoff ι := { h with cancelled := true, connected := false }.settle

/-- The next item. Once there is none, there will be none. -/
def next (h : Handoff ι) : Option ι × Handoff ι :=
  match h.settle.receive? with
  | some (item, k) => (some item, k)
  | none => (none, h.settle.cancel)

def take : Nat → Handoff ι → List ι × Handoff ι
  | 0, h => ([], h)
  | n + 1, h =>
    match h.next with
    | (none, k) => ([], k)
    | (some item, k) => (item :: (take n k).1, (take n k).2)

def drain (h : Handoff ι) : List ι × Handoff ι := h.take (h.producer.pending.length + 1)

theorem next_start_nil : (start ([] : List ι)).next = (none, ⟨.exited, true, false⟩) := by
  simp [next, start, settle, step?, receive?, cancel]

theorem next_start_cons (item : ι) (items : List ι) :
    (start (item :: items)).next = (some item, start items) := by
  simp [next, start, settle, step?, receive?]

theorem take_start (n : Nat) (items : List ι) : ((start items).take n).1 = items.take n := by
  induction n generalizing items with
  | zero => simp [take]
  | succ n ih =>
    cases items with
    | nil => simp [take, next_start_nil]
    | cons item items => simp [take, next_start_cons, ih]

end Handoff

end A64
