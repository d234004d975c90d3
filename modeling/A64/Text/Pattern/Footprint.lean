import A64.Text.CodeRange
import A64.Text.Pattern

/-! How much a pattern takes when it is compiled into automata that read UTF-8, one forwards and one
backwards. States, the transitions of a state and the links of a branching state each take their bytes. -/

namespace A64.Text

/-- Bytes for the automaton that reads forwards, and for the one that reads backwards. -/
structure Footprint where
  forward : Nat
  backward : Nat
  deriving DecidableEq, Repr

namespace Footprint

def stateBytes : Nat := 32

def transitionBytes : Nat := 8

def linkBytes : Nat := 4

def same (bytes : Nat) : Footprint := ⟨bytes, bytes⟩

def parts (states links : Nat) : Footprint := same (states * stateBytes + links * linkBytes)

def add (a b : Footprint) : Footprint := ⟨a.forward + b.forward, a.backward + b.backward⟩

def scale (n : Nat) (a : Footprint) : Footprint := ⟨n * a.forward, n * a.backward⟩

end Footprint

def byFirst {α : Type} [DecidableEq α] : List (List α) → List (α × List (List α))
  | [] => []
  | [] :: ls => byFirst ls
  | (x :: xs) :: ls =>
    match byFirst ls with
    | (y, ys) :: groups => if x = y then (x, xs :: ys) :: groups else (x, [xs]) :: (y, ys) :: groups
    | [] => [(x, [xs])]

/-- What can follow at the places of lists, the start included, down to a depth. -/
def continuations {α : Type} [DecidableEq α] : Nat → List (List α) → List (List (List α))
  | 0, _ => []
  | n + 1, ls =>
    ls :: ((byFirst ls).map Prod.snd).flatMap fun rest => if rest = [[]] then [] else continuations n rest

namespace CharClass

open Footprint

/-- Reading forwards, equal continuations share a state. -/
def forwardBytes (shapes : List (List (Nat × Nat))) : Nat :=
  let states := (continuations 4 shapes).eraseDups
  (states.length + 1) * stateBytes + states.foldl (fun n s => n + (byFirst s).length) 0 * transitionBytes

/-- Reading backwards, equal beginnings share states. -/
def backwardBytes (shapes : List (List (Nat × Nat))) : Nat :=
  let beginnings := (shapes.flatMap fun s => (List.range s.length).map fun i => s.take (i + 1)).eraseDups
  (beginnings.length + 2) * stateBytes + shapes.length * linkBytes

def footprint (k : CharClass) : Footprint :=
  match k.ranges, k.bytesBeyond with
  | [(a, z)], 0 =>
    if a = z then parts (Char.ofNat a).utf8Size 0
    else if z < 128 then same (2 * stateBytes + transitionBytes)
    else ⟨forwardBytes (CodeRange.shapes (a, z)), backwardBytes (CodeRange.shapes (a, z))⟩
  | ranges, bytes =>
    let shapes := ranges.flatMap CodeRange.shapes
    if bytes = 0 ∧ ranges.all (fun r => r.2 < 128) then
      same (2 * stateBytes + ranges.length * transitionBytes)
    else ⟨forwardBytes shapes + bytes, backwardBytes shapes + bytes⟩

end CharClass

namespace Pattern

open Footprint

def takesText : Pattern → Bool
  | empty | look _ => false
  | one k => !k.ranges.isEmpty || k.bytesBeyond != 0
  | seq a b => a.takesText || b.takesText
  | alt a b => a.takesText && b.takesText
  | group p => p.takesText
  | times p least _ => least != 0 && p.takesText

def takesNone : Pattern → Bool
  | empty | look _ => true
  | one _ => false
  | seq a b | alt a b => a.takesNone && b.takesNone
  | group p => p.takesNone
  | times p _ most => p.takesNone || most == some 0

def asClass? : Pattern → Option CharClass
  | one k => some k
  | alt a b => do return .either (← a.asClass?) (← b.asClass?)
  | _ => none

def asText? : Pattern → Option (List UInt8)
  | one k =>
    match k.ranges, k.bytesBeyond with
    | [(a, z)], 0 => if a = z then some (String.utf8EncodeChar (Char.ofNat a)) else none
    | _, _ => none
  | seq a b => do return (← a.asText?) ++ (← b.asText?)
  | _ => none

def asTexts? : Pattern → Option (List (List UInt8))
  | alt a b => do return (← a.asTexts?) ++ (← b.asTexts?)
  | p => p.asText?.map ([·])

/-- A tree that branches where texts do, down to a depth. A text that ends where others go on takes a
branching state of its own. -/
def treeBytes : Nat → List (List UInt8) → Nat
  | 0, _ => 0
  | n + 1, texts =>
    let firsts := (texts.filterMap List.head?).eraseDups
    let branches := firsts.map fun b => (texts.filter (·.head? = some b)).map List.tail
    if firsts.isEmpty then 0
    else
      stateBytes + (if firsts.length = 1 then 0 else firsts.length * transitionBytes) +
        (if texts.contains [] then stateBytes + 2 * linkBytes else 0) +
        (branches.map (treeBytes n)).sum

def textsFootprint (texts : List (List UInt8)) : Footprint :=
  let depth := (texts.map List.length).foldl max 0
  ⟨stateBytes + treeBytes depth texts, stateBytes + treeBytes depth (texts.map List.reverse)⟩

def timesFootprint (takesText : Bool) (f : Footprint) : Nat → Option Nat → Footprint
  | 0, none => if takesText then f.add (parts 1 2) else f.add (parts 3 4)
  | least, none => (f.scale least).add (parts 1 2)
  | 0, some 0 => parts 1 0
  | 0, some 1 => f.add (parts 2 2)
  | least, some most =>
    if least = most then f.scale least
    else
      ((f.scale least).add (parts (if least = 0 then 2 else 1) 0)).add
        ((f.add (parts 1 2)).scale (most - least))

def linkTo (isBranch : Bool) : Footprint := parts 0 (if isBranch then 1 else 0)

/-- What a pattern takes that may be a branch of another. Branches share their first and last state, unless
they are characters or fixed texts. Repeating what takes no text is no more than taking it once. -/
def footprintAs : Pattern → Bool → Footprint
  | empty, isBranch | look _, isBranch => (parts 1 0).add (linkTo isBranch)
  | one k, isBranch => k.footprint.add (linkTo isBranch)
  | seq a b, isBranch => ((a.footprintAs false).add (b.footprintAs false)).add (linkTo isBranch)
  | alt a b, true => (a.footprintAs true).add (b.footprintAs true)
  | alt a b, false =>
    match (alt a b).asClass?, (alt a b).asTexts? with
    | some k, _ => k.footprint
    | none, some texts => textsFootprint texts
    | none, none => ((a.footprintAs true).add (b.footprintAs true)).add (parts 2 0)
  | group p, isBranch => ((p.footprintAs false).add ⟨2 * stateBytes, 0⟩).add (linkTo isBranch)
  | times p least most, isBranch =>
    let once := p.footprintAs false
    (if p.takesNone then timesFootprint p.takesText once (min least 1) (some (most.elim 1 (min · 1)))
      else timesFootprint p.takesText once least most).add (linkTo isBranch)

def footprint (p : Pattern) : Footprint := p.footprintAs false

/-- What the search for a pattern takes. The match as a whole is remembered; besides there are the loop over
the places before it, whose one transition is any byte, and the state at the end. -/
def searchFootprint (p : Pattern) : Footprint :=
  ((group p).footprint.add (parts 4 2)).add (same transitionBytes)

def maximalBytes : Nat := 10 <<< 20

def isTooLarge (p : Pattern) : Bool :=
  maximalBytes < max p.searchFootprint.forward p.searchFootprint.backward

end Pattern

end A64.Text
