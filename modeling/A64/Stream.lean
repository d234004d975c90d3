import A64.Listing
import A64.Source

/-! Streams over a byte source. A listing shows every word and ends with the source; a stream of
instructions ends with the first word that fails. -/

namespace A64

structure Options where
  base : Address := 0
  format : ImmediateFormat := .hex
  deriving DecidableEq, Repr

def Options.addressFor (o : Options) (offset : Address) : Address := .ofOffset o.base offset

def wordAddress (base : Address) (i : Nat) : Address := .ofOffset base (BitVec.ofNat 64 (4 * i))

/-- An item of a stream with what it leaves in the log. -/
structure Yield (ι : Type) where
  events : List Event
  item : ι

structure Run (ι : Type) where
  opening : List Event
  yields : List (Yield ι)
  closing : List Event

namespace Run

variable {ι : Type}

def items (r : Run ι) : List ι := r.yields.map (·.item)

def log (r : Run ι) : List Event := r.opening ++ r.yields.flatMap (·.events) ++ r.closing

end Run

namespace Listing

def yieldWord (o : Options) (i : Nat) (w : Word) : Yield Record :=
  let a := wordAddress o.base i
  ⟨Event.ofWord o.format a w, Record.ofWord o.format a w⟩

def yieldFault (o : Options) (origin : Address) (n : Nat) (fault : Fault) : Yield Record :=
  ⟨[.readFailed (origin + BitVec.ofNat 64 (4 * n)) fault], .ofFault (wordAddress o.base n) fault⟩

def ofDelivery (o : Options) (origin : Address) (d : Delivery) : Run Record where
  opening := [.listingStarted origin o.base]
  yields :=
    d.words.mapIdx (yieldWord o) ++
      (d.fault.map (yieldFault o origin d.words.length)).toList
  closing := [.listingFinished d.words.length]

/-- The listing of a source. Nothing is read if the source does not know where it stands. -/
def run {σ : Type} [Source σ] [Source.Ends σ] (o : Options) (s : σ) : Run Record :=
  match Source.position s with
  | .error fault =>
    ⟨[], [⟨[.positionUnknown fault], .ofFault (wordAddress o.base 0) fault⟩], []⟩
  | .ok origin => ofDelivery o origin (Source.deliver s)

def cut (n : Nat) (r : Run Record) : Run Record :=
  if r.yields.length ≤ n then r
  else { r with yields := r.yields.take n, closing := [.listingFinished n] }

end Listing

namespace Instructions

abbrev Item := Except DisassemblyError Instruction

def yieldWord (base : Address) (i : Nat) (w : Word) : Yield Item :=
  let a := wordAddress base i
  match decode w a with
  | .ok insn => ⟨[], .ok insn⟩
  | .error cause =>
    let error := DisassemblyError.ofDecode a cause
    ⟨(Event.ofRefusal? cause).toList ++ [.instructionsStopped error], .error error⟩

def yieldFault (base : Address) (n : Nat) (fault : Fault) : Yield Item :=
  let error := DisassemblyError.read (wordAddress base n) fault
  ⟨[.instructionsStopped error], .error error⟩

def yields (base : Address) (fault : Option Fault) (i : Nat) : List Word → List (Yield Item)
  | [] => (fault.map (yieldFault base i)).toList
  | w :: ws =>
    match (yieldWord base i w).item with
    | .ok _ => yieldWord base i w :: yields base fault (i + 1) ws
    | .error _ => [yieldWord base i w]

/-- The instructions of what a source delivers. A failed read counts as a word. -/
def ofDelivery (base : Address) (d : Delivery) : Run Item where
  opening := []
  yields := yields base d.fault 0 d.words
  closing := [.instructionsFinished (yields base d.fault 0 d.words).length]

def run {σ : Type} [Source σ] [Source.Ends σ] (base : Address) (s : σ) : Run Item :=
  ofDelivery base (Source.deliver s)

end Instructions

end A64
