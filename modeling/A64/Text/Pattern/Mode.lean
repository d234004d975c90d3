/-! The modes in which the parts of a pattern are understood, and the letters that set them. -/

namespace A64.Text

structure Mode where
  anyCase : Bool := false
  /-- The ends of lines count as ends of the text. -/
  lines : Bool := false
  /-- The dot also stands for the ends of lines. -/
  dotAll : Bool := false
  carriageReturns : Bool := false
  unicode : Bool := true
  /-- Blanks and comments do not count. -/
  loose : Bool := false
  deriving DecidableEq, Repr

namespace Mode

/-- The letters that set a mode. Letter `U` is about which of several matches is preferred. -/
def letters : List Char := ['i', 'm', 's', 'U', 'u', 'R', 'x']

def set (on : Bool) (mode : Mode) : Char → Mode
  | 'i' => { mode with anyCase := on }
  | 'm' => { mode with lines := on }
  | 's' => { mode with dotAll := on }
  | 'R' => { mode with carriageReturns := on }
  | 'u' => { mode with unicode := on }
  | 'x' => { mode with loose := on }
  | _ => mode

def setAll (on : Bool) (mode : Mode) : List Char → Mode
  | [] => mode
  | '-' :: cs => mode.setAll false cs
  | c :: cs => (mode.set on c).setAll on cs

end Mode

end A64.Text
