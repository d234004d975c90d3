import A64.Text.CharProperty.Named
import A64.Text.Pattern.Mode
import A64.Text.Pattern.Written

/-! What a written pattern means. Modes hold from where they are set to the end of the group. -/

namespace A64.Text

def Mode.cased (mode : Mode) (k : CharClass) : CharClass :=
  if mode.anyCase then .anyCase mode.unicode k else k

/-- Either a class or all other characters. Without Unicode the others would be bytes that are no text. -/
def Mode.signed (mode : Mode) (negated : Bool) (span : Span) (k : CharClass) : Except Flaw CharClass :=
  if !negated then .ok k
  else if mode.unicode then .ok (.other k)
  else .error ⟨.bytesNotText, span, none⟩

namespace CharProperty

def cutAt? (sign : List Char) : List Char → Option (List Char × List Char)
  | [] => none
  | c :: cs =>
    if sign.isPrefixOf (c :: cs) then some ([], (c :: cs).drop sign.length)
    else (cutAt? sign cs).map fun parts => (c :: parts.1, parts.2)

def withValue (name value : List Char) : Except FlawKind CharClass :=
  match valuesOf? (plain name) with
  | none => .error .propertyUnknown
  | some values =>
    match find? values (plain value) with
    | none => .error .propertyValueUnknown
    | some p => .ok p.members

def withName (name : List Char) : Except FlawKind CharClass :=
  match named? (plain name) with
  | some p => .ok p.members
  | none => .error (if vacant.contains (plain name) then .propertyValueUnknown else .propertyUnknown)

def described (description : List Char) : Except FlawKind CharClass :=
  match cutAt? ['!', '='] description with
  | some (name, value) => (withValue name value).map .other
  | none =>
    match cutAt? [':'] description <|> cutAt? ['='] description with
    | some (name, value) => withValue name value
    | none => withName description

end CharProperty

namespace Atom

/-- A character in a mode. Without Unicode a high byte is no text, and brackets hold bytes only. -/
def checkChar (mode : Mode) (inBracket : Bool) (c : Char × Bool) (span : Span) : Except Flaw Char :=
  if mode.unicode ∨ c.1.toNat < 128 then .ok c.1
  else if c.2 then .error ⟨.bytesNotText, span, none⟩
  else if inBracket then .error ⟨.unicodeNotAllowed, span, none⟩
  else .ok c.1

def letterClass (mode : Mode) : Char → CharClass
  | 'd' => if mode.unicode then .decimal else .digit
  | 's' => if mode.unicode then .blank else .asciiBlank
  | _ => if mode.unicode then .wordLike else .word

def propertyClass (mode : Mode) (negated : Bool) (description : List Char) (span : Span) :
    Except Flaw CharClass :=
  if !mode.unicode then .error ⟨.unicodeNotAllowed, span, none⟩
  else
    match CharProperty.described description with
    | .error kind => .error ⟨kind, span, none⟩
    | .ok k => mode.signed negated span (mode.cased k)

def members (mode : Mode) (inBracket : Bool) (span : Span) : Atom → Except Flaw CharClass
  | char c isByte => (checkChar mode inBracket (c, isByte) span).map .single
  | letter c => mode.signed c.isUpper span (letterClass mode c.toLower)
  | property negated description => propertyClass mode negated description span
  | look _ => .ok .nothing

def meaning (mode : Mode) (span : Span) : Atom → Except Flaw Pattern
  | look condition => .ok (.look condition)
  | char c isByte => (members mode false span (char c isByte)).map fun k => .one (mode.cased k)
  | a => (members mode false span a).map .one

end Atom

def SetOperation.apply : SetOperation → CharClass → CharClass → CharClass
  | intersection => .both
  | difference => .without
  | symmetricDifference => .oneOf

def WrittenClass.meaning (mode : Mode) : WrittenClass → Except Flaw CharClass
  | nothing => .ok .nothing
  | atom a span => a.members mode true span
  | range first last firstSpan lastSpan => do
    let a ← Atom.checkChar mode true first firstSpan
    let z ← Atom.checkChar mode true last lastSpan
    return .range a z
  | named k negated span => mode.signed negated span (mode.cased k)
  | both a b => do return .either (← a.meaning mode) (← b.meaning mode)
  | operation o a b => do return o.apply (mode.cased (← a.meaning mode)) (mode.cased (← b.meaning mode))
  | bracket negated span a => do mode.signed negated span (mode.cased (← a.meaning mode))
  | layer _ a => a.meaning mode

namespace Pattern

def followedBy : Pattern → Pattern → Pattern
  | empty, q => q
  | p, empty => p
  | p, q => seq p q

end Pattern

namespace Mode

def dot (mode : Mode) : CharClass :=
  if mode.dotAll then .anything
  else if mode.carriageReturns then .other (.ofText "\r\n")
  else .other (.single '\n')

def startLook (mode : Mode) : Look :=
  if !mode.lines then .textStart else if mode.carriageReturns then .anyLineStart else .lineStart

def endLook (mode : Mode) : Look :=
  if !mode.lines then .textEnd else if mode.carriageReturns then .anyLineEnd else .lineEnd

end Mode

/-- The pattern that is meant, and the mode that holds behind it. -/
def Written.meaning : Written → Mode → Except Flaw (Pattern × Mode)
  | empty, mode => .ok (.empty, mode)
  | setMode letters, outer => .ok (.empty, outer.setAll true letters)
  | atom a span, mode => (a.meaning mode span).map (·, mode)
  | dot span, mode =>
    if mode.unicode then .ok (.one mode.dot, mode) else .error ⟨.bytesNotText, span, none⟩
  | lineStart, mode => .ok (.look mode.startLook, mode)
  | lineEnd, mode => .ok (.look mode.endLook, mode)
  | bracket a, mode => (a.meaning mode).map fun k => (.one k, mode)
  | seq a b, mode => do
    let (p, mode) ← a.meaning mode
    let (q, mode) ← b.meaning mode
    return (p.followedBy q, mode)
  | alt a b, mode => do
    let (p, mode) ← a.meaning mode
    let (q, mode) ← b.meaning mode
    return (.alt p q, mode)
  | times a least most, mode => do
    let (p, mode) ← a.meaning mode
    return (.times p least most, mode)
  | group remembered letters a, mode => do
    let (p, _) ← a.meaning (mode.setAll true letters)
    return (if remembered then .group p else p, mode)
  | layer _ a, mode => a.meaning mode

end A64.Text
