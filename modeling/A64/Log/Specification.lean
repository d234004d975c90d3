import A64.Log
import A64.Text.Blank
import A64.Text.Pattern.Read
import A64.Text.Pieces

/-! Log specifications: a comma list of rules, each of which says how much a part of the program may
write to the log, and behind a slash a pattern that must occur in what is written. -/

namespace A64

open Text

/-- How much may be written: nothing, or all events up to a level. -/
inductive LogLimit where
  | off
  | upTo (level : LogLevel)
  deriving DecidableEq, Repr

namespace LogLimit

def most : LogLimit := upTo .trace

def all : List LogLimit := off :: LogLevel.all.map upTo

def name : LogLimit → String
  | off => "OFF"
  | upTo level => level.name

def read? (cs : List Char) : Option LogLimit :=
  all.find? fun limit => limit.name.toList == cs.map Char.toUpper

def admits : LogLimit → LogLevel → Bool
  | off, _ => false
  | upTo limit, level => level.rank ≤ limit.rank

end LogLimit

/-- A limit for the targets that start with `scope`. -/
structure LogRule where
  scope : List Char
  limit : LogLimit
  deriving DecidableEq, Repr

inductive LogDefect where
  | blankInName (name : List Char)
  | unknownLevel
  | severalSigns (part : List Char)
  | severalSlashes (specification : String)
  | flawedPattern (pattern : List Char) (fault : PatternFault)
  deriving DecidableEq, Repr

def LogDefect.message : LogDefect → String
  | blankInName name =>
    "ignoring invalid part in log spec '" ++ String.ofList name ++ "' (contains a whitespace)"
  | unknownLevel => "Invalid level filter"
  | severalSigns part => "invalid part in log spec '" ++ String.ofList part ++ "', ignoring it"
  | severalSlashes specification =>
    "invalid log spec '" ++ specification ++ "' (too many '/'s), ignoring it"
  | flawedPattern pattern fault => "invalid regex filter - " ++ fault.report pattern

namespace LogRule

/-- A rule without an equals sign: a limit for every target, or a name that has no limit. -/
def ofWord (word : List Char) : LogRule :=
  match LogLimit.read? word with
  | some limit => ⟨[], limit⟩
  | none => ⟨word, .most⟩

/-- A rule with an equals sign. A name without a level has no limit. -/
def ofPair (name level : List Char) : Except LogDefect LogRule :=
  if level.isEmpty then .ok ⟨name, .most⟩
  else
    match LogLimit.read? level with
    | some limit => .ok ⟨name, limit⟩
    | none => .error .unknownLevel

def read (part : List Char) : Except LogDefect LogRule :=
  match (pieces '=' part).map trim with
  | [word] => if word.any isBlank then .error (.blankInName word) else .ok (ofWord word)
  | [name, level] => if name.any isBlank then .error (.blankInName name) else ofPair name level
  | _ => .error (.severalSigns part)

def governs (target : String) (r : LogRule) : Bool := r.scope.isPrefixOf target.toList

/-- The rule with the longer scope, the first of two that are as long. -/
def closer : Option LogRule → LogRule → Option LogRule
  | none, s => some s
  | some r, s => if r.scope.length < s.scope.length then some s else some r

end LogRule

/-- Rules, and a pattern for the texts of events. The empty pattern occurs in every text. -/
structure LogSpecification where
  rules : List LogRule
  pattern : Pattern := .empty
  deriving DecidableEq, Repr

namespace LogSpecification

def parts (cs : List Char) : List (List Char) :=
  ((pieces ',' cs).map trim).filter (!·.isEmpty)

def defect? {α : Type} : Except LogDefect α → Option LogDefect
  | .error d => some d
  | .ok _ => none

def readPattern (cs : List Char) : Except LogDefect Pattern :=
  (Pattern.read cs).mapError (.flawedPattern cs)

/-- Reads a list of rules and a pattern, or tells everything that is wrong with them. -/
def readBoth (rules pattern : List Char) : Except (List LogDefect) LogSpecification :=
  let results := (parts rules).map LogRule.read
  match results.filterMap defect?, readPattern pattern with
  | [], .ok p => .ok ⟨results.filterMap Except.toOption, p⟩
  | defects, result => .error (defects ++ (defect? result).toList)

def read (s : String) : Except (List LogDefect) LogSpecification :=
  match pieces '/' s.toList with
  | [rules] => readBoth rules []
  | [rules, pattern] => readBoth rules pattern
  | _ => .error [.severalSlashes s]

/-- The rule for a target: of those that govern it the one with the longest scope. -/
def ruleFor? (spec : LogSpecification) (target : String) : Option LogRule :=
  (spec.rules.filter (·.governs target)).foldl LogRule.closer none

/-- Whether an event is written. Without a rule for its target it is not. -/
def admits (spec : LogSpecification) (e : Event) : Bool :=
  (spec.ruleFor? e.target).any (·.limit.admits e.level) && spec.pattern.occursIn e.message.toList

end LogSpecification

end A64
