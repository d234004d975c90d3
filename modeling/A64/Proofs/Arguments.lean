import Mathlib.Data.List.TakeWhile
import A64.CommandLine.Request
import A64.Proofs.Numerals

/-! Command lines that spell out every switch by its name, with its value attached, and have the file
behind two dashes, where no name is taken for a switch. Main statement: every listing can be asked for in
this way. -/

namespace A64.CommandLine

namespace Switch

def flag (s : Switch) : String := "--" ++ s.name

def assign (s : Switch) (value : String) : String := "--" ++ s.name ++ "=" ++ value

theorem ofName?_name (s : Switch) : ofName? s.name.toList = some s := by cases s <;> decide

theorem name_ne_sign (s : Switch) : ∀ c ∈ s.name.toList, (c != '=') = true :=
  List.all_eq_true.mp (by cases s <;> decide)

theorem name_ne_nil (s : Switch) : s.name.toList ≠ [] := by cases s <;> decide

theorem toList_flag (s : Switch) : s.flag.toList = '-' :: '-' :: s.name.toList := by simp [flag]

theorem toList_assign (s : Switch) (value : String) :
    (s.assign value).toList = '-' :: '-' :: (s.name.toList ++ '=' :: value.toList) := by
  simp [assign]

end Switch

namespace Progress

theorem ofArgument_flag (d : Draft) (s : Switch) :
    ofArgument d s.flag = ofName d s.name.toList none := by
  rw [ofArgument, Switch.toList_flag]
  simp only [behindSign, List.takeWhile_eq_self_iff.mpr s.name_ne_sign,
    List.dropWhile_eq_nil_iff.mpr s.name_ne_sign]

theorem ofArgument_assign (d : Draft) (s : Switch) (value : String) :
    ofArgument d (s.assign value) = ofName d s.name.toList (some value.toList) := by
  rw [ofArgument, Switch.toList_assign]
  simp [behindSign, List.takeWhile_append_of_pos s.name_ne_sign,
    List.dropWhile_append_of_pos s.name_ne_sign]

end Progress

namespace Request

open Progress

theorem ne_dashes {argument : String} {cs : List Char} (h : argument.toList = '-' :: '-' :: cs)
    (hcs : cs ≠ []) : argument ≠ "--" := by
  rintro rfl
  exact hcs (List.cons.inj (List.cons.inj h).2).2.symm

theorem readFrom_assign {s : Switch} (hs : s.takesValue = true) (d : Draft) (value : String)
    (as : List String) :
    readFrom d (s.assign value :: as) = (d.note s value).bind (readFrom · as) := by
  have hdashes := ne_dashes (s.toList_assign value) (by simp)
  rw [readFrom, if_neg hdashes, ofArgument_assign, ofName, Switch.ofName?_name]
  simp only [hs, String.ofList_toList]
  cases d.note s value <;> rfl

theorem readFrom_flag {s : Switch} (hs : s = .decimal ∨ s = .annotate) (d : Draft) (as : List String) :
    readFrom d (s.flag :: as) = (d.note s "").bind (readFrom · as) := by
  have hdashes := ne_dashes s.toList_flag s.name_ne_nil
  rw [readFrom, if_neg hdashes, ofArgument_flag, ofName, Switch.ofName?_name]
  rcases hs with rfl | rfl
  all_goals
    simp only [Switch.takesValue, Switch.value?, Option.isSome_none]
    cases d.note _ "" <;> rfl

/-- Reading a switch that may be given. What is noted for its value is told by `put`. -/
theorem readFrom_option {α : Type} {s : Switch} (hs : s.takesValue = true) (write : α → String)
    (put : Option α → Draft) (value : Option α)
    (hnote : ∀ a ∈ value, (put none).note s (write a) = .ok (put (some a))) (as : List String) :
    readFrom (put none) ((value.map fun a => s.assign (write a)).toList ++ as) =
      readFrom (put value) as := by
  cases value with
  | none => rfl
  | some a =>
    simp only [Option.map_some, Option.toList_some, List.cons_append, List.nil_append,
      readFrom_assign hs, hnote a rfl]
    rfl

theorem readFrom_choice {s : Switch} (hs : s = .decimal ∨ s = .annotate) (put : Bool → Draft)
    (hnote : (put false).note s "" = .ok (put true)) (given : Bool) (as : List String) :
    readFrom (put false) ((if given then [s.flag] else []) ++ as) = readFrom (put given) as := by
  cases given with
  | false => rfl
  | true =>
    simp only [if_true, List.cons_append, List.nil_append, readFrom_flag hs, hnote]
    rfl

theorem readFrom_file {d : Draft} (hd : d.file = none) {file : Option String} (hfile : file ≠ some "") :
    readFrom d ("--" :: file.toList) = Draft.finish { d with file } := by
  rw [readFrom, if_pos rfl]
  cases file with
  | none =>
    cases d
    subst hd
    rfl
  | some name =>
    have hname : name.isEmpty = false := by
      rw [← Bool.not_eq_true, String.isEmpty_iff]
      rintro rfl
      exact hfile rfl
    simp [Draft.noteFiles, Draft.noteFile, hd, hname, Except.bind]

end Request

namespace Draft

def arguments (d : Draft) : List String :=
  (d.base.map fun a => Switch.base.assign (Hex.text a.toNat)).toList ++
    ((d.offset.map fun a => Switch.offset.assign (Hex.text a.toNat)).toList ++
    ((d.count.map fun n => Switch.count.assign n.repr).toList ++
    ((if d.decimal then [Switch.decimal.flag] else []) ++
    ((if d.annotate then [Switch.annotate.flag] else []) ++
    ((d.logLevel.map fun level => Switch.logLevel.assign level).toList ++
    "--" :: d.file.toList)))))

open Request

theorem read_arguments {d : Draft} (hfile : d.file ≠ some "") (hcount : ∀ n ∈ d.count, n < countBound) :
    Request.read d.arguments = d.finish := by
  obtain ⟨file, base, offset, count, decimal, annotate, logLevel⟩ := d
  have hhex (a : Address) : Hex.read? (Hex.text a.toNat) = some a := by
    rw [Hex.text, Hex.read?_digits 1 a.isLt, BitVec.ofNat_toNat, BitVec.setWidth_eq]
  -- One equation for each switch: the draft so far, and the draft with what the switch adds.
  have hbase := readFrom_option (s := .base) rfl (fun a : Address => Hex.text a.toNat)
    (fun base => { base }) base fun a _ => by simp [note, has, hhex]
  have hoffset := readFrom_option (s := .offset) rfl (fun a : Address => Hex.text a.toNat)
    (fun offset => { base, offset }) offset fun a _ => by simp [note, has, hhex]
  have hnumber := readFrom_option (s := .count) rfl Nat.repr (fun count => { base, offset, count }) count
    fun n hn => by simp [note, has, Numeral.readBelow?_repr (hcount n hn)]
  have hdecimal := readFrom_choice (.inl rfl) (fun decimal => { base, offset, count, decimal })
    (by simp [note, has]) decimal
  have hannotate := readFrom_choice (.inr rfl)
    (fun annotate => { base, offset, count, decimal, annotate }) (by simp [note, has]) annotate
  have hlevel := readFrom_option (s := .logLevel) rfl (fun level : String => level)
    (fun logLevel => { base, offset, count, decimal, annotate, logLevel }) logLevel
    fun level _ => by simp [note, has]
  rw [Request.read, arguments, hbase, hoffset, hnumber, hdecimal, hannotate, hlevel, readFrom_file rfl hfile]

end Draft

namespace Invocation

def draft (i : Invocation) : Draft where
  file := some i.file
  base := some i.base
  offset := some i.offset
  count := i.count
  decimal := i.decimal
  annotate := i.annotate
  logLevel := some i.logLevel

/-- Every listing of a file that has a name can be asked for. -/
theorem read_arguments {i : Invocation} (hfile : i.file ≠ "")
    (hcount : ∀ n ∈ i.count, n < Draft.countBound) : Request.read i.draft.arguments = .ok (.list i) :=
  Draft.read_arguments (fun h => hfile (Option.some.inj h)) hcount

end Invocation

end A64.CommandLine
