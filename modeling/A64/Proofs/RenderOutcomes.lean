import A64.Assembly

/-! What rendering reports. An operand has a text or a defect, whatever the format of immediates is. Main
statement: an instruction has a text exactly if it has a mnemonic and assembly can write all its operands;
otherwise the first operand that it cannot write is reported, with what is wrong with it. -/

namespace A64

/-- A memory reference has a base register, and an index register stands neither beside a displacement
nor with a write-back. -/
def MemoryRef.IsExpressible (m : MemoryRef) : Prop :=
  (∃ r, m.base = some r ∧ r.isValid = true) ∧
    ∀ x, m.index = some x → x.reg.isValid = true ∧ m.displacement = 0 ∧ m.mode = .offset

def Operand.IsExpressible : Operand → Prop
  | .register r | .shifted r _ _ => r.isValid = true
  | .extended e => e.reg.isValid = true
  | .float x => x.isFinite = true
  | .memory m => m.IsExpressible
  | .vector n _ | .element n _ _ => n < 32
  | .controlRegister n => n < 16
  | .named name => name ≠ ""
  | .immediate _ | .shiftedImmediate _ _ | .count _ | .pcRelative _ _ | .condition _
  | .systemRegister _ => True

/-! What is wrong with an operand. -/

def Register.defect? (r : Register) : Option OperandDefect :=
  if r.isValid then none else some .namelessRegister

/-- The base is looked at first, and the index register last. -/
def MemoryRef.defect? (m : MemoryRef) : Option OperandDefect :=
  match m.base with
  | none => some .noBase
  | some r =>
    r.defect?.or <| m.index.bind fun x =>
      if m.displacement ≠ 0 then some .indexAndDisplacement
      else if m.mode ≠ .offset then some .indexWithWriteback
      else x.reg.defect?

def Operand.defect? : Operand → Option OperandDefect
  | .register r | .shifted r _ _ => r.defect?
  | .extended e => e.reg.defect?
  | .float x => if x.isFinite then none else some .notFinite
  | .memory m => m.defect?
  | .vector n _ | .element n _ _ => if n < 32 then none else some .vectorOutOfRange
  | .controlRegister n => if n < 16 then none else some .controlOutOfRange
  | .named name => if name = "" then some .emptyName else none
  | .immediate _ | .shiftedImmediate _ _ | .count _ | .pcRelative _ _ | .condition _
  | .systemRegister _ => none

theorem Register.defect?_eq_none_iff {r : Register} : r.defect? = none ↔ r.isValid = true := by
  simp [defect?]

theorem MemoryRef.defect?_eq_none_iff {m : MemoryRef} : m.defect? = none ↔ m.IsExpressible := by
  obtain ⟨base, index, displacement, mode⟩ := m
  cases base with
  | none => simp [defect?, IsExpressible]
  | some r =>
    cases index with
    | none => simp [defect?, IsExpressible, Register.defect?]
    | some x =>
      by_cases hd : displacement = 0 <;> by_cases hm : mode = .offset <;>
        simp [defect?, IsExpressible, Register.defect?_eq_none_iff, hd, hm]

theorem Operand.defect?_eq_none_iff {op : Operand} : op.defect? = none ↔ op.IsExpressible := by
  cases op with
  | register r | shifted r shift amount | extended e => exact Register.defect?_eq_none_iff
  | memory m => exact MemoryRef.defect?_eq_none_iff
  | float x | vector n arrangement | element n size index | controlRegister n | named name =>
    simp [defect?, IsExpressible]
  | immediate i | shiftedImmediate value shift | count n | pcRelative offset target | condition c
  | systemRegister r => simp [defect?, IsExpressible]

/-! Rendering fails with the defect. -/

/-- A result fails with the given problem, or there is none. -/
inductive Reports {ε α : Type} : Except ε α → Option ε → Prop where
  | ok (t : α) : Reports (.ok t) none
  | error (e : ε) : Reports (.error e) (some e)

namespace Reports

variable {ε α β : Type} {x : Except ε α} {o o' : Option ε} {t : α} {e : ε}

theorem of_eq_ok (h : x = .ok t) : Reports x none := h ▸ .ok t

theorem of_eq_error (h : x = .error e) : Reports x (some e) := h ▸ .error e

theorem eq_error_iff (h : Reports x o) : x = .error e ↔ o = some e := by
  cases h <;> simp

theorem exists_ok_iff (h : Reports x o) : (∃ t, x = .ok t) ↔ o = none := by
  cases h <;> simp

theorem map (f : α → β) (h : Reports x o) : Reports (x.map f) o := by
  cases h with
  | ok t => exact .ok (f t)
  | error e => exact .error e

theorem bind {f : α → Except ε β} (h : Reports x o) (hf : ∀ t, Reports (f t) o') :
    Reports (x.bind f) (o.or o') := by
  cases h with
  | ok t => exact hf t
  | error e => exact .error e

theorem check {p : Prop} [Decidable p] (e : ε) (h : Reports x o) :
    Reports (if p then .error e else x) (if p then some e else o) := by
  split
  · exact .error e
  · exact h

theorem require {p : Prop} [Decidable p] (t : α) (e : ε) :
    Reports (if p then .ok t else .error e) (if p then none else some e) := by
  split
  · exact .ok t
  · exact .error e

end Reports

theorem Register.reports (r : Register) : Reports r.render r.defect? := by
  unfold render defect?
  exact .require r.text _

theorem ExtendedRegister.reports (e : ExtendedRegister) : Reports e.render e.reg.defect? :=
  e.reg.reports.map (· ++ e.suffix)

theorem MemoryRef.reports (m : MemoryRef) (format : ImmediateFormat) :
    Reports (m.render format) m.defect? := by
  obtain ⟨base, index, displacement, mode⟩ := m
  cases base with
  | none => exact .error _
  | some r =>
    refine r.reports.bind fun base => ?_
    cases index with
    | none => exact .ok _
    | some x =>
      have hmode : (mode.writesBack = true) = (mode ≠ .offset) := by cases mode <;> simp [IndexMode.writesBack]
      simp only [hmode]
      exact .check _ (.check _ (x.reports.map _))

theorem Operand.reports (op : Operand) (format : ImmediateFormat) :
    Reports (op.render format) op.defect? := by
  cases op with
  | register r => exact r.reports
  | shifted r shift amount => exact r.reports.map _
  | extended e => exact e.reports
  | memory m => exact m.reports format
  | float x => exact .require _ _
  | vector n arrangement => exact .require _ _
  | element n size index => exact .require _ _
  | controlRegister n => exact .require _ _
  | named name =>
    simp only [render, defect?, String.isEmpty_iff]
    exact .check _ (.ok name)
  | immediate i | shiftedImmediate value shift | count n | pcRelative offset target | condition c
  | systemRegister r => exact .ok _

theorem Operand.exists_render_iff {op : Operand} (format : ImmediateFormat) :
    (∃ t, op.render format = .ok t) ↔ op.IsExpressible :=
  (op.reports format).exists_ok_iff.trans defect?_eq_none_iff

theorem Operand.exists_render {op : Operand} (h : op.IsExpressible) (format : ImmediateFormat) :
    ∃ t, op.render format = .ok t := (exists_render_iff format).mpr h

/-! Lists of operands. -/

theorem Operand.exists_renderAll {ops : List Operand} (h : ∀ op ∈ ops, op.IsExpressible)
    (format : ImmediateFormat) (i : Nat) :
    ∃ ts, renderAll format i ops = .ok ts ∧ ops.map (render format) = ts.map .ok := by
  induction ops generalizing i with
  | nil => exact ⟨[], rfl, rfl⟩
  | cons op ops ih =>
    obtain ⟨hop, hops⟩ := List.forall_mem_cons.mp h
    obtain ⟨t, ht⟩ := exists_render hop format
    obtain ⟨ts, hts, hmap⟩ := ih hops (i + 1)
    exact ⟨t :: ts, by simp [renderAll, ht, hts, Except.map], by simp [ht, hmap]⟩

theorem Operand.renderAll_append {before after : List Operand} {op : Operand} {d : OperandDefect}
    (hbefore : ∀ op ∈ before, op.IsExpressible) (hop : op.defect? = some d) (format : ImmediateFormat)
    (i : Nat) : renderAll format i (before ++ op :: after) = .error (i + before.length, d) := by
  induction before generalizing i with
  | nil =>
    have hrender := (op.reports format).eq_error_iff.mpr hop
    simp [renderAll, hrender]
  | cons first before ih =>
    obtain ⟨hfirst, hbefore⟩ := List.forall_mem_cons.mp hbefore
    obtain ⟨t, ht⟩ := exists_render hfirst format
    have hindex : i + 1 + before.length = i + (first :: before).length := by
      rw [List.length_cons]
      omega
    simp only [List.cons_append, renderAll, ht, ih hbefore (i + 1), hindex, Except.map]

theorem Operand.exists_first_defect {ops : List Operand} (h : ¬∀ op ∈ ops, op.IsExpressible) :
    ∃ before op after d, ops = before ++ op :: after ∧ (∀ op ∈ before, op.IsExpressible) ∧
      op.defect? = some d := by
  cases hfind : ops.find? (·.defect?.isSome) with
  | none =>
    refine absurd (fun op hop => defect?_eq_none_iff.mp ?_) h
    simpa using List.find?_eq_none.mp hfind op hop
  | some op =>
    obtain ⟨hop, before, after, rfl, hbefore⟩ := List.find?_eq_some_iff_append.mp hfind
    obtain ⟨d, hd⟩ := Option.isSome_iff_exists.mp hop
    exact ⟨before, op, after, d, rfl,
      fun op hop => defect?_eq_none_iff.mp (by simpa using hbefore op hop), hd⟩

/-! Instructions. -/

namespace Instruction

variable {i : Instruction} {name : String}

theorem render_unnamed (hm : i.mnemonic = none) (format : ImmediateFormat) :
    i.render format = .error (.unnamed i.address i.raw i.encodingClass) := by
  rw [render, hm]

theorem render_expressible (hm : i.mnemonic = some name) (h : ∀ op ∈ i.operands, op.IsExpressible)
    (format : ImmediateFormat) :
    ∃ ts, i.operands.map (Operand.render format) = ts.map .ok ∧
      i.render format = .ok (assemblyLine name ts) := by
  obtain ⟨ts, hts, hmap⟩ := Operand.exists_renderAll h format 0
  exact ⟨ts, hmap, by simp only [render, hm, hts]⟩

theorem render_inexpressible {before after : List Operand} {op : Operand} {d : OperandDefect}
    (hm : i.mnemonic = some name) (hops : i.operands = before ++ op :: after)
    (hbefore : ∀ op ∈ before, op.IsExpressible) (hop : op.defect? = some d) (format : ImmediateFormat) :
    i.render format = .error (.invalidOperand i.address i.raw before.length d.message) := by
  simp only [render, hm, hops, Operand.renderAll_append hbefore hop, Nat.zero_add]

theorem exists_render (hm : i.mnemonic.isSome = true) (h : ∀ op ∈ i.operands, op.IsExpressible)
    (format : ImmediateFormat) : ∃ t, i.render format = .ok t := by
  obtain ⟨name, hm⟩ := Option.isSome_iff_exists.mp hm
  obtain ⟨ts, -, hr⟩ := render_expressible hm h format
  exact ⟨_, hr⟩

/-- The format decides how an instruction is written, and not whether it can be. -/
theorem exists_reports (i : Instruction) :
    ∃ problem : Option RenderError, ∀ format, Reports (i.render format) problem := by
  cases hm : i.mnemonic with
  | none => exact ⟨_, fun format => .of_eq_error (render_unnamed hm format)⟩
  | some name =>
    by_cases h : ∀ op ∈ i.operands, op.IsExpressible
    · refine ⟨none, fun format => ?_⟩
      obtain ⟨ts, -, hr⟩ := render_expressible hm h format
      exact .of_eq_ok hr
    · obtain ⟨before, op, after, d, hops, hbefore, hop⟩ := Operand.exists_first_defect h
      exact ⟨_, fun format => .of_eq_error (render_inexpressible hm hops hbefore hop format)⟩

/-- An instruction without a mnemonic is reported as such. With one, it is written as the mnemonic and its
operands if assembly can write them all; otherwise the first operand that cannot be written is reported, with
its defect. Both formats of immediates report the same. -/
theorem render_exact (i : Instruction) (format : ImmediateFormat) :
    (∀ op : Operand, (∃ t, op.render format = .ok t) ↔ op.IsExpressible) ∧
    (i.mnemonic = none → i.render format = .error (.unnamed i.address i.raw i.encodingClass)) ∧
    (∀ name, i.mnemonic = some name → (∀ op ∈ i.operands, op.IsExpressible) →
      ∃ ts, i.operands.map (Operand.render format) = ts.map .ok ∧
        i.render format = .ok (name ++ if ts = [] then "" else " " ++ ", ".intercalate ts)) ∧
    (∀ name, i.mnemonic = some name → (¬∀ op ∈ i.operands, op.IsExpressible) →
      ∃ before op after d, i.operands = before ++ op :: after ∧
        (∀ op ∈ before, op.IsExpressible) ∧ ¬op.IsExpressible ∧
        op.defect? = some d ∧ op.render format = .error d ∧
        i.render format = .error (.invalidOperand i.address i.raw before.length d.message)) ∧
    ∀ error, i.render .hex = .error error ↔ i.render .decimal = .error error := by
  refine ⟨fun op => Operand.exists_render_iff format, fun hm => render_unnamed hm format, ?_, ?_, ?_⟩
  · intro name hm h
    obtain ⟨ts, hmap, hr⟩ := render_expressible hm h format
    have hline : assemblyLine name ts = name ++ if ts = [] then "" else " " ++ ", ".intercalate ts := by
      cases ts with
      | nil => simp [assemblyLine]
      | cons t ts => simp [assemblyLine, String.append_assoc]
    exact ⟨ts, hmap, hline ▸ hr⟩
  · intro name hm h
    obtain ⟨before, op, after, d, hops, hbefore, hop⟩ := Operand.exists_first_defect h
    have hinexpressible : ¬op.IsExpressible := by
      rw [← Operand.defect?_eq_none_iff, hop]
      exact Option.some_ne_none d
    exact ⟨before, op, after, d, hops, hbefore, hinexpressible, hop,
      (op.reports format).eq_error_iff.mpr hop, render_inexpressible hm hops hbefore hop format⟩
  · intro error
    obtain ⟨problem, h⟩ := exists_reports i
    rw [(h .hex).eq_error_iff, (h .decimal).eq_error_iff]

end Instruction

end A64
