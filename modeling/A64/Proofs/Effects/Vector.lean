import A64.Proofs.Effects

/-! The forms of floating point and vectors account for their operands. Most of them touch nothing that
sets track; the others move values from and to general registers. -/

namespace A64.Encoding

open Form

variable {w : Word} {f : Form}

theorem isUntracked_scalar (n : RegisterField) (width : Nat) : (n.scalar width).IsUntracked := by
  simp [Operand.IsUntracked]

theorem isUntracked_lanes (n : RegisterField) (arrangement : Arrangement) :
    (n.lanes arrangement).IsUntracked := by
  simp [Operand.IsUntracked]

theorem HashView.isUntracked_operand (view : HashView) (n : RegisterField) :
    (view.operand n).IsUntracked := by
  cases view with
  | scalar width => exact isUntracked_scalar n width
  | words => exact isUntracked_lanes n .s4

theorem CryptoEncoding.accounts (h : CryptoEncoding w f) : f.Accounts [] := by
  cases h with
  | cipher => exact accounts_plain (by simp [spelled, isUntracked_lanes])
  | hashThree | hashTwo =>
    exact accounts_plain (by simp [spelled, HashView.isUntracked_operand, isUntracked_lanes])

theorem UpperHalfMove.accounts_form (e : UpperHalfMove) : e.form.Accounts [] := by
  unfold form
  split
  · exact accounts_of_data [e.rd.gp true] rfl fun n => by simp [Touches]
  · exact accounts_of_data [e.rn.gp true] rfl fun n => by simp [Touches]

theorem Conversion.accounts_form (e : Conversion) : e.form.Accounts [] := by
  have hcount : (e.fraction.map Operand.count).toList.flatMap Operand.roles = [] := by
    cases e.fraction <;> rfl
  simp only [form]
  split
  · exact accounts_of_data [e.rd.gp e.wide, e.rn.float e.width] (by simp [roles, spelled, hcount])
      fun n => by simp [Touches]
  · exact accounts_of_data [e.rd.float e.width, e.rn.gp e.wide] (by simp [roles, spelled, hcount])
      fun n => by simp [Touches]

theorem FloatEncoding.accounts (h : FloatEncoding w f) : f.Accounts [] := by
  cases h with
  | upperHalfMove => exact UpperHalfMove.accounts_form _
  | conversion => exact Conversion.accounts_form _
  | conditionalCompare =>
    refine accounts_of_untracked ?_ (by simp [floatConditionalCompare]) (by simp [floatConditionalCompare])
    simp [floatConditionalCompare, spelled, Operand.IsUntracked]
  | select =>
    refine accounts_of_untracked ?_ (by simp [floatSelect]) (by simp [floatSelect])
    simp [floatSelect, spelled, Operand.IsUntracked]
  | compare =>
    refine accounts_of_untracked ?_ (by simp) (by simp)
    cases w.bit 3 <;> simp [spelled, Operand.IsUntracked]
  | twoSource | oneSource | precision | unknownOneSource | immediate =>
    exact accounts_plain (by simp [spelled, Operand.IsUntracked])

theorem CopyEncoding.accounts {l : LaneSelect} (h : CopyEncoding w l f) : f.Accounts [] := by
  cases h with
  | insert | duplicateLane =>
    exact accounts_plain (by simp [spelled, Operand.IsUntracked, LaneSelect.operand])
  | duplicateGeneral =>
    exact accounts_of_data [w.rn.gp (l.sizeLog = 3)] rfl fun n => by simp [Touches]
  | fromGeneral =>
    exact accounts_of_data [w.rn.gp (l.sizeLog = 3)] rfl fun n => by simp [Touches, generalToLane]
  | toGeneral => exact accounts_of_data [w.rd.gp (w.bit 30)] rfl fun n => by simp [Touches]

theorem LanewiseEncoding.accounts (h : LanewiseEncoding w f) : f.Accounts [] := by
  have hthree (mnemonic : String) (arrangement : Arrangement) :
      (threeVectors w mnemonic arrangement).Accounts [] :=
    accounts_plain (by simp [spelled, isUntracked_lanes])
  cases h with
  | bitwise =>
    simp only [bitwiseForm]
    split
    · exact accounts_plain (by simp [spelled, isUntracked_lanes])
    · exact hthree _ _
  | floatThreeSame | integerThreeSame => exact hthree _ _
  | @twoRegister e =>
    refine accounts_plain ?_
    cases e.compareZero <;> simp [spelled, Operand.IsUntracked]
  | floatReduction | integerReduction | unknown =>
    exact accounts_plain (by simp [spelled, Operand.IsUntracked])

theorem VectorEncoding.accounts (h : VectorEncoding w f) : f.Accounts [] := by
  cases h with
  | crypto hf => exact hf.accounts
  | float hf => exact hf.accounts
  | fixedConversion => exact Conversion.accounts_form _
  | floatThreeSource => exact accounts_plain (by simp [spelled, Operand.IsUntracked])
  | copy _ hf => exact hf.accounts
  | lanewise hf => exact hf.accounts

end A64.Encoding
