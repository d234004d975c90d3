import Mathlib.Logic.Basic
import A64.Proofs.Encodings.General

/-! The encodings of floating point and vectors, one case for each shape of a form. A form of these
classes is told by a name from a table, so the cases carry the entry of the table that they use. -/

namespace A64.Encoding

variable {w : Word} {f : Form}

inductive FloatEncoding (w : Word) : Form → Prop where
  | upperHalfMove {e : UpperHalfMove} (hz : w.field 10 6 = 0) (he : UpperHalfMove.ofWord? w = some e) :
      FloatEncoding w e.form
  | conversion {width : Nat} {op : ConversionOp} (hz : w.field 10 6 = 0)
      (hw : floatWidth w = .ok width)
      (ho : integerConversion (w.field 19 2) (w.field 16 3) (w.bit 31) width = .ok op) :
      FloatEncoding w (Conversion.form ⟨op, w.bit 31, width, none, w.rn, w.rd⟩)
  | conditionalCompare {width : Nat} (hw : floatWidth w = .ok width) (ho : (w.field 10 2).toNat = 1) :
      FloatEncoding w (floatConditionalCompare w width)
  | select {width : Nat} (hw : floatWidth w = .ok width) (ho : (w.field 10 2).toNat = 3) :
      FloatEncoding w (floatSelect w width)
  | twoSource {width : Nat} {mnemonic : String} (hw : floatWidth w = .ok width)
      (ho : (w.field 10 2).toNat = 2) (hn : floatBinary? (w.field 12 4) = some mnemonic) :
      FloatEncoding w (.plain (spelled mnemonic .floatArith
        [w.rd.scalar width, w.rn.scalar width, w.rm.scalar width]))
  | oneSource {width : Nat} {mnemonic : String} {operation : Operation}
      (hw : floatWidth w = .ok width) (ho : w.field 10 5 = 16)
      (hn : floatUnary? (w.field 15 6) = some (.keep mnemonic operation)) :
      FloatEncoding w (.plain (spelled mnemonic operation [w.rd.scalar width, w.rn.scalar width]))
  | precision {width target : Nat} (hw : floatWidth w = .ok width) (ho : w.field 10 5 = 16)
      (hn : floatUnary? (w.field 15 6) = some (.convert target)) (ht : target ≠ width) :
      FloatEncoding w (.plain (spelled "fcvt" .convert [w.rd.scalar target, w.rn.scalar width]))
  | unknownOneSource (ho : w.field 10 5 = 16) (hn : floatUnary? (w.field 15 6) = none) :
      FloatEncoding w (.unnamed .floatArith)
  | compare {width : Nat} (hw : floatWidth w = .ok width) (ho : w.field 10 4 = 8) :
      FloatEncoding w
        { toSpelling :=
            spelled (if w.bit 4 then "fcmpe" else "fcmp") .floatCompare
              [w.rn.scalar width, if w.bit 3 then .float .zero else w.rm.scalar width]
          writes := .flags }
  | immediate {width : Nat} (hw : floatWidth w = .ok width) (ho : w.field 10 3 = 4) :
      FloatEncoding w (.plain (spelled "fmov" .move
        [w.rd.scalar width, .float (.ofImmediate (w.field 13 8))]))

theorem floatEncoding_of_conversion (hz : w.field 10 6 = 0) (h : integerConversionForm w = .ok f) :
    FloatEncoding w f := by
  unfold integerConversionForm at h
  split at h
  · next e he =>
    cases h
    exact .upperHalfMove hz he
  · obtain ⟨width, hw, h⟩ := bind_eq_ok.mp h
    obtain ⟨op, ho, rfl⟩ := map_eq_ok.mp h
    exact .conversion hz hw ho

theorem floatEncoding_of_oneSource {width : Nat} (hw : floatWidth w = .ok width)
    (ho : w.field 10 5 = 16) (h : floatOneSource w width = .ok f) : FloatEncoding w f := by
  unfold floatOneSource at h
  split at h
  · next hn =>
    cases h
    exact .oneSource hw ho hn
  · next hn =>
    split at h
    · simp at h
    · next ht =>
      cases h
      exact .precision hw ho hn ht
  · next hn =>
    cases h
    exact .unknownOneSource ho hn

theorem floatEncoding_of_scalar {width : Nat} (hw : floatWidth w = .ok width)
    (h : scalarForm w width = .ok f) : FloatEncoding w f := by
  unfold scalarForm at h
  split at h
  case h_1 ho =>
    cases h
    exact .conditionalCompare hw ho
  case h_2 ho =>
    unfold floatTwoSource at h
    split at h
    · next hn =>
      cases h
      exact .twoSource hw ho hn
    · simp at h
  case h_3 ho =>
    cases h
    exact .select hw ho
  case h_4 =>
    split at h
    · next ho => exact floatEncoding_of_oneSource hw ho h
    · split at h
      · next ho =>
        unfold floatCompare at h
        split at h
        · simp at h
        · cases h
          exact .compare hw ho
      · split at h
        · next ho =>
          unfold floatImmediate at h
          split at h
          · simp at h
          · cases h
            exact .immediate hw ho
        · simp at h

theorem floatEncoding_of_ok (h : floatForm w = .ok f) : FloatEncoding w f := by
  unfold floatForm at h
  split at h
  · simp at h
  · split at h
    · next hz => exact floatEncoding_of_conversion hz h
    · split at h
      · simp at h
      · obtain ⟨width, hw, h⟩ := bind_eq_ok.mp h
        exact floatEncoding_of_scalar hw h

inductive CryptoEncoding (w : Word) : Form → Prop where
  | cipher {mnemonic : String} (hn : cipherName? (w.field 12 5) = some mnemonic) :
      CryptoEncoding w (.plain (spelled mnemonic .crypto [w.rd.lanes .b16, w.rn.lanes .b16]))
  | hashThree {mnemonic : String} {first second : HashView}
      (hn : hashThree? (w.field 12 3) = some (mnemonic, first, second)) :
      CryptoEncoding w (.plain (spelled mnemonic .crypto
        [first.operand w.rd, second.operand w.rn, w.rm.lanes .s4]))
  | hashTwo {mnemonic : String} {view : HashView}
      (hn : hashTwo? (w.field 12 5) = some (mnemonic, view)) :
      CryptoEncoding w (.plain (spelled mnemonic .crypto [view.operand w.rd, view.operand w.rn]))

theorem cryptoEncoding_of_cipher (h : cipherForm w = .ok f) : CryptoEncoding w f := by
  unfold cipherForm at h
  split at h
  · simp at h
  · split at h
    · next hn =>
      cases h
      exact .cipher hn
    · simp at h

theorem cryptoEncoding_of_hashThree (h : hashThreeForm w = .ok f) : CryptoEncoding w f := by
  unfold hashThreeForm at h
  split at h
  · simp at h
  · split at h
    · next hn =>
      cases h
      exact .hashThree hn
    · simp at h

theorem cryptoEncoding_of_hashTwo (h : hashTwoForm w = .ok f) : CryptoEncoding w f := by
  unfold hashTwoForm at h
  split at h
  · simp at h
  · split at h
    · next hn =>
      cases h
      exact .hashTwo hn
    · simp at h

/-- Copies between lanes and general registers, `l` being the lane that the word selects. -/
inductive CopyEncoding (w : Word) (l : LaneSelect) : Form → Prop where
  | insert (hq : w.bit 30 = true) :
      CopyEncoding w l (.plain (spelled "mov" .move
        [l.operand w.rd, w.rn.lane l.size ((w.field 11 4).toNat >>> l.sizeLog)]))
  | duplicateLane (hq : l.sizeLog = 3 → w.bit 30 = true) :
      CopyEncoding w l (.plain (spelled "dup" .vector
        [w.rd.lanes (l.arrangement (w.bit 30)), l.operand w.rn]))
  | duplicateGeneral (hq : l.sizeLog = 3 → w.bit 30 = true) :
      CopyEncoding w l
        { toSpelling :=
            spelled "dup" .vector
              [w.rd.lanes (l.arrangement (w.bit 30)), .register (w.rn.gp (l.sizeLog = 3))]
          reads := .of [w.rn.gp (l.sizeLog = 3)] }
  | fromGeneral : CopyEncoding w l (generalToLane w l)
  | toGeneral {signed : Bool} {mnemonic : String}
      (hn : laneMoveName? signed (w.bit 30) l.sizeLog = some mnemonic) :
      CopyEncoding w l
        { toSpelling :=
            spelled mnemonic .move [.register (w.rd.gp (w.bit 30)), l.operand w.rn]
          writes := .of [w.rd.gp (w.bit 30)] }

theorem copyEncoding_of_duplicate {l : LaneSelect} {general : Bool}
    (h : duplicate w l general = .ok f) : CopyEncoding w l f := by
  simp only [duplicate] at h
  split at h
  · simp at h
  · next hq =>
    have hq' : l.sizeLog = 3 → w.bit 30 = true := by simpa using hq
    split at h
    · cases h
      exact .duplicateGeneral hq'
    · cases h
      exact .duplicateLane hq'

theorem copyEncoding_of_laneToGeneral {l : LaneSelect} {signed : Bool}
    (h : laneToGeneral w l signed = .ok f) : CopyEncoding w l f := by
  unfold laneToGeneral at h
  split at h
  · next hn =>
    cases h
    exact .toGeneral hn
  · simp at h

theorem copyEncoding_of_ok (h : copyForm w = .ok f) :
    ∃ l, LaneSelect.ofField? (w.field 16 5) = some l ∧ CopyEncoding w l f := by
  unfold copyForm at h
  split at h
  · simp at h
  · next l hl =>
    refine ⟨l, hl, ?_⟩
    split at h
    · unfold laneInsert at h
      split at h
      · next hq =>
        cases h
        exact .insert hq
      · simp at h
    · split at h
      case h_1 | h_2 => exact copyEncoding_of_duplicate h
      case h_3 =>
        split at h
        · cases h
          exact .fromGeneral
        · simp at h
      case h_4 | h_5 => exact copyEncoding_of_laneToGeneral h
      case h_6 => simp at h

inductive LanewiseEncoding (w : Word) : Form → Prop where
  | bitwise : LanewiseEncoding w (bitwiseForm w)
  | floatThreeSame {mnemonic : String} {arrangement : Arrangement}
      (hn : floatThreeSameName? (w.bit 29) (w.bit 23) (w.field 11 5) = some mnemonic)
      (ha : Arrangement.ofFloat? (w.bit 22) (w.bit 30) = some arrangement) :
      LanewiseEncoding w (threeVectors w mnemonic arrangement)
  | integerThreeSame {mnemonic : String}
      (hn : integerThreeSameName? (w.field 11 5) (w.bit 29) = some mnemonic)
      (hr : isReservedSize (w.field 11 5) (w.bit 29) (w.field 22 2) (w.bit 30) = false) :
      LanewiseEncoding w (threeVectors w mnemonic (.ofSize (w.field 22 2) (w.bit 30)))
  | twoRegister {e : VectorUnary} {arrangement : Arrangement}
      (he : VectorUnary.find? (w.bit 29) (w.field 12 5) (w.field 22 2) = some e)
      (ha : e.arrangement? (w.field 22 2) (w.bit 30) = some arrangement) :
      LanewiseEncoding w (.plain (spelled e.mnemonic e.operation
        ([w.rd.lanes arrangement, w.rn.lanes arrangement] ++
          if e.compareZero then [.count 0] else [])))
  | floatReduction {mnemonic : String}
      (hn : floatReductionName? (w.bit 29) (w.bit 23) (w.field 12 5) = some mnemonic) :
      LanewiseEncoding w (.plain (spelled mnemonic .floatArith [w.rd.scalar 32, w.rn.lanes .s4]))
  | integerReduction {mnemonic : String} {widening : Bool}
      (hn : integerReduction? (w.bit 29) (w.field 12 5) = some (mnemonic, widening))
      (hs : ¬(w.field 22 2 == 3 || (w.field 22 2 == 2 && !w.bit 30)) = true) :
      LanewiseEncoding w (.plain (spelled mnemonic .vector
        [w.rd.scalar ((if widening then 16 else 8) <<< (w.field 22 2).toNat),
          w.rn.lanes (.ofSize (w.field 22 2) (w.bit 30))]))
  | unknown : LanewiseEncoding w (.unnamed .vector)

theorem lanewiseEncoding_of_threeSame (h : threeSameForm w = .ok f) : LanewiseEncoding w f := by
  simp only [threeSameForm] at h
  split at h
  · cases h
    exact .bitwise
  · split at h
    · unfold floatThreeSameForm at h
      split at h
      · cases h
        exact .unknown
      · simp at h
      · next hn ha =>
        cases h
        exact .floatThreeSame hn ha
    · simp only [integerThreeSameForm] at h
      split at h
      · cases h
        exact .unknown
      · next hn =>
        split at h
        · simp at h
        · next hr =>
          cases h
          exact .integerThreeSame hn (by simpa using hr)

theorem lanewiseEncoding_of_twoRegister (h : twoRegisterForm w = .ok f) : LanewiseEncoding w f := by
  simp only [twoRegisterForm] at h
  split at h
  · cases h
    exact .unknown
  · next he =>
    split at h
    · simp at h
    · next ha =>
      cases h
      exact .twoRegister he ha

theorem lanewiseEncoding_of_acrossLanes (h : acrossLanesForm w = .ok f) : LanewiseEncoding w f := by
  simp only [acrossLanesForm] at h
  split at h
  · next hn =>
    split at h
    · cases h
      exact .floatReduction hn
    · simp at h
  · next hn =>
    split at h
    · simp at h
    · next hs =>
      cases h
      exact .integerReduction hn hs
  · cases h
    exact .unknown

inductive VectorEncoding (w : Word) : Form → Prop where
  | crypto {f : Form} (hf : CryptoEncoding w f) : VectorEncoding w f
  | float {f : Form} (hf : FloatEncoding w f) : VectorEncoding w f
  | fixedConversion {width : Nat} {op : ConversionOp}
      (hs : w.bit 31 = true ∨ 32 ≤ (w.field 10 6).toNat) (hw : floatWidth w = .ok width)
      (ho : fixedConversion (w.field 19 2) (w.field 16 3) = .ok op) :
      VectorEncoding w
        (Conversion.form ⟨op, w.bit 31, width, some (64 - (w.field 10 6).toNat), w.rn, w.rd⟩)
  | floatThreeSource {width : Nat} (hw : floatWidth w = .ok width) :
      VectorEncoding w (.plain (spelled (fusedName (w.bit 21) (w.bit 15)) .floatArith
        [w.rd.scalar width, w.rn.scalar width, w.rm.scalar width, w.ra.scalar width]))
  | copy {l : LaneSelect} {f : Form} (hl : LaneSelect.ofField? (w.field 16 5) = some l)
      (hf : CopyEncoding w l f) : VectorEncoding w f
  | lanewise {f : Form} (hf : LanewiseEncoding w f) : VectorEncoding w f

theorem vectorEncoding_of_fixedConversion (h : fixedConversionForm w = .ok f) :
    VectorEncoding w f := by
  simp only [fixedConversionForm] at h
  split at h
  · simp at h
  · split at h
    · simp at h
    · next hs =>
      obtain ⟨width, hw, h⟩ := bind_eq_ok.mp h
      obtain ⟨op, ho, rfl⟩ := map_eq_ok.mp h
      have hscale : w.bit 31 = true ∨ 32 ≤ (w.field 10 6).toNat := by
        cases hb : w.bit 31 with
        | true => exact .inl rfl
        | false => exact .inr (by simpa [hb] using hs)
      exact .fixedConversion hscale hw ho

theorem vectorEncoding_of_threeSource (h : floatThreeSource w = .ok f) : VectorEncoding w f := by
  unfold floatThreeSource at h
  split at h
  · simp at h
  · obtain ⟨width, hw, rfl⟩ := map_eq_ok.mp h
    exact .floatThreeSource hw

theorem vectorEncoding_of_ok (h : vectorForm w = .ok f) : VectorEncoding w f := by
  unfold vectorForm at h
  -- The groups are tried one after another, so the guards peel off in their order.
  rcases ite_eq_iff.mp h with ⟨_, h⟩ | ⟨_, h⟩
  · exact .crypto (cryptoEncoding_of_cipher h)
  rcases ite_eq_iff.mp h with ⟨_, h⟩ | ⟨_, h⟩
  · exact .crypto (cryptoEncoding_of_hashThree h)
  rcases ite_eq_iff.mp h with ⟨_, h⟩ | ⟨_, h⟩
  · exact .crypto (cryptoEncoding_of_hashTwo h)
  rcases ite_eq_iff.mp h with ⟨_, h⟩ | ⟨_, h⟩
  · exact .float (floatEncoding_of_ok h)
  rcases ite_eq_iff.mp h with ⟨_, h⟩ | ⟨_, h⟩
  · exact vectorEncoding_of_fixedConversion h
  rcases ite_eq_iff.mp h with ⟨_, h⟩ | ⟨_, h⟩
  · exact vectorEncoding_of_threeSource h
  rcases ite_eq_iff.mp h with ⟨_, h⟩ | ⟨_, h⟩
  · obtain ⟨l, hl, hf⟩ := copyEncoding_of_ok h
    exact .copy hl hf
  rcases ite_eq_iff.mp h with ⟨_, h⟩ | ⟨_, h⟩
  · exact .lanewise (lanewiseEncoding_of_threeSame h)
  rcases ite_eq_iff.mp h with ⟨_, h⟩ | ⟨_, h⟩
  · exact .lanewise (lanewiseEncoding_of_twoRegister h)
  rcases ite_eq_iff.mp h with ⟨_, h⟩ | ⟨_, h⟩
  · exact .lanewise (lanewiseEncoding_of_acrossLanes h)
  · simp at h

end A64.Encoding
