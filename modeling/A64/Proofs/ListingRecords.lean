import Mathlib.Data.Nat.Digits.Defs
import A64.Proofs.Supply
import A64.Source.Device
import A64.Stream
import A64.Stream.Handoff

/-! The records of a listing. Main statement: whatever pieces a source supplies its bytes in, a listing
that is not cancelled shows one record for each complete word, and one more if the bytes do not end
well. -/

namespace A64

def Word.littleEndian (bs : List UInt8) : Word :=
  BitVec.ofNat 32 (Nat.ofDigits 256 (bs.map UInt8.toNat))

theorem Word.ofBytes_eq_littleEndian (a b c d : UInt8) :
    ofBytes a b c d = littleEndian [a, b, c, d] := by
  have ha := a.toBitVec.isLt
  have hb := b.toBitVec.isLt
  have hc := c.toBitVec.isLt
  have hd := d.toBitVec.isLt
  apply BitVec.eq_of_toNat_eq
  simp only [ofBytes, BitVec.toNat_append, littleEndian]
  -- No byte overlaps the shifted ones above it, so the disjunctions are sums.
  rw [← Nat.shiftLeft_add_eq_or_of_lt hc, ← Nat.shiftLeft_add_eq_or_of_lt hb,
    ← Nat.shiftLeft_add_eq_or_of_lt ha]
  simp only [BitVec.toNat_ofNat, List.map_cons, List.map_nil, Nat.ofDigits_cons, Nat.ofDigits_nil,
    Nat.shiftLeft_eq, UInt8.toNat_toBitVec] at *
  omega

namespace Source

def wordAt (data : List UInt8) (i : Nat) : Word := .littleEndian ((data.drop (4 * i)).take 4)

theorem wordsOf_eq_map_wordAt (data : List UInt8) :
    wordsOf data = (List.range (data.length / 4)).map (wordAt data) := by
  fun_induction wordsOf data with
  | case1 a b c d data ih =>
    have hlen : (a :: b :: c :: d :: data).length / 4 = data.length / 4 + 1 := by
      simp only [List.length_cons]
      omega
    rw [hlen, List.range_succ_eq_map, List.map_cons, List.map_map, ih, Word.ofBytes_eq_littleEndian]
    rfl
  | case2 data hshort =>
    rw [Nat.div_eq_of_lt (length_lt_four hshort)]
    rfl

end Source

theorem wordAddress_eq (base : Address) (i : Nat) :
    wordAddress base i = if base = 0 then 0 else BitVec.ofNat 64 (base.toNat + 4 * i) := by
  simp [wordAddress, Address.ofOffset, BitVec.ofNat_add]

theorem Record.isFatal_ofWord (format : ImmediateFormat) (a : Address) (w : Word) :
    (ofWord format a w).isFatal = false := by
  unfold ofWord
  split
  · simp only [isFatal, unknown, DisassemblyError.ofDecode, Option.any]
    split <;> rfl
  · split
    · simp only [isFatal, unknown, DisassemblyError.ofRender, Option.any]
      split <;> rfl
    · rfl

theorem Record.isFatal_ofFault (a : Address) (fault : Fault) : (ofFault a fault).isFatal = true := rfl

theorem Handoff.drain_start {ι : Type} (items : List ι) : (start items).drain.1 = items := by
  rw [drain, take_start]
  exact List.take_of_length_le (Nat.le_succ _)

namespace Listing

open Source

theorem items_ofDelivery (o : Options) (origin : Address) (d : Delivery) :
    (ofDelivery o origin d).items =
      d.words.mapIdx (fun i w => .ofWord o.format (wordAddress o.base i) w) ++
        (d.fault.map (.ofFault (wordAddress o.base d.words.length))).toList := by
  have hwords : (d.words.mapIdx (yieldWord o)).map (·.item) =
      d.words.mapIdx fun i w => .ofWord o.format (wordAddress o.base i) w := by
    apply List.ext_getElem
    · simp
    · intro i _ _
      simp [yieldWord]
  rw [Run.items, ofDelivery, List.map_append, hwords]
  cases d.fault <;> rfl

/-- The record that tells how bytes ended at the address `a`: none after a complete word. -/
def ending (a : Address) (data : List UInt8) : Option Fault → List Record
  | some fault => [.ofFault a fault]
  | none =>
    if data.length % 4 = 0 then []
    else
      [.ofFault a
        ⟨.unexpectedEnd, "partial instruction word: " ++ (data.length % 4).repr ++ " of 4 bytes"⟩]

theorem ending_eq (a : Address) (data : List UInt8) (failure : Option Fault) :
    ending a data failure = ((endingFault data.length failure).map (.ofFault a)).toList := by
  cases failure with
  | some fault => rfl
  | none =>
    simp only [ending, endingFault, Option.none_or]
    split <;> rfl

theorem isFatal_of_mem_ending {a : Address} {data : List UInt8} {failure : Option Fault} {r : Record}
    (h : r ∈ ending a data failure) : r.isFatal = true := by
  rw [ending_eq, Option.mem_toList, Option.map_eq_some_iff] at h
  obtain ⟨fault, _, rfl⟩ := h
  exact Record.isFatal_ofFault a fault

def wordRecords (o : Options) (data : List UInt8) : List Record :=
  (List.range (data.length / 4)).map fun i => .ofWord o.format (wordAddress o.base i) (wordAt data i)

theorem length_wordRecords (o : Options) (data : List UInt8) :
    (wordRecords o data).length = data.length / 4 := by
  simp [wordRecords]

theorem isFatal_of_mem_wordRecords {o : Options} {data : List UInt8} {r : Record}
    (h : r ∈ wordRecords o data) : r.isFatal = false := by
  obtain ⟨i, -, rfl⟩ := List.mem_map.mp h
  exact Record.isFatal_ofWord ..

theorem items_of_supplies {σ : Type} [Source σ] [Source.Ends σ] (o : Options) {s : σ} {origin : Address}
    {data : List UInt8} {failure : Option Fault} (hp : Source.position s = .ok origin)
    (h : Supplies 0 s data failure) :
    (run o s).items =
      (List.range (data.length / 4)).map
          (fun i => .ofWord o.format (wordAddress o.base i) (wordAt data i)) ++
        ending (wordAddress o.base (data.length / 4)) data failure := by
  have hrun : run o s = ofDelivery o origin (deliver s) := by rw [run, hp]
  rw [hrun, items_ofDelivery, h.deliver, wordsOf_eq_map_wordAt, ending_eq]
  congr 1
  · apply List.ext_getElem
    · simp
    · intro i _ _
      simp
  · simp

/-- A listing that is not cancelled has a record for each complete word of what its source supplies, and
none of them is fatal. One fatal record follows if the source fails, wherever it does, or ends inside a
word. -/
theorem records_of_supplies {σ : Type} [Source σ] [Source.Ends σ] (o : Options) {s : σ} {origin : Address}
    {data : List UInt8} {failure : Option Fault} (hp : Source.position s = .ok origin)
    (h : Supplies 0 s data failure) :
    let address (i : Nat) : Address := if o.base = 0 then 0 else .ofNat 64 (o.base.toNat + 4 * i)
    let n := data.length / 4
    let records := (Handoff.start (run o s).items).drain.1
    records =
        (List.range n).map (fun i => .ofWord o.format (address i) (wordAt data i)) ++
          ending (address n) data failure ∧
      (∀ r ∈ records.take n, r.isFatal = false) ∧ ∀ r ∈ records.drop n, r.isFatal = true := by
  intro address n records
  have hrecords : records =
      (List.range n).map (fun i => .ofWord o.format (address i) (wordAt data i)) ++
        ending (address n) data failure := by
    have haddress : address = wordAddress o.base := funext fun i => (wordAddress_eq o.base i).symm
    rw [haddress]
    exact (Handoff.drain_start _).trans (items_of_supplies o hp h)
  refine ⟨hrecords, ?_, ?_⟩
  · intro r hr
    rw [hrecords, List.take_left' (by simp), List.mem_map] at hr
    obtain ⟨i, _, rfl⟩ := hr
    exact Record.isFatal_ofWord ..
  · intro r hr
    rw [hrecords, List.drop_left' (by simp)] at hr
    exact isFatal_of_mem_ending hr

/-- A device of five bytes that gives at most three at a time, every second call being interrupted. -/
def hesitantDevice (calls position : Nat) : Device where
  data := #[0x1F, 0x20, 0x03, 0xD5, 0x2A]
  position := position
  chunk := some 3
  period := 2
  calls := calls

theorem records_of_hesitantDevice :
    (Handoff.start (run ⟨0xFFFFFFFFFFFFFFFC, .decimal⟩ (hesitantDevice 0 0)).items).drain.1 =
      [.ofWord .decimal 0xFFFFFFFFFFFFFFFC 0xD503201F,
       .ofFault 0 ⟨.unexpectedEnd, "partial instruction word: 1 of 4 bytes"⟩] := by
  have hlast : Supplies 5 (hesitantDevice 5 5) [] none := .interrupted rfl (.ended rfl)
  have hfifth : Supplies 4 (hesitantDevice 3 4) ([0x2A] ++ []) none :=
    .interrupted rfl (.piece rfl (by decide) hlast)
  have hfourth : Supplies 3 (hesitantDevice 1 3) ([0xD5] ++ ([0x2A] ++ [])) none :=
    .interrupted rfl (.piece rfl (by decide) hfifth)
  have h : Supplies 0 (hesitantDevice 0 0) ([0x1F, 0x20, 0x03] ++ ([0xD5] ++ ([0x2A] ++ []))) none :=
    .piece rfl (by decide) hfourth
  have hword : wordAt [0x1F, 0x20, 0x03, 0xD5, 0x2A] 0 = 0xD503201F := by decide
  have hone : Nat.repr 1 = "1" := by decide
  refine (records_of_supplies ⟨0xFFFFFFFFFFFFFFFC, .decimal⟩ rfl h).1.trans ?_
  simp [hword, hone, ending]

end Listing

end A64
