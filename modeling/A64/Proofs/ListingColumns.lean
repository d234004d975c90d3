import A64.Proofs.JoinedTexts
import A64.Proofs.ListingRecords
import A64.Proofs.Medium
import A64.Proofs.Numerals

/-! The columns of a listing. A line shows the address of a word up to a colon, and its bytes from there to a tab.
Main statement: the address and the word are read back from the line, so the lines of a listing show the bytes
that were listed. -/

namespace A64

def Hex.byte? (cs : List Char) : Option UInt8 :=
  if cs.length = 2 then (accumulate? 0 cs).map UInt8.ofNat else none

def addressColumn? (line : String) : Option Address :=
  Hex.read? (String.ofList (line.toList.takeWhile (· ≠ ':')))

/-- The bytes between the colon and the tab. Two blanks stand behind the colon, and one between two bytes. -/
def byteColumn? (line : String) : Option (List UInt8) :=
  let column := ((line.toList.dropWhile (· ≠ ':')).drop 3).takeWhile (· ≠ '\t')
  (Text.pieces ' ' column).mapM Hex.byte?

def readLine? (line : String) : Option (Address × Word) :=
  match addressColumn? line, byteColumn? line with
  | some address, some [a, b, c, d] => some (address, .ofBytes a b c d)
  | _, _ => none

/-! One line. -/

theorem Hex.byte?_byte (b : UInt8) : byte? (byte b).toList = some b := by
  have hlength : (digits 2 b.toNat).length = 2 := by
    have hshort : (Nat.toDigits 16 b.toNat).length ≤ 2 :=
      (Nat.length_toDigits_le_iff (by decide) (by decide)).mpr b.toNat_lt
    have hpad : (digits 2 b.toNat).length = max 2 (Nat.toDigits 16 b.toNat).length := List.length_leftpad
    omega
  rw [byte, String.toList_ofList, byte?, if_pos hlength, accumulate?_digits, Option.map_some, UInt8.ofNat_toNat]

theorem toList_byteText (w : Word) :
    (byteText w).toList = [' '].intercalate (w.bytes.map fun b => (Hex.byte b).toList) := by
  rw [byteText, String.toList_intercalate, List.map_map]
  rfl

theorem toList_listingLine (a : Address) (w : Word) (assembly : String) :
    (listingLine a w assembly).toList =
      (Hex.wide a.toNat).toList ++ ':' :: ' ' :: ' ' :: ((byteText w).toList ++ '\t' :: assembly.toList) := by
  simp [listingLine]

theorem colon_not_mem_wide (n : Nat) : ':' ∉ (Hex.wide n).toList := by
  have hdigits := Hex.not_mem_digits (c := ':') (by decide) 8 n
  simp [Hex.wide, hdigits]

theorem addressColumn?_listingLine (a : Address) (w : Word) (assembly : String) :
    addressColumn? (listingLine a w assembly) = some a := by
  rw [addressColumn?, toList_listingLine, Text.takeWhile_append_cons (colon_not_mem_wide _),
    String.ofList_toList, Hex.wide, Hex.read?_digits 8 a.isLt, BitVec.ofNat_toNat, BitVec.setWidth_eq]

theorem byteColumn?_listingLine (a : Address) (w : Word) (assembly : String) :
    byteColumn? (listingLine a w assembly) = some w.bytes := by
  have hdigits {c : Char} (hc : Hex.value? c = none) :
      ∀ p ∈ w.bytes.map fun b => (Hex.byte b).toList, c ∉ p := by
    intro p hp
    obtain ⟨b, -, rfl⟩ := List.mem_map.mp hp
    rw [Hex.byte, String.toList_ofList]
    exact Hex.not_mem_digits hc 2 b.toNat
  have htab : '\t' ∉ (byteText w).toList := by
    rw [toList_byteText]
    exact Text.not_mem_intercalate (by decide) (hdigits (by decide))
  have hne : (w.bytes.map fun b => (Hex.byte b).toList) ≠ [] := List.cons_ne_nil _ _
  rw [byteColumn?, toList_listingLine, Text.dropWhile_append_cons (colon_not_mem_wide _)]
  simp only [List.drop_succ_cons, List.drop_zero]
  rw [Text.takeWhile_append_cons htab, toList_byteText, Text.pieces_intercalate hne (hdigits (by decide)),
    Text.mapM_map_eq_some (g := fun b => (Hex.byte b).toList) (k := id) fun b _ => Hex.byte?_byte b,
    List.map_id]

theorem readLine?_listingLine (a : Address) (w : Word) (assembly : String) :
    readLine? (listingLine a w assembly) = some (a, w) := by
  rw [readLine?, addressColumn?_listingLine, byteColumn?_listingLine]
  simp only [Word.bytes, Word.ofBytes_field]

namespace Record

/-- Whatever becomes of a word, its record shows where it stands and what it is. -/
theorem exists_text_ofWord (format : ImmediateFormat) (a : Address) (w : Word) :
    ∃ assembly, (ofWord format a w).text = listingLine a w assembly := by
  unfold ofWord
  split
  · exact ⟨_, rfl⟩
  · split
    · exact ⟨_, rfl⟩
    · exact ⟨_, rfl⟩

theorem readLine?_text_ofWord (format : ImmediateFormat) (a : Address) (w : Word) :
    readLine? (ofWord format a w).text = some (a, w) := by
  obtain ⟨assembly, htext⟩ := exists_text_ofWord format a w
  rw [htext, readLine?_listingLine]

theorem byteColumn?_text_ofWord (format : ImmediateFormat) (a : Address) (w : Word) :
    byteColumn? (ofWord format a w).text = some w.bytes := by
  obtain ⟨assembly, htext⟩ := exists_text_ofWord format a w
  rw [htext, byteColumn?_listingLine]

end Record

/-! Whole listings. -/

namespace Source

/-- The part is the longest beginning of the data that is made of complete words. -/
def IsCompletePart (part data : List UInt8) : Prop :=
  part <+: data ∧ 4 ∣ part.length ∧
    ∀ other, other <+: data → 4 ∣ other.length → other.length ≤ part.length

theorem isCompletePart_take (data : List UInt8) : IsCompletePart (data.take (4 * (data.length / 4))) data := by
  have hlength : (data.take (4 * (data.length / 4))).length = 4 * (data.length / 4) := by
    rw [List.length_take]
    omega
  refine ⟨List.take_prefix _ _, ⟨data.length / 4, hlength⟩, ?_⟩
  rintro other hother ⟨k, hk⟩
  have hle := hother.length_le
  omega

theorem flatMap_bytes_wordsOf (data : List UInt8) :
    (wordsOf data).flatMap Word.bytes = data.take (4 * (data.length / 4)) := by
  fun_induction wordsOf data with
  | case1 a b c d data ih =>
    have hlength : 4 * ((a :: b :: c :: d :: data).length / 4) = 4 * (data.length / 4) + 4 := by
      simp only [List.length_cons]
      omega
    rw [List.flatMap_cons, Word.bytes_ofBytes, ih, hlength]
    rfl
  | case2 data hshort =>
    rw [Nat.div_eq_of_lt (length_lt_four hshort)]
    rfl

variable {σ : Type} [Source σ]

/-- The bytes that a listing takes from its source: all that the source supplies, or none if the source does
not know where it stands. -/
def Taken (s : σ) (data : List UInt8) : Prop :=
  match position s with
  | .ok _ => ∃ failure, Supplies 0 s data failure
  | .error _ => data = []

theorem exists_taken [Ends σ] (s : σ) : ∃ data, Taken s data := by
  unfold Taken
  split
  · exact exists_supplies 0 s
  · exact ⟨[], rfl⟩

end Source

namespace Listing

open Source

/-- The records of a listing that is not cancelled, but for one that tells of a fault. -/
def listed {σ : Type} [Source σ] [Ends σ] (o : Options) (s : σ) : List Record :=
  (Handoff.start (run o s).items).drain.1.filter (!·.isFatal)

theorem listed_eq {σ : Type} [Source σ] [Ends σ] (o : Options) {s : σ} {data : List UInt8} (h : Taken s data) :
    listed o s = (wordsOf data).mapIdx fun i w => .ofWord o.format (wordAddress o.base i) w := by
  have hdrain : listed o s = (run o s).items.filter (!·.isFatal) := by rw [listed, Handoff.drain_start]
  unfold Taken at h
  split at h
  · next origin hp =>
    obtain ⟨failure, h⟩ := h
    have hrun : run o s = ofDelivery o origin (deliver s) := by rw [run, hp]
    rw [hdrain, hrun, items_ofDelivery, h.deliver, List.filter_append]
    have hfatal (fault : Option Fault) (a : Address) :
        ((fault.map (Record.ofFault a)).toList.filter (!·.isFatal)) = [] := by
      cases fault <;> rfl
    rw [hfatal, List.append_nil, List.filter_eq_self]
    intro r hr
    obtain ⟨i, hi, rfl⟩ := List.mem_mapIdx.mp hr
    rw [Record.isFatal_ofWord]
    rfl
  · next fault hp =>
    subst h
    have hrun : (run o s).items = [.ofFault (wordAddress o.base 0) fault] := by
      rw [run, hp]
      rfl
    rw [hdrain, hrun]
    rfl

theorem columns_listed {σ : Type} [Source σ] [Ends σ] (o : Options) {s : σ} {data : List UInt8} (h : Taken s data) :
    (listed o s).mapM (fun r => byteColumn? r.text) = some ((wordsOf data).map Word.bytes) := by
  have hwords : (wordsOf data).map Word.bytes = (wordsOf data).zipIdx.map (Word.bytes ∘ Prod.fst) := by
    rw [← List.map_map, List.zipIdx_map_fst]
  rw [listed_eq o h, List.mapIdx_eq_zipIdx_map, hwords]
  exact Text.mapM_map_eq_some fun p _ => Record.byteColumn?_text_ofWord ..

/-- A line tells the address and the word of its record, whatever assembly follows. So records that differ in
either have different lines, and the byte columns of a listing are the complete words of what it took from its
source. -/
theorem listing_reproduces {σ : Type} [Source σ] [Ends σ] (o : Options) (s : σ) :
    (∀ a w assembly, readLine? (listingLine a w assembly) = some (a, w)) ∧
    (∀ format a w, readLine? (Record.ofWord format a w).text = some (a, w)) ∧
    (∀ format format' a a' w w',
      (Record.ofWord format a w).text = (Record.ofWord format' a' w').text → a = a' ∧ w = w') ∧
    (∀ r ∈ listed o s, ∃ a w, r = .ofWord o.format a w) ∧
    (∃ data, Taken s data) ∧
    ∀ data, Taken s data →
      ∃ columns, (listed o s).mapM (fun r => byteColumn? r.text) = some columns ∧
        IsCompletePart columns.flatten data := by
  refine ⟨readLine?_listingLine, Record.readLine?_text_ofWord, ?_, ?_, exists_taken s,
    fun data h => ⟨_, columns_listed o h, ?_⟩⟩
  · intro format format' a a' w w' htext
    have hread := Record.readLine?_text_ofWord format a w
    rw [htext, Record.readLine?_text_ofWord] at hread
    obtain ⟨rfl, rfl⟩ := Prod.mk.inj (Option.some.inj hread)
    exact ⟨rfl, rfl⟩
  · intro r hr
    obtain ⟨data, h⟩ := exists_taken s
    rw [listed_eq o h] at hr
    obtain ⟨i, hi, rfl⟩ := List.mem_mapIdx.mp hr
    exact ⟨_, _, rfl⟩
  · rw [← List.flatMap_def, flatMap_bytes_wordsOf]
    exact isCompletePart_take data

/-- A device that fails after six bytes, of which it gives at most three at a time. -/
def failingDevice : Device where
  data := #[0x1F, 0x20, 0x03, 0xD5, 0x00, 0xEC, 0x3F, 0x0E]
  chunk := some 3
  failure := some (6, ⟨.other, "device fault"⟩)

theorem listing_reproduces_failingDevice :
    Taken failingDevice [0x1F, 0x20, 0x03, 0xD5, 0x00, 0xEC] ∧
    ∃ columns, (listed ⟨0, .hex⟩ failingDevice).mapM (fun r => byteColumn? r.text) = some columns ∧
      IsCompletePart columns.flatten [0x1F, 0x20, 0x03, 0xD5, 0x00, 0xEC] := by
  have hreads := failingDevice.reads_medium (by decide) (by decide) rfl
  have htaken : Taken failingDevice [0x1F, 0x20, 0x03, 0xD5, 0x00, 0xEC] :=
    ⟨_, hreads.supplies failingDevice.continues_self 0⟩
  exact ⟨htaken, (listing_reproduces ⟨0, .hex⟩ failingDevice).2.2.2.2.2 _ htaken⟩

end Listing

end A64
