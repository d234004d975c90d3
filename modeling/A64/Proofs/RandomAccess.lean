import A64.Proofs.ListingRecords
import A64.Proofs.Medium
import A64.RandomAccess

/-! Random access to a medium. Main statement: disassembling at an offset answers what a listing of the
medium tells there, whatever was disassembled before. -/

namespace A64

open Source

/-- The record tells of the word `w` at the address `a` what the answer does. -/
inductive Record.Matches (a : Address) (w : Word) :
    Record → Except DisassemblyError Disassembled → Prop where
  | ok {r : Record} {d : Disassembled} (he : r.error = none)
      (ht : r.text = listingLine a w d.assembly) (ha : r.annotation = d.annotation)
      (hi : r.instruction = some d.instruction) : Matches a w r (.ok d)
  | error {r : Record} {e : DisassemblyError} (he : r.error = some e) : Matches a w r (.error e)

theorem Record.Matches.agrees {a : Address} {w : Word} {r : Record}
    {x : Except DisassemblyError Disassembled} (h : r.Matches a w x) :
    ((∃ d, x = .ok d) ↔ r.error = none) ∧
      (∀ d, x = .ok d → r.text = listingLine a w d.assembly ∧ r.annotation = d.annotation ∧
        r.instruction = some d.instruction) ∧
      ∀ e, x = .error e → r.error = some e := by
  cases h with
  | ok he ht ha hi =>
    refine ⟨⟨fun _ => he, fun _ => ⟨_, rfl⟩⟩, ?_, by simp⟩
    rintro _ ⟨⟩
    exact ⟨ht, ha, hi⟩
  | error he => simp [he]

theorem Record.matches_ofWord (a : Address) (w : Word) :
    (ofWord .hex a w).Matches a w (Disassembled.ofWord a w) := by
  unfold ofWord Disassembled.ofWord
  cases decode w a with
  | error cause => exact .error rfl
  | ok i =>
    dsimp only
    cases i.render .hex with
    | error cause => exact .error rfl
    | ok assembly => exact .ok rfl rfl rfl rfl

namespace Source

theorem wordAt_drop (data : List UInt8) (i j : Nat) :
    wordAt (data.drop (4 * i)) j = wordAt data (i + j) := by
  rw [wordAt, wordAt, List.drop_drop, Nat.mul_add]

theorem endingFault_mod (n : Nat) (failure : Option Fault) :
    endingFault (n % 4) failure = endingFault n failure := by
  simp only [endingFault, Nat.mod_mod]

end Source

namespace Medium

variable {m : Medium} {p : Nat}

/-- What is to be told of the word at the place `p` of a medium, as if it stood at the address `a`. -/
def disassembled (m : Medium) (p : Nat) (a : Address) : Except DisassemblyError Disassembled :=
  if 4 ≤ m.readable.length - p then Disassembled.ofWord a (wordAt (m.readable.drop p) 0)
  else
    .error (.read a ((endingFault (m.readable.length - p) (m.faultFrom p)).getD .noInstruction))

/-- The failure hides no byte of a word that can be read. -/
theorem wordAt_readable {i : Nat} (h : 4 * (i + 1) ≤ m.readable.length - p) :
    wordAt (m.readable.drop p) i = wordAt (m.bytes.drop p) i := by
  cases hf : m.failure with
  | none => simp only [readable, hf, Option.elim]
  | some failure =>
    simp only [readable, hf, Option.elim, List.length_take] at h ⊢
    rw [wordAt, wordAt, List.drop_take, List.drop_take, List.take_take, Nat.min_eq_left (by omega)]

theorem disassembled_add {i : Nat} (hi : 4 * i ≤ m.readable.length - p) (a : Address) :
    m.disassembled (p + 4 * i) a =
      if i < (m.readable.length - p) / 4 then Disassembled.ofWord a (wordAt (m.bytes.drop p) i)
      else
        .error
          (.read a ((endingFault (m.readable.length - p) (m.faultFrom p)).getD .noInstruction)) := by
  have hfault : m.faultFrom (p + 4 * i) = m.faultFrom p := by
    rcases Nat.eq_zero_or_pos i with rfl | hpos
    · rfl
    · exact faultFrom_add (by omega)
  rw [disassembled, hfault, Nat.sub_add_eq]
  by_cases hlt : i < (m.readable.length - p) / 4
  · rw [if_pos (by omega), if_pos hlt, ← List.drop_drop, wordAt_drop, Nat.add_zero,
      wordAt_readable (by omega)]
  · have hmod : m.readable.length - p - 4 * i = (m.readable.length - p) % 4 := by omega
    rw [if_neg (by omega), if_neg hlt, hmod, endingFault_mod]

theorem toNat_add_mul (m : Medium) {p : Address} {i : Nat}
    (hi : 4 * i ≤ m.readable.length - p.toNat) :
    (p + BitVec.ofNat 64 (4 * i)).toNat = p.toNat + 4 * i := by
  have hm := m.length_lt
  have hr := m.length_readable_le
  have hp := p.isLt
  rw [BitVec.toNat_add, BitVec.toNat_ofNat]
  omega

namespace Reads

variable {σ : Type} [Source σ] [Ends σ] {stands : σ → Nat → Prop}

theorem readWord_eq (hm : m.Reads stands) {s : σ} (hs : stands s p) :
    (readWord s).1 =
      if 4 ≤ m.readable.length - p then .ok (some (wordAt (m.readable.drop p) 0))
      else (endingFault (m.readable.length - p) (m.faultFrom p)).elim (.ok none) .error := by
  have h := hm.supplies hs 0
  rw [← List.length_drop]
  generalize m.readable.drop p = data at h
  by_cases hlen : 4 ≤ data.length
  · rw [if_pos hlen]
    match data, hlen with
    | a :: b :: c :: d :: data, _ =>
      obtain ⟨t, hr, _⟩ := h.readWord_word rfl
      rw [hr, Word.ofBytes_eq_littleEndian]
      rfl
  · rw [if_neg hlen, h.readWord_short rfl (Nat.lt_of_not_le hlen)]

theorem disassembleAt_eq (hm : m.Reads stands) {s : σ} (hs : stands s p) (offset a : Address) :
    (disassembleAt s offset a).1 = m.disassembled offset.toNat a ∧
      ∃ q, stands (disassembleAt s offset a).2 q ∧
        ∀ w, (readWord (Source.seek offset s).2).1 = .ok (some w) → q = offset.toNat + 4 := by
  obtain ⟨hseek, hsought⟩ := hm.seek offset hs
  rcases hpair : Source.seek offset s with ⟨r, t⟩
  rw [hpair] at hseek hsought
  obtain rfl : r = .ok offset := hseek
  have hread := hm.readWord_eq hsought
  obtain ⟨q, hq, hword⟩ := hm.stands_readWord hsought
  unfold disassembleAt disassembled
  rw [hpair]
  simp only [ne_eq, not_true_eq_false, if_false]
  rcases hrw : readWord t with ⟨x, u⟩
  rw [hrw] at hread hq hword
  dsimp only at hread hq hword
  by_cases hlen : 4 ≤ m.readable.length - offset.toNat
  · rw [if_pos hlen] at hread ⊢
    subst hread
    exact ⟨rfl, q, hq, hword⟩
  · rw [if_neg hlen] at hread ⊢
    cases hf : endingFault (m.readable.length - offset.toNat) (m.faultFrom offset.toNat) with
    | none | some fault =>
      rw [hf] at hread
      subst hread
      exact ⟨rfl, q, hq, hword⟩

end Reads

end Medium

def visit {σ : Type} [Source σ] (s : σ) (call : Address × Address) : σ :=
  (disassembleAt s call.1 call.2).2

theorem Medium.Reads.stands_visits {m : Medium} {σ : Type} [Source σ] [Ends σ] {stands : σ → Nat → Prop}
    (hm : m.Reads stands) (history : List (Address × Address)) {s : σ} {p : Nat} (hs : stands s p) :
    ∃ q, stands (history.foldl visit s) q := by
  induction history generalizing s p with
  | nil => exact ⟨p, hs⟩
  | cons call history ih =>
    obtain ⟨_, q, hq, _⟩ := hm.disassembleAt_eq hs call.1 call.2
    exact ih hq

section Listing

variable {m : Medium} {σ : Type} [Source σ] [Ends σ] {stands : σ → Nat → Prop} {s : σ} {p : Address}

theorem Medium.Reads.items_run (hm : m.Reads stands) (hs : stands s p.toNat) (base : Address) {n : Nat}
    (hn : n = (m.readable.length - p.toNat) / 4) :
    (Listing.run ⟨base, .hex⟩ s).items =
      (List.range n).map
          (fun i => .ofWord .hex (wordAddress base i) (wordAt (m.readable.drop p.toNat) i)) ++
        ((endingFault (m.readable.length - p.toNat) (m.faultFrom p.toNat)).map
          (.ofFault (wordAddress base n))).toList := by
  have h := Listing.items_of_supplies ⟨base, .hex⟩ (hm.position hs) (hm.supplies hs 0)
  rw [Listing.ending_eq, List.length_drop, ← hn] at h
  exact h

/-- A listing tells of each word, and of the end, what there is to tell at the place. -/
theorem Medium.Reads.records_match (hm : m.Reads stands) (hs : stands s p.toNat) (base : Address)
    {n : Nat} (hn : n = (m.readable.length - p.toNat) / 4) {i : Nat} (hi : i ≤ n) :
    let records := (Listing.run ⟨base, .hex⟩ s).items
    let answer := m.disassembled (p + BitVec.ofNat 64 (4 * i)).toNat (wordAddress base i)
    (∀ r : Record, records[i]? = some r →
        r.Matches (wordAddress base i) (wordAt (m.bytes.drop p.toNat) i) answer) ∧
      (records[i]? = none → answer = .error (.read (wordAddress base i) .noInstruction)) := by
  intro records answer
  have hplace : 4 * i ≤ m.readable.length - p.toNat := by omega
  have hanswer : answer = _ :=
    (congrArg (m.disassembled · _) (m.toNat_add_mul hplace)).trans (disassembled_add hplace _)
  rw [← hn] at hanswer
  have hrecords : records = _ := hm.items_run hs base hn
  by_cases hlt : i < n
  · have hget : records[i]? =
        some (.ofWord .hex (wordAddress base i) (wordAt (m.bytes.drop p.toNat) i)) := by
      rw [hrecords, List.getElem?_append_left (by simpa using hlt), List.getElem?_map,
        List.getElem?_range hlt, Option.map_some, wordAt_readable (by omega)]
    rw [if_pos hlt] at hanswer
    rw [hanswer, hget]
    refine ⟨?_, by simp⟩
    rintro r ⟨⟩
    exact Record.matches_ofWord _ _
  · obtain rfl : i = n := by omega
    rw [if_neg hlt] at hanswer
    rw [hanswer, hrecords, List.getElem?_append_right (by simp)]
    cases endingFault (m.readable.length - p.toNat) (m.faultFrom p.toNat) with
    | none => simp
    | some fault =>
      simp only [List.length_map, List.length_range, Nat.sub_self]
      refine ⟨?_, by simp⟩
      rintro r ⟨⟩
      exact .error rfl

theorem Medium.Reads.length_records (hm : m.Reads stands) (hs : stands s p.toNat) (base : Address)
    {n : Nat} (hn : n = (m.readable.length - p.toNat) / 4) :
    let records := (Listing.run ⟨base, .hex⟩ s).items
    records.length ≤ n + 1 ∧ ((∀ r ∈ records, r.isFatal = false) → records.length = n) := by
  intro records
  have hrecords : records = _ := hm.items_run hs base hn
  cases hf : endingFault (m.readable.length - p.toNat) (m.faultFrom p.toNat) with
  | none => simp [hrecords, hf]
  | some fault =>
    have hmem : Record.ofFault (wordAddress base n) fault ∈ records := by simp [hrecords, hf]
    refine ⟨by simp [hrecords, hf], fun hall => ?_⟩
    simpa [Record.isFatal_ofFault] using hall _ hmem

/-- Random access to a medium agrees with its listing from a place on, in whatever state the source is
and whatever words it has visited. -/
theorem disassembleAt_of_records (hm : m.Reads stands) (hs : stands s p.toNat) {t : σ} {q : Nat}
    (ht : stands t q) (base : Address) (history : List (Address × Address)) :
    let o : Options := ⟨base, .hex⟩
    let records := (Handoff.start (Listing.run o s).items).drain.1
    let address (i : Nat) := o.addressFor (BitVec.ofNat 64 (4 * i))
    let source := history.foldl visit t
    let answer (i : Nat) :=
      (disassembleAt source (p + BitVec.ofNat 64 (4 * i)) (address i)).1
    (∀ i (r : Record), records[i]? = some r →
        ((∃ d, answer i = .ok d) ↔ r.error = none) ∧
          (∀ d, answer i = .ok d →
            r.text = listingLine (address i) (wordAt (m.bytes.drop p.toNat) i) d.assembly ∧
              r.annotation = d.annotation ∧ r.instruction = some d.instruction) ∧
          ∀ e, answer i = .error e → r.error = some e) ∧
      ((∀ r ∈ records, r.isFatal = false) → ∃ fault,
        answer records.length = .error (.read (address records.length) fault) ∧
          fault.kind = .unexpectedEnd) ∧
      (∀ offset a, (disassembleAt source offset a).1 = (disassembleAt t offset a).1) ∧
      ∀ offset a w, (readWord (Source.seek offset source).2).1 = .ok (some w) →
        Source.position (disassembleAt source offset a).2 = .ok (offset + 4) := by
  intro o records address source answer
  obtain ⟨q', hsource⟩ := hm.stands_visits history ht
  have hrecords : records = (Listing.run ⟨base, .hex⟩ s).items := Handoff.drain_start _
  have hanswer (i : Nat) : answer i =
      m.disassembled (p + BitVec.ofNat 64 (4 * i)).toNat (wordAddress base i) :=
    (hm.disassembleAt_eq hsource _ _).1
  obtain ⟨hlength, hclean⟩ := hm.length_records hs base rfl
  rw [← hrecords] at hlength hclean
  refine ⟨fun i r hr => ?_, fun hall => ?_, fun offset a => ?_, fun offset a w hw => ?_⟩
  · have hi : i < records.length := (List.getElem?_eq_some_iff.mp hr).1
    have hmatch := (hm.records_match hs base rfl (by omega : i ≤ _)).1 r (hrecords ▸ hr)
    rw [← hanswer] at hmatch
    exact hmatch.agrees
  · have hlen := hclean hall
    refine ⟨.noInstruction, ?_, rfl⟩
    rw [hanswer]
    exact (hm.records_match hs base rfl (Nat.le_of_eq hlen)).2 (by simp [← hrecords])
  · rw [(hm.disassembleAt_eq hsource offset a).1, (hm.disassembleAt_eq ht offset a).1]
  · obtain ⟨_, r, hr, hword⟩ := hm.disassembleAt_eq hsource offset a
    rw [hm.position hr, hword w hw, BitVec.ofNat_add, BitVec.ofNat_toNat, BitVec.setWidth_eq]
    rfl

/-- The words of a device of five bytes, after its end was visited. -/
theorem disassembleAt_of_hesitantDevice :
    let source := visit (Listing.hesitantDevice 0 0) (4, 0x1004)
    (∃ d, (disassembleAt source 0 0x1000).1 = .ok d ∧ d.instruction.mnemonic = some "nop") ∧
      (disassembleAt source 4 0x1004).1 = .error (.read 0x1004 (.partialWord 1)) ∧
      Source.position (disassembleAt source 0 0x1000).2 = .ok 4 := by
  intro source
  have hm := (Listing.hesitantDevice 0 0).reads_medium (by decide) (by decide) rfl
  have hs := (Listing.hesitantDevice 0 0).continues_self
  have hrecords := hm.items_run (p := 0) hs 0x1000 (n := 1) (by decide)
  obtain ⟨hmatch, -, -, hposition⟩ := disassembleAt_of_records hm (p := 0) hs hs 0x1000 [(4, 0x1004)]
  rw [Handoff.drain_start, hrecords] at hmatch
  refine ⟨?_, ?_, ?_⟩
  · obtain ⟨hok, htells, -⟩ := hmatch 0 (.ofWord .hex 0x1000 0xD503201F) rfl
    obtain ⟨d, hd⟩ := hok.mpr rfl
    obtain ⟨-, -, hinstruction⟩ := htells d hd
    exact ⟨d, hd, congrArg Instruction.mnemonic (Option.some.inj hinstruction).symm⟩
  · obtain ⟨hok, -, herror⟩ := hmatch 1 (.ofFault 0x1004 (.partialWord 1)) rfl
    cases hx : (disassembleAt source 4 0x1004).1 with
    | ok d => exact absurd (hok.mp ⟨d, hx⟩) (by simp [Record.ofFault])
    | error e => exact congrArg _ (Option.some.inj (herror e hx)).symm
  · obtain ⟨q, hsource⟩ := hm.stands_visits [(4, 0x1004)] hs
    exact hposition 0 0x1000 0xD503201F (hm.readWord_eq (hm.seek 0 hsource).2)

end Listing

end A64
