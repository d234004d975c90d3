import Mathlib.Algebra.Group.Nat.Defs
import A64.Proofs.Medium
import A64.Proofs.ListingRecords
import A64.Proofs.StreamExchange

/-! The logs of the two streams. Main statements: the log of a listing tells of each record in turn and in the
end of the number of words; the log of a stream of instructions counts a failed read as a word, so that its
number is one too high exactly if the stream ended so. -/

namespace A64

def Event.shown (e : Event) : LogLevel × String := (e.level, e.message)

def Run.lastLine? {ι : Type} (r : Run ι) : Option (LogLevel × String) := (r.log.map Event.shown).getLast?

theorem Run.lastLine?_of_closing {ι : Type} {r : Run ι} {e : Event} (h : r.closing = [e]) :
    r.lastLine? = some e.shown := by
  simp [lastLine?, log, h]

/-- What the log shows of a word that was decoded with the given result and has the given record: nothing if
there is no error, else the text of the error as a warning. A word that is not supported leaves a trace first. -/
def Record.shown (decoded : Except DecodeError Instruction) (r : Record) : List (LogLevel × String) :=
  match r.error, decoded with
  | none, _ => []
  | some e, .error (.unsupported a w c) =>
    [(.trace, Hex.wide w.toNat ++ " at " ++ Hex.text a.toNat ++ ": unsupported " ++ c.name ++ " encoding"),
     (.warn, e.message)]
  | some e, _ => [(.warn, e.message)]

def Record.lastFault? (records : List Record) : Option Fault :=
  (records.getLast?.bind Record.error).bind DisassemblyError.fault?

theorem Event.shown_ofWord (format : ImmediateFormat) (a : Address) (w : Word) :
    (ofWord format a w).map shown = (Record.ofWord format a w).shown (decode w a) := by
  unfold ofWord Record.ofWord
  cases decode w a with
  | error cause => cases cause <;> rfl
  | ok i =>
    dsimp only
    cases i.render format <;> rfl

theorem Record.fault?_of_isFatal {r : Record} (h : r.isFatal = false) :
    r.error.bind DisassemblyError.fault? = none := by
  cases he : r.error with
  | none => rfl
  | some e =>
    rw [isFatal, he, Option.any_some] at h
    cases e <;> simp_all [DisassemblyError.isFatal, DisassemblyError.fault?]

namespace Listing

open Source

variable {σ : Type} [Source σ] [Ends σ]

theorem log_of_supplies (o : Options) {s : σ} {origin : Address} {data : List UInt8}
    {failure : Option Fault} (hp : position s = .ok origin) (h : Supplies 0 s data failure) :
    (run o s).log =
      [.listingStarted origin o.base] ++
        (List.range (data.length / 4)).flatMap
          (fun i => Event.ofWord o.format (wordAddress o.base i) (wordAt data i)) ++
        ((endingFault data.length failure).map
          (.readFailed (origin + BitVec.ofNat 64 (4 * (data.length / 4))))).toList ++
        [.listingFinished (data.length / 4)] := by
  have hrun : run o s = ofDelivery o origin (deliver s) := by rw [run, hp]
  have hlength : (wordsOf data).length = data.length / 4 := by simp [wordsOf_eq_map_wordAt]
  have hyields : (wordsOf data).mapIdx (yieldWord o) =
      (List.range (data.length / 4)).map fun i => yieldWord o i (wordAt data i) := by
    rw [wordsOf_eq_map_wordAt]
    apply List.ext_getElem <;> simp
  rw [hrun, h.deliver, Run.log, ofDelivery, hlength, hyields, List.flatMap_append, List.flatMap_map]
  cases endingFault data.length failure <;> simp [yieldWord, yieldFault]

theorem records_of_words (o : Options) {s : σ} {origin : Address} {data : List UInt8}
    {failure : Option Fault} (hp : position s = .ok origin) (h : Supplies 0 s data failure) :
    (run o s).items.filter (!·.isFatal) = wordRecords o data := by
  have hitems : (run o s).items =
      wordRecords o data ++ ending (wordAddress o.base (data.length / 4)) data failure :=
    items_of_supplies o hp h
  have hwords : ∀ r ∈ wordRecords o data, (!r.isFatal) = true := fun r hr => by
    rw [isFatal_of_mem_wordRecords hr]
    rfl
  have hending : ∀ r ∈ ending (wordAddress o.base (data.length / 4)) data failure,
      ¬(!r.isFatal) = true := fun r hr => by
    rw [isFatal_of_mem_ending hr]
    exact Bool.false_ne_true
  rw [hitems, List.filter_append, List.filter_eq_self.mpr hwords, List.filter_eq_nil_iff.mpr hending,
    List.append_nil]

theorem lastFault?_items (o : Options) {s : σ} {origin : Address} {data : List UInt8}
    {failure : Option Fault} (hp : position s = .ok origin) (h : Supplies 0 s data failure) :
    Record.lastFault? (run o s).items = endingFault data.length failure := by
  rw [items_of_supplies o hp h, ending_eq]
  cases endingFault data.length failure with
  | some fault =>
    simp only [Option.map_some, Option.toList_some, Record.lastFault?, List.getLast?_concat]
    rfl
  | none =>
    rw [Option.map_none, Option.toList_none, List.append_nil]
    change Record.lastFault? (wordRecords o data) = none
    rw [Record.lastFault?]
    -- The last record, if there is one, is that of a word.
    cases hlast : (wordRecords o data).getLast? with
    | none => rfl
    | some r => exact Record.fault?_of_isFatal (isFatal_of_mem_wordRecords (List.mem_of_getLast? hlast))

/-- The log of a listing mirrors its records. It tells of the start, of each complete word whose record has an
error, of the fault that ended the listing, if the source failed or ended inside a word, and in the end of the
number of words. A source that does not know where it stands leaves a single error and nothing else. -/
theorem log_mirrors_records (o : Options) (s : σ) :
    let records := (Handoff.start (run o s).items).drain.1
    let log := (run o s).log.map Event.shown
    match position s with
    | .error fault => log = [(.error, "failed to query stream position: " ++ fault.message)]
    | .ok origin =>
      (∃ data failure, Supplies 0 s data failure) ∧
      ∀ data failure, Supplies 0 s data failure →
        let k := data.length / 4
        let address (i : Nat) : Address := if o.base = 0 then 0 else .ofNat 64 (o.base.toNat + 4 * i)
        let record (i : Nat) : Record := .ofWord o.format (address i) (wordAt data i)
        (records.filter (!·.isFatal)).length = k ∧
        records.filter (!·.isFatal) = (List.range k).map record ∧
        Record.lastFault? records = endingFault data.length failure ∧
        log =
          [(.debug, "disassembly started at offset " ++ Hex.text origin.toNat ++ ", base " ++
            Hex.text o.base.toNat)] ++
          (List.range k).flatMap (fun i => (record i).shown (decode (wordAt data i) (address i))) ++
          ((endingFault data.length failure).map fun fault =>
            (.error, "failed to read instruction at offset " ++
              Hex.text ((origin.toNat + 4 * k) % 2 ^ 64) ++ ": " ++ fault.message)).toList ++
          [(.debug, "disassembly finished after " ++ k.repr ++ " words")] := by
  intro records log
  have hrecords : records = (run o s).items := Handoff.drain_start _
  cases hp : position s with
  | error fault =>
    simp only [log, run, hp]
    rfl
  | ok origin =>
    refine ⟨exists_supplies 0 s, fun data failure h => ?_⟩
    intro k address record
    have haddress : address = wordAddress o.base := funext fun i => (wordAddress_eq o.base i).symm
    have hwords : records.filter (!·.isFatal) = (List.range k).map record := by
      rw [hrecords, records_of_words o hp h, wordRecords, ← haddress]
    have hoffset : (origin + BitVec.ofNat 64 (4 * (data.length / 4))).toNat =
        (origin.toNat + 4 * (data.length / 4)) % 2 ^ 64 := by
      simp [BitVec.toNat_add]
    refine ⟨by rw [hwords, List.length_map, List.length_range], hwords, ?_, ?_⟩
    · rw [hrecords, lastFault?_items o hp h]
    · simp only [log, log_of_supplies o hp h, List.map_append, List.map_flatMap, Event.shown_ofWord, record,
        haddress, k]
      cases endingFault data.length failure with
      | none => rfl
      | some fault =>
        simp only [Option.map_some, Option.toList_some, List.map_cons, List.map_nil, ← hoffset]
        rfl

/-- A device with a `nop`, a word that is not supported, and a byte more before it fails. -/
def unpluggedDevice : Device where
  data := #[0x1F, 0x20, 0x03, 0xD5, 0x00, 0x00, 0x00, 0x04, 0x2A, 0x2A, 0x2A, 0x2A]
  chunk := some 3
  failure := some (9, ⟨.other, "device unplugged"⟩)

theorem log_of_unpluggedDevice :
    (run ⟨0x1000, .hex⟩ unpluggedDevice).log.map Event.shown =
      [(.debug, "disassembly started at offset 0x0, base 0x1000"),
       (.trace, "0x04000000 at 0x1004: unsupported sve encoding"),
       (.warn,
         "failed to decode instruction: 0x00001004: 0x04000000: unsupported sve encoding 0x04000000 at 0x1004"),
       (.error, "failed to read instruction at offset 0x8: device unplugged"),
       (.debug, "disassembly finished after 2 words")] := by
  have hreads := unpluggedDevice.reads_medium (by decide) (by decide) rfl
  have hsupplies := hreads.supplies unpluggedDevice.continues_self 0
  obtain ⟨-, -, -, hlog⟩ := (log_mirrors_records ⟨0x1000, .hex⟩ unpluggedDevice).2 _ _ hsupplies
  rw [hlog]
  rfl

end Listing

namespace Instructions

open Source

variable {σ : Type} [Source σ] [Ends σ]

def tellsFault : Item → Bool
  | .error (.read _ _) => true
  | _ => false

/-- How many words the stream takes from a source, the first one being number `n`. It goes on until there is
no word to take, or until it has taken one that does not decode. -/
def wordsTaken (base : Address) (n : Nat) (s : σ) : Nat :=
  match hr : readWord s with
  | (.ok (some w), t) =>
    have := readWord_weight hr
    if (decode w (wordAddress base n)).isOk then wordsTaken base (n + 1) t + 1 else 1
  | (.ok none, _) => 0
  | (.error _, _) => 0
termination_by Ends.weight s

theorem item_yieldWord (base : Address) (n : Nat) (w : Word) :
    (yieldWord base n w).item =
      (decode w (wordAddress base n)).mapError (.ofDecode (wordAddress base n)) := by
  simp only [yieldWord]
  cases decode w (wordAddress base n) <;> rfl

theorem tellsFault_yieldWord (base : Address) (n : Nat) (w : Word) :
    tellsFault (yieldWord base n w).item = false := by
  rw [item_yieldWord]
  cases decode w (wordAddress base n) with
  | ok i => rfl
  | error cause =>
    simp only [Except.mapError, DisassemblyError.ofDecode]
    split <;> rfl

theorem yields_of_isOk {base : Address} {n : Nat} {w : Word} (h : (decode w (wordAddress base n)).isOk = true)
    (fault : Option Fault) (ws : List Word) :
    yields base fault n (w :: ws) = yieldWord base n w :: yields base fault (n + 1) ws := by
  rw [yields]
  split
  · rfl
  · next hitem =>
    cases hd : decode w (wordAddress base n) with
    | ok i => simp [yieldWord, hd] at hitem
    | error cause => simp [hd, Except.isOk, Except.toBool] at h

theorem yields_of_not_isOk {base : Address} {n : Nat} {w : Word}
    (h : (decode w (wordAddress base n)).isOk = false) (fault : Option Fault) (ws : List Word) :
    yields base fault n (w :: ws) = [yieldWord base n w] := by
  rw [yields]
  split
  · next hitem =>
    cases hd : decode w (wordAddress base n) with
    | ok i => simp [hd, Except.isOk, Except.toBool] at h
    | error cause => simp [yieldWord, hd] at hitem
  · rfl

/-- Every word that is taken is yielded, as an instruction or as the error of the word. -/
theorem countP_yields (base : Address) (n : Nat) (s : σ) :
    (yields base (deliver s).fault n (deliver s).words).countP (!tellsFault ·.item) =
      wordsTaken base n s := by
  fun_induction wordsTaken base n s with
  | case1 n s w t hr hlt hok ih =>
    rw [deliver_word hr, yields_of_isOk hok, List.countP_cons, ih, tellsFault_yieldWord]
    rfl
  | case2 n s w t hr hlt hok =>
    rw [deliver_word hr, yields_of_not_isOk (Bool.eq_false_iff.mpr hok), List.countP_singleton,
      tellsFault_yieldWord]
    rfl
  | case3 n s t hr =>
    rw [deliver_end hr]
    rfl
  | case4 n s fault t hr =>
    rw [deliver_fault hr]
    rfl

theorem countP_fault (base : Address) (fault : Option Fault) (n : Nat) (ws : List Word) :
    (yields base fault n ws).countP (tellsFault ·.item) =
      if (yields base fault n ws).any (tellsFault ·.item) then 1 else 0 := by
  induction ws generalizing n with
  | nil => cases fault <;> rfl
  | cons w ws ih =>
    have hword := tellsFault_yieldWord base n w
    cases hok : (decode w (wordAddress base n)).isOk with
    | true =>
      rw [yields_of_isOk hok, List.countP_cons_of_neg (by simp [hword]), List.any_cons, hword,
        Bool.false_or]
      exact ih (n + 1)
    | false =>
      rw [yields_of_not_isOk hok]
      simp [hword]

theorem length_yields (base : Address) (n : Nat) (s : σ) :
    (yields base (deliver s).fault n (deliver s).words).length =
      wordsTaken base n s +
        if (yields base (deliver s).fault n (deliver s).words).any (tellsFault ·.item) then 1 else 0 := by
  rw [← countP_fault, ← countP_yields, List.length_eq_countP_add_countP (tellsFault ·.item), Nat.add_comm]
  simp

def AllDecode (base : Address) (n : Nat) (ws : List Word) : Prop :=
  ∀ i w, ws[i]? = some w → (decode w (wordAddress base (n + i))).isOk = true

theorem AllDecode.tail {base : Address} {n : Nat} {w : Word} {ws : List Word}
    (h : AllDecode base n (w :: ws)) : AllDecode base (n + 1) ws := by
  intro i v hv
  have hi := h (i + 1) v (by simpa using hv)
  rwa [Nat.add_comm i, ← Nat.add_assoc] at hi

theorem wordsTaken_of_allDecode {base : Address} {n : Nat} {s : σ}
    (h : AllDecode base n (deliver s).words) : wordsTaken base n s = (deliver s).words.length := by
  fun_induction wordsTaken base n s with
  | case1 n s w t hr hlt hok ih =>
    rw [deliver_word hr] at h ⊢
    rw [List.length_cons, ih h.tail]
  | case2 n s w t hr hlt hok =>
    rw [deliver_word hr] at h
    exact absurd (h 0 w rfl) hok
  | case3 n s t hr =>
    rw [deliver_end hr]
    rfl
  | case4 n s fault t hr =>
    rw [deliver_fault hr]
    rfl

theorem any_fault_of_allDecode {base : Address} {n : Nat} {ws : List Word} (h : AllDecode base n ws)
    (fault : Option Fault) : (yields base fault n ws).any (tellsFault ·.item) = fault.isSome := by
  induction ws generalizing n with
  | nil => cases fault <;> rfl
  | cons w ws ih =>
    have hok : (decode w (wordAddress base n)).isOk = true := h 0 w rfl
    rw [yields_of_isOk hok, List.any_cons, tellsFault_yieldWord, Bool.false_or]
    exact ih h.tail

theorem isOk_of_instruction {format : ImmediateFormat} {a : Address} {w : Word}
    (h : (Record.ofWord format a w).instruction.isSome = true) : (decode w a).isOk = true := by
  unfold Record.ofWord at h
  cases hd : decode w a with
  | ok i => rfl
  | error cause => simp [hd, Record.unknown] at h

theorem allDecode_of_records {o : Options} {origin : Address} {d : Delivery}
    (h : ∀ r ∈ (Listing.ofDelivery o origin d).items, r.isFatal = false → r.instruction.isSome = true) :
    AllDecode o.base 0 d.words := by
  intro i w hw
  rw [Nat.zero_add]
  obtain ⟨hi, rfl⟩ := List.getElem?_eq_some_iff.mp hw
  have hmem : Record.ofWord o.format (wordAddress o.base i) d.words[i] ∈
      (Listing.ofDelivery o origin d).items := by
    rw [Listing.items_ofDelivery]
    exact List.mem_append_left _ (List.mem_mapIdx.mpr ⟨i, hi, rfl⟩)
  exact isOk_of_instruction (h _ hmem (Record.isFatal_ofWord ..))

theorem exists_fatal_iff (o : Options) (origin : Address) (d : Delivery) :
    (∃ r ∈ (Listing.ofDelivery o origin d).items, r.isFatal = true) ↔ d.fault.isSome = true := by
  rw [Listing.items_ofDelivery]
  constructor
  · rintro ⟨r, hr, hfatal⟩
    rcases List.mem_append.mp hr with hr | hr
    · obtain ⟨i, hi, rfl⟩ := List.mem_mapIdx.mp hr
      simp [Record.isFatal_ofWord] at hfatal
    · cases hf : d.fault with
      | none => simp [hf] at hr
      | some fault => rfl
  · intro hf
    obtain ⟨fault, hf⟩ := Option.isSome_iff_exists.mp hf
    rw [hf]
    exact ⟨_, List.mem_append_right _ (List.mem_singleton_self _), Record.isFatal_ofFault _ fault⟩

/-- The number that ends the log of a stream of instructions is that of the words which the stream has taken
from its source, but for a stream that ended with a failed read: then it is one more. So over a source all of
whose words decode, it is the number that ends the log of the listing, or one more. -/
theorem finished_count (base : Address) (s : σ) :
    let items := (Handoff.start (run base s).items).drain.1
    let taken := wordsTaken base 0 s
    let faulted := items.any tellsFault
    items.countP (!tellsFault ·) = taken ∧
    (run base s).lastLine? =
      some (.debug, "instruction stream finished after " ++
        (taken + if faulted then 1 else 0).repr ++ " words") ∧
    ∀ o origin, o.base = base → position s = .ok origin →
      let records := (Handoff.start (Listing.run o s).items).drain.1
      (∀ r ∈ records, r.isFatal = false → r.instruction.isSome = true) →
      (Listing.run o s).lastLine? =
        some (.debug, "disassembly finished after " ++ taken.repr ++ " words") ∧
      (faulted = true ↔ ∃ r ∈ records, r.isFatal = true) := by
  intro items taken faulted
  have hitems : items = (yields base (deliver s).fault 0 (deliver s).words).map (·.item) :=
    Handoff.drain_start _
  have hfaulted : faulted = (yields base (deliver s).fault 0 (deliver s).words).any (tellsFault ·.item) := by
    simp only [faulted, hitems, List.any_map]
    rfl
  refine ⟨?_, ?_, ?_⟩
  · rw [hitems, List.countP_map]
    exact countP_yields base 0 s
  · have hclosing : (run base s).closing =
        [.instructionsFinished (yields base (deliver s).fault 0 (deliver s).words).length] := rfl
    rw [Run.lastLine?_of_closing hclosing, length_yields, ← hfaulted]
    rfl
  · rintro o origin rfl hp records hall
    have hrun : Listing.run o s = Listing.ofDelivery o origin (deliver s) := by rw [Listing.run, hp]
    have hrecords : records = (Listing.ofDelivery o origin (deliver s)).items := by
      rw [← hrun]
      exact Handoff.drain_start _
    rw [hrecords] at hall ⊢
    have hdecode := allDecode_of_records hall
    have hwords : taken = (deliver s).words.length := wordsTaken_of_allDecode hdecode
    refine ⟨?_, ?_⟩
    · have hclosing : (Listing.ofDelivery o origin (deliver s)).closing =
          [.listingFinished (deliver s).words.length] := rfl
      rw [hrun, Run.lastLine?_of_closing hclosing, hwords]
      rfl
    · rw [exists_fatal_iff, hfaulted, any_fault_of_allDecode hdecode]

/-- A device with a `nop` and one byte more, which it may fail to give. -/
def tornDevice (failure : Option (Nat × Fault)) : Device where
  data := #[0x1F, 0x20, 0x03, 0xD5, 0x2A]
  failure := failure

theorem runs_of_tornDevice {failure : Option (Nat × Fault)} (fault : Fault)
    (h : deliver (tornDevice failure) = ⟨[0xD503201F], some fault⟩) :
    run 0x1000 (tornDevice failure) = ofDelivery 0x1000 ⟨[0xD503201F], some fault⟩ ∧
      Listing.run ⟨0x1000, .hex⟩ (tornDevice failure) =
        Listing.ofDelivery ⟨0x1000, .hex⟩ 0 ⟨[0xD503201F], some fault⟩ := by
  rw [← h]
  exact ⟨rfl, rfl⟩

/-- A stream that ends inside its second word counts two words, though one was read, and the listing of the same
source counts one. -/
theorem torn_word_counted :
    let items := (Handoff.start (run 0x1000 (tornDevice none)).items).drain.1
    (run 0x1000 (tornDevice none)).lastLine? =
      some (.debug, "instruction stream finished after 2 words") ∧
    items.countP (!tellsFault ·) = 1 ∧
    (Listing.run ⟨0x1000, .hex⟩ (tornDevice none)).lastLine? =
      some (.debug, "disassembly finished after 1 words") := by
  have hreads := (tornDevice none).reads_medium (by decide) (by decide) rfl
  obtain ⟨hrun, hlisting⟩ := runs_of_tornDevice (.partialWord 1)
    (hreads.supplies (tornDevice none).continues_self 0).deliver
  rw [Handoff.drain_start, hrun, hlisting]
  exact ⟨rfl, rfl, rfl⟩

/-- A device that fails where its second word begins. Its words decode, and again the fault is counted. -/
theorem finished_count_of_fault :
    let s := tornDevice (some (4, ⟨.other, "device fault"⟩))
    let records := (Handoff.start (Listing.run ⟨0x1000, .hex⟩ s).items).drain.1
    (∀ r ∈ records, r.isFatal = false → r.instruction.isSome = true) ∧
    (run 0x1000 s).lastLine? = some (.debug, "instruction stream finished after 2 words") ∧
    (Listing.run ⟨0x1000, .hex⟩ s).lastLine? = some (.debug, "disassembly finished after 1 words") := by
  intro s records
  have hreads := s.reads_medium (by decide) (by decide) rfl
  obtain ⟨hrun, hlisting⟩ := runs_of_tornDevice ⟨.other, "device fault"⟩
    (hreads.supplies s.continues_self 0).deliver
  have hrecords : records = (Listing.ofDelivery ⟨0x1000, .hex⟩ 0
      ⟨[0xD503201F], some ⟨.other, "device fault"⟩⟩).items := by
    rw [← hlisting]
    exact Handoff.drain_start _
  have hall : ∀ r ∈ records, r.isFatal = false → r.instruction.isSome = true := by
    rw [hrecords]
    decide
  obtain ⟨hcount, hline, hlast⟩ := finished_count 0x1000 s
  rw [Handoff.drain_start] at hcount hline
  have htaken : wordsTaken 0x1000 0 s = 1 := by
    rw [← hcount, hrun]
    rfl
  have hfaulted : (run 0x1000 s).items.any tellsFault = true := by
    rw [hrun]
    rfl
  rw [htaken, hfaulted] at hline
  have hlisted := (hlast ⟨0x1000, .hex⟩ 0 rfl rfl hall).1
  rw [htaken] at hlisted
  exact ⟨hall, hline, hlisted⟩

end Instructions

end A64
