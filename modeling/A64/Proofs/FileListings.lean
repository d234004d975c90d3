import A64.CommandLine.Folder
import A64.CommandLine.Outcome
import A64.Proofs.Arguments
import A64.Proofs.ListingRecords

/-! Listings of files from the command line. Main statement: the lines that are printed are those of the
first words behind the offset, and the program fails exactly if it comes upon the rest of a torn word. -/

namespace A64

open Source

namespace Device

/-- A device that gives all it is asked for, is never interrupted and never fails. -/
structure Unhindered (d : Device) : Prop where
  chunk : d.chunk = none
  failure : d.failure = none
  period : d.period = 0

theorem Unhindered.read {d : Device} (h : d.Unhindered) (n : Nat) :
    Source.read n d =
      (.bytes ((d.data.toList.drop d.position).take n),
        { d with calls := d.calls + 1
                 position := d.position + ((d.data.toList.drop d.position).take n).length }) := by
  simp [Source.read, Device.read, interruptsNext, fault?, available, h.chunk, h.failure, h.period]

theorem Unhindered.supplies {d : Device} (h : d.Unhindered) (k : Nat) :
    Supplies k d (d.data.toList.drop d.position) none := by
  -- Induction on the bytes that are left: each reply takes at least one of them.
  induction hrest : d.data.size - d.position using Nat.strongRecOn generalizing d k with
  | ind m ih =>
    have hread := h.read (missing k)
    by_cases hend : d.data.size ≤ d.position
    · have hnil : d.data.toList.drop d.position = [] := List.drop_of_length_le (by simpa using hend)
      rw [hnil, List.take_nil] at hread
      rw [hnil]
      exact .ended (congrArg Prod.fst hread)
    · generalize hbs : (d.data.toList.drop d.position).take (missing k) = bs at hread
      have hlength : bs.length = min (missing k) (d.data.size - d.position) := by simp [← hbs]
      have hne : bs ≠ [] := by
        rw [← List.length_pos_iff, hlength]
        have := missing_pos k
        omega
      have hbytes : bs ++ d.data.toList.drop (d.position + bs.length) = d.data.toList.drop d.position := by
        rw [← List.drop_drop]
        exact List.prefix_iff_eq_append.mp (hbs ▸ List.take_prefix _ _)
      rw [← hbytes]
      refine .piece (congrArg Prod.fst hread) hne ?_
      rw [hread]
      have hnext : Unhindered { d with calls := d.calls + 1, position := d.position + bs.length } :=
        ⟨h.chunk, h.failure, h.period⟩
      have := List.length_pos_iff.mpr hne
      exact ih (d.data.size - (d.position + bs.length)) (by omega) hnext _ rfl

end Device

namespace Listing

theorem length_ending_le (a : Address) (data : List UInt8) (failure : Option Fault) :
    (ending a data failure).length ≤ 1 := by
  rw [ending_eq]
  cases endingFault data.length failure <;> simp

theorem ending_ne_nil_iff (a : Address) (data : List UInt8) :
    ending a data none ≠ [] ↔ data.length % 4 ≠ 0 := by
  rw [ending]
  split <;> simp_all

theorem items_of_unhindered (o : Options) {d : Device} {origin : Address} {bytes : List UInt8}
    (h : d.Unhindered) (hp : Source.position d = .ok origin) (hbytes : d.data.toList.drop d.position = bytes) :
    (run o d).items = wordRecords o bytes ++ ending (wordAddress o.base (bytes.length / 4)) bytes none := by
  subst hbytes
  exact items_of_supplies o hp (h.supplies 0)

theorem items_of_extract (o : Options) (data : Array UInt8) (offset : Nat) {bytes : List UInt8}
    (hbytes : data.toList.drop offset = bytes) :
    (run o ({ data := data.extract offset } : Device)).items =
      wordRecords o bytes ++ ending (wordAddress o.base (bytes.length / 4)) bytes none := by
  refine items_of_unhindered o ⟨rfl, rfl, rfl⟩ rfl ?_
  simp [← hbytes, List.take_of_length_le]

theorem items_cut (n : Nat) (r : Run Record) : (cut n r).items = r.items.take n := by
  by_cases hle : r.yields.length ≤ n
  · rw [cut, if_pos hle, List.take_of_length_le]
    rwa [Run.items, List.length_map]
  · rw [cut, if_neg hle]
    exact List.map_take

end Listing

namespace CommandLine

theorem recordLine_eq (annotate : Bool) (r : Record) :
    recordLine annotate r = r.text ++ if annotate ∧ r.annotation ≠ "" then "\t; " ++ r.annotation else "" := by
  rw [recordLine]
  split
  · rw [String.append_assoc]
  · rw [String.append_empty]

theorem seek_openedFile {limit : Nat} (data : Array UInt8) {offset : Address} (h : offset.toNat < limit) :
    Source.seek offset (openedFile limit data) =
      (.ok offset, { openedFile limit data with position := offset.toNat }) := by
  simp [Source.seek, Device.seek, openedFile, Nat.not_le.mpr h]

namespace Invocation

open Listing

/-- The listing holds as many records as the count allows. Where no count is given, any bound will do. -/
theorem items_listing {σ : Type} [Source σ] [Ends σ] (i : Invocation) (s : σ) {bound : Nat}
    (hbound : (Listing.run i.options s).items.length ≤ bound) :
    (i.listing s).items = (Listing.run i.options s).items.take (i.count.getD bound) := by
  rw [listing]
  cases i.count with
  | none => exact (List.take_of_length_le hbound).symm
  | some n => exact items_cut n _

theorem listed_of_items (i : Invocation) (spec : LogSpecification) {run : Run Record} {words last : List Record}
    {m : Nat} (hitems : run.items = (words ++ last).take m)
    (hwords : ∀ r ∈ words, r.isFatal = false) (hlast : ∀ r ∈ last, r.isFatal = true) :
    (i.listed spec run).output = (words.take m).map (recordLine i.annotate) ∧
      ((i.listed spec run).status ≠ 0 ↔ last ≠ [] ∧ words.length < m) := by
  have hkept : ∀ r ∈ words.take m, (!r.isFatal) = true := fun r hr => by
    rw [hwords r (List.mem_of_mem_take hr)]
    rfl
  have hnone : (words.take m).find? Record.isFatal = none :=
    List.find?_eq_none.mpr fun r hr => by simp [hwords r (List.mem_of_mem_take hr)]
  simp only [listed, hitems, List.take_append, List.takeWhile_append_of_pos hkept, List.find?_append, hnone,
    Option.none_or]
  -- What the count leaves of the ending decides.
  cases hrest : last.take (m - words.length) with
  | nil =>
    have hunreached : ¬(last ≠ [] ∧ words.length < m) := by
      rintro ⟨hne, hlt⟩
      rcases List.take_eq_nil_iff.mp hrest with hzero | hnil
      · omega
      · exact hne hnil
    simp [hunreached]
  | cons r rs =>
    have hr := hlast r (List.mem_of_mem_take (hrest ▸ List.mem_cons_self))
    have hreached : last ≠ [] ∧ words.length < m := by
      constructor
      · rintro rfl
        simp at hrest
      · by_contra hge
        rw [Nat.sub_eq_zero_of_le (Nat.le_of_not_lt hge)] at hrest
        cases hrest
    obtain ⟨e, he, -⟩ := (Option.any_eq_true ..).mp hr
    simp [hr, he, hreached]

/-- The outcome for a file, by the bytes behind the offset. A listing has at most one record more than it has
words, which is what bounds it where no count is given. -/
theorem outcome_openedFile {i : Invocation} {spec : LogSpecification} {limit : Nat} (data : Array UInt8)
    (hspec : LogSpecification.read i.logLevel = .ok spec) (hoffset : i.offset.toNat < limit) :
    let bytes := data.toList.drop i.offset.toNat
    let m := i.count.getD (bytes.length / 4 + 1)
    let outcome := i.outcome (.ok (openedFile limit data))
    outcome.output = ((wordRecords i.options bytes).take m).map (recordLine i.annotate) ∧
      (outcome.status ≠ 0 ↔ bytes.length % 4 ≠ 0 ∧ bytes.length / 4 < m) := by
  intro bytes m outcome
  let opened : Device := { openedFile limit data with position := i.offset.toNat }
  have houtcome : outcome = i.listed spec (i.listing opened) := by
    simp only [outcome, Invocation.outcome, hspec, seek_openedFile data hoffset]
    rfl
  have hitems : (Listing.run i.options opened).items =
      wordRecords i.options bytes ++ ending (wordAddress i.options.base (bytes.length / 4)) bytes none :=
    items_of_unhindered i.options ⟨rfl, rfl, rfl⟩ rfl rfl
  have hbound : (Listing.run i.options opened).items.length ≤ bytes.length / 4 + 1 := by
    rw [hitems, List.length_append, length_wordRecords]
    exact Nat.add_le_add_left (length_ending_le ..) _
  have hlisting := i.items_listing opened hbound
  rw [hitems] at hlisting
  have hlisted := i.listed_of_items spec hlisting (fun _ => isFatal_of_mem_wordRecords)
    (fun _ => isFatal_of_mem_ending)
  rw [houtcome, hlisted.1, hlisted.2, ending_ne_nil_iff, length_wordRecords]
  exact ⟨rfl, .rfl⟩

end Invocation

/-- The listing of a file from an offset that its file system admits, the log specification being accepted. The
program prints the lines of the words behind the offset, as many as the count allows. It fails exactly if a torn
word follows and the count reaches beyond the last word, and then every line has been printed. No word makes it
fail. -/
theorem outcome_of_file (data : Array UInt8) {i : Invocation} {limit : Nat} {spec : LogSpecification}
    (hspec : LogSpecification.read i.logLevel = .ok spec) (hoffset : i.offset.toNat < limit) :
    let k := (data.size - i.offset.toNat) / 4
    let torn := (data.size - i.offset.toNat) % 4
    let printed := i.count.elim k (min · k)
    let device : Device := { data := data.extract i.offset.toNat }
    let records := (Handoff.start (Listing.run i.options device).items).drain.1
    let outcome := i.outcome (.ok (openedFile limit data))
    outcome.output = (records.take printed).map (fun r =>
      r.text ++ if i.annotate ∧ r.annotation ≠ "" then "\t; " ++ r.annotation else "") ∧
    outcome.output.length = printed ∧
    (outcome.status ≠ 0 ↔ torn ≠ 0 ∧ ∀ n ∈ i.count, k < n) ∧
    (outcome.status ≠ 0 → outcome.output.length = k) := by
  intro k torn printed device records outcome
  let bytes := data.toList.drop i.offset.toNat
  have hlength : bytes.length = data.size - i.offset.toNat := by simp [bytes]
  have hwords : (Listing.wordRecords i.options bytes).length = k := by
    rw [Listing.length_wordRecords, hlength]
  obtain ⟨houtput, hstatus⟩ := Invocation.outcome_openedFile data hspec hoffset
  -- As a bound for the words, one more than there are is no bound at all.
  have hprinted : min (i.count.getD (k + 1)) k = printed := by
    cases hn : i.count <;> simp [printed, hn]
  have hreached : k < i.count.getD (k + 1) ↔ ∀ n ∈ i.count, k < n := by
    cases i.count <;> simp
  have hrecords : records.take printed =
      (Listing.wordRecords i.options bytes).take (i.count.getD (k + 1)) := by
    have hitems : records = Listing.wordRecords i.options bytes ++ _ :=
      (Handoff.drain_start _).trans (Listing.items_of_extract i.options data i.offset.toNat rfl)
    rw [hitems, ← hprinted, List.take_append_of_le_length (by omega), ← List.take_take,
      List.take_of_length_le (Nat.le_of_eq hwords)]
  rw [hlength, ← hrecords] at houtput
  rw [hlength, hreached] at hstatus
  have hlines : outcome.output.length = printed := by
    rw [houtput, hrecords, List.length_map, List.length_take, hwords]
    exact hprinted
  refine ⟨?_, hlines, hstatus, ?_⟩
  · rw [houtput]
    exact List.map_congr_left fun r _ => recordLine_eq i.annotate r
  · intro hfails
    rw [hlines, ← hprinted]
    exact Nat.min_eq_right (Nat.le_of_lt (hreached.mpr (hstatus.mp hfails).2))

/-- Every listing of a file that has a name can be asked for, and is what the program then does. -/
theorem outcome_of_arguments {σ : Type} [Source σ] [Ends σ] (openPath : String → Except Fault σ)
    {i : Invocation} (hfile : i.file ≠ "") (hcount : ∀ n ∈ i.count, n < Draft.countBound) :
    (Request.read i.draft.arguments).map (Request.outcome openPath) = .ok (i.outcome (openPath i.file)) := by
  rw [Invocation.read_arguments hfile hcount]
  rfl

/-- Three words and half a word. The second word stands for no instruction. -/
def tornBytes : Array UInt8 := #[0x1F, 0x20, 0x03, 0xD5, 0, 0, 0, 0, 0xC0, 0x03, 0x5F, 0xD6, 0x2A, 0x00]

def tornFolder : Folder := { files := [("code.bin", tornBytes)] }

def tornListing (n : Nat) : Invocation := ⟨"code.bin", 0, 4, some n, false, true, "warn"⟩

theorem outcome_of_tornFolder :
    (∃ outcome,
      (Request.read ["-a", "-o4", "-n2", "code.bin"]).map (Request.outcome tornFolder.openPath) = .ok outcome ∧
        outcome.output.length = 2 ∧ outcome.status = 0) ∧
    ∃ outcome,
      (Request.read ["-a", "-o4", "-n3", "code.bin"]).map (Request.outcome tornFolder.openPath) = .ok outcome ∧
        outcome.output.length = 2 ∧ outcome.status ≠ 0 := by
  have hopen : tornFolder.openPath "code.bin" = .ok (openedFile (1 <<< 63) tornBytes) := rfl
  have hspec : LogSpecification.read "warn" = .ok ⟨[⟨[], .upTo .warn⟩], .empty⟩ := by decide
  have hoffset : (4 : Address).toNat < 1 <<< 63 := by decide
  have houtcome {n : Nat} {arguments : List String} (h : Request.read arguments = .ok (.list (tornListing n))) :
      (Request.read arguments).map (Request.outcome tornFolder.openPath) =
        .ok ((tornListing n).outcome (.ok (openedFile (1 <<< 63) tornBytes))) := by
    rw [h]
    change Except.ok ((tornListing n).outcome (tornFolder.openPath "code.bin")) = _
    rw [hopen]
  have hlisted (n : Nat) := outcome_of_file tornBytes (i := tornListing n) hspec hoffset
  constructor
  · obtain ⟨-, hlength, hstatus, -⟩ := hlisted 2
    refine ⟨_, houtcome (n := 2) (by decide), hlength, ?_⟩
    by_contra hfails
    exact absurd ((hstatus.mp hfails).2 2 rfl) (by decide)
  · obtain ⟨-, hlength, hstatus, -⟩ := hlisted 3
    refine ⟨_, houtcome (n := 3) (by decide), hlength, hstatus.mpr ⟨by decide, ?_⟩⟩
    rintro _ ⟨⟩
    decide

end CommandLine

end A64
