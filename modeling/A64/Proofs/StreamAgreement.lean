import A64.Proofs.ListingRecords
import A64.Proofs.Medium

/-! The two streams over one source. A listing goes on after a word that fails, a stream of instructions
does not. Main statement: the instructions are those of the listing up to the first record that has
none, and the error of that record ends them. -/

namespace A64

namespace Instructions

/-- The record and the item tell of the same word, or of the same fault. Whether the instruction could
be written as assembly does not matter to the item. -/
inductive Tells : Record → Item → Prop where
  | decoded {r : Record} {i : Instruction} (hi : r.instruction = some i) : Tells r (.ok i)
  | failed {r : Record} {e : DisassemblyError} (hi : r.instruction = none) (he : r.error = some e) :
      Tells r (.error e)

theorem tells_yieldWord (o : Options) (n : Nat) (w : Word) :
    Tells (Listing.yieldWord o n w).item (yieldWord o.base n w).item := by
  simp only [Listing.yieldWord, Record.ofWord, yieldWord]
  cases decode w (wordAddress o.base n) with
  | error cause => exact .failed rfl rfl
  | ok i =>
    refine .decoded ?_
    dsimp only
    cases i.render o.format <;> rfl

theorem tells_yieldFault (o : Options) (origin : Address) (n : Nat) (fault : Fault) :
    Tells (Listing.yieldFault o origin n fault).item (yieldFault o.base n fault).item :=
  .failed rfl rfl

/-- The items tell of the records one by one, and end after the first failure. -/
inductive Follows : List Record → List Item → Prop where
  | ended : Follows [] []
  | decoded {r : Record} {i : Instruction} {rs : List Record} {items : List Item}
      (h : Tells r (.ok i)) (hs : Follows rs items) : Follows (r :: rs) (.ok i :: items)
  | failed {r : Record} {e : DisassemblyError} {rs : List Record} (h : Tells r (.error e)) :
      Follows (r :: rs) [.error e]

theorem follows_yields (o : Options) (origin : Address) (fault : Option Fault) (n : Nat)
    (ws : List Word) :
    Follows
      ((ws.mapIdx (fun i => Listing.yieldWord o (n + i)) ++
        (fault.map (Listing.yieldFault o origin (n + ws.length))).toList).map (·.item))
      ((yields o.base fault n ws).map (·.item)) := by
  -- Induction on the words that are left; both streams number them from `n` on.
  induction ws generalizing n with
  | nil =>
    cases fault with
    | none => exact .ended
    | some fault => exact .failed (tells_yieldFault o origin n fault)
  | cons w ws ih =>
    have htells := tells_yieldWord o n w
    have hrest := ih (n + 1)
    simp only [Nat.add_assoc, Nat.add_comm 1] at hrest
    rw [yields, List.mapIdx_cons, List.cons_append, List.map_cons]
    cases hitem : (yieldWord o.base n w).item with
    | ok i =>
      rw [hitem] at htells
      simp only [List.map_cons, hitem]
      exact .decoded htells hrest
    | error e =>
      rw [hitem] at htells
      simp only [List.map_cons, List.map_nil, hitem]
      exact .failed htells

namespace Follows

variable {rs : List Record} {items : List Item}

/-- As long as the records have instructions, these are the items, and the rest follows the rest. -/
theorem exists_rest (h : Follows rs items) {j : Nat}
    (hall : ∀ r ∈ rs.take j, r.instruction.isSome) :
    ∃ rest, items = ((rs.take j).filterMap (·.instruction)).map .ok ++ rest ∧
      Follows (rs.drop j) rest := by
  induction j generalizing rs items with
  | zero => exact ⟨items, rfl, h⟩
  | succ j ih =>
    cases h with
    | ended => exact ⟨[], rfl, .ended⟩
    | decoded h hs =>
      cases h with
      | decoded hi =>
        obtain ⟨rest, rfl, hrest⟩ := ih hs fun r hr => hall r (.tail _ hr)
        refine ⟨rest, ?_, hrest⟩
        rw [List.take_succ_cons, List.filterMap_cons_some hi]
        rfl
    | failed h =>
      cases h with
      | failed hi _ => simpa [hi] using hall _ (.head _)

theorem eq_of_isSome (h : Follows rs items) (hall : ∀ r ∈ rs, r.instruction.isSome) :
    items = (rs.filterMap (·.instruction)).map .ok := by
  obtain ⟨rest, heq, hrest⟩ := h.exists_rest (j := rs.length) (by simpa using hall)
  rw [List.drop_length] at hrest
  cases hrest
  rw [heq, List.take_length, List.append_nil]

theorem eq_of_first_none (h : Follows rs items) {j : Nat} {r : Record} (hr : rs[j]? = some r)
    (hi : r.instruction = none) (hall : ∀ r ∈ rs.take j, r.instruction.isSome) :
    ∃ e, r.error = some e ∧
      items = ((rs.take j).filterMap (·.instruction)).map .ok ++ [.error e] := by
  obtain ⟨rest, heq, hrest⟩ := h.exists_rest hall
  obtain ⟨hj, hget⟩ := List.getElem?_eq_some_iff.mp hr
  rw [List.drop_eq_getElem_cons hj, hget] at hrest
  cases hrest with
  | decoded h _ =>
    cases h with
    | decoded hi' => simp [hi] at hi'
  | failed h =>
    cases h with
    | failed _ he => exact ⟨_, he, heq⟩

theorem goes_on (h : Follows rs items) {j : Nat} {r : Record} {i : Instruction}
    (hr : rs[j]? = some r) (hi : r.instruction = some i)
    (hall : ∀ r ∈ rs.take j, r.instruction.isSome) :
    items[j]? = some (.ok i) ∧ (j + 1 < rs.length → j + 1 < items.length) := by
  obtain ⟨rest, heq, hrest⟩ := h.exists_rest hall
  obtain ⟨hj, hget⟩ := List.getElem?_eq_some_iff.mp hr
  have hlen : (((rs.take j).filterMap (·.instruction)).map (.ok : _ → Item)).length = j := by
    rw [List.length_map, List.length_filterMap_eq_countP, List.countP_eq_length.mpr hall,
      List.length_take, Nat.min_eq_left (Nat.le_of_lt hj)]
  rw [List.drop_eq_getElem_cons hj, hget] at hrest
  rw [heq]
  cases hrest with
  | failed h =>
    cases h with
    | failed hi' _ => simp [hi] at hi'
  | @decoded _ _ _ items h hs =>
    cases h with
    | decoded hi' =>
      obtain rfl := Option.some.inj (hi'.symm.trans hi)
      refine ⟨by rw [List.getElem?_append_right (by omega), hlen, Nat.sub_self]; rfl, fun hlt => ?_⟩
      have hne : items ≠ [] := by
        rintro rfl
        rw [List.drop_eq_getElem_cons hlt] at hs
        cases hs
      have hpos := List.length_pos_iff.mpr hne
      rw [List.length_append, List.length_cons, hlen]
      omega

end Follows

/-- Over any source that knows where it stands, the stream of instructions yields the instructions of
the listing. If a record has none, the first such record ends the stream with its error. A record that
only has no assembly text ends nothing. -/
theorem items_of_records {σ : Type} [Source σ] [Source.Ends σ] (o : Options) {s : σ} {origin : Address}
    (hp : Source.position s = .ok origin) :
    let records := (Handoff.start (Listing.run o s).items).drain.1
    let items := (Handoff.start (run o.base s).items).drain.1
    ((∀ r ∈ records, r.instruction.isSome) →
        items = (records.filterMap (·.instruction)).map .ok) ∧
      (∀ j r, records[j]? = some r → r.instruction = none →
        (∀ r ∈ records.take j, r.instruction.isSome) →
        ∃ e, r.error = some e ∧
          items = ((records.take j).filterMap (·.instruction)).map .ok ++ [.error e]) ∧
      ∀ j r i, records[j]? = some r → r.isOk = false → r.instruction = some i →
        (∀ r ∈ records.take j, r.instruction.isSome) →
        items[j]? = some (.ok i) ∧ (j + 1 < records.length → j + 1 < items.length) := by
  intro records items
  have hfollows : Follows records items := by
    have hrun : Listing.run o s = Listing.ofDelivery o origin (Source.deliver s) := by
      rw [Listing.run, hp]
    have h := follows_yields o origin (Source.deliver s).fault 0 (Source.deliver s).words
    simp only [Nat.zero_add] at h
    simp only [records, items, Handoff.drain_start, hrun]
    exact h
  exact ⟨hfollows.eq_of_isSome, fun _ _ => hfollows.eq_of_first_none,
    fun _ _ _ hr _ => hfollows.goes_on hr⟩

/-- A device with a `nop`, a word that has no mnemonic, a word that does not decode and a single byte. It
gives at most three bytes at a time, and every second call is interrupted. -/
def mixedDevice : Device where
  data := #[0x1F, 0x20, 0x03, 0xD5, 0x00, 0xEC, 0x3F, 0x0E, 0x00, 0x00, 0x00, 0x00, 0x2A]
  chunk := some 3
  period := 2

theorem items_of_mixedDevice :
    ∃ i j : Instruction, i.mnemonic = some "nop" ∧ j.mnemonic = none ∧
      (Handoff.start (run 0x1000 mixedDevice).items).drain.1 =
        [.ok i, .ok j, .error (.undefined 0x1008 0)] := by
  have hreads := mixedDevice.reads_medium (by decide) (by decide) rfl
  have hrecords := Listing.items_of_supplies ⟨0x1000, .hex⟩ rfl
    (hreads.supplies mixedDevice.continues_self 0)
  obtain ⟨i, hi, hmi⟩ : ∃ i, (Record.ofWord .hex 0x1000 0xD503201F).instruction = some i ∧
      i.mnemonic = some "nop" := ⟨_, rfl, rfl⟩
  obtain ⟨j, hj, hmj⟩ : ∃ j, (Record.ofWord .hex 0x1004 0x0E3FEC00).instruction = some j ∧
      j.mnemonic = none := ⟨_, rfl, rfl⟩
  have htake : (Listing.run ⟨0x1000, .hex⟩ mixedDevice).items.take 2 =
      [.ofWord .hex 0x1000 0xD503201F, .ofWord .hex 0x1004 0x0E3FEC00] := by
    rw [hrecords]
    rfl
  have hthird : (Listing.run ⟨0x1000, .hex⟩ mixedDevice).items[2]? =
      some (.ofWord .hex 0x1008 0) := by
    rw [hrecords]
    rfl
  have hfirst := (items_of_records ⟨0x1000, .hex⟩ (s := mixedDevice) rfl).2.1 2 (.ofWord .hex 0x1008 0)
  rw [Handoff.drain_start (Listing.run _ _).items, htake] at hfirst
  obtain ⟨e, he, hitems⟩ := hfirst hthird rfl (by decide)
  obtain rfl : e = .undefined 0x1008 0 := (Option.some.inj he).symm
  rw [List.filterMap_cons_some hi, List.filterMap_cons_some hj] at hitems
  exact ⟨i, j, hmi, hmj, hitems⟩

end Instructions

end A64
