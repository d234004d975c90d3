import A64.Proofs.Exchange
import A64.Proofs.Supply
import A64.Source.Device
import A64.Stream

/-! The threads of the two streams. A thread reads its source word by word, while the consumer may call
for items or give up at any time. Main statement: every interleaving hands over the items of the stream,
in their order, and none of them is lost, whether or not the source ever ends. -/

namespace A64

namespace Source

variable {σ : Type} [Source σ] [Ends σ] {s t : σ}

theorem deliverAfter_eq (before : List Word) (s : σ) :
    deliverAfter before s = ⟨before.reverse ++ (deliver s).words, (deliver s).fault⟩ := by
  induction hw : Ends.weight s using Nat.strongRecOn generalizing before s with
  | ind n ih =>
    subst hw
    rw [deliver, deliverAfter, deliverAfter]
    split
    · next w t hr =>
      have hlt := readWord_weight hr
      rw [ih _ hlt (w :: before) t rfl, ih _ hlt [w] t rfl]
      simp
    · simp
    · simp

theorem deliver_word {w : Word} (hr : readWord s = (.ok (some w), t)) :
    deliver s = ⟨w :: (deliver t).words, (deliver t).fault⟩ := by
  rw [deliver, deliverAfter]
  split
  · next hr' =>
    rw [hr] at hr'
    cases hr'
    exact deliverAfter_eq [w] t
  · next hr' => simp [hr] at hr'
  · next hr' => simp [hr] at hr'

theorem deliver_end (hr : readWord s = (.ok none, t)) : deliver s = ⟨[], none⟩ := by
  rw [deliver, deliverAfter]
  split <;> simp_all

theorem deliver_fault {fault : Fault} (hr : readWord s = (.error fault, t)) :
    deliver s = ⟨[], some fault⟩ := by
  rw [deliver, deliverAfter]
  split <;> simp_all

end Source

open Source

variable {σ : Type} [Source σ]

namespace Listing

/-- The record of the next word, numbered `n`. A fault is the last record. -/
def make (o : Options) : Maker (σ × Nat) Record := fun (s, n) =>
  match readWord s with
  | (.ok (some w), t) => some (.ofWord o.format (wordAddress o.base n) w, some (t, n + 1))
  | (.ok none, _) => none
  | (.error fault, _) => some (.ofFault (wordAddress o.base n) fault, none)

/-- A source that does not know where it stands is not read. -/
def thread (o : Options) (s : σ) : Thread (σ × Nat) Record :=
  match position s with
  | .ok _ => .looking (s, 0)
  | .error fault => .ready (.ofFault (wordAddress o.base 0) fault) none

theorem first_make [Ends σ] (o : Options) (origin : Address) (k n : Nat) (s : σ) :
    (make o).first k (s, n) =
      (((deliver s).words.mapIdx (fun i => yieldWord o (n + i)) ++
        ((deliver s).fault.map (yieldFault o origin (n + (deliver s).words.length))).toList).map
          (·.item)).take k := by
  induction k generalizing n s with
  | zero => rfl
  | succ k ih =>
    rw [Maker.first]
    rcases hr : readWord s with ⟨fault | _ | w, t⟩
    · rw [deliver_fault hr]
      simp only [make, hr]
      exact (List.take_of_length_le (Nat.le_add_left 1 k)).symm
    · rw [deliver_end hr]
      simp only [make, hr]
      rfl
    · have hmore := ih (n + 1) t
      simp only [Nat.add_assoc, Nat.add_comm 1] at hmore
      rw [deliver_word hr, List.mapIdx_cons, List.cons_append, List.map_cons, List.take_succ_cons]
      simp only [make, hr, hmore, List.length_cons]
      rfl

theorem pending_thread [Ends σ] (o : Options) (s : σ) {n : Nat} (hn : (run o s).items.length ≤ n) :
    (thread o s).pending (make o) n = (run o s).items := by
  unfold thread run at *
  cases hp : position s with
  | error fault => rfl
  | ok origin =>
    simp only [hp] at hn
    have h := first_make o origin n 0 s
    simp only [Nat.zero_add] at h
    exact h.trans (List.take_of_length_le hn)

end Listing

namespace Instructions

/-- The item of the next word, numbered `n`. The first item that is no instruction is the last one. -/
def make (base : Address) : Maker (σ × Nat) Item := fun (s, n) =>
  match readWord s with
  | (.ok (some w), t) =>
    match decode w (wordAddress base n) with
    | .ok i => some (.ok i, some (t, n + 1))
    | .error cause => some (.error (.ofDecode (wordAddress base n) cause), none)
  | (.ok none, _) => none
  | (.error fault, _) => some (.error (.read (wordAddress base n) fault), none)

theorem first_make [Ends σ] (base : Address) (k n : Nat) (s : σ) :
    (make base).first k (s, n) =
      ((yields base (deliver s).fault n (deliver s).words).map (·.item)).take k := by
  induction k generalizing n s with
  | zero => rfl
  | succ k ih =>
    rw [Maker.first]
    rcases hr : readWord s with ⟨fault | _ | w, t⟩
    · rw [deliver_fault hr]
      simp only [make, hr]
      exact (List.take_of_length_le (Nat.le_add_left 1 k)).symm
    · rw [deliver_end hr]
      simp only [make, hr]
      rfl
    · have hmore := ih (n + 1) t
      rw [deliver_word hr]
      cases hd : decode w (wordAddress base n) with
      | ok i =>
        simp only [make, hr, hd, hmore, yields, yieldWord]
        rfl
      | error cause =>
        simp only [make, hr, hd, yields, yieldWord]
        exact (List.take_of_length_le (Nat.le_add_left 1 k)).symm

theorem pending_thread [Ends σ] (base : Address) (s : σ) {n : Nat} (hn : (run base s).items.length ≤ n) :
    (Thread.looking (s, 0)).pending (make base) n = (run base s).items :=
  (first_make base n 0 s).trans (List.take_of_length_le hn)

end Instructions

/-- However its thread and the consumer interleave, a listing and a stream of instructions hand over the items that
they make one after the other. A source that never ends makes no difference to that; if it does end, these are
the items of the run to its end. -/
theorem streams_hand_over (o : Options) (s : σ) (turns : List Turn) :
    (∀ n, turns.length ≤ n →
      HandsOver (Listing.make o) (Listing.thread o s) turns ((Listing.thread o s).pending (Listing.make o) n) ∧
      HandsOver (Instructions.make o.base) (.looking (s, 0)) turns
        ((Instructions.make o.base).first n (s, 0))) ∧
    ∀ [Ends σ],
      HandsOver (Listing.make o) (Listing.thread o s) turns (Listing.run o s).items ∧
      HandsOver (Instructions.make o.base) (.looking (s, 0)) turns (Instructions.run o.base s).items := by
  refine ⟨fun n hn => ⟨handsOver_pending _ _ hn, handsOver_pending _ _ hn⟩, fun {_} => ⟨?_, ?_⟩⟩
  · rw [← Listing.pending_thread o s (Nat.le_max_right turns.length _)]
    exact handsOver_pending _ _ (Nat.le_max_left ..)
  · rw [← Instructions.pending_thread o.base s (Nat.le_max_right turns.length _)]
    exact handsOver_pending _ _ (Nat.le_max_left ..)

def pairDevice (position calls : Nat) : Device where
  data := #[0x1F, 0x20, 0x03, 0xD5, 0xC0, 0x03, 0x5F, 0xD6]
  position := position
  calls := calls

/-- The consumer takes a record. The thread looks at the flag and offers the next one, but before they
meet, the consumer cancels. -/
def lateCancel : List Turn :=
  [.call .next, .producer, .producer, .producer, .consumer] ++
    [.producer, .producer, .producer, .call .cancel, .consumer, .consumer, .consumer] ++
    [.producer, .producer, .producer, .consumer, .call .next]

theorem returns_lateCancel {γ ι : Type} {make : Maker γ ι} {first second : γ} {a b : ι} {after : Option γ}
    (hfirst : make first = some (a, some second)) (hsecond : make second = some (b, after)) :
    (Exchange.run make lateCancel (.start (.looking first))).2 =
      [.answer (some a), .cancelled, .answer none] := by
  simp [Exchange.run, lateCancel, Exchange.start, Exchange.step?, Exchange.begin?, Exchange.consume?,
    Exchange.finish, Thread.step?, Thread.resume, hfirst, hsecond]

structure EndlessByte where
  byte : UInt8

instance : Source EndlessByte where
  read n s := (.bytes (List.replicate n s.byte), s)
  position _ := .ok 0
  seek offset s := (.ok offset, s)
  patience _ := 0
  length_le := by
    intro n s bs h
    cases h
    simp
  patience_interrupted := nofun

theorem late_cancel_hands_over :
    let o : Options := ⟨0x1000, .hex⟩
    let first := Record.ofWord .hex 0x1000 0xD503201F
    let x := Exchange.run (Listing.make o) lateCancel (.start (Listing.thread o (pairDevice 0 0)))
    let endlessFirst := Record.ofWord .hex 0x1000 0x1F1F1F1F
    let y := Exchange.run (Listing.make o) lateCancel (.start (Listing.thread o (EndlessByte.mk 0x1F)))
    (x.2 = [.answer (some first), .cancelled, .answer none] ∧ x.1.thread = .exited ∧
      [first] <+: (Listing.run o (pairDevice 0 0)).items) ∧
    y.2 = [.answer (some endlessFirst), .cancelled, .answer none] ∧ y.1.thread = .exited ∧
      ∀ n, 17 ≤ n →
        [endlessFirst] <+: (Listing.thread o (EndlessByte.mk 0x1F)).pending (Listing.make o) n := by
  intro o first x endlessFirst y
  constructor
  · have hread : readWord (pairDevice 0 0) = (.ok (some (.ofBytes 0x1F 0x20 0x03 0xD5)), pairDevice 4 1) :=
      readWord_of_piece rfl
    have hread' : readWord (pairDevice 4 1) = (.ok (some (.ofBytes 0xC0 0x03 0x5F 0xD6)), pairDevice 8 2) :=
      readWord_of_piece rfl
    have hfirst : Listing.make o (pairDevice 0 0, 0) = some (first, some (pairDevice 4 1, 1)) := by
      simp only [Listing.make, hread]
      rfl
    have hsecond : Listing.make o (pairDevice 4 1, 1) =
        some (.ofWord .hex 0x1004 0xD65F03C0, some (pairDevice 8 2, 2)) := by
      simp only [Listing.make, hread']
      rfl
    have hreturns : x.2 = [.answer (some first), .cancelled, .answer none] :=
      returns_lateCancel hfirst hsecond
    have h := ((streams_hand_over o (pairDevice 0 0) lateCancel).2).1
    have horder := h.in_order
    rw [hreturns] at horder
    exact ⟨hreturns, h.exits (.inl (by rw [hreturns]; simp)), horder⟩
  · have hread : readWord (EndlessByte.mk 0x1F) = (.ok (some (.ofBytes 0x1F 0x1F 0x1F 0x1F)), ⟨0x1F⟩) :=
      readWord_of_piece rfl
    have hmake (n : Nat) : Listing.make o (EndlessByte.mk 0x1F, n) =
        some (.ofWord .hex (wordAddress 0x1000 n) 0x1F1F1F1F, some (⟨0x1F⟩, n + 1)) := by
      simp only [Listing.make, hread]
      rfl
    have hreturns : y.2 = [.answer (some endlessFirst), .cancelled, .answer none] :=
      returns_lateCancel (hmake 0) (hmake 1)
    have h (n : Nat) (hn : 17 ≤ n) := ((streams_hand_over o (EndlessByte.mk 0x1F) lateCancel).1 n hn).1
    refine ⟨hreturns, (h 17 (Nat.le_refl _)).exits (.inl (by rw [hreturns]; simp)), fun n hn => ?_⟩
    have horder := (h n hn).in_order
    rw [hreturns] at horder
    exact horder

end A64
