import A64.Source

/-! What a source supplies. The bytes come in pieces and with interruptions, and reading by words puts
them together again. Main statement: the words that are delivered, and the fault that ends them, are
those of the bytes alone. -/

namespace A64.Source

variable {σ : Type} [Source σ]

def missing (k : Nat) : Nat := 4 - k % 4

theorem missing_pos (k : Nat) : 0 < missing k := by
  rw [missing]
  omega

/-- After `k` bytes, the source gives the bytes `data` to a reader who always asks for what is missing
of a word. Then it ends, or fails with the fault `failure`. Interruptions and the sizes of the pieces
are left open. -/
inductive Supplies : Nat → σ → List UInt8 → Option Fault → Prop where
  | ended {k : Nat} {s : σ} (hr : (read (missing k) s).1 = .bytes []) : Supplies k s [] none
  | failed {k : Nat} {s : σ} {fault : Fault} (hr : (read (missing k) s).1 = .failed fault) :
      Supplies k s [] (some fault)
  | interrupted {k : Nat} {s : σ} {data : List UInt8} {failure : Option Fault}
      (hr : (read (missing k) s).1 = .interrupted)
      (h : Supplies k (read (missing k) s).2 data failure) : Supplies k s data failure
  | piece {k : Nat} {s : σ} {bs data : List UInt8} {failure : Option Fault}
      (hr : (read (missing k) s).1 = .bytes bs) (hne : bs ≠ [])
      (h : Supplies (k + bs.length) (read (missing k) s).2 data failure) :
      Supplies k s (bs ++ data) failure

theorem exists_supplies [Ends σ] (k : Nat) (s : σ) : ∃ data failure, Supplies k s data failure := by
  induction hw : Ends.weight s using Nat.strongRecOn generalizing k s with
  | ind n ih =>
    subst hw
    cases hr : (read (missing k) s).1 with
    | bytes bs =>
      by_cases hne : bs = []
      · subst hne
        exact ⟨[], none, .ended hr⟩
      · obtain ⟨data, failure, h⟩ := ih _ (Ends.weight_bytes hr hne) (k + bs.length) _ rfl
        exact ⟨bs ++ data, failure, .piece hr hne h⟩
    | interrupted =>
      obtain ⟨data, failure, h⟩ := ih _ (Ends.weight_interrupted hr) k _ rfl
      exact ⟨data, failure, .interrupted hr h⟩
    | failed fault => exact ⟨[], some fault, .failed hr⟩

/-! One reply, seen from the loop that fills a word. -/

theorem fill_ended {got : List UInt8} {s : σ} (hg : got.length < 4)
    (hr : (read (4 - got.length) s).1 = .bytes []) :
    fill got s = (.ok got, (read (4 - got.length) s).2) := by
  rw [fill, if_pos hg]
  split <;> simp_all

theorem fill_failed {got : List UInt8} {s : σ} {fault : Fault} (hg : got.length < 4)
    (hr : (read (4 - got.length) s).1 = .failed fault) :
    fill got s = (.error fault, (read (4 - got.length) s).2) := by
  rw [fill, if_pos hg]
  split <;> simp_all

theorem fill_interrupted {got : List UInt8} {s : σ} (hg : got.length < 4)
    (hr : (read (4 - got.length) s).1 = .interrupted) :
    fill got s = fill got (read (4 - got.length) s).2 := by
  rw [fill, if_pos hg]
  split <;> simp_all

theorem fill_piece {got bs : List UInt8} {s : σ} (hg : got.length < 4)
    (hr : (read (4 - got.length) s).1 = .bytes bs) (hne : bs ≠ []) :
    fill got s = fill (got ++ bs) (read (4 - got.length) s).2 := by
  rw [fill, if_pos hg]
  split <;> simp_all

theorem fill_of_full {got : List UInt8} {s : σ} (hg : 4 ≤ got.length) :
    fill got s = (.ok got, s) := by
  rw [fill, if_neg (by omega)]

theorem readWord_of_piece {s t : σ} {a b c d : UInt8} (hr : read 4 s = (.bytes [a, b, c, d], t)) :
    readWord s = (.ok (some (.ofBytes a b c d)), t) := by
  have hfill : fill [] s = (.ok [a, b, c, d], t) := by
    rw [fill_piece (by decide) (congrArg Prod.fst hr) (by simp), fill_of_full (by simp)]
    exact congrArg _ (congrArg Prod.snd hr)
  rw [readWord, hfill]

theorem Supplies.fill_full {k : Nat} {s : σ} {data : List UInt8} {failure : Option Fault}
    (h : Supplies k s data failure) (got : List UInt8) (hk : k % 4 = got.length)
    (hlen : 4 ≤ got.length + data.length) :
    ∃ t, fill got s = (.ok (got ++ data.take (4 - got.length)), t) ∧
      Supplies (k + (4 - got.length)) t (data.drop (4 - got.length)) failure := by
  -- Induction on the replies; a piece either completes the word or leaves a longer beginning of it.
  induction h generalizing got with
  | ended hr | failed hr =>
    simp only [List.length_nil] at hlen
    omega
  | @interrupted k s data failure hr h ih =>
    rw [missing, hk] at hr
    obtain ⟨t, hf, ht⟩ := ih got hk hlen
    rw [missing, hk] at hf
    exact ⟨t, (fill_interrupted (by omega) hr).trans hf, ht⟩
  | @piece k s bs data failure hr hne h ih =>
    rw [missing, hk] at hr
    have hb : bs.length ≤ 4 - got.length := length_le hr
    rw [missing, hk] at h ih
    by_cases hfull : bs.length = 4 - got.length
    · refine ⟨(read (4 - got.length) s).2, ?_, ?_⟩
      · rw [fill_piece (by omega) hr hne, fill_of_full (by simp; omega), ← hfull]
        simp
      · rw [List.drop_left' hfull]
        rw [hfull] at h
        exact h
    · have hk' : (k + bs.length) % 4 = (got ++ bs).length := by
        rw [List.length_append]
        omega
      obtain ⟨t, hf, ht⟩ := ih (got ++ bs) hk' (by simp at hlen ⊢; omega)
      refine ⟨t, ?_, ?_⟩
      · rw [fill_piece (by omega) hr hne, hf, List.length_append, List.append_assoc,
          List.take_append, List.take_of_length_le hb, Nat.sub_add_eq]
      · rw [List.length_append] at ht
        rw [List.drop_append, List.drop_of_length_le hb, List.nil_append]
        have hsum : k + bs.length + (4 - (got.length + bs.length)) = k + (4 - got.length) := by omega
        rw [← hsum, ← Nat.sub_add_eq]
        exact ht

theorem Supplies.fill_short {k : Nat} {s : σ} {data : List UInt8} {failure : Option Fault}
    (h : Supplies k s data failure) (got : List UInt8) (hk : k % 4 = got.length)
    (hlen : got.length + data.length < 4) :
    (fill got s).1 = failure.elim (.ok (got ++ data)) .error := by
  induction h generalizing got with
  | ended hr =>
    rw [missing, hk] at hr
    rw [fill_ended (by omega) hr]
    simp
  | failed hr =>
    rw [missing, hk] at hr
    rw [fill_failed (by omega) hr]
    rfl
  | interrupted hr h ih =>
    have hf := ih got hk hlen
    rw [missing, hk] at hr hf
    rw [fill_interrupted (by omega) hr]
    exact hf
  | @piece k s bs data failure hr hne h ih =>
    rw [missing, hk] at hr ih
    rw [List.length_append] at hlen
    have hk' : (k + bs.length) % 4 = (got ++ bs).length := by
      rw [List.length_append]
      omega
    rw [fill_piece (by omega) hr hne, ih (got ++ bs) hk' (by simp; omega), List.append_assoc]

theorem Supplies.readWord_word {k : Nat} {s : σ} {a b c d : UInt8} {data : List UInt8}
    {failure : Option Fault} (h : Supplies k s (a :: b :: c :: d :: data) failure) (hk : k % 4 = 0) :
    ∃ t, readWord s = (.ok (some (.ofBytes a b c d)), t) ∧ Supplies (k + 4) t data failure := by
  obtain ⟨t, hf, ht⟩ := h.fill_full [] hk (by simp)
  exact ⟨t, by simp [readWord, hf], ht⟩

/-- The fault that ends the words of `n` bytes: that of the source, or the end inside a word. -/
def endingFault (n : Nat) (failure : Option Fault) : Option Fault :=
  failure.or (if n % 4 = 0 then none else some (.partialWord (n % 4)))

theorem endingFault_add_four (n : Nat) (failure : Option Fault) :
    endingFault (n + 4) failure = endingFault n failure := by
  simp [endingFault]

theorem Supplies.readWord_short {k : Nat} {s : σ} {data : List UInt8} {failure : Option Fault}
    (h : Supplies k s data failure) (hk : k % 4 = 0) (hlen : data.length < 4) :
    (readWord s).1 = (endingFault data.length failure).elim (.ok none) .error := by
  have hf := h.fill_short [] hk (by simpa using hlen)
  rcases hr : fill [] s with ⟨r, t⟩
  rw [hr] at hf
  cases failure with
  | some fault => simp_all [readWord, endingFault]
  | none =>
    match data, hlen with
    | [], _ | [_], _ | [_, _], _ | [_, _, _], _ => simp_all [readWord, endingFault]

def wordsOf : List UInt8 → List Word
  | a :: b :: c :: d :: data => .ofBytes a b c d :: wordsOf data
  | _ => []

theorem length_lt_four {data : List UInt8}
    (h : ∀ a b c d rest, data = a :: b :: c :: d :: rest → False) : data.length < 4 := by
  match data, h with
  | [], _ | [_], _ | [_, _], _ | [_, _, _], _ => simp
  | a :: b :: c :: d :: rest, h => exact (h a b c d rest rfl).elim

theorem Supplies.deliverAfter [Ends σ] {k : Nat} {s : σ} {data : List UInt8} {failure : Option Fault}
    (h : Supplies k s data failure) (hk : k % 4 = 0) (before : List Word) :
    deliverAfter before s =
      ⟨before.reverse ++ wordsOf data, endingFault data.length failure⟩ := by
  fun_induction wordsOf data generalizing k s before with
  | case1 a b c d data ih =>
    obtain ⟨t, hr, ht⟩ := h.readWord_word hk
    rw [Source.deliverAfter]
    split
    · next w u hw =>
      rw [hr] at hw
      simp only [Prod.mk.injEq, Except.ok.injEq, Option.some.injEq] at hw
      obtain ⟨rfl, rfl⟩ := hw
      rw [ih ht (by omega)]
      simp [endingFault_add_four]
    · next hw => simp [hr] at hw
    · next hw => simp [hr] at hw
  | case2 data hshort =>
    have hr := h.readWord_short hk (length_lt_four hshort)
    rw [Source.deliverAfter]
    cases hf : endingFault data.length failure with
    | none => split <;> simp_all
    | some fault => split <;> simp_all

/-- What a source delivers depends on its bytes and its failure alone. -/
theorem Supplies.deliver [Ends σ] {s : σ} {data : List UInt8} {failure : Option Fault}
    (h : Supplies 0 s data failure) :
    deliver s = ⟨wordsOf data, endingFault data.length failure⟩ :=
  h.deliverAfter rfl []

end A64.Source
