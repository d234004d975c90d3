import A64.Text.Pieces

/-! Texts that are joined by a separator, and how they are taken apart again. Main statement: if some character
of the separator stands in none of the texts, the joined text tells which texts they were. -/

namespace A64.Text

theorem append_cons_inj {c : Char} {x y x' y' : List Char} (hx : c ∉ x) (hy : c ∉ y)
    (h : x ++ c :: x' = y ++ c :: y') : x = y ∧ x' = y' := by
  induction x generalizing y with
  | nil =>
    cases y with
    | nil => exact ⟨rfl, (List.cons.inj h).2⟩
    | cons d y => exact absurd (List.cons.inj h).1 (List.ne_of_not_mem_cons hy)
  | cons d x ih =>
    cases y with
    | nil => exact absurd (List.cons.inj h).1.symm (List.ne_of_not_mem_cons hx)
    | cons d' y =>
      obtain ⟨rfl, htail⟩ := List.cons.inj h
      obtain ⟨rfl, hrest⟩ :=
        ih (List.not_mem_of_not_mem_cons hx) (List.not_mem_of_not_mem_cons hy) htail
      exact ⟨rfl, hrest⟩

theorem takeWhile_append_cons {c : Char} {x : List Char} (hx : c ∉ x) (y : List Char) :
    (x ++ c :: y).takeWhile (· ≠ c) = x := by
  rw [List.takeWhile_append_of_pos fun d hd => by simpa using ne_of_mem_of_not_mem hd hx]
  simp

theorem dropWhile_append_cons {c : Char} {x : List Char} (hx : c ∉ x) (y : List Char) :
    (x ++ c :: y).dropWhile (· ≠ c) = c :: y := by
  rw [List.dropWhile_append_of_pos fun d hd => by simpa using ne_of_mem_of_not_mem hd hx]
  simp

theorem mapM_map_eq_some {α β γ : Type} {f : β → Option γ} {g : α → β} {k : α → γ} {xs : List α}
    (h : ∀ x ∈ xs, f (g x) = some (k x)) : (xs.map g).mapM f = some (xs.map k) := by
  induction xs with
  | nil => rfl
  | cons x xs ih =>
    obtain ⟨hx, hxs⟩ := List.forall_mem_cons.mp h
    simp [hx, ih hxs]

variable {sep : List Char} {ps qs : List (List Char)}

/-- With one more separator at the end, every text is followed by one. -/
theorem intercalate_append (h : ps ≠ []) : sep.intercalate ps ++ sep = ps.flatMap (· ++ sep) := by
  induction ps with
  | nil => exact absurd rfl h
  | cons p ps ih =>
    cases ps with
    | nil => simp [List.intercalate_singleton]
    | cons q ps =>
      rw [List.flatMap_cons, List.intercalate_cons_cons, List.append_assoc, ih (List.cons_ne_nil q ps)]

theorem flatMap_append_inj {c : Char} (hc : c ∈ sep) (hps : ∀ p ∈ ps, c ∉ p) (hqs : ∀ q ∈ qs, c ∉ q)
    (h : ps.flatMap (· ++ sep) = qs.flatMap (· ++ sep)) : ps = qs := by
  obtain ⟨pre, post, rfl, hpre⟩ := List.eq_append_cons_of_mem hc
  induction ps generalizing qs with
  | nil =>
    cases qs with
    | nil => rfl
    | cons q qs => simp at h
  | cons p ps ih =>
    cases qs with
    | nil => simp at h
    | cons q qs =>
      simp only [List.flatMap_cons, List.append_assoc, List.cons_append] at h
      rw [← List.append_assoc, ← List.append_assoc] at h
      rw [List.forall_mem_cons] at hps hqs
      obtain ⟨hfirst, hrest⟩ := append_cons_inj (by simp [hps.1, hpre]) (by simp [hqs.1, hpre]) h
      rw [List.append_cancel_right hfirst,
        ih hps.2 hqs.2 (by simpa using List.append_cancel_left hrest)]

theorem pieces_intercalate {c : Char} (hne : ps ≠ []) (hps : ∀ p ∈ ps, c ∉ p) :
    pieces c ([c].intercalate ps) = ps := by
  apply flatMap_append_inj (List.mem_singleton_self c) (fun _ => not_mem_of_mem_pieces) hps
  rw [← intercalate_append (pieces_ne_nil c _), ← intercalate_append hne, intercalate_pieces]

def IsPiece (c : Char) (p : List Char) : Prop := p ≠ [] ∧ c ∉ p

theorem intercalate_eq_nil (hps : ∀ p ∈ ps, p ≠ []) : sep.intercalate ps = [] ↔ ps = [] := by
  cases ps with
  | nil => simp [List.intercalate_nil]
  | cons p ps => cases ps <;> simp [List.intercalate_singleton, List.intercalate_cons_cons, hps p]

theorem intercalate_inj {c : Char} (hc : c ∈ sep) (hps : ∀ p ∈ ps, IsPiece c p)
    (hqs : ∀ q ∈ qs, IsPiece c q) (h : sep.intercalate ps = sep.intercalate qs) : ps = qs := by
  have hempty : ps = [] ↔ qs = [] := by
    rw [← intercalate_eq_nil fun p hp => (hps p hp).1, h, intercalate_eq_nil fun q hq => (hqs q hq).1]
  by_cases hnil : ps = []
  · rw [hnil, hempty.mp hnil]
  · apply flatMap_append_inj hc (fun p hp => (hps p hp).2) fun q hq => (hqs q hq).2
    rw [← intercalate_append hnil, ← intercalate_append (mt hempty.mpr hnil), h]

theorem not_mem_intercalate {d : Char} (hsep : d ∉ sep) (hps : ∀ p ∈ ps, d ∉ p) :
    d ∉ sep.intercalate ps := by
  by_cases hnil : ps = []
  · simp [hnil, List.intercalate_nil]
  · intro hmem
    have hall : d ∈ ps.flatMap (· ++ sep) := intercalate_append hnil ▸ List.mem_append_left sep hmem
    obtain ⟨p, hp, hd⟩ := List.mem_flatMap.mp hall
    exact (List.mem_append.mp hd).elim (hps p hp) hsep

theorem join_inj {sep : String} {c : Char} (hc : c ∈ sep.toList) {ps qs : List String}
    (hps : ∀ p ∈ ps, IsPiece c p.toList) (hqs : ∀ q ∈ qs, IsPiece c q.toList)
    (h : sep.intercalate ps = sep.intercalate qs) : ps = qs := by
  have hlists := congrArg String.toList h
  rw [String.toList_intercalate, String.toList_intercalate] at hlists
  refine (List.map_inj_right fun _ _ => String.toList_inj.mp).mp (intercalate_inj hc ?_ ?_ hlists)
  · simpa using hps
  · simpa using hqs

end A64.Text
