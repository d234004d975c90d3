/-! The pieces of a text between separators. Main statements: put together again they are the text, and no
piece holds a separator. -/

namespace A64.Text

def consFirst (c : Char) : List (List Char) → List (List Char)
  | [] => [[c]]
  | p :: ps => (c :: p) :: ps

/-- The pieces of a text between the characters `sep`. There is one more than there are separators. -/
def pieces (sep : Char) : List Char → List (List Char)
  | [] => [[]]
  | c :: cs => if c = sep then [] :: pieces sep cs else consFirst c (pieces sep cs)

theorem pieces_ne_nil (sep : Char) (cs : List Char) : pieces sep cs ≠ [] := by
  cases cs with
  | nil => simp [pieces]
  | cons c cs =>
    rw [pieces]
    split
    · simp
    · cases pieces sep cs <;> simp [consFirst]

theorem intercalate_consFirst (sep c : Char) {ps : List (List Char)} (h : ps ≠ []) :
    [sep].intercalate (consFirst c ps) = c :: [sep].intercalate ps := by
  match ps with
  | [p] => simp [consFirst, List.intercalate]
  | p :: q :: ps => simp [consFirst, List.intercalate]

theorem intercalate_pieces (sep : Char) (cs : List Char) :
    [sep].intercalate (pieces sep cs) = cs := by
  induction cs with
  | nil => simp [pieces, List.intercalate]
  | cons c cs ih =>
    rw [pieces]
    split
    · next h =>
      subst h
      obtain ⟨p, ps, hp⟩ := List.exists_cons_of_ne_nil (pieces_ne_nil c cs)
      rw [hp] at ih ⊢
      simpa [List.intercalate] using ih
    · rw [intercalate_consFirst sep c (pieces_ne_nil sep cs), ih]

theorem not_mem_of_mem_pieces {sep : Char} {cs p : List Char} (h : p ∈ pieces sep cs) : sep ∉ p := by
  induction cs generalizing p with
  | nil => simp_all [pieces]
  | cons c cs ih =>
    rw [pieces] at h
    split at h
    · rcases List.mem_cons.mp h with rfl | h
      · simp
      · exact ih h
    · next hc =>
      obtain ⟨q, qs, hq⟩ := List.exists_cons_of_ne_nil (pieces_ne_nil sep cs)
      rw [hq] at h ih
      rcases List.mem_cons.mp h with rfl | h
      · have := ih (List.mem_cons_self)
        simp [this, Ne.symm hc]
      · exact ih (List.mem_cons_of_mem q h)

end A64.Text
