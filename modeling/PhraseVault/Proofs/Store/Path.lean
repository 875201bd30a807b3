import PhraseVault.Store.Path

/-!
# Paths to a name in a directory

A path with a name put behind it passes through the names of the path and then through that name.
-/
namespace PhraseVault.Path
variable {p : Path} {name : Bytes}

/-- Bytes that lead from a directory to a node in it, when they are not too many. -/
structure IsName (name : Bytes) : Prop where
  ne_nil : name ≠ []
  slash_not_mem : slash ∉ name
  zero_not_mem : 0 ∉ name
  ne_here : name ≠ here
  ne_up : name ≠ up

theorem pieces_cons (b : UInt8) (p : Path) : pieces (b :: p) =
    if b = slash then [] :: pieces p
    else match pieces p with
      | [] => [[b]]
      | name :: rest => (b :: name) :: rest := rfl

theorem pieces_ne_nil (p : Path) : pieces p ≠ [] := by
  cases p with
  | nil => simp [pieces]
  | cons b p =>
    rw [pieces_cons]
    split
    · simp
    · split <;> simp

theorem pieces_append_slash (p q : Path) : pieces (p ++ slash :: q) = pieces p ++ pieces q := by
  induction p with
  | nil => rw [List.nil_append, pieces_cons, if_pos rfl]; rfl
  | cons b p ih =>
    rw [List.cons_append, pieces_cons, pieces_cons, ih]
    by_cases hb : b = slash
    · rw [if_pos hb, if_pos hb, List.cons_append]
    · rw [if_neg hb, if_neg hb]
      obtain ⟨name, rest, hp⟩ := List.exists_cons_of_ne_nil (pieces_ne_nil p)
      rw [hp]
      rfl

theorem pieces_of_slash_not_mem (h : slash ∉ name) : pieces name = [name] := by
  induction name with
  | nil => rfl
  | cons b name ih =>
    rw [List.mem_cons, not_or] at h
    rw [pieces_cons, if_neg (Ne.symm h.1), ih h.2]

theorem names_append_slash (p q : Path) : names (p ++ slash :: q) = names p ++ names q := by
  rw [names, pieces_append_slash, List.filter_append, names, names]

theorem names_of_slash_not_mem (hn : name ≠ []) (hs : slash ∉ name) : names name = [name] := by
  rw [names, pieces_of_slash_not_mem hs]
  simp [hn]

theorem slash_not_mem_of_mem_pieces {p : Path} (h : name ∈ pieces p) : slash ∉ name := by
  induction p generalizing name with
  | nil =>
    have hn : name = [] := List.mem_singleton.mp h
    rw [hn]
    exact List.not_mem_nil
  | cons b p ih =>
    rw [pieces_cons] at h
    by_cases hb : b = slash
    · rw [if_pos hb] at h
      rcases List.mem_cons.mp h with rfl | h
      · exact List.not_mem_nil
      · exact ih h
    · obtain ⟨first, rest, hp⟩ := List.exists_cons_of_ne_nil (pieces_ne_nil p)
      rw [if_neg hb, hp] at h
      rcases List.mem_cons.mp h with rfl | h
      · rw [List.mem_cons, not_or]
        exact ⟨Ne.symm hb, ih (hp ▸ List.mem_cons_self)⟩
      · exact ih (hp ▸ List.mem_cons_of_mem _ h)

theorem mem_names {p : Path} (h : name ∈ names p) : name ≠ [] ∧ slash ∉ name := by
  obtain ⟨hm, hn⟩ := List.mem_filter.mp h
  exact ⟨by simpa using hn, slash_not_mem_of_mem_pieces hm⟩

theorem isAbsolute_eq_false (hn : slash ∉ name) : isAbsolute name = false := by
  cases name with
  | nil => rfl
  | cons b name =>
    rw [List.mem_cons, not_or] at hn
    simpa [isAbsolute] using Ne.symm hn.1

theorem exists_eq_append_slash (h : isClosed p = true) : ∃ q, p = q ++ [slash] := by
  have hl : p.getLast? = some slash := by simpa [isClosed] using h
  exact List.getLast?_eq_some_iff.mp hl

/-- Of names without a slash, the path they are put behind loses nothing. -/
theorem eq_of_join_eq {name' : Bytes} (hn : slash ∉ name) (hn' : slash ∉ name')
    (h : p.join name = p.join name') : name = name' := by
  rw [join, join, isAbsolute_eq_false hn, isAbsolute_eq_false hn'] at h
  by_cases hp : p = [] ∨ isClosed p = true
  · simpa [hp] using h
  · simpa [hp] using h

/-- The two ways in which a name is put behind a path. -/
theorem join_cases (hp : p ≠ []) (hn : IsName name) :
    (isClosed p = true ∧ p.join name = p ++ name) ∨ p.join name = p ++ slash :: name := by
  rw [join, isAbsolute_eq_false hn.slash_not_mem]
  by_cases hc : isClosed p = true
  · exact .inl ⟨hc, by simp [hc]⟩
  · exact .inr (by simp [hc, hp])

theorem names_join (hp : p ≠ []) (hn : IsName name) : names (p.join name) = names p ++ [name] := by
  have hname := names_of_slash_not_mem hn.ne_nil hn.slash_not_mem
  rcases join_cases hp hn with ⟨hc, hj⟩ | hj
  · obtain ⟨q, rfl⟩ := exists_eq_append_slash hc
    have hq : names (q ++ [slash]) = names q := by
      rw [names_append_slash]
      simp [names, pieces]
    rw [hj, hq, List.append_assoc, List.singleton_append, names_append_slash, hname]
  · rw [hj, names_append_slash, hname]

theorem isAbsolute_join (hp : p ≠ []) (hn : IsName name) :
    isAbsolute (p.join name) = isAbsolute p := by
  obtain ⟨b, p, rfl⟩ := List.exists_cons_of_ne_nil hp
  rcases join_cases hp hn with ⟨-, hj⟩ | hj
  · rw [hj]
    rfl
  · rw [hj]
    rfl

theorem isClosed_join (hp : p ≠ []) (hn : IsName name) : isClosed (p.join name) = false := by
  have hlast : ∀ q : Path, isClosed (q ++ name) = false := by
    intro q
    have hne : ¬ name.getLast hn.ne_nil = slash := by
      intro h
      exact hn.slash_not_mem (h ▸ List.getLast_mem hn.ne_nil)
    rw [isClosed, List.getLast?_append, List.getLast?_eq_some_getLast hn.ne_nil]
    simpa using hne
  rcases join_cases hp hn with ⟨-, hj⟩ | hj
  · rw [hj, hlast]
  · rw [hj, ← List.singleton_append, ← List.append_assoc, hlast]

theorem length_join_le (hp : p ≠ []) (hn : IsName name) :
    (p.join name).length ≤ p.length + 1 + name.length := by
  rcases join_cases hp hn with ⟨-, hj⟩ | hj
  · rw [hj, List.length_append]
    omega
  · rw [hj]
    simp only [List.length_append, List.length_cons]
    omega

theorem zero_not_mem_join (hp : p ≠ []) (h : 0 ∉ p) (hn : IsName name) : 0 ∉ p.join name := by
  have hs : (0 : UInt8) ≠ slash := by decide
  rcases join_cases hp hn with ⟨-, hj⟩ | hj
  · rw [hj, List.mem_append, not_or]
    exact ⟨h, hn.zero_not_mem⟩
  · rw [hj, List.mem_append, List.mem_cons, not_or, not_or]
    exact ⟨h, hs, hn.zero_not_mem⟩

end PhraseVault.Path
