import Mathlib.Data.List.Infix

/-! Fields joined by delimiters that are not escaped. A delimiter is a word between two
separators, so an occurrence of it can share a separator with its neighbours; that is why
the conditions below add one separator at the end of a field that meets a delimiter. -/

namespace Framing

universe u
variable {α : Type u} {sep : α}

/-- A separator-free word, written between two separators. -/
structure Delimiter (sep : α) where
  word : List α
  clean : sep ∉ word

def Delimiter.symbols (mark : Delimiter sep) : List α := sep :: (mark.word ++ [sep])

/-- Two overlapping occurrences of a delimiter share at most one separator. -/
theorem Delimiter.overlap (mark : Delimiter sep) (moved : gap ≠ [])
    (same : mark.symbols ++ before = gap ++ (mark.symbols ++ after)) :
    ∃ more, gap = sep :: (mark.word ++ more) ∧ sep :: before = more ++ (mark.symbols ++ after) := by
  cases gap with
  | nil => exact absurd rfl moved
  | cons =>
    simp only [Delimiter.symbols, List.cons_append, List.cons.injEq, List.append_assoc,
      List.nil_append] at same
    obtain ⟨rfl, rest⟩ := same
    rcases List.append_eq_append_iff.mp rest with ⟨more, rfl, left⟩ | ⟨inside, word, left⟩
    · exact ⟨more, rfl, by simpa [Delimiter.symbols] using left⟩
    · -- the second occurrence would start inside the word, which has no separator
      cases inside with
      | nil => exact ⟨[], by simpa using word.symm, by simpa [Delimiter.symbols] using left.symm⟩
      | cons =>
        simp only [List.cons_append, List.cons.injEq] at left
        exact absurd (by rw [word, left.1]; simp) mark.clean

/-- Where one text has a delimiter at two places, it occurs early or late in a field. -/
theorem Delimiter.split (mark : Delimiter sep)
    (same : left ++ (mark.symbols ++ right) = left' ++ (mark.symbols ++ right')) :
    (left = left' ∧ right = right') ∨
      (∃ more, left ++ [sep] = left' ++ (mark.symbols ++ more)) ∨
      (∃ less, sep :: right = less ++ (mark.symbols ++ right') ∧
        left' = left ++ sep :: (mark.word ++ less)) := by
  rcases List.append_eq_append_iff.mp same with ⟨gap, moved, tails⟩ | ⟨gap, moved, tails⟩
  · by_cases empty : gap = []
    · subst gap
      exact Or.inl ⟨by simpa using moved.symm, by simpa using tails⟩
    · obtain ⟨less, shape, found⟩ := mark.overlap empty tails
      exact Or.inr (Or.inr ⟨less, found, by rw [moved, shape]⟩)
  · by_cases empty : gap = []
    · subst gap
      exact Or.inl ⟨by simpa using moved, by simpa using tails.symm⟩
    · obtain ⟨more, shape, found⟩ := mark.overlap empty tails
      refine Or.inr (Or.inl ?_)
      cases more with
      | nil => exact ⟨[], by simp [moved, shape, Delimiter.symbols]⟩
      | cons head tail =>
        simp only [List.cons_append, List.cons.injEq] at found
        exact ⟨tail ++ [sep], by simp [moved, shape, Delimiter.symbols, ← found.1]⟩

/-- A first field and the fields after it, each behind its own delimiter. -/
def frame (first : List α) : List (Delimiter sep × List α) → List α
  | [] => first
  | (mark, next) :: rest => first ++ (mark.symbols ++ frame next rest)

theorem frame_append (start first : List α) (rest : List (Delimiter sep × List α)) :
    frame (start ++ first) rest = start ++ frame first rest := by
  cases rest with
  | nil => rfl
  | cons => simp [frame]

/-- The fields before a delimiter can be read as one. -/
theorem frame_fields_append (first : List α) (fields rest : List (Delimiter sep × List α)) :
    frame first (fields ++ rest) = frame (frame first fields) rest := by
  induction fields generalizing first with
  | nil => rfl
  | cons head fields ih =>
    obtain ⟨_⟩ := head
    simp only [List.cons_append, frame]
    rw [ih, frame_append, frame_append]

theorem symbols_infix_frame (mark : Delimiter sep) (first next : List α)
    (rest : List (Delimiter sep × List α)) : mark.symbols <:+: frame first ((mark, next) :: rest) :=
  ⟨first, frame next rest, by simp [frame]⟩

/-- No delimiter occurs in the field before it or in the field after it. -/
def Clear (first : List α) : List (Delimiter sep × List α) → Prop
  | [] => True
  | (mark, next) :: rest =>
    ¬ mark.symbols <:+: first ++ [sep] ∧ ¬ mark.symbols <:+: sep :: next ∧ Clear next rest

instance Clear.instDecidable [DecidableEq α] :
    (first : List α) → (rest : List (Delimiter sep × List α)) → Decidable (Clear first rest)
  | _, [] => isTrue trivial
  | first, (mark, next) :: rest =>
    have := Clear.instDecidable next rest
    inferInstanceAs (Decidable (¬ mark.symbols <:+: first ++ [sep] ∧
      ¬ mark.symbols <:+: sep :: next ∧ Clear next rest))

/-- In clear fields a delimiter cannot be read later than it was written. -/
theorem Clear.not_later {mark : Delimiter sep} {rest rest' : List (Delimiter sep × List α)} (clear : Clear next rest)
    (absent : ¬ mark.symbols <:+: sep :: next) (marks : rest.map Prod.fst = rest'.map Prod.fst)
    (late : sep :: frame next rest = before ++ (mark.symbols ++ frame next' rest')) : False := by
  induction rest generalizing mark next next' before rest' with
  | nil =>
    cases rest' with
    | cons => simp at marks
    | nil => exact absent ⟨before, next', by simpa [frame] using late.symm⟩
  | cons head rest ih =>
    obtain ⟨following, field⟩ := head
    cases rest' with
    | nil => simp at marks
    | cons head' rest' =>
      obtain ⟨_, field'⟩ := head'
      simp only [List.map_cons, List.cons.injEq] at marks
      obtain ⟨rfl, marks⟩ := marks
      obtain ⟨early, inside, clear⟩ := clear
      have aligned : (sep :: next) ++ (following.symbols ++ frame field rest) =
          (before ++ (mark.symbols ++ next')) ++ (following.symbols ++ frame field' rest') := by
        simpa [frame] using late
      rcases following.split aligned with ⟨same, _⟩ | ⟨more, found⟩ | ⟨_, found, _⟩
      · exact absent ⟨before, next', by simp [same]⟩
      · -- the following delimiter would sit in the field between the two
        have shifted : ∃ pad, next ++ [sep] = pad ++ (following.symbols ++ more) := by
          cases before with
          | nil =>
            exact ⟨mark.word ++ [sep] ++ next', by simpa [Delimiter.symbols] using found⟩
          | cons first others =>
            exact ⟨others ++ (mark.symbols ++ next'), by simpa using (List.cons.inj found).2⟩
        obtain ⟨pad, shifted⟩ := shifted
        exact early ⟨pad, more, by simp [shifted]⟩
      · exact ih clear inside marks found

/-- Clear fields are read back from their frame. -/
theorem Clear.unique (clear : Clear first rest) (same : frame first rest = frame first' rest')
    (marks : rest.map Prod.fst = rest'.map Prod.fst) : first = first' ∧ rest = rest' := by
  induction rest generalizing first first' rest' with
  | nil =>
    cases rest' with
    | cons => simp at marks
    | nil => exact ⟨same, rfl⟩
  | cons head rest ih =>
    obtain ⟨mark, _⟩ := head
    cases rest' with
    | nil => simp at marks
    | cons head' =>
      obtain ⟨_⟩ := head'
      simp only [List.map_cons, List.cons.injEq] at marks
      obtain ⟨rfl, marks⟩ := marks
      obtain ⟨early, inside, clear⟩ := clear
      rcases mark.split same with ⟨equal, tails⟩ | ⟨more, found⟩ | ⟨_, found, _⟩
      · obtain ⟨rfl, rfl⟩ := ih clear tails marks
        exact ⟨equal, rfl⟩
      · exact absurd ⟨first', more, by simp [found]⟩ early
      · exact (clear.not_later inside marks found).elim

/-- Fields that no other fields frame alike are clear. -/
theorem Clear.of_unique {rest : List (Delimiter sep × List α)}
    (unique : ∀ first' rest', rest'.map Prod.fst = rest.map Prod.fst →
      frame first' rest' = frame first rest → first' = first ∧ rest' = rest) : Clear first rest := by
  induction rest generalizing first with
  | nil => trivial
  | cons head rest ih =>
    obtain ⟨mark, next⟩ := head
    refine ⟨?_, ?_, ih ?_⟩
    · rintro ⟨start, more, found⟩
      have moved := unique start ((mark, more ++ (mark.word ++ [sep]) ++ next) :: rest) rfl (by
        have shape : first ++ mark.symbols = start ++ mark.symbols ++ more ++ (mark.word ++ [sep]) := by
          rw [found]; simp [Delimiter.symbols]
        rw [frame, frame_append, frame, ← List.append_assoc first, shape]
        simp)
      have size := congrArg List.length found
      simp [moved.1, Delimiter.symbols] at size
    · rintro ⟨start, more, found⟩
      have moved := unique (first ++ sep :: (mark.word ++ start)) ((mark, more) :: rest) rfl (by
        have shape : sep :: frame next rest = start ++ (mark.symbols ++ frame more rest) := by
          have step := frame_append [sep] next rest
          simp only [List.singleton_append] at step
          rw [← step, ← found, frame_append, List.append_assoc]
        simp only [frame, Delimiter.symbols, List.append_assoc, List.cons_append,
          List.nil_append] at shape ⊢
        rw [shape])
      simpa using congrArg List.length moved.1
    · intro first' rest' marks same
      have moved := unique first ((mark, first') :: rest') (by simp [marks]) (by simp [frame, same])
      simpa using moved.2

end Framing
