import VgiWorker.Lib.Bytes

/-! Values written behind their lengths, so that each is told from what follows it. Lengths and counts
are 8-byte words. -/

namespace Chunks

def word (value : Nat) : Bytes := Bytes.littleEndian 8 value

def chunk (data : Bytes) : Bytes := word data.length ++ data

def counted (write : α → Bytes) (items : List α) : Bytes := word items.length ++ items.flatMap write

def optional (write : α → Bytes) : Option α → Bytes
  | none => word 0
  | some value => word 1 ++ write value

/-- Among the values that fit, the written form shows the value and where it ends. -/
def Told (fits : α → Prop) (write : α → Bytes) : Prop :=
  ∀ ⦃left right : α⦄ ⦃leftRest rightRest : Bytes⦄, fits left → fits right →
    write left ++ leftRest = write right ++ rightRest → left = right ∧ leftRest = rightRest

/-- What an 8-byte word can hold. -/
def Small (value : Nat) : Prop := value < 2 ^ 64

theorem told_word : Told Small word := by
  intro _ _ _ _ leftSmall rightSmall same
  obtain ⟨words, rests⟩ := List.append_inj same (by simp [word])
  exact ⟨Bytes.littleEndian_injective leftSmall rightSmall words, rests⟩

theorem told_chunk : Told (fun data : Bytes => Small data.length) chunk := by
  intro _ _ _ _ leftSmall rightSmall same
  obtain ⟨lengths, rests⟩ := told_word leftSmall rightSmall same
  exact List.append_inj rests lengths

/-- Lists of one length, each item told. -/
theorem Told.flatMap {write : α → Bytes} (told : Told fits write) {left right : List α}
    (leftFits : ∀ item ∈ left, fits item) (rightFits : ∀ item ∈ right, fits item)
    (lengths : left.length = right.length) (same : left.flatMap write ++ leftRest = right.flatMap write ++ rightRest) :
    left = right ∧ leftRest = rightRest := by
  induction left generalizing right with
  | nil =>
    obtain rfl := List.length_eq_zero_iff.mp lengths.symm
    exact ⟨rfl, same⟩
  | cons item left ih =>
    cases right with
    | nil => simp at lengths
    | cons =>
      rw [List.forall_mem_cons] at leftFits rightFits
      simp only [List.flatMap_cons, List.append_assoc] at same
      obtain ⟨rfl, rests⟩ := told leftFits.1 rightFits.1 same
      obtain ⟨rfl, ends⟩ := ih leftFits.2 rightFits.2 (by simpa using lengths) rests
      exact ⟨rfl, ends⟩

theorem Told.counted {write : α → Bytes} (told : Told fits write) :
    Told (fun items : List α => Small items.length ∧ ∀ item ∈ items, fits item) (Chunks.counted write) := by
  intro _ _ _ _ leftFits rightFits same
  obtain ⟨lengths, rests⟩ := told_word leftFits.1 rightFits.1 same
  exact told.flatMap leftFits.2 rightFits.2 lengths rests

theorem Told.optional {write : α → Bytes} (told : Told fits write) :
    Told (fun value : Option α => ∀ present ∈ value, fits present) (Chunks.optional write) := by
  have mark (value : Option α) (rest : Bytes) : Chunks.optional write value ++ rest =
      word (if value.isSome then 1 else 0) ++ ((value.elim [] write) ++ rest) := by
    cases value <;> simp [Chunks.optional]
  have small (value : Option α) : Small (if value.isSome then 1 else 0) := by
    cases value <;> simp [Small]
  intro left right _ _ leftFits rightFits same
  rw [mark, mark] at same
  obtain ⟨marks, rests⟩ := told_word (small left) (small right) same
  cases left with
  | none =>
    cases right with
    | none => exact ⟨rfl, rests⟩
    | some => simp at marks
  | some value =>
    cases right with
    | none => simp at marks
    | some other =>
      obtain ⟨rfl, ends⟩ := told (leftFits value rfl) (rightFits other rfl) rests
      exact ⟨rfl, ends⟩

end Chunks
