import Mathlib

/-!
# Sets of indices kept as a sliding window of bits

A set of natural numbers that contains everything below a base can be kept as that base and the
bits from the base on.  Growing the window, setting a bit and draining a prefix of set bits each
change the represented set in the way one expects.
-/

namespace BitWindow

/-- The index `i` belongs to the set that a base and the bits from the base on represent. -/
def Mem (base : ℕ) (bits : List Bool) (i : ℕ) : Prop :=
  i < base ∨ base ≤ i ∧ bits[i - base]? = some true

instance (base : ℕ) (bits : List Bool) : DecidablePred (Mem base bits) := fun i =>
  inferInstanceAs (Decidable (i < base ∨ base ≤ i ∧ bits[i - base]? = some true))

variable {base i j k : ℕ} {bits : List Bool}

theorem mem_of_lt (h : i < base) : Mem base bits i :=
  Or.inl h

theorem mem_iff_of_le (h : base ≤ i) : Mem base bits i ↔ bits[i - base]? = some true := by
  unfold Mem
  constructor
  · rintro (hlt | ⟨-, hbit⟩)
    · omega
    · exact hbit
  · exact fun hbit => Or.inr ⟨h, hbit⟩

@[simp] theorem not_mem_empty : ¬Mem 0 [] i := by
  simp [Mem]

/-- Growing the window by unset bits does not change the set. -/
theorem mem_append_replicate (n : ℕ) :
    Mem base (bits ++ List.replicate n false) i ↔ Mem base bits i := by
  unfold Mem
  refine or_congr Iff.rfl (and_congr_right fun _ => ?_)
  by_cases hlt : i - base < bits.length
  · rw [List.getElem?_append_left hlt]
  · rw [List.getElem?_append_right (by omega), List.getElem?_eq_none (l := bits) (by omega)]
    by_cases hn : i - base - bits.length < n <;> simp [hn]

/-- Setting the bit of `j` adds `j` to the set. -/
theorem mem_set (hj : base ≤ j) (hlt : j - base < bits.length) :
    Mem base (bits.set (j - base) true) i ↔ i = j ∨ Mem base bits i := by
  by_cases hi : base ≤ i
  · rw [mem_iff_of_le hi, mem_iff_of_le hi, List.getElem?_set]
    by_cases hij : i = j
    · subst hij
      simp [hlt]
    · rw [if_neg (by omega)]
      simp [hij]
  · have hlt' : i < base := by omega
    simp [mem_of_lt hlt']

/-- Draining a prefix of set bits moves the base and keeps the set. -/
theorem mem_drop (hset : ∀ n < k, bits[n]? = some true) :
    Mem (base + k) (bits.drop k) i ↔ Mem base bits i := by
  by_cases hi : base + k ≤ i
  · rw [mem_iff_of_le hi, mem_iff_of_le (by omega), List.getElem?_drop]
    congr! 2
    omega
  · have hnew : Mem (base + k) (bits.drop k) i := mem_of_lt (by omega)
    have hold : Mem base bits i := by
      by_cases hlt : i < base
      · exact mem_of_lt hlt
      · rw [mem_iff_of_le (by omega)]
        exact hset _ (by omega)
    exact iff_of_true hnew hold

/-- Every bit before the first unset one is set. -/
theorem getElem?_of_lt_findIdx (hk : k < bits.findIdx fun b => !b) : bits[k]? = some true := by
  have hlen : k < bits.length := lt_of_lt_of_le hk List.findIdx_le_length
  have hbit := List.not_of_lt_findIdx hk
  rw [List.getElem?_eq_getElem hlen]
  simpa using hbit

end BitWindow
