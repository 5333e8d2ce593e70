import Mathlib

/-!
# Cutting a list into chunks, and putting the chunks back

`count c xs` chunks of capacity `c` hold the list `xs`; the empty list still takes one chunk.
`chunk c xs i` is the `i`-th of them.  `flatten_chunks` says that the chunks in order give the list
back.

`place start src dst` writes `src` into a buffer at an offset, growing the buffer with a filler
where it is too short.  `Agrees c xs S buf` says that `buf` has the contents of `xs` at the
positions of the chunks in `S`: placing one more chunk adds it to `S` (`Agrees.place`), and once `S`
has every chunk the buffer is `xs` (`Agrees.eq_of_full`), whatever the order was.
-/

namespace Chunking

variable {α : Type*}

/-! ## Chunks of a list -/

/-- How many chunks of capacity `c` a list takes; at least one. -/
def count (c : ℕ) (xs : List α) : ℕ :=
  max 1 ((xs.length + (c - 1)) / c)

/-- The `i`-th chunk of a list. -/
def chunk (c : ℕ) (xs : List α) (i : ℕ) : List α :=
  (xs.drop (c * i)).take c

theorem count_pos (c : ℕ) (xs : List α) : 0 < count c xs :=
  lt_of_lt_of_le Nat.one_pos (le_max_left _ _)

/-- The number of chunks, from the position of the end of the list: the last chunk is the first
one, or it holds something. -/
theorem count_eq_of_bounds {c k : ℕ} {xs : List α} (hc : 0 < c) (hle : xs.length ≤ c * (k + 1))
    (hlast : k = 0 ∨ c * k < xs.length) : count c xs = k + 1 := by
  unfold count
  have hupper : (xs.length + (c - 1)) / c < k + 2 := by
    rw [Nat.div_lt_iff_lt_mul hc]
    have : (k + 2) * c = c * (k + 1) + c := by ring
    omega
  rcases hlast with rfl | hlt
  · omega
  · have hlower : k + 1 ≤ (xs.length + (c - 1)) / c := by
      rw [Nat.le_div_iff_mul_le hc]
      have : (k + 1) * c = c * k + c := by ring
      omega
    omega

/-- The end of the list lies in the last chunk. -/
theorem length_le_mul_count {c : ℕ} (hc : 0 < c) (xs : List α) :
    xs.length ≤ c * count c xs := by
  have hdiv : (xs.length + (c - 1)) / c ≤ count c xs := le_max_right _ _
  have hmul : c * ((xs.length + (c - 1)) / c) ≤ c * count c xs := Nat.mul_le_mul_left c hdiv
  have hmod := Nat.div_add_mod (xs.length + (c - 1)) c
  have hlt := Nat.mod_lt (xs.length + (c - 1)) hc
  omega

/-- Every chunk but the first one starts inside the list. -/
theorem mul_lt_length {c i : ℕ} {xs : List α} (hc : 0 < c) (hi : i < count c xs) (hi0 : i ≠ 0) :
    c * i < xs.length := by
  have hle : i + 1 ≤ (xs.length + (c - 1)) / c := by
    unfold count at hi
    omega
  rw [Nat.le_div_iff_mul_le hc] at hle
  have : (i + 1) * c = c * i + c := by ring
  omega

theorem mul_le_length {c i : ℕ} {xs : List α} (hc : 0 < c) (hi : i < count c xs) :
    c * i ≤ xs.length := by
  rcases Nat.eq_zero_or_pos i with rfl | hpos
  · simp
  · exact (mul_lt_length hc hi hpos.ne').le

/-- Every chunk but the last one ends inside the list. -/
theorem mul_succ_le_length {c i : ℕ} {xs : List α} (hc : 0 < c) (hi : i + 1 < count c xs) :
    c * (i + 1) ≤ xs.length :=
  mul_le_length hc hi

/-- A list with one chunk fits into it. -/
theorem count_eq_one_iff {c : ℕ} {xs : List α} (hc : 0 < c) :
    count c xs = 1 ↔ xs.length ≤ c := by
  constructor
  · intro h
    have := length_le_mul_count hc xs
    rw [h] at this
    omega
  · intro h
    exact count_eq_of_bounds (k := 0) hc (by simpa using h) (Or.inl rfl)

@[simp] theorem length_chunk (c : ℕ) (xs : List α) (i : ℕ) :
    (chunk c xs i).length = min c (xs.length - c * i) := by
  simp [chunk]

theorem length_chunk_le (c : ℕ) (xs : List α) (i : ℕ) : (chunk c xs i).length ≤ c := by
  simp

/-- A chunk that ends inside the list is full. -/
theorem length_chunk_of_le {c i : ℕ} {xs : List α} (h : c * (i + 1) ≤ xs.length) :
    (chunk c xs i).length = c := by
  have : c * (i + 1) = c * i + c := by ring
  simp
  omega

/-- A chunk that ends inside a list is not changed by what follows the list. -/
theorem chunk_append_of_le {c i : ℕ} {xs : List α} (ys : List α) (h : c * (i + 1) ≤ xs.length) :
    chunk c (xs ++ ys) i = chunk c xs i := by
  have hsplit : c * (i + 1) = c * i + c := by ring
  unfold chunk
  rw [List.drop_append_of_le_length (by omega), List.take_append_of_le_length (by simp; omega)]

/-- A chunk that reaches the end of the list is all that is left of it. -/
theorem chunk_eq_drop {c i : ℕ} {xs : List α} (h : xs.length ≤ c * (i + 1)) :
    chunk c xs i = xs.drop (c * i) := by
  have hsplit : c * (i + 1) = c * i + c := by ring
  exact List.take_of_length_le (by simp; omega)

theorem flatten_take_chunks (c : ℕ) (xs : List α) (k : ℕ) :
    ((List.range k).map (chunk c xs)).flatten = xs.take (c * k) := by
  induction k with
  | zero => simp
  | succ k ih =>
    rw [List.range_succ, List.map_append, List.flatten_append, ih, Nat.mul_succ, List.take_add]
    simp [chunk]

/-- **The chunks of a list, one after the other, are the list.** -/
theorem flatten_chunks {c : ℕ} (hc : 0 < c) (xs : List α) :
    ((List.range (count c xs)).map (chunk c xs)).flatten = xs := by
  rw [flatten_take_chunks, List.take_of_length_le (length_le_mul_count hc xs)]

/-- The position `j` of a list lies in the chunk `j / c`. -/
theorem div_lt_count {c j : ℕ} {xs : List α} (hc : 0 < c) (hj : j < xs.length) :
    j / c < count c xs := by
  rw [Nat.div_lt_iff_lt_mul hc, mul_comm]
  exact lt_of_lt_of_le hj (length_le_mul_count hc xs)

theorem getElem?_chunk {c i j : ℕ} {xs : List α} (hj : j < c) :
    (chunk c xs i)[j]? = xs[c * i + j]? := by
  rw [chunk, List.getElem?_take_of_lt hj, List.getElem?_drop]

/-! ## Writing into a buffer -/

/-- Overwrite the elements of `dst` from `start` on by `src`. -/
def splice (dst : List α) (start : ℕ) (src : List α) : List α :=
  dst.take start ++ src ++ dst.drop (start + src.length)

theorem length_splice {dst src : List α} {start : ℕ} (h : start + src.length ≤ dst.length) :
    (splice dst start src).length = dst.length := by
  simp [splice]
  omega

/-- What was written is what is read back, and the rest is unchanged. -/
theorem getElem?_splice {dst src : List α} {start j : ℕ} (h : start + src.length ≤ dst.length) :
    (splice dst start src)[j]? =
      if start ≤ j ∧ j < start + src.length then src[j - start]? else dst[j]? := by
  have hstart : (dst.take start).length = start := by simp; omega
  unfold splice
  by_cases hlt : j < start
  · rw [if_neg (by omega), List.append_assoc, List.getElem?_append_left (by omega),
      List.getElem?_take_of_lt hlt]
  · by_cases hin : j < start + src.length
    · rw [if_pos ⟨by omega, hin⟩, List.append_assoc, List.getElem?_append_right (by omega), hstart,
        List.getElem?_append_left (by omega)]
    · rw [if_neg (by omega), List.getElem?_append_right (by simp; omega), List.getElem?_drop]
      congr 1
      simp
      omega

/-- Overwriting what lies between a prefix and a suffix. -/
theorem splice_append {pre mid post src : List α} {start : ℕ} (hstart : start = pre.length)
    (hlen : src.length = mid.length) :
    splice (pre ++ mid ++ post) start src = pre ++ src ++ post := by
  subst hstart
  unfold splice
  rw [List.append_assoc pre mid post, List.take_left, List.drop_append, hlen,
    List.drop_eq_nil_of_le (by omega), Nat.add_sub_cancel_left, List.drop_left, List.nil_append]

/-- Grow a buffer with a filler up to a length; a longer one is left alone. -/
def grow (filler : α) (n : ℕ) (dst : List α) : List α :=
  if dst.length < n then dst ++ List.replicate (n - dst.length) filler else dst

theorem length_grow (filler : α) (n : ℕ) (dst : List α) :
    (grow filler n dst).length = max dst.length n := by
  unfold grow
  split_ifs <;> simp <;> omega

theorem getElem?_grow {filler : α} {n j : ℕ} {dst : List α} (h : j < dst.length) :
    (grow filler n dst)[j]? = dst[j]? := by
  unfold grow
  split_ifs
  · rw [List.getElem?_append_left h]
  · rfl

/-- Write `src` at an offset of a buffer that grows on demand. -/
def place (filler : α) (start : ℕ) (src dst : List α) : List α :=
  splice (grow filler (start + src.length) dst) start src

theorem length_place (filler : α) (start : ℕ) (src dst : List α) :
    (place filler start src dst).length = max dst.length (start + src.length) := by
  unfold place
  rw [length_splice (by rw [length_grow]; exact le_max_right _ _), length_grow]

theorem getElem?_place_of_mem {filler : α} {start j : ℕ} {src dst : List α} (h : start ≤ j)
    (hj : j < start + src.length) : (place filler start src dst)[j]? = src[j - start]? := by
  unfold place
  rw [getElem?_splice (by rw [length_grow]; exact le_max_right _ _), if_pos ⟨h, hj⟩]

theorem getElem?_place_of_notMem {filler : α} {start j : ℕ} {src dst : List α}
    (h : ¬(start ≤ j ∧ j < start + src.length)) (hj : j < dst.length) :
    (place filler start src dst)[j]? = dst[j]? := by
  unfold place
  rw [getElem?_splice (by rw [length_grow]; exact le_max_right _ _), if_neg h, getElem?_grow hj]

/-! ## Putting chunks back -/

/-- The buffer has the contents of `xs` at every position of a chunk in `S`, and reaches no further
than `xs`. -/
structure Agrees (c : ℕ) (xs : List α) (S : Finset ℕ) (buf : List α) : Prop where
  length_le : buf.length ≤ xs.length
  getElem?_eq : ∀ j, j / c ∈ S → buf[j]? = xs[j]?

theorem agrees_nil (c : ℕ) (xs : List α) : Agrees c xs ∅ [] where
  length_le := by simp
  getElem?_eq := by simp

/-- Placing a chunk at its offset adds it to the chunks that agree. -/
theorem Agrees.place {c i : ℕ} {xs buf : List α} {S : Finset ℕ} (filler : α) (hc : 0 < c)
    (h : Agrees c xs S buf) (hi : c * i ≤ xs.length) :
    Agrees c xs (insert i S) (place filler (c * i) (chunk c xs i) buf) where
  length_le := by
    have hle := h.length_le
    rw [length_place, length_chunk]
    omega
  getElem?_eq := by
    intro j hj
    have hdiv := Nat.div_add_mod j c
    have hmod := Nat.mod_lt j hc
    by_cases hji : j / c = i
    · -- the position lies in the chunk that is placed
      have hpos : c * i + j % c = j := by rw [← hji]; exact hdiv
      by_cases hin : j < xs.length
      · have hlt : j < c * i + (chunk c xs i).length := by rw [length_chunk]; omega
        have hsub : j - c * i = j % c := by omega
        rw [getElem?_place_of_mem (by omega) hlt, hsub, getElem?_chunk hmod, hpos]
      · have hlen := h.length_le
        rw [List.getElem?_eq_none (by rw [length_place, length_chunk]; omega),
          List.getElem?_eq_none (by omega)]
    · have hjS : j / c ∈ S := (Finset.mem_insert.mp hj).resolve_left hji
      have heq := h.getElem?_eq j hjS
      have hout : ¬(c * i ≤ j ∧ j < c * i + (chunk c xs i).length) := by
        rintro ⟨hle, hlt⟩
        have hltc : j < c * (i + 1) := by
          have := length_chunk_le c xs i
          have hsplit : c * (i + 1) = c * i + c := by ring
          omega
        exact hji (Nat.div_eq_of_lt_le (by rwa [mul_comm]) (by rwa [mul_comm]))
      by_cases hin : j < buf.length
      · rw [getElem?_place_of_notMem hout hin, heq]
      · -- a position of a chunk in `S` beyond the buffer is beyond the list
        have hnone : xs[j]? = none := by
          rw [← heq]
          exact List.getElem?_eq_none (by omega)
        have hxs : xs.length ≤ j := List.getElem?_eq_none_iff.mp hnone
        rw [hnone, List.getElem?_eq_none (by rw [length_place, length_chunk]; omega)]

/-- A buffer that agrees on every chunk is the list. -/
theorem Agrees.eq_of_full {c : ℕ} {xs buf : List α} {S : Finset ℕ} (hc : 0 < c)
    (h : Agrees c xs S buf) (hfull : ∀ i < count c xs, i ∈ S) : buf = xs := by
  refine List.ext_getElem? fun j => ?_
  by_cases hj : j < xs.length
  · exact h.getElem?_eq j (hfull _ (div_lt_count hc hj))
  · have := h.length_le
    rw [List.getElem?_eq_none (by omega), List.getElem?_eq_none (by omega)]

/-! ## Putting pieces of any size back -/

/-- The buffer has the piece `f i` at the offset of chunk `i`, for every `i` in `S`, and reaches no
further than one of these pieces. -/
structure Stores (c : ℕ) (f : ℕ → List α) (S : Finset ℕ) (buf : List α) : Prop where
  getElem?_eq : ∀ i ∈ S, ∀ j < (f i).length, buf[c * i + j]? = (f i)[j]?
  le_length : ∀ i ∈ S, c * i + (f i).length ≤ buf.length
  length_le : buf = [] ∨ ∃ i ∈ S, buf.length ≤ c * i + (f i).length

theorem stores_empty (c : ℕ) (f : ℕ → List α) : Stores c f ∅ [] where
  getElem?_eq := by simp
  le_length := by simp
  length_le := Or.inl rfl

theorem Stores.congr {c : ℕ} {f g : ℕ → List α} {S : Finset ℕ} {buf : List α}
    (h : Stores c f S buf) (hfg : ∀ i ∈ S, f i = g i) : Stores c g S buf where
  getElem?_eq := by
    intro i hi j hj
    rw [← hfg i hi] at hj ⊢
    exact h.getElem?_eq i hi j hj
  le_length := by
    intro i hi
    rw [← hfg i hi]
    exact h.le_length i hi
  length_le := by
    rcases h.length_le with hnil | ⟨i, hi, hle⟩
    · exact Or.inl hnil
    · exact Or.inr ⟨i, hi, by rwa [← hfg i hi]⟩

/-- Placing one more piece that fits into its chunk keeps the others. -/
theorem Stores.place {c i : ℕ} {f : ℕ → List α} {S : Finset ℕ} {buf : List α} (filler : α)
    (h : Stores c f S buf) (hi : i ∉ S) (hfits : ∀ k ∈ insert i S, (f k).length ≤ c) :
    Stores c f (insert i S) (place filler (c * i) (f i) buf) where
  getElem?_eq := by
    intro k hk j hj
    rcases Finset.mem_insert.mp hk with rfl | hkS
    · rw [getElem?_place_of_mem (Nat.le_add_right _ _) (by omega), Nat.add_sub_cancel_left]
    · -- the pieces `k` and `i` lie in different chunks
      have hki : k ≠ i := fun heq => hi (heq ▸ hkS)
      have hklen := hfits k hk
      have hilen := hfits i (Finset.mem_insert_self i S)
      have hout : ¬(c * i ≤ c * k + j ∧ c * k + j < c * i + (f i).length) := by
        rintro ⟨hlower, hupper⟩
        rcases Nat.lt_or_gt_of_ne hki with hlt | hlt
        · have := Nat.mul_le_mul_left c hlt
          rw [Nat.succ_eq_add_one, Nat.mul_succ] at this
          omega
        · have := Nat.mul_le_mul_left c hlt
          rw [Nat.succ_eq_add_one, Nat.mul_succ] at this
          omega
      have hle := h.le_length k hkS
      rw [getElem?_place_of_notMem hout (by omega)]
      exact h.getElem?_eq k hkS j hj
  le_length := by
    intro k hk
    rw [length_place]
    rcases Finset.mem_insert.mp hk with rfl | hkS
    · exact le_max_right _ _
    · exact (h.le_length k hkS).trans (le_max_left _ _)
  length_le := by
    right
    rw [length_place]
    by_cases hlong : buf.length ≤ c * i + (f i).length
    · exact ⟨i, Finset.mem_insert_self i S, by omega⟩
    · rcases h.length_le with rfl | ⟨k, hk, hle⟩
      · exact absurd (Nat.zero_le _) hlong
      · exact ⟨k, Finset.mem_insert_of_mem hk, by omega⟩

/-- Pieces one after the other fill their chunks only if every one of them is full. -/
theorem length_flatMap_range {c : ℕ} {f : ℕ → List α} (m : ℕ) (hfits : ∀ i < m, (f i).length ≤ c) :
    ((List.range m).flatMap f).length ≤ c * m ∧
      (((List.range m).flatMap f).length = c * m → ∀ i < m, (f i).length = c) := by
  induction m with
  | zero => simp
  | succ m ih =>
    obtain ⟨hle, hfull⟩ := ih fun i hi => hfits i (by omega)
    have hlast := hfits m (Nat.lt_succ_self m)
    rw [List.range_succ, List.flatMap_append, List.flatMap_singleton, List.length_append,
      Nat.mul_succ]
    refine ⟨by omega, fun heq i hi => ?_⟩
    rcases Nat.lt_succ_iff_lt_or_eq.mp hi with hlt | rfl
    · exact hfull (by omega) i hlt
    · omega

/-- The piece that is stored in a chunk. -/
theorem Stores.take_drop {c i : ℕ} {f : ℕ → List α} {S : Finset ℕ} {buf : List α}
    (h : Stores c f S buf) (hi : i ∈ S) : (buf.drop (c * i)).take (f i).length = f i := by
  have hle := h.le_length i hi
  refine List.ext_getElem? fun j => ?_
  by_cases hj : j < (f i).length
  · rw [List.getElem?_take_of_lt hj, List.getElem?_drop, h.getElem?_eq i hi j hj]
  · rw [List.getElem?_eq_none (by rw [List.length_take]; omega), List.getElem?_eq_none (by omega)]

/-- Full pieces fill the buffer up to a chunk. -/
theorem Stores.take_eq_flatMap {c k : ℕ} {f : ℕ → List α} {S : Finset ℕ} {buf : List α}
    (h : Stores c f S buf) (hfull : ∀ i < k, i ∈ S ∧ (f i).length = c) :
    buf.take (c * k) = (List.range k).flatMap f := by
  induction k with
  | zero => simp
  | succ k ih =>
    obtain ⟨hk, hlen⟩ := hfull k (Nat.lt_succ_self k)
    have hpiece := h.take_drop hk
    rw [hlen] at hpiece
    rw [Nat.mul_succ, List.take_add, hpiece, ih fun i hi => hfull i (by omega), List.range_succ,
      List.flatMap_append, List.flatMap_singleton]

/-- The buffer ends with the last piece. -/
theorem Stores.length_eq {c m : ℕ} {f : ℕ → List α} {buf : List α}
    (h : Stores c f (Finset.range (m + 1)) buf) (hfits : ∀ i ≤ m, (f i).length ≤ c) :
    buf.length = c * m + (f m).length := by
  have hlower := h.le_length m (Finset.self_mem_range_succ m)
  rcases h.length_le with rfl | ⟨i, hi, hle⟩
  · exact Nat.le_antisymm (Nat.zero_le _) hlower
  · rcases Nat.lt_or_eq_of_le (Nat.lt_succ_iff.mp (Finset.mem_range.mp hi)) with hlt | rfl
    · have hmul := Nat.mul_le_mul_left c hlt
      rw [Nat.succ_eq_add_one, Nat.mul_succ] at hmul
      have := hfits i hlt.le
      omega
    · exact Nat.le_antisymm hle hlower

/-- **Completeness.**  A buffer that stores the pieces up to the `m`-th and no other is these pieces
one after the other, exactly if all but the last one are full. -/
theorem Stores.eq_flatMap_iff {c m : ℕ} {f : ℕ → List α} {buf : List α}
    (h : Stores c f (Finset.range (m + 1)) buf) (hfits : ∀ i ≤ m, (f i).length ≤ c) :
    buf = (List.range (m + 1)).flatMap f ↔ ∀ i < m, (f i).length = c := by
  have hlength := h.length_eq hfits
  rw [List.range_succ, List.flatMap_append, List.flatMap_singleton]
  constructor
  · intro heq
    have hlen := congrArg List.length heq
    rw [List.length_append] at hlen
    exact (length_flatMap_range m fun i hi => hfits i hi.le).2 (by omega)
  · intro hfull
    have hfront := h.take_eq_flatMap (k := m) fun i hi =>
      ⟨Finset.mem_range.mpr (by omega), hfull i hi⟩
    have hback : buf.drop (c * m) = f m := by
      rw [← h.take_drop (Finset.self_mem_range_succ m), List.take_of_length_le]
      rw [List.length_drop]
      omega
    rw [← hfront, ← hback, List.take_append_drop]

end Chunking
