import Mathlib

/-!
# Vectors that are searched, shrunk and passed over

Operations of growable vectors on lists: the position of the first element that satisfies a
predicate, the removal of an element that puts the last one in its place, and a pass that visits the
elements in order, carrying a state along, and drops some of them.

The rules say what happens to the element at position 0, and what a pass preserves.
-/

namespace Vec

variable {α : Type*} {σ : Type*}

/-! ## Searching -/

/-- The first element that satisfies a predicate, with its position. -/
def position (p : α → Bool) : List α → Option (ℕ × α)
  | [] => none
  | a :: as => if p a then some (0, a) else (position p as).map fun found => (found.1 + 1, found.2)

section Position

variable {p : α → Bool} {as : List α} {i : ℕ} {a : α}

/-- What is found is there and satisfies the predicate. -/
theorem position_eq_some (h : position p as = some (i, a)) : as[i]? = some a ∧ p a = true := by
  induction as generalizing i with
  | nil => cases h
  | cons b bs ih =>
    rw [position] at h
    split_ifs at h with hb
    · cases h
      exact ⟨rfl, hb⟩
    · rw [Option.map_eq_some_iff] at h
      obtain ⟨⟨j, c⟩, hfound, heq⟩ := h
      cases heq
      exact ih hfound

/-- An element at the front that satisfies the predicate is found first. -/
theorem position_cons_of_pos {b : α} {bs : List α} (hb : p b = true) :
    position p (b :: bs) = some (0, b) :=
  if_pos hb

/-- An element at the front that does not satisfy the predicate is passed over. -/
theorem position_cons_of_neg {b : α} {bs : List α} (hb : ¬p b = true) :
    position p (b :: bs) = (position p bs).map fun found => (found.1 + 1, found.2) :=
  if_neg hb

/-- Nothing is found where nothing satisfies the predicate. -/
theorem position_eq_none : position p as = none ↔ ∀ a ∈ as, ¬p a = true := by
  induction as with
  | nil => simp [position]
  | cons b bs ih =>
    by_cases hb : p b = true
    · simp [position, hb]
    · rw [position_cons_of_neg hb, Option.map_eq_none_iff, ih]
      simp [hb]

/-- If only one element satisfies the predicate then it is found. -/
theorem position_of_unique
    (hunique : ∀ (i j : ℕ) a b, as[i]? = some a → as[j]? = some b → p a = true → p b = true → i = j)
    (hget : as[i]? = some a) (hp : p a = true) : position p as = some (i, a) := by
  cases hfound : position p as with
  | none => exact absurd hp (position_eq_none.mp hfound a (List.mem_of_getElem? hget))
  | some found =>
    obtain ⟨j, b⟩ := found
    obtain ⟨hget', hp'⟩ := position_eq_some hfound
    have hij := hunique i j a b hget hget' hp hp'
    subst hij
    rw [hget] at hget'
    cases hget'
    rfl

/-- If only one position satisfies the predicate then at most one element is counted. -/
theorem countP_le_one
    (hunique : ∀ (i j : ℕ) a b, as[i]? = some a → as[j]? = some b → p a = true → p b = true →
      i = j) : as.countP p ≤ 1 := by
  induction as with
  | nil => exact Nat.zero_le 1
  | cons a as ih =>
    rw [List.countP_cons]
    split_ifs with ha
    · -- the front satisfies the predicate, so nothing behind it does
      have hzero : as.countP p = 0 := by
        rw [List.countP_eq_zero]
        intro b hb hpb
        obtain ⟨j, hj⟩ := List.getElem?_of_mem hb
        have h := hunique 0 (j + 1) a b rfl hj ha hpb
        cases h
      rw [hzero]
    · refine ih fun i j b c hi hj hb hc => ?_
      exact Nat.succ_injective (hunique (i + 1) (j + 1) b c hi hj hb hc)

end Position

/-! ## Removing an element -/

/-- Remove the element at a position and put the last element in its place. -/
def swapRemove (as : List α) (i : ℕ) : List α :=
  match as.getLast? with
  | none => []
  | some last => (as.set i last).dropLast

/-- At most one occurrence of every element that was there remains. -/
theorem swapRemove_subperm (as : List α) (i : ℕ) : (swapRemove as i).Subperm as := by
  unfold swapRemove
  split
  · exact List.nil_subperm
  · rename_i last hlast
    obtain ⟨bs, rfl⟩ := List.getLast?_eq_some_iff.mp hlast
    rcases Nat.lt_or_ge i bs.length with hi | hi
    · -- the last element takes the place of the one that is removed
      rw [List.set_append_left _ _ hi, List.dropLast_concat]
      have hset : (bs.set i last).Perm (last :: bs.eraseIdx i) := List.set_perm_cons_eraseIdx hi last
      have hcons : (last :: bs.eraseIdx i).Sublist (last :: bs) :=
        (List.eraseIdx_sublist bs i).cons_cons last
      have hlast : (last :: bs).Perm (bs ++ [last]) := (List.perm_append_singleton last bs).symm
      exact hset.subperm.trans (hcons.subperm.trans hlast.subperm)
    · -- the last element itself is removed
      rw [List.set_append_right _ _ hi]
      cases hd : i - bs.length with
      | zero =>
        rw [List.set_cons_zero, List.dropLast_concat]
        exact (List.sublist_append_left bs [last]).subperm
      | succ d =>
        rw [List.set_cons_succ, List.set_nil, List.dropLast_concat]
        exact (List.sublist_append_left bs [last]).subperm

/-- Removing an element only drops keys. -/
theorem swapRemove_map_subperm {β : Type*} (key : α → β) (as : List α) (i : ℕ) :
    ((swapRemove as i).map key).Subperm (as.map key) := by
  obtain ⟨bs, hperm, hsublist⟩ := swapRemove_subperm as i
  exact ⟨bs.map key, hperm.map key, hsublist.map key⟩

/-- Replacing an element by one with the same key keeps the keys. -/
theorem map_set_of_key {β : Type*} {key : α → β} {as : List α} {i : ℕ} {a b : α}
    (hget : as[i]? = some a) (hkey : key b = key a) : (as.set i b).map key = as.map key := by
  obtain ⟨hlt, heq⟩ := List.getElem?_eq_some_iff.mp hget
  have hself : as.set i a = as := by
    rw [← heq, List.set_getElem_self]
  rw [List.map_set, hkey, ← List.map_set, hself]

/-- Removing an element behind the front leaves the front alone. -/
theorem swapRemove_cons_succ (a : α) (as : List α) {i : ℕ} (hi : i < as.length) :
    ∃ bs, swapRemove (a :: as) (i + 1) = a :: bs ∧ ∀ b ∈ bs, b ∈ as := by
  have hne : as ≠ [] := List.ne_nil_of_length_pos (by omega)
  obtain ⟨last, hlast⟩ := Option.ne_none_iff_exists'.mp (mt List.getLast?_eq_none_iff.mp hne)
  have hset : as.set i last ≠ [] := by
    intro h
    exact hne (by simpa using h)
  have hcons : (a :: as).getLast? = some last := by
    rw [List.getLast?_cons, hlast]
    rfl
  refine ⟨(as.set i last).dropLast, ?_, fun b hb => ?_⟩
  · simp only [swapRemove, hcons, List.set_cons_succ, List.dropLast_cons_of_ne_nil hset]
  · rcases List.mem_or_eq_of_mem_set (List.mem_of_mem_dropLast hb) with hmem | rfl
    · exact hmem
    · exact List.mem_of_getLast? hlast

/-! ## A pass over the elements -/

/-- Visit the elements in order.  The visit of an element answers with what is kept of it. -/
def retainMut (f : σ → α → σ × Option α) : σ → List α → σ × List α
  | s, [] => (s, [])
  | s, a :: as =>
      let (s, kept) := f s a
      let (s, rest) := retainMut f s as
      (s, kept.toList ++ rest)

section RetainMut

variable {f : σ → α → σ × Option α}

@[simp] theorem retainMut_nil (s : σ) : retainMut f s [] = (s, []) := rfl

theorem retainMut_cons (s : σ) (a : α) (as : List α) :
    retainMut f s (a :: as) =
      ((retainMut f (f s a).1 as).1, (f s a).2.toList ++ (retainMut f (f s a).1 as).2) := rfl

theorem retainMut_append (s : σ) (as bs : List α) :
    retainMut f s (as ++ bs) = ((retainMut f (retainMut f s as).1 bs).1,
      (retainMut f s as).2 ++ (retainMut f (retainMut f s as).1 bs).2) := by
  induction as generalizing s with
  | nil => rfl
  | cons a as ih => rw [List.cons_append, retainMut_cons, retainMut_cons, ih, List.append_assoc]

/-- Whatever is left after a pass was kept in a visit. -/
theorem exists_of_mem_retainMut {s : σ} {as : List α} {b : α} (hb : b ∈ (retainMut f s as).2) :
    ∃ s', ∃ a ∈ as, (f s' a).2 = some b := by
  induction as generalizing s with
  | nil => cases hb
  | cons a as ih =>
    rw [retainMut_cons, List.mem_append, Option.mem_toList] at hb
    rcases hb with hkept | hrest
    · exact ⟨s, a, List.mem_cons_self, hkept⟩
    · obtain ⟨s', a', ha', hkept⟩ := ih hrest
      exact ⟨s', a', List.mem_cons_of_mem a ha', hkept⟩

/-- **The rule of a pass.**  A predicate on the state is preserved by a pass if it is preserved by
the visit of every element. -/
theorem retainMut_state {I : σ → Prop} {as : List α}
    (hvisit : ∀ s, ∀ a ∈ as, I s → I (f s a).1) {s : σ} (hs : I s) : I (retainMut f s as).1 := by
  induction as generalizing s with
  | nil => exact hs
  | cons a as ih =>
    exact ih (fun s b hb => hvisit s b (List.mem_cons_of_mem a hb))
      (hvisit s a List.mem_cons_self hs)

/-- **Every element is visited in a pass.**  What its visit keeps is left after the pass, and a relation
that every visit respects relates the states around its visit to the ones at the beginning and at the
end. -/
theorem exists_visit_retainMut {R : σ → σ → Prop} (hrefl : ∀ s, R s s)
    (htrans : ∀ s t u, R s t → R t u → R s u) {as : List α}
    (hvisit : ∀ s, ∀ a ∈ as, R s (f s a).1) (s : σ) {a : α} (ha : a ∈ as) :
    ∃ s', R s s' ∧ R (f s' a).1 (retainMut f s as).1 ∧
      ∀ b, (f s' a).2 = some b → b ∈ (retainMut f s as).2 := by
  induction as generalizing s with
  | nil => cases ha
  | cons c cs ih =>
    have hrest : ∀ s, ∀ b ∈ cs, R s (f s b).1 := fun s b hb =>
      hvisit s b (List.mem_cons_of_mem c hb)
    rw [retainMut_cons]
    rcases List.mem_cons.mp ha with rfl | hmem
    · refine ⟨s, hrefl s, ?_, fun b hb => List.mem_append_left _ (Option.mem_toList.mpr hb)⟩
      exact retainMut_state (I := R (f s a).1)
        (fun t b hb h => htrans _ _ _ h (hrest t b hb)) (hrefl _)
    · obtain ⟨s', hbefore, hafter, hkept⟩ := ih hrest (f s c).1 hmem
      exact ⟨s', htrans _ _ _ (hvisit s c List.mem_cons_self) hbefore, hafter,
        fun b hb => List.mem_append_right _ (hkept b hb)⟩

/-- If every visit keeps the key of its element then a pass only drops keys. -/
theorem retainMut_map_sublist {β : Type*} (key : α → β)
    (hvisit : ∀ s a b, (f s a).2 = some b → key b = key a) (s : σ) (as : List α) :
    ((retainMut f s as).2.map key).Sublist (as.map key) := by
  induction as generalizing s with
  | nil => exact List.Sublist.slnil
  | cons a as ih =>
    rw [retainMut_cons, List.map_append, List.map_cons]
    cases hkept : (f s a).2 with
    | none => exact (ih _).cons (key a)
    | some b =>
      rw [← hvisit s a b hkept]
      exact (ih _).cons_cons (key b)

end RetainMut

/-- Visit the elements in order, replacing each of them. -/
def mapState {β : Type*} (f : σ → α → σ × β) : σ → List α → σ × List β
  | s, [] => (s, [])
  | s, a :: as =>
      let (s, b) := f s a
      let (s, bs) := mapState f s as
      (s, b :: bs)

section MapState

variable {β : Type*} {f : σ → α → σ × β}

@[simp] theorem mapState_nil (s : σ) : mapState f s [] = (s, []) := rfl

theorem mapState_cons (s : σ) (a : α) (as : List α) :
    mapState f s (a :: as) =
      ((mapState f (f s a).1 as).1, (f s a).2 :: (mapState f (f s a).1 as).2) := rfl

@[simp] theorem length_mapState (s : σ) (as : List α) :
    (mapState f s as).2.length = as.length := by
  induction as generalizing s with
  | nil => rfl
  | cons a as ih =>
    rw [mapState_cons, List.length_cons, List.length_cons, ih]

section Rule

variable {R : σ → σ → Prop} (hrefl : ∀ s, R s s) (htrans : ∀ s t u, R s t → R t u → R s u)
include hrefl htrans

/-- A relation that every visit respects relates the states before and after a pass. -/
theorem mapState_state {as : List α} (hvisit : ∀ s, ∀ a ∈ as, R s (f s a).1) (s : σ) :
    R s (mapState f s as).1 := by
  induction as generalizing s with
  | nil => exact hrefl s
  | cons a as ih =>
    exact htrans _ _ _ (hvisit s a List.mem_cons_self)
      (ih (fun s b hb => hvisit s b (List.mem_cons_of_mem a hb)) _)

/-- **The rule of a pass that replaces.**  Every element is replaced by what its visit answers, and
a relation that the visits of the other elements respect relates the states at the beginning and
before that visit, and after it and at the end. -/
theorem getElem?_mapState_of_others {as : List α} {i : ℕ} {a : α} (hget : as[i]? = some a)
    (hvisit : ∀ s j b, j ≠ i → as[j]? = some b → R s (f s b).1) (s : σ) :
    ∃ s', R s s' ∧ (mapState f s as).2[i]? = some (f s' a).2 ∧
      R (f s' a).1 (mapState f s as).1 := by
  induction as generalizing s i with
  | nil => cases hget
  | cons b bs ih =>
    cases i with
    | zero =>
      cases hget
      refine ⟨s, hrefl s, rfl, mapState_state hrefl htrans (fun s c hc => ?_) _⟩
      obtain ⟨j, hj⟩ := List.getElem?_of_mem hc
      exact hvisit s (j + 1) c (Nat.succ_ne_zero j) hj
    | succ i =>
      have hrest : ∀ s j c, j ≠ i → bs[j]? = some c → R s (f s c).1 := fun s j c hne hj =>
        hvisit s (j + 1) c (fun heq => hne (Nat.succ.inj heq)) hj
      obtain ⟨s', hbefore, hanswer, hafter⟩ := ih hget hrest (f s b).1
      exact ⟨s', htrans _ _ _ (hvisit s 0 b (Nat.succ_ne_zero i).symm rfl) hbefore, hanswer, hafter⟩

/-- A relation that every visit respects relates the states around the visit of an element to the
ones at the beginning and at the end. -/
theorem getElem?_mapState {as : List α} (hvisit : ∀ s, ∀ a ∈ as, R s (f s a).1) (s : σ) {i : ℕ}
    {a : α} (hget : as[i]? = some a) :
    ∃ s', R s s' ∧ (mapState f s as).2[i]? = some (f s' a).2 ∧
      R (f s' a).1 (mapState f s as).1 :=
  getElem?_mapState_of_others hrefl htrans hget
    (fun s _ b _ hb => hvisit s b (List.mem_of_getElem? hb)) s

end Rule

end MapState

/-! ## A loop that may fail -/

/-- **The rule of a loop that may fail.**  If the loop ends well then a relation that every visit
respects relates the states before and after it. -/
theorem foldlM_rule {ε : Type*} {f : σ → α → Except ε σ} {R : σ → σ → Prop} (hrefl : ∀ s, R s s)
    (htrans : ∀ s t u, R s t → R t u → R s u) {as : List α}
    (hvisit : ∀ s t, ∀ a ∈ as, f s a = .ok t → R s t) {s t : σ}
    (h : as.foldlM f s = .ok t) : R s t := by
  induction as generalizing s with
  | nil =>
    cases h
    exact hrefl _
  | cons a as ih =>
    rw [List.foldlM_cons] at h
    cases hfirst : f s a with
    | error error =>
      rw [hfirst] at h
      cases h
    | ok u =>
      rw [hfirst] at h
      exact htrans s u t (hvisit s u a List.mem_cons_self hfirst)
        (ih (fun s t b hb => hvisit s t b (List.mem_cons_of_mem a hb)) h)

/-- A function that fails somewhere on a list does so after it did not on the elements before. -/
theorem foldlM_eq_error_iff {ε σ α : Type*} {f : σ → α → Except ε σ} {as : List α} {s : σ} :
    (∃ error, as.foldlM f s = .error error) ↔ ∃ before a after t, as = before ++ a :: after ∧
      before.foldlM f s = .ok t ∧ ∃ error, f t a = .error error := by
  induction as generalizing s with
  | nil =>
    constructor
    · rintro ⟨error, h⟩
      cases h
    · rintro ⟨before, a, after, t, h, -⟩
      simp at h
  | cons a as ih =>
    rw [List.foldlM_cons]
    cases hfirst : f s a with
    | error error =>
      refine iff_of_true ⟨error, rfl⟩ ⟨[], a, as, s, rfl, rfl, error, hfirst⟩
    | ok t =>
      change (∃ error, as.foldlM f t = .error error) ↔ _
      rw [ih]
      constructor
      · rintro ⟨before, b, after, v, rfl, hbefore, hpanic⟩
        refine ⟨a :: before, b, after, v, rfl, ?_, hpanic⟩
        rw [List.foldlM_cons, hfirst]
        exact hbefore
      · rintro ⟨before, b, after, v, heq, hbefore, hpanic⟩
        cases before with
        | nil =>
          obtain ⟨rfl, rfl⟩ := List.cons.inj heq
          cases hbefore
          rw [hfirst] at hpanic
          obtain ⟨error, hpanic⟩ := hpanic
          cases hpanic
        | cons c before =>
          obtain ⟨rfl, rfl⟩ := List.cons.inj heq
          rw [List.foldlM_cons, hfirst] at hbefore
          exact ⟨before, b, after, v, rfl, hbefore, hpanic⟩

/-- **The rule of a loop that may fail, with what was visited so far.**  If the loop ends well then an
invariant that every visit keeps holds at its end, when everything was visited. -/
theorem foldlM_visited {ε : Type*} {f : σ → α → Except ε σ} {I : List α → σ → Prop} {as : List α}
    {s t : σ} (hs : I [] s)
    (hvisit : ∀ visited a s t, I visited s → f s a = .ok t → I (visited ++ [a]) t)
    (h : as.foldlM f s = .ok t) : I as t := by
  suffices hall : ∀ visited, I visited s → I (visited ++ as) t from hall [] hs
  clear hs
  induction as generalizing s with
  | nil =>
    intro visited hvisited
    cases h
    rwa [List.append_nil]
  | cons a as ih =>
    intro visited hvisited
    rw [List.foldlM_cons] at h
    cases hfirst : f s a with
    | error error =>
      rw [hfirst] at h
      cases h
    | ok u =>
      rw [hfirst] at h
      have hrest := ih h (visited ++ [a]) (hvisit visited a s u hvisited hfirst)
      rwa [List.append_assoc, List.singleton_append] at hrest

end Vec
