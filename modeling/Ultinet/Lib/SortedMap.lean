import Mathlib

/-!
# Ordered maps as sorted lists of entries

A map from an ordered type of keys, kept as the list of its entries in strictly ascending order of
their keys.  Besides lookup, insertion and removal there is `retainState`: visit the entries in
order, carrying a state along, and replace or drop each of them.

`retainState_invariant` is the rule by which a pass over the map is verified: a relation between the
carried state and the map that is preserved by updating one entry is preserved by the whole pass.
-/

/-- A finite map, as the list of its entries in ascending order of their keys. -/
structure SortedMap (κ : Type*) (ν : Type*) [LinearOrder κ] where
  entries : List (κ × ν)
  sorted : (entries.map Prod.fst).Pairwise (· < ·)

namespace SortedMap

variable {κ ν σ : Type*} [LinearOrder κ]

/-! ## Lookup, insertion, removal -/

/-- The value of a key in a list of entries. -/
def lookupEntry (k : κ) : List (κ × ν) → Option ν
  | [] => none
  | (k', v) :: es => if k' = k then some v else lookupEntry k es

/-- Put an entry at its place in a sorted list of entries, replacing one with the same key. -/
def insertEntry (k : κ) (v : ν) : List (κ × ν) → List (κ × ν)
  | [] => [(k, v)]
  | (k', v') :: es =>
      if k < k' then (k, v) :: (k', v') :: es
      else if k' = k then (k, v) :: es
      else (k', v') :: insertEntry k v es

/-- The empty map. -/
def empty : SortedMap κ ν where
  entries := []
  sorted := List.Pairwise.nil

/-- The value of a key. -/
def get? (m : SortedMap κ ν) (k : κ) : Option ν :=
  lookupEntry k m.entries

theorem mem_keys_insertEntry {k x : κ} {v : ν} {es : List (κ × ν)} :
    x ∈ (insertEntry k v es).map Prod.fst ↔ x = k ∨ x ∈ es.map Prod.fst := by
  induction es with
  | nil => simp [insertEntry]
  | cons e es ih =>
    obtain ⟨k', v'⟩ := e
    unfold insertEntry
    split_ifs with hlt heq
    · simp
    · subst heq
      simp
    · rw [List.map_cons, List.mem_cons, ih, List.map_cons, List.mem_cons]
      tauto

theorem pairwise_insertEntry {k : κ} {v : ν} {es : List (κ × ν)}
    (h : (es.map Prod.fst).Pairwise (· < ·)) :
    ((insertEntry k v es).map Prod.fst).Pairwise (· < ·) := by
  induction es with
  | nil => simp [insertEntry]
  | cons e es ih =>
    obtain ⟨k', v'⟩ := e
    rw [List.map_cons, List.pairwise_cons] at h
    obtain ⟨hhead, htail⟩ := h
    unfold insertEntry
    split_ifs with hlt heq
    · simp only [List.map_cons, List.pairwise_cons, List.mem_cons, forall_eq_or_imp]
      exact ⟨⟨hlt, fun x hx => hlt.trans (hhead x hx)⟩, hhead, htail⟩
    · subst heq
      simp only [List.map_cons, List.pairwise_cons]
      exact ⟨hhead, htail⟩
    · rw [List.map_cons, List.pairwise_cons]
      refine ⟨fun x hx => ?_, ih htail⟩
      rcases mem_keys_insertEntry.mp hx with rfl | hx
      · exact lt_of_le_of_ne (not_lt.mp hlt) heq
      · exact hhead x hx

/-- Insert a value, replacing the one the key had. -/
def insert (m : SortedMap κ ν) (k : κ) (v : ν) : SortedMap κ ν where
  entries := insertEntry k v m.entries
  sorted := pairwise_insertEntry m.sorted

/-- Remove a key. -/
def erase (m : SortedMap κ ν) (k : κ) : SortedMap κ ν where
  entries := m.entries.filter fun e => e.1 ≠ k
  sorted := m.sorted.sublist (List.filter_sublist.map Prod.fst)

/-- Set a key to a value, or remove it. -/
def update (m : SortedMap κ ν) (k : κ) : Option ν → SortedMap κ ν
  | some v => m.insert k v
  | none => m.erase k

@[simp] theorem get?_empty (k : κ) : (empty : SortedMap κ ν).get? k = none := rfl

theorem lookupEntry_insertEntry (k x : κ) (v : ν) (es : List (κ × ν)) :
    lookupEntry x (insertEntry k v es) = if x = k then some v else lookupEntry x es := by
  induction es with
  | nil => simp [insertEntry, lookupEntry, eq_comm]
  | cons e es ih =>
    obtain ⟨k', v'⟩ := e
    unfold insertEntry
    split_ifs with hlt heq hx hx hx <;> simp_all [lookupEntry, eq_comm]

theorem get?_insert (m : SortedMap κ ν) (k x : κ) (v : ν) :
    (m.insert k v).get? x = if x = k then some v else m.get? x :=
  lookupEntry_insertEntry k x v m.entries

@[simp] theorem get?_insert_self (m : SortedMap κ ν) (k : κ) (v : ν) :
    (m.insert k v).get? k = some v := by
  simp [get?_insert]

theorem get?_insert_of_ne {m : SortedMap κ ν} {k x : κ} {v : ν} (h : x ≠ k) :
    (m.insert k v).get? x = m.get? x := by
  simp [get?_insert, h]

theorem lookupEntry_filter_ne (k x : κ) (es : List (κ × ν)) :
    lookupEntry x (es.filter fun e => e.1 ≠ k) = if x = k then none else lookupEntry x es := by
  induction es with
  | nil => simp [lookupEntry]
  | cons e es ih =>
    obtain ⟨k', v'⟩ := e
    by_cases hk : k' = k
    · subst hk
      rw [List.filter_cons_of_neg (by simp), ih]
      by_cases hx : x = k' <;> simp [lookupEntry, hx, eq_comm]
    · rw [List.filter_cons_of_pos (by simpa using hk)]
      by_cases hx : k' = x
      · subst hx
        simp [lookupEntry, hk]
      · simp only [lookupEntry, if_neg hx]
        exact ih

theorem mem_of_lookupEntry {k : κ} {v : ν} {es : List (κ × ν)} (h : lookupEntry k es = some v) :
    (k, v) ∈ es := by
  induction es with
  | nil => cases h
  | cons e es ih =>
    obtain ⟨k', v'⟩ := e
    rw [lookupEntry] at h
    split_ifs at h with hk
    · subst hk
      cases h
      exact List.mem_cons_self
    · exact List.mem_cons_of_mem _ (ih h)

/-- A value that is found belongs to an entry. -/
theorem mem_entries_of_get? {m : SortedMap κ ν} {k : κ} {v : ν} (h : m.get? k = some v) :
    (k, v) ∈ m.entries :=
  mem_of_lookupEntry h

theorem get?_erase (m : SortedMap κ ν) (k x : κ) :
    (m.erase k).get? x = if x = k then none else m.get? x :=
  lookupEntry_filter_ne k x m.entries

theorem get?_update (m : SortedMap κ ν) (k x : κ) (o : Option ν) :
    (m.update k o).get? x = if x = k then o else m.get? x := by
  cases o with
  | none => exact get?_erase m k x
  | some v => exact get?_insert m k x v

@[simp] theorem get?_update_self (m : SortedMap κ ν) (k : κ) (o : Option ν) :
    (m.update k o).get? k = o := by
  simp [get?_update]

theorem get?_update_of_ne {m : SortedMap κ ν} {k x : κ} {o : Option ν} (h : x ≠ k) :
    (m.update k o).get? x = m.get? x := by
  simp [get?_update, h]

/-! ## A pass over the entries -/

/-- Visit a list of entries in order, carrying a state along.  The visit of an entry answers with
its new value, or with `none` to drop it. -/
def retainEntries (f : σ → κ → ν → σ × Option ν) : σ → List (κ × ν) → σ × List (κ × ν)
  | s, [] => (s, [])
  | s, (k, v) :: es =>
      let visited := f s k v
      let rest := retainEntries f visited.1 es
      (rest.1, match visited.2 with
        | some v' => (k, v') :: rest.2
        | none => rest.2)

omit [LinearOrder κ] in
theorem retainEntries_keys_sublist (f : σ → κ → ν → σ × Option ν) (s : σ) (es : List (κ × ν)) :
    ((retainEntries f s es).2.map Prod.fst).Sublist (es.map Prod.fst) := by
  induction es generalizing s with
  | nil => simp [retainEntries]
  | cons e es ih =>
    obtain ⟨k, v⟩ := e
    simp only [retainEntries]
    cases (f s k v).2 with
    | none => exact (ih _).cons k
    | some v' => exact (ih _).cons_cons k

/-- Visit the entries of a map in order of their keys, carrying a state along. -/
def retainState (f : σ → κ → ν → σ × Option ν) (s : σ) (m : SortedMap κ ν) :
    σ × SortedMap κ ν :=
  ((retainEntries f s m.entries).1,
    { entries := (retainEntries f s m.entries).2
      sorted := m.sorted.sublist (retainEntries_keys_sublist f s m.entries) })

/-- Keep the entries that satisfy a predicate. -/
def retain (p : κ → ν → Bool) (m : SortedMap κ ν) : SortedMap κ ν where
  entries := m.entries.filter fun e => p e.1 e.2
  sorted := m.sorted.sublist (List.filter_sublist.map Prod.fst)

theorem lookupEntry_eq_none {x : κ} {es : List (κ × ν)} (h : x ∉ es.map Prod.fst) :
    lookupEntry x es = none := by
  induction es with
  | nil => rfl
  | cons e es ih =>
    obtain ⟨k, v⟩ := e
    simp only [List.map_cons, List.mem_cons, not_or] at h
    rw [lookupEntry, if_neg (Ne.symm h.1), ih h.2]

theorem lookupEntry_filter (p : κ → ν → Bool) (k : κ) {es : List (κ × ν)}
    (hs : (es.map Prod.fst).Pairwise (· < ·)) :
    lookupEntry k (es.filter fun e => p e.1 e.2) = (lookupEntry k es).filter (p k) := by
  induction es with
  | nil => simp [lookupEntry]
  | cons e es ih =>
    obtain ⟨k', v'⟩ := e
    rw [List.map_cons, List.pairwise_cons] at hs
    specialize ih hs.2
    by_cases hk : k' = k
    · subst hk
      have habsent : k' ∉ es.map Prod.fst := fun hmem => lt_irrefl _ (hs.1 _ hmem)
      have hnone : lookupEntry k' (es.filter fun e => p e.1 e.2) = none :=
        lookupEntry_eq_none fun hmem => habsent ((List.filter_sublist.map Prod.fst).subset hmem)
      cases hp : p k' v' <;> simp [lookupEntry, hp, hnone, Option.filter]
    · cases hp : p k' v' <;> simp [lookupEntry, hp, hk, ih]

theorem get?_retain (p : κ → ν → Bool) (m : SortedMap κ ν) (k : κ) :
    (m.retain p).get? k = (m.get? k).filter (p k) :=
  lookupEntry_filter p k m.sorted

theorem insertEntry_eq_self {k : κ} {v : ν} {es : List (κ × ν)}
    (hs : (es.map Prod.fst).Pairwise (· < ·)) (h : lookupEntry k es = some v) :
    insertEntry k v es = es := by
  induction es with
  | nil => cases h
  | cons e es ih =>
    obtain ⟨k', v'⟩ := e
    rw [List.map_cons, List.pairwise_cons] at hs
    by_cases heq : k' = k
    · subst heq
      rw [lookupEntry, if_pos rfl] at h
      cases h
      rw [insertEntry, if_neg (lt_irrefl k'), if_pos rfl]
    · rw [lookupEntry, if_neg heq] at h
      -- the key is found behind the first entry, so it comes after it
      have hmem : k ∈ es.map Prod.fst := by
        by_contra hnot
        rw [lookupEntry_eq_none hnot] at h
        cases h
      have hlt : k' < k := hs.1 k hmem
      rw [insertEntry, if_neg (lt_asymm hlt), if_neg heq, ih hs.2 h]

/-- Inserting changes nothing exactly if the key has that value already. -/
theorem insert_eq_self_iff {m : SortedMap κ ν} {k : κ} {v : ν} :
    m.insert k v = m ↔ m.get? k = some v := by
  constructor
  · intro h
    rw [← h]
    exact get?_insert_self m k v
  · intro h
    obtain ⟨entries, sorted⟩ := m
    simp only [insert, mk.injEq]
    exact insertEntry_eq_self sorted h

/-! ### Updating an entry in the middle -/

section Middle

variable {k : κ} {v : ν} {visited todo : List (κ × ν)}

theorem lookupEntry_middle (hvisited : ∀ a ∈ visited.map Prod.fst, a < k) :
    lookupEntry k (visited ++ (k, v) :: todo) = some v := by
  induction visited with
  | nil => simp [lookupEntry]
  | cons e visited ih =>
    have he : e.1 ≠ k := (hvisited e.1 (by simp)).ne
    rw [List.cons_append, lookupEntry, if_neg he]
    exact ih fun a ha => hvisited a (by simp [ha])

theorem insertEntry_middle (v' : ν) (hvisited : ∀ a ∈ visited.map Prod.fst, a < k) :
    insertEntry k v' (visited ++ (k, v) :: todo) = visited ++ (k, v') :: todo := by
  induction visited with
  | nil => simp [insertEntry]
  | cons e visited ih =>
    have he : e.1 < k := hvisited e.1 (by simp)
    rw [List.cons_append, insertEntry, if_neg he.not_gt, if_neg he.ne, List.cons_append,
      ih fun a ha => hvisited a (by simp [ha])]

theorem filter_ne_middle (hvisited : ∀ a ∈ visited.map Prod.fst, a < k)
    (htodo : ∀ a ∈ todo.map Prod.fst, k < a) :
    ((visited ++ (k, v) :: todo).filter fun e => e.1 ≠ k) = visited ++ todo := by
  rw [List.filter_append, List.filter_cons_of_neg (by simp),
    List.filter_eq_self.mpr fun e he => by
      simpa using (hvisited e.1 (List.mem_map_of_mem he)).ne,
    List.filter_eq_self.mpr fun e he => by
      simpa using (htodo e.1 (List.mem_map_of_mem he)).ne']

/-- The entries after updating the entry that follows the ones already visited. -/
theorem update_middle_entries (o : Option ν)
    (hsorted : ((visited ++ (k, v) :: todo).map Prod.fst).Pairwise (· < ·)) :
    ((⟨visited ++ (k, v) :: todo, hsorted⟩ : SortedMap κ ν).update k o).entries =
      visited ++ (o.map (Prod.mk k)).toList ++ todo := by
  have hsplit := hsorted
  rw [List.map_append, List.map_cons, List.pairwise_append, List.pairwise_cons] at hsplit
  obtain ⟨-, ⟨htodo, -⟩, hcross⟩ := hsplit
  have hvisited : ∀ a ∈ visited.map Prod.fst, a < k :=
    fun a ha => hcross a ha k List.mem_cons_self
  cases o with
  | none => simpa [update, erase] using filter_ne_middle (v := v) hvisited htodo
  | some v' => simpa [update, insert] using insertEntry_middle v' hvisited

end Middle

/-- The pass rule on lists: the entries already visited, followed by the ones still to visit, form
a map all along the pass. -/
theorem retainEntries_invariant {f : σ → κ → ν → σ × Option ν} {I : σ → SortedMap κ ν → Prop}
    (hvisit : ∀ s m k v, I s m → m.get? k = some v → I (f s k v).1 (m.update k (f s k v).2))
    (todo visited : List (κ × ν)) (s : σ)
    (hsorted : ((visited ++ todo).map Prod.fst).Pairwise (· < ·))
    (hI : I s ⟨visited ++ todo, hsorted⟩) :
    ∃ hsorted', I (retainEntries f s todo).1 ⟨visited ++ (retainEntries f s todo).2, hsorted'⟩ := by
  induction todo generalizing visited s with
  | nil => exact ⟨hsorted, hI⟩
  | cons e todo ih =>
    obtain ⟨k, v⟩ := e
    have hget : (⟨visited ++ (k, v) :: todo, hsorted⟩ : SortedMap κ ν).get? k = some v := by
      refine lookupEntry_middle fun a ha => ?_
      have hcross := hsorted
      rw [List.map_append, List.pairwise_append] at hcross
      exact hcross.2.2 a ha k (by simp)
    have hstep := hvisit s _ k v hI hget
    have hentries := update_middle_entries (f s k v).2 hsorted
    have hsorted' : ((visited ++ ((f s k v).2.map (Prod.mk k)).toList ++ todo).map
        Prod.fst).Pairwise (· < ·) := hentries ▸ SortedMap.sorted _
    have heq : (⟨visited ++ (k, v) :: todo, hsorted⟩ : SortedMap κ ν).update k (f s k v).2 =
        ⟨visited ++ ((f s k v).2.map (Prod.mk k)).toList ++ todo, hsorted'⟩ := by
      rw [SortedMap.mk.injEq]
      exact hentries
    rw [heq] at hstep
    obtain ⟨hs', h'⟩ := ih (visited ++ ((f s k v).2.map (Prod.mk k)).toList) _ hsorted' hstep
    have hrest : visited ++ ((f s k v).2.map (Prod.mk k)).toList ++
        (retainEntries f (f s k v).1 todo).2 =
        visited ++ (retainEntries f s ((k, v) :: todo)).2 := by
      simp only [retainEntries]
      cases (f s k v).2 <;> simp
    simp only [hrest] at hs' h'
    exact ⟨hs', h'⟩

/-- **Pass rule.**  A relation between the carried state and the map that holds before the pass and
is preserved by each visit, read as an update of the one entry it visits, holds after the pass. -/
theorem retainState_invariant {f : σ → κ → ν → σ × Option ν} {I : σ → SortedMap κ ν → Prop}
    (hvisit : ∀ s m k v, I s m → m.get? k = some v → I (f s k v).1 (m.update k (f s k v).2))
    {s : σ} {m : SortedMap κ ν} (hI : I s m) :
    I (m.retainState f s).1 (m.retainState f s).2 := by
  obtain ⟨_, h⟩ := retainEntries_invariant hvisit m.entries [] s m.sorted hI
  exact h

section Relation

variable {f : σ → κ → ν → σ × Option ν} {R : σ → σ → Prop}

omit [LinearOrder κ] in
/-- A relation that the visits of all entries respect relates the states before and after a pass. -/
theorem retainEntries_state (hrefl : ∀ s, R s s) (htrans : ∀ s t u, R s t → R t u → R s u)
    {es : List (κ × ν)} (hvisit : ∀ e ∈ es, ∀ s, R s (f s e.1 e.2).1) (s : σ) :
    R s (retainEntries f s es).1 := by
  induction es generalizing s with
  | nil => exact hrefl s
  | cons e es ih =>
    exact htrans _ _ _ (hvisit e List.mem_cons_self s)
      (ih (fun e' he' => hvisit e' (List.mem_cons_of_mem _ he')) _)

/-- What a pass makes of one entry, and a relation that the visits of all other entries respect, on
lists. -/
theorem lookupEntry_retainEntries (hrefl : ∀ s, R s s) (htrans : ∀ s t u, R s t → R t u → R s u)
    {es : List (κ × ν)} (hsorted : (es.map Prod.fst).Pairwise (· < ·)) {k : κ} {v : ν}
    (hvisit : ∀ e ∈ es, e.1 ≠ k → ∀ s, R s (f s e.1 e.2).1) (s : σ)
    (hget : lookupEntry k es = some v) :
    ∃ s', R s s' ∧ lookupEntry k (retainEntries f s es).2 = (f s' k v).2 ∧
      R (f s' k v).1 (retainEntries f s es).1 := by
  induction es generalizing s with
  | nil => cases hget
  | cons e es ih =>
    obtain ⟨k', v'⟩ := e
    rw [List.map_cons, List.pairwise_cons] at hsorted
    rw [lookupEntry] at hget
    split_ifs at hget with hk
    · subst hk
      cases hget
      -- the key does not occur again
      have hne : ∀ e ∈ es, e.1 ≠ k' := fun e he heq =>
        lt_irrefl k' (hsorted.1 k' (heq ▸ List.mem_map_of_mem he))
      refine ⟨s, hrefl s, ?_, retainEntries_state hrefl htrans
        (fun e he => hvisit e (List.mem_cons_of_mem _ he) (hne e he)) _⟩
      have hrest : lookupEntry k' (retainEntries f (f s k' v).1 es).2 = none := by
        refine lookupEntry_eq_none fun hmem => ?_
        have hmem' := (retainEntries_keys_sublist f (f s k' v).1 es).subset hmem
        exact lt_irrefl _ (hsorted.1 k' hmem')
      simp only [retainEntries]
      cases (f s k' v).2 with
      | none => exact hrest
      | some v'' => simp [lookupEntry]
    · obtain ⟨s', hbefore, heq, hafter⟩ := ih hsorted.2
        (fun e he => hvisit e (List.mem_cons_of_mem _ he)) (f s k' v').1 hget
      refine ⟨s', htrans _ _ _ (hvisit (k', v') List.mem_cons_self hk s) hbefore, ?_, hafter⟩
      rw [← heq]
      simp only [retainEntries]
      cases (f s k' v').2 with
      | none => rfl
      | some v'' => simp [lookupEntry, hk]

theorem get?_of_mem_entries {m : SortedMap κ ν} {k : κ} {v : ν} (h : (k, v) ∈ m.entries) :
    m.get? k = some v := by
  obtain ⟨before, after, heq⟩ := List.append_of_mem h
  have hsorted := m.sorted
  rw [heq, List.map_append, List.pairwise_append] at hsorted
  rw [get?, heq]
  exact lookupEntry_middle fun a ha => hsorted.2.2 a ha k (by simp)

/-- What a pass makes of one entry, and a relation that the visits of all other entries respect. -/
theorem get?_retainState_of_others (hrefl : ∀ s, R s s) (htrans : ∀ s t u, R s t → R t u → R s u)
    {m : SortedMap κ ν} {k : κ} (hvisit : ∀ k' v, m.get? k' = some v → k' ≠ k → ∀ s, R s (f s k' v).1)
    (s : σ) {v : ν} (hget : m.get? k = some v) :
    ∃ s', R s s' ∧ (m.retainState f s).2.get? k = (f s' k v).2 ∧
      R (f s' k v).1 (m.retainState f s).1 :=
  lookupEntry_retainEntries hrefl htrans m.sorted
    (fun e he => hvisit e.1 e.2 (get?_of_mem_entries he)) s hget

/-- **What a pass makes of one entry.**  It is visited once, and a relation that every visit respects
relates the states at the beginning, around that visit and at the end. -/
theorem get?_retainState (hrefl : ∀ s, R s s) (htrans : ∀ s t u, R s t → R t u → R s u)
    (hvisit : ∀ s k v, R s (f s k v).1) {m : SortedMap κ ν} (s : σ) {k : κ} {v : ν}
    (hget : m.get? k = some v) :
    ∃ s', R s s' ∧ (m.retainState f s).2.get? k = (f s' k v).2 ∧
      R (f s' k v).1 (m.retainState f s).1 :=
  get?_retainState_of_others hrefl htrans (fun k' v' _ _ s => hvisit s k' v') s hget

/-- A relation that the visits of all entries respect relates the states before and after a pass over a
map. -/
theorem retainState_state_of_entries (hrefl : ∀ s, R s s)
    (htrans : ∀ s t u, R s t → R t u → R s u) {m : SortedMap κ ν}
    (hvisit : ∀ k v, m.get? k = some v → ∀ s, R s (f s k v).1) (s : σ) :
    R s (m.retainState f s).1 :=
  retainEntries_state hrefl htrans (fun e he => hvisit e.1 e.2 (get?_of_mem_entries he)) s

/-- A relation that every visit respects relates the states before and after a pass over a map. -/
theorem retainState_state (hrefl : ∀ s, R s s) (htrans : ∀ s t u, R s t → R t u → R s u)
    (hvisit : ∀ s k v, R s (f s k v).1) (s : σ) (m : SortedMap κ ν) :
    R s (m.retainState f s).1 :=
  retainState_state_of_entries hrefl htrans (fun k v _ s => hvisit s k v) s

end Relation

/-! ### The state in which an entry is visited -/

section StateAt

variable (f : σ → κ → ν → σ × Option ν)

/-- The state in which the entry of a key is visited, on lists. -/
def stateBefore (k : κ) : σ → List (κ × ν) → σ
  | s, [] => s
  | s, (k', v) :: es => if k' = k then s else stateBefore k (f s k' v).1 es

/-- The state in which a pass over a map visits the entry of a key. -/
def stateAt (s : σ) (m : SortedMap κ ν) (k : κ) : σ :=
  stateBefore f k s m.entries

variable {f}

theorem lookupEntry_retainEntries_eq {es : List (κ × ν)}
    (hsorted : (es.map Prod.fst).Pairwise (· < ·)) (s : σ) (k : κ) :
    lookupEntry k (retainEntries f s es).2 =
      (lookupEntry k es).bind fun v => (f (stateBefore f k s es) k v).2 := by
  induction es generalizing s with
  | nil => rfl
  | cons e es ih =>
    obtain ⟨k', v'⟩ := e
    rw [List.map_cons, List.pairwise_cons] at hsorted
    by_cases hk : k' = k
    · subst hk
      -- the key does not occur again
      have hrest : lookupEntry k' (retainEntries f (f s k' v').1 es).2 = none := by
        refine lookupEntry_eq_none fun hmem => ?_
        have hmem' := (retainEntries_keys_sublist f (f s k' v').1 es).subset hmem
        exact lt_irrefl _ (hsorted.1 k' hmem')
      simp only [retainEntries, lookupEntry, stateBefore, if_true, Option.bind_some]
      cases (f s k' v').2 with
      | none => exact hrest
      | some v'' => simp [lookupEntry]
    · simp only [retainEntries, lookupEntry, stateBefore, if_neg hk]
      rw [← ih hsorted.2]
      cases (f s k' v').2 with
      | none => rfl
      | some v'' => simp [lookupEntry, hk]

/-- **A pass makes of an entry what its visit answers.** -/
theorem get?_retainState_eq (m : SortedMap κ ν) (s : σ) (k : κ) :
    (m.retainState f s).2.get? k = (m.get? k).bind fun v => (f (m.stateAt f s k) k v).2 :=
  lookupEntry_retainEntries_eq m.sorted s k

end StateAt

end SortedMap
