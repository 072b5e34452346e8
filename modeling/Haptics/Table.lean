/-!
# Tables

A finite map kept as its entries, in the order in which the keys were first entered. What a table
holds is read through `get?`: `get?_insert` and `get?_erase` give the reading of every key after
each of the two updates.
-/

namespace Haptics

/-- A finite map from keys to values. -/
structure Table (κ ν : Type) where
  entries : List (κ × ν) := []
deriving DecidableEq, Repr

namespace Table

variable {κ ν : Type} [DecidableEq κ]

/-- The value of the first entry with the key. -/
def find (k : κ) : List (κ × ν) → Option ν
  | [] => none
  | (a, v) :: es => if a = k then some v else find k es

/-- The value entered under a key. -/
def get? (t : Table κ ν) (k : κ) : Option ν :=
  find k t.entries

/-- Whether a key has a value. -/
def contains (t : Table κ ν) (k : κ) : Bool :=
  (t.get? k).isSome

/-- The number of entries. -/
def size (t : Table κ ν) : Nat :=
  t.entries.length

/-- Enters a value under a key: in the place of the value already there, and at the end for a new
key. -/
def insert (t : Table κ ν) (k : κ) (v : ν) : Table κ ν :=
  if t.contains k then ⟨t.entries.map fun e => if e.1 = k then (k, v) else e⟩
  else ⟨t.entries ++ [(k, v)]⟩

/-- Removes a key and its value. -/
def erase (t : Table κ ν) (k : κ) : Table κ ν :=
  ⟨t.entries.filter fun e => e.1 ≠ k⟩

/-- Changes the value under a key, if there is one. -/
def modify (t : Table κ ν) (k : κ) (f : ν → ν) : Table κ ν :=
  ⟨t.entries.map fun e => if e.1 = k then (e.1, f e.2) else e⟩

/-! ## Readings -/

@[simp] theorem get?_empty (k : κ) : ({} : Table κ ν).get? k = none := rfl

theorem find_append (k : κ) (es es' : List (κ × ν)) :
    find k (es ++ es') = (find k es).or (find k es') := by
  induction es with
  | nil => rfl
  | cons e es ih => by_cases h : e.1 = k <;> simp [find, h, ih]

/-- What is replaced under a key is found there, and all else where it was. -/
theorem find_map_replace (k k' : κ) (v : ν) (es : List (κ × ν)) :
    find k' (es.map fun e => if e.1 = k then (k, v) else e) =
      if k' = k then (find k es).map (fun _ => v) else find k' es := by
  induction es with
  | nil => simp [find]
  | cons e es ih =>
    by_cases ha : e.1 = k <;> by_cases hk : k' = k <;> by_cases hak : e.1 = k' <;>
      simp_all [find]

/-- What is taken out of a list is not found, and all else is. -/
theorem find_filter (k k' : κ) (es : List (κ × ν)) :
    find k' (es.filter fun e => e.1 ≠ k) = if k' = k then none else find k' es := by
  induction es with
  | nil => simp [find]
  | cons e es ih =>
    by_cases ha : e.1 = k <;> by_cases hk : k' = k <;> simp_all [find]
    grind

theorem find_map_modify (k k' : κ) (f : ν → ν) (es : List (κ × ν)) :
    find k' (es.map fun e => if e.1 = k then (e.1, f e.2) else e) =
      if k' = k then (find k es).map f else find k' es := by
  induction es with
  | nil => simp [find]
  | cons e es ih =>
    by_cases ha : e.1 = k <;> by_cases hk : k' = k <;> by_cases hak : e.1 = k' <;>
      simp_all [find]

/-- After an entry every key reads as before, except the one entered. -/
theorem get?_insert (t : Table κ ν) (k k' : κ) (v : ν) :
    (t.insert k v).get? k' = if k' = k then some v else t.get? k' := by
  unfold insert contains get?
  split
  · rename_i h
    obtain ⟨w, hw⟩ := Option.isSome_iff_exists.1 h
    simp [find_map_replace, hw]
  · rename_i h
    have hn : find k t.entries = none := by simpa using h
    by_cases hk : k' = k
    · subst hk; simp [find_append, hn, find]
    · simp [find_append, find, hk, Ne.symm hk]

theorem get?_insert_self (t : Table κ ν) (k : κ) (v : ν) : (t.insert k v).get? k = some v := by
  rw [get?_insert, if_pos rfl]

/-- After a removal every key reads as before, except the one removed. -/
theorem get?_erase (t : Table κ ν) (k k' : κ) :
    (t.erase k).get? k' = if k' = k then none else t.get? k' :=
  find_filter k k' t.entries

/-- A change under one key leaves the readings of the others. -/
theorem get?_modify (t : Table κ ν) (k k' : κ) (f : ν → ν) :
    (t.modify k f).get? k' = if k' = k then (t.get? k).map f else t.get? k' :=
  find_map_modify k k' f t.entries

/-- After several entries a key reads as one of those made under it, or as before if there was
none. -/
theorem get?_foldl_insert {α : Type} {key : α → κ} {value : α → ν} {k : κ} {v : ν} (as : List α)
    (t : Table κ ν) (h : (as.foldl (fun t a => t.insert (key a) (value a)) t).get? k = some v) :
    (∃ a ∈ as, key a = k ∧ value a = v) ∨ (∀ a ∈ as, key a ≠ k) ∧ t.get? k = some v := by
  induction as generalizing t with
  | nil => exact Or.inr ⟨fun a ha => absurd ha List.not_mem_nil, h⟩
  | cons a as ih =>
    rcases ih (t.insert (key a) (value a)) h with ⟨b, hb, hkv⟩ | ⟨hnone, hread⟩
    · exact Or.inl ⟨b, List.mem_cons_of_mem a hb, hkv⟩
    · rw [get?_insert] at hread
      split at hread
      · rename_i hk
        exact Or.inl ⟨a, List.mem_cons_self, hk.symm, Option.some.inj hread⟩
      · rename_i hk
        refine Or.inr ⟨fun b hb => ?_, hread⟩
        rcases List.mem_cons.1 hb with rfl | hb
        · exact Ne.symm hk
        · exact hnone b hb

/-- Entries under other keys leave a key as it reads. -/
theorem get?_foldl_insert_of_not_mem {α : Type} {key : α → κ} {value : α → ν} {k : κ}
    {as : List α} (h : k ∉ as.map key) (t : Table κ ν) :
    (as.foldl (fun t a => t.insert (key a) (value a)) t).get? k = t.get? k := by
  induction as generalizing t with
  | nil => rfl
  | cons a as ih =>
    rw [List.map_cons, List.mem_cons, not_or] at h
    rw [List.foldl_cons, ih h.2, get?_insert, if_neg h.1]

/-- Of entries under different keys each is read. -/
theorem get?_foldl_insert_of_mem {α : Type} {key : α → κ} {value : α → ν} {as : List α} {a : α}
    (hn : (as.map key).Nodup) (ha : a ∈ as) (t : Table κ ν) :
    (as.foldl (fun t a => t.insert (key a) (value a)) t).get? (key a) = some (value a) := by
  induction as generalizing t with
  | nil => exact absurd ha List.not_mem_nil
  | cons b as ih =>
    rw [List.map_cons, List.nodup_cons] at hn
    rw [List.foldl_cons]
    rcases List.mem_cons.1 ha with rfl | ha
    · rw [get?_foldl_insert_of_not_mem hn.1, get?_insert_self]
    · exact ih hn.2 ha _

/-! ## Keys -/

/-- The keys of the entries. -/
def keys (t : Table κ ν) : List κ := t.entries.map Prod.fst

/-- Without repeated keys every entry is read. -/
theorem mem_entries_iff {t : Table κ ν} (h : t.keys.Nodup) {k : κ} {v : ν} :
    (k, v) ∈ t.entries ↔ t.get? k = some v := by
  obtain ⟨es⟩ := t
  unfold keys at h
  unfold get?
  dsimp only at h ⊢
  induction es with
  | nil => simp [find]
  | cons e es ih =>
    rw [List.map_cons, List.nodup_cons] at h
    rw [List.mem_cons, ih h.2, find]
    by_cases hk : e.1 = k
    · rw [if_pos hk]
      constructor
      · rintro (heq | hread)
        · rw [← heq]
        · -- a later entry with the key would repeat it
          have hmem := List.mem_map_of_mem (f := Prod.fst) ((ih h.2).2 hread)
          exact absurd (hk ▸ hmem) h.1
      · intro hv
        exact Or.inl (Prod.ext hk.symm (Option.some.inj hv).symm)
    · rw [if_neg hk]
      constructor
      · rintro (heq | hread)
        · exact absurd (congrArg Prod.fst heq).symm hk
        · exact hread
      · exact Or.inr

theorem contains_of_mem_keys {t : Table κ ν} {k : κ} (h : k ∈ t.keys) : t.contains k = true := by
  obtain ⟨es⟩ := t
  unfold contains get?
  unfold keys at h
  dsimp only at h ⊢
  induction es with
  | nil => cases h
  | cons e es ih =>
    rw [find]
    split
    · rfl
    · rename_i hk
      rcases List.mem_cons.1 h with heq | hmem
      · exact absurd heq.symm hk
      · exact ih hmem

theorem mem_keys_of_get? {t : Table κ ν} {k : κ} {v : ν} (h : t.get? k = some v) :
    k ∈ t.keys := by
  obtain ⟨es⟩ := t
  unfold get? at h
  unfold keys
  dsimp only at h ⊢
  induction es with
  | nil => cases h
  | cons e es ih =>
    rw [find] at h
    split at h
    · rename_i hk
      exact hk ▸ List.mem_cons_self
    · exact List.mem_cons_of_mem _ (ih h)

/-- An entry under a key that is there keeps the keys, and a new key comes last. -/
theorem keys_insert (t : Table κ ν) (k : κ) (v : ν) :
    (t.insert k v).keys = if t.contains k then t.keys else t.keys ++ [k] := by
  unfold insert keys
  split
  · rw [List.map_map]
    refine List.map_congr_left fun e _ => ?_
    by_cases hk : e.1 = k <;> simp [hk]
  · exact List.map_append

theorem nodup_keys_insert {t : Table κ ν} (h : t.keys.Nodup) (k : κ) (v : ν) :
    (t.insert k v).keys.Nodup := by
  rw [keys_insert]
  split
  · exact h
  · rename_i hnew
    refine List.nodup_append.2 ⟨h, List.nodup_cons.2 ⟨List.not_mem_nil, .nil⟩, ?_⟩
    rintro a ha b hb rfl
    rw [List.mem_singleton.1 hb] at ha
    exact hnew (contains_of_mem_keys ha)

theorem nodup_keys_erase {t : Table κ ν} (h : t.keys.Nodup) (k : κ) : (t.erase k).keys.Nodup :=
  (List.filter_sublist.map Prod.fst).nodup h

end Table

end Haptics
