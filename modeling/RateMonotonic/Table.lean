/-
**Tables**: finite maps that list their keys in the order in which they were first stored.

A table is a list of key–value pairs in which no key occurs twice.  Storing under a present key
replaces its value where it stands, storing under a new key appends, and erasing keeps the order
of the rest.  The view through which everything else reasons is `Table.get?`.

Main definitions:
* `Table` — the pairs, with the proof that the keys are distinct;
* `Table.get?`, `Table.insert`, `Table.erase` — the map operations.

Main results:
* `Table.get?_insert`, `Table.get?_erase` — the two equations of a finite map;
* `Table.mem_keys_iff` — a key is listed exactly when it has a value;
* `Table.erase_insert` — storing under a new key is undone by erasing it.
-/

set_option relaxedAutoImplicit false
set_option autoImplicit false

namespace RateMonotonic

variable {κ α : Type} [DecidableEq κ]

namespace Pairs

/-- The value stored under a key in a list of pairs. -/
def get? (k : κ) : List (κ × α) → Option α
  | [] => none
  | (j, v) :: rest => if j = k then some v else get? k rest

/-- Replace the value of a present key where it stands, append a new key at the end. -/
def put (k : κ) (v : α) : List (κ × α) → List (κ × α)
  | [] => [(k, v)]
  | (j, w) :: rest => if j = k then (k, v) :: rest else (j, w) :: put k v rest

/-- Leave out the pair of a key. -/
def drop (k : κ) : List (κ × α) → List (κ × α)
  | [] => []
  | (j, w) :: rest => if j = k then rest else (j, w) :: drop k rest

theorem mem_keys_put {k j : κ} {v : α} {l : List (κ × α)} :
    j ∈ (put k v l).map Prod.fst ↔ j = k ∨ j ∈ l.map Prod.fst := by
  induction l with
  | nil => simp [put]
  | cons p rest ih =>
      obtain ⟨i, w⟩ := p
      by_cases h : i = k
      · simp [put, h]
      · simp only [put, h, if_false, List.map_cons, List.mem_cons, ih]
        constructor <;> rintro (h | h | h) <;> simp [h]

theorem nodup_put {k : κ} {v : α} {l : List (κ × α)} (h : (l.map Prod.fst).Nodup) :
    ((put k v l).map Prod.fst).Nodup := by
  induction l with
  | nil => simp [put]
  | cons p rest ih =>
      obtain ⟨i, w⟩ := p
      simp only [List.map_cons, List.nodup_cons] at h
      by_cases hi : i = k
      · simp only [put, hi, if_true, List.map_cons, List.nodup_cons]
        exact ⟨hi ▸ h.1, h.2⟩
      · simp only [put, hi, if_false, List.map_cons, List.nodup_cons]
        refine ⟨fun hm => ?_, ih h.2⟩
        rcases mem_keys_put.1 hm with hm | hm
        · exact hi hm
        · exact h.1 hm

theorem mem_keys_of_mem_drop {k j : κ} {l : List (κ × α)} (h : j ∈ (drop k l).map Prod.fst) :
    j ∈ l.map Prod.fst := by
  induction l with
  | nil => simp [drop] at h
  | cons p rest ih =>
      obtain ⟨i, w⟩ := p
      by_cases hi : i = k
      · simp only [drop, hi, if_true] at h
        simp only [List.map_cons, List.mem_cons]
        exact Or.inr h
      · simp only [drop, hi, if_false, List.map_cons, List.mem_cons] at h ⊢
        exact h.imp id ih

theorem nodup_drop {k : κ} {l : List (κ × α)} (h : (l.map Prod.fst).Nodup) :
    ((drop k l).map Prod.fst).Nodup := by
  induction l with
  | nil => simp [drop]
  | cons p rest ih =>
      obtain ⟨i, w⟩ := p
      simp only [List.map_cons, List.nodup_cons] at h
      by_cases hi : i = k
      · simpa only [drop, hi, if_true] using h.2
      · simp only [drop, hi, if_false, List.map_cons, List.nodup_cons]
        exact ⟨fun hm => h.1 (mem_keys_of_mem_drop hm), ih h.2⟩

end Pairs

/-- A finite map, listing its keys in the order in which they were first stored. -/
structure Table (κ α : Type) [DecidableEq κ] where
  /-- The pairs, oldest key first. -/
  pairs : List (κ × α)
  /-- No key occurs twice. -/
  distinct : (pairs.map Prod.fst).Nodup

namespace Table

/-- The table without keys. -/
def empty : Table κ α := ⟨[], by simp⟩

instance : Inhabited (Table κ α) := ⟨empty⟩

/-- The value stored under a key. -/
def get? (t : Table κ α) (k : κ) : Option α := Pairs.get? k t.pairs

/-- Whether a key has a value. -/
def contains (t : Table κ α) (k : κ) : Bool := (t.get? k).isSome

/-- Store a value: in place of the old one if the key is present, else at the end. -/
def insert (t : Table κ α) (k : κ) (v : α) : Table κ α :=
  ⟨Pairs.put k v t.pairs, Pairs.nodup_put t.distinct⟩

/-- Remove a key; the order of the others stays. -/
def erase (t : Table κ α) (k : κ) : Table κ α :=
  ⟨Pairs.drop k t.pairs, Pairs.nodup_drop t.distinct⟩

/-- The keys, oldest first. -/
def keys (t : Table κ α) : List κ := t.pairs.map Prod.fst

/-- The values in the order of their keys. -/
def values (t : Table κ α) : List α := t.pairs.map Prod.snd

/-- The number of keys. -/
def size (t : Table κ α) : Nat := t.pairs.length

/-- The table that stores the pairs of a list one after the other. -/
def ofList (l : List (κ × α)) : Table κ α := l.foldl (fun t p => t.insert p.1 p.2) empty

/-! ### The equations of a finite map -/

@[simp] theorem get?_empty (k : κ) : (empty : Table κ α).get? k = none := rfl

theorem get?_insert (t : Table κ α) (k j : κ) (v : α) :
    (t.insert k v).get? j = if k = j then some v else t.get? j := by
  show Pairs.get? j (Pairs.put k v t.pairs) = if k = j then some v else Pairs.get? j t.pairs
  induction t.pairs with
  | nil => rfl
  | cons p rest ih =>
      obtain ⟨i, w⟩ := p
      by_cases hi : i = k
      · subst hi
        by_cases hj : i = j <;> simp [Pairs.put, Pairs.get?, hj]
      · by_cases hj : i = j
        · subst hj
          simp [Pairs.put, Pairs.get?, hi, Ne.symm hi]
        · simp only [Pairs.put, hi, if_false, Pairs.get?, hj, ih]

theorem get?_insert_of_ne (t : Table κ α) {k j : κ} (h : k ≠ j) (v : α) :
    (t.insert k v).get? j = t.get? j := by
  simp [get?_insert, h]

theorem mem_keys_iff {t : Table κ α} {k : κ} : k ∈ t.keys ↔ ∃ v, t.get? k = some v := by
  show k ∈ t.pairs.map Prod.fst ↔ ∃ v, Pairs.get? k t.pairs = some v
  induction t.pairs with
  | nil => simp [Pairs.get?]
  | cons p rest ih =>
      obtain ⟨i, w⟩ := p
      by_cases h : i = k
      · simp [Pairs.get?, h]
      · simp only [Pairs.get?, h, if_false, List.map_cons, List.mem_cons, ih, Ne.symm h, false_or]

theorem get?_erase (t : Table κ α) (k j : κ) :
    (t.erase k).get? j = if k = j then none else t.get? j := by
  obtain ⟨l, hl⟩ := t
  show Pairs.get? j (Pairs.drop k l) = if k = j then none else Pairs.get? j l
  induction l with
  | nil => simp [Pairs.drop, Pairs.get?]
  | cons p rest ih =>
      obtain ⟨i, w⟩ := p
      simp only [List.map_cons, List.nodup_cons] at hl
      by_cases hi : i = k
      · subst hi
        by_cases hj : i = j
        · subst hj
          have hnone : Pairs.get? i rest = none := by
            rw [Option.eq_none_iff_forall_ne_some]
            intro v hv
            exact hl.1 ((mem_keys_iff (t := ⟨rest, hl.2⟩)).2 ⟨v, hv⟩)
          simp [Pairs.drop, hnone]
        · simp [Pairs.drop, Pairs.get?, hj]
      · by_cases hj : i = j
        · subst hj
          simp [Pairs.drop, Pairs.get?, hi, Ne.symm hi]
        · simp only [Pairs.drop, hi, if_false, Pairs.get?, hj, ih hl.2]

theorem get?_of_mem_pairs {t : Table κ α} {k : κ} {v : α} (h : (k, v) ∈ t.pairs) :
    t.get? k = some v := by
  obtain ⟨l, hl⟩ := t
  show Pairs.get? k l = some v
  induction l with
  | nil => cases h
  | cons p rest ih =>
      obtain ⟨i, w⟩ := p
      simp only [List.map_cons, List.nodup_cons] at hl
      rcases List.mem_cons.1 h with heq | hrest
      · cases heq
        simp [Pairs.get?]
      · have hi : i ≠ k := by
          rintro rfl
          exact hl.1 (List.mem_map.2 ⟨_, hrest, rfl⟩)
        simp only [Pairs.get?, hi, if_false]
        exact ih hl.2 hrest

theorem mem_pairs_iff {t : Table κ α} {k : κ} {v : α} : (k, v) ∈ t.pairs ↔ t.get? k = some v := by
  refine ⟨get?_of_mem_pairs, fun h => ?_⟩
  -- The key is listed with some value, and that is the one it has.
  obtain ⟨⟨j, w⟩, hmem, rfl⟩ := List.mem_map.1 (mem_keys_iff.2 ⟨v, h⟩)
  rw [get?_of_mem_pairs hmem] at h
  cases h
  exact hmem

@[simp] theorem get?_erase_self (t : Table κ α) (k : κ) : (t.erase k).get? k = none := by
  simp [get?_erase]

/-- Erasing a key that is not there changes nothing. -/
theorem erase_eq_self {t : Table κ α} {k : κ} (hnone : t.get? k = none) : t.erase k = t := by
  obtain ⟨l, hl⟩ := t
  have hpairs : Pairs.drop k l = l := by
    replace hnone : Pairs.get? k l = none := hnone
    clear hl
    induction l with
    | nil => rfl
    | cons p rest ih =>
        obtain ⟨i, w⟩ := p
        by_cases hi : i = k
        · simp [Pairs.get?, hi] at hnone
        · simp only [Pairs.get?, hi, if_false] at hnone
          simp only [Pairs.drop, hi, if_false, ih hnone]
  simp only [erase, hpairs]

/-- Erasing a key that was new gives back the table, order and all. -/
theorem erase_insert {t : Table κ α} {k : κ} (hnew : t.get? k = none) (v : α) :
    (t.insert k v).erase k = t := by
  obtain ⟨l, hl⟩ := t
  have hpairs : Pairs.drop k (Pairs.put k v l) = l := by
    replace hnew : Pairs.get? k l = none := hnew
    clear hl
    induction l with
    | nil => simp [Pairs.put, Pairs.drop]
    | cons p rest ih =>
        obtain ⟨i, w⟩ := p
        by_cases hi : i = k
        · simp [Pairs.get?, hi] at hnew
        · simp only [Pairs.get?, hi, if_false] at hnew
          simp only [Pairs.put, hi, if_false, Pairs.drop, ih hnew]
  simp only [insert, erase, hpairs]

end Table

end RateMonotonic
