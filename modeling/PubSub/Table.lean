/-!
# Table — finite maps that remember the order of insertion

    entries  =  [(k₁, v₁), …, (kₙ, vₙ)],   k₁ … kₙ pairwise distinct

A table is a list of entries with no repeated key.  Writing to a key that is present replaces its
value in place, writing to a new key appends, so the order of the entries is the order in which
the keys first arrived.  Everything else a table says is said by `get?`: `get?_insert` and
`get?_erase` give it after each operation, and `size` counts the keys it is defined on.
-/

universe u v w

namespace PubSub

/-- A finite map from `κ` to `ν`, its entries in the order their keys first arrived. -/
structure Table (κ : Type u) (ν : Type v) where
  entries : List (κ × ν)
  nodup : (entries.map Prod.fst).Nodup
  deriving DecidableEq

namespace Table

variable {κ : Type u} {ν : Type v} {μ : Type w}

/-! ## Reading -/

/-- The table with no entry. -/
def empty : Table κ ν := ⟨[], .nil⟩

instance : EmptyCollection (Table κ ν) := ⟨empty⟩

instance : Inhabited (Table κ ν) := ⟨empty⟩

/-- The keys, in the order they arrived. -/
def keys (t : Table κ ν) : List κ := t.entries.map Prod.fst

/-- The values, in the order of their keys. -/
def values (t : Table κ ν) : List ν := t.entries.map Prod.snd

/-- The number of keys. -/
def size (t : Table κ ν) : Nat := t.entries.length

/-- Whether there is no key at all. -/
def isEmpty (t : Table κ ν) : Bool := t.entries.isEmpty

variable [DecidableEq κ]

/-- The value at the first entry with this key. -/
def find (k : κ) : List (κ × ν) → Option ν
  | [] => none
  | (k', v) :: rest => if k' = k then some v else find k rest

/-- The value of a key, if it has one. -/
def get? (t : Table κ ν) (k : κ) : Option ν := find k t.entries

/-- The value of a key, or `d` if it has none. -/
def getD (t : Table κ ν) (k : κ) (d : ν) : ν := (t.get? k).getD d

/-- Whether a key has a value. -/
def contains (t : Table κ ν) (k : κ) : Bool := (t.get? k).isSome

theorem find_eq_none {k : κ} : ∀ {l : List (κ × ν)}, find k l = none ↔ k ∉ l.map Prod.fst
  | [] => by simp [find]
  | (k', v) :: rest => by
    by_cases h : k' = k
    · simp [find, h]
    · simp [find, h, find_eq_none (l := rest), Ne.symm h]

theorem mem_of_find {k : κ} {v : ν} : ∀ {l : List (κ × ν)}, find k l = some v → (k, v) ∈ l
  | (k', v') :: rest, h => by
    by_cases hk : k' = k
    · simp_all [find]
    · exact List.mem_cons_of_mem _ (mem_of_find (by simpa [find, hk] using h))

theorem find_of_mem {k : κ} {v : ν} :
    ∀ {l : List (κ × ν)}, (l.map Prod.fst).Nodup → (k, v) ∈ l → find k l = some v
  | (k', v') :: rest, hd, h => by
    rw [List.map_cons, List.nodup_cons] at hd
    rcases List.mem_cons.1 h with he | hr
    · simp_all [find]
    · have hk : k' ≠ k := fun e => hd.1 (e ▸ List.mem_map.2 ⟨(k, v), hr, rfl⟩)
      simpa [find, hk] using find_of_mem hd.2 hr

/-- **A table holds an entry exactly when reading its key gives its value.** -/
theorem mem_entries_iff {t : Table κ ν} {k : κ} {v : ν} : (k, v) ∈ t.entries ↔ t.get? k = some v :=
  ⟨find_of_mem t.nodup, mem_of_find⟩

theorem get?_eq_none_iff {t : Table κ ν} {k : κ} : t.get? k = none ↔ k ∉ t.keys := find_eq_none

theorem contains_iff {t : Table κ ν} {k : κ} : t.contains k = true ↔ k ∈ t.keys := by
  rw [contains, Option.isSome_iff_ne_none, ne_eq, get?_eq_none_iff, Classical.not_not]

@[simp] theorem get?_empty (k : κ) : (∅ : Table κ ν).get? k = none := rfl

/-- **The values of a table are those of its keys.** -/
theorem mem_values_iff {t : Table κ ν} {v : ν} : v ∈ t.values ↔ ∃ k, t.get? k = some v := by
  refine List.mem_map.trans ⟨?_, ?_⟩
  · rintro ⟨⟨k, v⟩, hp, rfl⟩
    exact ⟨k, mem_entries_iff.1 hp⟩
  · rintro ⟨k, hk⟩
    exact ⟨(k, v), mem_entries_iff.2 hk, rfl⟩

/-- **A table is empty when no key has a value.** -/
theorem isEmpty_iff {t : Table κ ν} : t.isEmpty = true ↔ ∀ k, t.get? k = none := by
  refine List.isEmpty_iff.trans ⟨fun h k => ?_, fun h => ?_⟩
  · rw [get?, h]
    rfl
  · refine List.eq_nil_iff_forall_not_mem.2 fun p hp => ?_
    have hv : t.get? p.1 = some p.2 := mem_entries_iff.1 hp
    rw [h p.1] at hv
    cases hv

/-- Values that know their keys are listed in the order of their keys. -/
theorem map_values_eq_keys {t : Table κ ν} (f : ν → κ) (h : ∀ k v, t.get? k = some v → f v = k) :
    t.values.map f = t.keys := by
  rw [values, keys, List.map_map]
  exact List.map_congr_left fun p hp => h p.1 p.2 (mem_entries_iff.1 hp)

omit [DecidableEq κ] in
/-- A table has as many keys as entries. -/
theorem length_keys (t : Table κ ν) : t.keys.length = t.size := List.length_map _

/-! ## Writing -/

/-- Writes `v` at `k`, over the present value or else at the end. -/
def put (k : κ) (v : ν) : List (κ × ν) → List (κ × ν)
  | [] => [(k, v)]
  | (k', v') :: rest => if k' = k then (k, v) :: rest else (k', v') :: put k v rest

theorem map_fst_put (k : κ) (v : ν) : ∀ l : List (κ × ν),
    (put k v l).map Prod.fst
      = if k ∈ l.map Prod.fst then l.map Prod.fst else l.map Prod.fst ++ [k]
  | [] => by simp [put]
  | (k', v') :: rest => by
    by_cases h : k' = k
    · simp [put, h]
    · have hk : ¬ k = k' := Ne.symm h
      rw [put, if_neg h, List.map_cons, List.map_cons, map_fst_put k v rest]
      by_cases hm : k ∈ rest.map Prod.fst
      · rw [if_pos hm, if_pos (List.mem_cons_of_mem _ hm)]
      · rw [if_neg hm, if_neg (by simpa [hk] using hm), List.cons_append]

theorem nodup_put (k : κ) (v : ν) {l : List (κ × ν)} (h : (l.map Prod.fst).Nodup) :
    ((put k v l).map Prod.fst).Nodup := by
  rw [map_fst_put]
  split
  · exact h
  · next hk =>
    exact List.nodup_append.2 ⟨h, by simp, fun a ha b hb e => hk (by simp_all)⟩

theorem find_put (k k' : κ) (v : ν) : ∀ l : List (κ × ν),
    find k' (put k v l) = if k = k' then some v else find k' l
  | [] => by simp [put, find]
  | (k₀, v₀) :: rest => by
    by_cases h : k₀ = k
    · subst h; by_cases h' : k₀ = k' <;> simp [put, find, h']
    · by_cases h' : k₀ = k'
      · subst h'; simp [put, find, h, Ne.symm h]
      · simp [put, find, h, h', find_put k k' v rest]

/-- Gives `k` the value `v`. -/
def insert (t : Table κ ν) (k : κ) (v : ν) : Table κ ν :=
  ⟨put k v t.entries, nodup_put k v t.nodup⟩

/-- Takes the value of `k` away. -/
def erase (t : Table κ ν) (k : κ) : Table κ ν :=
  ⟨t.entries.filter fun p => p.1 ≠ k,
    t.nodup.sublist (List.filter_sublist.map Prod.fst)⟩

/-- The table of a list of entries, a later value of a key replacing an earlier one. -/
def ofList (l : List (κ × ν)) : Table κ ν := l.foldl (fun t p => t.insert p.1 p.2) ∅

/-- Changes the value of `k`, if it has one. -/
def modify (t : Table κ ν) (k : κ) (f : ν → ν) : Table κ ν :=
  match t.get? k with
  | none => t
  | some v => t.insert k (f v)

/-- **Writing changes one key.** -/
theorem get?_insert (t : Table κ ν) (k k' : κ) (v : ν) :
    (t.insert k v).get? k' = if k = k' then some v else t.get? k' := find_put k k' v t.entries

@[simp] theorem get?_insert_self (t : Table κ ν) (k : κ) (v : ν) :
    (t.insert k v).get? k = some v := by rw [get?_insert, if_pos rfl]

theorem get?_insert_of_ne (t : Table κ ν) {k k' : κ} (v : ν) (h : k ≠ k') :
    (t.insert k v).get? k' = t.get? k' := by rw [get?_insert, if_neg h]

theorem find_filter (k k' : κ) : ∀ l : List (κ × ν),
    find k' (l.filter fun p => p.1 ≠ k) = if k = k' then none else find k' l
  | [] => by simp [find]
  | (k₀, v₀) :: rest => by
    have ih := find_filter k k' rest
    by_cases h : k₀ = k
    · subst h; by_cases h' : k₀ = k' <;> simp_all [find]
    · by_cases h' : k₀ = k'
      · subst h'; simp [find, h, Ne.symm h]
      · simp_all [find]

/-- **Erasing forgets one key.** -/
theorem get?_erase (t : Table κ ν) (k k' : κ) :
    (t.erase k).get? k' = if k = k' then none else t.get? k' := find_filter k k' t.entries

@[simp] theorem get?_erase_self (t : Table κ ν) (k : κ) : (t.erase k).get? k = none := by
  rw [get?_erase, if_pos rfl]

/-- **A key written to stands where it stood, or last.** -/
theorem keys_insert (t : Table κ ν) (k : κ) (v : ν) :
    (t.insert k v).keys = if k ∈ t.keys then t.keys else t.keys ++ [k] := map_fst_put k v t.entries

theorem isEmpty_insert (t : Table κ ν) (k : κ) (v : ν) : (t.insert k v).isEmpty = false := by
  refine Bool.eq_false_iff.2 fun h => ?_
  have hk := isEmpty_iff.1 h k
  rw [get?_insert_self] at hk
  cases hk

theorem keys_modify (t : Table κ ν) (k : κ) (f : ν → ν) : (t.modify k f).keys = t.keys := by
  unfold modify
  cases h : t.get? k with
  | none => rfl
  | some v =>
    rw [keys_insert, if_pos]
    exact contains_iff.1 (by rw [contains, h, Option.isSome_some])

theorem get?_modify (t : Table κ ν) (k k' : κ) (f : ν → ν) :
    (t.modify k f).get? k' = if k = k' then (t.get? k').map f else t.get? k' := by
  unfold modify
  cases h : t.get? k with
  | none => by_cases hk : k = k' <;> simp_all
  | some v => rw [get?_insert]; by_cases hk : k = k' <;> simp_all

/-! ## Changing every value -/

omit [DecidableEq κ] in
theorem map_fst_map (f : ν → μ) (l : List (κ × ν)) :
    (l.map fun p => (p.1, f p.2)).map Prod.fst = l.map Prod.fst := by
  simp [List.map_map, Function.comp_def]

omit [DecidableEq κ] in
/-- Applies `f` to every value. -/
def mapValues (f : ν → μ) (t : Table κ ν) : Table κ μ :=
  ⟨t.entries.map fun p => (p.1, f p.2), by rw [map_fst_map]; exact t.nodup⟩

theorem find_map (f : ν → μ) (k : κ) : ∀ l : List (κ × ν),
    find k (l.map fun p => (p.1, f p.2)) = (find k l).map f
  | [] => rfl
  | (k', v) :: rest => by by_cases h : k' = k <;> simp [find, h, find_map f k rest]

@[simp] theorem get?_mapValues (f : ν → μ) (t : Table κ ν) (k : κ) :
    (t.mapValues f).get? k = (t.get? k).map f := find_map f k t.entries

end Table

end PubSub
