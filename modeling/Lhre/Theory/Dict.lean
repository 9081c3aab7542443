import Mathlib.Tactic

/-!
# `Theory.Dict` — dictionaries that keep the order in which their keys were first set

A dictionary is a list of entries. Setting a key that is there replaces its entry in place; a new key goes to the end.
So it iterates in the order in which its keys were first set, and a lookup finds the value set last.

## Contents
- **Operations.** `get?`, `set`, `keys`, and what each makes of the others.
- **Folds.** `collect` sets the key of each item of a list to a function of its old value and the item. The value it
  leaves at a key is a fold over the items with that key alone (`get?_collect`).
- **Indexes.** `index`: the last item of a list under each key. Where no key occurs twice every item is found.
- **Maxima.** `maxima`: the largest number under each key.
-/

variable {κ ν α : Type*} [DecidableEq κ]

/-- A dictionary from `κ` to `ν`. -/
abbrev Dict (κ ν : Type*) := List (κ × ν)

namespace Dict

/-! ## Operations -/

/-- The value of a key. -/
def get? (d : Dict κ ν) (k : κ) : Option ν := d.lookup k

/-- The keys, in the order in which they were first set. -/
def keys (d : Dict κ ν) : List κ := d.map Prod.fst

/-- The dictionary with the value of one key set. -/
def set (k : κ) (v : ν) : Dict κ ν → Dict κ ν
  | [] => [(k, v)]
  | entry :: d => if entry.1 = k then (k, v) :: d else entry :: set k v d

@[simp] theorem get?_nil (k : κ) : get? ([] : Dict κ ν) k = none := rfl

omit [DecidableEq κ] in
theorem nodup_keys_nil : (keys ([] : Dict κ ν)).Nodup := List.nodup_nil

theorem get?_cons (entry : κ × ν) (d : Dict κ ν) (k : κ) :
    get? (entry :: d) k = if k = entry.1 then some entry.2 else get? d k := by
  obtain ⟨key, v⟩ := entry
  show List.lookup k ((key, v) :: d) = _
  rw [List.lookup_cons]
  by_cases h : k = key
  · simp [h]
  · rw [beq_eq_false_iff_ne.mpr h, if_neg h]
    rfl

/-- **A key that was set is found.** -/
@[simp] theorem get?_set_self (k : κ) (v : ν) (d : Dict κ ν) : get? (set k v d) k = some v := by
  induction d with
  | nil => simp [set, get?_cons]
  | cons entry d ih =>
      unfold set
      by_cases h : entry.1 = k
      · simp [h, get?_cons]
      · rw [if_neg h, get?_cons, if_neg (Ne.symm h)]
        exact ih

/-- **Setting a key leaves the others alone.** -/
theorem get?_set_of_ne {k k' : κ} (h : k' ≠ k) (v : ν) (d : Dict κ ν) : get? (set k v d) k' = get? d k' := by
  induction d with
  | nil => simp [set, get?_cons, h]
  | cons entry d ih =>
      unfold set
      by_cases he : entry.1 = k
      · rw [if_pos he, get?_cons, get?_cons, if_neg h, if_neg (by rw [he]; exact h)]
      · rw [if_neg he, get?_cons, get?_cons, ih]

theorem get?_set (k k' : κ) (v : ν) (d : Dict κ ν) :
    get? (set k v d) k' = if k' = k then some v else get? d k' := by
  by_cases h : k' = k
  · rw [if_pos h, h, get?_set_self]
  · rw [if_neg h, get?_set_of_ne h]

/-- Without a key, the others are found as before. -/
theorem get?_filter_ne (k k' : κ) (d : Dict κ ν) :
    get? (d.filter fun entry => entry.1 ≠ k) k' = if k' = k then none else get? d k' := by
  induction d with
  | nil => simp
  | cons entry d ih =>
      by_cases he : entry.1 = k
      · rw [List.filter_cons_of_neg (by simp [he]), ih, get?_cons, he]
        by_cases hk : k' = k <;> simp [hk]
      · rw [List.filter_cons_of_pos (by simp [he]), get?_cons, ih, get?_cons]
        by_cases hk : k' = entry.1
        · rw [if_pos hk, if_pos hk, if_neg (hk ▸ he)]
        · rw [if_neg hk, if_neg hk]

theorem mem_keys {d : Dict κ ν} {k : κ} : k ∈ keys d ↔ ∃ v, get? d k = some v := by
  induction d with
  | nil => simp [keys]
  | cons entry d ih =>
      rw [get?_cons]
      by_cases h : k = entry.1
      · simp [keys, h]
      · rw [if_neg h, ← ih]
        simp [keys, h]

theorem get?_eq_none {d : Dict κ ν} {k : κ} : get? d k = none ↔ k ∉ keys d := by
  rw [mem_keys, Option.eq_none_iff_forall_ne_some, not_exists]

/-- A new key goes to the end; setting an old one changes no key. -/
theorem keys_set (k : κ) (v : ν) (d : Dict κ ν) :
    keys (set k v d) = if k ∈ keys d then keys d else keys d ++ [k] := by
  induction d with
  | nil => simp [set, keys]
  | cons entry d ih =>
      unfold set
      by_cases h : entry.1 = k
      · simp [keys, h]
      · rw [if_neg h]
        show entry.1 :: keys (set k v d) = _
        rw [ih]
        by_cases hk : k ∈ keys d
        · rw [if_pos hk, if_pos]
          · rfl
          · exact List.mem_cons_of_mem _ hk
        · rw [if_neg hk, if_neg]
          · rfl
          · intro hmem
            rcases List.mem_cons.mp hmem with heq | hmem
            · exact h heq.symm
            · exact hk hmem

theorem mem_keys_set {k k' : κ} {v : ν} {d : Dict κ ν} : k' ∈ keys (set k v d) ↔ k' = k ∨ k' ∈ keys d := by
  rw [keys_set]
  by_cases hk : k ∈ keys d
  · rw [if_pos hk]
    constructor
    · intro h
      right
      exact h
    · rintro (rfl | h)
      · exact hk
      · exact h
  · rw [if_neg hk, List.mem_append, List.mem_singleton]
    exact or_comm

theorem nodup_keys_set {d : Dict κ ν} (h : (keys d).Nodup) (k : κ) (v : ν) : (keys (set k v d)).Nodup := by
  rw [keys_set]
  by_cases hk : k ∈ keys d
  · rw [if_pos hk]
    exact h
  · rw [if_neg hk]
    exact List.nodup_append.mpr ⟨h, by simp, by
      intro a ha b hb
      rw [List.mem_singleton] at hb
      rintro rfl
      exact hk (hb ▸ ha)⟩

/-- **An entry is what its key is looked up to**, as long as no key occurs twice. -/
theorem mem_iff_get? {d : Dict κ ν} (h : (keys d).Nodup) {k : κ} {v : ν} : (k, v) ∈ d ↔ get? d k = some v := by
  induction d with
  | nil => simp
  | cons entry d ih =>
      have hnodup := List.nodup_cons.mp h
      rw [get?_cons, List.mem_cons, ih hnodup.2]
      by_cases hk : k = entry.1
      · rw [if_pos hk]
        constructor
        · rintro (heq | hget)
          · rw [← heq]
          · exact absurd (mem_keys.mpr ⟨v, hget⟩) (hk ▸ hnodup.1)
        · intro hv
          left
          rw [hk, ← Option.some.inj hv]
      · rw [if_neg hk]
        constructor
        · rintro (heq | hget)
          · exact absurd (congrArg Prod.fst heq) hk
          · exact hget
        · intro hget
          right
          exact hget

/-- Two dictionaries in which every key has the same value hold the same entries. -/
theorem perm_of_get? {d d' : Dict κ ν} (h : (keys d).Nodup) (h' : (keys d').Nodup)
    (hget : ∀ k, get? d k = get? d' k) : d.Perm d' := by
  apply (List.perm_ext_iff_of_nodup (List.Nodup.of_map _ h) (List.Nodup.of_map _ h')).mpr
  rintro ⟨k, v⟩
  rw [mem_iff_get? h, mem_iff_get? h', hget]

/-- A dictionary with every value replaced. -/
theorem get?_map {μ : Type*} (f : ν → μ) (d : Dict κ ν) (k : κ) :
    get? (d.map fun entry => (entry.1, f entry.2)) k = (get? d k).map f := by
  induction d with
  | nil => rfl
  | cons entry d ih =>
      rw [List.map_cons, get?_cons, get?_cons, ih]
      by_cases h : k = entry.1
      · rw [if_pos h, if_pos h]
        rfl
      · rw [if_neg h, if_neg h]

/-- A lookup does not depend on the order of the entries. -/
theorem get?_perm {d d' : Dict κ ν} (h : (keys d).Nodup) (hp : d.Perm d') (k : κ) : get? d k = get? d' k := by
  apply Option.ext
  intro v
  show get? d k = some v ↔ get? d' k = some v
  rw [← mem_iff_get? h, ← mem_iff_get? ((hp.map Prod.fst).nodup_iff.mp h), hp.mem_iff]

/-! ## Folds -/

/-- One step of a fold: the key of `a` is set to a function of its old value and `a`. -/
def step (key : α → κ) (f : Option ν → α → ν) (d : Dict κ ν) (a : α) : Dict κ ν :=
  set (key a) (f (get? d (key a)) a) d

/-- The dictionary a list of items leaves. -/
def collect (key : α → κ) (f : Option ν → α → ν) (d : Dict κ ν) (l : List α) : Dict κ ν :=
  l.foldl (step key f) d

variable {key : α → κ} {f : Option ν → α → ν}

@[simp] theorem collect_nil (d : Dict κ ν) : collect key f d [] = d := rfl

@[simp] theorem collect_cons (d : Dict κ ν) (a : α) (l : List α) :
    collect key f d (a :: l) = collect key f (step key f d a) l := rfl

/-- **A fold is a fold at each key.** -/
theorem get?_collect (d : Dict κ ν) (l : List α) (k : κ) :
    get? (collect key f d l) k =
      (l.filter fun a => decide (key a = k)).foldl (fun old a => some (f old a)) (get? d k) := by
  induction l generalizing d with
  | nil => rfl
  | cons a l ih =>
      rw [collect_cons, ih, step, get?_set]
      by_cases h : key a = k
      · rw [List.filter_cons_of_pos (by simpa using h), List.foldl_cons, if_pos h.symm, h]
      · rw [List.filter_cons_of_neg (by simpa using h), if_neg (Ne.symm h)]

theorem nodup_keys_collect {d : Dict κ ν} (h : (keys d).Nodup) (l : List α) : (keys (collect key f d l)).Nodup := by
  induction l generalizing d with
  | nil => exact h
  | cons a l ih =>
      apply ih
      exact nodup_keys_set h _ _

/-- The fold of the items of one key finds something as soon as there is an item. -/
theorem foldl_some_isSome (l : List α) (o : Option ν) :
    (l.foldl (fun old a => some (f old a)) o).isSome = (o.isSome || !l.isEmpty) := by
  induction l generalizing o with
  | nil => simp
  | cons a l ih =>
      rw [List.foldl_cons, ih]
      simp

theorem mem_keys_collect {l : List α} {k : κ} : k ∈ keys (collect key f [] l) ↔ ∃ a ∈ l, key a = k := by
  rw [mem_keys, ← Option.isSome_iff_exists, get?_collect, foldl_some_isSome, get?_nil]
  simp [List.filter_eq_nil_iff]

/-! ## Indexes -/

/-- The items of a list by key; of two items with one key the later is found. -/
def index (key : α → κ) (l : List α) : Dict κ α := collect key (fun _ a => a) [] l

theorem foldl_last (l : List α) (o : Option α) :
    l.foldl (fun _ a => some a) o = l.getLast?.or o := by
  induction l generalizing o with
  | nil => rfl
  | cons a l ih =>
      rw [List.foldl_cons, ih, List.getLast?_cons]
      cases l.getLast? <;> rfl

theorem get?_index (l : List α) (k : κ) :
    get? (index key l) k = (l.filter fun a => decide (key a = k)).getLast? := by
  unfold index
  rw [get?_collect, get?_nil, foldl_last, Option.or_none]

/-- What is found has the key it is found under, and is one of the items. -/
theorem of_get?_index {l : List α} {k : κ} {a : α} (h : get? (index key l) k = some a) : a ∈ l ∧ key a = k := by
  rw [get?_index] at h
  have hmem := List.mem_filter.mp (List.mem_of_getLast? h)
  exact ⟨hmem.1, by simpa using hmem.2⟩

/-- **Where no key occurs twice every item is found.** -/
theorem get?_index_of_mem {l : List α} (h : (l.map key).Nodup) {a : α} (ha : a ∈ l) :
    get? (index key l) (key a) = some a := by
  have hsome : (get? (index key l) (key a)).isSome := by
    rw [Option.isSome_iff_exists, ← mem_keys]
    exact mem_keys_collect.mpr ⟨a, ha, rfl⟩
  obtain ⟨b, hb⟩ := Option.isSome_iff_exists.mp hsome
  obtain ⟨hbmem, hkey⟩ := of_get?_index hb
  rw [hb, List.inj_on_of_nodup_map h hbmem ha hkey]

theorem mem_keys_index {l : List α} {k : κ} : k ∈ keys (index key l) ↔ ∃ a ∈ l, key a = k :=
  mem_keys_collect

theorem nodup_keys_index (l : List α) : (keys (index key l)).Nodup := nodup_keys_collect nodup_keys_nil l

/-! ## Maxima -/

/-- The largest number the items of each key have. -/
def maxima (key : α → κ) (size : α → ℕ) (l : List α) : Dict κ ℕ :=
  collect key (fun old a => max (old.getD 0) (size a)) [] l

theorem le_foldl_max {size : α → ℕ} {l : List α} {o : Option ℕ} {n : ℕ}
    (h : (∃ a ∈ l, n ≤ size a) ∨ ∃ m, o = some m ∧ n ≤ m) :
    ∃ m, l.foldl (fun old a => some (max (old.getD 0) (size a))) o = some m ∧ n ≤ m := by
  induction l generalizing o with
  | nil =>
      rcases h with ⟨a, ha, -⟩ | h
      · exact absurd ha List.not_mem_nil
      · exact h
  | cons b l ih =>
      rw [List.foldl_cons]
      apply ih
      rcases h with ⟨a, ha, hle⟩ | ⟨m, rfl, hle⟩
      · rcases List.mem_cons.mp ha with rfl | ha
        · right
          exact ⟨_, rfl, le_max_of_le_right hle⟩
        · left
          exact ⟨a, ha, hle⟩
      · right
        exact ⟨_, rfl, le_max_of_le_left hle⟩

/-- **A maximum is at least every number of its key.** -/
theorem le_maxima (key : α → κ) (size : α → ℕ) {l : List α} {a : α} (ha : a ∈ l) :
    ∃ m, get? (maxima key size l) (key a) = some m ∧ size a ≤ m := by
  unfold maxima
  rw [get?_collect, get?_nil]
  apply le_foldl_max
  left
  exact ⟨a, List.mem_filter.mpr ⟨ha, by simp⟩, le_rfl⟩

end Dict
