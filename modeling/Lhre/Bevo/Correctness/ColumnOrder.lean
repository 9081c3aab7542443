import Lhre.Bevo.HeaderOrder

/-!
# `Bevo.Correctness.ColumnOrder` — the columns of the log stand in one order

`natural_cmp` compares the readings of two headers, so it is a total preorder and the sorted header does not depend on the order
of the keys. Between two columns of an array stand only headers that read like a column of it.

## Contents
- **The comparator.** `Preordered`, `naturalCmp_preordered`.
- **The law of the header.** `column`, `ReadsLike`, `ColumnOrder`.
- **Columns.** `digits_repr`, `reading_column`.
- **The order.** `orderHeaders_perm`, `orderHeaders_pairwise`.
- **`columns_ordered`.**
-/

namespace Lhre.Bevo

open NaturalOrder

/-! ## The comparator -/

/-- A total preorder, as a comparator; two texts that are each at most the other are `Equal`. -/
structure Preordered {α : Type} (cmp : α → α → Ordering) : Prop where
  refl : ∀ a, cmp a a = .eq
  total : ∀ a b, cmp b a = (cmp a b).swap
  antisymm : ∀ a b, (cmp a b).isLE → (cmp b a).isLE → cmp a b = .eq
  trans : ∀ a b c, (cmp a b).isLE → (cmp b c).isLE → (cmp a c).isLE

theorem naturalCmp_preordered : Preordered naturalCmp where
  refl a := by
    rw [naturalCmp_eq]
    exact Std.ReflCmp.compare_self
  total a b := by
    rw [naturalCmp_eq, naturalCmp_eq]
    exact Std.OrientedCmp.eq_swap
  antisymm a b hab hba := by
    rw [naturalCmp_eq] at *
    exact Std.OrientedCmp.isLE_antisymm hab hba
  trans a b c hab hbc := by
    rw [naturalCmp_eq] at *
    exact Std.TransCmp.isLE_trans hab hbc

theorem headerCmp_trans (a b c : String) (hab : (headerCmp a b).isLE) (hbc : (headerCmp b c).isLE) : (headerCmp a c).isLE :=
  naturalCmp_preordered.trans _ _ _ hab hbc

theorem headerCmp_total (a b : String) : ((headerCmp a b).isLE || (headerCmp b a).isLE) = true := by
  rw [show headerCmp b a = (headerCmp a b).swap from naturalCmp_preordered.total _ _]
  cases headerCmp a b <;> rfl

/-! ## The law of the header -/

/-- The column of the `i`-th cell of an array. -/
def column (name : String) (i : ℕ) : String := s!"{name}[{i}]"

/-- A header that begins with `name[k`, where a number is read as its value. -/
def ReadsLike (name : String) (k : ℕ) (header : String) : Prop :=
  ∃ rest, reading u64MAX (bytes header) = reading u64MAX (bytes (name ++ "[")) ++ k :: rest

/-- The header has a column of an array at `i`, and one at `j` behind it with `middle` between them. -/
def Spans (header : List String) (name : String) (i j : ℕ) (middle : List String) : Prop :=
  ∃ front back, header = front ++ column name i :: (middle ++ column name j :: back)

/-- The law of the header. -/
structure ColumnOrder (keys : List String) : Prop where
  perm : (orderHeaders keys).Perm keys
  leading : ∃ rest, orderHeaders keys = leading.filter (· ∈ keys) ++ rest ∧ ∀ name ∈ leading, name ∉ rest
  /-- The order of the keys does not matter. -/
  anyOrder : ∀ keys' : List String, keys'.Perm keys → orderHeaders keys' = orderHeaders keys
  /-- The columns of an array ascend, and what stands between two of them reads like one. -/
  between : ∀ name i j middle, i < 2 ^ 64 → j < 2 ^ 64 → Spans (orderHeaders keys) name i j middle →
    i < j ∧ ∀ header ∈ middle, ∃ k, i ≤ k ∧ k ≤ j ∧ ReadsLike name k header
  /-- The columns of an array stand together, where no other header reads like one. -/
  together : ∀ name, (∀ header ∈ keys, ∀ k < 2 ^ 64, ReadsLike name k header → ∃ k < 2 ^ 64, header = column name k) →
    ∀ i j middle, i < 2 ^ 64 → j < 2 ^ 64 → Spans (orderHeaders keys) name i j middle →
    ∀ header ∈ middle, ∃ k, i < k ∧ k < j ∧ header = column name k

/-! ## Columns -/

theorem bytes_append (s t : String) : bytes (s ++ t) = bytes s ++ bytes t := by
  simp [bytes, String.toByteArray_append, ByteArray.data_append]

theorem value_concat (ds : List UInt8) (c : UInt8) : value (ds ++ [c]) = 10 * value ds + (c.toNat - 48) := by
  simp [value, List.foldl_append]

theorem bytes_digitChar {d : ℕ} (hd : d < 10) : bytes (.singleton d.digitChar) = [UInt8.ofNat (48 + d)] := by
  interval_cases d <;> decide

theorem isDigit_ofNat {d : ℕ} (hd : d < 10) :
    isDigit (UInt8.ofNat (48 + d)) = true ∧ (UInt8.ofNat (48 + d)).toNat - 48 = d := by
  interval_cases d <;> decide

/-- The bytes of a number are a run of digits with its value. -/
theorem digits_repr (n : ℕ) :
    bytes n.repr ≠ [] ∧ (∀ c ∈ bytes n.repr, isDigit c = true) ∧ value (bytes n.repr) = n := by
  induction n using Nat.strong_induction_on with
  | _ n ih =>
      rcases Nat.lt_or_ge n 10 with hlt | hge
      · obtain ⟨hdigit, hvalue⟩ := isDigit_ofNat hlt
        rw [Nat.repr_of_lt hlt, bytes_digitChar hlt]
        refine ⟨by simp, by simpa using hdigit, ?_⟩
        simpa [value] using hvalue
      · have hmod : n % 10 < 10 := Nat.mod_lt n (by norm_num)
        obtain ⟨hne, hds, hval⟩ := ih (n / 10) (Nat.div_lt_self (by omega) (by norm_num))
        obtain ⟨hdigit, hvalue⟩ := isDigit_ofNat hmod
        rw [Nat.repr_of_ge hge, bytes_append, bytes_digitChar hmod]
        refine ⟨by simp [hne], ?_, ?_⟩
        · intro c hc
          rcases List.mem_append.mp hc with hc | hc
          · exact hds c hc
          · rw [List.mem_singleton.mp hc]
            exact hdigit
        · rw [value_concat, hval, hvalue]
          omega

/-- What a column is read as. -/
theorem reading_column (name : String) {i : ℕ} (hi : i < 2 ^ 64) :
    reading u64MAX (bytes (column name i)) = reading u64MAX (bytes (name ++ "[")) ++ [i, u64MAX + 1 + 93] := by
  have hopen : isDigit 91 = false := rfl
  have hclose : isDigit 93 = false := rfl
  have hbytes : bytes (column name i) = bytes name ++ 91 :: (bytes i.repr ++ [93]) := by
    show bytes (name ++ "[" ++ i.repr ++ "]") = _
    rw [bytes_append, bytes_append, bytes_append]
    simp [show bytes "[" = [91] from by decide, show bytes "]" = [93] from by decide]
  have hname : bytes (name ++ "[") = bytes name ++ 91 :: [] := by
    rw [bytes_append]
    rfl
  obtain ⟨hne, hds, hval⟩ := digits_repr i
  have hends : Ends [93] := by
    intro c hc
    obtain rfl : 93 = c := by simpa using hc
    exact hclose
  have hle : i ≤ u64MAX := by
    unfold u64MAX
    omega
  rw [hbytes, hname, reading_append hopen, reading_append hopen, reading_byte hopen, reading_byte hopen,
    reading_digits hends hne hds, reading_byte hclose, hval, min_eq_left hle]
  simp

/-- A column is none of the leading headers. -/
theorem column_not_leading (name : String) (i : ℕ) : column name i ∉ leading := by
  have hlast : (column name i).toList.getLast? = some ']' := by
    show (name ++ "[" ++ i.repr ++ "]").toList.getLast? = _
    rw [String.toList_append]
    exact List.getLast?_concat
  intro hmem
  rcases List.mem_cons.mp hmem with h | h
  · rw [h] at hlast
    exact absurd hlast (by decide)
  · rw [List.mem_singleton.mp h] at hlast
    exact absurd hlast (by decide)

/-! ## The order -/

section Order

variable {keys : List String}

/-- The headers that are sorted. -/
def sorted (keys : List String) : List String :=
  (keys.filter fun key => !leading.contains key).mergeSort fun a b => (headerCmp a b).isLE

theorem orderHeaders_eq (keys : List String) : orderHeaders keys = leading.filter (· ∈ keys) ++ sorted keys := by
  unfold orderHeaders sorted
  congr 1
  refine List.filter_congr fun name _ => ?_
  rw [List.any_beq']
  simp

theorem mem_sorted {header : String} : header ∈ sorted keys ↔ header ∈ keys ∧ header ∉ leading := by
  simp [sorted]

theorem sorted_pairwise (keys : List String) : (sorted keys).Pairwise fun a b => (headerCmp a b).isLE :=
  List.pairwise_mergeSort headerCmp_trans headerCmp_total _

/-- **Nothing is lost or added.** -/
theorem orderHeaders_perm (hnodup : keys.Nodup) : (orderHeaders keys).Perm keys := by
  have hlead : (leading.filter (· ∈ keys)).Perm (keys.filter fun key => leading.contains key) := by
    rw [List.perm_ext_iff_of_nodup (List.Nodup.filter _ (by decide)) (hnodup.filter _)]
    intro name
    simp [and_comm]
  rw [orderHeaders_eq]
  exact (hlead.append (List.mergeSort_perm _ _)).trans (List.filter_append_perm _ keys)

/-- **In what order**: a header that is not a leading one is at most every header behind it, and none of those is leading. -/
theorem orderHeaders_pairwise (keys : List String) :
    (orderHeaders keys).Pairwise fun a b => a ∉ leading → (headerCmp a b).isLE ∧ b ∉ leading := by
  rw [orderHeaders_eq, List.pairwise_append]
  refine ⟨?_, ?_, ?_⟩
  · refine List.Pairwise.imp_of_mem (R := fun _ _ => True) ?_ (List.pairwise_of_forall fun _ _ => trivial)
    intro a b ha _ _ hnot
    exact absurd (List.mem_of_mem_filter ha) hnot
  · refine (sorted_pairwise keys).imp_of_mem ?_
    intro a b _ hb hle _
    exact ⟨hle, (mem_sorted.mp hb).2⟩
  · intro a ha b _ hnot
    exact absurd (List.mem_of_mem_filter ha) hnot

/-- Headers of the keys that compare `Equal` are the same. -/
theorem eq_of_headerCmp (hne : keys.Pairwise fun a b => headerCmp a b ≠ .eq) {a b : String} (ha : a ∈ keys) (hb : b ∈ keys)
    (heq : headerCmp a b = .eq) : a = b := by
  by_contra hdiff
  have hsymm : Std.Symm fun a b => headerCmp a b ≠ .eq := by
    refine ⟨fun x y hxy hyx => ?_⟩
    rw [show headerCmp y x = (headerCmp x y).swap from naturalCmp_preordered.total _ _] at hyx
    exact hxy (Ordering.swap_eq_eq.mp hyx)
  exact hne.forall ha hb hdiff heq

theorem orderHeaders_anyOrder (hne : keys.Pairwise fun a b => headerCmp a b ≠ .eq) {keys' : List String}
    (hperm : keys'.Perm keys) : orderHeaders keys' = orderHeaders keys := by
  have hlead : leading.filter (· ∈ keys') = leading.filter (· ∈ keys) := by
    refine List.filter_congr fun name _ => ?_
    simp [hperm.mem_iff]
  have hsorted : (sorted keys').Perm (sorted keys) :=
    (List.mergeSort_perm _ _).trans ((hperm.filter _).trans (List.mergeSort_perm _ _).symm)
  have hsame : sorted keys' = sorted keys := by
    refine List.Perm.eq_of_pairwise ?_ (sorted_pairwise keys') (sorted_pairwise keys) hsorted
    intro a b ha hb hab hba
    have ha' : a ∈ keys := hperm.mem_iff.mp (mem_sorted.mp ha).1
    exact eq_of_headerCmp hne ha' (mem_sorted.mp hb).1 (naturalCmp_preordered.antisymm _ _ hab hba)
  rw [orderHeaders_eq, orderHeaders_eq, hlead, hsame]

/-- What stands between two columns of an array. -/
theorem Spans.order {name : String} {i j : ℕ} {middle : List String} (h : Spans (orderHeaders keys) name i j middle) :
    (headerCmp (column name i) (column name j)).isLE ∧
      ∀ header ∈ middle, (headerCmp (column name i) header).isLE ∧ (headerCmp header (column name j)).isLE := by
  obtain ⟨front, back, heq⟩ := h
  have hpair := orderHeaders_pairwise keys
  rw [heq, List.pairwise_append, List.pairwise_cons, List.pairwise_append] at hpair
  obtain ⟨-, ⟨hfirst, -, -, hbetween⟩, -⟩ := hpair
  have hcol := column_not_leading name i
  refine ⟨(hfirst _ (by simp) hcol).1, ?_⟩
  intro header hmem
  obtain ⟨hle, hnot⟩ := hfirst header (by simp [hmem]) hcol
  exact ⟨hle, (hbetween header hmem _ (by simp) hnot).1⟩

theorem Spans.between (hnodup : keys.Nodup) {name : String} {i j : ℕ} {middle : List String} (hi : i < 2 ^ 64)
    (hj : j < 2 ^ 64) (h : Spans (orderHeaders keys) name i j middle) :
    i < j ∧ ∀ header ∈ middle, ∃ k, i ≤ k ∧ k ≤ j ∧ ReadsLike name k header := by
  obtain ⟨hcols, hmiddle⟩ := h.order
  have hread {header : String} (hlow : (headerCmp (column name i) header).isLE)
      (hhigh : (headerCmp header (column name j)).isLE) : ∃ k, i ≤ k ∧ k ≤ j ∧ ReadsLike name k header := by
    unfold headerCmp at hlow hhigh
    rw [naturalCmp_eq, reading_column name hi] at hlow
    rw [naturalCmp_eq, reading_column name hj] at hhigh
    obtain ⟨k, rest, heq, hik, hkj⟩ := lex_between hlow hhigh
    exact ⟨k, hik, hkj, rest, heq⟩
  refine ⟨?_, fun header hmem => hread (hmiddle header hmem).1 (hmiddle header hmem).2⟩
  -- two columns with one index would be one header
  obtain ⟨k, hik, hkj, -⟩ := hread hcols (Ordering.isLE_of_eq_eq (naturalCmp_preordered.refl _))
  refine lt_of_le_of_ne (hik.trans hkj) ?_
  rintro rfl
  obtain ⟨front, back, heq⟩ := h
  have hnodup' := (orderHeaders_perm hnodup).nodup_iff.mpr hnodup
  rw [heq] at hnodup'
  simp [List.nodup_append] at hnodup'

end Order

/-- **The columns of the log stand in one order**, for all keys no two of which compare `Equal`. -/
theorem columns_ordered {keys : List String} (hne : keys.Pairwise fun a b => headerCmp a b ≠ .eq) :
    Preordered naturalCmp ∧ ColumnOrder keys := by
  have hnodup : keys.Nodup := by
    refine hne.imp ?_
    rintro a _ hcmp rfl
    exact hcmp (naturalCmp_preordered.refl _)
  refine ⟨naturalCmp_preordered, orderHeaders_perm hnodup, ⟨sorted keys, orderHeaders_eq keys, ?_⟩, ?_, ?_, ?_⟩
  · intro name hlead hmem
    exact (mem_sorted.mp hmem).2 hlead
  · exact fun keys' hperm => orderHeaders_anyOrder hne hperm
  · exact fun name i j middle hi hj h => h.between hnodup hi hj
  · intro name honly i j middle hi hj h header hmem
    obtain ⟨k, hik, hkj, hreads⟩ := (h.between hnodup hi hj).2 header hmem
    have hkeys : header ∈ keys := by
      obtain ⟨front, back, heq⟩ := h
      rw [← (orderHeaders_perm hnodup).mem_iff, heq]
      simp [hmem]
    obtain ⟨k', hk', rfl⟩ := honly header hkeys k (hkj.trans_lt hj) hreads
    -- the columns themselves ascend
    obtain ⟨front, back, heq⟩ := h
    obtain ⟨before, after, rfl⟩ := List.append_of_mem hmem
    have hleft : Spans (orderHeaders keys) name i k' before := ⟨front, after ++ column name j :: back, by simp [heq]⟩
    have hright : Spans (orderHeaders keys) name k' j after := ⟨front ++ column name i :: before, back, by simp [heq]⟩
    exact ⟨k', (hleft.between hnodup hi hk').1, (hright.between hnodup hk' hj).1, rfl⟩

theorem headerCmp_eq (a b : String) : headerCmp a b = lex (reading u64MAX (bytes a)) (reading u64MAX (bytes b)) :=
  naturalCmp_eq _ _

theorem columns_ordered_cells :
    Preordered naturalCmp ∧ ColumnOrder ["packet_id", "pack.cells_v[10]", "pack.cells_v[2]", "time"] := by
  refine columns_ordered ?_
  simp only [headerCmp_eq]
  decide

/-- The column of an array that stands inside a cell of another one separates its columns. -/
theorem columns_interleaved :
    ¬ ∀ keys : List String, (keys.Pairwise fun a b => headerCmp a b ≠ .eq) → ∀ name i j middle, i < 2 ^ 64 → j < 2 ^ 64 →
      Spans (orderHeaders keys) name i j middle → ∀ header ∈ middle, ∃ k, header = column name k := by
  intro h
  have hsorted : orderHeaders ["a[0]", "a[0].b[0]", "a[1]"] = ["a[0]", "a[0].b[0]", "a[1]"] := by
    rw [orderHeaders_eq]
    have hkeep : sorted ["a[0]", "a[0].b[0]", "a[1]"] = ["a[0]", "a[0].b[0]", "a[1]"] := by
      refine List.mergeSort_of_pairwise ?_
      simp only [headerCmp_eq]
      decide
    rw [hkeep]
    decide
  have hne : ["a[0]", "a[0].b[0]", "a[1]"].Pairwise fun a b => headerCmp a b ≠ .eq := by
    simp only [headerCmp_eq]
    decide
  obtain ⟨k, hk⟩ := h _ hne "a" 0 1 ["a[0].b[0]"] (by norm_num) (by norm_num) ⟨[], [], hsorted⟩ _ (List.mem_singleton_self _)
  -- no column of `a` has a dot in it
  have hdot : '.' ∈ (column "a" k).toList := by
    rw [← hk]
    decide
  have hcolumn : (column "a" k).toList = "a[".toList ++ (Nat.toDigits 10 k ++ [']']) := by
    show ("a" ++ "[" ++ k.repr ++ "]").toList = _
    simp
  rw [hcolumn] at hdot
  rcases List.mem_append.mp hdot with hname | hrest
  · exact absurd hname (by decide)
  · rcases List.mem_append.mp hrest with hdigit | hclose
    · exact absurd (Nat.isDigit_of_mem_toDigits (by norm_num) (by norm_num) hdigit) (by decide)
    · exact absurd hclose (by decide)

end Lhre.Bevo
