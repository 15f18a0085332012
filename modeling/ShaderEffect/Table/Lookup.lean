import ShaderEffect.Table

/-!
# Look-ups in tables

What a look-up answers after a table was changed: the new value for the key that was changed, and
what it answered before for every other. Tables that answer every look-up alike are equal
(`ext_get?`), since ascending keys leave one way to list the same entries.
-/

namespace ShaderEffect.Table

variable {κ ν μ : Type} [TableKey κ]

open TableKey

/-! ### Entries -/

theorem findEntry_cons (key : κ) (e : κ × ν) (rest : List (κ × ν)) :
    findEntry key (e :: rest) = if rank e.1 = rank key then some e.2 else findEntry key rest := by
  by_cases h : rank e.1 = rank key <;> simp [findEntry, h]

theorem findEntry_insertEntry (key other : κ) (value : ν) (entries : List (κ × ν)) :
    findEntry other (insertEntry key value entries) =
      if rank key = rank other then some value else findEntry other entries := by
  induction entries with
  | nil => simp [insertEntry, findEntry_cons]
  | cons e rest ih =>
    rw [insertEntry]
    split
    · rw [findEntry_cons]
    · split
      case isTrue heq =>
        rw [findEntry_cons, findEntry_cons, ← heq]
        by_cases h : rank key = rank other <;> simp [h]
      case isFalse hne =>
        rw [findEntry_cons, findEntry_cons, ih]
        by_cases he : rank e.1 = rank other
        · rw [if_pos he, if_pos he, if_neg fun h => hne (h.trans he.symm)]
        · rw [if_neg he, if_neg he]

theorem findEntry_eraseEntry (key other : κ) (entries : List (κ × ν)) :
    findEntry other (eraseEntry key entries) =
      if rank key = rank other then none else findEntry other entries := by
  induction entries with
  | nil => simp [eraseEntry, findEntry]
  | cons e rest ih =>
    by_cases he : rank e.1 = rank key
    · have h : eraseEntry key (e :: rest) = eraseEntry key rest := by simp [eraseEntry, he]
      rw [h, ih, findEntry_cons, he]
      by_cases hk : rank key = rank other <;> simp [hk]
    · have h : eraseEntry key (e :: rest) = e :: eraseEntry key rest := by
        simp [eraseEntry, he]
      rw [h, findEntry_cons, findEntry_cons, ih]
      by_cases ho : rank e.1 = rank other
      · rw [if_pos ho, if_pos ho, if_neg fun h => he (ho.trans h.symm)]
      · rw [if_neg ho, if_neg ho]

/-- A key below all keys of a list has no entry in it. -/
theorem findEntry_eq_none {key : κ} {entries : List (κ × ν)}
    (h : ∀ e ∈ entries, rank key < rank e.1) : findEntry key entries = none := by
  induction entries with
  | nil => rfl
  | cons e rest ih =>
    have he := h e List.mem_cons_self
    rw [findEntry_cons, if_neg (by omega), ih fun x hx => h x (List.mem_cons_of_mem _ hx)]

/-- Ascending lists that answer every look-up alike are equal: the first entry of one is the first
of the other, since neither has a smaller key. -/
theorem eq_of_findEntry_eq {s t : List (κ × ν)} (hs : Ascending s) (ht : Ascending t)
    (h : ∀ key, findEntry key s = findEntry key t) : s = t := by
  induction s generalizing t with
  | nil =>
    cases t with
    | nil => rfl
    | cons b t =>
      have hb := h b.1
      rw [findEntry_cons, if_pos rfl] at hb
      cases hb
  | cons a s ih =>
    cases t with
    | nil =>
      have ha := h a.1
      rw [findEntry_cons, if_pos rfl] at ha
      cases ha
    | cons b t =>
      have ⟨has, hs⟩ := List.pairwise_cons.1 hs
      have ⟨hbt, ht⟩ := List.pairwise_cons.1 ht
      have hrank : rank a.1 = rank b.1 := by
        rcases Nat.lt_trichotomy (rank a.1) (rank b.1) with hlt | heq | hgt
        · have ha := h a.1
          rw [findEntry_cons, if_pos rfl, findEntry_cons, if_neg (by omega),
            findEntry_eq_none fun e he => Nat.lt_trans hlt (hbt e he)] at ha
          cases ha
        · exact heq
        · have hb := h b.1
          rw [findEntry_cons, if_neg (by omega), findEntry_cons, if_pos rfl,
            findEntry_eq_none fun e he => Nat.lt_trans hgt (has e he)] at hb
          cases hb
      have hvalue : a.2 = b.2 := by
        have ha := h a.1
        rw [findEntry_cons, if_pos rfl, findEntry_cons, if_pos hrank.symm] at ha
        exact Option.some.inj ha
      have htail : s = t := by
        refine ih hs ht fun key => ?_
        by_cases hk : rank a.1 = rank key
        · rw [findEntry_eq_none fun e he => hk ▸ has e he,
            findEntry_eq_none fun e he => hk ▸ hrank ▸ hbt e he]
        · have hkey := h key
          rwa [findEntry_cons, if_neg hk, findEntry_cons, if_neg (hrank ▸ hk)] at hkey
      rw [Prod.ext (rank_injective _ _ hrank) hvalue, htail]

/-! ### Tables -/

@[simp] theorem get?_empty (key : κ) : (empty : Table κ ν).get? key = none := rfl

theorem get?_insert (t : Table κ ν) (key other : κ) (value : ν) :
    (t.insert key value).get? other = if rank key = rank other then some value else t.get? other :=
  findEntry_insertEntry key other value t.entries

@[simp] theorem get?_insert_self (t : Table κ ν) (key : κ) (value : ν) :
    (t.insert key value).get? key = some value := by
  rw [get?_insert, if_pos rfl]

theorem get?_erase (t : Table κ ν) (key other : κ) :
    (t.erase key).get? other = if rank key = rank other then none else t.get? other :=
  findEntry_eraseEntry key other t.entries

@[simp] theorem get?_erase_self (t : Table κ ν) (key : κ) : (t.erase key).get? key = none := by
  rw [get?_erase, if_pos rfl]

theorem get?_set (t : Table κ ν) (key other : κ) (value : Option ν) :
    (t.set key value).get? other = if rank key = rank other then value else t.get? other := by
  cases value with
  | none => exact get?_erase t key other
  | some v => exact get?_insert t key other v

/-- Tables that answer every look-up alike are equal. -/
theorem ext_get? {s t : Table κ ν} (h : ∀ key, s.get? key = t.get? key) : s = t := by
  cases s with
  | mk entries ascending =>
    cases t with
    | mk others ascending' =>
      cases eq_of_findEntry_eq ascending ascending' h
      rfl

/-! ### Changing every value -/

/-- Change every value of a table. -/
def mapValues (f : ν → μ) (t : Table κ ν) : Table κ μ where
  entries := t.entries.map fun e => (e.1, f e.2)
  ascending := by
    rw [Ascending, List.pairwise_map]
    exact t.ascending

theorem entries_mapValues (f : ν → μ) (t : Table κ ν) :
    (t.mapValues f).entries = t.entries.map fun e => (e.1, f e.2) := rfl

theorem get?_mapValues (f : ν → μ) (t : Table κ ν) (key : κ) :
    (t.mapValues f).get? key = (t.get? key).map f := by
  rw [get?, get?, entries_mapValues]
  induction t.entries with
  | nil => rfl
  | cons e rest ih =>
    rw [List.map_cons, findEntry_cons, findEntry_cons, ih]
    split <;> rfl

theorem mapValues_set (f : ν → μ) (t : Table κ ν) (key : κ) (value : Option ν) :
    (t.set key value).mapValues f = (t.mapValues f).set key (value.map f) := by
  refine ext_get? fun other => ?_
  rw [get?_mapValues, get?_set, get?_set, get?_mapValues]
  split <;> rfl

theorem mapValues_insert (f : ν → μ) (t : Table κ ν) (key : κ) (value : ν) :
    (t.insert key value).mapValues f = (t.mapValues f).insert key (f value) :=
  mapValues_set f t key (some value)

end ShaderEffect.Table
