import ShaderEffect.Number.Single

/-!
# Tables

A table holds at most one value per key, in ascending order of the keys. Two tables are equal as
soon as they answer every look-up alike.
-/

namespace ShaderEffect

/-- Keys are told apart and ordered by a number. -/
class TableKey (κ : Type) where
  rank : κ → Nat
  rank_injective : ∀ a b : κ, rank a = rank b → a = b

instance : TableKey Nat where
  rank n := n
  rank_injective _ _ h := h

instance : TableKey UInt32 where
  rank w := w.toNat
  rank_injective _ _ h := UInt32.toNat_inj.1 h

/-- Pairs are ordered by their first component, then by their second. -/
instance : TableKey (UInt32 × UInt32) where
  rank p := p.1.toNat * 2 ^ 32 + p.2.toNat
  rank_injective a b h := by
    have ha := a.2.toNat_lt
    have hb := b.2.toNat_lt
    refine Prod.ext (UInt32.toNat_inj.1 ?_) (UInt32.toNat_inj.1 ?_) <;> omega

namespace Table

variable {κ ν : Type} [TableKey κ]

open TableKey

/-- The keys ascend strictly. -/
def Ascending (entries : List (κ × ν)) : Prop :=
  entries.Pairwise fun a b => rank a.1 < rank b.1

/-- Put an entry in its place, in front of greater keys and instead of an equal one. -/
def insertEntry (key : κ) (value : ν) : List (κ × ν) → List (κ × ν)
  | [] => [(key, value)]
  | e :: rest =>
    if rank key < rank e.1 then (key, value) :: e :: rest
    else if rank key = rank e.1 then (key, value) :: rest
    else e :: insertEntry key value rest

/-- Remove the entry of a key. -/
def eraseEntry (key : κ) (entries : List (κ × ν)) : List (κ × ν) :=
  entries.filter fun e => rank e.1 != rank key

/-- The value of a key. -/
def findEntry (key : κ) (entries : List (κ × ν)) : Option ν :=
  (entries.find? fun e => rank e.1 == rank key).map (·.2)

theorem mem_insertEntry {key : κ} {value : ν} {entries : List (κ × ν)} {e : κ × ν}
    (h : e ∈ insertEntry key value entries) : e = (key, value) ∨ e ∈ entries := by
  induction entries with
  | nil => simpa [insertEntry] using h
  | cons x rest ih =>
    simp only [insertEntry] at h
    split at h
    · simpa using h
    · split at h
      · rcases List.mem_cons.1 h with h | h
        · exact .inl h
        · exact .inr (List.mem_cons_of_mem _ h)
      · rcases List.mem_cons.1 h with h | h
        · exact .inr (h ▸ List.mem_cons_self)
        · exact (ih h).imp_right (List.mem_cons_of_mem _)

theorem ascending_insertEntry (key : κ) (value : ν) {entries : List (κ × ν)}
    (h : Ascending entries) : Ascending (insertEntry key value entries) := by
  induction entries with
  | nil => simp [insertEntry, Ascending]
  | cons e rest ih =>
    have ⟨he, hrest⟩ := List.pairwise_cons.1 h
    simp only [insertEntry]
    split
    case isTrue hlt =>
      refine List.pairwise_cons.2 ⟨fun x hx => ?_, h⟩
      rcases List.mem_cons.1 hx with rfl | hx
      · exact hlt
      · exact Nat.lt_trans hlt (he x hx)
    case isFalse hge =>
      split
      case isTrue heq => exact List.pairwise_cons.2 ⟨fun x hx => heq ▸ he x hx, hrest⟩
      case isFalse hne =>
        refine List.pairwise_cons.2 ⟨fun x hx => ?_, ih hrest⟩
        rcases mem_insertEntry hx with rfl | hx
        · show rank e.1 < rank key
          omega
        · exact he x hx

theorem ascending_eraseEntry (key : κ) {entries : List (κ × ν)} (h : Ascending entries) :
    Ascending (eraseEntry key entries) :=
  h.filter _

end Table

/-- A table of values by key. -/
structure Table (κ ν : Type) [TableKey κ] where
  entries : List (κ × ν)
  ascending : Table.Ascending entries

namespace Table

variable {κ ν : Type} [TableKey κ]

/-- The table without entries. -/
def empty : Table κ ν := ⟨[], List.Pairwise.nil⟩

instance : Inhabited (Table κ ν) := ⟨empty⟩

/-- The value of a key. -/
def get? (t : Table κ ν) (key : κ) : Option ν := findEntry key t.entries

/-- Give a key a value. -/
def insert (t : Table κ ν) (key : κ) (value : ν) : Table κ ν :=
  ⟨insertEntry key value t.entries, ascending_insertEntry key value t.ascending⟩

/-- Take the value from a key. -/
def erase (t : Table κ ν) (key : κ) : Table κ ν :=
  ⟨eraseEntry key t.entries, ascending_eraseEntry key t.ascending⟩

/-- Give a key a value, or take it away. -/
def set (t : Table κ ν) (key : κ) : Option ν → Table κ ν
  | some value => t.insert key value
  | none => t.erase key

end Table

end ShaderEffect
