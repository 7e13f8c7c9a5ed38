import Mathlib.Data.List.AList
import Mathlib.Data.List.Perm.Subperm

/-!
# Dict — finite maps with values of one type

`Dict κ ν` is Mathlib's association list with unique keys at a constant family of values: `insert`,
`erase`, `lookup` and `keys` come from there.  Added here are the map over the values, which commutes
with all of them, maps of one entry, and the size of a map that has a given range of keys.
-/

namespace Sdr
namespace Lib

universe u v w

abbrev Dict (κ : Type u) (ν : Type v) := AList (fun _ : κ => ν)

namespace Dict

variable {κ : Type u} {ν : Type v} {μ : Type w}

/-- Number of entries. -/
def size (d : Dict κ ν) : Nat :=
  d.keys.length

/-- The map with every value replaced by its image. -/
def mapVal (f : ν → μ) (d : Dict κ ν) : Dict κ μ where
  entries := d.entries.map (fun e => ⟨e.1, f e.2⟩)
  nodupKeys := by
    have hkeys : (d.entries.map (fun e => (⟨e.1, f e.2⟩ : (_ : κ) × μ))).keys = d.entries.keys := by
      simp [List.keys, Function.comp_def]
    unfold List.NodupKeys
    rw [hkeys]
    exact d.nodupKeys

@[simp] theorem keys_mapVal (f : ν → μ) (d : Dict κ ν) : (mapVal f d).keys = d.keys := by
  simp [mapVal, AList.keys, List.keys, Function.comp_def]

@[simp] theorem size_mapVal (f : ν → μ) (d : Dict κ ν) : size (mapVal f d) = size d := by
  simp [size]

variable [DecidableEq κ]

theorem lookup_insert (d : Dict κ ν) (k k' : κ) (v : ν) :
    (d.insert k v).lookup k' = if k' = k then some v else d.lookup k' := by
  by_cases h : k' = k
  · rw [if_pos h, h, AList.lookup_insert]
  · rw [if_neg h, AList.lookup_insert_ne h]

theorem lookup_erase (d : Dict κ ν) (k k' : κ) :
    (d.erase k).lookup k' = if k' = k then none else d.lookup k' := by
  by_cases h : k' = k
  · rw [if_pos h, h, AList.lookup_erase]
  · rw [if_neg h, AList.lookup_erase_ne h]

@[simp] theorem lookup_singleton (k : κ) (v : ν) :
    (AList.singleton k v : Dict κ ν).lookup k = some v := by
  exact List.dlookup_cons_eq (β := fun _ => ν) [] k v

@[simp] theorem erase_singleton (k : κ) (v : ν) :
    (AList.singleton k v : Dict κ ν).erase k = ∅ := by
  apply AList.ext
  exact List.kerase_cons_eq rfl

theorem mem_iff_lookup {d : Dict κ ν} {k : κ} : k ∈ d.keys ↔ ∃ v, d.lookup k = some v := by
  rw [← AList.mem_keys, ← AList.lookup_isSome, Option.isSome_iff_exists]

/-- A new key makes the map one entry larger. -/
theorem size_insert_of_lookup_eq_none {d : Dict κ ν} {k : κ} (h : d.lookup k = none) (v : ν) :
    size (d.insert k v) = size d + 1 := by
  have hk : k ∉ d.keys := AList.lookup_eq_none.1 h
  simp [size, AList.keys_insert, List.erase_of_not_mem hk]

/-- A map that has all of a list of distinct keys is at least as large. -/
theorem length_le_size {d : Dict κ ν} {ks : List κ} (hnodup : ks.Nodup)
    (h : ∀ k ∈ ks, ∃ v, d.lookup k = some v) : ks.length ≤ size d := by
  have hsub : ks ⊆ d.keys := fun k hk => mem_iff_lookup.2 (h k hk)
  exact (hnodup.subperm hsub).length_le

variable (f : ν → μ)

theorem kerase_map (k : κ) (l : List ((_ : κ) × ν)) :
    (l.map (fun e => (⟨e.1, f e.2⟩ : (_ : κ) × μ))).kerase k =
      (l.kerase k).map (fun e => ⟨e.1, f e.2⟩) := by
  induction l with
  | nil =>
      rfl
  | cons e l ih =>
      by_cases h : k = e.1
      · simp [h]
      · simp [h, ih]

@[simp] theorem mapVal_erase (d : Dict κ ν) (k : κ) :
    mapVal f (d.erase k) = (mapVal f d).erase k :=
  AList.ext (kerase_map f k d.entries).symm

@[simp] theorem mapVal_insert (d : Dict κ ν) (k : κ) (v : ν) :
    mapVal f (d.insert k v) = (mapVal f d).insert k (f v) := by
  apply AList.ext
  show (⟨k, f v⟩ :: (d.entries.kerase k).map (fun e => ⟨e.1, f e.2⟩) : List ((_ : κ) × μ)) =
    ⟨k, f v⟩ :: (d.entries.map (fun e => ⟨e.1, f e.2⟩)).kerase k
  rw [kerase_map]

@[simp] theorem lookup_mapVal (d : Dict κ ν) (k : κ) :
    (mapVal f d).lookup k = (d.lookup k).map f := by
  rcases d with ⟨l, hl⟩
  show (l.map (fun e => (⟨e.1, f e.2⟩ : (_ : κ) × μ))).dlookup k = (l.dlookup k).map f
  clear hl
  induction l with
  | nil =>
      rfl
  | cons e l ih =>
      rcases e with ⟨k', v⟩
      by_cases h : k = k'
      · subst h
        simp
      · rw [List.map_cons, List.dlookup_cons_ne _ _ h, List.dlookup_cons_ne _ _ h, ih]

end Dict

end Lib
end Sdr
