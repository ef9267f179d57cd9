import Mathlib.Data.Finmap

/-!
# Finite maps under the interface of `std::unordered_map`

A map is a `Finmap`, and two maps are equal when every look-up agrees.  Each operation is described
by what a look-up finds afterwards.
-/

/-- A finite map from `K` to `V` whose order of entries is not observable. -/
abbrev UnorderedMap (K V : Type*) := Finmap fun _ : K => V

namespace UnorderedMap

variable {K V : Type*} [DecidableEq K] (m : UnorderedMap K V)

/-- `map.emplace(k, v)`: an entry that is there stays. -/
def emplace (k : K) (v : V) : UnorderedMap K V := if k ∈ m then m else m.insert k v

/-- `it->second = f(it->second)` through `map.find(k)`, if that finds an entry. -/
def modify (k : K) (f : V → V) : UnorderedMap K V :=
  match m.lookup k with
  | some v => m.insert k (f v)
  | none => m

@[simp] theorem lookup_insert (k k' : K) (v : V) :
    (m.insert k v).lookup k' = if k' = k then some v else m.lookup k' := by
  by_cases h : k' = k
  · subst h
    rw [if_pos rfl, Finmap.lookup_insert]
  · rw [if_neg h, Finmap.lookup_insert_of_ne _ h]

@[simp] theorem lookup_erase (k k' : K) :
    (m.erase k).lookup k' = if k' = k then none else m.lookup k' := by
  by_cases h : k' = k
  · subst h
    rw [if_pos rfl, Finmap.lookup_erase]
  · rw [if_neg h, Finmap.lookup_erase_ne h]

theorem lookup_emplace_of_none {k : K} (h : m.lookup k = none) (k' : K) (v : V) :
    (emplace m k v).lookup k' = if k' = k then some v else m.lookup k' := by
  rw [emplace, if_neg (Finmap.lookup_eq_none.mp h), lookup_insert]

@[simp] theorem lookup_modify (k k' : K) (f : V → V) :
    (modify m k f).lookup k' = if k' = k then (m.lookup k).map f else m.lookup k' := by
  unfold modify
  cases h : m.lookup k with
  | none =>
    by_cases hk : k' = k
    · subst hk
      rw [if_pos rfl, h]
      rfl
    · rw [if_neg hk]
  | some v => simp

/-- Taking one entry out of a map takes it out of the multiset of entries. -/
theorem entries_eq_cons_erase {k : K} {v : V} (h : m.lookup k = some v) :
    m.entries = ⟨k, v⟩ ::ₘ (m.erase k).entries := by
  have hm : m = (m.erase k).insert k v := by
    apply Finmap.ext_lookup
    intro k'
    by_cases hk : k' = k
    · subst hk
      simp [h]
    · simp [hk]
  conv_lhs => rw [hm]
  exact Finmap.entries_insert_of_notMem (by simp [Finmap.mem_erase])

/-- The values of a map, each as often as it occurs. -/
def values : Multiset V := m.entries.map Sigma.snd

theorem values_eq_cons_erase {k : K} {v : V} (h : m.lookup k = some v) :
    values m = v ::ₘ values (m.erase k) := by
  rw [values, entries_eq_cons_erase m h, Multiset.map_cons]
  rfl

theorem mem_values {v : V} : v ∈ values m ↔ ∃ k, m.lookup k = some v := by
  simp only [values, Multiset.mem_map, Sigma.exists]
  constructor
  · rintro ⟨k, v', hmem, rfl⟩
    exact ⟨k, Finmap.lookup_eq_some_iff.mpr hmem⟩
  · rintro ⟨k, hk⟩
    exact ⟨k, v, Finmap.lookup_eq_some_iff.mp hk, rfl⟩

end UnorderedMap
