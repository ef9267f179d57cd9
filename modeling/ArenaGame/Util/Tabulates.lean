import Mathlib.Logic.Function.Basic

/-!
# Tables over items with distinct keys

A program holds items, each with a key of its own, and keeps a table that says something about each
item under its key: an index of the items, or of some of them.  `Tabulates` says that the table is
up to date; the lemmas say what has to happen to the table when an item changes, comes or goes.
-/

section Tables

variable {P C K V : Type*}

/-- No two items have the same key. -/
def KeysDistinct (items : P → Option C) (key : C → K) : Prop :=
  ∀ ⦃p q c d⦄, items p = some c → items q = some d → key c = key d → p = q

/-- The table holds what `entry` says of each item, and nothing else. -/
structure Tabulates (table : K → Option V) (items : P → Option C) (key : C → K)
    (entry : P → C → Option V) : Prop where
  lookup : ∀ ⦃p c⦄, items p = some c → table (key c) = entry p c
  exists_item : ∀ ⦃k v⦄, table k = some v → ∃ p c, items p = some c ∧ key c = k

variable {table table' : K → Option V} {items : P → Option C} {key : C → K}
  {entry : P → C → Option V} {p : P} {c c' : C}

theorem Tabulates.lookup_eq_some_iff (h : Tabulates table items key entry) {k : K} {v : V} :
    table k = some v ↔ ∃ p c, items p = some c ∧ key c = k ∧ entry p c = some v := by
  constructor
  · intro hv
    obtain ⟨p, c, hc, rfl⟩ := h.exists_item hv
    exact ⟨p, c, hc, rfl, (h.lookup hc).symm.trans hv⟩
  · rintro ⟨p, c, hc, rfl, hv⟩
    exact (h.lookup hc).trans hv

theorem Tabulates.lookup_of_fresh (h : Tabulates table items key entry) {k : K}
    (hfresh : ∀ q d, items q = some d → key d ≠ k) : table k = none := by
  cases hk : table k with
  | none => rfl
  | some v =>
    obtain ⟨q, d, hd, heq⟩ := h.exists_item hk
    exact absurd heq (hfresh q d hd)

variable [DecidableEq P]

theorem KeysDistinct.change (h : KeysDistinct items key) (hc : items p = some c)
    (hkey : key c' = key c) : KeysDistinct (Function.update items p (some c')) key := by
  intro q r d e hd he heq
  rw [Function.update_apply] at hd he
  split at hd <;> split at he
  · rename_i hq hr
    rw [hq, hr]
  · rename_i hq hr
    obtain rfl := Option.some.inj hd
    rw [hq, h hc he (hkey.symm.trans heq)]
  · rename_i hq hr
    obtain rfl := Option.some.inj he
    rw [hr, h hd hc (heq.trans hkey)]
  · exact h hd he heq

theorem KeysDistinct.insert (h : KeysDistinct items key)
    (hfresh : ∀ q d, items q = some d → key d ≠ key c) :
    KeysDistinct (Function.update items p (some c)) key := by
  intro q r d e hd he heq
  rw [Function.update_apply] at hd he
  split at hd <;> split at he
  · rename_i hq hr
    rw [hq, hr]
  · obtain rfl := Option.some.inj hd
    exact absurd heq.symm (hfresh r e he)
  · obtain rfl := Option.some.inj he
    exact absurd heq (hfresh q d hd)
  · exact h hd he heq

theorem KeysDistinct.erase (h : KeysDistinct items key) :
    KeysDistinct (Function.update items p none) key := by
  intro q r d e hd he heq
  rw [Function.update_apply] at hd he
  split at hd <;> split at he
  · cases hd
  · cases hd
  · cases he
  · exact h hd he heq

variable [DecidableEq K]

/-- An item changes, but not its key. -/
theorem Tabulates.change (h : Tabulates table items key entry) (hkeys : KeysDistinct items key)
    (hc : items p = some c) (hkey : key c' = key c)
    (htable : ∀ k, table' k = if k = key c then entry p c' else table k) :
    Tabulates table' (Function.update items p (some c')) key entry where
  lookup q d hd := by
    rw [Function.update_apply] at hd
    rw [htable]
    split at hd
    · rename_i hq
      obtain rfl := Option.some.inj hd
      rw [if_pos hkey, hq]
    · rename_i hq
      rw [if_neg fun heq => hq (hkeys hd hc heq)]
      exact h.lookup hd
  exists_item k v hv := by
    rw [htable] at hv
    split at hv
    · rename_i hk
      exact ⟨p, c', by rw [Function.update_self], hkey.trans hk.symm⟩
    · rename_i hk
      obtain ⟨q, d, hd, heq⟩ := h.exists_item hv
      have hq : q ≠ p := by
        rintro rfl
        obtain rfl := Option.some.inj (hd.symm.trans hc)
        exact hk heq.symm
      exact ⟨q, d, by rwa [Function.update_of_ne hq], heq⟩

/-- A new item comes with a new key. -/
theorem Tabulates.insert (h : Tabulates table items key entry) (hp : items p = none)
    (hfresh : ∀ q d, items q = some d → key d ≠ key c)
    (htable : ∀ k, table' k = if k = key c then entry p c else table k) :
    Tabulates table' (Function.update items p (some c)) key entry where
  lookup q d hd := by
    rw [Function.update_apply] at hd
    rw [htable]
    split at hd
    · rename_i hq
      obtain rfl := Option.some.inj hd
      rw [if_pos rfl, hq]
    · rw [if_neg (hfresh q d hd)]
      exact h.lookup hd
  exists_item k v hv := by
    rw [htable] at hv
    split at hv
    · rename_i hk
      exact ⟨p, c, by rw [Function.update_self], hk.symm⟩
    · obtain ⟨q, d, hd, heq⟩ := h.exists_item hv
      have hq : q ≠ p := by
        rintro rfl
        rw [hp] at hd
        cases hd
      exact ⟨q, d, by rwa [Function.update_of_ne hq], heq⟩

/-- An item goes, and its entry with it. -/
theorem Tabulates.erase (h : Tabulates table items key entry) (hkeys : KeysDistinct items key)
    (hc : items p = some c) (htable : ∀ k, table' k = if k = key c then none else table k) :
    Tabulates table' (Function.update items p none) key entry where
  lookup q d hd := by
    rw [Function.update_apply] at hd
    split at hd
    · cases hd
    · rename_i hq
      rw [htable, if_neg fun heq => hq (hkeys hd hc heq)]
      exact h.lookup hd
  exists_item k v hv := by
    rw [htable] at hv
    split at hv
    · cases hv
    · rename_i hk
      obtain ⟨q, d, hd, heq⟩ := h.exists_item hv
      have hq : q ≠ p := by
        rintro rfl
        obtain rfl := Option.some.inj (hd.symm.trans hc)
        exact hk heq.symm
      exact ⟨q, d, by rwa [Function.update_of_ne hq], heq⟩

end Tables
