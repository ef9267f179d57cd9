import Mathlib.Algebra.Order.Group.Nat
import Mathlib.Data.List.Basic

/-!
# Cutting a growing stream into items

A receiver holds the data that arrived and was not used yet, and repeatedly looks at its front.  It
sees a complete item, or it has to wait for more data, or it sees that the stream is broken.  A
`Cutter` is such a decision procedure whose verdicts are final: an item or a broken front stays what
it is when more data arrives.

`Cutter.run s` cuts all items off `s` and returns them with the data that is left.  Running after
every chunk on what was left before gives the same as one run over the whole stream
(`Cutter.run_append`, `Cutter.foldl_feed`), so the items do not depend on the chunks.
-/

/-- What the front of the held data is. -/
inductive Cut (β : Type*) where
  | wait
  | halt
  | item (b : β) (length : ℕ)

structure Cutter (α β : Type*) where
  cut : List α → Cut β
  item_pos : ∀ {s b n}, cut s = .item b n → 0 < n
  item_le : ∀ {s b n}, cut s = .item b n → n ≤ s.length
  item_append : ∀ {s b n} (t), cut s = .item b n → cut (s ++ t) = .item b n
  halt_append : ∀ {s} (t), cut s = .halt → cut (s ++ t) = .halt

namespace Cutter

variable {α β : Type*} (c : Cutter α β)

/-- The items at the front of `s`, and the data left behind them. -/
def run (s : List α) : List β × List α :=
  match h : c.cut s with
  | .item b n =>
    (b :: (run (s.drop n)).1, (run (s.drop n)).2)
  | _ => ([], s)
termination_by s.length
decreasing_by
  all_goals
    have hpos := c.item_pos h
    have hle := c.item_le h
    rw [List.length_drop]
    omega

def items (s : List α) : List β := (c.run s).1

def rest (s : List α) : List α := (c.run s).2

variable {c}

theorem run_of_item {s : List α} {b : β} {n : ℕ} (h : c.cut s = .item b n) :
    c.run s = (b :: c.items (s.drop n), c.rest (s.drop n)) := by
  rw [run]
  split
  · rename_i b' n' h'
    obtain ⟨rfl, rfl⟩ : b' = b ∧ n' = n := by simpa using h'.symm.trans h
    rfl
  · rename_i hne
    exact absurd h (hne b n)

theorem run_of_not_item {s : List α} (h : ∀ b n, c.cut s ≠ .item b n) : c.run s = ([], s) := by
  rw [run]
  split
  · rename_i b n h'
    exact absurd h' (h b n)
  · rfl

theorem items_of_item {s : List α} {b : β} {n : ℕ} (h : c.cut s = .item b n) :
    c.items s = b :: c.items (s.drop n) := by
  rw [items, run_of_item h]

theorem rest_of_item {s : List α} {b : β} {n : ℕ} (h : c.cut s = .item b n) :
    c.rest s = c.rest (s.drop n) := by
  rw [rest, run_of_item h]

theorem items_of_not_item {s : List α} (h : ∀ b n, c.cut s ≠ .item b n) : c.items s = [] := by
  rw [items, run_of_not_item h]

theorem rest_of_not_item {s : List α} (h : ∀ b n, c.cut s ≠ .item b n) : c.rest s = s := by
  rw [rest, run_of_not_item h]

/-- The induction of a run: peel one item, or stop. -/
theorem run_induction {P : List α → Prop}
    (item : ∀ s b n, c.cut s = .item b n → P (s.drop n) → P s)
    (stop : ∀ s, (∀ b n, c.cut s ≠ .item b n) → P s) (s : List α) : P s := by
  induction hlen : s.length using Nat.strong_induction_on generalizing s with
  | _ k ih =>
    by_cases h : ∃ b n, c.cut s = .item b n
    · obtain ⟨b, n, hcut⟩ := h
      have hpos := c.item_pos hcut
      have hle := c.item_le hcut
      exact item s b n hcut (ih (s.drop n).length (by rw [List.length_drop]; omega) _ rfl)
    · push Not at h
      exact stop s h

/-- A run over a longer stream is a run over its beginning and a run over what that one left. -/
theorem run_append (s t : List α) :
    c.run (s ++ t) = (c.items s ++ c.items (c.rest s ++ t), c.rest (c.rest s ++ t)) := by
  induction s using run_induction (c := c) with
  | item s b n hcut ih =>
    have hdrop : (s ++ t).drop n = s.drop n ++ t := List.drop_append_of_le_length (c.item_le hcut)
    rw [run_of_item (c.item_append t hcut), items_of_item hcut, rest_of_item hcut, hdrop]
    simp only [items, rest] at ih ⊢
    rw [ih]
    rfl
  | stop s h =>
    rw [items_of_not_item h, rest_of_not_item h]
    rfl

theorem items_append (s t : List α) :
    c.items (s ++ t) = c.items s ++ c.items (c.rest s ++ t) := by
  rw [items, run_append]

theorem rest_append (s t : List α) : c.rest (s ++ t) = c.rest (c.rest s ++ t) := by
  rw [rest, run_append]

/-- A broken front stays where it is. -/
theorem cut_rest_append_of_halt {s : List α} (h : c.cut (c.rest s) = .halt) (t : List α) :
    c.cut (c.rest (s ++ t)) = .halt := by
  have hhalt := c.halt_append t h
  have hstop : ∀ b n, c.cut (c.rest s ++ t) ≠ .item b n := by
    intro b n
    rw [hhalt]
    simp
  rwa [rest_append, rest_of_not_item hstop]

/-- Nothing is cut off behind a broken front. -/
theorem items_append_of_halt {s : List α} (h : c.cut (c.rest s) = .halt) (t : List α) :
    c.items (s ++ t) = c.items s := by
  have hstop : ∀ b n, c.cut (c.rest s ++ t) ≠ .item b n := by
    intro b n
    rw [c.halt_append t h]
    simp
  rw [items_append, items_of_not_item hstop, List.append_nil]

/-- A stream that has been received in part shows the first of its items. -/
theorem items_isPrefix {s t : List α} (h : s <+: t) : c.items s <+: c.items t := by
  obtain ⟨u, rfl⟩ := h
  rw [items_append]
  exact List.prefix_append _ _

theorem cut_rest_ne_halt_of_isPrefix {s t : List α} (h : s <+: t)
    (hcut : c.cut (c.rest t) ≠ .halt) : c.cut (c.rest s) ≠ .halt := by
  obtain ⟨u, rfl⟩ := h
  exact fun hhalt => hcut (cut_rest_append_of_halt hhalt u)

/-- What is left behind the items does not start with an item. -/
theorem cut_rest_ne_item (s : List α) (b : β) (n : ℕ) : c.cut (c.rest s) ≠ .item b n := by
  induction s using run_induction (c := c) with
  | item s b' n' hcut ih => rwa [rest_of_item hcut]
  | stop s h =>
    rw [rest_of_not_item h]
    exact h b n

theorem rest_rest (s : List α) : c.rest (c.rest s) = c.rest s :=
  rest_of_not_item (cut_rest_ne_item s)

theorem cut_ne_item_of_rest_eq {s : List α} (h : c.rest s = s) (b : β) (n : ℕ) :
    c.cut s ≠ .item b n := by
  have hrest := cut_rest_ne_item (c := c) s b n
  rwa [h] at hrest

/-- There is no item in data that is left. -/
theorem items_of_rest_eq {s : List α} (h : c.rest s = s) : c.items s = [] :=
  items_of_not_item (cut_ne_item_of_rest_eq h)

/-! ### Encodings of the items -/

section Encoding

variable {encode : β → List α}

/-- A stream of encoded items is cut into these items, whatever follows. -/
theorem run_flatMap {bs : List β} (h : ∀ b ∈ bs, c.cut (encode b) = .item b (encode b).length)
    (t : List α) : c.run (bs.flatMap encode ++ t) = (bs ++ c.items t, c.rest t) := by
  induction bs with
  | nil => rfl
  | cons b bs ih =>
    have hcut : c.cut (encode b ++ (bs.flatMap encode ++ t)) = .item b (encode b).length :=
      c.item_append _ (h b (List.mem_cons_self ..))
    have ih := ih fun b' hb' => h b' (List.mem_cons_of_mem _ hb')
    rw [List.flatMap_cons, List.append_assoc, run_of_item hcut, List.drop_left, items, rest, ih]
    rfl

/-- If every item is cut off as its encoding, a stream is the encodings of its items with the data
that is left. -/
theorem flatMap_items_append_rest (h : ∀ s b n, c.cut s = .item b n → s.take n = encode b)
    (s : List α) : (c.items s).flatMap encode ++ c.rest s = s := by
  induction s using run_induction (c := c) with
  | item s b n hcut ih =>
    rw [items_of_item hcut, rest_of_item hcut, List.flatMap_cons, List.append_assoc, ih,
      ← h s b n hcut, List.take_append_drop]
  | stop s hstop =>
    rw [items_of_not_item hstop, rest_of_not_item hstop]
    rfl

end Encoding

variable (c) in
/-- One arrival of data: the items so far and the held data go on. -/
def feed (st : List β × List α) (chunk : List α) : List β × List α :=
  (st.1 ++ c.items (st.2 ++ chunk), c.rest (st.2 ++ chunk))

/-- **The cuts of the stream do not matter**: after any chunks the receiver has the items of the
whole stream and holds what is left behind them. -/
theorem foldl_feed (s : List α) (chunks : List (List α)) :
    chunks.foldl c.feed (c.run s) = c.run (s ++ chunks.flatten) := by
  induction chunks generalizing s with
  | nil => simp
  | cons chunk chunks ih =>
    rw [List.foldl_cons, List.flatten_cons, ← List.append_assoc, ← ih, run_append]
    rfl

end Cutter
