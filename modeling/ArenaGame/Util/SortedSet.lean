import Mathlib.Data.List.Basic
import Mathlib.Data.List.Sort
import Mathlib.Order.Lattice
import Mathlib.Order.Defs.LinearOrder

/-!
# Finite sets under the interface of `std::set`

A `SortedSet` is the strictly increasing list of its elements, the order in which `std::set` is
traversed.  `before` and `after` are the neighbours that `std::prev` and `std::next` reach.
-/

structure SortedSet (α : Type*) [LinearOrder α] where
  toList : List α
  sorted : toList.Pairwise (· < ·)

namespace SortedSet

variable {α : Type*} [LinearOrder α] (s : SortedSet α)

instance : Membership α (SortedSet α) := ⟨fun s a => a ∈ s.toList⟩

instance (a : α) : Decidable (a ∈ s) := inferInstanceAs (Decidable (a ∈ s.toList))

theorem mem_toList {a : α} : a ∈ s.toList ↔ a ∈ s := Iff.rfl

def empty : SortedSet α := ⟨[], .nil⟩

def insert (a : α) : SortedSet α where
  toList := s.toList.filter (· < a) ++ a :: s.toList.filter (a < ·)
  sorted := by
    rw [List.pairwise_append]
    refine ⟨s.sorted.filter _, List.pairwise_cons.mpr ⟨?_, s.sorted.filter _⟩, ?_⟩
    · intro b hb
      simpa using (List.mem_filter.mp hb).2
    · intro b hb c hc
      have hba : b < a := by simpa using (List.mem_filter.mp hb).2
      rcases List.mem_cons.mp hc with rfl | hc
      · exact hba
      · exact hba.trans (by simpa using (List.mem_filter.mp hc).2)

def erase (a : α) : SortedSet α where
  toList := s.toList.filter (· ≠ a)
  sorted := s.sorted.filter _

def filter (p : α → Bool) : SortedSet α where
  toList := s.toList.filter p
  sorted := s.sorted.filter _

/-- The element in front of the position of `a`. -/
def before (a : α) : Option α := (s.toList.filter (· < a)).getLast?

/-- The element behind the position of `a`. -/
def after (a : α) : Option α := (s.toList.filter (a < ·)).head?

@[simp] theorem notMem_empty (a : α) : a ∉ (empty : SortedSet α) := List.not_mem_nil

@[simp] theorem mem_insert {a b : α} : b ∈ s.insert a ↔ b = a ∨ b ∈ s := by
  rw [← mem_toList, ← mem_toList]
  simp only [insert, List.mem_append, List.mem_cons, List.mem_filter, decide_eq_true_eq]
  constructor
  · rintro (⟨h, -⟩ | rfl | ⟨h, -⟩)
    · exact Or.inr h
    · exact Or.inl rfl
    · exact Or.inr h
  · rintro (rfl | h)
    · exact Or.inr (Or.inl rfl)
    · rcases lt_trichotomy b a with hlt | rfl | hgt
      · exact Or.inl ⟨h, hlt⟩
      · exact Or.inr (Or.inl rfl)
      · exact Or.inr (Or.inr ⟨h, hgt⟩)

@[simp] theorem mem_erase {a b : α} : b ∈ s.erase a ↔ b ≠ a ∧ b ∈ s := by
  rw [← mem_toList, ← mem_toList]
  simp [erase, and_comm]

@[simp] theorem mem_filter {p : α → Bool} {b : α} : b ∈ s.filter p ↔ b ∈ s ∧ p b = true :=
  List.mem_filter

/-- A set is given by its elements. -/
@[ext] theorem ext {s t : SortedSet α} (h : ∀ a, a ∈ s ↔ a ∈ t) : s = t := by
  have hlist : s.toList = t.toList := s.sorted.eq_of_mem_iff t.sorted h
  cases s
  cases t
  cases hlist
  rfl

variable {s}

theorem le_getLast_of_sorted {l : List α} (hl : l.Pairwise (· < ·)) {b : α}
    (hb : l.getLast? = some b) {c : α} (hc : c ∈ l) : c ≤ b := by
  obtain ⟨l', rfl⟩ := List.getLast?_eq_some_iff.mp hb
  rcases List.mem_append.mp hc with hc | hc
  · exact ((List.pairwise_append.mp hl).2.2 c hc b (List.mem_singleton_self b)).le
  · exact (List.mem_singleton.mp hc).le

theorem head_le_of_sorted {l : List α} (hl : l.Pairwise (· < ·)) {b : α}
    (hb : l.head? = some b) {c : α} (hc : c ∈ l) : b ≤ c := by
  obtain ⟨l', rfl⟩ := List.head?_eq_some_iff.mp hb
  rcases List.mem_cons.mp hc with rfl | hc
  · exact le_rfl
  · exact ((List.pairwise_cons.mp hl).1 c hc).le

/-- The first element is the least one. -/
theorem head_spec {b : α} (h : s.toList.head? = some b) : b ∈ s ∧ ∀ c ∈ s, b ≤ c :=
  ⟨List.mem_of_head? h, fun _ hc => head_le_of_sorted s.sorted h hc⟩

/-- The element before `a` is the greatest one below it. -/
theorem before_spec {a b : α} (h : s.before a = some b) :
    b ∈ s ∧ b < a ∧ ∀ c ∈ s, c < a → c ≤ b := by
  have hmem := List.mem_filter.mp (List.mem_of_getLast? h)
  refine ⟨hmem.1, by simpa using hmem.2, fun c hc hlt => ?_⟩
  exact le_getLast_of_sorted (s.sorted.filter _) h (List.mem_filter.mpr ⟨hc, by simpa using hlt⟩)

/-- The element after `a` is the least one above it. -/
theorem after_spec {a b : α} (h : s.after a = some b) :
    b ∈ s ∧ a < b ∧ ∀ c ∈ s, a < c → b ≤ c := by
  have hmem := List.mem_filter.mp (List.mem_of_head? h)
  refine ⟨hmem.1, by simpa using hmem.2, fun c hc hlt => ?_⟩
  exact head_le_of_sorted (s.sorted.filter _) h (List.mem_filter.mpr ⟨hc, by simpa using hlt⟩)

/-- Below `a` there is an element before `a`. -/
theorem exists_before {a c : α} (hc : c ∈ s) (hlt : c < a) : ∃ b, s.before a = some b := by
  have hmem : c ∈ s.toList.filter (· < a) := List.mem_filter.mpr ⟨hc, by simpa using hlt⟩
  exact ⟨_, List.getLast?_eq_some_getLast (List.ne_nil_of_mem hmem)⟩

/-- Above `a` there is an element after `a`. -/
theorem exists_after {a c : α} (hc : c ∈ s) (hlt : a < c) : ∃ b, s.after a = some b := by
  have hmem : c ∈ s.toList.filter (a < ·) := List.mem_filter.mpr ⟨hc, by simpa using hlt⟩
  exact ⟨_, List.head?_eq_some_head (List.ne_nil_of_mem hmem)⟩

end SortedSet
