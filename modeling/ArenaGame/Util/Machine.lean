import Mathlib.Data.List.Basic

/-!
# Machines that react to inputs

A machine takes one input at a time, moves to the next state and puts out a list of outputs.  A run
feeds it a list of inputs, each of which has to be enabled when it comes.

`run_induction` is the invariant rule: the invariant may speak of everything that was put out so
far.  `HoldsUntil` says that a property lasts until a certain kind of step is taken.
-/

structure Machine (σ ι ο : Type*) where
  step : σ → ι → σ × List ο
  Enabled : σ → ι → Prop

namespace Machine

variable {σ ι ο : Type*} (M : Machine σ ι ο)

/-- The last state and all outputs of a run. -/
def run (s : σ) : List ι → σ × List ο
  | [] => (s, [])
  | i :: is =>
    let next := M.step s i
    let rest := run next.1 is
    (rest.1, next.2 ++ rest.2)

/-- Every input is enabled when it comes. -/
def CanRun (s : σ) : List ι → Prop
  | [] => True
  | i :: is => M.Enabled s i ∧ CanRun (M.step s i).1 is

@[simp] theorem run_nil (s : σ) : M.run s [] = (s, []) := rfl

@[simp] theorem run_cons (s : σ) (i : ι) (is : List ι) :
    M.run s (i :: is) =
      ((M.run (M.step s i).1 is).1, (M.step s i).2 ++ (M.run (M.step s i).1 is).2) := rfl

@[simp] theorem canRun_nil (s : σ) : M.CanRun s [] := trivial

@[simp] theorem canRun_cons (s : σ) (i : ι) (is : List ι) :
    M.CanRun s (i :: is) ↔ M.Enabled s i ∧ M.CanRun (M.step s i).1 is := Iff.rfl

theorem run_append (s : σ) (is js : List ι) :
    M.run s (is ++ js) =
      ((M.run (M.run s is).1 js).1, (M.run s is).2 ++ (M.run (M.run s is).1 js).2) := by
  induction is generalizing s with
  | nil => simp
  | cons i is ih => simp [ih]

/-- A run with one more input. -/
theorem run_concat (s : σ) (is : List ι) (i : ι) :
    M.run s (is ++ [i]) =
      ((M.step (M.run s is).1 i).1, (M.run s is).2 ++ (M.step (M.run s is).1 i).2) := by
  rw [run_append, run_cons, run_nil, List.append_nil]

theorem canRun_append (s : σ) (is js : List ι) :
    M.CanRun s (is ++ js) ↔ M.CanRun s is ∧ M.CanRun (M.run s is).1 js := by
  induction is generalizing s with
  | nil => simp
  | cons i is ih => simp [ih, and_assoc]

/-- The machine that takes an input only if `C` holds. -/
def restrict (C : σ → ι → Prop) : Machine σ ι ο where
  step := M.step
  Enabled s i := M.Enabled s i ∧ C s i

theorem run_restrict (C : σ → ι → Prop) (s : σ) (is : List ι) :
    (M.restrict C).run s is = M.run s is := by
  induction is generalizing s with
  | nil => rfl
  | cons i is ih =>
    rw [run_cons, run_cons, ih]
    rfl

theorem canRun_of_restrict {C : σ → ι → Prop} {s : σ} {is : List ι}
    (h : (M.restrict C).CanRun s is) : M.CanRun s is := by
  induction is generalizing s with
  | nil => trivial
  | cons i is ih => exact ⟨h.1.1, ih h.2⟩

instance (C : σ → ι → Prop) [∀ s i, Decidable (M.Enabled s i)] [∀ s i, Decidable (C s i)] (s : σ)
    (i : ι) : Decidable ((M.restrict C).Enabled s i) :=
  inferInstanceAs (Decidable (M.Enabled s i ∧ C s i))

instance decidableCanRun [∀ s i, Decidable (M.Enabled s i)] (s : σ) :
    (is : List ι) → Decidable (M.CanRun s is)
  | [] => isTrue trivial
  | i :: is =>
    have := decidableCanRun (M.step s i).1 is
    inferInstanceAs (Decidable (M.Enabled s i ∧ M.CanRun (M.step s i).1 is))

/-- A run of enabled inputs that leads from `s` to `s'`. -/
structure Reaches (s : σ) (is : List ι) (s' : σ) : Prop where
  canRun : M.CanRun s is
  last : (M.run s is).1 = s'

variable {M}

theorem Reaches.nil (s : σ) : M.Reaches s [] s := ⟨trivial, rfl⟩

theorem Reaches.cons {s s' : σ} {i : ι} {is : List ι} (hi : M.Enabled s i)
    (h : M.Reaches (M.step s i).1 is s') : M.Reaches s (i :: is) s' := ⟨⟨hi, h.canRun⟩, h.last⟩

theorem Reaches.trans {s s' s'' : σ} {is js : List ι} (h : M.Reaches s is s')
    (h' : M.Reaches s' js s'') : M.Reaches s (is ++ js) s'' := by
  obtain ⟨his, rfl⟩ := h
  exact ⟨(M.canRun_append s is js).mpr ⟨his, h'.canRun⟩, by rw [run_append, h'.last]⟩

/-! ### Invariants -/

section Within

/- What is put out may be limited: `B` is a property of the outputs that no further output
establishes, and only the steps within it have to preserve the invariant. -/
variable {B : List ο → Prop} (hB : ∀ o o', B (o ++ o') → B o) {P : List ο → σ → Prop}
  (hstep : ∀ o s i, P o s → M.Enabled s i → B (o ++ (M.step s i).2) →
    P (o ++ (M.step s i).2) (M.step s i).1)

include hB hstep

theorem run_induction_within {o : List ο} {s : σ} (h : P o s) {is : List ι} (his : M.CanRun s is)
    (hwithin : B (o ++ (M.run s is).2)) : P (o ++ (M.run s is).2) (M.run s is).1 := by
  induction is generalizing o s with
  | nil => simpa using h
  | cons i is ih =>
    rw [run_cons, ← List.append_assoc] at hwithin ⊢
    exact ih (hstep o s i h his.1 (hB _ _ hwithin)) his.2 hwithin

end Within

/-- What holds at the start and survives every enabled step holds after every run. -/
theorem run_induction {P : List ο → σ → Prop}
    (hstep : ∀ o s i, P o s → M.Enabled s i → P (o ++ (M.step s i).2) (M.step s i).1)
    {s : σ} (h : P [] s) {is : List ι} (his : M.CanRun s is) :
    P (M.run s is).2 (M.run s is).1 :=
  run_induction_within (B := fun _ => True) (fun _ _ _ => trivial)
    (fun o s i hP hi _ => hstep o s i hP hi) (o := []) h his trivial

/-- The same rule for an invariant that speaks of the inputs that were taken so far. -/
theorem run_induction_inputs {P : List ι → σ → Prop}
    (hstep : ∀ is s i, P is s → M.Enabled s i → P (is ++ [i]) (M.step s i).1)
    {s : σ} (h : P [] s) {is : List ι} (his : M.CanRun s is) : P is (M.run s is).1 := by
  have hfrom : ∀ (is js : List ι) (s : σ), P js s → M.CanRun s is →
      P (js ++ is) (M.run s is).1 := by
    intro is
    induction is with
    | nil => exact fun js s h _ => (List.append_nil js).symm ▸ h
    | cons i is ih =>
      intro js s h his
      rw [List.append_cons]
      exact ih _ _ (hstep js s i h his.1) his.2
  exact hfrom is [] s h his

variable (M) in
/-- `Q` holds in every state of a run up to the first step of the kind `R`, if there is one, and
that step ends it. -/
def HoldsUntil (Q : σ → Prop) (R : σ → ι → Prop) (s : σ) : List ι → Prop
  | [] => Q s
  | i :: is =>
    Q s ∧ (R s i ∧ ¬ Q (M.step s i).1 ∨ ¬ R s i ∧ HoldsUntil Q R (M.step s i).1 is)

/-- A property lasts until a step of the kind `R` if these are the steps that end it. -/
theorem holdsUntil_of_step {B : List ο → Prop} (hB : ∀ o o', B (o ++ o') → B o)
    {P : List ο → σ → Prop} {Q : σ → Prop} {R : σ → ι → Prop}
    (hstep : ∀ o s i, P o s → M.Enabled s i → B (o ++ (M.step s i).2) →
      P (o ++ (M.step s i).2) (M.step s i).1)
    (hend : ∀ o s i, P o s → M.Enabled s i → B (o ++ (M.step s i).2) → Q s →
      (R s i ↔ ¬ Q (M.step s i).1))
    {o : List ο} {s : σ} (h : P o s) (hs : Q s) {is : List ι} (his : M.CanRun s is)
    (hwithin : B (o ++ (M.run s is).2)) : M.HoldsUntil Q R s is := by
  induction is generalizing o s with
  | nil => exact hs
  | cons i is ih =>
    rw [run_cons, ← List.append_assoc] at hwithin
    have hnext := hB _ _ hwithin
    have hlast := hend o s i h his.1 hnext hs
    refine ⟨hs, ?_⟩
    by_cases hR : R s i
    · exact Or.inl ⟨hR, hlast.mp hR⟩
    · exact Or.inr ⟨hR, ih (hstep o s i h his.1 hnext) (not_not.mp fun hQ => hR (hlast.mpr hQ))
        his.2 hwithin⟩

end Machine
