import Mathlib.Data.List.Basic

/-!
# Dialogues over two queues

A server moves from phase to phase: on its own, which it always tells, or because it takes a
request, which it answers or ignores.  Its client hears of this later, and the server takes the
requests of the client later.  As both queues keep their order, the client can be thought of as
being at an earlier phase of the server: `Lag` is the path from there to the present phase.

`Behind` says that what the client knows is right for this earlier phase.  Its rules say what one
has to show when the server moves, when a message arrives and when a request is sent.
-/

/-- Phases `κ`, requests `ρ` and messages `μ`. -/
structure Dialogue (κ ρ μ : Type*) where
  /-- The server moves on its own and tells it. -/
  News : κ → μ → κ → Prop
  /-- The server takes a request and moves, with an answer or without. -/
  Answers : κ → ρ → Option μ → κ → Prop

namespace Dialogue

variable {κ ρ μ : Type*} (D : Dialogue κ ρ μ)

/-- From the phase `k` with the requests `o` to the phase `k'` where `o'` are left of them; the
messages on the way are `ms`. -/
inductive Lag : κ → List ρ → List μ → κ → List ρ → Prop
  | current (k o) : Lag k o [] k o
  | news {k m k₁ o ms k' o'} : D.News k m k₁ → Lag k₁ o ms k' o' → Lag k o (m :: ms) k' o'
  | answered {k q m k₁ o ms k' o'} : D.Answers k q (some m) k₁ → Lag k₁ o ms k' o' →
      Lag k (q :: o) (m :: ms) k' o'
  | ignored {k q k₁ o ms k' o'} : D.Answers k q none k₁ → Lag k₁ o ms k' o' →
      Lag k (q :: o) ms k' o'

variable {D} {k k' k'' : κ} {o o' o'' : List ρ} {ms ms' : List μ}

theorem Lag.trans (h : D.Lag k o ms k' o') (h' : D.Lag k' o' ms' k'' o'') :
    D.Lag k o (ms ++ ms') k'' o'' := by
  induction h with
  | current => exact h'
  | news hm _ ih => exact .news hm (ih h')
  | answered hq _ ih => exact .answered hq (ih h')
  | ignored hq _ ih => exact .ignored hq (ih h')

/-- New requests have to wait. -/
theorem Lag.send (h : D.Lag k o ms k' o') (qs : List ρ) : D.Lag k (o ++ qs) ms k' (o' ++ qs) := by
  induction h with
  | current => exact .current _ _
  | news hm _ ih => exact .news hm ih
  | answered hq _ ih => exact .answered hq ih
  | ignored hq _ ih => exact .ignored hq ih

/-- What survives every move holds at the end of the path. -/
theorem Lag.keeps {P : κ → List ρ → Prop} (hnews : ∀ {k m k₁ o}, D.News k m k₁ → P k o → P k₁ o)
    (hanswers : ∀ {k q r k₁ o}, D.Answers k q r k₁ → P k (q :: o) → P k₁ o)
    (h : D.Lag k o ms k' o') (hP : P k o) : P k' o' := by
  induction h with
  | current => exact hP
  | news hm _ ih => exact ih (hnews hm hP)
  | answered hq _ ih => exact ih (hanswers hq hP)
  | ignored hq _ ih => exact ih (hanswers hq hP)

/-- A request is still waiting, or it has been taken and its answer is on the way. -/
theorem Lag.waiting_or_taken (h : D.Lag k o ms k' o') {q : ρ} (hq : q ∈ o) :
    q ∈ o' ∨ ∃ k₁ r k₂, D.Answers k₁ q r k₂ ∧ ∀ m, r = some m → m ∈ ms := by
  induction h with
  | current => exact Or.inl hq
  | news _ _ ih =>
    refine (ih hq).imp_right fun ⟨k₁, r, k₂, hr, hms⟩ => ⟨k₁, r, k₂, hr, fun m hm => ?_⟩
    exact List.mem_cons_of_mem _ (hms m hm)
  | @answered k q' m k₁ o ms k' o' hanswers _ ih =>
    rcases List.mem_cons.mp hq with rfl | hq
    · exact Or.inr ⟨k, some m, k₁, hanswers, fun m' hm => by simp [Option.some.inj hm]⟩
    · refine (ih hq).imp_right fun ⟨k₁, r, k₂, hr, hms⟩ => ⟨k₁, r, k₂, hr, fun m hm => ?_⟩
      exact List.mem_cons_of_mem _ (hms m hm)
  | @ignored k q' k₁ o ms k' o' hanswers _ ih =>
    rcases List.mem_cons.mp hq with rfl | hq
    · exact Or.inr ⟨k, none, k₁, hanswers, nofun⟩
    · exact ih hq

/-! ### The client is behind the server -/

variable (D) in
/-- The view `V` is right for an earlier phase. -/
def Behind (V : κ → List ρ → Prop) (ms : List μ) (k' : κ) (o' : List ρ) : Prop :=
  ∃ k o, V k o ∧ D.Lag k o ms k' o'

variable {V V' : κ → List ρ → Prop}

theorem Behind.current (h : V k o) : D.Behind V [] k o := ⟨k, o, h, .current k o⟩

/-- The server moves. -/
theorem Behind.move (h : D.Behind V ms k' o') (hmove : D.Lag k' o' ms' k'' o'') :
    D.Behind V (ms ++ ms') k'' o'' := by
  obtain ⟨k, o, hk, hlag⟩ := h
  exact ⟨k, o, hk, hlag.trans hmove⟩

/-- The client receives a message: it catches up with the move that was told by it. -/
theorem Behind.receive {m : μ} (h : D.Behind V (m :: ms) k' o')
    (hignored : ∀ {k q k₁ o}, D.Answers k q none k₁ → V k (q :: o) → V k₁ o)
    (hnews : ∀ {k k₁ o}, D.News k m k₁ → V k o → V' k₁ o)
    (hanswered : ∀ {k q k₁ o}, D.Answers k q (some m) k₁ → V k (q :: o) → V' k₁ o) :
    D.Behind V' ms k' o' := by
  obtain ⟨k, o, hk, hlag⟩ := h
  generalize hm : m :: ms = messages at hlag
  induction hlag with
  | current => cases hm
  | news hnew hrest _ =>
    cases hm
    exact ⟨_, _, hnews hnew hk, hrest⟩
  | answered hq hrest _ =>
    cases hm
    exact ⟨_, _, hanswered hq hk, hrest⟩
  | ignored hq _ ih => exact ih (hignored hq hk) hm

/-- With nothing on the way the client is up to date. -/
theorem Behind.quiet (h : D.Behind V [] k' [])
    (hignored : ∀ {k q k₁ o}, D.Answers k q none k₁ → V k (q :: o) → V k₁ o) : V k' [] := by
  obtain ⟨k, o, hk, hlag⟩ := h
  generalize hm : ([] : List μ) = messages at hlag
  generalize ho : ([] : List ρ) = requests at hlag
  induction hlag with
  | current => exact ho ▸ hk
  | news => cases hm
  | answered => cases hm
  | ignored hq _ ih => exact ih (hignored hq hk) hm ho

end Dialogue
