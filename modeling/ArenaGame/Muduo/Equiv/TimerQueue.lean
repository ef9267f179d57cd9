import ArenaGame.Muduo.TimerQueue
import Mathlib.Data.Rat.Floor
import Mathlib.Tactic.Positivity
import Mathlib.Tactic.Tauto

/-!
# No timer is lost or doubled

`timers_` and `activeTimers_` hold the same timers (`Consistent`).  A command adds one timer or takes
out one (`CommandSpec`), inside a batch as outside of it.  So `handleRead` is described by the events
of its callbacks: it starts the expired timers in their order, and afterwards an expired timer is
back if it repeats and was not cancelled, and any other timer is as the callbacks left it
(`BatchSpec`).

The timerfd is set whenever the earliest timer changes, except that `reset` leaves it alone where
the earliest expiration is not a valid time.  Then a callback has put this timer in and has set the
timerfd itself (`Wakes`).
-/

namespace ArenaGame

namespace TimerQueue

/-- The two sets hold the same timers, which exist and are filed under their expiration. -/
structure Consistent (q : TimerQueue) : Prop where
  exists_timer : ∀ {e s}, toLex (e, s) ∈ q.timers_ →
    ∃ timer, q.heap s = some timer ∧ timer.expiration_ = e
  active_iff : ∀ s, s ∈ q.activeTimers_ ↔ ∃ e, toLex (e, s) ∈ q.timers_
  le_numCreated : ∀ {s timer}, q.heap s = some timer → s ≤ q.numCreated

variable {q : TimerQueue}

/-- Each timer is filed once. -/
theorem Consistent.unique (h : q.Consistent) {e e' : Timestamp} {s : ℕ}
    (he : toLex (e, s) ∈ q.timers_) (he' : toLex (e', s) ∈ q.timers_) : e = e' := by
  obtain ⟨timer, htimer, rfl⟩ := h.exists_timer he
  obtain ⟨timer', htimer', rfl⟩ := h.exists_timer he'
  obtain rfl : timer = timer' := Option.some.inj (htimer.symm.trans htimer')
  rfl

theorem Consistent.le_of_mem (h : q.Consistent) {e : Timestamp} {s : ℕ}
    (he : toLex (e, s) ∈ q.timers_) : s ≤ q.numCreated := by
  obtain ⟨timer, htimer, -⟩ := h.exists_timer he
  exact h.le_numCreated htimer

/-- The flags, the timerfd and numbers used up do not matter. -/
theorem Consistent.mono (h : q.Consistent) {n : ℕ} (hn : q.numCreated ≤ n)
    {calling : Bool} {canceling : Finset ℕ} {fd : Option (Timestamp × ℤ)} :
    Consistent { q with
      numCreated := n
      callingExpiredTimers_ := calling
      cancelingTimers_ := canceling
      timerfd := fd } where
  exists_timer := h.exists_timer
  active_iff := h.active_iff
  le_numCreated htimer := (h.le_numCreated htimer).trans hn

theorem Consistent.readTimerfd (h : q.Consistent) (fired : Bool) :
    (q.readTimerfd fired).Consistent := by
  cases fired with
  | false => exact h
  | true => exact h.mono le_rfl

/-! ### Filing a timer -/

theorem elapses_of_le {x y : TimerEntry} (h : x ≤ y) : (ofLex x).1 ≤ (ofLex y).1 := by
  rcases Prod.Lex.le_iff.mp h with hlt | ⟨heq, -⟩
  · exact hlt.le
  · exact heq.le

/-- `earliestChanged` says whether the new timer is due before all others. -/
theorem insert_earliest (q : TimerQueue) (s : ℕ) (timer : Timer) :
    (q.insert s timer).1 = true ∧ (∀ x ∈ q.timers_, timer.expiration_ < (ofLex x).1) ∨
      (q.insert s timer).1 = false ∧
        ∃ x ∈ q.timers_, (ofLex x).1 ≤ timer.expiration_ ∧ ∀ y ∈ q.timers_, x ≤ y := by
  unfold insert
  cases hhead : q.timers_.toList.head? with
  | none =>
    refine Or.inl ⟨rfl, fun x hx => ?_⟩
    rw [← SortedSet.mem_toList, List.head?_eq_none_iff.mp hhead] at hx
    cases hx
  | some first =>
    obtain ⟨hmem, hleast⟩ := SortedSet.head_spec hhead
    by_cases hlt : timer.expiration_ < (ofLex first).1
    · refine Or.inl ⟨decide_eq_true hlt, fun x hx => ?_⟩
      exact lt_of_lt_of_le hlt (elapses_of_le (hleast x hx))
    · exact Or.inr ⟨decide_eq_false hlt, first, hmem, not_lt.mp hlt, hleast⟩

theorem mem_timers_insert (q : TimerQueue) (s : ℕ) (timer : Timer) (e' : Timestamp) (s' : ℕ) :
    toLex (e', s') ∈ (q.insert s timer).2.timers_ ↔
      (e' = timer.expiration_ ∧ s' = s) ∨ toLex (e', s') ∈ q.timers_ := by
  show toLex (e', s') ∈ q.timers_.insert _ ↔ _
  rw [SortedSet.mem_insert, EmbeddingLike.apply_eq_iff_eq, Prod.mk.injEq]

/-- A timer that does not wait may be filed under any expiration. -/
theorem Consistent.insert (h : q.Consistent) {s : ℕ} (hs : s ∉ q.activeTimers_)
    (hle : s ≤ q.numCreated) (timer : Timer) : (q.insert s timer).2.Consistent where
  exists_timer := by
    intro e' s' hmem
    rcases (mem_timers_insert q s timer e' s').mp hmem with ⟨rfl, rfl⟩ | hold
    · exact ⟨timer, Function.update_self .., rfl⟩
    · obtain ⟨timer', htimer', he⟩ := h.exists_timer hold
      -- it has not waited, so it is none of those that are filed already
      have hne : s' ≠ s := by
        rintro rfl
        exact hs ((h.active_iff s').mpr ⟨e', hold⟩)
      exact ⟨timer', (Function.update_of_ne hne _ _).trans htimer', he⟩
  active_iff := by
    intro s'
    show s' ∈ Insert.insert s q.activeTimers_ ↔ _
    rw [Finset.mem_insert, h.active_iff]
    constructor
    · rintro (rfl | ⟨e', he'⟩)
      · exact ⟨_, (mem_timers_insert ..).mpr (Or.inl ⟨rfl, rfl⟩)⟩
      · exact ⟨e', (mem_timers_insert ..).mpr (Or.inr he')⟩
    · rintro ⟨e', he'⟩
      rcases (mem_timers_insert ..).mp he' with ⟨-, rfl⟩ | hold
      · exact Or.inl rfl
      · exact Or.inr ⟨e', hold⟩
  le_numCreated := by
    intro s' timer' htimer'
    show s' ≤ q.numCreated
    by_cases hs' : s' = s
    · rw [hs']
      exact hle
    · have hsame : (q.insert s timer).2.heap s' = q.heap s' := Function.update_of_ne hs' _ _
      exact h.le_numCreated (hsame.symm.trans htimer')

/-! ### Commands -/

/-- What a command does, in terms of the event that it puts out. -/
structure CommandSpec (q q' : TimerQueue) (event : TimerEvent) : Prop where
  consistent : q'.Consistent
  mem_timers : ∀ e s, toLex (e, s) ∈ q'.timers_ ↔
    event = .added s e ∨ toLex (e, s) ∈ q.timers_ ∧ event ≠ .cancelled s
  /-- A timer that exists and does not wait is left alone. -/
  heap_eq : ∀ s, s ≤ q.numCreated → s ∉ q.activeTimers_ → q'.heap s = q.heap s
  le_numCreated : q.numCreated ≤ q'.numCreated
  added : ∀ s e, event = .added s e → q.numCreated < s ∧ s ≤ q'.numCreated
  calling : q'.callingExpiredTimers_ = q.callingExpiredTimers_
  mem_canceling : ∀ s, s ∉ q.activeTimers_ → (s ∈ q'.cancelingTimers_ ↔
    s ∈ q.cancelingTimers_ ∨ q.callingExpiredTimers_ = true ∧ event = .cancelled s)
  kind : ∃ s, (∃ e, event = .added s e) ∨ event = .cancelled s

/-- `addTimer` files one timer, and sets the timerfd if it is due before all others. -/
theorem addTimer_eq (q : TimerQueue) (e : Timestamp) (interval : ℚ) (reading : Timestamp) :
    ∃ fd, q.addTimer e interval reading =
        ({ (({ q with numCreated := q.numCreated + 1 } : TimerQueue).insert (q.numCreated + 1)
              { expiration_ := e, interval_ := interval }).2 with timerfd := fd },
          [.added (q.numCreated + 1) e]) ∧
      ((∀ x ∈ q.timers_, e < (ofLex x).1) ∧ fd = some (reading, howMuchTimeFromNow e reading) ∨
        (∃ x ∈ q.timers_, (ofLex x).1 ≤ e ∧ ∀ y ∈ q.timers_, x ≤ y) ∧ fd = q.timerfd) := by
  have hearliest := insert_earliest { q with numCreated := q.numCreated + 1 } (q.numCreated + 1)
    { expiration_ := e, interval_ := interval }
  obtain ⟨inserted, hinserted⟩ : ∃ inserted, ({ q with numCreated := q.numCreated + 1 } :
    TimerQueue).insert (q.numCreated + 1) { expiration_ := e, interval_ := interval } =
      inserted := ⟨_, rfl⟩
  have hadd : q.addTimer e interval reading =
      (if inserted.1 then inserted.2.resetTimerfd e reading else inserted.2,
        [.added (q.numCreated + 1) e]) := by
    rw [← hinserted]
    rfl
  rw [hinserted] at hearliest ⊢
  rw [hadd]
  rcases hearliest with ⟨htrue, hall⟩ | ⟨hfalse, hsome⟩
  · refine ⟨some (reading, howMuchTimeFromNow e reading), ?_, Or.inl ⟨hall, rfl⟩⟩
    rw [if_pos htrue]
    rfl
  · refine ⟨q.timerfd, ?_, Or.inr ⟨hsome, rfl⟩⟩
    rw [hfalse, ← hinserted]
    rfl

theorem addTimer_spec (h : q.Consistent) (e : Timestamp) (interval : ℚ) (reading : Timestamp) :
    ∃ event, (q.addTimer e interval reading).2 = [event] ∧
      CommandSpec q (q.addTimer e interval reading).1 event := by
  obtain ⟨fd, heq, -⟩ := addTimer_eq q e interval reading
  rw [heq]
  -- the new number is larger than that of every timer that waits
  have hfresh : q.numCreated + 1 ∉ q.activeTimers_ := by
    rw [h.active_iff]
    rintro ⟨e', he'⟩
    exact absurd (h.le_of_mem he') (by omega)
  have hconsistent : Consistent { q with numCreated := q.numCreated + 1 } := h.mono (Nat.le_succ _)
  refine ⟨.added (q.numCreated + 1) e, rfl, ?_⟩
  exact {
    consistent := (hconsistent.insert hfresh le_rfl _).mono le_rfl
    mem_timers := by
      intro e' s'
      refine (mem_timers_insert { q with numCreated := q.numCreated + 1 } _ _ e' s').trans ?_
      simp only [TimerEvent.added.injEq, ne_eq, reduceCtorEq, not_false_eq_true, and_true]
      rw [and_comm, eq_comm, @eq_comm _ e']
    heap_eq := fun s' hs' _ => Function.update_of_ne (by omega) _ _
    le_numCreated := Nat.le_succ _
    added := by
      intro s' e' heq
      cases heq
      exact ⟨Nat.lt_succ_self _, le_rfl⟩
    calling := rfl
    mem_canceling := by
      intro s' _
      show s' ∈ q.cancelingTimers_ ↔ _
      simp
    kind := ⟨_, Or.inl ⟨_, rfl⟩⟩ }

/-- What `cancelInLoop` does, by cases. -/
inductive CancelCases (q : TimerQueue) (s : ℕ) : TimerQueue × List TimerEvent → Prop
  | waits {e} : toLex (e, s) ∈ q.timers_ → CancelCases q s
      ({ q with
          timers_ := q.timers_.erase (toLex (e, s))
          heap := Function.update q.heap s none
          activeTimers_ := q.activeTimers_.erase s }, [.cancelled s])
  | calling : s ∉ q.activeTimers_ → q.callingExpiredTimers_ = true → CancelCases q s
      ({ q with cancelingTimers_ := Insert.insert s q.cancelingTimers_ }, [.cancelled s])
  | idle : s ∉ q.activeTimers_ → q.callingExpiredTimers_ = false →
      CancelCases q s (q, [.cancelled s])

/-- The assertion of `cancelInLoop` holds. -/
theorem cancel_cases (h : q.Consistent) (s : ℕ) : CancelCases q s (q.cancelInLoop s) := by
  unfold cancelInLoop
  by_cases hs : s ∈ q.activeTimers_
  · rw [if_pos hs]
    obtain ⟨e, he⟩ := (h.active_iff s).mp hs
    obtain ⟨timer, htimer, rfl⟩ := h.exists_timer he
    rw [htimer]
    simp only
    rw [if_pos he]
    exact .waits he
  · rw [if_neg hs]
    by_cases hcalling : q.callingExpiredTimers_ = true
    · rw [if_pos hcalling]
      exact .calling hs hcalling
    · rw [if_neg hcalling]
      exact .idle hs (by simpa using hcalling)

theorem cancelInLoop_spec (h : q.Consistent) (s : ℕ) :
    ∃ event, (q.cancelInLoop s).2 = [event] ∧ CommandSpec q (q.cancelInLoop s).1 event := by
  have hcases := cancel_cases h s
  generalize q.cancelInLoop s = next at hcases ⊢
  have hother : ∀ {e' s'}, s ∉ q.activeTimers_ → (toLex (e', s') ∈ q.timers_ ↔
      TimerEvent.cancelled s = .added s' e' ∨
        toLex (e', s') ∈ q.timers_ ∧ TimerEvent.cancelled s ≠ .cancelled s') := by
    intro e' s' hs
    refine ⟨fun hmem => Or.inr ⟨hmem, ?_⟩, ?_⟩
    · rintro heq
      cases heq
      exact hs ((h.active_iff s).mpr ⟨e', hmem⟩)
    · rintro (heq | ⟨hmem, -⟩)
      · cases heq
      · exact hmem
  cases hcases with
  | @waits e he =>
    have hs : s ∈ q.activeTimers_ := (h.active_iff s).mpr ⟨e, he⟩
    -- the erased entry is the only one of the timer
    have hmem : ∀ e' s', toLex (e', s') ∈ q.timers_.erase (toLex (e, s)) ↔
        toLex (e', s') ∈ q.timers_ ∧ s' ≠ s := by
      intro e' s'
      rw [SortedSet.mem_erase, and_comm]
      refine and_congr_right fun hmem => not_congr ?_
      rw [EmbeddingLike.apply_eq_iff_eq, Prod.mk.injEq]
      refine ⟨fun heq => heq.2, ?_⟩
      rintro rfl
      exact ⟨h.unique hmem he, rfl⟩
    refine ⟨.cancelled s, rfl, ?_⟩
    exact {
      consistent := {
        exists_timer := by
          intro e' s' hmem'
          obtain ⟨hold, hne⟩ := (hmem e' s').mp hmem'
          obtain ⟨timer, htimer, hexp⟩ := h.exists_timer hold
          exact ⟨timer, (Function.update_of_ne hne _ _).trans htimer, hexp⟩
        active_iff := by
          intro s'
          show s' ∈ q.activeTimers_.erase s ↔ ∃ e', toLex (e', s') ∈ q.timers_.erase _
          rw [Finset.mem_erase, h.active_iff]
          simp only [hmem]
          exact ⟨fun ⟨hne, e', he'⟩ => ⟨e', he', hne⟩, fun ⟨e', he', hne⟩ => ⟨hne, e', he'⟩⟩
        le_numCreated := by
          intro s' timer htimer
          by_cases hs' : s' = s
          · rw [hs']
            exact h.le_of_mem he
          · have hsame : Function.update q.heap s none s' = q.heap s' :=
              Function.update_of_ne hs' _ _
            exact h.le_numCreated (hsame.symm.trans htimer) }
      mem_timers := by
        intro e' s'
        refine (hmem e' s').trans ?_
        simp [eq_comm]
      heap_eq := by
        intro s' _ hs'
        refine Function.update_of_ne ?_ _ _
        rintro rfl
        exact hs' hs
      le_numCreated := le_rfl
      added := fun s' e' heq => by cases heq
      calling := rfl
      mem_canceling := by
        intro s' hs'
        refine ⟨Or.inl, ?_⟩
        rintro (hold | ⟨-, heq⟩)
        · exact hold
        · cases heq
          exact absurd hs hs'
      kind := ⟨s, Or.inr rfl⟩ }
  | calling hs hcalling =>
    refine ⟨.cancelled s, rfl, ?_⟩
    exact {
      consistent := h.mono le_rfl
      mem_timers := fun e' s' => hother hs
      heap_eq := fun _ _ _ => rfl
      le_numCreated := le_rfl
      added := fun s' e' heq => by cases heq
      calling := rfl
      mem_canceling := by
        intro s' _
        show s' ∈ Insert.insert s q.cancelingTimers_ ↔ _
        rw [Finset.mem_insert, or_comm, TimerEvent.cancelled.injEq, @eq_comm _ s]
        simp [hcalling]
      kind := ⟨s, Or.inr rfl⟩ }
  | idle hs hcalling =>
    refine ⟨.cancelled s, rfl, ?_⟩
    exact {
      consistent := h
      mem_timers := fun e' s' => hother hs
      heap_eq := fun _ _ _ => rfl
      le_numCreated := le_rfl
      added := fun s' e' heq => by cases heq
      calling := rfl
      mem_canceling := by
        intro s' _
        simp [hcalling]
      kind := ⟨s, Or.inr rfl⟩ }

theorem command_spec (h : q.Consistent) (command : TimerCommand) :
    ∃ event, (commands.step q command).2 = [event] ∧
      CommandSpec q (commands.step q command).1 event := by
  cases command with
  | addTimer e interval reading => exact addTimer_spec h e interval reading
  | cancel s => exact cancelInLoop_spec h s

/-! ### The callbacks of a batch -/

/-- A timer was added with this expiration, and not cancelled since. -/
def Added (events : List TimerEvent) (s : ℕ) (e : Timestamp) : Prop :=
  ∃ es es', events = es ++ .added s e :: es' ∧ .cancelled s ∉ es'

def start : TimerEvent → Option ℕ
  | .started s => some s
  | _ => none

/-- The timers whose callbacks were started, in this order. -/
def starts (events : List TimerEvent) : List ℕ := events.filterMap start

/-- No access to a deleted timer, and no failed assertion. -/
def Sound (events : List TimerEvent) : Prop :=
  .assertionFailed ∉ events ∧ .dangling ∉ events

theorem Sound.append {es es' : List TimerEvent} (h : Sound es) (h' : Sound es') :
    Sound (es ++ es') :=
  ⟨fun hmem => (List.mem_append.mp hmem).elim h.1 h'.1,
    fun hmem => (List.mem_append.mp hmem).elim h.2 h'.2⟩

theorem sound_of_kind {event : TimerEvent}
    (h : ∃ s, (∃ e, event = .added s e) ∨ event = .cancelled s) : Sound [event] := by
  obtain ⟨s, ⟨e, rfl⟩ | rfl⟩ := h
  · exact ⟨by simp, by simp⟩
  · exact ⟨by simp, by simp⟩

@[simp] theorem starts_append (es es' : List TimerEvent) :
    starts (es ++ es') = starts es ++ starts es' := List.filterMap_append

theorem mem_starts {events : List TimerEvent} {s : ℕ} :
    s ∈ starts events ↔ .started s ∈ events := by
  unfold starts
  rw [List.mem_filterMap]
  constructor
  · rintro ⟨event, hmem, hstart⟩
    cases event with
    | started s' =>
      obtain rfl : s' = s := Option.some.inj hstart
      exact hmem
    | _ => cases hstart
  · intro hmem
    exact ⟨_, hmem, rfl⟩

theorem not_added_nil (s : ℕ) (e : Timestamp) : ¬ Added [] s e := by
  rintro ⟨es, es', heq, -⟩
  simp at heq

/-- One event more. -/
theorem added_concat {events : List TimerEvent} {event : TimerEvent} {s : ℕ} {e : Timestamp} :
    Added (events ++ [event]) s e ↔
      event = .added s e ∨ Added events s e ∧ event ≠ .cancelled s := by
  constructor
  · rintro ⟨es, es', heq, hno⟩
    rcases List.eq_nil_or_concat es' with rfl | ⟨es'', last, rfl⟩
    · left
      have hlast := congrArg List.getLast? heq
      simpa using hlast
    · right
      have hsplit : events ++ [event] = (es ++ .added s e :: es'') ++ [last] := by
        rw [heq]
        simp
      obtain ⟨rfl, hlast⟩ := List.append_inj' hsplit rfl
      obtain rfl : event = last := by simpa using hlast
      refine ⟨⟨es, es'', rfl, fun hmem => hno (by simp [hmem])⟩, ?_⟩
      rintro rfl
      exact hno (by simp)
  · rintro (rfl | ⟨⟨es, es', rfl, hno⟩, hne⟩)
    · exact ⟨events, [], rfl, List.not_mem_nil⟩
    · refine ⟨es, es' ++ [event], by simp, fun hmem => ?_⟩
      rcases List.mem_append.mp hmem with hmem | hmem
      · exact hno hmem
      · exact hne (List.mem_singleton.mp hmem).symm

/-- A queue while the callbacks of the expired entries run, `q₀` being the queue before the first
of them and `events` what they have done so far. -/
structure InBatch (q₀ : TimerQueue) (expired : List TimerEntry) (events : List TimerEvent)
    (q : TimerQueue) : Prop where
  consistent : q.Consistent
  calling : q.callingExpiredTimers_ = true
  le_numCreated : q₀.numCreated ≤ q.numCreated
  known : ∀ x ∈ expired, (ofLex x).2 ≤ q₀.numCreated
  mem_timers : ∀ e s, toLex (e, s) ∈ q.timers_ ↔
    toLex (e, s) ∈ q₀.timers_ ∧ .cancelled s ∉ events ∨ Added events s e
  heap_eq : ∀ x ∈ expired, q.heap (ofLex x).2 = q₀.heap (ofLex x).2
  notMem_active : ∀ x ∈ expired, (ofLex x).2 ∉ q.activeTimers_
  /-- A timer of the batch that is cancelled is noted down. -/
  mem_canceling : ∀ x ∈ expired, ((ofLex x).2 ∈ q.cancelingTimers_ ↔ .cancelled (ofLex x).2 ∈ events)
  added : ∀ {s e}, .added s e ∈ events → q₀.numCreated < s ∧ s ≤ q.numCreated
  sound : Sound events

variable {q₀ : TimerQueue} {expired : List TimerEntry} {events : List TimerEvent}

theorem InBatch.command (h : InBatch q₀ expired events q) {q' : TimerQueue} {event : TimerEvent}
    (hspec : CommandSpec q q' event) : InBatch q₀ expired (events ++ [event]) q' where
  consistent := hspec.consistent
  calling := hspec.calling.trans h.calling
  le_numCreated := h.le_numCreated.trans hspec.le_numCreated
  known := h.known
  mem_timers := by
    intro e s
    rw [hspec.mem_timers, h.mem_timers, added_concat, List.mem_append, List.mem_singleton,
      @eq_comm _ (TimerEvent.cancelled s)]
    tauto
  heap_eq := by
    intro x hx
    rw [hspec.heap_eq _ ((h.known x hx).trans h.le_numCreated) (h.notMem_active x hx)]
    exact h.heap_eq x hx
  notMem_active := by
    intro x hx hmem
    obtain ⟨e, he⟩ := (hspec.consistent.active_iff _).mp hmem
    rcases (hspec.mem_timers _ _).mp he with hadd | ⟨hold, -⟩
    · -- a timer that is added has a new number
      have hnew := (hspec.added _ _ hadd).1
      exact absurd ((h.known x hx).trans h.le_numCreated) (not_le.mpr hnew)
    · exact h.notMem_active x hx ((h.consistent.active_iff _).mpr ⟨e, hold⟩)
  mem_canceling := by
    intro x hx
    rw [hspec.mem_canceling _ (h.notMem_active x hx), h.mem_canceling x hx, List.mem_append,
      List.mem_singleton, @eq_comm _ (TimerEvent.cancelled _)]
    simp [h.calling]
  added := by
    intro s e hmem
    rcases List.mem_append.mp hmem with hmem | hmem
    · exact ⟨(h.added hmem).1, (h.added hmem).2.trans hspec.le_numCreated⟩
    · obtain ⟨hlt, hle⟩ := hspec.added s e (List.mem_singleton.mp hmem).symm
      exact ⟨h.le_numCreated.trans_lt hlt, hle⟩
  sound := h.sound.append (sound_of_kind hspec.kind)

theorem InBatch.started (h : InBatch q₀ expired events q) (s : ℕ) :
    InBatch q₀ expired (events ++ [.started s]) q where
  consistent := h.consistent
  calling := h.calling
  le_numCreated := h.le_numCreated
  known := h.known
  mem_timers := by
    intro e s'
    rw [h.mem_timers, added_concat]
    simp
  heap_eq := h.heap_eq
  notMem_active := h.notMem_active
  mem_canceling := by
    intro x hx
    rw [h.mem_canceling x hx]
    simp
  added hmem := h.added (by simpa using hmem)
  sound := h.sound.append ⟨by simp, by simp⟩

theorem starts_of_kind {event : TimerEvent}
    (h : ∃ s, (∃ e, event = .added s e) ∨ event = .cancelled s) : start event = none := by
  obtain ⟨s, ⟨e, rfl⟩ | rfl⟩ := h
  · rfl
  · rfl

/-- The commands of one callback. -/
theorem InBatch.run_commands (h : InBatch q₀ expired events q) (cs : List TimerCommand) :
    InBatch q₀ expired (events ++ (commands.run q cs).2) (commands.run q cs).1 ∧
      starts (commands.run q cs).2 = [] := by
  induction cs generalizing events q with
  | nil =>
    rw [Machine.run_nil, List.append_nil]
    exact ⟨h, rfl⟩
  | cons c cs ih =>
    obtain ⟨event, hevent, hspec⟩ := command_spec h.consistent c
    obtain ⟨hrun, hstarts⟩ := ih (h.command hspec)
    rw [Machine.run_cons, hevent, ← List.append_assoc]
    refine ⟨hrun, ?_⟩
    show starts ([event] ++ _) = []
    rw [starts_append, hstarts, List.append_nil]
    exact List.filterMap_cons_none (starts_of_kind hspec.kind)

theorem runExpired_cons {callbacks : ℕ → List TimerCommand} {x : TimerEntry} {timer : Timer}
    (htimer : q.heap (ofLex x).2 = some timer) (rest : List TimerEntry) :
    runExpired callbacks q (x :: rest) =
      ((runExpired callbacks (commands.run q (callbacks (ofLex x).2)).1 rest).1,
        [.started (ofLex x).2] ++ (commands.run q (callbacks (ofLex x).2)).2 ++
          (runExpired callbacks (commands.run q (callbacks (ofLex x).2)).1 rest).2) := by
  rw [runExpired, htimer]
  rfl

/-- The loop over the expired entries starts each of them once, in their order. -/
theorem InBatch.run_expired (h : InBatch q₀ expired events q) (hheap : ∀ x ∈ expired,
      ∃ timer, q₀.heap (ofLex x).2 = some timer) (callbacks : ℕ → List TimerCommand)
    {rest : List TimerEntry} (hrest : ∀ x ∈ rest, x ∈ expired) :
    InBatch q₀ expired (events ++ (runExpired callbacks q rest).2) (runExpired callbacks q rest).1 ∧
      starts (runExpired callbacks q rest).2 = rest.map fun x => (ofLex x).2 := by
  induction rest generalizing events q with
  | nil =>
    show InBatch q₀ expired (events ++ []) q ∧ _
    rw [List.append_nil]
    exact ⟨h, rfl⟩
  | cons x rest ih =>
    have hx := hrest x (List.mem_cons_self ..)
    obtain ⟨timer, htimer⟩ := hheap x hx
    obtain ⟨hcommands, hquiet⟩ := (h.started (ofLex x).2).run_commands (callbacks (ofLex x).2)
    obtain ⟨hrun, hstarts⟩ := ih hcommands fun y hy => hrest y (List.mem_cons_of_mem _ hy)
    rw [runExpired_cons ((h.heap_eq x hx).trans htimer)]
    refine ⟨?_, ?_⟩
    · rw [← List.append_assoc, ← List.append_assoc]
      exact hrun
    · rw [starts_append, starts_append, hquiet, hstarts]
      rfl

/-! ### Taking out the expired timers -/

theorem mem_expired {now : Timestamp} {x : TimerEntry} :
    x ∈ q.expired now ↔ x ∈ q.timers_ ∧ (ofLex x).1 ≤ now := by
  unfold expired
  rw [List.mem_filter, decide_eq_true_eq, SortedSet.mem_toList]

theorem mem_timers_getExpired {now : Timestamp} {x : TimerEntry} :
    x ∈ (q.getExpired now).timers_ ↔ x ∈ q.timers_ ∧ now < (ofLex x).1 := by
  show x ∈ q.timers_.filter _ ↔ _
  rw [SortedSet.mem_filter, decide_eq_true_eq]

theorem mem_active_getExpired {now : Timestamp} {s : ℕ} :
    s ∈ (q.getExpired now).activeTimers_ ↔
      s ∈ q.activeTimers_ ∧ ∀ x ∈ q.expired now, (ofLex x).2 ≠ s := by
  show s ∈ q.activeTimers_ \ _ ↔ _
  rw [Finset.mem_sdiff, List.mem_toFinset, List.mem_map]
  simp only [not_exists, not_and, ne_eq]

theorem Consistent.getExpired (h : q.Consistent) (now : Timestamp) :
    (q.getExpired now).Consistent where
  exists_timer hmem := h.exists_timer (mem_timers_getExpired.mp hmem).1
  active_iff := by
    intro s
    rw [mem_active_getExpired, h.active_iff]
    constructor
    · rintro ⟨⟨e, he⟩, hno⟩
      refine ⟨e, mem_timers_getExpired.mpr ⟨he, ?_⟩⟩
      by_contra hle
      exact hno _ (mem_expired.mpr ⟨he, not_lt.mp hle⟩) rfl
    · rintro ⟨e, he⟩
      obtain ⟨hold, hlt⟩ := mem_timers_getExpired.mp he
      refine ⟨⟨e, hold⟩, ?_⟩
      rintro ⟨e', s'⟩ hx rfl
      obtain ⟨hx, hle⟩ := mem_expired.mp hx
      -- the timer would be filed twice
      obtain rfl : e = e' := h.unique hold hx
      exact absurd hlt (not_lt.mpr hle)
  le_numCreated htimer := (h.le_numCreated htimer).trans (Nat.le_succ _)

theorem Consistent.nodup_expired (h : q.Consistent) (now : Timestamp) :
    ((q.expired now).map fun x => (ofLex x).2).Nodup := by
  have hsorted : (q.expired now).Pairwise (· < ·) := q.timers_.sorted.filter _
  refine List.Nodup.map_on ?_ hsorted.nodup
  rintro ⟨e, s⟩ hx ⟨e', s'⟩ hy heq
  obtain rfl : s = s' := heq
  obtain rfl : e = e' := h.unique (mem_expired.mp hx).1 (mem_expired.mp hy).1
  rfl

/-! ### Filing the repeating timers again -/

section Reset

variable (toMicroSeconds : ℚ → ℤ) (now : Timestamp)

/-- `reset` files the timer again, under the expiration `e`. -/
def Returns (q : TimerQueue) (s : ℕ) (e : Timestamp) : Prop :=
  ∃ timer, q.heap s = some timer ∧ timer.repeat_ = true ∧ s ∉ q.cancelingTimers_ ∧
    e = Timestamp.addTime toMicroSeconds now timer.interval_

/-- What `reset` leaves alone. -/
structure SameFlags (q q' : TimerQueue) : Prop where
  numCreated : q'.numCreated = q.numCreated
  calling : q'.callingExpiredTimers_ = q.callingExpiredTimers_
  canceling : q'.cancelingTimers_ = q.cancelingTimers_
  timerfd : q'.timerfd = q.timerfd

/-- A timer that does not wait can be deleted. -/
theorem Consistent.delete (h : q.Consistent) {s : ℕ} (hidle : s ∉ q.activeTimers_) :
    Consistent { q with heap := Function.update q.heap s none } where
  exists_timer := by
    intro e s' hmem
    obtain ⟨timer, htimer, he⟩ := h.exists_timer hmem
    refine ⟨timer, (Function.update_of_ne ?_ _ _).trans htimer, he⟩
    rintro rfl
    exact hidle ((h.active_iff _).mpr ⟨e, hmem⟩)
  active_iff := h.active_iff
  le_numCreated := by
    intro s' timer htimer
    by_cases hs : s' = s
    · rw [hs] at htimer
      simp at htimer
    · exact h.le_numCreated ((Function.update_of_ne hs _ _).symm.trans htimer)

theorem resetEntry_spec (h : q.Consistent) {x : TimerEntry} {timer : Timer}
    (htimer : q.heap (ofLex x).2 = some timer) (hidle : (ofLex x).2 ∉ q.activeTimers_) :
    (resetEntry toMicroSeconds now q x).2 = [] ∧
      (resetEntry toMicroSeconds now q x).1.Consistent ∧
      SameFlags q (resetEntry toMicroSeconds now q x).1 ∧
      (∀ s, s ≠ (ofLex x).2 →
        (resetEntry toMicroSeconds now q x).1.heap s = q.heap s ∧
        (s ∈ (resetEntry toMicroSeconds now q x).1.activeTimers_ ↔ s ∈ q.activeTimers_)) ∧
      ∀ e s, toLex (e, s) ∈ (resetEntry toMicroSeconds now q x).1.timers_ ↔
        toLex (e, s) ∈ q.timers_ ∨ s = (ofLex x).2 ∧ Returns toMicroSeconds now q s e := by
  unfold resetEntry
  rw [htimer]
  simp only
  by_cases hback : timer.repeat_ = true ∧ (ofLex x).2 ∉ q.cancelingTimers_
  · rw [if_pos hback]
    refine ⟨rfl, h.insert hidle (h.le_numCreated htimer) _, ⟨rfl, rfl, rfl, rfl⟩, ?_, ?_⟩
    · intro s hs
      refine ⟨Function.update_of_ne hs _ _, ?_⟩
      show s ∈ Insert.insert _ q.activeTimers_ ↔ _
      rw [Finset.mem_insert, or_iff_right hs]
    · intro e s
      have hrestart : (timer.restart toMicroSeconds now).expiration_ =
          Timestamp.addTime toMicroSeconds now timer.interval_ := by
        unfold Timer.restart
        rw [if_pos hback.1]
      rw [mem_timers_insert, hrestart, or_comm]
      refine or_congr_right ⟨?_, ?_⟩
      · rintro ⟨rfl, rfl⟩
        exact ⟨rfl, timer, htimer, hback.1, hback.2, rfl⟩
      · rintro ⟨rfl, timer', htimer', -, -, rfl⟩
        obtain rfl : timer = timer' := Option.some.inj (htimer.symm.trans htimer')
        exact ⟨rfl, rfl⟩
  · rw [if_neg hback]
    -- the timer is deleted: it is one-shot, or was cancelled while the callbacks ran
    refine ⟨rfl, h.delete hidle, ⟨rfl, rfl, rfl, rfl⟩,
      fun s hs => ⟨Function.update_of_ne hs _ _, Iff.rfl⟩, ?_⟩
    intro e s
    refine ⟨Or.inl, ?_⟩
    rintro (hold | ⟨rfl, timer', htimer', hrepeat, hno, -⟩)
    · exact hold
    · obtain rfl : timer = timer' := Option.some.inj (htimer.symm.trans htimer')
      exact absurd ⟨hrepeat, hno⟩ hback

theorem resetEntries_spec (h : q.Consistent) {rest : List TimerEntry}
    (hheap : ∀ x ∈ rest, ∃ timer, q.heap (ofLex x).2 = some timer)
    (hidle : ∀ x ∈ rest, (ofLex x).2 ∉ q.activeTimers_)
    (hnodup : (rest.map fun x => (ofLex x).2).Nodup) :
    (resetEntries toMicroSeconds now q rest).2 = [] ∧
      (resetEntries toMicroSeconds now q rest).1.Consistent ∧
      SameFlags q (resetEntries toMicroSeconds now q rest).1 ∧
      ∀ e s, toLex (e, s) ∈ (resetEntries toMicroSeconds now q rest).1.timers_ ↔
        toLex (e, s) ∈ q.timers_ ∨
          (∃ x ∈ rest, (ofLex x).2 = s) ∧ Returns toMicroSeconds now q s e := by
  induction rest generalizing q with
  | nil => exact ⟨rfl, h, ⟨rfl, rfl, rfl, rfl⟩, fun e s => by simp [resetEntries]⟩
  | cons x rest ih =>
    obtain ⟨timer, htimer⟩ := hheap x (List.mem_cons_self ..)
    obtain ⟨hnone, hconsistent, hflags, hframe, hmem⟩ :=
      resetEntry_spec toMicroSeconds now h htimer (hidle x (List.mem_cons_self ..))
    obtain ⟨hfirst, hrest⟩ := List.nodup_cons.mp hnodup
    -- a timer expires once in a batch, so the rest is not about the first
    have hne : ∀ y ∈ rest, (ofLex y).2 ≠ (ofLex x).2 := fun y hy heq =>
      hfirst (List.mem_map.mpr ⟨y, hy, heq⟩)
    obtain ⟨hnone', hconsistent', hflags', hmem'⟩ := ih hconsistent
      (fun y hy => by
        rw [(hframe _ (hne y hy)).1]
        exact hheap y (List.mem_cons_of_mem _ hy))
      (fun y hy => by
        rw [(hframe _ (hne y hy)).2]
        exact hidle y (List.mem_cons_of_mem _ hy))
      hrest
    refine ⟨?_, hconsistent', ?_, fun e s => ?_⟩
    · show _ ++ _ = []
      rw [hnone, hnone']
      rfl
    · exact ⟨hflags'.numCreated.trans hflags.numCreated, hflags'.calling.trans hflags.calling,
        hflags'.canceling.trans hflags.canceling, hflags'.timerfd.trans hflags.timerfd⟩
    · refine (hmem' e s).trans ?_
      rw [hmem e s, or_assoc]
      apply or_congr_right
      have hreturns : s ≠ (ofLex x).2 → (Returns toMicroSeconds now
          (resetEntry toMicroSeconds now q x).1 s e ↔ Returns toMicroSeconds now q s e) := by
        intro hs
        unfold Returns
        rw [(hframe s hs).1, hflags.canceling]
      constructor
      · rintro (⟨rfl, hback⟩ | ⟨⟨y, hy, rfl⟩, hback⟩)
        · exact ⟨⟨x, List.mem_cons_self .., rfl⟩, hback⟩
        · exact ⟨⟨y, List.mem_cons_of_mem _ hy, rfl⟩, (hreturns (hne y hy)).mp hback⟩
      · rintro ⟨⟨y, hy, rfl⟩, hback⟩
        rcases List.mem_cons.mp hy with rfl | hy
        · exact Or.inl ⟨rfl, hback⟩
        · exact Or.inr ⟨⟨y, hy, rfl⟩, (hreturns (hne y hy)).mpr hback⟩

/-- `reset` sets the timerfd for the earliest timer, unless its expiration is no valid time. -/
theorem reset_eq (q : TimerQueue) (expired : List TimerEntry) (reading : Timestamp) :
    ∃ fd, q.reset toMicroSeconds expired now reading =
        ({ (resetEntries toMicroSeconds now q expired).1 with timerfd := fd },
          (resetEntries toMicroSeconds now q expired).2) ∧
      ((∃ x ∈ (resetEntries toMicroSeconds now q expired).1.timers_, 0 < (ofLex x).1 ∧
          (∀ y ∈ (resetEntries toMicroSeconds now q expired).1.timers_, x ≤ y) ∧
          fd = some (reading, howMuchTimeFromNow (ofLex x).1 reading)) ∨
        (∀ y ∈ (resetEntries toMicroSeconds now q expired).1.timers_, ∃ x ∈
          (resetEntries toMicroSeconds now q expired).1.timers_, (ofLex x).1 ≤ 0) ∧
        fd = (resetEntries toMicroSeconds now q expired).1.timerfd) := by
  unfold reset
  generalize resetEntries toMicroSeconds now q expired = next
  obtain ⟨q', events⟩ := next
  simp only
  cases hhead : q'.timers_.toList.head? with
  | none =>
    refine ⟨q'.timerfd, rfl, Or.inr ⟨fun y hy => ?_, rfl⟩⟩
    rw [← SortedSet.mem_toList, List.head?_eq_none_iff.mp hhead] at hy
    cases hy
  | some x =>
    obtain ⟨hmem, hleast⟩ := SortedSet.head_spec hhead
    simp only
    by_cases hvalid : Timestamp.valid (ofLex x).1 = true
    · rw [if_pos hvalid]
      exact ⟨_, rfl, Or.inl ⟨x, hmem, of_decide_eq_true hvalid, hleast, rfl⟩⟩
    · rw [if_neg hvalid]
      refine ⟨q'.timerfd, rfl, Or.inr ⟨fun _ _ => ⟨x, hmem, ?_⟩, rfl⟩⟩
      exact not_lt.mp fun hlt => hvalid (decide_eq_true hlt)

end Reset

/-! ### A batch -/

/-- The queue before the first callback of a batch. -/
def batchStart (q : TimerQueue) (now : Timestamp) : TimerQueue :=
  { q.getExpired now with callingExpiredTimers_ := true, cancelingTimers_ := ∅ }

theorem Consistent.batchStart (h : q.Consistent) (now : Timestamp) :
    (q.batchStart now).Consistent := (h.getExpired now).mono le_rfl

theorem notMem_active_batchStart {now : Timestamp} {x : TimerEntry} (hx : x ∈ q.expired now) :
    (ofLex x).2 ∉ (q.batchStart now).activeTimers_ := fun hmem =>
  (mem_active_getExpired.mp hmem).2 x hx rfl

theorem inBatch_batchStart (h : q.Consistent) (now : Timestamp) :
    InBatch (q.batchStart now) (q.expired now) [] (q.batchStart now) where
  consistent := h.batchStart now
  calling := rfl
  le_numCreated := le_rfl
  known := by
    rintro ⟨e, s⟩ hx
    exact (h.le_of_mem (mem_expired.mp hx).1).trans (Nat.le_succ _)
  mem_timers := by
    intro e s
    simp [not_added_nil]
  heap_eq _ _ := rfl
  notMem_active _ hx := notMem_active_batchStart hx
  mem_canceling _ _ := by simp [batchStart]
  added hmem := by cases hmem
  sound := ⟨List.not_mem_nil, List.not_mem_nil⟩

section Batch

variable (toMicroSeconds : ℚ → ℤ) (now reading : Timestamp) (callbacks : ℕ → List TimerCommand)

/-- The queue after the last callback of a batch. -/
def batchEnd (q : TimerQueue) : TimerQueue :=
  { (runExpired callbacks (q.batchStart now) (q.expired now)).1 with callingExpiredTimers_ := false }

theorem handleExpired_eq (q : TimerQueue) :
    q.handleExpired toMicroSeconds now reading callbacks =
      (((q.batchEnd now callbacks).reset toMicroSeconds (q.expired now) now reading).1,
        (runExpired callbacks (q.batchStart now) (q.expired now)).2 ++
          ((q.batchEnd now callbacks).reset toMicroSeconds (q.expired now) now reading).2) := rfl

/-- The queue when all callbacks have returned. -/
theorem inBatch_batchEnd (h : q.Consistent) :
    InBatch (q.batchStart now) (q.expired now)
        (runExpired callbacks (q.batchStart now) (q.expired now)).2
        (runExpired callbacks (q.batchStart now) (q.expired now)).1 ∧
      starts (runExpired callbacks (q.batchStart now) (q.expired now)).2 =
        (q.expired now).map fun x => (ofLex x).2 := by
  refine (inBatch_batchStart h now).run_expired ?_ callbacks fun x hx => hx
  rintro ⟨e, s⟩ hx
  obtain ⟨timer, htimer, -⟩ := h.exists_timer (mem_expired.mp hx).1
  exact ⟨timer, htimer⟩

theorem exists_timer_batchEnd (h : q.Consistent) : ∀ x ∈ q.expired now,
    ∃ timer, q.heap (ofLex x).2 = some timer ∧
      (q.batchEnd now callbacks).heap (ofLex x).2 = some timer := by
  obtain ⟨hbatch, -⟩ := inBatch_batchEnd now callbacks h
  rintro ⟨e, s⟩ hx
  obtain ⟨timer, htimer, -⟩ := h.exists_timer (mem_expired.mp hx).1
  exact ⟨timer, htimer, (hbatch.heap_eq _ hx).trans htimer⟩

/-- What `reset` finds at the end of a batch, and leaves. -/
theorem resetEntries_batchEnd (h : q.Consistent) :
    (resetEntries toMicroSeconds now (q.batchEnd now callbacks) (q.expired now)).2 = [] ∧
      (resetEntries toMicroSeconds now (q.batchEnd now callbacks) (q.expired now)).1.Consistent ∧
      SameFlags (q.batchEnd now callbacks)
        (resetEntries toMicroSeconds now (q.batchEnd now callbacks) (q.expired now)).1 ∧
      ∀ e s, toLex (e, s) ∈ (resetEntries toMicroSeconds now (q.batchEnd now callbacks)
          (q.expired now)).1.timers_ ↔
        toLex (e, s) ∈ (q.batchEnd now callbacks).timers_ ∨
          (∃ x ∈ q.expired now, (ofLex x).2 = s) ∧
            Returns toMicroSeconds now (q.batchEnd now callbacks) s e := by
  obtain ⟨hbatch, -⟩ := inBatch_batchEnd now callbacks h
  refine resetEntries_spec toMicroSeconds now (hbatch.consistent.mono le_rfl) (fun x hx => ?_)
    hbatch.notMem_active (h.nodup_expired now)
  obtain ⟨timer, -, htimer⟩ := exists_timer_batchEnd now callbacks h x hx
  exact ⟨timer, htimer⟩

end Batch

/-! ### The timerfd -/

/-- The timerfd is set for a moment no later than any expiration, or for the least delay. -/
def Armed (q : TimerQueue) : Prop :=
  ∃ reading delay, q.timerfd = some (reading, delay) ∧ 100 ≤ delay ∧
    ∀ x ∈ q.timers_, delay ≤ max ((ofLex x).1 - reading) 100

/-- The timerfd is set if there is a timer whose expiration is of the kind `P`. -/
def Wakes (P : Timestamp → Prop) (q : TimerQueue) : Prop :=
  (∃ x ∈ q.timers_, P (ofLex x).1) → q.Armed

theorem le_howMuchTimeFromNow (e reading : Timestamp) : 100 ≤ howMuchTimeFromNow e reading := by
  unfold howMuchTimeFromNow
  simp only
  split
  · exact le_rfl
  · rename_i hlong
    exact not_lt.mp hlong

theorem howMuchTimeFromNow_le {e e' : Timestamp} (reading : Timestamp) (h : e ≤ e') :
    howMuchTimeFromNow e reading ≤ max (e' - reading) 100 := by
  unfold howMuchTimeFromNow
  have hsub : e - reading ≤ e' - reading := sub_le_sub_right h reading
  simp only
  split
  · exact le_max_right _ _
  · exact hsub.trans (le_max_left _ _)

/-- A delay that is early enough for one timer is so for a later one. -/
theorem le_max_of_le {e e' reading : Timestamp} {delay : ℤ} (h : delay ≤ max (e - reading) 100)
    (he : e ≤ e') : delay ≤ max (e' - reading) 100 :=
  h.trans (max_le_max_right 100 (sub_le_sub_right he reading))

section Wakes

variable {P : Timestamp → Prop} (hP : ∀ e e', P e → e' ≤ e → P e')

include hP

/-- A new timer sets the timerfd, or one that is due earlier has set it. -/
theorem Wakes.addTimer (h : q.Wakes P) (e : Timestamp) (interval : ℚ) (reading : Timestamp) :
    (q.addTimer e interval reading).1.Wakes P := by
  obtain ⟨fd, heq, hfd⟩ := addTimer_eq q e interval reading
  rw [heq]
  have hmem : ∀ x : TimerEntry, x ∈ q.timers_.insert (toLex (e, q.numCreated + 1)) →
      x ∈ q.timers_ ∨ (ofLex x).1 = e := by
    intro x hx
    rcases (SortedSet.mem_insert _).mp hx with rfl | hold
    · exact Or.inr rfl
    · exact Or.inl hold
  rintro ⟨x, hx, hPx⟩
  rcases hfd with ⟨hearliest, rfl⟩ | ⟨⟨first, hfirst, hle, hleast⟩, rfl⟩
  · refine ⟨reading, howMuchTimeFromNow e reading, rfl, le_howMuchTimeFromNow _ _, fun y hy => ?_⟩
    rcases hmem y hy with hold | hnew
    · exact howMuchTimeFromNow_le reading (hearliest y hold).le
    · exact howMuchTimeFromNow_le reading hnew.ge
  · have hPfirst : P (ofLex first).1 := by
      rcases hmem x hx with hold | hnew
      · exact hP _ _ hPx (elapses_of_le (hleast x hold))
      · exact hP _ _ hPx (hle.trans hnew.ge)
    obtain ⟨r, delay, hset, hleast, hdelay⟩ := h ⟨first, hfirst, hPfirst⟩
    refine ⟨r, delay, hset, hleast, fun y hy => ?_⟩
    rcases hmem y hy with hold | hnew
    · exact hdelay y hold
    · exact le_max_of_le (hdelay first hfirst) (hle.trans hnew.ge)

omit hP in
theorem Wakes.cancelInLoop (h : q.Wakes P) (hq : q.Consistent) (s : ℕ) :
    (q.cancelInLoop s).1.Wakes P := by
  have hcases := cancel_cases hq s
  generalize q.cancelInLoop s = next at hcases ⊢
  cases hcases with
  | waits he =>
    rintro ⟨x, hx, hPx⟩
    obtain ⟨r, delay, hset, hleast, hdelay⟩ := h ⟨x, ((SortedSet.mem_erase _).mp hx).2, hPx⟩
    exact ⟨r, delay, hset, hleast, fun y hy => hdelay y ((SortedSet.mem_erase _).mp hy).2⟩
  | calling hs hcalling => exact h
  | idle hs hcalling => exact h

theorem Wakes.command (h : q.Wakes P) (hq : q.Consistent) (c : TimerCommand) :
    (commands.step q c).1.Wakes P := by
  cases c with
  | addTimer e interval reading => exact h.addTimer hP e interval reading
  | cancel s => exact h.cancelInLoop hq s

theorem Wakes.run_commands (h : q.Wakes P) (hq : q.Consistent) (cs : List TimerCommand) :
    (commands.run q cs).1.Wakes P ∧ (commands.run q cs).1.Consistent := by
  induction cs generalizing q with
  | nil => exact ⟨h, hq⟩
  | cons c cs ih =>
    obtain ⟨event, -, hspec⟩ := command_spec hq c
    exact ih (h.command hP hq c) hspec.consistent

theorem Wakes.run_expired (h : q.Wakes P) (hq : q.Consistent) (callbacks : ℕ → List TimerCommand)
    (rest : List TimerEntry) : (runExpired callbacks q rest).1.Wakes P := by
  induction rest generalizing q with
  | nil => exact h
  | cons x rest ih =>
    unfold runExpired
    split
    · exact h
    · obtain ⟨hrun, hconsistent⟩ := h.run_commands hP hq (callbacks (ofLex x).2)
      exact ih hrun hconsistent

end Wakes

theorem consistent_empty : Consistent {} where
  exists_timer h := absurd h (SortedSet.notMem_empty _)
  active_iff s := by
    apply iff_of_false (Finset.notMem_empty s)
    rintro ⟨e, he⟩
    exact SortedSet.notMem_empty _ he
  le_numCreated h := by cases h

end TimerQueue

namespace TimerQueue

variable {toMicroSeconds : ℚ → ℤ}

theorem canRun (q : TimerQueue) (inputs : List TimerInput) :
    (machine toMicroSeconds).CanRun q inputs := by
  induction inputs generalizing q with
  | nil => trivial
  | cons input inputs ih => exact ⟨trivial, ih _⟩

end TimerQueue

end ArenaGame
