import ArenaGame.Muduo.Equiv.TimerQueue

/-!
# When a cancelled timer does not fire

A timer that waits is taken out when it is cancelled, and `reset` does not file a timer again that
was cancelled during its batch.  But the loop of `handleRead` runs the callbacks of all expired
timers and does not look at `cancelingTimers_`.  So a cancelled timer stays silent unless it is
cancelled in its own batch before its turn (`not_restarted_iff`).
-/

namespace ArenaGame.TimerQueue

/-- A timer was added, and cancelled after that. -/
def Cancelled (events : List TimerEvent) (s : ℕ) : Prop :=
  ∃ es es', events = es ++ .cancelled s :: es' ∧ ∃ e, .added s e ∈ es

/-- No callback is started after its timer has been cancelled. -/
def NotRestarted (events : List TimerEvent) : Prop :=
  ∀ es es' s, events = es ++ .started s :: es' → ¬ Cancelled es s

/-- No callback cancels a timer that has expired in the same batch and has not had its turn. -/
def Harmless (q : TimerQueue) : TimerInput → Prop
  | .command _ => True
  | .handleRead _ now _ callbacks => ∀ l x l', q.expired now = l ++ x :: l' →
    ∀ y ∈ l', .cancel (ofLex y).2 ∉ callbacks (ofLex x).2

theorem cancelled_append {es es' : List TimerEvent} {s : ℕ} (h : Cancelled (es ++ es') s) :
    Cancelled es s ∨ .cancelled s ∈ es' := by
  obtain ⟨a, b, heq, hadded⟩ := h
  rcases List.append_eq_append_iff.mp heq with ⟨c, rfl, hc⟩ | ⟨c, rfl, hc⟩
  · right
    rw [hc]
    simp
  · cases c with
    | nil =>
      right
      rw [List.nil_append] at hc
      rw [← hc]
      simp
    | cons event c =>
      obtain ⟨rfl, rfl⟩ := List.cons.inj hc
      exact Or.inl ⟨a, c, rfl, hadded⟩

theorem not_cancelled_nil (s : ℕ) : ¬ Cancelled [] s := by
  rintro ⟨a, b, heq, -⟩
  simp at heq

theorem NotRestarted.of_append {es es' : List TimerEvent} (h : NotRestarted (es ++ es')) :
    NotRestarted es := by
  rintro a b s rfl
  exact h a (b ++ es') s (by simp)

/-- One event more. -/
theorem NotRestarted.concat {events : List TimerEvent} (h : NotRestarted events)
    {event : TimerEvent} (hevent : ∀ s, event = .started s → ¬ Cancelled events s) :
    NotRestarted (events ++ [event]) := by
  intro es es' s heq
  rcases List.eq_nil_or_concat es' with rfl | ⟨es'', last, rfl⟩
  · obtain ⟨rfl, hlast⟩ := List.append_inj' heq rfl
    exact hevent s (by simpa using hlast)
  · have hsplit : events ++ [event] = (es ++ .started s :: es'') ++ [last] := by
      rw [heq]
      simp
    obtain ⟨rfl, -⟩ := List.append_inj' hsplit rfl
    exact h es es'' s rfl

/-! ### Commands -/

/-- What the queue has to do with the events so far. -/
structure Follows (events : List TimerEvent) (q : TimerQueue) : Prop where
  created : ∀ {s e}, .added s e ∈ events → s ≤ q.numCreated
  added : ∀ {e s}, toLex (e, s) ∈ q.timers_ → ∃ e', .added s e' ∈ events
  /-- A timer that was cancelled does not wait. -/
  notMem_active : ∀ {s}, Cancelled events s → s ∉ q.activeTimers_

variable {q q' : TimerQueue} {events : List TimerEvent}

theorem Follows.command (h : Follows events q) (hq : q.Consistent) {event : TimerEvent}
    (hspec : CommandSpec q q' event) : Follows (events ++ [event]) q' where
  created := by
    intro s e hmem
    rcases List.mem_append.mp hmem with hmem | hmem
    · exact (h.created hmem).trans hspec.le_numCreated
    · exact (hspec.added s e (List.mem_singleton.mp hmem).symm).2
  added := by
    intro e s hmem
    rcases (hspec.mem_timers e s).mp hmem with rfl | ⟨hold, -⟩
    · exact ⟨e, by simp⟩
    · obtain ⟨e', he'⟩ := h.added hold
      exact ⟨e', List.mem_append_left _ he'⟩
  notMem_active := by
    intro s hcancelled hmem
    obtain ⟨e, he⟩ := (hspec.consistent.active_iff s).mp hmem
    rcases cancelled_append hcancelled with hold | hnew
    · rcases (hspec.mem_timers e s).mp he with hadd | ⟨hwait, -⟩
      · -- a timer that was cancelled has been there before, so it is not the new one
        obtain ⟨es, es', rfl, e', hadded⟩ := hold
        have hle := h.created (List.mem_append_left _ hadded)
        exact absurd hle (not_le.mpr (hspec.added s e hadd).1)
      · exact h.notMem_active hold ((hq.active_iff s).mpr ⟨e, hwait⟩)
    · obtain rfl := (List.mem_singleton.mp hnew).symm
      rcases (hspec.mem_timers e s).mp he with hadd | ⟨-, hne⟩
      · cases hadd
      · exact hne rfl

theorem cancelled_mem_step (h : q.Consistent) (c : TimerCommand) (s : ℕ) :
    .cancelled s ∈ (commands.step q c).2 ↔ c = .cancel s := by
  cases c with
  | addTimer e interval reading =>
    show _ ∈ [TimerEvent.added _ _] ↔ _
    simp
  | cancel s' =>
    show _ ∈ (q.cancelInLoop s').2 ↔ _
    have hcases := cancel_cases h s'
    generalize q.cancelInLoop s' = next at hcases ⊢
    have hone : .cancelled s ∈ [TimerEvent.cancelled s'] ↔ TimerCommand.cancel s' = .cancel s := by
      simp [eq_comm]
    cases hcases with
    | waits he => exact hone
    | calling hs hcalling => exact hone
    | idle hs hcalling => exact hone

theorem cancelled_mem_run (h : q.Consistent) (cs : List TimerCommand) (s : ℕ) :
    .cancelled s ∈ (commands.run q cs).2 ↔ .cancel s ∈ cs := by
  induction cs generalizing q with
  | nil => exact iff_of_false List.not_mem_nil List.not_mem_nil
  | cons c cs ih =>
    obtain ⟨event, -, hspec⟩ := command_spec h c
    rw [Machine.run_cons, List.mem_append, cancelled_mem_step h, ih hspec.consistent, List.mem_cons,
      @eq_comm _ c]

/-- The commands of one callback start nothing. -/
theorem Follows.run_commands (h : Follows events q) (hq : q.Consistent)
    (hsilent : NotRestarted events) (cs : List TimerCommand) :
    Follows (events ++ (commands.run q cs).2) (commands.run q cs).1 ∧
      NotRestarted (events ++ (commands.run q cs).2) := by
  induction cs generalizing events q with
  | nil =>
    rw [Machine.run_nil, List.append_nil]
    exact ⟨h, hsilent⟩
  | cons c cs ih =>
    obtain ⟨event, hevent, hspec⟩ := command_spec hq c
    have hnext : NotRestarted (events ++ [event]) := by
      refine hsilent.concat fun s hs => ?_
      obtain ⟨s', ⟨e, hadd⟩ | hcancel⟩ := hspec.kind
      · rw [hadd] at hs
        cases hs
      · rw [hcancel] at hs
        cases hs
    rw [Machine.run_cons, hevent, ← List.append_assoc]
    exact ih (h.command hq hspec) hspec.consistent hnext

/-! ### A batch -/

section Batch

variable {q₀ : TimerQueue} {expired : List TimerEntry} {before : List TimerEvent}
  {callbacks : ℕ → List TimerCommand}

variable (before callbacks) in
/-- If no callback cancels one of those behind it, nothing that was cancelled is started. -/
theorem InBatch.notRestarted (h : InBatch q₀ expired events q)
    (hheap : ∀ x ∈ expired, ∃ timer, q₀.heap (ofLex x).2 = some timer)
    (hfollows : Follows (before ++ events) q) (hsilent : NotRestarted (before ++ events))
    {rest : List TimerEntry} (hrest : ∀ x ∈ rest, x ∈ expired)
    (halive : ∀ x ∈ rest, ¬ Cancelled (before ++ events) (ofLex x).2)
    (hharmless : ∀ l x l', rest = l ++ x :: l' →
      ∀ y ∈ l', .cancel (ofLex y).2 ∉ callbacks (ofLex x).2) :
    Follows (before ++ events ++ (runExpired callbacks q rest).2)
        (runExpired callbacks q rest).1 ∧
      NotRestarted (before ++ events ++ (runExpired callbacks q rest).2) := by
  induction rest generalizing events q with
  | nil =>
    show Follows (before ++ events ++ []) q ∧ NotRestarted (before ++ events ++ [])
    rw [List.append_nil]
    exact ⟨hfollows, hsilent⟩
  | cons x rest ih =>
    have hx := hrest x (List.mem_cons_self ..)
    obtain ⟨timer, htimer⟩ := hheap x hx
    -- the first callback starts: its timer has not been cancelled
    have hstarted : NotRestarted (before ++ (events ++ [.started (ofLex x).2])) := by
      rw [← List.append_assoc]
      refine hsilent.concat fun s hs => ?_
      cases hs
      exact halive x (List.mem_cons_self ..)
    have hfollows' : Follows (before ++ (events ++ [.started (ofLex x).2])) q := by
      rw [← List.append_assoc]
      exact {
        created := fun hmem => hfollows.created (by simpa using hmem)
        added := fun hmem => by
          obtain ⟨e, he⟩ := hfollows.added hmem
          exact ⟨e, List.mem_append_left _ he⟩
        notMem_active := fun hcancelled => by
          rcases cancelled_append hcancelled with hold | hnew
          · exact hfollows.notMem_active hold
          · simp at hnew }
    obtain ⟨hrun, hsilent'⟩ :=
      hfollows'.run_commands h.consistent hstarted (callbacks (ofLex x).2)
    obtain ⟨hbatch, -⟩ := (h.started (ofLex x).2).run_commands (callbacks (ofLex x).2)
    rw [List.append_assoc] at hrun hsilent'
    obtain ⟨hlast, hlast'⟩ := ih hbatch hrun hsilent'
      (fun y hy => hrest y (List.mem_cons_of_mem _ hy))
      (fun y hy hcancelled => by
        rw [← List.append_assoc, ← List.append_assoc] at hcancelled
        rcases cancelled_append hcancelled with hold | hnew
        · rcases cancelled_append hold with hold | hnew
          · exact halive y (List.mem_cons_of_mem _ hy) hold
          · simp at hnew
        · exact hharmless [] x rest rfl y hy ((cancelled_mem_run h.consistent _ _).mp hnew))
      (fun l z l' hl => hharmless (x :: l) z l' (by rw [hl]; rfl))
    rw [runExpired_cons ((h.heap_eq x hx).trans htimer)]
    simp only [List.append_assoc] at hlast hlast' ⊢
    exact ⟨hlast, hlast'⟩

variable (before) in
/-- Otherwise a timer is started although it was cancelled. -/
theorem InBatch.harmless (h : InBatch q₀ expired events q)
    (hheap : ∀ x ∈ expired, ∃ timer, q₀.heap (ofLex x).2 = some timer)
    {rest : List TimerEntry} (hrest : ∀ x ∈ rest, x ∈ expired)
    (hadded : ∀ x ∈ rest, ∃ e, .added (ofLex x).2 e ∈ before)
    (hsilent : NotRestarted (before ++ events ++ (runExpired callbacks q rest).2)) :
    ∀ l x l', rest = l ++ x :: l' → ∀ y ∈ l', .cancel (ofLex y).2 ∉ callbacks (ofLex x).2 := by
  induction rest generalizing events q with
  | nil =>
    intro l x l' heq
    simp at heq
  | cons x rest ih =>
    have hx := hrest x (List.mem_cons_self ..)
    obtain ⟨timer, htimer⟩ := hheap x hx
    obtain ⟨hbatch, -⟩ := (h.started (ofLex x).2).run_commands (callbacks (ofLex x).2)
    have hrest' : ∀ y ∈ rest, y ∈ expired := fun y hy => hrest y (List.mem_cons_of_mem _ hy)
    obtain ⟨-, hstarts⟩ := hbatch.run_expired hheap callbacks hrest'
    rw [runExpired_cons ((h.heap_eq x hx).trans htimer)] at hsilent
    simp only [← List.append_assoc] at hsilent
    intro l z l' heq y hy
    cases l with
    | nil =>
      obtain ⟨rfl, rfl⟩ := List.cons.inj heq
      intro hcancel
      -- `y` is cancelled now and started later
      have hcancelled : .cancelled (ofLex y).2 ∈ (commands.run q (callbacks (ofLex x).2)).2 :=
        (cancelled_mem_run h.consistent _ _).mpr hcancel
      have hstarted : .started (ofLex y).2 ∈
          (runExpired callbacks (commands.run q (callbacks (ofLex x).2)).1 rest).2 := by
        rw [← mem_starts, hstarts]
        exact List.mem_map.mpr ⟨y, hy, rfl⟩
      obtain ⟨a, b, hab⟩ := List.append_of_mem hstarted
      obtain ⟨c, d, hcd⟩ := List.append_of_mem hcancelled
      obtain ⟨e, he⟩ := hadded y (List.mem_cons_of_mem _ hy)
      rw [hab, hcd, ← List.append_assoc] at hsilent
      refine hsilent _ _ _ rfl ⟨before ++ events ++ [.started (ofLex x).2] ++ c, d ++ a, ?_, e, ?_⟩
      · simp
      · simp [he]
    | cons w l =>
      obtain ⟨rfl, rfl⟩ := List.cons.inj heq
      rw [List.append_assoc before, List.append_assoc before] at hsilent
      exact ih hbatch hrest' (fun y hy => hadded y (List.mem_cons_of_mem _ hy)) hsilent l z l' rfl y hy

end Batch

/-! ### Every run -/

/-- The invariant between two inputs. -/
structure Silent (events : List TimerEvent) (q : TimerQueue) : Prop where
  consistent : q.Consistent
  follows : Follows events q
  notRestarted : NotRestarted events

variable {toMicroSeconds : ℚ → ℤ}

/-- A batch begins with the queue as it is, less the expired timers. -/
theorem Follows.batchStart (h : Follows events q) (now : Timestamp) :
    Follows events (q.batchStart now) where
  created hmem := (h.created hmem).trans (Nat.le_succ _)
  added hmem := h.added (mem_timers_getExpired.mp hmem).1
  notMem_active hcancelled hmem := h.notMem_active hcancelled (mem_active_getExpired.mp hmem).1

theorem heap_of_expired (h : q.Consistent) (now : Timestamp) :
    ∀ x ∈ q.expired now, ∃ timer, (q.batchStart now).heap (ofLex x).2 = some timer := by
  intro x hx
  obtain ⟨timer, htimer, -⟩ := exists_timer_batchEnd now (fun _ => []) h x hx
  exact ⟨timer, htimer⟩

variable (toMicroSeconds) in
theorem events_handleExpired (h : q.Consistent) (now reading : Timestamp)
    (callbacks : ℕ → List TimerCommand) :
    (q.handleExpired toMicroSeconds now reading callbacks).2 =
      (runExpired callbacks (q.batchStart now) (q.expired now)).2 := by
  obtain ⟨hnone, -⟩ := resetEntries_batchEnd toMicroSeconds now callbacks h
  obtain ⟨fd, hreset, -⟩ := reset_eq toMicroSeconds now (q.batchEnd now callbacks) (q.expired now)
    reading
  rw [handleExpired_eq, hreset, hnone]
  exact List.append_nil _

/-- The timerfd does not matter. -/
theorem Silent.readTimerfd (h : Silent events q) (fired : Bool) :
    Silent events (q.readTimerfd fired) := by
  cases fired with
  | false => exact h
  | true =>
    exact ⟨h.consistent.readTimerfd true,
      ⟨h.follows.created, h.follows.added, h.follows.notMem_active⟩, h.notRestarted⟩

theorem expired_readTimerfd (q : TimerQueue) (fired : Bool) (now : Timestamp) :
    (q.readTimerfd fired).expired now = q.expired now := by
  cases fired <;> rfl

/-- A harmless batch keeps the invariant. -/
theorem Silent.handleExpired (h : Silent events q) {now : Timestamp} (reading : Timestamp)
    {callbacks : ℕ → List TimerCommand}
    (hharmless : ∀ l x l', q.expired now = l ++ x :: l' →
      ∀ y ∈ l', .cancel (ofLex y).2 ∉ callbacks (ofLex x).2) :
    Silent (events ++ (q.handleExpired toMicroSeconds now reading callbacks).2)
      (q.handleExpired toMicroSeconds now reading callbacks).1 := by
  have hwaits : ∀ x ∈ q.expired now, (ofLex x).2 ∈ q.activeTimers_ := by
    rintro ⟨e, s⟩ hx
    exact (h.consistent.active_iff s).mpr ⟨e, (mem_expired.mp hx).1⟩
  obtain ⟨hend, hsilent⟩ := (inBatch_batchStart h.consistent now).notRestarted events callbacks
    (heap_of_expired h.consistent now)
    (by rw [List.append_nil]; exact h.follows.batchStart now)
    (by rw [List.append_nil]; exact h.notRestarted) (fun x hx => hx)
    (by
      intro x hx hcancelled
      rw [List.append_nil] at hcancelled
      exact h.follows.notMem_active hcancelled (hwaits x hx))
    hharmless
  obtain ⟨hbatch, -⟩ := inBatch_batchEnd now callbacks h.consistent
  obtain ⟨-, hconsistent, hflags, hmem⟩ :=
    resetEntries_batchEnd toMicroSeconds now callbacks h.consistent
  obtain ⟨fd, hreset, -⟩ := reset_eq toMicroSeconds now (q.batchEnd now callbacks) (q.expired now)
    reading
  rw [events_handleExpired toMicroSeconds h.consistent, handleExpired_eq, hreset]
  rw [List.append_nil] at hend hsilent
  refine ⟨hconsistent.mono le_rfl, ⟨?_, ?_, ?_⟩, hsilent⟩
  · intro s e hadded
    exact (hend.created hadded).trans hflags.numCreated.ge
  · intro e s hin
    rcases (hmem e s).mp hin with hold | ⟨⟨⟨e', s'⟩, hx, rfl⟩, -⟩
    · exact hend.added hold
    · obtain ⟨e'', he''⟩ := h.follows.added (mem_expired.mp hx).1
      exact ⟨e'', List.mem_append_left _ he''⟩
  · intro s hcancelled hactive
    obtain ⟨e, he⟩ := (hconsistent.active_iff s).mp hactive
    rcases (hmem e s).mp he with hold | ⟨⟨x, hx, rfl⟩, timer, -, -, hno, -⟩
    · exact hend.notMem_active hcancelled ((hbatch.consistent.active_iff s).mpr ⟨e, hold⟩)
    · -- a timer that was cancelled in the batch is not filed again
      rcases cancelled_append hcancelled with hbefore | hnew
      · exact h.follows.notMem_active hbefore (hwaits x hx)
      · exact hno ((hbatch.mem_canceling x hx).mpr hnew)

variable (toMicroSeconds) in
/-- The step lemma: an input keeps the invariant if and only if it is harmless. -/
theorem Silent.step_iff (h : Silent events q) (input : TimerInput) :
    (Harmless q input →
        Silent (events ++ ((machine toMicroSeconds).step q input).2)
          ((machine toMicroSeconds).step q input).1) ∧
      (NotRestarted (events ++ ((machine toMicroSeconds).step q input).2) → Harmless q input) := by
  cases input with
  | command c =>
    refine ⟨fun _ => ?_, fun _ => trivial⟩
    obtain ⟨hfollows, hsilent⟩ := h.follows.run_commands h.consistent h.notRestarted [c]
    rw [Machine.run_cons, Machine.run_nil, List.append_nil] at hfollows hsilent
    obtain ⟨event, -, hspec⟩ := command_spec h.consistent c
    exact ⟨hspec.consistent, hfollows, hsilent⟩
  | handleRead fired now reading callbacks =>
    have h' := h.readTimerfd fired
    have hstep : (machine toMicroSeconds).step q (.handleRead fired now reading callbacks) =
        (q.readTimerfd fired).handleExpired toMicroSeconds now reading callbacks := rfl
    dsimp only [Harmless]
    rw [hstep, ← expired_readTimerfd q fired]
    generalize q.readTimerfd fired = q at h'
    refine ⟨h'.handleExpired reading, fun hsilent => ?_⟩
    rw [events_handleExpired toMicroSeconds h'.consistent] at hsilent
    refine (inBatch_batchStart h'.consistent now).harmless events
      (heap_of_expired h'.consistent now) (fun x hx => hx) ?_
      (by rw [List.append_nil]; exact hsilent)
    rintro ⟨e, s⟩ hx
    exact h'.follows.added (mem_expired.mp hx).1

theorem silent_iff (h : Silent events q) (inputs : List TimerInput) :
    NotRestarted (events ++ ((machine toMicroSeconds).run q inputs).2) ↔
      ((machine toMicroSeconds).restrict Harmless).CanRun q inputs := by
  induction inputs generalizing events q with
  | nil =>
    rw [Machine.run_nil, List.append_nil]
    exact iff_of_true h.notRestarted trivial
  | cons input inputs ih =>
    obtain ⟨hkeeps, hharmless⟩ := h.step_iff toMicroSeconds input
    rw [Machine.run_cons, ← List.append_assoc, Machine.canRun_cons]
    constructor
    · intro hsilent
      have hinput := hharmless hsilent.of_append
      exact ⟨⟨trivial, hinput⟩, (ih (hkeeps hinput)).mp hsilent⟩
    · rintro ⟨⟨-, hinput⟩, hrest⟩
      exact (ih (hkeeps hinput)).mpr hrest

/-- **When a cancelled timer does not fire.**  In a run no callback is started after its timer has
been cancelled if and only if no callback of a batch cancels a timer that has expired in the same
batch and has not had its turn. -/
theorem not_restarted_iff (toMicroSeconds : ℚ → ℤ) (inputs : List TimerInput) :
    NotRestarted ((machine toMicroSeconds).run {} inputs).2 ↔
      ((machine toMicroSeconds).restrict Harmless).CanRun {} inputs := by
  have hempty : Silent [] {} := by
    refine ⟨consistent_empty, ⟨fun h => ?_, fun h => ?_, fun h => ?_⟩, fun es es' s heq => ?_⟩
    · cases h
    · exact absurd h (SortedSet.notMem_empty _)
    · exact absurd h (not_cancelled_nil _)
    · simp at heq
  exact silent_iff hempty inputs

/-- Two timers that expire together; the first one cancels the second. -/
def batchmates : List TimerInput :=
  [.command (.addTimer 100 0 0), .command (.addTimer 200 0 0),
    .handleRead true 300 300 fun s => if s = 1 then [.cancel 2] else []]

/-- The second one is started all the same. -/
theorem restarted_batchmates :
    ¬ NotRestarted ((machine fun seconds => ⌊seconds * 1000000⌋).run {} batchmates).2 := by
  intro hsilent
  have hevents : ((machine fun seconds => ⌊seconds * 1000000⌋).run {} batchmates).2 =
      [.added 1 100, .added 2 200, .started 1, .cancelled 2] ++ .started 2 :: [] := by
    decide +kernel
  exact hsilent _ _ _ hevents ⟨[.added 1 100, .added 2 200, .started 1], [], rfl, 200, by decide⟩

end ArenaGame.TimerQueue
