import ArenaGame.Muduo.EventLoop

/-!
# Queued functors

`EventLoop.Keeps` is the invariant: the functors go from `pendingFunctors_` into a batch and out of
it in the order in which they came; and while the loop thread will poll before it looks at the queue
again, a queue that is not empty means that the `eventfd` can be read, or soon will be.

A functor that is pushed before the swap needs no wakeup, because the swap will take it.  From the
swap on `callingPendingFunctors_` is set, and then also the loop thread itself wakes up.
-/

namespace ArenaGame

variable {F : Type}

namespace LoopEvent

def enqueuedFunctor : LoopEvent F → List F
  | enqueued cb => [cb]
  | _ => []

def executedFunctor : LoopEvent F → List F
  | executed functor => [functor]
  | _ => []

end LoopEvent

def LoopInput.functor : LoopInput F → List F
  | push _ cb => [cb]
  | _ => []

/-- The functors that are queued. -/
def LoopInput.functors (inputs : List (LoopInput F)) : List F := inputs.flatMap functor

namespace LoopPc

/-- The loop thread is in `doPendingFunctors`. -/
def inPending : LoopPc → Bool
  | .swapping => true
  | .executing => true
  | .inFunctor => true
  | .queueing caller => caller.inPending
  | _ => false

/-- The loop thread is behind the swap of `doPendingFunctors`. -/
def inBatch : LoopPc → Bool
  | .executing => true
  | .inFunctor => true
  | .queueing caller => caller.inBatch
  | _ => false

/-- The loop thread polls before it swaps again. -/
def pollsFirst : LoopPc → Bool
  | .test => true
  | .polling => true
  | .executing => true
  | .inFunctor => true
  | _ => false

end LoopPc

namespace EventLoop

def enqueued (events : List (LoopEvent F)) : List F := events.flatMap LoopEvent.enqueuedFunctor

def executed (events : List (LoopEvent F)) : List F := events.flatMap LoopEvent.executedFunctor

@[simp] theorem enqueued_append (es es' : List (LoopEvent F)) :
    enqueued (es ++ es') = enqueued es ++ enqueued es' := List.flatMap_append

@[simp] theorem executed_append (es es' : List (LoopEvent F)) :
    executed (es ++ es') = executed es ++ executed es' := List.flatMap_append

/-- The invariant of the queue of functors. -/
structure Keeps (events : List (LoopEvent F)) (loop : EventLoop F) : Prop where
  flow : executed events ++ loop.functors ++ loop.pendingFunctors_ = enqueued events
  calling : loop.callingPendingFunctors_ = loop.pc.inPending
  functors : loop.pc.inBatch = false → loop.functors = []
  caller : ∀ caller, loop.pc = .queueing caller → caller.runsCode = true
  noticed : loop.pc.pollsFirst = true → loop.pendingFunctors_ ≠ [] →
    0 < loop.wakeupFd_ ∨ 0 < loop.queueing

variable {loop : EventLoop F} {events : List (LoopEvent F)}

/-- The steps that only move on. -/
theorem Keeps.goto (h : Keeps events loop) {pc : LoopPc}
    (hpending : pc.inPending = loop.pc.inPending) (hbatch : pc.inBatch = loop.pc.inBatch)
    (hcaller : ∀ caller, pc ≠ .queueing caller)
    (hpolls : pc.pollsFirst = true → loop.pc.pollsFirst = true) :
    Keeps events { loop with pc := pc } where
  flow := h.flow
  calling := h.calling.trans hpending.symm
  functors hno := h.functors (hbatch.symm.trans hno)
  caller caller heq := absurd heq (hcaller caller)
  noticed hpoll := h.noticed (hpolls hpoll)

/-! ### Waking up -/

theorem wakeup_spec (hwritten : .wakeupFailed ∉ loop.wakeup.2) :
    loop.wakeup = ({ loop with wakeupFd_ := loop.wakeupFd_ + 1 }, []) := by
  unfold wakeup at hwritten ⊢
  split
  · rfl
  · rename_i hfull
    rw [if_neg hfull] at hwritten
    exact absurd (List.mem_singleton.mpr rfl) hwritten

/-- After a wakeup nothing goes unnoticed, whatever may have before. -/
theorem keeps_wakeup (hflow : executed events ++ loop.functors ++ loop.pendingFunctors_ =
      enqueued events) (hcalling : loop.callingPendingFunctors_ = loop.pc.inPending)
    (hfunctors : loop.pc.inBatch = false → loop.functors = [])
    (hcaller : ∀ caller, loop.pc = .queueing caller → caller.runsCode = true)
    (hwritten : .wakeupFailed ∉ loop.wakeup.2) :
    Keeps (events ++ loop.wakeup.2) loop.wakeup.1 := by
  rw [wakeup_spec hwritten, List.append_nil]
  exact ⟨hflow, hcalling, hfunctors, hcaller, fun _ _ => Or.inl (Nat.succ_pos _)⟩

theorem Keeps.wakeup (h : Keeps events loop) (hwritten : .wakeupFailed ∉ loop.wakeup.2) :
    Keeps (events ++ loop.wakeup.2) loop.wakeup.1 :=
  keeps_wakeup h.flow h.calling h.functors h.caller hwritten

/-- A call on another thread gets to its wakeup. -/
theorem Keeps.pushedElsewhere (h : Keeps events loop) {queueing : ℕ}
    (hwritten : .wakeupFailed ∉ (pushed { loop with queueing := queueing } false).2) :
    Keeps (events ++ (pushed { loop with queueing := queueing } false).2)
      (pushed { loop with queueing := queueing } false).1 :=
  keeps_wakeup h.flow h.calling h.functors h.caller hwritten

/-- A call on the loop thread returns.  In a functor it has woken the loop up, and in the callback
of a channel the swap is still to come. -/
theorem Keeps.pushedHere (h : Keeps events loop) {caller : LoopPc}
    (hpc : loop.pc = .queueing caller)
    (hwritten : .wakeupFailed ∉ (pushed { loop with pc := caller } true).2) :
    Keeps (events ++ (pushed { loop with pc := caller } true).2)
      (pushed { loop with pc := caller } true).1 := by
  have hruns := h.caller caller hpc
  have hcalling := h.calling
  have hbatch := h.functors
  rw [hpc] at hcalling hbatch
  have hcaller : ∀ caller', caller ≠ .queueing caller' := by
    intro caller' heq
    rw [heq] at hruns
    cases hruns
  unfold pushed at hwritten ⊢
  by_cases hset : loop.callingPendingFunctors_ = true
  · rw [if_pos (by simp [hset])] at hwritten ⊢
    exact keeps_wakeup h.flow hcalling hbatch (fun caller' heq => absurd heq (hcaller caller'))
      hwritten
  · -- without a wakeup the caller is the callback of a channel
    rw [if_neg (by simp [hset]), List.append_nil]
    refine ⟨h.flow, hcalling, hbatch, fun caller' heq => absurd heq (hcaller caller'), ?_⟩
    intro hpolls
    cases caller with
    | inCallback channels => cases hpolls
    | inFunctor => exact absurd hcalling hset
    | _ => cases hruns

/-! ### Pushing -/

theorem Keeps.push (h : Keeps events loop) {isInLoopThread : Bool}
    (hruns : isInLoopThread = true → loop.pc.runsCode = true) (cb : F) :
    Keeps (events ++ (loop.push isInLoopThread cb).2) (loop.push isInLoopThread cb).1 := by
  have hflow : executed (events ++ [.enqueued cb]) ++ loop.functors ++
      (loop.pendingFunctors_ ++ [cb]) = enqueued (events ++ [.enqueued cb]) := by
    rw [executed_append, enqueued_append, ← h.flow]
    simp [executed, enqueued, LoopEvent.executedFunctor, LoopEvent.enqueuedFunctor]
  cases isInLoopThread with
  | true =>
    exact {
      flow := hflow
      calling := h.calling
      functors := h.functors
      caller := by
        intro caller heq
        obtain rfl := LoopPc.queueing.inj heq
        exact hruns rfl
      noticed := fun hpolls => by cases hpolls }
  | false => exact ⟨hflow, h.calling, h.functors, h.caller, fun _ _ => Or.inr (Nat.succ_pos _)⟩

/-! ### The loop thread -/

theorem Keeps.handleRead (h : Keeps events loop) (hpolls : loop.pc.pollsFirst = false) :
    Keeps (events ++ loop.handleRead.2) loop.handleRead.1 := by
  unfold EventLoop.handleRead
  split
  · refine ⟨?_, h.calling, h.functors, h.caller, h.noticed⟩
    rw [executed_append, enqueued_append, ← h.flow]
    simp [executed, enqueued, LoopEvent.executedFunctor, LoopEvent.enqueuedFunctor]
  · rw [List.append_nil]
    exact ⟨h.flow, h.calling, h.functors, h.caller, fun hno => by rw [hpolls] at hno; cases hno⟩

/-- `doPendingFunctors` begins. -/
theorem Keeps.call (h : Keeps events loop) (hpc : loop.pc = .handling []) :
    Keeps events
      { loop with functors := [], callingPendingFunctors_ := true, pc := .swapping } := by
  have hflow := h.flow
  rw [h.functors (by rw [hpc]; rfl)] at hflow
  exact ⟨hflow, rfl, fun _ => rfl, fun _ heq => (by cases heq), fun hpolls => by cases hpolls⟩

/-- The swap takes everything that was pushed before it. -/
theorem Keeps.swap (h : Keeps events loop) (hpc : loop.pc = .swapping) :
    Keeps events loop.swap := by
  have hbatch : loop.functors = [] := h.functors (by rw [hpc]; rfl)
  have hcalling := h.calling
  rw [hpc] at hcalling
  have hflow := h.flow
  rw [hbatch, List.append_nil] at hflow
  exact {
    flow := by
      show executed events ++ loop.pendingFunctors_ ++ loop.functors = _
      rw [hbatch, List.append_nil, hflow]
    calling := hcalling
    functors := fun hno => by cases hno
    caller := fun _ heq => by cases heq
    noticed := fun _ hpending => absurd hbatch hpending }

/-- The next functor of the batch is called. -/
theorem Keeps.execute (h : Keeps events loop) (hpc : loop.pc = .executing) {functor : F}
    {functors : List F} (hnext : loop.functors = functor :: functors) :
    Keeps (events ++ [.executed functor]) { loop with functors := functors, pc := .inFunctor } := by
  have hcalling := h.calling
  rw [hpc] at hcalling
  have hflow := h.flow
  rw [hnext] at hflow
  exact {
    flow := by
      rw [executed_append, enqueued_append, ← hflow]
      simp [executed, enqueued, LoopEvent.executedFunctor, LoopEvent.enqueuedFunctor]
    calling := hcalling
    functors := fun hno => by cases hno
    caller := fun _ heq => by cases heq
    noticed := fun _ => h.noticed (by rw [hpc]; rfl) }

/-- The batch is empty, and `doPendingFunctors` ends. -/
theorem Keeps.called (h : Keeps events loop) (hpc : loop.pc = .executing)
    (hnone : loop.functors = []) :
    Keeps events { loop with callingPendingFunctors_ := false, pc := .test } :=
  ⟨h.flow, rfl, fun _ => hnone, fun _ heq => (by cases heq), fun _ => h.noticed (by rw [hpc]; rfl)⟩

theorem Keeps.advance (h : Keeps events loop) (activeChannels_ : List ActiveChannel)
    (hwritten : .wakeupFailed ∉ (loop.advance activeChannels_).2) :
    Keeps (events ++ (loop.advance activeChannels_).2) (loop.advance activeChannels_).1 := by
  unfold EventLoop.advance at hwritten ⊢
  cases hpc : loop.pc with
  | test =>
    rw [List.append_nil]
    refine h.goto ?_ ?_ ?_ (fun _ => by rw [hpc]; rfl)
    · rw [hpc]
      split <;> rfl
    · rw [hpc]
      split <;> rfl
    · split <;> simp
  | polling =>
    rw [List.append_nil]
    exact h.goto (by rw [hpc]; rfl) (by rw [hpc]; rfl) (by simp) (fun hpolls => by cases hpolls)
  | handling channels =>
    cases channels with
    | nil =>
      rw [List.append_nil]
      exact h.call hpc
    | cons channel channels =>
      -- `handleRead` may reset the counter here, because the swap is still to come
      have hmoved : Keeps events { loop with pc := .handling channels } :=
        h.goto (by rw [hpc]; rfl) (by rw [hpc]; rfl) (by simp) (fun hpolls => by cases hpolls)
      cases channel with
      | wakeupChannel_ => exact hmoved.handleRead rfl
      | other =>
        rw [List.append_nil]
        exact h.goto (by rw [hpc]; rfl) (by rw [hpc]; rfl) (by simp) (fun hpolls => by cases hpolls)
  | inCallback channels =>
    rw [List.append_nil]
    exact h.goto (by rw [hpc]; rfl) (by rw [hpc]; rfl) (by simp) (fun hpolls => by cases hpolls)
  | swapping =>
    rw [List.append_nil]
    exact h.swap hpc
  | executing =>
    simp only
    cases hnext : loop.functors with
    | nil =>
      have hcalled := h.called hpc hnext
      rw [hnext] at hcalled
      rw [List.append_nil]
      exact hcalled
    | cons functor functors => exact h.execute hpc hnext
  | inFunctor =>
    rw [List.append_nil]
    exact h.goto (by rw [hpc]; rfl) (by rw [hpc]; rfl) (by simp) (fun _ => by rw [hpc]; rfl)
  | queueing caller =>
    rw [hpc] at hwritten
    exact h.pushedHere hpc hwritten
  | finished =>
    rw [List.append_nil]
    exact h

/-! ### Every run -/

theorem keeps_entered (wakeupFd_ queueing : ℕ) :
    Keeps [] (entered wakeupFd_ queueing : EventLoop F) :=
  ⟨rfl, rfl, fun _ => rfl, fun _ heq => (by cases heq), fun _ hpending => absurd rfl hpending⟩

theorem Keeps.step (h : Keeps events loop) {input : LoopInput F}
    (henabled : (machine F).Enabled loop input)
    (hwritten : .wakeupFailed ∉ ((machine F).step loop input).2) :
    Keeps (events ++ ((machine F).step loop input).2) ((machine F).step loop input).1 := by
  cases input with
  | advance activeChannels_ => exact h.advance activeChannels_ hwritten
  | push isInLoopThread cb => exact h.push henabled cb
  | pushed => exact h.pushedElsewhere hwritten
  | wakeup => exact h.wakeup hwritten
  | quit =>
    show Keeps (events ++ []) loop.quit
    rw [List.append_nil]
    exact ⟨h.flow, h.calling, h.functors, h.caller, h.noticed⟩

theorem enqueued_wakeup (loop : EventLoop F) : enqueued loop.wakeup.2 = [] := by
  unfold EventLoop.wakeup
  split
  · rfl
  · rfl

theorem enqueued_pushed (loop : EventLoop F) (isInLoopThread : Bool) :
    enqueued (loop.pushed isInLoopThread).2 = [] := by
  unfold EventLoop.pushed
  split
  · exact enqueued_wakeup loop
  · rfl

theorem enqueued_advance (loop : EventLoop F) (activeChannels_ : List ActiveChannel) :
    enqueued (loop.advance activeChannels_).2 = [] := by
  unfold EventLoop.advance
  cases loop.pc with
  | handling channels =>
    cases channels with
    | nil => rfl
    | cons channel channels =>
      cases channel with
      | other => rfl
      | wakeupChannel_ =>
        simp only [EventLoop.handleRead]
        split
        · rfl
        · rfl
  | executing =>
    dsimp only
    split
    · rfl
    · rfl
  | queueing caller => exact enqueued_pushed _ true
  | _ => rfl

/-- Every functor that is queued is put out as such, and no other. -/
theorem enqueued_run (loop : EventLoop F) (inputs : List (LoopInput F)) :
    enqueued ((machine F).run loop inputs).2 = LoopInput.functors inputs := by
  induction inputs generalizing loop with
  | nil => rfl
  | cons input inputs ih =>
    have hfirst : enqueued ((machine F).step loop input).2 = input.functor := by
      cases input with
      | advance activeChannels_ => exact enqueued_advance loop activeChannels_
      | push isInLoopThread cb => rfl
      | pushed => exact enqueued_pushed _ false
      | wakeup => exact enqueued_wakeup loop
      | quit => rfl
    rw [Machine.run_cons, enqueued_append, hfirst, ih]
    rfl

theorem keeps_run {wakeupFd_ queueing : ℕ} {inputs : List (LoopInput F)}
    (hrun : (machine F).CanRun (entered wakeupFd_ queueing) inputs)
    (hwritten : .wakeupFailed ∉ ((machine F).run (entered wakeupFd_ queueing) inputs).2) :
    Keeps ((machine F).run (entered wakeupFd_ queueing) inputs).2
      ((machine F).run (entered wakeupFd_ queueing) inputs).1 :=
  Machine.run_induction_within (B := fun events => .wakeupFailed ∉ events)
    (fun _ _ hno hmem => hno (List.mem_append_left _ hmem))
    (fun _ _ _ h henabled hno => h.step henabled fun hmem => hno (List.mem_append_right _ hmem))
    (keeps_entered wakeupFd_ queueing) hrun hwritten

/-- **No queued functor is lost, reordered or left sleeping.**  In every run in which the writes to
the `eventfd` succeed: the functors executed so far, what is left of the batch and those that are
pending are all that were queued, in this order; and when the loop thread is blocked in `poll` while
some are pending, the `eventfd` can be read, or a `queueInLoop` is between its push and its
wakeup. -/
theorem no_functor_lost {wakeupFd_ queueing : ℕ} {inputs : List (LoopInput F)}
    (hrun : (machine F).CanRun (entered wakeupFd_ queueing) inputs)
    (hwritten : .wakeupFailed ∉ ((machine F).run (entered wakeupFd_ queueing) inputs).2) :
    let loop := ((machine F).run (entered wakeupFd_ queueing) inputs).1
    let events := ((machine F).run (entered wakeupFd_ queueing) inputs).2
    enqueued events = LoopInput.functors inputs ∧
      executed events ++ loop.functors ++ loop.pendingFunctors_ = enqueued events ∧
      (loop.pc = .polling → loop.pendingFunctors_ ≠ [] →
        0 < loop.wakeupFd_ ∨ 0 < loop.queueing) := by
  intro loop events
  have h : Keeps events loop := keeps_run hrun hwritten
  refine ⟨enqueued_run _ inputs, h.flow, fun hpc => h.noticed ?_⟩
  rw [hpc]
  rfl

/-- Another thread queues 1 while the loop thread polls; the functor 1 queues 2. -/
def nestedFunctor : List (LoopInput ℕ) :=
  [.advance [], .push false 1, .pushed, .advance [.wakeupChannel_], .advance [], .advance [],
    .advance [], .advance [], .push true 2, .advance [], .advance [], .advance [], .advance []]

theorem no_functor_lost_nestedFunctor :
    LoopInput.functors nestedFunctor = [1, 2] ∧
      executed ((machine ℕ).run (entered 0 0) nestedFunctor).2 = [1] ∧
      ((machine ℕ).run (entered 0 0) nestedFunctor).1.pendingFunctors_ = [2] ∧
      (0 < ((machine ℕ).run (entered 0 0) nestedFunctor).1.wakeupFd_ ∨
        0 < ((machine ℕ).run (entered 0 0) nestedFunctor).1.queueing) := by
  have hrun : (machine ℕ).CanRun (entered 0 0) nestedFunctor := by decide +kernel
  obtain ⟨-, -, hnoticed⟩ := no_functor_lost hrun (by decide +kernel)
  exact ⟨rfl, by decide +kernel, by decide +kernel,
    hnoticed (by decide +kernel) (by decide +kernel)⟩

end EventLoop

end ArenaGame
