import ArenaGame.Muduo.Equiv.AsyncLogging

/-!
# When stopping the logger flushes it

After `stop` the writer swaps the buffers once more only if it has tested `running_` before and is
waiting; at its next test, or at the end of its round, it leaves the loop.  What has not been
swapped by then stays in the buffers.
-/

namespace ArenaGame.AsyncLogging

/-- What was appended and has not been swapped. -/
def unswapped (log : AsyncLogging) : List UInt8 :=
  contents log.buffers_ ++ content log.currentBuffer_

/-- What will stay in the buffers when the writer leaves its loop. -/
def left (log : AsyncLogging) : List UInt8 :=
  if log.pc = .waiting then [] else log.unswapped

variable {log : AsyncLogging} {events : List LogEvent}

theorem left_of_ne (hpc : log.pc ≠ .waiting) : log.left = log.unswapped := if_neg hpc

/-- The swap leaves empty buffers behind. -/
theorem unswapped_swap (h : Rotates events log) (hpc : log.pc = .waiting) :
    log.swap.unswapped = [] := by
  obtain ⟨-, -, hnothing⟩ := h.between (by rw [hpc]; rfl)
  show contents log.buffersToWrite ++ content log.newBuffer1 = []
  rw [hnothing, h.spare1_empty.content]
  rfl

/-- A step of the writer after `stop` does not change what will stay. -/
theorem left_write (h : Rotates events log) (hstopped : log.running_ = false) (fopened : Bool) :
    (log.write fopened).1.left = log.left ∧ (log.write fopened).1.running_ = false := by
  unfold write
  cases hpc : log.pc with
  | test =>
    rw [hstopped]
    exact ⟨by rw [left_of_ne (by simp), left_of_ne (by rw [hpc]; simp)]; rfl, rfl⟩
  | waiting =>
    refine ⟨?_, hstopped⟩
    -- the swap takes everything, and leaves empty buffers behind
    rw [left_of_ne (by rw [log.swap_pc]; decide), unswapped_swap h hpc, left, if_pos hpc]
  | opening =>
    exact ⟨by rw [left_of_ne (by simp), left_of_ne (by rw [hpc]; simp)]; rfl, hstopped⟩
  | writing fp i =>
    simp only
    split
    · exact ⟨by rw [left_of_ne (by simp), left_of_ne (by rw [hpc]; simp)]; rfl, hstopped⟩
    · exact ⟨rfl, hstopped⟩
    · exact ⟨by rw [left_of_ne (by simp), left_of_ne (by rw [hpc]; simp)]; rfl, hstopped⟩
  | recycling =>
    exact ⟨by rw [left_of_ne (by simp), left_of_ne (by rw [hpc]; simp)]; rfl, hstopped⟩
  | last =>
    rw [hstopped]
    exact ⟨by rw [left_of_ne (by simp), left_of_ne (by rw [hpc]; simp)]; rfl, rfl⟩
  | finished => exact ⟨rfl, hstopped⟩

/-- The writer alone, after `stop`. -/
theorem left_run (h : Rotates events log) (hstopped : log.running_ = false)
    {inputs : List LogInput} (hwrites : ∀ input ∈ inputs, ∃ fopened, input = .write fopened) :
    (machine.run log inputs).1.left = log.left ∧ appended (machine.run log inputs).2 = [] := by
  induction inputs generalizing events log with
  | nil => exact ⟨rfl, rfl⟩
  | cons input inputs ih =>
    obtain ⟨fopened, rfl⟩ := hwrites _ (List.mem_cons_self ..)
    obtain ⟨hleft, hstopped'⟩ := left_write h hstopped fopened
    obtain ⟨hleft', hnothing⟩ := ih (h.write fopened) hstopped' fun input hmem =>
      hwrites input (List.mem_cons_of_mem _ hmem)
    refine ⟨hleft'.trans hleft, ?_⟩
    show appended ((log.write fopened).2 ++ (machine.run (log.write fopened).1 inputs).2) = []
    rw [appended_append, hnothing, List.append_nil]
    exact appended_write h fopened

/-! ### The writer leaves its loop -/

/-- How many steps the writer takes at most after `stop`. -/
def stepsLeft (log : AsyncLogging) : ℕ :=
  match log.pc with
  | .test => 1
  | .waiting => log.buffers_.length + 6
  | .opening => log.buffersToWrite.length + 4
  | .writing _ i => log.buffersToWrite.length - i + 3
  | .recycling => 2
  | .last => 1
  | .finished => 0

theorem stepsLeft_write (h : Rotates events log) (hstopped : log.running_ = false)
    (hpc : log.pc ≠ .finished) (fopened : Bool) :
    (log.write fopened).1.stepsLeft < log.stepsLeft := by
  unfold write
  cases hat : log.pc with
  | test =>
    rw [hstopped]
    simp [stepsLeft, hat]
  | waiting =>
    -- the full buffers and the current one are still to be written
    have htaken : log.swap.buffersToWrite.length = log.buffers_.length + 1 := by
      show (log.buffers_ ++ [log.currentBuffer_]).length = _
      rw [List.length_append, List.length_singleton]
    unfold stepsLeft
    rw [log.swap_pc, hat, htaken]
    simp only
    omega
  | opening => simp [stepsLeft, hat]
  | writing fp i =>
    simp only
    cases hi : log.buffersToWrite[i]? with
    | none => simp [stepsLeft, hat]
    | some buffer =>
      cases buffer with
      | none => exact absurd (List.mem_of_getElem? hi) h.buffersToWrite
      | some buffer =>
        have hlt := (List.getElem?_eq_some_iff.mp hi).choose
        simp only [stepsLeft, hat]
        omega
  | recycling => simp [stepsLeft, hat]
  | last =>
    rw [hstopped]
    simp [stepsLeft, hat]
  | finished => exact absurd hat hpc

/-- `stop` returns: until the writer has finished it can take a step, and these are only so many. -/
theorem length_le_stepsLeft (h : Rotates events log) (hstopped : log.running_ = false)
    {inputs : List LogInput} (hwrites : ∀ input ∈ inputs, ∃ fopened, input = .write fopened)
    (hrun : machine.CanRun log inputs) : inputs.length ≤ log.stepsLeft := by
  induction inputs generalizing events log with
  | nil => exact Nat.zero_le _
  | cons input inputs ih =>
    obtain ⟨fopened, rfl⟩ := hwrites _ (List.mem_cons_self ..)
    have hrest := ih (h.write fopened) (left_write h hstopped fopened).2
      (fun input hmem => hwrites input (List.mem_cons_of_mem _ hmem)) hrun.2
    have hfirst := stepsLeft_write h hstopped hrun.1 fopened
    rw [List.length_cons]
    omega

/-! ### Every run -/

theorem left_eq_nil_iff : log.left = [] ↔ log.pc = .waiting ∨ log.unswapped = [] := by
  unfold left
  by_cases hpc : log.pc = .waiting
  · rw [if_pos hpc]
    exact iff_of_true rfl (Or.inl hpc)
  · rw [if_neg hpc]
    exact (or_iff_right hpc).symm

/-- `stop`, and then the writer alone. -/
theorem run_stop (before after : List LogInput) :
    machine.run started (before ++ .stop :: after) =
      ((machine.run (machine.run started before).1.stop after).1,
        (machine.run started before).2 ++
          (machine.run (machine.run started before).1.stop after).2) := by
  rw [Machine.run_append, Machine.run_cons]
  rfl

/-- When `stop` has returned, what was to be left is all that has not been written. -/
theorem written_append_left {before after : List LogInput}
    (hwrites : ∀ input ∈ after, ∃ fopened, input = .write fopened)
    (hrun : machine.CanRun started (before ++ .stop :: after))
    (hreturned : (machine.run started (before ++ .stop :: after)).1.pc = .finished) :
    written (machine.run started (before ++ .stop :: after)).2 ++
      (machine.run started before).1.left = appended (machine.run started before).2 := by
  have hflow := (rotates_run hrun).flow
  rw [Machine.canRun_append, Machine.canRun_cons] at hrun
  obtain ⟨hbefore, hstop, -⟩ := hrun
  have hstopped : Rotates _ (machine.run started before).1.stop := (rotates_run hbefore).step hstop
  obtain ⟨hleft, hnothing⟩ := left_run hstopped rfl hwrites
  -- nothing is on its way any more
  have hunwritten : (machine.run started (before ++ .stop :: after)).1.unwritten = [] :=
    unwritten_of_not_holds (by rw [hreturned]; rfl)
  have hremains : (machine.run started (before ++ .stop :: after)).1.unswapped =
      (machine.run started before).1.left := by
    rw [← left_of_ne (by rw [hreturned]; decide), run_stop, hleft]
    rfl
  have happended : appended (machine.run started (before ++ .stop :: after)).2 =
      appended (machine.run started before).2 := by
    rw [run_stop, appended_append, hnothing, List.append_nil]
  rw [hunwritten, contents_nil, List.append_nil, List.append_assoc, happended] at hflow
  rw [← hremains]
  exact hflow

/-- **When stopping flushes.**  When `stop` has returned, exactly what was appended before it has
been written if and only if, when `stop` was called, the writer was between its test of `running_`
and its swap, or nothing had been appended since its last swap. -/
theorem flushed_iff {before after : List LogInput}
    (hwrites : ∀ input ∈ after, ∃ fopened, input = .write fopened)
    (hrun : machine.CanRun started (before ++ .stop :: after))
    (hreturned : (machine.run started (before ++ .stop :: after)).1.pc = .finished) :
    let events := (machine.run started (before ++ .stop :: after)).2
    appended (machine.run started before).2 = LogInput.lines before ∧
      (written events = appended (machine.run started before).2 ↔
        (machine.run started before).1.pc = .waiting ∨
          (machine.run started before).1.unswapped = []) ∧
      (.write false ∉ before ++ .stop :: after → toFile events = written events) := by
  intro events
  refine ⟨appended_run rotates_started ((machine.canRun_append started before _).mp hrun).1, ?_,
    fun hopen => toFile_run (fun i heq => by cases heq) hopen⟩
  rw [← written_append_left hwrites hrun hreturned, ← left_eq_nil_iff]
  constructor
  · intro hwritten
    simpa [events] using hwritten
  · intro hnone
    rw [hnone, List.append_nil]

/-- A line, and `stop` while the writer waits. -/
def flushedLine : List LogInput :=
  [.append [1], .write true] ++ .stop :: List.replicate 6 (.write true)

theorem flushed_iff_flushedLine :
    written (machine.run started flushedLine).2 =
        appended (machine.run started [.append [1], .write true]).2 ↔
      (machine.run started [.append [1], .write true]).1.pc = .waiting ∨
        (machine.run started [.append [1], .write true]).1.unswapped = [] := by
  have hwrites : ∀ input ∈ List.replicate 6 (LogInput.write true),
      ∃ fopened, input = .write fopened :=
    fun input hmem => ⟨true, List.eq_of_mem_replicate hmem⟩
  have hrun : machine.CanRun started flushedLine := by decide +kernel
  exact (flushed_iff hwrites hrun (by decide +kernel)).2.1

/-- A line, and `stop` before the writer has tested `running_` for the first time. -/
def lostLine : List LogInput := [.append [1]] ++ .stop :: [.write true]

theorem not_flushed_lostLine :
    machine.CanRun started lostLine ∧ (machine.run started lostLine).1.pc = .finished ∧
      appended (machine.run started [.append [1]]).2 = [1] ∧
      written (machine.run started lostLine).2 = [] := by decide +kernel

end ArenaGame.AsyncLogging
