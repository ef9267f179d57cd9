import ArenaGame.Muduo.AsyncLogging

/-!
# The rotation of log buffers

Four buffers go round: the current one and its spare, and the two spares of the writer.  Whenever
the mutex is free there is a current buffer, and at the start of a round the writer has both its
spares (`Rotates`).  It gets them back from the buffers it has written: if it has given up the second, the
spare of the current buffer had been used, so at least two buffers came with the swap.
-/

namespace ArenaGame

namespace LogEvent

def appendedBytes : LogEvent → List UInt8
  | appended line => line
  | _ => []

def fileBytes : LogEvent → List UInt8
  | file bytes => bytes
  | _ => []

def stdoutBytes : LogEvent → List UInt8
  | stdout bytes => bytes
  | _ => []

end LogEvent

def LogInput.line : LogInput → List UInt8
  | append line => line
  | _ => []

/-- The lines that are appended. -/
def LogInput.lines (inputs : List LogInput) : List UInt8 := inputs.flatMap line

namespace AsyncLogging

/-- The lines whose `append` has returned. -/
def appended (events : List LogEvent) : List UInt8 := events.flatMap LogEvent.appendedBytes

/-- What was written to the log file. -/
def toFile (events : List LogEvent) : List UInt8 := events.flatMap LogEvent.fileBytes

/-- What was written to the standard output. -/
def written (events : List LogEvent) : List UInt8 := events.flatMap LogEvent.stdoutBytes

def content (buffer : Option LogBuffer) : List UInt8 := (buffer.map FixedBuffer.bytes).getD []

def contents (buffers : List (Option LogBuffer)) : List UInt8 := buffers.flatMap content

@[simp] theorem contents_nil : contents [] = [] := rfl

@[simp] theorem contents_append (bs bs' : List (Option LogBuffer)) :
    contents (bs ++ bs') = contents bs ++ contents bs' := List.flatMap_append

@[simp] theorem contents_singleton (b : Option LogBuffer) : contents [b] = content b :=
  List.append_nil _

@[simp] theorem appended_append (es es' : List LogEvent) :
    appended (es ++ es') = appended es ++ appended es' := List.flatMap_append

@[simp] theorem written_append (es es' : List LogEvent) :
    written (es ++ es') = written es ++ written es' := List.flatMap_append

@[simp] theorem toFile_append (es es' : List LogEvent) :
    toFile (es ++ es') = toFile es ++ toFile es' := List.flatMap_append

/-- The buffers that the writer has swapped and not written yet. -/
def unwritten (log : AsyncLogging) : List (Option LogBuffer) :=
  match log.pc with
  | .opening => log.buffersToWrite
  | .writing _ i => log.buffersToWrite.drop i
  | _ => []

end AsyncLogging

/-- The writer is between the swap and the end of its round. -/
def WriterPc.holdsBuffers : WriterPc → Bool
  | .opening => true
  | .writing _ _ => true
  | .recycling => true
  | _ => false

theorem AsyncLogging.unwritten_of_not_holds {log : AsyncLogging} (h : log.pc.holdsBuffers = false) :
    log.unwritten = [] := by
  unfold AsyncLogging.unwritten
  cases hpc : log.pc <;> rw [hpc] at h <;> first | rfl | cases h

namespace AsyncLogging

def Empty (buffer : Option LogBuffer) : Prop := ∀ b, buffer = some b → b = .empty

/-- The invariant of the rotation. -/
structure Rotates (events : List LogEvent) (log : AsyncLogging) : Prop where
  current : log.currentBuffer_ ≠ none
  buffers : none ∉ log.buffers_
  buffersToWrite : none ∉ log.buffersToWrite
  next_empty : Empty log.nextBuffer_
  spare1_empty : Empty log.newBuffer1
  spare2_empty : Empty log.newBuffer2
  next : log.nextBuffer_ = none → log.buffers_ ≠ []
  /-- At the start of a round the writer has its spares, and nothing to write. -/
  between : log.pc.holdsBuffers = false →
    log.newBuffer1 ≠ none ∧ log.newBuffer2 ≠ none ∧ log.buffersToWrite = []
  /-- In a round it has enough buffers to get back the spares that it has given up. -/
  within : log.pc.holdsBuffers = true → log.newBuffer1 = none ∧ log.buffersToWrite ≠ [] ∧
    (log.newBuffer2 = none → 2 ≤ log.buffersToWrite.length)
  flow : written events ++ contents log.unwritten ++ contents log.buffers_ ++
    content log.currentBuffer_ = appended events
  sound : .nullDereference ∉ events

variable {log : AsyncLogging} {events : List LogEvent}

theorem content_some (b : LogBuffer) : content (some b) = b.bytes := rfl

theorem Empty.content {buffer : Option LogBuffer} (h : Empty buffer) : content buffer = [] := by
  cases buffer with
  | none => rfl
  | some b =>
    rw [h b rfl]
    rfl

theorem empty_some : Empty (some .empty) := fun _ h => (Option.some.inj h).symm

theorem empty_none : Empty none := fun _ h => by cases h

theorem bytes_append {buffer : LogBuffer} {line : List UInt8} (h : buffer.avail > line.length) :
    (buffer.append line).bytes = buffer.bytes ++ line := by
  unfold FixedBuffer.append
  rw [dif_pos h]

/-- A line fits into an empty buffer. -/
theorem bytes_append_empty {line : List UInt8} (h : line.length < kLargeBuffer) :
    ((FixedBuffer.empty : LogBuffer).append line).bytes = line :=
  bytes_append (show FixedBuffer.avail (.empty : LogBuffer) > line.length from h)

/-! ### Appending -/

theorem Rotates.append (h : Rotates events log) {line : List UInt8}
    (hline : line.length < kLargeBuffer) :
    Rotates (events ++ (log.append line).2) (log.append line).1 := by
  obtain ⟨current, hcurrent⟩ := Option.ne_none_iff_exists'.mp h.current
  have hflow := h.flow
  rw [hcurrent, content_some] at hflow
  unfold AsyncLogging.append
  rw [hcurrent]
  simp only
  -- the line goes into the current buffer, or into the empty one that replaces it
  by_cases hfits : current.avail > line.length
  · rw [if_pos hfits]
    exact {
      current := Option.some_ne_none _
      buffers := h.buffers
      buffersToWrite := h.buffersToWrite
      next_empty := h.next_empty
      spare1_empty := h.spare1_empty
      spare2_empty := h.spare2_empty
      next := h.next
      between := h.between
      within := h.within
      flow := by
        show written (events ++ [.appended line]) ++ contents log.unwritten ++
          contents log.buffers_ ++ content (some (current.append line)) = _
        rw [content_some, bytes_append hfits, written_append, appended_append, ← hflow]
        simp [written, LogEvent.stdoutBytes, appended, LogEvent.appendedBytes]
      sound := by simpa using h.sound }
  · rw [if_neg hfits]
    have hnext : log.nextBuffer_.getD .empty = .empty := by
      cases hn : log.nextBuffer_ with
      | none => rfl
      | some b => exact h.next_empty b hn
    exact {
      current := Option.some_ne_none _
      buffers := by simpa using h.buffers
      buffersToWrite := h.buffersToWrite
      next_empty := empty_none
      spare1_empty := h.spare1_empty
      spare2_empty := h.spare2_empty
      next := fun _ => by simp
      between := h.between
      within := h.within
      flow := by
        show written (events ++ [.appended line]) ++ contents log.unwritten ++
          contents (log.buffers_ ++ [some current]) ++
            content (some ((log.nextBuffer_.getD .empty).append line)) = _
        rw [content_some, hnext, bytes_append_empty hline, written_append, appended_append, ← hflow,
          contents_append, contents_singleton, content_some]
        simp [written, LogEvent.stdoutBytes, appended, LogEvent.appendedBytes]
      sound := by simpa using h.sound }

/-! ### The swap and the recycling -/

theorem swap_pc (log : AsyncLogging) : log.swap.pc = .opening := by
  show (if (log.buffers_ ++ [log.currentBuffer_]).isEmpty then WriterPc.test else .opening) = _
  rw [if_neg (by simp)]

theorem Rotates.swap (h : Rotates events log) (hpc : log.pc = .waiting) :
    Rotates events log.swap := by
  obtain ⟨hspare1, hspare2, hnothing⟩ := h.between (by rw [hpc]; rfl)
  have hflow := h.flow
  rw [unwritten_of_not_holds (by rw [hpc]; rfl)] at hflow
  exact {
    current := hspare1
    buffers := by
      show none ∉ log.buffersToWrite
      exact h.buffersToWrite
    buffersToWrite := by
      show none ∉ log.buffers_ ++ [log.currentBuffer_]
      intro hmem
      rcases List.mem_append.mp hmem with hmem | hmem
      · exact h.buffers hmem
      · exact h.current (List.mem_singleton.mp hmem).symm
    next_empty := by
      show Empty (if log.nextBuffer_.isNone then log.newBuffer2 else log.nextBuffer_)
      split
      · exact h.spare2_empty
      · exact h.next_empty
    spare1_empty := empty_none
    spare2_empty := by
      show Empty (if log.nextBuffer_.isNone then none else log.newBuffer2)
      split
      · exact empty_none
      · exact h.spare2_empty
    next := by
      show (if log.nextBuffer_.isNone then log.newBuffer2 else log.nextBuffer_) = none → _
      split
      · exact fun hnone => absurd hnone hspare2
      · rename_i hsome
        exact fun hnone => absurd (by rw [hnone]; rfl) hsome
    between := by
      rw [log.swap_pc]
      exact fun hno => by cases hno
    within := by
      refine fun _ => ⟨rfl, ?_, ?_⟩
      · show log.buffers_ ++ [log.currentBuffer_] ≠ []
        simp
      · show (if log.nextBuffer_.isNone then none else log.newBuffer2) = none →
          2 ≤ (log.buffers_ ++ [log.currentBuffer_]).length
        split
        · rename_i hnone
          -- the spare of the current buffer was used, so a full buffer came along
          intro _
          have hfull := List.length_pos_of_ne_nil (h.next (Option.isNone_iff_eq_none.mp hnone))
          rw [List.length_append, List.length_singleton]
          omega
        · exact fun hnone => absurd hnone hspare2
    flow := by
      have hunwritten' : log.swap.unwritten = log.buffers_ ++ [log.currentBuffer_] := by
        unfold unwritten
        rw [log.swap_pc]
        rfl
      show written events ++ contents log.swap.unwritten ++ contents log.buffersToWrite ++
        content log.newBuffer1 = _
      rw [hunwritten', hnothing, h.spare1_empty.content, ← hflow]
      simp
    sound := h.sound }

theorem recycle_full (a b : LogBuffer) {buffers : List (Option LogBuffer)}
    (h : none ∉ buffers) : recycle (some a) (some b) buffers = (some a, some b, []) := by
  induction buffers with
  | nil => rfl
  | cons c cs ih =>
    cases c with
    | none => exact absurd (List.mem_cons_self ..) h
    | some c => exact ih fun hmem => h (List.mem_cons_of_mem _ hmem)

/-- The writer gets both its spares back. -/
theorem recycle_spec {newBuffer2 : Option LogBuffer} {buffers : List (Option LogBuffer)}
    (h : none ∉ buffers) (hne : buffers ≠ []) (htwo : newBuffer2 = none → 2 ≤ buffers.length)
    (hempty : Empty newBuffer2) :
    recycle none newBuffer2 buffers = (some .empty, some .empty, []) := by
  cases buffers with
  | nil => exact absurd rfl hne
  | cons c cs =>
    cases c with
    | none => exact absurd (List.mem_cons_self ..) h
    | some c =>
      have hcs : none ∉ cs := fun hmem => h (List.mem_cons_of_mem _ hmem)
      cases newBuffer2 with
      | some b =>
        rw [hempty b rfl]
        exact recycle_full _ _ hcs
      | none =>
        cases cs with
        | nil => exact absurd (htwo rfl) (by simp)
        | cons d ds =>
          cases d with
          | none => exact absurd (List.mem_cons_self ..) hcs
          | some d => exact recycle_full _ _ fun hmem => hcs (List.mem_cons_of_mem _ hmem)

/-! ### The writer -/

/-- The steps of the writer that touch no buffer. -/
theorem Rotates.goto (h : Rotates events log) {pc : WriterPc}
    (hpc : pc.holdsBuffers = log.pc.holdsBuffers)
    (hunwritten : ({ log with pc := pc } : AsyncLogging).unwritten = log.unwritten) :
    Rotates events { log with pc := pc } where
  current := h.current
  buffers := h.buffers
  buffersToWrite := h.buffersToWrite
  next_empty := h.next_empty
  spare1_empty := h.spare1_empty
  spare2_empty := h.spare2_empty
  next := h.next
  between hno := h.between (hpc.symm.trans hno)
  within hyes := h.within (hpc.symm.trans hyes)
  flow := by
    rw [hunwritten]
    exact h.flow
  sound := h.sound

theorem Rotates.gotoEmpty (h : Rotates events log) (hlog : log.pc.holdsBuffers = false)
    {pc : WriterPc} (hpc : pc.holdsBuffers = false) : Rotates events { log with pc := pc } := by
  apply h.goto (hpc.trans hlog.symm)
  rw [unwritten_of_not_holds hlog]
  exact unwritten_of_not_holds hpc

theorem Rotates.writeBuffer (h : Rotates events log) {fp : Bool} {i : ℕ}
    (hpc : log.pc = .writing fp i) {buffer : LogBuffer}
    (hi : log.buffersToWrite[i]? = some (some buffer)) :
    Rotates (events ++ ((if fp then [.file buffer.bytes] else []) ++ [.stdout buffer.bytes]))
      { log with pc := .writing fp (i + 1) } := by
  -- the buffer is the first of those that were not written
  have hrest : log.unwritten = some buffer ::
      ({ log with pc := .writing fp (i + 1) } : AsyncLogging).unwritten := by
    unfold unwritten
    rw [hpc]
    obtain ⟨hlt, hget⟩ := List.getElem?_eq_some_iff.mp hi
    show log.buffersToWrite.drop i = _ :: log.buffersToWrite.drop (i + 1)
    rw [List.drop_eq_getElem_cons hlt, hget]
  have hflow := h.flow
  rw [hrest] at hflow
  have hwritten : written ((if fp then [LogEvent.file buffer.bytes] else []) ++
      [.stdout buffer.bytes]) = buffer.bytes := by
    cases fp <;> simp [written, LogEvent.stdoutBytes]
  have happended : appended ((if fp then [LogEvent.file buffer.bytes] else []) ++
      [.stdout buffer.bytes]) = [] := by
    cases fp <;> rfl
  have hsound : LogEvent.nullDereference ∉ (if fp then [LogEvent.file buffer.bytes] else []) ++
      [.stdout buffer.bytes] := by
    cases fp <;> simp
  exact {
    current := h.current
    buffers := h.buffers
    buffersToWrite := h.buffersToWrite
    next_empty := h.next_empty
    spare1_empty := h.spare1_empty
    spare2_empty := h.spare2_empty
    next := h.next
    between := fun hno => by cases hno
    within := fun _ => h.within (by rw [hpc]; rfl)
    flow := by
      rw [written_append, hwritten, appended_append, happended, List.append_nil, ← hflow]
      simp [contents, content_some]
    sound := fun hmem => (List.mem_append.mp hmem).elim h.sound hsound }

/-- At the end of the round the writer has its spares again. -/
theorem Rotates.recycled (h : Rotates events log) (hpc : log.pc = .recycling) :
    Rotates events { log with
      newBuffer1 := some .empty
      newBuffer2 := some .empty
      buffersToWrite := []
      pc := .last } where
  current := h.current
  buffers := h.buffers
  buffersToWrite := List.not_mem_nil
  next_empty := h.next_empty
  spare1_empty := empty_some
  spare2_empty := empty_some
  next := h.next
  between _ := ⟨Option.some_ne_none _, Option.some_ne_none _, rfl⟩
  within hyes := by cases hyes
  flow := by
    have hflow := h.flow
    have hunwritten : log.unwritten = [] := by
      unfold unwritten
      rw [hpc]
    rw [hunwritten] at hflow
    exact hflow
  sound := h.sound

theorem Rotates.write (h : Rotates events log) (fopened : Bool) :
    Rotates (events ++ (log.write fopened).2) (log.write fopened).1 := by
  unfold AsyncLogging.write
  cases hpc : log.pc with
  | test =>
    rw [List.append_nil]
    exact h.gotoEmpty (by rw [hpc]; rfl) (by split <;> rfl)
  | waiting =>
    rw [List.append_nil]
    exact h.swap hpc
  | opening =>
    rw [List.append_nil]
    exact h.goto (by rw [hpc]; rfl) (by unfold unwritten; rw [hpc]; rfl)
  | writing fp i =>
    simp only
    cases hi : log.buffersToWrite[i]? with
    | none =>
      rw [List.append_nil]
      apply h.goto (by rw [hpc]; rfl)
      have hall : log.buffersToWrite.drop i = [] :=
        List.drop_eq_nil_of_le (List.getElem?_eq_none_iff.mp hi)
      unfold unwritten
      rw [hpc]
      exact hall.symm
    | some buffer =>
      cases buffer with
      | none => exact absurd (List.mem_of_getElem? hi) h.buffersToWrite
      | some buffer => exact h.writeBuffer hpc hi
  | recycling =>
    -- the first spare is gone, and the second only if two buffers have come
    obtain ⟨hgone, hne, htwo⟩ := h.within (by rw [hpc]; rfl)
    rw [hgone, recycle_spec h.buffersToWrite hne htwo h.spare2_empty, List.append_nil]
    exact h.recycled hpc
  | last =>
    rw [List.append_nil]
    exact h.gotoEmpty (by rw [hpc]; rfl) (by split <;> rfl)
  | finished =>
    rw [List.append_nil]
    exact h

/-! ### Every run -/

theorem rotates_started : Rotates [] started where
  current := Option.some_ne_none _
  buffers := List.not_mem_nil
  buffersToWrite := List.not_mem_nil
  next_empty := empty_some
  spare1_empty := empty_some
  spare2_empty := empty_some
  next hnone := by cases hnone
  between _ := ⟨Option.some_ne_none _, Option.some_ne_none _, rfl⟩
  within hyes := by cases hyes
  flow := rfl
  sound := List.not_mem_nil

theorem Rotates.step (h : Rotates events log) {input : LogInput}
    (henabled : machine.Enabled log input) :
    Rotates (events ++ (machine.step log input).2) (machine.step log input).1 := by
  cases input with
  | append line => exact h.append henabled
  | stop =>
    show Rotates (events ++ []) log.stop
    rw [List.append_nil]
    exact ⟨h.current, h.buffers, h.buffersToWrite, h.next_empty, h.spare1_empty, h.spare2_empty,
      h.next, h.between, h.within, h.flow, h.sound⟩
  | write fopened => exact h.write fopened

theorem rotates_run {inputs : List LogInput} (hrun : machine.CanRun started inputs) :
    Rotates (machine.run started inputs).2 (machine.run started inputs).1 :=
  Machine.run_induction (fun _ _ _ h henabled => h.step henabled) rotates_started hrun

/-! ### The lines of a run -/

theorem appended_append_line (h : Rotates events log) (line : List UInt8) :
    appended (log.append line).2 = line := by
  obtain ⟨current, hcurrent⟩ := Option.ne_none_iff_exists'.mp h.current
  unfold AsyncLogging.append
  rw [hcurrent]
  dsimp only
  split
  · exact List.append_nil line
  · exact List.append_nil line

/-- The writer appends nothing. -/
theorem appended_write (h : Rotates events log) (fopened : Bool) :
    appended (log.write fopened).2 = [] := by
  unfold AsyncLogging.write
  cases hpc : log.pc with
  | writing fp i =>
    simp only
    split
    · rfl
    · rfl
    · cases fp <;> rfl
  | recycling =>
    obtain ⟨hgone, hne, htwo⟩ := h.within (by rw [hpc]; rfl)
    rw [hgone, recycle_spec h.buffersToWrite hne htwo h.spare2_empty]
    rfl
  | _ => rfl

/-- Every line that is appended is put out as such. -/
theorem appended_run {inputs : List LogInput} (h : Rotates events log)
    (hrun : machine.CanRun log inputs) :
    appended (machine.run log inputs).2 = LogInput.lines inputs := by
  induction inputs generalizing events log with
  | nil => rfl
  | cons input inputs ih =>
    obtain ⟨henabled, hrest⟩ := hrun
    have hfirst : appended (machine.step log input).2 = input.line := by
      cases input with
      | append line => exact appended_append_line h line
      | stop => rfl
      | write fopened => exact appended_write h fopened
    rw [Machine.run_cons, appended_append, hfirst, ih (h.step henabled) hrest]
    rfl

theorem recycle_quiet (newBuffer1 newBuffer2 : Option LogBuffer)
    (buffers : List (Option LogBuffer)) :
    toFile (recycle newBuffer1 newBuffer2 buffers).2.2 =
      written (recycle newBuffer1 newBuffer2 buffers).2.2 := by
  fun_induction recycle newBuffer1 newBuffer2 buffers with
  | case1 => rfl
  | case2 => rfl
  | case3 _ _ _ _ _ _ ih => exact ih
  | case4 _ _ _ _ _ _ _ ih => exact ih
  | case5 _ _ _ _ _ _ ih => exact ih

/-- While every `fopen` succeeds, the file gets what the standard output gets. -/
theorem toFile_step (hfp : ∀ i, log.pc ≠ .writing false i) {input : LogInput}
    (hinput : input ≠ .write false) :
    (∀ i, (machine.step log input).1.pc ≠ .writing false i) ∧
      toFile (machine.step log input).2 = written (machine.step log input).2 := by
  cases input with
  | append line =>
    show (∀ i, (log.append line).1.pc ≠ _) ∧
      toFile (log.append line).2 = written (log.append line).2
    unfold append
    split
    · exact ⟨hfp, rfl⟩
    · split <;> exact ⟨hfp, rfl⟩
  | stop => exact ⟨hfp, rfl⟩
  | write fopened =>
    have hopened : fopened = true := by
      by_contra hno
      exact hinput (by rw [Bool.not_eq_true] at hno; rw [hno])
    show (∀ i, (log.write fopened).1.pc ≠ _) ∧
      toFile (log.write fopened).2 = written (log.write fopened).2
    unfold write
    -- only `opening` chooses the file, and only `writing` writes
    cases hpc : log.pc with
    | test => exact ⟨fun i => by simp only; split <;> simp, rfl⟩
    | waiting => exact ⟨fun i => by simp only [swap]; split <;> simp, rfl⟩
    | opening => exact ⟨fun i => by simp [hopened], rfl⟩
    | writing fp n =>
      have hn : fp = true := by
        by_contra hno
        rw [Bool.not_eq_true] at hno
        rw [hno] at hpc
        exact hfp n hpc
      simp only
      split
      · exact ⟨fun i => by simp, rfl⟩
      · exact ⟨hfp, rfl⟩
      · rw [hn]
        exact ⟨fun i => by simp, rfl⟩
    | recycling => exact ⟨fun i => by simp, recycle_quiet _ _ _⟩
    | last => exact ⟨fun i => by simp only; split <;> simp, rfl⟩
    | finished => exact ⟨hfp, rfl⟩

theorem toFile_run {inputs : List LogInput} (hfp : ∀ i, log.pc ≠ .writing false i)
    (hopen : .write false ∉ inputs) :
    toFile (machine.run log inputs).2 = written (machine.run log inputs).2 := by
  induction inputs generalizing log with
  | nil => rfl
  | cons input inputs ih =>
    obtain ⟨hfp', hfirst⟩ := toFile_step hfp fun heq => hopen (heq ▸ List.mem_cons_self ..)
    rw [Machine.run_cons, toFile_append, written_append, hfirst,
      ih hfp' fun hmem => hopen (List.mem_cons_of_mem _ hmem)]

/-- **Log buffer rotation loses nothing.**  In every run: there is a current buffer, and at the
start of a round the writer has both its spares; what was written, followed by what the writer has
taken, by the full buffers and by the current one, are the lines that were appended.  The log file
gets the same as the standard output, if it can always be opened. -/
theorem rotation_loses_nothing {inputs : List LogInput} (hrun : machine.CanRun started inputs) :
    let log := (machine.run started inputs).1
    let events := (machine.run started inputs).2
    log.currentBuffer_ ≠ none ∧ .nullDereference ∉ events ∧
      (log.pc = .test ∨ log.pc = .waiting → log.newBuffer1 ≠ none ∧ log.newBuffer2 ≠ none) ∧
      written events ++ contents log.unwritten ++ contents log.buffers_ ++
        content log.currentBuffer_ = LogInput.lines inputs ∧
      (.write false ∉ inputs → toFile events = written events) := by
  intro log events
  have h : Rotates events log := rotates_run hrun
  have hlines : appended events = LogInput.lines inputs := appended_run rotates_started hrun
  refine ⟨h.current, h.sound, fun hpc => ?_, h.flow.trans hlines, fun hopen => toFile_run ?_ hopen⟩
  · have hbetween : log.pc.holdsBuffers = false := by
      rcases hpc with hpc | hpc <;> rw [hpc] <;> rfl
    obtain ⟨hspare1, hspare2, -⟩ := h.between hbetween
    exact ⟨hspare1, hspare2⟩
  · intro i heq
    cases heq

/-- Two lines, one of them appended while the other is being written. -/
def twoLines : List LogInput :=
  [.append [1, 2], .write true, .write true, .write true, .append [3], .write true]

theorem rotation_loses_nothing_twoLines :
    let log := (machine.run started twoLines).1
    let events := (machine.run started twoLines).2
    LogInput.lines twoLines = [1, 2, 3] ∧ written events = [1, 2] ∧
      content log.currentBuffer_ = [3] ∧
      written events ++ contents log.unwritten ++ contents log.buffers_ ++
        content log.currentBuffer_ = LogInput.lines twoLines := by
  have hrun : machine.CanRun started twoLines := by decide +kernel
  exact ⟨rfl, by decide +kernel, by decide +kernel, (rotation_loses_nothing hrun).2.2.2.1⟩

end AsyncLogging

end ArenaGame
