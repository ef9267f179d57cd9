import ArenaGame.Util.Machine
import ArenaGame.Util.SortedSet
import Mathlib.Data.Finset.Basic
import Mathlib.Data.Prod.Lex
import Mathlib.Data.Rat.Lemmas
import Mathlib.Algebra.Order.Ring.Unbundled.Rat
import Mathlib.Logic.Function.Basic

/-!
# Timers (`muduo/Timer.h`, `muduo/Timer.cc`, `muduo/TimerQueue.h`, `muduo/TimerQueue.cc`)

A timer is identified by its sequence number: the address of a timer may be used again, the number
is not.  Everything runs in the loop's thread, so tasks that are handed to the loop run at once.
What a callback does to the queue is an input of `handleRead`; so are the clock readings, and whether
the timerfd has expired.

The keys of `timers_` keep the expiration that a timer had when it was inserted, where the source
reads it through the pointer.  An access to a timer that does not exist any more is put out as
`dangling`, and a failed `assert` as `assertionFailed`.

`addTime` is generic in the function `toMicroSeconds` that turns an interval into microseconds: the
source computes it in double precision.
-/

namespace ArenaGame

/-- Microseconds since the epoch. -/
abbrev Timestamp := ℤ

namespace Timestamp

def valid (t : Timestamp) : Bool := t > 0

def addTime (toMicroSeconds : ℚ → ℤ) (t : Timestamp) (seconds : ℚ) : Timestamp :=
  t + toMicroSeconds seconds

end Timestamp

structure Timer where
  expiration_ : Timestamp
  interval_ : ℚ
deriving DecidableEq

namespace Timer

def repeat_ (timer : Timer) : Bool := timer.interval_ > 0

def restart (toMicroSeconds : ℚ → ℤ) (timer : Timer) (now : Timestamp) : Timer :=
  if timer.repeat_ then
    { timer with expiration_ := Timestamp.addTime toMicroSeconds now timer.interval_ }
  else { timer with expiration_ := 0 }

end Timer

/-- `TimerQueue::Entry`, in its order. -/
abbrev TimerEntry := Timestamp ×ₗ ℕ

inductive TimerEvent
  | added (sequence : ℕ) (expiration : Timestamp)
  /-- `cancelInLoop` has been executed. -/
  | cancelled (sequence : ℕ)
  /-- The callback of a timer is started. -/
  | started (sequence : ℕ)
  | assertionFailed
  | dangling
deriving DecidableEq

/-- What a callback, or another task of the loop, asks of the queue. -/
inductive TimerCommand
  | addTimer (expiration : Timestamp) (interval : ℚ) (reading : Timestamp)
  | cancel (sequence : ℕ)
deriving DecidableEq

structure TimerQueue where
  /-- The timers that have been created and not deleted. -/
  heap : ℕ → Option Timer := fun _ => none
  /-- `Timer::s_numCreated_`. -/
  numCreated : ℕ := 0
  timers_ : SortedSet TimerEntry := .empty
  activeTimers_ : Finset ℕ := ∅
  callingExpiredTimers_ : Bool := false
  cancelingTimers_ : Finset ℕ := ∅
  /-- The clock reading and the delay of the last `timerfd_settime`, unless its expiration has been
  read since. -/
  timerfd : Option (Timestamp × ℤ) := none

def howMuchTimeFromNow (expiration reading : Timestamp) : ℤ :=
  let microseconds := expiration - reading
  if microseconds < 100 then 100 else microseconds

namespace TimerQueue

variable (q : TimerQueue)

def resetTimerfd (expiration reading : Timestamp) : TimerQueue :=
  { q with timerfd := some (reading, howMuchTimeFromNow expiration reading) }

/-- `readTimerfd`; `fired` is whether the timerfd has expired since it was set.  It expires once, and
is disarmed then.  If it has been set again since `poll`, the read fails and it stays set. -/
def readTimerfd (fired : Bool) : TimerQueue := if fired then { q with timerfd := none } else q

/-- `insert`, with `earliestChanged`. -/
def insert (sequence : ℕ) (timer : Timer) : Bool × TimerQueue :=
  let earliestChanged :=
    match q.timers_.toList.head? with
    | none => true
    | some first => timer.expiration_ < (ofLex first).1
  (earliestChanged,
    { q with
      heap := Function.update q.heap sequence (some timer)
      timers_ := q.timers_.insert (toLex (timer.expiration_, sequence))
      activeTimers_ := Insert.insert sequence q.activeTimers_ })

/-- `addTimer` with `addTimerInLoop`. -/
def addTimer (expiration : Timestamp) (interval : ℚ) (reading : Timestamp) :
    TimerQueue × List TimerEvent :=
  let sequence := q.numCreated + 1
  let timer := { expiration_ := expiration, interval_ := interval }
  let (earliestChanged, q) := { q with numCreated := sequence }.insert sequence timer
  let q := if earliestChanged then q.resetTimerfd timer.expiration_ reading else q
  (q, [.added sequence expiration])

def cancelInLoop (sequence : ℕ) : TimerQueue × List TimerEvent :=
  if sequence ∈ q.activeTimers_ then
    match q.heap sequence with
    | none => (q, [.dangling])
    | some timer =>
      let entry : TimerEntry := toLex (timer.expiration_, sequence)
      let failed := if entry ∈ q.timers_ then [] else [.assertionFailed]
      ({ q with
          timers_ := q.timers_.erase entry
          heap := Function.update q.heap sequence none
          activeTimers_ := q.activeTimers_.erase sequence },
        failed ++ [.cancelled sequence])
  else if q.callingExpiredTimers_ then
    ({ q with cancelingTimers_ := Insert.insert sequence q.cancelingTimers_ },
      [.cancelled sequence])
  else (q, [.cancelled sequence])

def commands : Machine TimerQueue TimerCommand TimerEvent where
  step q command :=
    match command with
    | .addTimer expiration interval reading => q.addTimer expiration interval reading
    | .cancel sequence => q.cancelInLoop sequence
  Enabled _ _ := True

/-- The entries that have expired.  No sequence number reaches that of `sentry`, `INT64_MAX`. -/
def expired (now : Timestamp) : List TimerEntry :=
  q.timers_.toList.filter fun entry => (ofLex entry).1 ≤ now

/-- `getExpired` takes the expired entries out; its `bound` uses up a sequence number. -/
def getExpired (now : Timestamp) : TimerQueue :=
  { q with
    numCreated := q.numCreated + 1
    timers_ := q.timers_.filter fun entry => now < (ofLex entry).1
    activeTimers_ := q.activeTimers_ \ ((q.expired now).map fun entry => (ofLex entry).2).toFinset }

/-- The loop of `handleRead` over the expired timers. -/
def runExpired (callbacks : ℕ → List TimerCommand) (q : TimerQueue) :
    List TimerEntry → TimerQueue × List TimerEvent
  | [] => (q, [])
  | entry :: entries =>
    match q.heap (ofLex entry).2 with
    | none => (q, [.dangling])
    | some _ =>
      let ran := commands.run q (callbacks (ofLex entry).2)
      let rest := runExpired callbacks ran.1 entries
      (rest.1, .started (ofLex entry).2 :: ran.2 ++ rest.2)

section Reset

variable (toMicroSeconds : ℚ → ℤ)

/-- The body of the loop of `reset`. -/
def resetEntry (now : Timestamp) (q : TimerQueue) (entry : TimerEntry) :
    TimerQueue × List TimerEvent :=
  match q.heap (ofLex entry).2 with
  | none => (q, [.dangling])
  | some timer =>
    if timer.repeat_ ∧ (ofLex entry).2 ∉ q.cancelingTimers_ then
      ((q.insert (ofLex entry).2 (timer.restart toMicroSeconds now)).2, [])
    else ({ q with heap := Function.update q.heap (ofLex entry).2 none }, [])

def resetEntries (now : Timestamp) (q : TimerQueue) : List TimerEntry → TimerQueue × List TimerEvent
  | [] => (q, [])
  | entry :: entries =>
    let first := resetEntry toMicroSeconds now q entry
    let rest := resetEntries now first.1 entries
    (rest.1, first.2 ++ rest.2)

def reset (expired : List TimerEntry) (now reading : Timestamp) : TimerQueue × List TimerEvent :=
  let (q, events) := resetEntries toMicroSeconds now q expired
  let nextExpire : Timestamp :=
    match q.timers_.toList.head? with
    | none => 0
    | some first => (ofLex first).1
  (if nextExpire.valid then q.resetTimerfd nextExpire reading else q, events)

/-- `handleRead` from `getExpired` on; `callbacks` is what the callback of each timer does this time,
`reading` the clock when the timerfd is set again. -/
def handleExpired (now reading : Timestamp) (callbacks : ℕ → List TimerCommand) :
    TimerQueue × List TimerEvent :=
  let expired := q.expired now
  let q := q.getExpired now
  let q := { q with callingExpiredTimers_ := true, cancelingTimers_ := ∅ }
  let (q, events) := runExpired callbacks q expired
  let q := { q with callingExpiredTimers_ := false }
  let (q, events') := q.reset toMicroSeconds expired now reading
  (q, events ++ events')

def handleRead (fired : Bool) (now reading : Timestamp) (callbacks : ℕ → List TimerCommand) :
    TimerQueue × List TimerEvent :=
  (q.readTimerfd fired).handleExpired toMicroSeconds now reading callbacks

end Reset

end TimerQueue

/-- What the loop does to its timers. -/
inductive TimerInput
  | command (command : TimerCommand)
  | handleRead (fired : Bool) (now reading : Timestamp) (callbacks : ℕ → List TimerCommand)

def TimerQueue.machine (toMicroSeconds : ℚ → ℤ) : Machine TimerQueue TimerInput TimerEvent where
  step q input :=
    match input with
    | .command command => TimerQueue.commands.step q command
    | .handleRead fired now reading callbacks =>
      q.handleRead toMicroSeconds fired now reading callbacks
  Enabled _ _ := True

end ArenaGame
