import ArenaGame.Util.Machine
import Mathlib.Algebra.Order.Group.Nat

/-!
# The event loop (`muduo/EventLoop.h`, `muduo/EventLoop.cc`)

The loop thread polls, calls the active channels back, and runs the functors that were queued.  Any
thread may queue one: `queueInLoop` pushes it under the mutex, and its wakeup is a step of its own.
On another thread `runInLoop` is `queueInLoop`; on the loop thread it is a call, which leaves the
queue alone.

The functors are of any type.  What a callback or a functor does to the loop are the inputs that
come while it runs.
-/

namespace ArenaGame

/-- The largest value of the counter of an `eventfd`. -/
def eventfdMax : ℕ := 2 ^ 64 - 2

inductive ActiveChannel
  | wakeupChannel_
  /-- A channel of a socket or of the timers. -/
  | other
deriving DecidableEq

/-- Where the loop thread is. -/
inductive LoopPc
  /-- In front of `while(!quit_)`. -/
  | test
  /-- Blocked in `poll`. -/
  | polling
  /-- In the loop that handles the active channels, with these left. -/
  | handling (activeChannels_ : List ActiveChannel)
  /-- In the callback of a channel, with these left. -/
  | inCallback (activeChannels_ : List ActiveChannel)
  /-- In front of the swap in `doPendingFunctors`. -/
  | swapping
  /-- In the loop that calls the functors. -/
  | executing
  | inFunctor
  /-- In `queueInLoop`, behind the push. -/
  | queueing (caller : LoopPc)
  | finished
deriving DecidableEq

/-- The loop thread runs code that may call `queueInLoop`. -/
def LoopPc.runsCode : LoopPc → Bool
  | .inCallback _ => true
  | .inFunctor => true
  | _ => false

inductive LoopEvent (F : Type)
  | enqueued (cb : F)
  | executed (functor : F)
  /-- The `LOG_ERROR` of `wakeup`. -/
  | wakeupFailed
  /-- The `LOG_ERROR` of `handleRead`. -/
  | readFailed
deriving DecidableEq

structure EventLoop (F : Type) where
  quit_ : Bool
  callingPendingFunctors_ : Bool
  pendingFunctors_ : List F
  /-- The counter of the `eventfd`. -/
  wakeupFd_ : ℕ
  pc : LoopPc
  /-- What is left of the swapped batch. -/
  functors : List F
  /-- The calls of `queueInLoop` on other threads that have pushed and not woken up yet. -/
  queueing : ℕ

namespace EventLoop

variable {F : Type}

/-- In `loop`, in front of its first test.  Earlier wakeups may not have been read. -/
def entered (wakeupFd_ queueing : ℕ) : EventLoop F where
  quit_ := false
  callingPendingFunctors_ := false
  pendingFunctors_ := []
  wakeupFd_ := wakeupFd_
  pc := .test
  functors := []
  queueing := queueing

variable (loop : EventLoop F)

def quit : EventLoop F := { loop with quit_ := true }

def wakeup : EventLoop F × List (LoopEvent F) :=
  if loop.wakeupFd_ < eventfdMax then ({ loop with wakeupFd_ := loop.wakeupFd_ + 1 }, [])
  else (loop, [.wakeupFailed])

def handleRead : EventLoop F × List (LoopEvent F) :=
  if loop.wakeupFd_ = 0 then (loop, [.readFailed])
  else ({ loop with wakeupFd_ := 0 }, [])

/-- The locked section of `queueInLoop`. -/
def push (isInLoopThread : Bool) (cb : F) : EventLoop F × List (LoopEvent F) :=
  ({ loop with
      pendingFunctors_ := loop.pendingFunctors_ ++ [cb]
      pc := if isInLoopThread then .queueing loop.pc else loop.pc
      queueing := if isInLoopThread then loop.queueing else loop.queueing + 1 }, [.enqueued cb])

/-- The rest of `queueInLoop`. -/
def pushed (isInLoopThread : Bool) : EventLoop F × List (LoopEvent F) :=
  if !isInLoopThread || loop.callingPendingFunctors_ then loop.wakeup else (loop, [])

/-- The swap in `doPendingFunctors`. -/
def swap : EventLoop F :=
  { loop with
    functors := loop.pendingFunctors_
    pendingFunctors_ := loop.functors
    pc := .executing }

/-- A step of the loop thread; `poll` returns with `activeChannels_`. -/
def advance (activeChannels_ : List ActiveChannel) : EventLoop F × List (LoopEvent F) :=
  match loop.pc with
  | .test => ({ loop with pc := if !loop.quit_ then .polling else .finished }, [])
  | .polling => ({ loop with pc := .handling activeChannels_ }, [])
  | .handling [] =>
    ({ loop with functors := [], callingPendingFunctors_ := true, pc := .swapping }, [])
  | .handling (.wakeupChannel_ :: channels) => handleRead { loop with pc := .handling channels }
  | .handling (.other :: channels) => ({ loop with pc := .inCallback channels }, [])
  | .inCallback channels => ({ loop with pc := .handling channels }, [])
  | .swapping => (loop.swap, [])
  | .executing =>
    match loop.functors with
    | [] => ({ loop with callingPendingFunctors_ := false, pc := .test }, [])
    | functor :: functors =>
      ({ loop with functors := functors, pc := .inFunctor }, [.executed functor])
  | .inFunctor => ({ loop with pc := .executing }, [])
  | .queueing caller => pushed { loop with pc := caller } true
  | .finished => (loop, [])

end EventLoop

inductive LoopInput (F : Type)
  | advance (activeChannels_ : List ActiveChannel)
  | push (isInLoopThread : Bool) (cb : F)
  /-- The rest of a `queueInLoop` on another thread. -/
  | pushed
  | wakeup
  | quit
deriving DecidableEq

def EventLoop.machine (F : Type) : Machine (EventLoop F) (LoopInput F) (LoopEvent F) where
  step loop input :=
    match input with
    | .advance activeChannels_ => loop.advance activeChannels_
    | .push isInLoopThread cb => loop.push isInLoopThread cb
    | .pushed => EventLoop.pushed { loop with queueing := loop.queueing - 1 } false
    | .wakeup => loop.wakeup
    | .quit => (loop.quit, [])
  Enabled loop input :=
    match input with
    | .advance _ => loop.pc ≠ .finished
    | .push isInLoopThread _ => isInLoopThread = true → loop.pc.runsCode = true
    | .pushed => 0 < loop.queueing
    | .wakeup => True
    | .quit => True

instance {F : Type} (loop : EventLoop F) :
    (input : LoopInput F) → Decidable ((EventLoop.machine F).Enabled loop input)
  | .advance _ => inferInstanceAs (Decidable (loop.pc ≠ .finished))
  | .push isInLoopThread _ =>
    inferInstanceAs (Decidable (isInLoopThread = true → loop.pc.runsCode = true))
  | .pushed => inferInstanceAs (Decidable (0 < loop.queueing))
  | .wakeup => isTrue trivial
  | .quit => isTrue trivial

end ArenaGame
