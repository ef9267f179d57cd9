import ArenaGame.Server.Equiv.MatchQueue
import ArenaGame.Server.Room
import ArenaGame.Server.SessionService

/-!
# Matchmaking (`server/game/MatchmakingService.h`, `server/game/MatchmakingService.cc`)

The service owns the match queue and refers to the rooms and the sessions of the server, so its
state holds all three.  The loop of `tick` draws at least two tickets in every round, which bounds
its rounds by the size of the queue.
-/

namespace ArenaGame

structure MatchFoundEvent where
  roomId_ : UInt64 := 0
  pair_ : MatchPair
deriving DecidableEq

structure MatchmakingService where
  matchQueue_ : MatchQueue
  roomService_ : RoomService
  sessionService_ : SessionService

namespace MatchmakingService

variable (s : MatchmakingService)

def join (ticket : MatchTicket) : Bool × MatchmakingService :=
  let joined := s.matchQueue_.join ticket
  (joined.1, { s with matchQueue_ := joined.2 })

def cancel (userId : UInt32) : Bool × MatchmakingService :=
  let cancelled := s.matchQueue_.cancel userId
  (cancelled.1, { s with matchQueue_ := cancelled.2 })

/-- The body of the loop of `tick` after a pair was drawn; no event is `continue`. -/
def placePair (pair : MatchPair) : Option MatchFoundEvent × MatchmakingService :=
  let firstConnectionId := s.sessionService_.findConnectionByUserId pair.first_.userId_
  let secondConnectionId := s.sessionService_.findConnectionByUserId pair.second_.userId_
  match s.sessionService_.findByConnection firstConnectionId,
      s.sessionService_.findByConnection secondConnectionId with
  | some firstSession, some secondSession =>
    if firstSession.roomId_ ≠ 0 ∨ secondSession.roomId_ ≠ 0 then (none, s)
    else
      let created := s.roomService_.create pair.first_.userId_ pair.second_.userId_
      let roomId := created.1
      if roomId = 0 then (none, { s with roomService_ := created.2 })
      else
        (some { roomId_ := roomId, pair_ := pair },
          { s with
            roomService_ := created.2
            sessionService_ :=
              (s.sessionService_.markInRoom pair.first_.userId_ roomId).markInRoom
                pair.second_.userId_ roomId })
  | _, _ => (none, s)

section Tick

variable (range : MatchTicket → MatchTimePoint → ℚ) (now : MatchTimePoint)

/-- The loop of `tick`; `none` means that `fuel` rounds were not enough. -/
def tickLoop : ℕ → List MatchFoundEvent → MatchmakingService →
    Option (List MatchFoundEvent × MatchmakingService)
  | 0, _, _ => none
  | fuel + 1, events, s =>
    match s.matchQueue_.tryMatch range now with
    | (none, matchQueue_) => some (events, { s with matchQueue_ })
    | (some pair, matchQueue_) =>
      let placed := { s with matchQueue_ }.placePair pair
      tickLoop fuel (events ++ placed.1.toList) placed.2

@[simp] theorem matchQueue_placePair (pair : MatchPair) :
    (s.placePair pair).2.matchQueue_ = s.matchQueue_ := by
  simp only [placePair]
  split
  · split_ifs <;> rfl
  · rfl

theorem isSome_tickLoop (fuel : ℕ) (events : List MatchFoundEvent) (s : MatchmakingService)
    (h : s.matchQueue_.size < fuel) : (tickLoop range now fuel events s).isSome := by
  induction fuel generalizing events s with
  | zero => omega
  | succ fuel ih =>
    unfold tickLoop
    split
    · rfl
    · rename_i pair q' hdraw
      apply ih
      have hlt := (MatchQueue.tryMatch_some hdraw).size_lt
      rw [matchQueue_placePair]
      simp only
      omega

def tick : List MatchFoundEvent × MatchmakingService :=
  (tickLoop range now (s.matchQueue_.size + 1) [] s).get
    (isSome_tickLoop range now _ [] s (Nat.lt_succ_self _))

end Tick

end MatchmakingService

end ArenaGame
