import ArenaGame.Server.MatchQueue
import ArenaGame.Util.Machine

/-!
# The match queue with its indexes apart (`server/game/MatchQueue.h`, `server/game/MatchQueue.cc`)

The three containers as the source updates them, one after the other, and nothing says that they
describe the same tickets.  `tryMatch` reports every ticket and every key that it does not find.
-/

namespace ArenaGame

/-- The branches of `tryMatch` for what is not found. -/
inductive NotFound
  /-- `firstIt == ticketsByUserId_.end()` -/
  | firstTicket
  /-- `ownEloIt == ticketsByElo_.end()` -/
  | ownEloKey
  /-- `ticketIt == ticketsByUserId_.end()` in `consider` -/
  | candidateTicket
deriving DecidableEq

structure RawMatchQueue where
  ticketsByUserId_ : UnorderedMap UInt32 MatchTicket
  ticketsByElo_ : SortedSet EloKey
  ticketsByWaitTime_ : SortedSet WaitKey

namespace RawMatchQueue

def empty : RawMatchQueue := ⟨∅, .empty, .empty⟩

variable (q : RawMatchQueue)

def contains (userId : UInt32) : Bool := userId ∈ q.ticketsByUserId_

def size : ℕ := q.ticketsByUserId_.keys.card

def join (ticket : MatchTicket) : Bool × RawMatchQueue :=
  if ticket.userId_ ∈ q.ticketsByUserId_ then (false, q)
  else
    (true,
      { ticketsByElo_ := q.ticketsByElo_.insert (toLex (ticket.elo_, ticket.userId_))
        ticketsByWaitTime_ := q.ticketsByWaitTime_.insert (toLex (ticket.joinedAt_, ticket.userId_))
        ticketsByUserId_ := UnorderedMap.emplace q.ticketsByUserId_ ticket.userId_ ticket })

def removeTicket (userId : UInt32) : RawMatchQueue :=
  match q.ticketsByUserId_.lookup userId with
  | none => q
  | some ticket =>
    { ticketsByElo_ := q.ticketsByElo_.erase (toLex (ticket.elo_, ticket.userId_))
      ticketsByWaitTime_ := q.ticketsByWaitTime_.erase (toLex (ticket.joinedAt_, ticket.userId_))
      ticketsByUserId_ := q.ticketsByUserId_.erase userId }

def cancel (userId : UInt32) : Bool × RawMatchQueue :=
  if !q.contains userId then (false, q) else (true, q.removeTicket userId)

section TryMatch

variable (range : MatchTicket → MatchTimePoint → ℚ) (now : MatchTimePoint)

/-- The lambda `consider` of `tryMatch`: `best` is `bestDifference` with `bestSecond`. -/
def consider (first : MatchTicket) (best : UInt32 × Option MatchTicket) :
    Option EloKey → (UInt32 × Option MatchTicket) × List NotFound
  | none => (best, [])
  | some candidateKey =>
    if candidateKey = toLex (first.elo_, first.userId_) then (best, [])
    else
      match q.ticketsByUserId_.lookup (ofLex candidateKey).2 with
      | none => (best, [.candidateTicket])
      | some candidate =>
        let difference := eloDifferentce first.elo_ candidate.elo_
        if (difference.toNat : ℚ) > range first now then (best, [])
        else if difference < best.1 ∨ (difference = best.1 ∧
            ∀ second ∈ best.2, candidate.userId_ < second.userId_) then
          ((difference, some candidate), [])
        else (best, [])

/-- The body of the loop of `tryMatch`; `none` is `continue`. -/
def matchFirst (waitKey : WaitKey) : Option MatchPair × List NotFound :=
  match q.ticketsByUserId_.lookup (ofLex waitKey).2 with
  | none => (none, [.firstTicket])
  | some first =>
    let ownEloKey : EloKey := toLex (first.elo_, first.userId_)
    if ownEloKey ∉ q.ticketsByElo_ then (none, [.ownEloKey])
    else
      let before := q.consider range now first (4294967295, none) (q.ticketsByElo_.before ownEloKey)
      let after := q.consider range now first before.1 (q.ticketsByElo_.after ownEloKey)
      (after.1.2.map fun bestSecond => { first_ := first, second_ := bestSecond },
        before.2 ++ after.2)

/-- The loop of `tryMatch` over the keys that are left. -/
def matchLoop : List WaitKey → (Option MatchPair × RawMatchQueue) × List NotFound
  | [] => ((none, q), [])
  | waitKey :: waitKeys =>
    match q.matchFirst range now waitKey with
    | (none, notFound) =>
      let rest := matchLoop waitKeys
      (rest.1, notFound ++ rest.2)
    | (some result, notFound) =>
      ((some result, (q.removeTicket result.first_.userId_).removeTicket result.second_.userId_),
        notFound)

def tryMatch : (Option MatchPair × RawMatchQueue) × List NotFound :=
  q.matchLoop range now q.ticketsByWaitTime_.toList

end TryMatch

end RawMatchQueue

/-! ### Calls -/

inductive QueueCall
  | join (ticket : MatchTicket)
  | cancel (userId : UInt32)
  | tryMatch (now : MatchTimePoint)
  | contains (userId : UInt32)
  | size
deriving DecidableEq

/-- The result of a call, and the branches that it took for what was not found. -/
inductive QueueOutput
  | notFound (branch : NotFound)
  | flag (result : Bool)
  | pair (result : Option MatchPair)
  | count (result : ℕ)
deriving DecidableEq

namespace RawMatchQueue

variable (range : MatchTicket → MatchTimePoint → ℚ)

def step (q : RawMatchQueue) : QueueCall → RawMatchQueue × List QueueOutput
  | .join ticket =>
    let joined := q.join ticket
    (joined.2, [.flag joined.1])
  | .cancel userId =>
    let cancelled := q.cancel userId
    (cancelled.2, [.flag cancelled.1])
  | .tryMatch now =>
    let tried := q.tryMatch range now
    (tried.1.2, tried.2.map .notFound ++ [.pair tried.1.1])
  | .contains userId => (q, [.flag (q.contains userId)])
  | .size => (q, [.count q.size])

/-- One call after the other. -/
def machine : Machine RawMatchQueue QueueCall QueueOutput where
  step := step range
  Enabled _ _ := True

end RawMatchQueue

end ArenaGame
