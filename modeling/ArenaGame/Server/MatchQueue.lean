import ArenaGame.Util.SortedSet
import ArenaGame.Util.UnorderedMap
import Mathlib.Data.Prod.Lex
import Mathlib.Data.Rat.Lemmas
import Mathlib.Algebra.Order.Ring.Unbundled.Rat
import Mathlib.Data.UInt

/-!
# The match queue (`server/game/MatchQueue.h`, `server/game/MatchQueue.cc`)

Three indexes over one set of tickets: by user, by ELO and by waiting time.  The structure carries
that the indexes agree.

Time is a count of nanoseconds.  `tryMatch` is generic in the function `range` that stands for
`allowedEloRange`: the source computes it in single precision, and nothing depends on how the value
is rounded.  `allowedEloRange` itself is the unrounded value.
-/

namespace ArenaGame

instance linearOrderUInt32 : LinearOrder UInt32 where
  le_refl := UInt32.le_refl
  le_trans _ _ _ := UInt32.le_trans
  le_antisymm _ _ := UInt32.le_antisymm
  le_total := UInt32.le_total
  lt_iff_le_not_ge a b := by
    rw [UInt32.lt_iff_toNat_lt, UInt32.le_iff_toNat_le, UInt32.le_iff_toNat_le]
    omega
  toDecidableLE := inferInstance
  toDecidableLT := inferInstance
  toDecidableEq := inferInstance

/-- `MatchTimePoint`, in nanoseconds. -/
abbrev MatchTimePoint := ℤ

structure MatchTicket where
  userId_ : UInt32 := 0
  elo_ : UInt32 := 0
  joinedAt_ : MatchTimePoint := 0
deriving DecidableEq

structure MatchPair where
  first_ : MatchTicket
  second_ : MatchTicket
deriving DecidableEq

abbrev EloKey := UInt32 ×ₗ UInt32

abbrev WaitKey := MatchTimePoint ×ₗ UInt32

def eloDifferentce (lhs rhs : UInt32) : UInt32 := if lhs ≥ rhs then lhs - rhs else rhs - lhs

def kInitialEloRange : ℚ := 100
def kEloRangePerSecond : ℚ := 20
def kMaxEloRange : ℚ := 500

def allowedEloRange (ticket : MatchTicket) (now : MatchTimePoint) : ℚ :=
  let elapsed := now - ticket.joinedAt_
  if elapsed ≤ 0 then kInitialEloRange
  else min (kInitialEloRange + (elapsed : ℚ) / 1000000000 * kEloRangePerSecond) kMaxEloRange

structure MatchQueue where
  ticketsByUserId_ : UnorderedMap UInt32 MatchTicket
  ticketsByElo_ : SortedSet EloKey
  ticketsByWaitTime_ : SortedSet WaitKey
  userId_eq : ∀ {u t}, ticketsByUserId_.lookup u = some t → t.userId_ = u
  mem_elo_iff : ∀ e u, toLex (e, u) ∈ ticketsByElo_ ↔
    ∃ t, ticketsByUserId_.lookup u = some t ∧ t.elo_ = e
  mem_wait_iff : ∀ w u, toLex (w, u) ∈ ticketsByWaitTime_ ↔
    ∃ t, ticketsByUserId_.lookup u = some t ∧ t.joinedAt_ = w

namespace MatchQueue

def empty : MatchQueue where
  ticketsByUserId_ := ∅
  ticketsByElo_ := .empty
  ticketsByWaitTime_ := .empty
  userId_eq h := by simp at h
  mem_elo_iff := by simp
  mem_wait_iff := by simp

variable (q : MatchQueue)

def contains (userId : UInt32) : Bool := userId ∈ q.ticketsByUserId_

def size : ℕ := q.ticketsByUserId_.keys.card

def join (ticket : MatchTicket) : Bool × MatchQueue :=
  if h : ticket.userId_ ∈ q.ticketsByUserId_ then (false, q)
  else
    (true,
      { ticketsByUserId_ := q.ticketsByUserId_.insert ticket.userId_ ticket
        ticketsByElo_ := q.ticketsByElo_.insert (toLex (ticket.elo_, ticket.userId_))
        ticketsByWaitTime_ := q.ticketsByWaitTime_.insert (toLex (ticket.joinedAt_, ticket.userId_))
        userId_eq := by
          intro u t hu
          rw [UnorderedMap.lookup_insert] at hu
          split at hu
          · rename_i huu
            obtain rfl := Option.some.inj hu
            exact huu.symm
          · exact q.userId_eq hu
        mem_elo_iff := by
          intro e u
          have hnone := Finmap.lookup_eq_none.mpr h
          rw [SortedSet.mem_insert, q.mem_elo_iff, UnorderedMap.lookup_insert]
          by_cases hu : u = ticket.userId_
          · subst hu
            simp [hnone, eq_comm]
          · simp [hu]
        mem_wait_iff := by
          intro w u
          have hnone := Finmap.lookup_eq_none.mpr h
          rw [SortedSet.mem_insert, q.mem_wait_iff, UnorderedMap.lookup_insert]
          by_cases hu : u = ticket.userId_
          · subst hu
            simp [hnone, eq_comm]
          · simp [hu] })

def removeTicket (userId : UInt32) : MatchQueue :=
  match h : q.ticketsByUserId_.lookup userId with
  | none => q
  | some ticket =>
    { ticketsByUserId_ := q.ticketsByUserId_.erase userId
      ticketsByElo_ := q.ticketsByElo_.erase (toLex (ticket.elo_, ticket.userId_))
      ticketsByWaitTime_ := q.ticketsByWaitTime_.erase (toLex (ticket.joinedAt_, ticket.userId_))
      userId_eq := by
        intro u t hu
        rw [UnorderedMap.lookup_erase] at hu
        split at hu
        · cases hu
        · exact q.userId_eq hu
      mem_elo_iff := by
        intro e u
        rw [SortedSet.mem_erase, q.mem_elo_iff, UnorderedMap.lookup_erase, q.userId_eq h]
        by_cases hu : u = userId
        · subst hu
          simp [h, eq_comm]
        · simp [hu]
      mem_wait_iff := by
        intro w u
        rw [SortedSet.mem_erase, q.mem_wait_iff, UnorderedMap.lookup_erase, q.userId_eq h]
        by_cases hu : u = userId
        · subst hu
          simp [h, eq_comm]
        · simp [hu] }

def cancel (userId : UInt32) : Bool × MatchQueue :=
  if !q.contains userId then (false, q) else (true, q.removeTicket userId)

section TryMatch

variable (range : MatchTicket → MatchTimePoint → ℚ) (now : MatchTimePoint)

/-- The lambda `consider` of `tryMatch`: `best` is `bestDifference` with `bestSecond`. -/
def consider (first : MatchTicket) (best : UInt32 × Option MatchTicket) :
    Option EloKey → UInt32 × Option MatchTicket
  | none => best
  | some candidateKey =>
    if candidateKey = toLex (first.elo_, first.userId_) then best
    else
      match q.ticketsByUserId_.lookup (ofLex candidateKey).2 with
      | none => best
      | some candidate =>
        let difference := eloDifferentce first.elo_ candidate.elo_
        if (difference.toNat : ℚ) > range first now then best
        else if difference < best.1 ∨ (difference = best.1 ∧
            ∀ second ∈ best.2, candidate.userId_ < second.userId_) then
          (difference, some candidate)
        else best

/-- The body of the loop of `tryMatch`; `none` is `continue`. -/
def matchFirst (waitKey : WaitKey) : Option MatchPair :=
  match q.ticketsByUserId_.lookup (ofLex waitKey).2 with
  | none => none
  | some first =>
    let ownEloKey : EloKey := toLex (first.elo_, first.userId_)
    if ownEloKey ∉ q.ticketsByElo_ then none
    else
      let best := q.consider range now first (4294967295, none) (q.ticketsByElo_.before ownEloKey)
      let best := q.consider range now first best (q.ticketsByElo_.after ownEloKey)
      best.2.map fun bestSecond => { first_ := first, second_ := bestSecond }

def tryMatch : Option MatchPair × MatchQueue :=
  match q.ticketsByWaitTime_.toList.findSome? (q.matchFirst range now) with
  | none => (none, q)
  | some result =>
    (some result, (q.removeTicket result.first_.userId_).removeTicket result.second_.userId_)

end TryMatch

end MatchQueue

end ArenaGame
