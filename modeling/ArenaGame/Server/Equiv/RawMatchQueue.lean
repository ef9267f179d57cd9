import ArenaGame.Server.Equiv.MatchQueue
import ArenaGame.Server.RawMatchQueue

/-!
# The indexes of the match queue describe the same tickets

Every call on the three containers of the source does what it does on the `MatchQueue`, whose
indexes agree (`step_toRaw`).  So nothing is ever not found, and since a queue is given by its
tickets (`toRaw_eq_of_stored`), two histories that leave the same tickets cannot be told apart.
-/

namespace ArenaGame

namespace MatchQueue

def toRaw (q : MatchQueue) : RawMatchQueue :=
  ⟨q.ticketsByUserId_, q.ticketsByElo_, q.ticketsByWaitTime_⟩

theorem join_toRaw (q : MatchQueue) (ticket : MatchTicket) :
    q.toRaw.join ticket = ((q.join ticket).1, (q.join ticket).2.toRaw) := by
  unfold RawMatchQueue.join join
  by_cases h : ticket.userId_ ∈ q.ticketsByUserId_
  · rw [dif_pos h]
    exact if_pos h
  · have hemplace : UnorderedMap.emplace q.ticketsByUserId_ ticket.userId_ ticket =
        q.ticketsByUserId_.insert ticket.userId_ ticket := if_neg h
    rw [dif_neg h]
    refine (if_neg h).trans ?_
    show (true, RawMatchQueue.mk (UnorderedMap.emplace q.ticketsByUserId_ _ _) _ _) = _
    rw [hemplace]
    rfl

theorem removeTicket_toRaw (q : MatchQueue) (userId : UInt32) :
    q.toRaw.removeTicket userId = (q.removeTicket userId).toRaw := by
  unfold RawMatchQueue.removeTicket removeTicket
  split
  · rename_i hnone
    split
    · rfl
    · rename_i ticket hsome
      cases hnone.symm.trans hsome
  · rename_i ticket hsome
    split
    · rename_i hnone
      cases hsome.symm.trans hnone
    · rename_i ticket' hsome'
      obtain rfl : ticket = ticket' := Option.some.inj (hsome.symm.trans hsome')
      rfl

theorem cancel_toRaw (q : MatchQueue) (userId : UInt32) :
    q.toRaw.cancel userId = ((q.cancel userId).1, (q.cancel userId).2.toRaw) := by
  unfold RawMatchQueue.cancel cancel
  have hcontains : q.toRaw.contains userId = q.contains userId := rfl
  rw [hcontains, removeTicket_toRaw]
  split <;> rfl

/-! ### Trying to match -/

section TryMatch

variable (q : MatchQueue) (range : MatchTicket → MatchTimePoint → ℚ) (now : MatchTimePoint)

/-- The ticket of a key of the ELO index is found. -/
theorem consider_toRaw (first : MatchTicket) (best : UInt32 × Option MatchTicket)
    (key : Option EloKey) (hkey : ∀ k ∈ key, k ∈ q.ticketsByElo_) :
    q.toRaw.consider range now first best key = (q.consider range now first best key, []) := by
  cases key with
  | none => rfl
  | some k =>
    obtain ⟨candidate, hcandidate, -, -⟩ := find_of_mem_elo (hkey k rfl)
    have hlookup : q.ticketsByUserId_.lookup (ofLex k).2 = some candidate := hcandidate
    have hraw : q.toRaw.ticketsByUserId_.lookup (ofLex k).2 = some candidate := hcandidate
    unfold RawMatchQueue.consider consider
    simp only [hlookup, hraw]
    split_ifs <;> rfl

/-- The first ticket of a key of the waiting index is found, and its own ELO key. -/
theorem matchFirst_toRaw {waitKey : WaitKey} (hwait : waitKey ∈ q.ticketsByWaitTime_) :
    q.toRaw.matchFirst range now waitKey = (q.matchFirst range now waitKey, []) := by
  obtain ⟨first, hfirst, huser⟩ := find_of_mem_wait hwait
  have hraw : q.toRaw.ticketsByUserId_.lookup (ofLex waitKey).2 = some first := hfirst
  have hown : toLex (first.elo_, first.userId_) ∈ q.toRaw.ticketsByElo_ := by
    rw [huser]
    exact mem_elo_of_find hfirst
  have hbefore : ∀ best, q.toRaw.consider range now first best
      (q.toRaw.ticketsByElo_.before (toLex (first.elo_, first.userId_))) = (_, []) := fun best =>
    q.consider_toRaw range now first best _ fun k hk => (SortedSet.before_spec hk).1
  have hafter : ∀ best, q.toRaw.consider range now first best
      (q.toRaw.ticketsByElo_.after (toLex (first.elo_, first.userId_))) = (_, []) := fun best =>
    q.consider_toRaw range now first best _ fun k hk => (SortedSet.after_spec hk).1
  rw [matchFirst_eq hfirst]
  unfold RawMatchQueue.matchFirst
  simp only [hraw]
  rw [if_neg (not_not.mpr hown), hbefore, hafter]
  rfl

theorem matchLoop_toRaw (waitKeys : List WaitKey)
    (hkeys : ∀ waitKey ∈ waitKeys, waitKey ∈ q.ticketsByWaitTime_) :
    q.toRaw.matchLoop range now waitKeys =
      ((waitKeys.findSome? (q.matchFirst range now),
        (q.without (waitKeys.findSome? (q.matchFirst range now))).toRaw), []) := by
  induction waitKeys with
  | nil => rfl
  | cons waitKey waitKeys ih =>
    have hfirst := q.matchFirst_toRaw range now (hkeys waitKey List.mem_cons_self)
    have hrest := ih fun k hk => hkeys k (List.mem_cons_of_mem _ hk)
    unfold RawMatchQueue.matchLoop
    rw [hfirst, hrest, List.findSome?_cons]
    cases q.matchFirst range now waitKey with
    | none => rfl
    | some result =>
      simp only [without]
      rw [removeTicket_toRaw, removeTicket_toRaw]

theorem tryMatch_toRaw :
    q.toRaw.tryMatch range now =
      (((q.tryMatch range now).1, (q.tryMatch range now).2.toRaw), []) := by
  rw [tryMatch_eq]
  exact q.matchLoop_toRaw range now q.ticketsByWaitTime_.toList fun _ hk => hk

end TryMatch

/-! ### Every call -/

variable (range : MatchTicket → MatchTimePoint → ℚ)

/-- The queue after a call. -/
def after (q : MatchQueue) : QueueCall → MatchQueue
  | .join ticket => (q.join ticket).2
  | .cancel userId => (q.cancel userId).2
  | .tryMatch now => (q.tryMatch range now).2
  | .contains _ => q
  | .size => q

/-- What the call returns. -/
def returns (q : MatchQueue) : QueueCall → QueueOutput
  | .join ticket => .flag (q.join ticket).1
  | .cancel userId => .flag (q.cancel userId).1
  | .tryMatch now => .pair (q.tryMatch range now).1
  | .contains userId => .flag (q.contains userId)
  | .size => .count q.size

/-- The three containers do what the `MatchQueue` does, and find everything. -/
theorem step_toRaw (q : MatchQueue) (call : QueueCall) :
    RawMatchQueue.step range q.toRaw call =
      ((q.after range call).toRaw, [q.returns range call]) := by
  unfold RawMatchQueue.step
  cases call with
  | join ticket =>
    simp only
    rw [join_toRaw]
    rfl
  | cancel userId =>
    simp only
    rw [cancel_toRaw]
    rfl
  | tryMatch now =>
    simp only
    rw [tryMatch_toRaw]
    rfl
  | contains userId => rfl
  | size => rfl

open RawMatchQueue in
theorem run_toRaw (q : MatchQueue) (calls : List QueueCall) :
    (∃ q' : MatchQueue, q'.toRaw = ((machine range).run q.toRaw calls).1) ∧
      ∀ branch, .notFound branch ∉ ((machine range).run q.toRaw calls).2 := by
  induction calls generalizing q with
  | nil => exact ⟨⟨q, rfl⟩, fun _ => List.not_mem_nil⟩
  | cons call calls ih =>
    have hstep : (machine range).step q.toRaw call = _ := q.step_toRaw range call
    obtain ⟨hlast, hfound⟩ := ih (q.after range call)
    rw [Machine.run_cons, hstep]
    refine ⟨hlast, fun branch hbranch => ?_⟩
    rcases List.mem_append.mp hbranch with hhead | hrest
    · -- the only output of a call is what it returns
      have hreturns := List.mem_singleton.mp hhead
      cases call <;> cases hreturns
    · exact hfound branch hrest

end MatchQueue

namespace RawMatchQueue

/-! ### The tickets of the three containers -/

variable {q q' : RawMatchQueue}

/-- A ticket that is in the queue. -/
def Stored (q : RawMatchQueue) (t : MatchTicket) : Prop :=
  ∃ u, q.ticketsByUserId_.lookup u = some t

/-- The two ordered indexes are made of the tickets that are stored, each under its user. -/
structure Indexed (q : RawMatchQueue) : Prop where
  userId : ∀ u t, q.ticketsByUserId_.lookup u = some t → t.userId_ = u
  elo : ∀ k, k ∈ q.ticketsByElo_ ↔ ∃ t, q.Stored t ∧ toLex (t.elo_, t.userId_) = k
  wait : ∀ k, k ∈ q.ticketsByWaitTime_ ↔ ∃ t, q.Stored t ∧ toLex (t.joinedAt_, t.userId_) = k

theorem Indexed.lookup_iff (h : Indexed q) {u : UInt32} {t : MatchTicket} :
    q.ticketsByUserId_.lookup u = some t ↔ q.Stored t ∧ t.userId_ = u := by
  constructor
  · intro ht
    exact ⟨⟨u, ht⟩, h.userId u t ht⟩
  · rintro ⟨⟨u', ht⟩, rfl⟩
    rwa [h.userId u' t ht]

theorem indexed_toRaw (q : MatchQueue) : Indexed q.toRaw where
  userId _ _ h := q.userId_eq h
  elo k := by
    constructor
    · intro hk
      obtain ⟨t, ht, helo, huser⟩ := MatchQueue.find_of_mem_elo hk
      refine ⟨t, ⟨_, ht⟩, ?_⟩
      rw [helo, huser]
      rfl
    · rintro ⟨t, ⟨u, ht⟩, rfl⟩
      rw [q.userId_eq ht]
      exact MatchQueue.mem_elo_of_find ht
  wait k := by
    constructor
    · intro hk
      obtain ⟨t, ht, hjoined⟩ := (q.mem_wait_iff (ofLex k).1 (ofLex k).2).mp hk
      refine ⟨t, ⟨_, ht⟩, ?_⟩
      rw [hjoined, q.userId_eq ht]
      rfl
    · rintro ⟨t, ⟨u, ht⟩, rfl⟩
      rw [q.userId_eq ht]
      exact MatchQueue.mem_wait_of_find ht

/-- Containers whose indexes are in order are given by the tickets. -/
theorem Indexed.eq_of_stored (hq : Indexed q) (hq' : Indexed q')
    (h : ∀ t, q.Stored t ↔ q'.Stored t) : q = q' := by
  have htickets : q.ticketsByUserId_ = q'.ticketsByUserId_ := by
    apply Finmap.ext_lookup
    intro u
    apply Option.ext
    intro t
    rw [hq.lookup_iff, hq'.lookup_iff, h]
  have helo : q.ticketsByElo_ = q'.ticketsByElo_ := by
    ext k
    simp only [hq.elo, hq'.elo, h]
  have hwait : q.ticketsByWaitTime_ = q'.ticketsByWaitTime_ := by
    ext k
    simp only [hq.wait, hq'.wait, h]
  cases q
  cases q'
  cases htickets
  cases helo
  cases hwait
  rfl

variable (range : MatchTicket → MatchTimePoint → ℚ)

theorem indexed_run (calls : List QueueCall) : Indexed ((machine range).run empty calls).1 := by
  obtain ⟨⟨q, hq⟩, -⟩ := MatchQueue.empty.run_toRaw range calls
  have hindexed := indexed_toRaw q
  rw [hq] at hindexed
  exact hindexed

/-- After every sequence of calls the three indexes describe the same tickets, no branch for
something that is not found was taken, and what later calls return depends on the tickets only. -/
theorem indexes_describe_tickets (calls : List QueueCall) :
    Indexed ((machine range).run empty calls).1 ∧
      (∀ branch, .notFound branch ∉ ((machine range).run empty calls).2) ∧
      ∀ calls' later : List QueueCall,
        (∀ t, ((machine range).run empty calls).1.Stored t ↔
          ((machine range).run empty calls').1.Stored t) →
        ((machine range).run ((machine range).run empty calls).1 later).2 =
          ((machine range).run ((machine range).run empty calls').1 later).2 := by
  refine ⟨indexed_run range calls, (MatchQueue.empty.run_toRaw range calls).2, ?_⟩
  intro calls' later hstored
  -- the two histories have led to the same state
  have heq := (indexed_run range calls).eq_of_stored (indexed_run range calls') hstored
  rw [heq]

/-- Two tickets with the same ELO and the same join time, in two orders. -/
theorem indexes_describe_tickets_two_orders :
    ((machine allowedEloRange).run ((machine allowedEloRange).run empty
        [.join ⟨1, 5, 0⟩, .join ⟨2, 5, 0⟩]).1 [.tryMatch 0, .size]).2 =
      ((machine allowedEloRange).run ((machine allowedEloRange).run empty
        [.join ⟨2, 5, 0⟩, .join ⟨1, 9, 7⟩, .cancel 1, .join ⟨1, 5, 0⟩]).1
          [.tryMatch 0, .size]).2 := by
  apply (indexes_describe_tickets allowedEloRange _).2.2 _ _
  have htickets : ((machine allowedEloRange).run empty
      [.join ⟨1, 5, 0⟩, .join ⟨2, 5, 0⟩]).1.ticketsByUserId_ =
      ((machine allowedEloRange).run empty
        [.join ⟨2, 5, 0⟩, .join ⟨1, 9, 7⟩, .cancel 1, .join ⟨1, 5, 0⟩]).1.ticketsByUserId_ := by
    decide +kernel
  intro t
  unfold Stored
  rw [htickets]

end RawMatchQueue

end ArenaGame
