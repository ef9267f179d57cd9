import ArenaGame.Server.Equiv.MatchQueue

/-!
# The neighbour search finds what a full scan would find

`tryMatch` walks through the tickets in the order of waiting and looks only at the two neighbours of
each in the ELO order.  `BestPair` is what a search through all pairs of tickets would return, stated
without the two indexes; `tryMatch_eq_scan` says that `tryMatch` returns exactly that.

The candidate that the two looks keep is the nearer one of the two neighbours
(`consider_neighbours_nearest`), and no other ticket is nearer than the neighbour on its side.
-/

namespace ArenaGame.MatchQueue

/-- The distance of two tickets in ELO. -/
def eloDistance (a b : MatchTicket) : ℕ := ((a.elo_.toNat : ℤ) - b.elo_.toNat).natAbs

theorem eloDistance_eq (a b : MatchTicket) :
    eloDistance a b = (eloDifferentce a.elo_ b.elo_).toNat := by
  rw [toNat_eloDifferentce]
  unfold eloDistance
  omega

/-- A ticket that is in the queue. -/
def Queued (q : MatchQueue) (t : MatchTicket) : Prop := q.find t.userId_ = some t

/-- The pair that a search through all pairs returns: the ticket that has waited longest among those
with another ticket in their range, and the other ticket that is nearest to it in ELO. -/
structure BestPair (range : MatchTicket → MatchTimePoint → ℚ) (now : MatchTimePoint)
    (q : MatchQueue) (pair : MatchPair) : Prop where
  first : q.Queued pair.first_
  second : q.Queued pair.second_
  ne : pair.first_ ≠ pair.second_
  within : (eloDistance pair.first_ pair.second_ : ℚ) ≤ range pair.first_ now
  longest : ∀ a b, q.Queued a → q.Queued b → a ≠ b → (eloDistance a b : ℚ) ≤ range a now →
    toLex (pair.first_.joinedAt_, pair.first_.userId_) ≤ toLex (a.joinedAt_, a.userId_)
  nearest : ∀ b, q.Queued b → b ≠ pair.first_ →
    eloDistance pair.first_ pair.second_ ≤ eloDistance pair.first_ b

variable {q : MatchQueue} {range : MatchTicket → MatchTimePoint → ℚ} {now : MatchTimePoint}

theorem Queued.ne_iff {a b : MatchTicket} (ha : q.Queued a) (hb : q.Queued b) :
    a ≠ b ↔ a.userId_ ≠ b.userId_ := by
  constructor
  · intro hne huser
    apply hne
    have hfind : some a = some b := by
      rw [← ha, ← hb, huser]
    exact Option.some.inj hfind
  · rintro huser rfl
    exact huser rfl

theorem within_iff {a b : MatchTicket} :
    Within range now a b ↔ (eloDistance a b : ℚ) ≤ range a now := by
  rw [eloDistance_eq]
  exact Iff.rfl

/-! ### The candidate that is kept -/

/-- `bestDifference` is the distance of `bestSecond`. -/
def Tracks (first : MatchTicket) (best : UInt32 × Option MatchTicket) : Prop :=
  ∀ c, best.2 = some c → best.1 = eloDifferentce first.elo_ c.elo_

variable (q range now) in
/-- One look keeps the distance of the candidate, and does not increase it. -/
theorem consider_tracks {first : MatchTicket} {best : UInt32 × Option MatchTicket}
    (h : Tracks first best) (key : Option EloKey) :
    Tracks first (q.consider range now first best key) ∧
      (q.consider range now first best key).1 ≤ best.1 := by
  have hsame : Tracks first best ∧ best.1 ≤ best.1 := ⟨h, le_refl _⟩
  unfold consider
  split
  · exact hsame
  · split
    · exact hsame
    · split
      · exact hsame
      · simp only
        split
        · exact hsame
        · split
          · rename_i hbetter
            -- the new candidate is at most as far away as the old one
            refine ⟨fun c hc => ?_, ?_⟩
            · obtain rfl := Option.some.inj hc
              rfl
            · rcases hbetter with hlt | ⟨heq, -⟩
              · exact hlt.le
              · exact heq.le
          · exact hsame

/-- After a look at a ticket in range, the kept distance is at most the distance of this ticket. -/
theorem consider_le {first c : MatchTicket} (best : UInt32 × Option MatchTicket) {k : EloKey}
    (hne : k ≠ toLex (first.elo_, first.userId_)) (hc : q.find (ofLex k).2 = some c)
    (h : Within range now first c) :
    (q.consider range now first best (some k)).1 ≤ eloDifferentce first.elo_ c.elo_ := by
  unfold find at hc
  simp only [consider, if_neg hne, hc]
  rw [if_neg (not_lt.mpr h)]
  split
  · exact le_refl _
  · rename_i hworse
    have hnot : ¬ eloDifferentce first.elo_ c.elo_ < best.1 := fun hlt => hworse (Or.inl hlt)
    exact not_lt.mp hnot

/-- No other ticket is nearer than the candidate that the two looks keep. -/
theorem consider_neighbours_nearest {first c t : MatchTicket} (hf : q.Queued first)
    (h : (q.consider range now first
      (q.consider range now first (4294967295, none)
        (q.ticketsByElo_.before (toLex (first.elo_, first.userId_))))
      (q.ticketsByElo_.after (toLex (first.elo_, first.userId_)))).2 = some c)
    (ht : q.Queued t) (hne : t.userId_ ≠ first.userId_) :
    (eloDifferentce first.elo_ c.elo_).toNat ≤ (eloDifferentce first.elo_ t.elo_).toNat := by
  obtain ⟨-, -, hwithin⟩ := consider_neighbours_spec hf h
  set own : EloKey := toLex (first.elo_, first.userId_) with hown
  have hnone : Tracks first (4294967295, none) := fun c hc => by cases hc
  obtain ⟨htracks, -⟩ := consider_tracks q range now hnone
    (q.ticketsByElo_.before own)
  obtain ⟨htracks', hle⟩ := consider_tracks q range now htracks
    (q.ticketsByElo_.after own)
  rw [htracks' c h] at hle
  -- a neighbour is no nearer than the candidate, whether it is in range or not
  have hfar : ∀ {p : MatchTicket}, (Within range now first p →
        eloDifferentce first.elo_ c.elo_ ≤ eloDifferentce first.elo_ p.elo_) →
      (eloDifferentce first.elo_ c.elo_).toNat ≤ (eloDifferentce first.elo_ p.elo_).toNat := by
    intro p hp
    by_cases hin : Within range now first p
    · exact hp hin
    · have hlt : ((eloDifferentce first.elo_ c.elo_).toNat : ℚ) <
          (eloDifferentce first.elo_ p.elo_).toNat := lt_of_le_of_lt hwithin (not_le.mp hin)
      have hlt' : (eloDifferentce first.elo_ c.elo_).toNat <
          (eloDifferentce first.elo_ p.elo_).toNat := by exact_mod_cast hlt
      exact hlt'.le
  have hkey : toLex (t.elo_, t.userId_) ∈ q.ticketsByElo_ := mem_elo_of_find ht
  have hkne : toLex (t.elo_, t.userId_) ≠ own := by
    intro heq
    exact hne (congrArg (fun k : EloKey => (ofLex k).2) heq)
  -- the neighbour on the side of `t` lies between `first` and `t`
  rcases lt_or_gt_of_ne hkne with hlt | hgt
  · obtain ⟨k, hk⟩ := SortedSet.exists_before hkey hlt
    obtain ⟨hmem, hbelow, hgreatest⟩ := SortedSet.before_spec hk
    obtain ⟨p, hp, helo, -⟩ := find_of_mem_elo hmem
    have hbetween : t.elo_ ≤ p.elo_ ∧ p.elo_ ≤ first.elo_ := by
      rw [helo]
      exact ⟨elo_le_of_key_le (hgreatest _ hkey hlt), elo_le_of_key_le hbelow.le⟩
    refine le_trans (hfar fun hin => ?_) (eloDifferentce_le_of_between (Or.inr hbetween))
    rw [hk] at hle
    exact hle.trans (consider_le _ hbelow.ne hp hin)
  · obtain ⟨k, hk⟩ := SortedSet.exists_after hkey hgt
    obtain ⟨hmem, habove, hleast⟩ := SortedSet.after_spec hk
    obtain ⟨p, hp, helo, -⟩ := find_of_mem_elo hmem
    have hbetween : first.elo_ ≤ p.elo_ ∧ p.elo_ ≤ t.elo_ := by
      rw [helo]
      exact ⟨elo_le_of_key_le habove.le, elo_le_of_key_le (hleast _ hkey hgt)⟩
    refine le_trans (hfar fun hin => ?_) (eloDifferentce_le_of_between (Or.inl hbetween))
    rw [← htracks' c h, hk]
    exact consider_le _ habove.ne' hp hin

/-! ### The search -/

/-- The pair that `tryMatch` finds is the best one. -/
theorem tryMatch_bestPair {pair : MatchPair} (h : (q.tryMatch range now).1 = some pair) :
    BestPair range now q pair := by
  have hdrawn : Drawn range now q pair (q.tryMatch range now).2 :=
    tryMatch_some (Prod.ext h rfl)
  have hfirst : q.Queued pair.first_ := hdrawn.first
  have hsecond : q.Queued pair.second_ := hdrawn.second
  have hsearch : q.ticketsByWaitTime_.toList.findSome? (q.matchFirst range now) = some pair := by
    rwa [tryMatch_eq] at h
  obtain ⟨passed, w, rest, hlist, hmatch, hpassed⟩ := List.findSome?_eq_some_iff.mp hsearch
  have hw : w ∈ q.ticketsByWaitTime_ := by
    rw [← SortedSet.mem_toList, hlist]
    simp
  obtain ⟨first, hfind, huser⟩ := find_of_mem_wait hw
  rw [matchFirst_eq hfind, Option.map_eq_some_iff] at hmatch
  obtain ⟨second, hbest, rfl⟩ := hmatch
  refine ⟨hfirst, hsecond, (hfirst.ne_iff hsecond).mpr hdrawn.ne, within_iff.mp hdrawn.within,
    fun a b ha hb hne hin => ?_, fun b hb hne => ?_⟩
  · -- the tickets that were passed over have no other ticket in their range
    have hwait : toLex (a.joinedAt_, a.userId_) ∈ q.ticketsByWaitTime_.toList := mem_wait_of_find ha
    have hown : toLex (first.joinedAt_, first.userId_) = w := by
      obtain ⟨first', hfind', hjoined⟩ := (q.mem_wait_iff (ofLex w).1 (ofLex w).2).mp hw
      obtain rfl : first = first' := Option.some.inj (hfind.symm.trans hfind')
      rw [hjoined, huser]
      rfl
    rw [hlist, List.mem_append, List.mem_cons] at hwait
    have hsorted := q.ticketsByWaitTime_.sorted
    rw [hlist, List.pairwise_append, List.pairwise_cons] at hsorted
    show toLex (first.joinedAt_, first.userId_) ≤ _
    rw [hown]
    rcases hwait with hwait | hwait | hwait
    · exfalso
      have hnone := hpassed _ hwait
      have hqueued : q.find (ofLex (toLex (a.joinedAt_, a.userId_) : WaitKey)).2 = some a := ha
      rw [matchFirst_eq hqueued, Option.map_eq_none_iff] at hnone
      exact consider_neighbours_ne_none hb ((ha.ne_iff hb).mp hne) (within_iff.mpr hin) hnone
    · exact hwait.ge
    · exact (hsorted.2.1.1 _ hwait).le
  · rw [eloDistance_eq, eloDistance_eq]
    exact consider_neighbours_nearest hfirst hbest hb ((hb.ne_iff hfirst).mp hne)

/-- **The neighbour search finds a match whenever a full scan would.**  For every queue, every time
and every function in the place of `allowedEloRange`: nothing is found, and nothing is changed, if
and only if no two tickets are in range; otherwise the best pair is found, and its two tickets leave
the queue. -/
theorem tryMatch_eq_scan (q : MatchQueue) (range : MatchTicket → MatchTimePoint → ℚ)
    (now : MatchTimePoint) :
    (q.tryMatch range now = (none, q) ↔
      ¬ ∃ a b, q.Queued a ∧ q.Queued b ∧ a ≠ b ∧ (eloDistance a b : ℚ) ≤ range a now) ∧
    ∀ result q', q.tryMatch range now = (result, q') → result = none ∧ q' = q ∨
      ∃ pair, result = some pair ∧ BestPair range now q pair ∧
        ∀ t, q'.Queued t ↔ q.Queued t ∧ t ≠ pair.first_ ∧ t ≠ pair.second_ := by
  have hcases : ∀ result q', q.tryMatch range now = (result, q') → result = none ∧ q' = q ∨
      ∃ pair, result = some pair ∧ BestPair range now q pair ∧
        ∀ t, q'.Queued t ↔ q.Queued t ∧ t ≠ pair.first_ ∧ t ≠ pair.second_ := by
    intro result q' hmatch
    cases result with
    | none => exact Or.inl ⟨rfl, (tryMatch_none hmatch).1⟩
    | some pair =>
      have hdrawn := tryMatch_some hmatch
      have hbest : BestPair range now q pair := tryMatch_bestPair (by rw [hmatch])
      refine Or.inr ⟨pair, rfl, hbest, fun t => ?_⟩
      unfold Queued
      rw [hdrawn.find]
      -- the queue loses the users of the pair; no other ticket is for one of them
      constructor
      · intro ht
        split at ht
        · cases ht
        · rename_i huser
          rw [not_or] at huser
          exact ⟨ht, (Queued.ne_iff ht hbest.first).mpr huser.1,
            (Queued.ne_iff ht hbest.second).mpr huser.2⟩
      · rintro ⟨ht, hne₁, hne₂⟩
        rw [if_neg, ht]
        rintro (huser | huser)
        · exact (Queued.ne_iff ht hbest.first).mp hne₁ huser
        · exact (Queued.ne_iff ht hbest.second).mp hne₂ huser
  refine ⟨⟨fun hnone => ?_, fun hno => ?_⟩, hcases⟩
  · rintro ⟨a, b, ha, hb, hne, hin⟩
    have huser := (Queued.ne_iff ha hb).mp hne
    exact (tryMatch_none hnone).2 _ _ a b ha hb huser (within_iff.mpr hin)
  · rcases hcases _ _ rfl with ⟨hresult, hq⟩ | ⟨pair, -, hbest, -⟩
    · exact Prod.ext hresult hq
    · exact absurd ⟨_, _, hbest.first, hbest.second, hbest.ne, hbest.within⟩ hno

end ArenaGame.MatchQueue
