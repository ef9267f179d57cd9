import ArenaGame.Server.MatchQueue

/-!
# What the match queue does

A queue is looked at through `find`, the ticket of a user.  `join` and `removeTicket` change it at
one user only.

`tryMatch` compares the ticket that it tries with its two neighbours in the ELO order and with no
other.  That is enough: a ticket between two others is at most as far from each as they are from
each other (`eloDifferentce_le_of_between`), so if any ticket is in range, a neighbour is.  Hence
`tryMatch` fails only on a queue in which no ticket is in range of another (`tryMatch_none`).
-/

namespace ArenaGame

theorem toNat_eloDifferentce (a b : UInt32) :
    (eloDifferentce a b).toNat = (a.toNat - b.toNat) + (b.toNat - a.toNat) := by
  unfold eloDifferentce
  split
  · rename_i h
    have hle : b.toNat ≤ a.toNat := h
    rw [UInt32.toNat_sub_of_le _ _ h]
    omega
  · rename_i h
    have hlt : a < b := UInt32.not_le.mp h
    have hle : a.toNat < b.toNat := hlt
    rw [UInt32.toNat_sub_of_le _ _ hlt.le]
    omega

theorem eloDifferentce_le_of_between {a b c : UInt32} (h : a ≤ b ∧ b ≤ c ∨ c ≤ b ∧ b ≤ a) :
    (eloDifferentce a b).toNat ≤ (eloDifferentce a c).toNat := by
  simp only [UInt32.le_iff_toNat_le] at h
  rw [toNat_eloDifferentce, toNat_eloDifferentce]
  omega

namespace MatchQueue

variable (q : MatchQueue)

/-- The ticket of a user. -/
def find (userId : UInt32) : Option MatchTicket := q.ticketsByUserId_.lookup userId

theorem contains_iff {u : UInt32} : q.contains u = true ↔ ∃ t, q.find u = some t := by
  simp only [contains, decide_eq_true_eq, find]
  exact Finmap.mem_iff

variable {q}

theorem find_userId {u : UInt32} {t : MatchTicket} (h : q.find u = some t) : t.userId_ = u :=
  q.userId_eq h

theorem join_eq (ticket : MatchTicket) :
    (q.join ticket).1 = (q.find ticket.userId_).isNone ∧
      ∀ u, (q.join ticket).2.find u =
        if q.find ticket.userId_ = none ∧ u = ticket.userId_ then some ticket else q.find u := by
  unfold join find
  split
  · rename_i h
    obtain ⟨t, ht⟩ := Finmap.mem_iff.mp h
    simp [ht]
  · rename_i h
    have hnone := Finmap.lookup_eq_none.mpr h
    simp [hnone]

@[simp] theorem find_removeTicket (u u' : UInt32) :
    (q.removeTicket u).find u' = if u' = u then none else q.find u' := by
  unfold removeTicket find
  split
  · rename_i h
    by_cases hu : u' = u
    · rw [if_pos hu, hu, h]
    · rw [if_neg hu]
  · rw [UnorderedMap.lookup_erase]

theorem cancel_eq (u : UInt32) :
    (q.cancel u).1 = (q.find u).isSome ∧
      ∀ u', (q.cancel u).2.find u' = if u' = u then none else q.find u' := by
  have hcontains := q.contains_iff (u := u)
  unfold cancel
  cases h : q.find u with
  | none =>
    have hno : q.contains u = false := by
      rw [← Bool.not_eq_true, hcontains]
      simp [h]
    rw [hno]
    refine ⟨rfl, fun u' => ?_⟩
    by_cases hu : u' = u
    · rw [if_pos hu, hu]
      exact h
    · rw [if_neg hu]
      rfl
  | some t =>
    have hyes : q.contains u = true := hcontains.mpr ⟨t, h⟩
    rw [hyes]
    exact ⟨rfl, fun u' => find_removeTicket u u'⟩

/-! ### The tickets of a queue -/

variable (q) in
def tickets : Multiset MatchTicket := UnorderedMap.values q.ticketsByUserId_

theorem mem_tickets {t : MatchTicket} : t ∈ q.tickets ↔ q.find t.userId_ = some t := by
  rw [tickets, UnorderedMap.mem_values]
  constructor
  · rintro ⟨u, hu⟩
    have huser := q.userId_eq hu
    rw [find, huser]
    exact hu
  · intro h
    exact ⟨_, h⟩

theorem tickets_eq_cons {u : UInt32} {t : MatchTicket} (h : q.find u = some t) :
    q.tickets = t ::ₘ (q.removeTicket u).tickets := by
  have herase : (q.removeTicket u).ticketsByUserId_ = q.ticketsByUserId_.erase u := by
    apply Finmap.ext_lookup
    intro u'
    rw [UnorderedMap.lookup_erase]
    exact find_removeTicket u u'
  rw [tickets, tickets, herase]
  exact UnorderedMap.values_eq_cons_erase _ h

theorem size_eq_card : q.size = Multiset.card q.tickets := by
  simp [size, tickets, UnorderedMap.values, Finmap.keys, Multiset.keys]

/-! ### One try -/

section TryMatch

variable {range : MatchTicket → MatchTimePoint → ℚ} {now : MatchTimePoint}

/-- `b` is in the range that `a` accepts. -/
def Within (range : MatchTicket → MatchTimePoint → ℚ) (now : MatchTimePoint)
    (a b : MatchTicket) : Prop :=
  ((eloDifferentce a.elo_ b.elo_).toNat : ℚ) ≤ range a now

theorem Within.of_between {a b c : MatchTicket} (h : Within range now a c)
    (hb : a.elo_ ≤ b.elo_ ∧ b.elo_ ≤ c.elo_ ∨ c.elo_ ≤ b.elo_ ∧ b.elo_ ≤ a.elo_) :
    Within range now a b :=
  le_trans (by exact_mod_cast eloDifferentce_le_of_between hb) h

variable (q range now) in
/-- `consider` leaves the best candidate alone or replaces it by a ticket in range. -/
theorem consider_cases (first : MatchTicket) (best : UInt32 × Option MatchTicket)
    (key : Option EloKey) :
    q.consider range now first best key = best ∨
      ∃ k c, key = some k ∧ q.find (ofLex k).2 = some c ∧ Within range now first c ∧
        (q.consider range now first best key).2 = some c := by
  unfold consider
  split
  · exact Or.inl rfl
  · rename_i k
    split
    · exact Or.inl rfl
    · split
      · exact Or.inl rfl
      · rename_i c hc
        simp only
        split
        · exact Or.inl rfl
        · rename_i hrange
          split
          · exact Or.inr ⟨k, c, rfl, hc, not_lt.mp hrange, rfl⟩
          · exact Or.inl rfl

/-- With no candidate so far, `consider` takes a ticket in range. -/
theorem consider_of_within {first c : MatchTicket} {k : EloKey}
    (hne : k ≠ toLex (first.elo_, first.userId_)) (hc : q.find (ofLex k).2 = some c)
    (h : Within range now first c) :
    (q.consider range now first (4294967295, none) (some k)).2 = some c := by
  unfold find at hc
  simp only [consider, if_neg hne, hc]
  rw [if_neg (not_lt.mpr h), if_pos]
  rcases lt_or_eq_of_le (Nat.le_of_lt_succ (eloDifferentce first.elo_ c.elo_).toNat_lt) with hlt | heq
  · exact Or.inl hlt
  · exact Or.inr ⟨UInt32.toNat_inj.mp heq, by simp⟩

theorem find_of_mem_elo {k : EloKey} (hk : k ∈ q.ticketsByElo_) :
    ∃ c, q.find (ofLex k).2 = some c ∧ c.elo_ = (ofLex k).1 ∧ c.userId_ = (ofLex k).2 := by
  obtain ⟨c, hc, helo⟩ := (q.mem_elo_iff (ofLex k).1 (ofLex k).2).mp hk
  exact ⟨c, hc, helo, q.userId_eq hc⟩

theorem mem_elo_of_find {t : MatchTicket} {u : UInt32} (h : q.find u = some t) :
    toLex (t.elo_, u) ∈ q.ticketsByElo_ :=
  (q.mem_elo_iff _ _).mpr ⟨t, h, rfl⟩

theorem elo_le_of_key_le {k k' : EloKey} (h : k ≤ k') : (ofLex k).1 ≤ (ofLex k').1 := by
  rcases Prod.Lex.le_iff.mp h with hlt | ⟨heq, -⟩
  · exact hlt.le
  · exact heq.le

/-- If any other ticket is in range of `first`, the two looks at the neighbours find one. -/
theorem consider_neighbours_ne_none {first t : MatchTicket} (ht : q.find t.userId_ = some t)
    (hne : first.userId_ ≠ t.userId_) (h : Within range now first t) :
    (q.consider range now first
      (q.consider range now first (4294967295, none)
        (q.ticketsByElo_.before (toLex (first.elo_, first.userId_))))
      (q.ticketsByElo_.after (toLex (first.elo_, first.userId_)))).2 ≠ none := by
  set own : EloKey := toLex (first.elo_, first.userId_) with hown
  have hkey : toLex (t.elo_, t.userId_) ∈ q.ticketsByElo_ := mem_elo_of_find ht
  have hkne : toLex (t.elo_, t.userId_) ≠ own := by
    intro heq
    exact hne (congrArg (fun k : EloKey => (ofLex k).2) heq).symm
  intro hnone
  -- the neighbour on the side of `t` lies between `first` and `t`
  rcases lt_or_gt_of_ne hkne with hlt | hgt
  · obtain ⟨k, hk⟩ := SortedSet.exists_before hkey hlt
    obtain ⟨hmem, hbelow, hgreatest⟩ := SortedSet.before_spec hk
    obtain ⟨c, hc, helo, -⟩ := find_of_mem_elo hmem
    have hbetween : t.elo_ ≤ c.elo_ ∧ c.elo_ ≤ first.elo_ := by
      rw [helo]
      exact ⟨elo_le_of_key_le (hgreatest _ hkey hlt), elo_le_of_key_le hbelow.le⟩
    have hbefore := consider_of_within hbelow.ne hc (h.of_between (Or.inr hbetween))
    rw [hk] at hnone
    rcases consider_cases q range now first
      (q.consider range now first (4294967295, none) (some k)) (q.ticketsByElo_.after own)
      with hsame | ⟨-, c', -, -, -, hc'⟩
    · rw [hsame, hbefore] at hnone
      cases hnone
    · rw [hc'] at hnone
      cases hnone
  · obtain ⟨k, hk⟩ := SortedSet.exists_after hkey hgt
    obtain ⟨hmem, habove, hleast⟩ := SortedSet.after_spec hk
    obtain ⟨c, hc, helo, -⟩ := find_of_mem_elo hmem
    have hbetween : first.elo_ ≤ c.elo_ ∧ c.elo_ ≤ t.elo_ := by
      rw [helo]
      exact ⟨elo_le_of_key_le habove.le, elo_le_of_key_le (hleast _ hkey hgt)⟩
    rw [hk] at hnone
    rcases consider_cases q range now first (4294967295, none)
      (q.ticketsByElo_.before own) with hsame | ⟨-, c', -, -, -, hc'⟩
    · rw [hsame, consider_of_within habove.ne' hc (h.of_between (Or.inl hbetween))] at hnone
      cases hnone
    · rcases consider_cases q range now first
        (q.consider range now first (4294967295, none) (q.ticketsByElo_.before own)) (some k)
        with hsame | ⟨-, c'', -, -, -, hc''⟩
      · rw [hsame, hc'] at hnone
        cases hnone
      · rw [hc''] at hnone
        cases hnone

/-- The two looks find only tickets of other users that are in range. -/
theorem consider_neighbours_spec {first c : MatchTicket} (hf : q.find first.userId_ = some first)
    (h : (q.consider range now first
      (q.consider range now first (4294967295, none)
        (q.ticketsByElo_.before (toLex (first.elo_, first.userId_))))
      (q.ticketsByElo_.after (toLex (first.elo_, first.userId_)))).2 = some c) :
    q.find c.userId_ = some c ∧ first.userId_ ≠ c.userId_ ∧ Within range now first c := by
  have hother : ∀ {k c'}, k ≠ toLex (first.elo_, first.userId_) → k ∈ q.ticketsByElo_ →
      q.find (ofLex k).2 = some c' → q.find c'.userId_ = some c' ∧ first.userId_ ≠ c'.userId_ := by
    intro k c' hne hk hc'
    obtain ⟨c'', hc'', helo, huser⟩ := find_of_mem_elo hk
    obtain rfl : c' = c'' := Option.some.inj (hc'.symm.trans hc'')
    refine ⟨by rw [huser]; exact hc', fun heq => hne ?_⟩
    -- one user has one ticket, so the key would be the own one
    rw [← huser, ← heq, hf, Option.some.injEq] at hc'
    subst hc'
    rw [helo, huser]
    rfl
  rcases consider_cases q range now first
    (q.consider range now first (4294967295, none)
      (q.ticketsByElo_.before (toLex (first.elo_, first.userId_))))
    (q.ticketsByElo_.after (toLex (first.elo_, first.userId_)))
    with hsame | ⟨k, c', hk, hc', hwithin, hbest⟩
  · rw [hsame] at h
    rcases consider_cases q range now first (4294967295, none)
      (q.ticketsByElo_.before (toLex (first.elo_, first.userId_)))
      with hsame | ⟨k, c', hk, hc', hwithin, hbest⟩
    · rw [hsame] at h
      cases h
    · obtain ⟨hmem, hbelow, -⟩ := SortedSet.before_spec hk
      obtain rfl : c = c' := Option.some.inj (h.symm.trans hbest)
      exact ⟨(hother hbelow.ne hmem hc').1, (hother hbelow.ne hmem hc').2, hwithin⟩
  · obtain ⟨hmem, habove, -⟩ := SortedSet.after_spec hk
    obtain rfl : c = c' := Option.some.inj (h.symm.trans hbest)
    exact ⟨(hother habove.ne' hmem hc').1, (hother habove.ne' hmem hc').2, hwithin⟩

theorem find_of_mem_wait {w : WaitKey} (hw : w ∈ q.ticketsByWaitTime_) :
    ∃ first, q.find (ofLex w).2 = some first ∧ first.userId_ = (ofLex w).2 := by
  obtain ⟨first, hfirst, -⟩ := (q.mem_wait_iff (ofLex w).1 (ofLex w).2).mp hw
  exact ⟨first, hfirst, q.userId_eq hfirst⟩

theorem mem_wait_of_find {t : MatchTicket} {u : UInt32} (h : q.find u = some t) :
    toLex (t.joinedAt_, u) ∈ q.ticketsByWaitTime_ :=
  (q.mem_wait_iff _ _).mpr ⟨t, h, rfl⟩

/-- The body of the loop, without the guards that never hold. -/
theorem matchFirst_eq {w : WaitKey} {first : MatchTicket} (h : q.find (ofLex w).2 = some first) :
    q.matchFirst range now w =
      (q.consider range now first
        (q.consider range now first (4294967295, none)
          (q.ticketsByElo_.before (toLex (first.elo_, first.userId_))))
        (q.ticketsByElo_.after (toLex (first.elo_, first.userId_)))).2.map fun bestSecond =>
          { first_ := first, second_ := bestSecond } := by
  have hown : toLex (first.elo_, first.userId_) ∈ q.ticketsByElo_ := by
    rw [find_userId h]
    exact mem_elo_of_find h
  unfold find at h
  simp only [matchFirst, h, hown, not_true_eq_false, if_false]

/-- The queue without a pair that was drawn. -/
def without (q : MatchQueue) : Option MatchPair → MatchQueue
  | none => q
  | some result => (q.removeTicket result.first_.userId_).removeTicket result.second_.userId_

variable (q range now) in
theorem tryMatch_eq :
    q.tryMatch range now =
      (q.ticketsByWaitTime_.toList.findSome? (q.matchFirst range now),
        q.without (q.ticketsByWaitTime_.toList.findSome? (q.matchFirst range now))) := by
  unfold tryMatch
  cases q.ticketsByWaitTime_.toList.findSome? (q.matchFirst range now) <;> rfl

/-- A drawn pair: two queued tickets of different users in range, taken out of the queue. -/
structure Drawn (range : MatchTicket → MatchTimePoint → ℚ) (now : MatchTimePoint)
    (q : MatchQueue) (pair : MatchPair) (q' : MatchQueue) : Prop where
  first : q.find pair.first_.userId_ = some pair.first_
  second : q.find pair.second_.userId_ = some pair.second_
  ne : pair.first_.userId_ ≠ pair.second_.userId_
  within : Within range now pair.first_ pair.second_
  rest : q' = (q.removeTicket pair.first_.userId_).removeTicket pair.second_.userId_

theorem tryMatch_some {pair : MatchPair} {q' : MatchQueue}
    (h : q.tryMatch range now = (some pair, q')) : Drawn range now q pair q' := by
  rw [tryMatch_eq, Prod.mk.injEq] at h
  obtain ⟨hresult, rfl⟩ := h
  rw [hresult]
  obtain ⟨w, hw, hmatch⟩ := List.exists_of_findSome?_eq_some hresult
  obtain ⟨first, hfirst, huser⟩ := find_of_mem_wait hw
  rw [matchFirst_eq hfirst, Option.map_eq_some_iff] at hmatch
  obtain ⟨second, hsecond, rfl⟩ := hmatch
  have hown : q.find first.userId_ = some first := by rw [huser]; exact hfirst
  obtain ⟨h₁, h₂, h₃⟩ := consider_neighbours_spec hown hsecond
  exact ⟨hown, h₁, h₂, h₃, rfl⟩

/-- `tryMatch` gives up only when no ticket is in range of another one. -/
theorem tryMatch_none {q' : MatchQueue} (h : q.tryMatch range now = (none, q')) :
    q' = q ∧ ∀ u u' t t', q.find u = some t → q.find u' = some t' → u ≠ u' →
      ¬ Within range now t t' := by
  rw [tryMatch_eq, Prod.mk.injEq] at h
  obtain ⟨hresult, rfl⟩ := h
  rw [hresult]
  refine ⟨rfl, fun u u' t t' ht ht' hne hwithin => ?_⟩
  have hmatch := List.findSome?_eq_none_iff.mp hresult _ (mem_wait_of_find ht)
  rw [matchFirst_eq ht, Option.map_eq_none_iff] at hmatch
  refine consider_neighbours_ne_none ?_ ?_ hwithin hmatch
  · rw [find_userId ht']
    exact ht'
  · rw [find_userId ht, find_userId ht']
    exact hne

/-- A drawn pair is split off the tickets. -/
theorem Drawn.tickets {pair : MatchPair} {q' : MatchQueue} (h : Drawn range now q pair q') :
    q.tickets = pair.first_ ::ₘ pair.second_ ::ₘ q'.tickets := by
  have hsecond : (q.removeTicket pair.first_.userId_).find pair.second_.userId_ =
      some pair.second_ := by
    rw [find_removeTicket, if_neg h.ne.symm, h.second]
  rw [tickets_eq_cons h.first, tickets_eq_cons hsecond, h.rest]

theorem Drawn.size_lt {pair : MatchPair} {q' : MatchQueue} (h : Drawn range now q pair q') :
    q'.size < q.size := by
  rw [size_eq_card, size_eq_card, h.tickets, Multiset.card_cons, Multiset.card_cons]
  omega

theorem Drawn.find {pair : MatchPair} {q' : MatchQueue} (h : Drawn range now q pair q')
    (u : UInt32) : q'.find u =
      if u = pair.first_.userId_ ∨ u = pair.second_.userId_ then none else q.find u := by
  rw [h.rest, find_removeTicket, find_removeTicket]
  by_cases h₁ : u = pair.second_.userId_ <;> by_cases h₂ : u = pair.first_.userId_ <;>
    simp [h₁, h₂]

end TryMatch

end MatchQueue

end ArenaGame
