import ArenaGame.Server.Equiv.NearestNeighbour
import Mathlib.Tactic.Linarith
import Mathlib.Tactic.NormNum
import Mathlib.Tactic.Positivity

/-!
# Which of two equal opponents is drawn, and who of a pair has waited longer

The ticket that `tryMatch` tries is the `Seeker`: the one that has waited longest among those with
another ticket in their range.  Its partner is one of the tickets `Nearest` to it.

`consider` compares user ids where two candidates are equally far away, but it only ever sees the two
neighbours of the seeker.  Behind the seeker in the ELO order the neighbour has the smallest user id
of its ELO; in front of it the neighbour has the largest (`eloKey_le_of_tie`).  So ties are broken by
the user id unless two of the nearest tickets lie in front of the seeker and none behind it has a
smaller id than they (`tryMatch_tieBroken_iff`).

The order of a drawn pair needs the full scan: nothing in the search compares waiting times
(`tryMatch_order`).
-/

namespace ArenaGame.MatchQueue

def eloKey (t : MatchTicket) : EloKey := toLex (t.elo_, t.userId_)

def waitKey (t : MatchTicket) : WaitKey := toLex (t.joinedAt_, t.userId_)

/-- The ticket that a search for a pair starts from. -/
structure Seeker (range : MatchTicket → MatchTimePoint → ℚ) (now : MatchTimePoint)
    (q : MatchQueue) (f : MatchTicket) : Prop where
  queued : q.Queued f
  within : ∃ b, q.Queued b ∧ b ≠ f ∧ (eloDistance f b : ℚ) ≤ range f now
  longest : ∀ a b, q.Queued a → q.Queued b → a ≠ b → (eloDistance a b : ℚ) ≤ range a now →
    waitKey f ≤ waitKey a

/-- No other ticket is nearer to `f` than `a`. -/
structure Nearest (q : MatchQueue) (f a : MatchTicket) : Prop where
  queued : q.Queued a
  ne : a ≠ f
  le : ∀ b, q.Queued b → b ≠ f → eloDistance f a ≤ eloDistance f b

/-- Of the tickets that are as far from `first_` as `second_`, `second_` has the smallest user id. -/
def TieBroken (q : MatchQueue) (pair : MatchPair) : Prop :=
  ∀ t, q.Queued t → t ≠ pair.first_ →
    eloDistance pair.first_ t = eloDistance pair.first_ pair.second_ →
    pair.second_.userId_ ≤ t.userId_

variable {q : MatchQueue} {range : MatchTicket → MatchTimePoint → ℚ} {now : MatchTimePoint}

theorem Nearest.distance_eq {f a b : MatchTicket} (ha : Nearest q f a) (hb : Nearest q f b) :
    eloDistance f a = eloDistance f b :=
  le_antisymm (ha.le b hb.queued hb.ne) (hb.le a ha.queued ha.ne)

theorem BestPair.seeker {pair : MatchPair} (h : BestPair range now q pair) :
    Seeker range now q pair.first_ where
  queued := h.first
  within := ⟨pair.second_, h.second, h.ne.symm, h.within⟩
  longest := h.longest

theorem BestPair.nearest_second {pair : MatchPair} (h : BestPair range now q pair) :
    Nearest q pair.first_ pair.second_ where
  queued := h.second
  ne := h.ne.symm
  le := h.nearest

theorem eloKey_ne_iff {a b : MatchTicket} (ha : q.Queued a) (hb : q.Queued b) :
    eloKey a ≠ eloKey b ↔ a ≠ b := by
  refine ⟨?_, fun hne heq => ?_⟩
  · rintro hkey rfl
    exact hkey rfl
  · exact (ha.ne_iff hb).mp hne (congrArg (fun k : EloKey => (ofLex k).2) heq)

/-- A ticket between `f` and one of the nearest is one of the nearest. -/
theorem Nearest.of_between {f t p : MatchTicket} (ht : Nearest q f t) (hp : q.Queued p)
    (hne : p ≠ f) (hbetween : f.elo_ ≤ p.elo_ ∧ p.elo_ ≤ t.elo_ ∨ t.elo_ ≤ p.elo_ ∧ p.elo_ ≤ f.elo_) :
    Nearest q f p where
  queued := hp
  ne := hne
  le b hb hbf := by
    refine le_trans ?_ (ht.le b hb hbf)
    rw [eloDistance_eq, eloDistance_eq]
    exact eloDifferentce_le_of_between hbetween

theorem BestPair.within_of_nearest {pair : MatchPair} (h : BestPair range now q pair)
    {p : MatchTicket} (hp : Nearest q pair.first_ p) : Within range now pair.first_ p := by
  rw [within_iff, hp.distance_eq h.nearest_second]
  exact h.within

theorem waitKey_ne_iff {a b : MatchTicket} (ha : q.Queued a) (hb : q.Queued b) :
    waitKey a ≠ waitKey b ↔ a ≠ b := by
  refine ⟨?_, fun hne heq => ?_⟩
  · rintro hkey rfl
    exact hkey rfl
  · exact (ha.ne_iff hb).mp hne (congrArg (fun k : WaitKey => (ofLex k).2) heq)

/-- There is one seeker at most. -/
theorem Seeker.unique {f g : MatchTicket} (hf : Seeker range now q f) (hg : Seeker range now q g) :
    f = g := by
  obtain ⟨b, hb, hbf, hin⟩ := hf.within
  obtain ⟨c, hc, hcg, hin'⟩ := hg.within
  by_contra hne
  refine (waitKey_ne_iff hf.queued hg.queued).mpr hne (le_antisymm ?_ ?_)
  · exact hf.longest g c hg.queued hc hcg.symm hin'
  · exact hg.longest f b hf.queued hb hbf.symm hin

/-- From a seeker the search finds a pair. -/
theorem Seeker.tryMatch {f : MatchTicket} (hf : Seeker range now q f) :
    ∃ pair, (q.tryMatch range now).1 = some pair ∧ pair.first_ = f := by
  obtain ⟨b, hb, hne, hin⟩ := hf.within
  obtain ⟨hnone, hcases⟩ := tryMatch_eq_scan q range now
  rcases hcases _ _ rfl with ⟨hresult, hq⟩ | ⟨pair, hpair, hbest, -⟩
  · exact absurd ⟨f, b, hf.queued, hb, hne.symm, hin⟩ (hnone.mp (Prod.ext hresult hq))
  · exact ⟨pair, hpair, hbest.seeker.unique hf⟩

/-! ### Two candidates at one distance -/

/-- The candidate kept so far, if there is one, is nearer than a ticket of user `u` at distance `d`,
or as near and its user id is at most `u`. -/
def Keeps (d u : UInt32) (best : UInt32 × Option MatchTicket) : Prop :=
  ∀ c, best.2 = some c → best.1 < d ∨ best.1 = d ∧ c.userId_ ≤ u

variable (q range now) in
/-- A further look does not change for the worse. -/
theorem consider_keeps {first : MatchTicket} {best : UInt32 × Option MatchTicket} {d u : UInt32}
    (h : Keeps d u best) (hsome : best.2 ≠ none) (key : Option EloKey) :
    Keeps d u (q.consider range now first best key) := by
  obtain ⟨c₀, hc₀⟩ := Option.ne_none_iff_exists'.mp hsome
  have hold := h c₀ hc₀
  unfold consider
  split
  · exact h
  · split
    · exact h
    · split
      · exact h
      · rename_i c hc
        simp only
        split
        · exact h
        · split
          · rename_i hbetter
            intro c' hc'
            obtain rfl := Option.some.inj hc'
            rcases hbetter with hlt | ⟨heq, hlt⟩
            · left
              rcases hold with hnear | ⟨hd, -⟩
              · exact hlt.trans hnear
              · exact hd ▸ hlt
            · -- as near as the old candidate, with a smaller user id
              rcases hold with hnear | ⟨hd, hu⟩
              · exact Or.inl (heq ▸ hnear)
              · exact Or.inr ⟨heq.trans hd, (hlt c₀ hc₀).le.trans hu⟩
          · exact h

/-- The look at a ticket in range keeps one that is as good. -/
theorem keeps_of_consider {first c : MatchTicket} (best : UInt32 × Option MatchTicket) {k : EloKey}
    (hne : k ≠ toLex (first.elo_, first.userId_)) (hc : q.find (ofLex k).2 = some c)
    (h : Within range now first c) :
    Keeps (eloDifferentce first.elo_ c.elo_) c.userId_
      (q.consider range now first best (some k)) := by
  unfold find at hc
  simp only [consider, if_neg hne, hc]
  rw [if_neg (not_lt.mpr h)]
  split
  · intro c' hc'
    obtain rfl := Option.some.inj hc'
    exact Or.inr ⟨rfl, le_refl _⟩
  · rename_i hworse
    intro c' hc'
    rw [not_or, not_lt] at hworse
    obtain ⟨hle, htie⟩ := hworse
    rcases hle.lt_or_eq with hlt | heq
    · exact Or.inl hlt
    · refine Or.inr ⟨heq, ?_⟩
      by_contra hnot
      refine htie ⟨heq.symm, fun second hsecond => ?_⟩
      obtain rfl : c' = second := Option.some.inj (hc'.symm.trans hsecond)
      exact not_le.mp hnot

theorem find_eloKey {k : EloKey} (hk : k ∈ q.ticketsByElo_) :
    ∃ c, q.find (ofLex k).2 = some c ∧ q.Queued c ∧ eloKey c = k := by
  obtain ⟨c, hc, helo, huser⟩ := find_of_mem_elo hk
  refine ⟨c, hc, ?_, ?_⟩
  · unfold Queued
    rw [huser]
    exact hc
  · unfold eloKey
    rw [helo, huser]
    rfl

/-- The two looks at the neighbours of `first`. -/
def looks (range : MatchTicket → MatchTimePoint → ℚ) (now : MatchTimePoint) (q : MatchQueue)
    (first : MatchTicket) : UInt32 × Option MatchTicket :=
  q.consider range now first
    (q.consider range now first (4294967295, none) (q.ticketsByElo_.before (eloKey first)))
    (q.ticketsByElo_.after (eloKey first))

theorem tryMatch_looks {pair : MatchPair} (h : (q.tryMatch range now).1 = some pair) :
    q.Queued pair.first_ ∧ (looks range now q pair.first_).2 = some pair.second_ := by
  have hbest := tryMatch_bestPair h
  have hsearch : q.ticketsByWaitTime_.toList.findSome? (q.matchFirst range now) = some pair := by
    rwa [tryMatch_eq] at h
  obtain ⟨w, hw, hmatch⟩ := List.exists_of_findSome?_eq_some hsearch
  obtain ⟨first, hfirst, -⟩ := find_of_mem_wait hw
  rw [matchFirst_eq hfirst, Option.map_eq_some_iff] at hmatch
  obtain ⟨second, hsecond, rfl⟩ := hmatch
  exact ⟨hbest.first, hsecond⟩

/-- A ticket in front of the seeker was kept: it is the last one there. -/
theorem eloKey_le_of_looks {first c t : MatchTicket}
    (h : (looks range now q first).2 = some c) (hbelow : eloKey c < eloKey first)
    (ht : q.Queued t) (hlt : eloKey t < eloKey first) : eloKey t ≤ eloKey c := by
  have hkey : ∀ {k c'}, k ∈ q.ticketsByElo_ → q.find (ofLex k).2 = some c' → eloKey c' = k := by
    intro k c' hk hc'
    obtain ⟨c'', hc'', -, hkey⟩ := find_eloKey hk
    obtain rfl := Option.some.inj (hc'.symm.trans hc'')
    exact hkey
  unfold looks at h
  rcases consider_cases q range now first
    (q.consider range now first (4294967295, none) (q.ticketsByElo_.before (eloKey first)))
    (q.ticketsByElo_.after (eloKey first)) with hsame | ⟨k, c', hk, hc', -, hbest⟩
  · rw [hsame] at h
    rcases consider_cases q range now first (4294967295, none)
      (q.ticketsByElo_.before (eloKey first)) with hsame | ⟨k, c', hk, hc', -, hbest⟩
    · rw [hsame] at h
      cases h
    · obtain rfl : c = c' := Option.some.inj (h.symm.trans hbest)
      obtain ⟨hmem, -, hgreatest⟩ := SortedSet.before_spec hk
      rw [hkey hmem hc']
      exact hgreatest _ (mem_elo_of_find ht) hlt
  · -- the ticket behind the seeker was kept
    obtain rfl : c = c' := Option.some.inj (h.symm.trans hbest)
    obtain ⟨hmem, habove, -⟩ := SortedSet.after_spec hk
    rw [← hkey hmem hc'] at habove
    exact absurd hbelow habove.asymm

/-- At one distance from `f`, the tickets on one side of it have one ELO, and are ordered by user
id. -/
theorem userId_le_of_eloKey_le {a b : MatchTicket} (helo : a.elo_ = b.elo_)
    (h : eloKey a ≤ eloKey b) : a.userId_ ≤ b.userId_ := by
  rcases Prod.Lex.le_iff.mp h with hlt | ⟨-, hle⟩
  · exact absurd helo hlt.ne
  · exact hle

theorem elo_eq_of_distance_eq {f a b : MatchTicket} (h : eloDistance f a = eloDistance f b)
    (hside : eloKey a < eloKey f ∧ eloKey b < eloKey f ∨
      eloKey f < eloKey a ∧ eloKey f < eloKey b) : a.elo_ = b.elo_ := by
  rw [← UInt32.toNat_inj]
  unfold eloDistance at h
  rcases hside with ⟨ha, hb⟩ | ⟨ha, hb⟩
  · have hle : a.elo_.toNat ≤ f.elo_.toNat := elo_le_of_key_le ha.le
    have hle' : b.elo_.toNat ≤ f.elo_.toNat := elo_le_of_key_le hb.le
    omega
  · have hle : f.elo_.toNat ≤ a.elo_.toNat := elo_le_of_key_le ha.le
    have hle' : f.elo_.toNat ≤ b.elo_.toNat := elo_le_of_key_le hb.le
    omega

/-- What is kept is as good as a ticket in range that one of the two looks saw. -/
theorem userId_le_of_keeps {first c p : MatchTicket}
    (hkeeps : Keeps (eloDifferentce first.elo_ p.elo_) p.userId_ (looks range now q first))
    (h : (looks range now q first).2 = some c) (heq : eloDistance first p = eloDistance first c) :
    c.userId_ ≤ p.userId_ := by
  have hnone : Tracks first (4294967295, none) := fun c hc => by cases hc
  obtain ⟨htracks, -⟩ := consider_tracks q range now hnone
    (q.ticketsByElo_.before (eloKey first))
  obtain ⟨htracks', -⟩ := consider_tracks q range now htracks (q.ticketsByElo_.after (eloKey first))
  have hdistance : (looks range now q first).1 = eloDifferentce first.elo_ p.elo_ := by
    rw [eloDistance_eq, eloDistance_eq, UInt32.toNat_inj] at heq
    rw [heq]
    exact htracks' c h
  rcases hkeeps c h with hlt | ⟨-, hle⟩
  · exact absurd hdistance hlt.ne
  · exact hle

/-- Behind the seeker the kept ticket has the smallest user id at its distance. -/
theorem userId_le_of_behind {pair : MatchPair} (h : (q.tryMatch range now).1 = some pair)
    {t : MatchTicket} (ht : Nearest q pair.first_ t) (habove : eloKey pair.first_ < eloKey t) :
    pair.second_.userId_ ≤ t.userId_ := by
  have hbest := tryMatch_bestPair h
  obtain ⟨hf, hlooks⟩ := tryMatch_looks h
  obtain ⟨k, hk⟩ := SortedSet.exists_after (mem_elo_of_find ht.queued) habove
  obtain ⟨hmem, hbehind, hleast⟩ := SortedSet.after_spec hk
  obtain ⟨p, hfind, hqueued, rfl⟩ := find_eloKey hmem
  have hle : eloKey p ≤ eloKey t := hleast _ (mem_elo_of_find ht.queued) habove
  have hp : Nearest q pair.first_ p :=
    ht.of_between hqueued ((eloKey_ne_iff hqueued hf).mp hbehind.ne')
      (Or.inl ⟨elo_le_of_key_le hbehind.le, elo_le_of_key_le hle⟩)
  have hkeeps : Keeps (eloDifferentce pair.first_.elo_ p.elo_) p.userId_
      (looks range now q pair.first_) := by
    unfold looks
    rw [hk]
    exact keeps_of_consider _ hbehind.ne' hfind (hbest.within_of_nearest hp)
  have helo : p.elo_ = t.elo_ :=
    elo_eq_of_distance_eq (hp.distance_eq ht) (Or.inr ⟨hbehind, habove⟩)
  calc pair.second_.userId_
      ≤ p.userId_ := userId_le_of_keeps hkeeps hlooks (hp.distance_eq hbest.nearest_second)
    _ ≤ t.userId_ := userId_le_of_eloKey_le helo hle

/-- In front of the seeker the kept ticket is only compared with the last one of the nearest. -/
theorem exists_userId_le_of_front {pair : MatchPair} (h : (q.tryMatch range now).1 = some pair)
    {t : MatchTicket} (ht : Nearest q pair.first_ t) (hbelow : eloKey t < eloKey pair.first_) :
    ∃ p, Nearest q pair.first_ p ∧ eloKey p < eloKey pair.first_ ∧
      pair.second_.userId_ ≤ p.userId_ := by
  have hbest := tryMatch_bestPair h
  obtain ⟨hf, hlooks⟩ := tryMatch_looks h
  obtain ⟨k, hk⟩ := SortedSet.exists_before (mem_elo_of_find ht.queued) hbelow
  obtain ⟨hmem, hahead, hgreatest⟩ := SortedSet.before_spec hk
  obtain ⟨p, hfind, hqueued, rfl⟩ := find_eloKey hmem
  have hle : eloKey t ≤ eloKey p := hgreatest _ (mem_elo_of_find ht.queued) hbelow
  have hp : Nearest q pair.first_ p :=
    ht.of_between hqueued ((eloKey_ne_iff hqueued hf).mp hahead.ne)
      (Or.inr ⟨elo_le_of_key_le hle, elo_le_of_key_le hahead.le⟩)
  have hin := hbest.within_of_nearest hp
  have hkeeps : Keeps (eloDifferentce pair.first_.elo_ p.elo_) p.userId_
      (looks range now q pair.first_) := by
    unfold looks
    rw [hk]
    refine consider_keeps q range now (keeps_of_consider _ hahead.ne hfind hin) ?_ _
    rw [consider_of_within hahead.ne hfind hin]
    exact Option.some_ne_none p
  exact ⟨p, hp, hahead, userId_le_of_keeps hkeeps hlooks (hp.distance_eq hbest.nearest_second)⟩

/-! ### When ties are broken by the user id -/

/-- Of two tickets nearest to the seeker that lie in front of it in the ELO order, each has a greater
user id than some nearest ticket behind it. -/
def FrontTiesDecided (range : MatchTicket → MatchTimePoint → ℚ) (now : MatchTimePoint)
    (q : MatchQueue) : Prop :=
  ∀ f, Seeker range now q f → ∀ a b, Nearest q f a → Nearest q f b → a ≠ b →
    eloKey a < eloKey f → eloKey b < eloKey f →
    ∃ c, Nearest q f c ∧ eloKey f < eloKey c ∧ c.userId_ < a.userId_

theorem Nearest.eloKey_lt_or_gt {f t : MatchTicket} (hf : q.Queued f) (ht : Nearest q f t) :
    eloKey t < eloKey f ∨ eloKey f < eloKey t :=
  lt_or_gt_of_ne ((eloKey_ne_iff ht.queued hf).mpr ht.ne)

theorem tieBroken_of_frontTiesDecided {pair : MatchPair}
    (h : (q.tryMatch range now).1 = some pair) (hdecided : FrontTiesDecided range now q) :
    TieBroken q pair := by
  have hbest := tryMatch_bestPair h
  intro t ht hne hdistance
  have hnear : Nearest q pair.first_ t :=
    ⟨ht, hne, fun b hb hbf => hdistance.le.trans (hbest.nearest b hb hbf)⟩
  rcases hnear.eloKey_lt_or_gt hbest.first with hfront | hbehind
  · obtain ⟨p, hp, hahead, hle⟩ := exists_userId_le_of_front h hnear hfront
    by_cases htp : t = p
    · rw [htp]
      exact hle
    · -- a second ticket in front: one behind the seeker has a smaller user id than `t`
      obtain ⟨c, hc, hcbehind, hlt⟩ :=
        hdecided pair.first_ hbest.seeker t p hnear hp htp hfront hahead
      exact (userId_le_of_behind h hc hcbehind).trans hlt.le
  · exact userId_le_of_behind h hnear hbehind

theorem frontTiesDecided_of_tieBroken
    (h : ∀ pair, (q.tryMatch range now).1 = some pair → TieBroken q pair) :
    FrontTiesDecided range now q := by
  intro f hf a b ha hb hne hafront hbfront
  obtain ⟨pair, hpair, rfl⟩ := hf.tryMatch
  have hbest := tryMatch_bestPair hpair
  obtain ⟨-, hlooks⟩ := tryMatch_looks hpair
  have hsecond := hbest.nearest_second
  have hle : ∀ {t}, Nearest q pair.first_ t → pair.second_.userId_ ≤ t.userId_ := fun {t} ht =>
    h pair hpair t ht.queued ht.ne (ht.distance_eq hsecond)
  rcases hsecond.eloKey_lt_or_gt hbest.first with hfront | hbehind
  · -- the kept ticket is the last one in front, so `a` and `b` are both this one
    exfalso
    have heq : ∀ {t}, Nearest q pair.first_ t → eloKey t < eloKey pair.first_ →
        t = pair.second_ := by
      intro t ht htfront
      have helo := elo_eq_of_distance_eq (ht.distance_eq hsecond) (Or.inl ⟨htfront, hfront⟩)
      have hlast := eloKey_le_of_looks hlooks hfront ht.queued htfront
      by_contra hne
      apply (ht.queued.ne_iff hsecond.queued).mp hne
      exact le_antisymm (userId_le_of_eloKey_le helo hlast) (hle ht)
    exact hne ((heq ha hafront).trans (heq hb hbfront).symm)
  · refine ⟨pair.second_, hsecond, hbehind, lt_of_le_of_ne (hle ha) fun huser => ?_⟩
    have hsame : pair.second_ = a := by
      by_contra hne'
      exact (hsecond.queued.ne_iff ha.queued).mp hne' huser
    rw [hsame] at hbehind
    exact hbehind.asymm hafront

/-- **When ties are broken by the user id.**  For every queue, every time and every function in the
place of `allowedEloRange`. -/
theorem tryMatch_tieBroken_iff (q : MatchQueue) (range : MatchTicket → MatchTimePoint → ℚ)
    (now : MatchTimePoint) :
    (∀ pair, (q.tryMatch range now).1 = some pair → TieBroken q pair) ↔
      FrontTiesDecided range now q :=
  ⟨frontTiesDecided_of_tieBroken, fun hdecided _ h => tieBroken_of_frontTiesDecided h hdecided⟩

/-- Three players of one ELO; the one with the largest user id has waited longest. -/
def threeEqual : MatchQueue :=
  ((((empty.join { userId_ := 5, elo_ := 100, joinedAt_ := 0 }).2.join
    { userId_ := 1, elo_ := 100, joinedAt_ := 1 }).2.join
    { userId_ := 2, elo_ := 100, joinedAt_ := 2 }).2)

/-- The last neighbour is drawn, not the player with the smallest user id. -/
theorem not_tieBroken_threeEqual :
    ∃ pair, (threeEqual.tryMatch allowedEloRange 10).1 = some pair ∧
      ¬ TieBroken threeEqual pair := by
  refine ⟨⟨⟨5, 100, 0⟩, ⟨2, 100, 2⟩⟩, by decide +kernel, fun htie => ?_⟩
  have hle := htie ⟨1, 100, 1⟩ (by unfold Queued; decide +kernel) (by decide) (by decide)
  exact absurd hle (by decide)

/-! ### Who of a pair has waited longer -/

/-- `allowedEloRange` does not shrink while a ticket waits. -/
theorem allowedEloRange_mono (a b : MatchTicket) (now : MatchTimePoint)
    (h : a.joinedAt_ ≤ b.joinedAt_) : allowedEloRange b now ≤ allowedEloRange a now := by
  have hmax : kInitialEloRange ≤ kMaxEloRange := by
    unfold kInitialEloRange kMaxEloRange
    norm_num
  have hstart : ∀ t : MatchTicket, kInitialEloRange ≤ allowedEloRange t now := by
    intro t
    unfold allowedEloRange
    simp only
    split
    · exact le_refl _
    · rename_i helapsed
      have hpos : (0 : ℚ) ≤ ((now - t.joinedAt_ : ℤ) : ℚ) := by exact_mod_cast (not_le.mp helapsed).le
      have hper : (0 : ℚ) ≤ kEloRangePerSecond := by
        unfold kEloRangePerSecond
        norm_num
      exact le_min (le_add_of_nonneg_right (by positivity)) hmax
  -- a ticket that has just come has the initial range, which is the least
  by_cases hb : now - b.joinedAt_ ≤ 0
  · have hinitial : allowedEloRange b now = kInitialEloRange := by
      unfold allowedEloRange
      exact if_pos hb
    rw [hinitial]
    exact hstart a
  · have hle : now - b.joinedAt_ ≤ now - a.joinedAt_ := sub_le_sub_left h now
    have ha : ¬ now - a.joinedAt_ ≤ 0 := fun h => hb (hle.trans h)
    have hwait : ((now - b.joinedAt_ : ℤ) : ℚ) ≤ ((now - a.joinedAt_ : ℤ) : ℚ) := by
      exact_mod_cast hle
    unfold allowedEloRange
    rw [if_neg ha, if_neg hb]
    apply min_le_min_right _
    unfold kEloRangePerSecond
    linarith

/-- **The longer-waiting player is the seeker.**  Whenever a longer wait does not make the range
smaller: the first of a drawn pair precedes the second in the order of waiting, and a ticket that
precedes both could not have been matched with any other, from either side. -/
theorem tryMatch_order {pair : MatchPair}
    (hrange : ∀ a b : MatchTicket, a.joinedAt_ ≤ b.joinedAt_ → range b now ≤ range a now)
    (h : (q.tryMatch range now).1 = some pair) :
    waitKey pair.first_ < waitKey pair.second_ ∧
      ∀ t, q.Queued t → waitKey t < waitKey pair.first_ → ∀ u, q.Queued u → u ≠ t →
        range t now < eloDistance t u ∧ range u now < eloDistance t u := by
  have hbest := tryMatch_bestPair h
  have hmono : ∀ {a b : MatchTicket}, waitKey a ≤ waitKey b → range b now ≤ range a now := by
    intro a b hab
    apply hrange a b
    rcases Prod.Lex.le_iff.mp hab with hlt | ⟨heq, -⟩
    · exact hlt.le
    · exact heq.le
  have hcomm : ∀ a b : MatchTicket, eloDistance a b = eloDistance b a := by
    intro a b
    unfold eloDistance
    omega
  -- a ticket in front of the pair has nobody in its range
  have hpassed : ∀ {t u}, q.Queued t → q.Queued u → t ≠ u → waitKey t < waitKey pair.first_ →
      range t now < eloDistance t u := by
    intro t u ht hu hne hlt
    by_contra hin
    exact absurd (hbest.longest t u ht hu hne (not_lt.mp hin)) (not_le.mpr hlt)
  refine ⟨?_, fun t ht hlt u hu hne => ⟨hpassed ht hu hne.symm hlt, ?_⟩⟩
  · have hne := (waitKey_ne_iff hbest.first hbest.second).mpr hbest.ne
    rcases lt_or_gt_of_ne hne with hlt | hgt
    · exact hlt
    · -- the partner would have been tried first, with a range at least as wide
      have hfar := hpassed hbest.second hbest.first hbest.ne.symm hgt
      rw [hcomm] at hfar
      exact absurd (hbest.within.trans (hmono hgt.le)) (not_le.mpr hfar)
  · rcases lt_or_ge (waitKey u) (waitKey pair.first_) with hult | huge
    · rw [hcomm]
      exact hpassed hu ht hne hult
    · exact lt_of_le_of_lt (hmono (hlt.le.trans huge)) (hpassed ht hu hne.symm hlt)

theorem tryMatch_order_threeEqual :
    waitKey ⟨5, 100, 0⟩ < waitKey ⟨2, 100, 2⟩ ∧
      ∀ t, threeEqual.Queued t → waitKey t < waitKey ⟨5, 100, 0⟩ → ∀ u, threeEqual.Queued u →
        u ≠ t → allowedEloRange t 10 < eloDistance t u ∧ allowedEloRange u 10 < eloDistance t u := by
  have hpair : (threeEqual.tryMatch allowedEloRange 10).1 =
      some ⟨⟨5, 100, 0⟩, ⟨2, 100, 2⟩⟩ := by decide +kernel
  exact tryMatch_order (fun a b h => allowedEloRange_mono a b 10 h) hpair

end ArenaGame.MatchQueue
