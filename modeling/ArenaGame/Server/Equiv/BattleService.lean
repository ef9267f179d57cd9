import ArenaGame.Server.BattleService
import ArenaGame.Server.Equiv.Room

/-!
# What the battle service does

Each operation is described by the battle that `find` returns afterwards.  A blow is accepted
exactly when the battle goes on and it is the turn of the attacker.
-/

namespace ArenaGame

open GameMessages (HeroType)

namespace Room

/-- The battle of a room: the same members with the same heroes, and not finished. -/
structure Hosts (room : Room) (state : BattleState) : Prop where
  first : state.firstUserId_ = room.firstUserId_
  second : state.secondUserId_ = room.secondUserId_
  firstHero : state.firstHero_ = room.firstHero_
  secondHero : state.secondHero_ = room.secondHero_
  selected : room.Selected
  unfinished : state.finished_ = false

end Room

theorem heroDamage_ne_zero {hero : HeroType} (h : isSelectableHero hero = true) :
    heroDamage hero ≠ 0 := by
  simp only [isSelectableHero, decide_eq_true_eq] at h
  rcases h with rfl | rfl | rfl <;> decide

namespace BattleState

/-- The players of a battle. -/
def users (state : BattleState) : List UInt32 := [state.firstUserId_, state.secondUserId_]

theorem mem_users {state : BattleState} {u : UInt32} :
    u ∈ state.users ↔ u = state.firstUserId_ ∨ u = state.secondUserId_ := by
  simp [users]

theorem mem_users_of_hosts {state : BattleState} {room : Room} (h : room.Hosts state)
    {u : UInt32} : u ∈ state.users ↔ u ∈ room.users := by
  rw [mem_users, Room.mem_users, h.first, h.second]

/-- What an accepted blow changes. -/
structure Attacked (state : BattleState) (u : UInt32) (state' : BattleState) : Prop where
  unfinished : state.finished_ = false
  active : state.activeUserId_ = u
  roomId : state'.roomId_ = state.roomId_
  first : state'.firstUserId_ = state.firstUserId_
  second : state'.secondUserId_ = state.secondUserId_
  firstHero : state'.firstHero_ = state.firstHero_
  secondHero : state'.secondHero_ = state.secondHero_
  player : u ∈ state.users
  /-- The attacker wins, or it is the turn of the other player. -/
  turn : state'.finished_ = true ∧ state'.winnerUserId_ = u ∧ state'.activeUserId_ = 0 ∨
    state'.finished_ = false ∧ state'.activeUserId_ ∈ state.users ∧ state'.activeUserId_ ≠ u

theorem attack_spec {state state' : BattleState} {u : UInt32} (hv : state.Valid)
    (h : state.attack u = some state') : Attacked state u state' := by
  have hne := hv.first_ne_second
  simp only [attack] at h
  split_ifs at h with h₁ h₂ h₃ h₄ h₅ h₆ h₇ <;> simp only [Option.some.injEq] at h <;> subst h <;>
    push Not at h₁ <;> refine ⟨by simpa using h₁.1, h₁.2, rfl, rfl, rfl, rfl, rfl, ?_, ?_⟩
  · exact mem_users.mpr (Or.inl h₂)
  · exact Or.inl ⟨rfl, rfl, rfl⟩
  · exact mem_users.mpr (Or.inl h₂)
  · exact Or.inr ⟨by simpa using h₁.1, mem_users.mpr (Or.inr rfl), by rw [h₂]; exact hne.symm⟩
  · exact mem_users.mpr (Or.inr h₅)
  · exact Or.inl ⟨rfl, rfl, rfl⟩
  · exact mem_users.mpr (Or.inr h₅)
  · exact Or.inr ⟨by simpa using h₁.1, mem_users.mpr (Or.inl rfl), by rw [h₅]; exact hne⟩

/-- Nobody but the active player of a running battle can strike. -/
theorem attack_eq_none {state : BattleState} {u : UInt32} (hv : state.Valid)
    (h : state.attack u = none) : state.finished_ = true ∨ state.activeUserId_ ≠ u := by
  by_contra hcon
  push Not at hcon
  obtain ⟨hfin, rfl⟩ := hcon
  have hactive := hv.active (by simpa using hfin)
  simp only [attack] at h
  rw [if_neg (by simpa using hfin)] at h
  split_ifs at h with h₁ h₂ h₃ h₄ h₅
  · exact hv.firstDamage_ne_zero h₂
  · exact hv.secondDamage_ne_zero h₅
  · exact hactive.elim h₁ h₄

/-- What giving up changes. -/
structure Forfeited (state : BattleState) (u : UInt32) (state' : BattleState) : Prop where
  player : u ∈ state.users
  roomId : state'.roomId_ = state.roomId_
  first : state'.firstUserId_ = state.firstUserId_
  second : state'.secondUserId_ = state.secondUserId_
  finished : state'.finished_ = true
  winner : state'.winnerUserId_ ∈ state.users ∧ state'.winnerUserId_ ≠ u

theorem forfeit_spec {state state' : BattleState} {u : UInt32} (hv : state.Valid)
    (h : state.forfeit u = some state') : Forfeited state u state' := by
  have hne := hv.first_ne_second
  simp only [forfeit] at h
  split_ifs at h with h₁ <;> simp only [Option.some.injEq] at h <;> subst h
  · rename_i h₂
    exact ⟨mem_users.mpr (Or.inl h₂), rfl, rfl, rfl, rfl, mem_users.mpr (Or.inr rfl),
      by rw [h₂]; exact hne.symm⟩
  · rename_i h₂
    have hu : u = state.secondUserId_ := by tauto
    exact ⟨mem_users.mpr (Or.inr hu), rfl, rfl, rfl, rfl, mem_users.mpr (Or.inl rfl),
      by rw [hu]; exact hne⟩

theorem forfeit_eq_none {state : BattleState} {u : UInt32} (h : state.forfeit u = none) :
    state.finished_ = true ∨ u ∉ state.users := by
  simp only [forfeit] at h
  split_ifs at h with h₁
  rw [mem_users]
  tauto

end BattleState

namespace BattleService

variable {s : BattleService}

theorem find_roomId {r : UInt64} {state : BattleState} (h : s.find r = some state) :
    state.roomId_ = r := s.roomId_eq h

theorem find_valid {r : UInt64} {state : BattleState} (h : s.find r = some state) :
    state.Valid := s.valid h

@[simp] theorem find_update (state : BattleState) (hv : state.Valid) (r : UInt64) :
    (s.update state hv).find r = if r = state.roomId_ then some state else s.find r :=
  UnorderedMap.lookup_insert _ _ _ _

@[simp] theorem find_remove (r r' : UInt64) :
    (s.remove r).find r' = if r' = r then none else s.find r' :=
  UnorderedMap.lookup_erase _ _ _

/-- The battle that starts in a room. -/
def initialState (room : Room) : BattleState :=
  { roomId_ := room.roomId_, firstUserId_ := room.firstUserId_,
    secondUserId_ := room.secondUserId_, firstHero_ := room.firstHero_,
    secondHero_ := room.secondHero_, activeUserId_ := room.firstUserId_ }

theorem hosts_initialState {room : Room} (h : room.Selected) : room.Hosts (initialState room) :=
  ⟨rfl, rfl, rfl, rfl, h, rfl⟩

/-- A battle starts in a room with two members and two selectable heroes, unless it has one. -/
theorem start_spec {room : Room} (h0 : room.roomId_ ≠ 0) (hm : room.Members)
    (hsel : room.Selected) (hok : room.Selectable) (hnone : s.find room.roomId_ = none) :
    (s.start room).1 = true ∧ ∀ r, (s.start room).2.find r =
      if r = room.roomId_ then some (initialState room) else s.find r := by
  have hnot : ¬ (room.roomId_ = 0 ∨ room.firstUserId_ = 0 ∨ room.secondUserId_ = 0 ∨
      room.firstUserId_ = room.secondUserId_ ∨ heroDamage room.firstHero_ = 0 ∨
      heroDamage room.secondHero_ = 0 ∨ room.roomId_ ∈ s.battles_) := by
    push Not
    exact ⟨h0, hm.first_ne_zero, hm.second_ne_zero, hm.first_ne_second,
      heroDamage_ne_zero (hok.1 hsel.1), heroDamage_ne_zero (hok.2 hsel.2),
      Finmap.lookup_eq_none.mp hnone⟩
  unfold start
  rw [dif_neg hnot]
  exact ⟨rfl, fun r => UnorderedMap.lookup_insert _ _ _ _⟩

/-- What `attack` does, by cases. -/
inductive AttackCases (s : BattleService) (r : UInt64) (u : UInt32) :
    BattleActionResult × BattleService → Prop
  | refused : (∀ state, s.find r = some state → state.attack u = none) →
      AttackCases s r u ({}, s)
  | accepted {state state' s'} : s.find r = some state → state.attack u = some state' →
      (∀ r', s'.find r' = if r' = r then some state' else s.find r') →
      AttackCases s r u
        ({ accepted_ := true, finished_ := state'.finished_, state_ := state' }, s')

theorem attack_cases (r : UInt64) (u : UInt32) : AttackCases s r u (s.attack r u) := by
  unfold attack
  split
  · rename_i hnone
    exact .refused fun state h => by cases h.symm.trans hnone
  · rename_i state hstate
    split
    · rename_i hnone
      refine .refused fun state' h => ?_
      obtain rfl : state = state' := Option.some.inj (hstate.symm.trans h)
      exact hnone
    · rename_i state' hattack
      refine .accepted hstate hattack fun r' => ?_
      rw [find_update, BattleState.attack_roomId hattack, s.roomId_eq hstate]

/-- What `forfeit` does, by cases. -/
inductive ForfeitCases (s : BattleService) (r : UInt64) (u : UInt32) :
    BattleActionResult × BattleService → Prop
  | refused : (∀ state, s.find r = some state → state.forfeit u = none) →
      ForfeitCases s r u ({}, s)
  | accepted {state state' s'} : s.find r = some state → state.forfeit u = some state' →
      (∀ r', s'.find r' = if r' = r then some state' else s.find r') →
      ForfeitCases s r u ({ accepted_ := true, finished_ := true, state_ := state' }, s')

theorem forfeit_cases (r : UInt64) (u : UInt32) : ForfeitCases s r u (s.forfeit r u) := by
  unfold forfeit
  split
  · rename_i hnone
    exact .refused fun state h => by cases h.symm.trans hnone
  · rename_i state hstate
    split
    · rename_i hnone
      refine .refused fun state' h => ?_
      obtain rfl : state = state' := Option.some.inj (hstate.symm.trans h)
      exact hnone
    · rename_i state' hforfeit
      refine .accepted hstate hforfeit fun r' => ?_
      rw [find_update, BattleState.forfeit_roomId hforfeit, s.roomId_eq hstate]

end BattleService

end ArenaGame
