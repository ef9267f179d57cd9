import ArenaGame.Server.Room

/-!
# Battles (`server/game/BattleService.h`, `server/game/BattleService.cc`)

`BattleService` carries that a battle is stored under its own room id, between two distinct users
with heroes that do damage, and that it is the turn of one of the two until the battle is finished.
-/

namespace ArenaGame

open GameMessages (HeroType)

structure BattleState where
  roomId_ : UInt64 := 0
  firstUserId_ : UInt32 := 0
  secondUserId_ : UInt32 := 0
  firstHero_ : HeroType := .kNone
  secondHero_ : HeroType := .kNone
  firstHealth_ : UInt16 := 100
  secondHealth_ : UInt16 := 100
  activeUserId_ : UInt32 := 0
  finished_ : Bool := false
  winnerUserId_ : UInt32 := 0
deriving DecidableEq

structure BattleActionResult where
  accepted_ : Bool := false
  finished_ : Bool := false
  state_ : BattleState := {}
deriving DecidableEq

structure BattleEloResult where
  firstElo_ : UInt32 := 0
  secondElo_ : UInt32 := 0
deriving DecidableEq

def heroDamage (heroType : HeroType) : UInt16 :=
  if heroType = .kWarrior then 30
  else if heroType = .kMage then 25
  else if heroType = .kArcher then 20
  else 0

structure BattleState.Valid (state : BattleState) : Prop where
  room_ne_zero : state.roomId_ ≠ 0
  first_ne_zero : state.firstUserId_ ≠ 0
  second_ne_zero : state.secondUserId_ ≠ 0
  first_ne_second : state.firstUserId_ ≠ state.secondUserId_
  firstDamage_ne_zero : heroDamage state.firstHero_ ≠ 0
  secondDamage_ne_zero : heroDamage state.secondHero_ ≠ 0
  active : state.finished_ = false →
    state.activeUserId_ = state.firstUserId_ ∨ state.activeUserId_ = state.secondUserId_
  winner : state.finished_ = true →
    state.winnerUserId_ = state.firstUserId_ ∨ state.winnerUserId_ = state.secondUserId_

structure BattleService where
  battles_ : UnorderedMap UInt64 BattleState
  roomId_eq : ∀ {r state}, battles_.lookup r = some state → state.roomId_ = r
  valid : ∀ {r state}, battles_.lookup r = some state → state.Valid

namespace BattleService

def empty : BattleService where
  battles_ := ∅
  roomId_eq h := by simp at h
  valid h := by simp at h

variable (s : BattleService)

def find (roomId : UInt64) : Option BattleState := s.battles_.lookup roomId

/-- Store a battle under its room id. -/
def update (state : BattleState) (hv : state.Valid) : BattleService where
  battles_ := s.battles_.insert state.roomId_ state
  roomId_eq := by
    intro r state' hr
    rw [UnorderedMap.lookup_insert] at hr
    split at hr
    · rename_i hrr
      obtain rfl := Option.some.inj hr
      exact hrr.symm
    · exact s.roomId_eq hr
  valid := by
    intro r state' hr
    rw [UnorderedMap.lookup_insert] at hr
    split at hr
    · obtain rfl := Option.some.inj hr
      exact hv
    · exact s.valid hr

/-- `start`; the `emplace` of the source follows a look-up that found nothing. -/
def start (room : Room) : Bool × BattleService :=
  if h : room.roomId_ = 0 ∨ room.firstUserId_ = 0 ∨ room.secondUserId_ = 0 ∨
      room.firstUserId_ = room.secondUserId_ ∨ heroDamage room.firstHero_ = 0 ∨
      heroDamage room.secondHero_ = 0 ∨ room.roomId_ ∈ s.battles_ then
    (false, s)
  else
    (true, s.update
      { roomId_ := room.roomId_
        firstUserId_ := room.firstUserId_
        secondUserId_ := room.secondUserId_
        firstHero_ := room.firstHero_
        secondHero_ := room.secondHero_
        activeUserId_ := room.firstUserId_ }
      (by
        push Not at h
        exact ⟨h.1, h.2.1, h.2.2.1, h.2.2.2.1, h.2.2.2.2.1, h.2.2.2.2.2.1, fun _ => Or.inl rfl,
          nofun⟩))

def remove (roomId : UInt64) : BattleService where
  battles_ := s.battles_.erase roomId
  roomId_eq := by
    intro r state hr
    rw [UnorderedMap.lookup_erase] at hr
    split at hr
    · cases hr
    · exact s.roomId_eq hr
  valid := by
    intro r state hr
    rw [UnorderedMap.lookup_erase] at hr
    split at hr
    · cases hr
    · exact s.valid hr

end BattleService

/-- The blow of `attack`: the new health of the target, and whether it falls. -/
def strike (targetHealth damage : UInt16) : UInt16 × Bool :=
  if targetHealth ≤ damage then (0, true) else (targetHealth - damage, false)

namespace BattleState

/-- What `attack` does to a battle that it has found; `none` is a refusal. -/
def attack (state : BattleState) (userId : UInt32) : Option BattleState :=
  if state.finished_ ∨ state.activeUserId_ ≠ userId then none
  else if userId = state.firstUserId_ then
    let damage := heroDamage state.firstHero_
    if damage = 0 then none
    else
      let (health, fallen) := strike state.secondHealth_ damage
      if fallen then
        some { state with secondHealth_ := health, finished_ := true, winnerUserId_ := userId,
                          activeUserId_ := 0 }
      else some { state with secondHealth_ := health, activeUserId_ := state.secondUserId_ }
  else if userId = state.secondUserId_ then
    let damage := heroDamage state.secondHero_
    if damage = 0 then none
    else
      let (health, fallen) := strike state.firstHealth_ damage
      if fallen then
        some { state with firstHealth_ := health, finished_ := true, winnerUserId_ := userId,
                          activeUserId_ := 0 }
      else some { state with firstHealth_ := health, activeUserId_ := state.firstUserId_ }
  else none

/-- What `forfeit` does to a battle that it has found; `none` is a refusal. -/
def forfeit (state : BattleState) (userId : UInt32) : Option BattleState :=
  if state.finished_ ∨ (userId ≠ state.firstUserId_ ∧ userId ≠ state.secondUserId_) then none
  else
    some { state with
      finished_ := true
      winnerUserId_ :=
        if userId = state.firstUserId_ then state.secondUserId_ else state.firstUserId_
      activeUserId_ := 0 }

theorem attack_roomId {state state' : BattleState} {userId : UInt32}
    (h : state.attack userId = some state') : state'.roomId_ = state.roomId_ := by
  simp only [attack] at h
  split_ifs at h <;> simp only [Option.some.injEq] at h <;> subst h <;> rfl

theorem forfeit_roomId {state state' : BattleState} {userId : UInt32}
    (h : state.forfeit userId = some state') : state'.roomId_ = state.roomId_ := by
  simp only [forfeit] at h
  split_ifs at h <;> simp only [Option.some.injEq] at h <;> subst h <;> rfl

theorem Valid.attack {state state' : BattleState} {userId : UInt32} (hv : state.Valid)
    (h : state.attack userId = some state') : state'.Valid := by
  obtain ⟨h₁, h₂, h₃, h₄, h₅, h₆, -, -⟩ := hv
  simp only [BattleState.attack] at h
  split_ifs at h <;> simp only [Option.some.injEq] at h <;> subst h
  · exact ⟨h₁, h₂, h₃, h₄, h₅, h₆, nofun, fun _ => Or.inl ‹userId = state.firstUserId_›⟩
  · exact ⟨h₁, h₂, h₃, h₄, h₅, h₆, fun _ => Or.inr rfl, by simp_all⟩
  · exact ⟨h₁, h₂, h₃, h₄, h₅, h₆, nofun, fun _ => Or.inr ‹userId = state.secondUserId_›⟩
  · exact ⟨h₁, h₂, h₃, h₄, h₅, h₆, fun _ => Or.inl rfl, by simp_all⟩

theorem Valid.forfeit {state state' : BattleState} {userId : UInt32} (hv : state.Valid)
    (h : state.forfeit userId = some state') : state'.Valid := by
  obtain ⟨h₁, h₂, h₃, h₄, h₅, h₆, -, -⟩ := hv
  simp only [BattleState.forfeit] at h
  split_ifs at h <;> simp only [Option.some.injEq] at h <;> subst h
  · exact ⟨h₁, h₂, h₃, h₄, h₅, h₆, nofun, fun _ => Or.inr rfl⟩
  · exact ⟨h₁, h₂, h₃, h₄, h₅, h₆, nofun, fun _ => Or.inl rfl⟩

end BattleState

namespace BattleService

variable (s : BattleService)

def attack (roomId : UInt64) (userId : UInt32) : BattleActionResult × BattleService :=
  match h : s.battles_.lookup roomId with
  | none => ({}, s)
  | some state =>
    match h' : state.attack userId with
    | none => ({}, s)
    | some state' =>
      ({ accepted_ := true, finished_ := state'.finished_, state_ := state' },
        s.update state' ((s.valid h).attack h'))

def forfeit (roomId : UInt64) (userId : UInt32) : BattleActionResult × BattleService :=
  match h : s.battles_.lookup roomId with
  | none => ({}, s)
  | some state =>
    match h' : state.forfeit userId with
    | none => ({}, s)
    | some state' =>
      ({ accepted_ := true, finished_ := true, state_ := state' },
        s.update state' ((s.valid h).forfeit h'))

/-- The winner's ELO rises by 25 and stops at the largest 32-bit number, the loser's falls by 25
and stops at 0. -/
def calculateElo (state : BattleState) (firstElo secondElo : UInt32) : BattleEloResult :=
  let raised (elo : UInt32) : UInt32 :=
    if elo > 4294967295 - 25 then 4294967295 else elo + 25
  let lowered (elo : UInt32) : UInt32 := if elo ≥ 25 then elo - 25 else 0
  if state.winnerUserId_ = state.firstUserId_ then
    { firstElo_ := raised firstElo, secondElo_ := lowered secondElo }
  else if state.winnerUserId_ = state.secondUserId_ then
    { firstElo_ := lowered firstElo, secondElo_ := raised secondElo }
  else { firstElo_ := firstElo, secondElo_ := secondElo }

end BattleService

end ArenaGame
