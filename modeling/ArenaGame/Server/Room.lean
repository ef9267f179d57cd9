import ArenaGame.Common.GameMessages
import ArenaGame.Util.UnorderedMap

/-!
# Rooms (`server/game/Room.h`, `server/game/Room.cc`)

`RoomService` carries that a room is stored under its own id and has two distinct members.
-/

namespace ArenaGame

open GameMessages (HeroType)

structure Room where
  roomId_ : UInt64 := 0
  firstUserId_ : UInt32 := 0
  secondUserId_ : UInt32 := 0
  firstHero_ : HeroType := .kNone
  secondHero_ : HeroType := .kNone
deriving DecidableEq

/-- The members of a room are two distinct users. -/
structure Room.Members (room : Room) : Prop where
  first_ne_zero : room.firstUserId_ ≠ 0
  second_ne_zero : room.secondUserId_ ≠ 0
  first_ne_second : room.firstUserId_ ≠ room.secondUserId_

def isSelectableHero (heroType : HeroType) : Bool :=
  heroType = .kWarrior ∨ heroType = .kMage ∨ heroType = .kArcher

structure RoomService where
  nextRoomId_ : UInt64
  rooms_ : UnorderedMap UInt64 Room
  roomId_eq : ∀ {r room}, rooms_.lookup r = some room → room.roomId_ = r
  members : ∀ {r room}, rooms_.lookup r = some room → room.Members

namespace RoomService

def empty : RoomService where
  nextRoomId_ := 1
  rooms_ := ∅
  roomId_eq h := by simp at h
  members h := by simp at h

variable (s : RoomService)

def find (roomId : UInt64) : Option Room := s.rooms_.lookup roomId

/-- `create`: the counter wraps around after the last 64-bit number. -/
def create (firstUserId secondUserId : UInt32) : UInt64 × RoomService :=
  if h : firstUserId = 0 ∨ secondUserId = 0 ∨ firstUserId = secondUserId then (0, s)
  else
    let roomId := s.nextRoomId_
    (roomId,
      { nextRoomId_ := s.nextRoomId_ + 1
        rooms_ := UnorderedMap.emplace s.rooms_ roomId
          { roomId_ := roomId, firstUserId_ := firstUserId, secondUserId_ := secondUserId }
        roomId_eq := by
          intro r room hr
          unfold UnorderedMap.emplace at hr
          split at hr
          · exact s.roomId_eq hr
          · rw [UnorderedMap.lookup_insert] at hr
            split at hr
            · rename_i hrr
              obtain rfl := Option.some.inj hr
              exact hrr.symm
            · exact s.roomId_eq hr
        members := by
          intro r room hr
          unfold UnorderedMap.emplace at hr
          split at hr
          · exact s.members hr
          · rw [UnorderedMap.lookup_insert] at hr
            split at hr
            · obtain rfl := Option.some.inj hr
              push Not at h
              exact ⟨h.1, h.2.1, h.2.2⟩
            · exact s.members hr })

/-- `remove`; the returned flag is used nowhere. -/
def remove (roomId : UInt64) : RoomService where
  nextRoomId_ := s.nextRoomId_
  rooms_ := s.rooms_.erase roomId
  roomId_eq := by
    intro r room hr
    rw [UnorderedMap.lookup_erase] at hr
    split at hr
    · cases hr
    · exact s.roomId_eq hr
  members := by
    intro r room hr
    rw [UnorderedMap.lookup_erase] at hr
    split at hr
    · cases hr
    · exact s.members hr

/-- `it->second = room` for a room that is stored, with its members unchanged. -/
def update (roomId : UInt64) (room : Room) (hid : room.roomId_ = roomId) (hm : room.Members) :
    RoomService where
  nextRoomId_ := s.nextRoomId_
  rooms_ := s.rooms_.insert roomId room
  roomId_eq := by
    intro r room' hr
    rw [UnorderedMap.lookup_insert] at hr
    split at hr
    · rename_i hrr
      obtain rfl := Option.some.inj hr
      exact hid.trans hrr.symm
    · exact s.roomId_eq hr
  members := by
    intro r room' hr
    rw [UnorderedMap.lookup_insert] at hr
    split at hr
    · obtain rfl := Option.some.inj hr
      exact hm
    · exact s.members hr

def selectHero (roomId : UInt64) (userId : UInt32) (heroType : HeroType) : Bool × RoomService :=
  if !isSelectableHero heroType then (false, s)
  else
    match h : s.rooms_.lookup roomId with
    | none => (false, s)
    | some room =>
      have hid := s.roomId_eq h
      have hm := s.members h
      if room.firstUserId_ = userId then
        if room.firstHero_ ≠ .kNone then (false, s)
        else
          (true, s.update roomId { room with firstHero_ := heroType } hid
            ⟨hm.1, hm.2, hm.3⟩)
      else if room.secondUserId_ = userId then
        if room.secondHero_ ≠ .kNone then (false, s)
        else
          (true, s.update roomId { room with secondHero_ := heroType } hid
            ⟨hm.1, hm.2, hm.3⟩)
      else (false, s)

def bothHeroesSelected (roomId : UInt64) : Bool :=
  match s.find roomId with
  | some room => room.firstHero_ ≠ .kNone ∧ room.secondHero_ ≠ .kNone
  | none => false

end RoomService

end ArenaGame
