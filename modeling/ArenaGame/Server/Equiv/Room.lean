import ArenaGame.Server.Room
import Mathlib.Data.UInt

/-!
# What the room service does

`RoomService.Reachable n s` says that `s` results from operations of the service of which `n`
created a room.  While `n` stays below the range of the 64-bit counter, the stored room ids are
among the first `n` numbers and the next id is fresh (`Reachable.numbered`).
-/

namespace ArenaGame

open GameMessages (HeroType)

namespace Room

/-- The members of a room. -/
def users (room : Room) : List UInt32 := [room.firstUserId_, room.secondUserId_]

/-- Both members have chosen a hero. -/
def Selected (room : Room) : Prop := room.firstHero_ ≠ .kNone ∧ room.secondHero_ ≠ .kNone

instance decidableSelected (room : Room) : Decidable room.Selected :=
  inferInstanceAs (Decidable (_ ∧ _))

/-- A hero is selectable as soon as there is one. -/
def Selectable (room : Room) : Prop :=
  (room.firstHero_ ≠ .kNone → isSelectableHero room.firstHero_ = true) ∧
    (room.secondHero_ ≠ .kNone → isSelectableHero room.secondHero_ = true)

theorem mem_users {room : Room} {u : UInt32} :
    u ∈ room.users ↔ u = room.firstUserId_ ∨ u = room.secondUserId_ := by
  simp [users]

/-- The hero of a member. -/
def heroOf (room : Room) (u : UInt32) : HeroType :=
  if u = room.firstUserId_ then room.firstHero_ else room.secondHero_

theorem selected_iff {room : Room} (hm : room.Members) :
    room.Selected ↔ ∀ u ∈ room.users, room.heroOf u ≠ .kNone := by
  simp [Selected, users, heroOf, hm.first_ne_second.symm]

/-- A member has chosen a hero. -/
inductive Chosen (room : Room) (u : UInt32) (hero : HeroType) : Room → Prop
  | first : room.firstUserId_ = u → room.firstHero_ = .kNone →
      Chosen room u hero { room with firstHero_ := hero }
  | second : room.secondUserId_ = u → room.secondHero_ = .kNone →
      Chosen room u hero { room with secondHero_ := hero }

section Chosen

variable {room room' : Room} {u : UInt32} {hero : HeroType}

theorem Chosen.users_eq (h : room.Chosen u hero room') : room'.users = room.users := by
  cases h <;> rfl

theorem Chosen.roomId_eq (h : room.Chosen u hero room') : room'.roomId_ = room.roomId_ := by
  cases h <;> rfl

theorem Chosen.mem (h : room.Chosen u hero room') : u ∈ room.users := by
  cases h with
  | first hu => exact mem_users.mpr (Or.inl hu.symm)
  | second hu => exact mem_users.mpr (Or.inr hu.symm)

theorem Chosen.not_selected (h : room.Chosen u hero room') : ¬ room.Selected := by
  cases h with
  | first _ hnone => exact fun hsel => hsel.1 hnone
  | second _ hnone => exact fun hsel => hsel.2 hnone

theorem Chosen.selectable (h : room.Chosen u hero room') (hroom : room.Selectable)
    (hhero : isSelectableHero hero = true) : room'.Selectable := by
  cases h with
  | first => exact ⟨fun _ => hhero, hroom.2⟩
  | second => exact ⟨hroom.1, fun _ => hhero⟩

theorem Chosen.heroOf_eq (h : room.Chosen u hero room') (hm : room.Members) (v : UInt32)
    (hv : v ∈ room.users) : room'.heroOf v = if v = u then hero else room.heroOf v := by
  have hne := hm.first_ne_second
  rcases mem_users.mp hv with rfl | rfl
  · cases h with
    | first hu => simp [heroOf, hu]
    | second hu => simp [heroOf, ← hu, hne]
  · cases h with
    | first hu => simp [heroOf, ← hu, hne.symm]
    | second hu => simp [heroOf, ← hu, hne.symm]

theorem Chosen.heroOf_none (h : room.Chosen u hero room') (hm : room.Members) :
    room.heroOf u = .kNone := by
  have hne := hm.first_ne_second
  cases h with
  | first hu hnone => simp [heroOf, ← hu, hnone]
  | second hu hnone => simp [heroOf, ← hu, hne.symm, hnone]

end Chosen

end Room

namespace RoomService

variable {s : RoomService}

@[simp] theorem find_empty (r : UInt64) : empty.find r = none := rfl

theorem find_roomId {r : UInt64} {room : Room} (h : s.find r = some room) : room.roomId_ = r :=
  s.roomId_eq h

theorem find_members {r : UInt64} {room : Room} (h : s.find r = some room) : room.Members :=
  s.members h

/-- `create` refuses exactly a zero user and a user paired with himself. -/
abbrev Refused (firstUserId secondUserId : UInt32) : Prop :=
  firstUserId = 0 ∨ secondUserId = 0 ∨ firstUserId = secondUserId

theorem create_of_refused {u v : UInt32} (h : Refused u v) : s.create u v = (0, s) := dif_pos h

theorem create_fst {u v : UInt32} (h : ¬ Refused u v) : (s.create u v).1 = s.nextRoomId_ := by
  unfold create
  rw [dif_neg h]

theorem nextRoomId_create {u v : UInt32} (h : ¬ Refused u v) :
    (s.create u v).2.nextRoomId_ = s.nextRoomId_ + 1 := by
  unfold create
  rw [dif_neg h]

/-- A room that is stored under the next id already is not replaced. -/
theorem find_create {u v : UInt32} (h : ¬ Refused u v) (r : UInt64) :
    (s.create u v).2.find r =
      if r = s.nextRoomId_ ∧ s.find r = none then
        some { roomId_ := r, firstUserId_ := u, secondUserId_ := v }
      else s.find r := by
  unfold create
  rw [dif_neg h]
  show (UnorderedMap.emplace s.rooms_ s.nextRoomId_ _).lookup r = _
  cases hnext : s.find s.nextRoomId_ with
  | none =>
    rw [UnorderedMap.lookup_emplace_of_none _ hnext]
    by_cases hr : r = s.nextRoomId_
    · subst hr
      rw [if_pos rfl, if_pos ⟨rfl, hnext⟩]
    · rw [if_neg hr, if_neg fun hc => hr hc.1]
      rfl
  | some room =>
    rw [UnorderedMap.emplace, if_pos (Finmap.mem_of_lookup_eq_some hnext), if_neg]
    · rfl
    · rintro ⟨rfl, hnone⟩
      simp [hnext] at hnone

@[simp] theorem nextRoomId_remove (r : UInt64) : (s.remove r).nextRoomId_ = s.nextRoomId_ := rfl

@[simp] theorem find_remove (r r' : UInt64) :
    (s.remove r).find r' = if r' = r then none else s.find r' :=
  UnorderedMap.lookup_erase _ _ _

/-- What `selectHero` does, by cases: nothing, or one member's first choice of a hero. -/
inductive SelectCases (s : RoomService) (r : UInt64) (u : UInt32) (hero : HeroType) :
    Bool × RoomService → Prop
  | refused : (isSelectableHero hero = true → ∀ room, s.find r = some room → u ∈ room.users →
      room.heroOf u ≠ .kNone) → SelectCases s r u hero (false, s)
  | accepted {s' room room'} : s.find r = some room → isSelectableHero hero = true →
      room.Chosen u hero room' → s'.nextRoomId_ = s.nextRoomId_ →
      (∀ r', s'.find r' = if r' = r then some room' else s.find r') →
      SelectCases s r u hero (true, s')

theorem selectHero_cases (r : UInt64) (u : UInt32) (hero : HeroType) :
    SelectCases s r u hero (s.selectHero r u hero) := by
  unfold selectHero
  split
  · rename_i hsel
    exact .refused fun h => absurd h (by simpa using hsel)
  · rename_i hsel
    have hsel : isSelectableHero hero = true := by simpa using hsel
    split
    · rename_i hnone
      exact .refused fun _ room h => by cases h.symm.trans hnone
    · rename_i room hroom
      have hsame : ∀ {room'}, s.find r = some room' → room = room' := fun h =>
        Option.some.inj (hroom.symm.trans h)
      -- the user is compared with the first player before the second
      split
      · rename_i hu
        split
        · rename_i hhero
          refine .refused fun _ room' h _ => ?_
          rw [← hsame h, Room.heroOf, if_pos hu.symm]
          exact hhero
        · rename_i hhero
          exact .accepted hroom hsel (.first hu (not_not.mp hhero)) rfl fun r' =>
            UnorderedMap.lookup_insert _ _ _ _
      · rename_i hu₁
        split
        · rename_i hu
          split
          · rename_i hhero
            refine .refused fun _ room' h _ => ?_
            rw [← hsame h, Room.heroOf, if_neg (Ne.symm hu₁)]
            exact hhero
          · rename_i hhero
            exact .accepted hroom hsel (.second hu (not_not.mp hhero)) rfl fun r' =>
              UnorderedMap.lookup_insert _ _ _ _
        · rename_i hu₂
          refine .refused fun _ room' h hmem => ?_
          rw [← hsame h, Room.mem_users] at hmem
          exact absurd hmem (not_or.mpr ⟨Ne.symm hu₁, Ne.symm hu₂⟩)

theorem bothHeroesSelected_iff {r : UInt64} :
    s.bothHeroesSelected r = true ↔
      ∃ room, s.find r = some room ∧ room.firstHero_ ≠ .kNone ∧ room.secondHero_ ≠ .kNone := by
  unfold bothHeroesSelected
  cases s.find r with
  | none => simp
  | some room => simp

/-! ### The room counter -/

/-- The rooms are numbered with the first `n` numbers and the next id follows them. -/
structure Numbered (n : ℕ) (s : RoomService) : Prop where
  next : s.nextRoomId_.toNat = n + 1
  range : ∀ {r room}, s.find r = some room → 0 < r.toNat ∧ r.toNat ≤ n

theorem Numbered.find_next {n : ℕ} (h : Numbered n s) : s.find s.nextRoomId_ = none := by
  cases hr : s.find s.nextRoomId_ with
  | none => rfl
  | some room =>
    have := (h.range hr).2
    have := h.next
    omega

theorem Numbered.next_ne_zero {n : ℕ} (h : Numbered n s) : s.nextRoomId_ ≠ 0 := by
  intro h0
  have hnext := h.next
  rw [h0] at hnext
  simp at hnext

theorem Numbered.create {n : ℕ} (h : Numbered n s) (hn : n + 1 < 2 ^ 64 - 1) {u v : UInt32}
    (huv : ¬ Refused u v) : Numbered (n + 1) (s.create u v).2 := by
  have hnext := h.next
  refine ⟨?_, fun {r room} hr => ?_⟩
  · rw [nextRoomId_create huv, UInt64.toNat_add, hnext]
    exact Nat.mod_eq_of_lt (by simp only [UInt64.toNat_one]; omega)
  · rw [find_create huv] at hr
    split at hr
    · rename_i hc
      rw [hc.1, hnext]
      omega
    · have := h.range hr
      omega

/-- Operations that keep the counter and add no room keep the numbering. -/
theorem Numbered.of_find {n : ℕ} {s' : RoomService} (h : Numbered n s)
    (hnext : s'.nextRoomId_ = s.nextRoomId_)
    (hfind : ∀ {r room}, s'.find r = some room → ∃ room', s.find r = some room') :
    Numbered n s' := by
  refine ⟨by rw [hnext, h.next], fun hr => ?_⟩
  obtain ⟨room', hr'⟩ := hfind hr
  exact h.range hr'

theorem Numbered.remove {n : ℕ} (h : Numbered n s) (r : UInt64) : Numbered n (s.remove r) := by
  refine h.of_find rfl fun {r' room} hr => ?_
  rw [find_remove] at hr
  split at hr
  · cases hr
  · exact ⟨room, hr⟩

theorem Numbered.selectHero {n : ℕ} (h : Numbered n s) (r : UInt64) (u : UInt32)
    (hero : HeroType) : Numbered n (s.selectHero r u hero).2 := by
  rcases hsel : s.selectHero r u hero with ⟨ok, s'⟩
  have hcases := selectHero_cases (s := s) r u hero
  rw [hsel] at hcases
  cases hcases with
  | refused => exact h
  | accepted hroom _ _ hnext hfind =>
    refine h.of_find hnext fun {r' room''} hr' => ?_
    rw [hfind] at hr'
    split at hr'
    · rename_i hrr
      exact ⟨_, hrr ▸ hroom⟩
    · exact ⟨room'', hr'⟩

/-- The room services that operations lead to, with the number of rooms created on the way. -/
inductive Reachable : ℕ → RoomService → Prop
  | empty : Reachable 0 .empty
  | create {n s} (u v : UInt32) : Reachable n s →
      Reachable (if Refused u v then n else n + 1) (s.create u v).2
  | remove {n s} (r : UInt64) : Reachable n s → Reachable n (s.remove r)
  | selectHero {n s} (r : UInt64) (u : UInt32) (hero : HeroType) : Reachable n s →
      Reachable n (s.selectHero r u hero).2

theorem numbered_empty : Numbered 0 empty := ⟨rfl, fun h => by simp at h⟩

/-- The room ids are fresh until the counter wraps around. -/
theorem Reachable.numbered {n : ℕ} (h : Reachable n s) (hn : n < 2 ^ 64 - 1) : Numbered n s := by
  induction h with
  | empty => exact numbered_empty
  | create u v h ih =>
    split at hn
    · rename_i huv
      rw [if_pos huv, create_of_refused huv]
      exact ih hn
    · rename_i huv
      rw [if_neg huv]
      exact (ih (by omega)).create hn huv
  | remove r h ih => exact (ih hn).remove r
  | selectHero r u hero h ih => exact (ih hn).selectHero r u hero

end RoomService

end ArenaGame
