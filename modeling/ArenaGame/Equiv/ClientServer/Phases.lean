import ArenaGame.Common.Messages
import ArenaGame.Util.Dialogue

/-!
# What the server and one client have to say to each other

The phases of a client as the server sees them, with the messages that take it from one to the
next: the purpose of the protocol, not a translation of code.  A request is paired with the
`matchedRoomId_` at which it was sent.

`Standing` says which requests of a well-behaved client can be on the way to the server in a phase.
A hero or an attack can reach a room only if it was sent for this room, and it is the reason for
this: whatever was sent for an older room is before the next join request in the queue.
-/

namespace ArenaGame

open GameMessages

inductive Phase
  /-- Nobody is logged in. -/
  | out
  /-- Logged in, not queued and in no room. -/
  | idle
  | queued
  /-- In a room without a battle; `chosen` says whether the user has a hero. -/
  | room (r : UInt64) (chosen : Bool)
  /-- The battle has started, but its state has not been told yet. -/
  | started (r : UInt64)
  /-- In the battle that was last told as `n`. -/
  | battle (n : BattleStateNotification)

/-- A request with the room that its sender thought to be in. -/
abbrev RoomRequest := ClientRequest × UInt64

namespace Phase

inductive News : Phase → ServerMessage → Phase → Prop
  | found {n : MatchFoundNotification} : News queued (.matchFoundNtf n) (room n.roomId_ false)
  | closed {n : RoomClosedNotification} {chosen} :
      News (room n.roomId_ chosen) (.roomClosedNtf n) idle
  | started {n : BattleStartNotification} :
      News (room n.roomId_ true) (.battleStartNtf n) (started n.roomId_)
  | first {n : BattleStateNotification} : News (started n.roomId_) (.battleStateNtf n) (battle n)
  /-- The opponent strikes. -/
  | struck {n n' : BattleStateNotification} : n.playerTurn_ = false → n'.roomId_ = n.roomId_ →
      News (battle n) (.battleStateNtf n') (battle n')
  | result {n : BattleStateNotification} {m : BattleResultNotification} :
      m.roomId_ = n.roomId_ → News (battle n) (.battleResultNtf m) idle

inductive Answers : Phase → RoomRequest → Option ServerMessage → Phase → Prop
  | login {request r response} : response.success_ = true →
      Answers out (.loginReq request, r) (some (.loginRsp response)) idle
  | loginRefused {k request r response} : response.success_ = false →
      Answers k (.loginReq request, r) (some (.loginRsp response)) k
  | register {k request r response} :
      Answers k (.registerReq request, r) (some (.registerRsp response)) k
  | join {r response} : response.accepted_ = true →
      Answers idle (.matchJoinReq, r) (some (.matchJoinRsp response)) queued
  | joinRefused {k r response} : response.accepted_ = false →
      Answers k (.matchJoinReq, r) (some (.matchJoinRsp response)) k
  | cancel {r response} : response.accepted_ = true →
      Answers queued (.matchCancelReq, r) (some (.matchCancelRsp response)) idle
  | cancelRefused {k r response} : k ≠ queued → response.accepted_ = false →
      Answers k (.matchCancelReq, r) (some (.matchCancelRsp response)) k
  | hero {r r' request response} : response.accepted_ = true →
      Answers (room r false) (.heroSelectReq request, r') (some (.heroSelectRsp response))
        (room r true)
  | heroRefused {k r request response} : response.accepted_ = false →
      Answers k (.heroSelectReq request, r) (some (.heroSelectRsp response)) k
  /-- The turn is over. -/
  | attack {n n' : BattleStateNotification} {r} : n.playerTurn_ = true →
      n'.roomId_ = n.roomId_ → n'.playerTurn_ = false →
      Answers (battle n) (.battleAttackReq, r) (some (.battleStateNtf n')) (battle n')
  | attackIgnored {k r} : (∀ n, k = battle n → n.playerTurn_ = false) →
      Answers k (.battleAttackReq, r) none k

/-- The dialogue of one client with the server. -/
def dialogue : Dialogue Phase RoomRequest ServerMessage where
  News := News
  Answers := Answers

/-! ### The requests on the way -/

end Phase

/-- The request is about the game, not about an account. -/
def ClientRequest.isGame : ClientRequest → Bool
  | loginReq _ => false
  | registerReq _ => false
  | _ => true

theorem ClientRequest.fits_of_isGame {q : ClientRequest} (hq : q.isGame = true) : q.Fits := by
  cases q with
  | loginReq => cases hq
  | registerReq => cases hq
  | heroSelectReq request =>
    show WireFormat.Fits _ [.u8 request.heroType_.value]
    simp [WireField.Fits]
  | _ =>
    show WireFormat.Fits _ []
    simp

/-- The requests about the game. -/
def gameRequests (o : List RoomRequest) : List RoomRequest := o.filter fun q => q.1.isGame

theorem gameRequests_append (o o' : List RoomRequest) :
    gameRequests (o ++ o') = gameRequests o ++ gameRequests o' := List.filter_append ..

theorem gameRequests_account {q : RoomRequest} (hq : q.1.isGame = false) (o : List RoomRequest) :
    gameRequests (q :: o) = gameRequests o := List.filter_cons_of_neg (by simp [hq])

theorem gameRequests_game {q : RoomRequest} (hq : q.1.isGame = true) (o : List RoomRequest) :
    gameRequests (q :: o) = q :: gameRequests o := List.filter_cons_of_pos hq

theorem gameRequests_snoc {q : RoomRequest} (hq : q.1.isGame = true) (o : List RoomRequest) :
    gameRequests (o ++ [q]) = gameRequests o ++ [q] := by
  rw [gameRequests_append, gameRequests_game hq]
  rfl

namespace Phase

/-- The requests that can be on the way to the server in a phase. -/
def Standing : Phase → List RoomRequest → Prop
  | out, g => g = []
  -- a join request is the last
  | idle, g => g.Pairwise fun q _ => q.1 ≠ .matchJoinReq
  | queued, g => g = [] ∨ ∃ r, g = [(.matchCancelReq, r)]
  | room r false, g => ∃ cancels heroes, g = cancels ++ heroes ∧
      (cancels = [] ∨ ∃ r', cancels = [(.matchCancelReq, r')]) ∧
      (heroes = [] ∨ ∃ request, heroes = [(.heroSelectReq request, r)])
  | room _ true, g => g = []
  | started _, g => g = []
  | battle n, g => g = [] ∨ n.playerTurn_ = true ∧ g = [(.battleAttackReq, n.roomId_)]

theorem Standing.news {k k' : Phase} {m : ServerMessage} {g : List RoomRequest}
    (hm : News k m k') (h : Standing k g) : Standing k' g := by
  cases hm with
  | found =>
    exact ⟨g, [], (List.append_nil g).symm, h, Or.inl rfl⟩
  | @closed n chosen =>
    cases chosen with
    | true =>
      obtain rfl : g = [] := h
      exact List.Pairwise.nil
    | false =>
      obtain ⟨cancels, heroes, rfl, rfl | ⟨r', rfl⟩, rfl | ⟨request, rfl⟩⟩ := h <;>
        simp [Standing]
  | started => exact h
  | first => exact Or.inl h
  | struck hturn =>
    rcases h with rfl | ⟨hturn', -⟩
    · exact Or.inl rfl
    · cases hturn.symm.trans hturn'
  | result => rcases h with rfl | ⟨-, rfl⟩ <;> simp [Standing]

/-- Behind a join request nothing is on the way. -/
theorem Standing.join {k : Phase} {r : UInt64} {g : List RoomRequest}
    (h : Standing k ((.matchJoinReq, r) :: g)) : k = idle ∧ g = [] := by
  cases k with
  | idle =>
    refine ⟨rfl, List.eq_nil_iff_forall_not_mem.mpr fun q hq => ?_⟩
    exact (List.pairwise_cons.mp h).1 q hq rfl
  | room r' chosen =>
    cases chosen with
    | true => cases h
    | false =>
      obtain ⟨cancels, heroes, heq, rfl | ⟨r', rfl⟩, rfl | ⟨request, rfl⟩⟩ := h <;> simp at heq
  | _ => simp [Standing] at h

theorem Standing.cancel {k : Phase} {r : UInt64} {g : List RoomRequest}
    (h : Standing k ((.matchCancelReq, r) :: g)) : Standing k g ∧ (k = queued → g = []) := by
  cases k with
  | idle => exact ⟨(List.pairwise_cons.mp h).2, nofun⟩
  | queued =>
    obtain rfl : g = [] := by
      rcases h with h | ⟨r', h⟩
      · cases h
      · exact (List.cons.inj h).2
    exact ⟨Or.inl rfl, fun _ => rfl⟩
  | room r' chosen =>
    refine ⟨?_, nofun⟩
    cases chosen with
    | true => cases h
    | false =>
      obtain ⟨cancels, heroes, heq, rfl | ⟨r', rfl⟩, hheroes⟩ := h
      · rcases hheroes with rfl | ⟨request, rfl⟩ <;> simp at heq
      · exact ⟨[], heroes, (List.cons.inj heq).2, Or.inl rfl, hheroes⟩
  | _ => simp [Standing] at h

/-- A hero that reaches a room was chosen for this room. -/
theorem Standing.hero {k : Phase} {r : UInt64} {request : HeroSelectRequest} {g : List RoomRequest}
    (h : Standing k ((.heroSelectReq request, r) :: g)) :
    k = idle ∧ Standing idle g ∨ k = room r false ∧ g = [] := by
  cases k with
  | idle => exact Or.inl ⟨rfl, (List.pairwise_cons.mp h).2⟩
  | room r' chosen =>
    cases chosen with
    | true => cases h
    | false =>
      obtain ⟨cancels, heroes, heq, rfl | ⟨r'', rfl⟩, rfl | ⟨request', rfl⟩⟩ := h <;>
        simp at heq
      obtain ⟨⟨-, rfl⟩, rfl⟩ := heq
      exact Or.inr ⟨rfl, rfl⟩
  | _ => simp [Standing] at h

/-- An attack that reaches a battle was meant for this battle, and it is the turn of the attacker. -/
theorem Standing.attack {k : Phase} {r : UInt64} {g : List RoomRequest}
    (h : Standing k ((.battleAttackReq, r) :: g)) :
    k = idle ∧ Standing idle g ∨
      ∃ n, k = battle n ∧ n.playerTurn_ = true ∧ r = n.roomId_ ∧ g = [] := by
  cases k with
  | idle => exact Or.inl ⟨rfl, (List.pairwise_cons.mp h).2⟩
  | room r' chosen =>
    cases chosen with
    | true => cases h
    | false =>
      obtain ⟨cancels, heroes, heq, rfl | ⟨r'', rfl⟩, rfl | ⟨request', rfl⟩⟩ := h <;> simp at heq
  | battle n =>
    rcases h with h | ⟨hturn, h⟩
    · cases h
    · simp only [List.cons.injEq, Prod.mk.injEq, true_and] at h
      exact Or.inr ⟨n, rfl, hturn, h.1, h.2⟩
  | _ => simp [Standing] at h

theorem Standing.answers {k k' : Phase} {q : RoomRequest} {reply : Option ServerMessage}
    {o : List RoomRequest} (hq : Answers k q reply k') (h : Standing k (gameRequests (q :: o))) :
    Standing k' (gameRequests o) := by
  cases hq with
  | login =>
    have ho : gameRequests o = [] := h
    rw [ho]
    exact .nil
  | loginRefused => exact h
  | register => exact h
  | join => exact Or.inl (Standing.join h).2
  | joinRefused =>
    obtain ⟨rfl, ho⟩ : _ ∧ gameRequests o = [] := Standing.join h
    rw [ho]
    exact .nil
  | cancel =>
    have ho : gameRequests o = [] := (Standing.cancel h).2 rfl
    rw [ho]
    exact .nil
  | cancelRefused => exact (Standing.cancel h).1
  | hero =>
    rcases Standing.hero h with ⟨hk, -⟩ | ⟨-, ho⟩
    · cases hk
    · exact ho
  | heroRefused =>
    -- the room may be gone when the choice comes
    rcases Standing.hero h with ⟨rfl, hg⟩ | ⟨rfl, ho⟩
    · exact hg
    · exact ⟨[], [], ho, Or.inl rfl, Or.inl rfl⟩
  | attack =>
    rcases Standing.attack h with ⟨hk, -⟩ | ⟨n, -, -, -, ho⟩
    · cases hk
    · exact Or.inl ho
  | attackIgnored hturn =>
    rcases Standing.attack h with ⟨rfl, hg⟩ | ⟨n, rfl, hn, -⟩
    · exact hg
    · -- an attack in turn is not ignored
      cases (hturn n rfl).symm.trans hn

end Phase

end ArenaGame
