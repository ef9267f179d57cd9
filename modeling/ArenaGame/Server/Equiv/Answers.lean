import ArenaGame.Server.Equiv.Step

/-!
# Requests and their answers

A request to log in, to register, to join or to leave the queue or to select a hero is answered; a
heartbeat and an attack are not, and nothing else that the server sends is an answer.  So the
answers that a connection gets correspond to its requests one by one (`answers_eq_due`), and
whatever it gets is a message in its proper form.
-/

namespace ArenaGame

open GameProtocol GameServer SessionService

/-- The frames that a connection has handed to the game. -/
def framesFrom (c : UInt64) (events : List Event) : List Frame :=
  events.filterMap fun
    | .message c' frame _ _ => if c' = c then some frame else none
    | _ => none

theorem framesFrom_append (c : UInt64) (es es' : List Event) :
    framesFrom c (es ++ es') = framesFrom c es ++ framesFrom c es' := List.filterMap_append

theorem framesFrom_message_self (c : UInt64) (frame : Frame) (now : MatchTimePoint) (io : SaveIO) :
    framesFrom c [.message c frame now io] = [frame] := by
  unfold framesFrom
  simp

theorem framesFrom_message_of_ne {c c' : UInt64} (h : c ≠ c') (frame : Frame) (now : MatchTimePoint)
    (io : SaveIO) : framesFrom c' [.message c frame now io] = [] := by
  unfold framesFrom
  simp [h]

/-! ### What is an answer to what -/

/-- The type of the answer to a request of a type, if it is answered. -/
def answerType (msgType : UInt16) : Option UInt16 :=
  if msgType = MSG_LOGIN_REQ then some MSG_LOGIN_RSP
  else if msgType = MSG_REGISTER_REQ then some MSG_REGISTER_RSP
  else if msgType = MSG_MATCH_JOIN_REQ then some MSG_MATCH_JOIN_RSP
  else if msgType = MSG_MATCH_CANCEL_REQ then some MSG_MATCH_CANCEL_RSP
  else if msgType = MSG_HERO_SELECT_REQ then some MSG_HERO_SELECT_RSP
  else none

def isAnswer (msgType : UInt16) : Bool :=
  msgType ∈ [MSG_LOGIN_RSP, MSG_REGISTER_RSP, MSG_MATCH_JOIN_RSP, MSG_MATCH_CANCEL_RSP,
    MSG_HERO_SELECT_RSP]

/-- The types of the answers that are due for some frames of a client. -/
def answersDue (frames : List Frame) : List UInt16 :=
  frames.filterMap fun frame => answerType frame.1

/-- The types of the answers among some frames of the server. -/
def answersAmong (frames : List Frame) : List UInt16 := (frames.map Prod.fst).filter isAnswer

theorem answersDue_append (frames frames' : List Frame) :
    answersDue (frames ++ frames') = answersDue frames ++ answersDue frames' :=
  List.filterMap_append

theorem answersAmong_append (frames frames' : List Frame) :
    answersAmong (frames ++ frames') = answersAmong frames ++ answersAmong frames' := by
  unfold answersAmong
  rw [List.map_append, List.filter_append]

theorem isAnswer_of_answerType {request answer : UInt16} (h : answerType request = some answer) :
    isAnswer answer = true := by
  unfold answerType at h
  split_ifs at h <;> obtain rfl := Option.some.inj h <;> decide

/-- The frame of a message that fits. -/
def Proper (frame : Frame) : Prop := ∃ m : ServerMessage, m.Fits ∧ frame = m.frame

/-- An effect that brings news at most. -/
def Effect.News : Effect → Prop
  | send _ frame => Proper frame ∧ isAnswer frame.1 = false
  | _ => True

theorem answersAmong_of_news {o : List Effect} (h : ∀ effect ∈ o, effect.News) (c : UInt64) :
    answersAmong (framesTo c o) = [] ∧ ∀ frame ∈ framesTo c o, Proper frame := by
  induction o with
  | nil => exact ⟨rfl, nofun⟩
  | cons effect o ih =>
    have hrest := ih fun effect hmem => h effect (List.mem_cons_of_mem _ hmem)
    cases effect with
    | send c' frame =>
      obtain ⟨hproper, hnews⟩ := h _ List.mem_cons_self
      rw [framesTo_send]
      split
      · refine ⟨?_, List.forall_mem_cons.mpr ⟨hproper, hrest.2⟩⟩
        unfold answersAmong
        rw [List.map_cons, List.filter_cons_of_neg (by rw [hnews]; decide)]
        exact hrest.1
      · exact hrest
    | shutdown _ => exact hrest
    | matchFound _ => exact hrest
    | startBattle _ => exact hrest
    | finishBattle _ _ _ => exact hrest

namespace GameServer

variable {range : MatchTicket → MatchTimePoint → ℚ} {srv : GameServer}

/-! ### News -/

theorem news_tell {m : ServerMessage} (hfits : m.Fits) (hnews : isAnswer m.msgType = false)
    (u : UInt32) : (srv.tell u m).News := ⟨⟨m, hfits, rfl⟩, hnews⟩

theorem news_tellBoth {m : UInt32 → ServerMessage} (hfits : ∀ w, (m w).Fits)
    (hnews : ∀ w, isAnswer (m w).msgType = false) (u v : UInt32) :
    ∀ effect ∈ srv.tellBoth u v m, effect.News :=
  List.forall_mem_cons.mpr ⟨news_tell (hfits u) (hnews u) u,
    List.forall_mem_singleton.mpr (news_tell (hfits v) (hnews v) v)⟩

theorem news_states (state : BattleState) (u v : UInt32) :
    ∀ effect ∈ srv.tellBoth u v fun w => .battleStateNtf (state.stateFor w), effect.News :=
  news_tellBoth (fun _ => ServerMessage.fits_battleStateNtf _) (fun _ => by rfl) u v

theorem news_results (state : BattleState) (e₁ e₂ u v : UInt32) :
    ∀ effect ∈ srv.tellBoth u v (resultsFor state e₁ e₂), effect.News :=
  news_tellBoth (fun _ => ServerMessage.fits_battleResultNtf _) (fun _ => by rfl) u v

theorem Coherent.news_found (h : Coherent srv) (event : MatchFoundEvent) :
    ∀ effect ∈ srv.tellFound event, effect.News := by
  have hfits : ∀ {u t}, srv.sessionService_.sessionOf u = some t →
      (foundFor event.roomId_ t).Fits := fun ht =>
    ServerMessage.fits_matchFoundNtf ((h.name_le ht).trans (by decide))
  unfold tellFound
  split
  · rename_i t₁ t₂ h₁ h₂
    exact List.forall_mem_cons.mpr ⟨news_tell (hfits h₂) rfl _,
      List.forall_mem_singleton.mpr (news_tell (hfits h₁) rfl _)⟩
  · exact nofun

/-! ### One event -/

/-- The effects of an event: the answer, if one is due, and then news. -/
inductive Answered : Event → List Effect → Prop
  | unasked {event : Event} {o : List Effect} : (∀ c, answersDue (framesFrom c [event]) = []) →
      (∀ effect ∈ o, effect.News) → Answered event o
  | asked {c : UInt64} {frame : Frame} {now : MatchTimePoint} {io : SaveIO} {m : ServerMessage}
      {o : List Effect} : m.Fits → answerType frame.1 = some m.msgType →
      (∀ effect ∈ o, effect.News) → Answered (.message c frame now io) (.send c m.frame :: o)

theorem Answered.answers {event : Event} {o : List Effect} (h : Answered event o) (c : UInt64) :
    answersAmong (framesTo c o) = answersDue (framesFrom c [event]) ∧
      ∀ frame ∈ framesTo c o, Proper frame := by
  cases h with
  | unasked hnone hnews =>
    obtain ⟨hanswers, hproper⟩ := answersAmong_of_news hnews c
    exact ⟨hanswers.trans (hnone c).symm, hproper⟩
  | @asked c' frame now io m o hfits htype hnews =>
    obtain ⟨hanswers, hproper⟩ := answersAmong_of_news hnews c
    rw [framesTo_send]
    split
    · rename_i heq
      refine ⟨?_, List.forall_mem_cons.mpr ⟨⟨m, hfits, rfl⟩, hproper⟩⟩
      have hdue : answersDue [frame] = [m.msgType] := by
        unfold answersDue
        simp only [List.filterMap_cons, htype, List.filterMap_nil]
      rw [heq, framesFrom_message_self, hdue, ← List.singleton_append, answersAmong_append,
        hanswers, List.append_nil]
      unfold answersAmong
      exact List.filter_cons_of_pos (isAnswer_of_answerType htype)
    · rename_i hne
      rw [framesFrom_message_of_ne hne]
      exact ⟨hanswers, hproper⟩

/-- A message of a type that is not answered. -/
theorem Answered.of_unanswered {c : UInt64} {frame : Frame} {now : MatchTimePoint} {io : SaveIO}
    {o : List Effect} (htype : answerType frame.1 = none) (hnews : ∀ effect ∈ o, effect.News) :
    Answered (.message c frame now io) o := by
  refine .unasked (fun c' => ?_) hnews
  by_cases heq : c = c'
  · rw [heq, framesFrom_message_self]
    exact List.filterMap_cons_none htype
  · rw [framesFrom_message_of_ne heq]
    rfl

theorem Outcome.answered (h : Coherent srv) {event : Event} {next : GameServer × List Effect}
    (hnext : Outcome range srv event next) : Answered event next.2 := by
  cases hnext with
  | opened => exact .unasked (fun _ => rfl) nofun
  | @ignored c frame now io hother =>
    refine .of_unanswered ?_ nofun
    unfold answerType
    simp only [List.mem_cons, not_or] at hother
    simp only [hother, if_false]
  | login hlogin =>
    cases hlogin with
    | refused hno hfits => exact .asked hfits rfl nofun
    | @accepted name record hrecord hbound =>
      have hname := AccountRepository.length_le_of_isValidInput record.valid
      exact .asked (ServerMessage.fits_loginRsp (hname.trans (by decide)) (Nat.zero_le _)) rfl nofun
  | register hregister =>
    cases hregister with
    | answered hfits hrepo => exact .asked hfits rfl nofun
  | join hjoin =>
    cases hjoin with
    | refused hno hfits => exact .asked hfits rfl nofun
    | accepted => exact .asked (ServerMessage.fits_matchJoinRsp (Nat.zero_le _)) rfl nofun
  | cancel hcancel =>
    cases hcancel with
    | refused hno hfits => exact .asked hfits rfl nofun
    | accepted => exact .asked (ServerMessage.fits_matchCancelRsp (Nat.zero_le _)) rfl nofun
  | hero hhero =>
    cases hhero with
    | refused hno hfits => exact .asked hfits rfl nofun
    | waiting => exact .asked (ServerMessage.fits_heroSelectRsp (Nat.zero_le _)) rfl nofun
    | started =>
      refine .asked (ServerMessage.fits_heroSelectRsp (Nat.zero_le _)) rfl
        (List.forall_mem_cons.mpr ⟨trivial, List.forall_mem_append.mpr ⟨?_, news_states _ _ _⟩⟩)
      exact news_tellBoth (fun _ => ServerMessage.fits_battleStartNtf _) (fun _ => by rfl) _ _
  | attack hattack =>
    refine .of_unanswered (by rfl) ?_
    cases hattack with
    | refused => nofun
    | hit => exact news_states _ _ _
    | felled =>
      exact List.forall_mem_append.mpr ⟨news_states _ _ _,
        List.forall_mem_cons.mpr ⟨trivial, news_results _ _ _ _ _⟩⟩
  | tick htick =>
    obtain ⟨hrounds⟩ := htick
    refine .unasked (fun _ => rfl) fun effect hmem => ?_
    obtain ⟨event, -, hmem⟩ := List.mem_flatMap.mp hmem
    rcases List.mem_cons.mp hmem with rfl | hmem
    · trivial
    · exact h.news_found event effect hmem
  | closed hclose =>
    refine .unasked (fun _ => rfl) ?_
    cases hclose with
    | free => exact nofun
    | left =>
      exact List.forall_mem_singleton.mpr
        (news_tell (ServerMessage.fits_roomClosedNtf (by dsimp only; decide)) rfl _)
    | forfeited => exact List.forall_mem_cons.mpr ⟨trivial, news_results _ _ _ _ _⟩

/-! ### Every run -/

/-- A connection gets the answers that are due to it, in the order of its requests, and every frame
that it gets is that of a message. -/
theorem answers_eq_due {file : Option (List UInt8)} (h : init file = some srv) {events : List Event}
    (hrun : (machine range).CanRun srv events) (c : UInt64) :
    let sent := framesTo c ((machine range).run srv events).2
    answersAmong sent = answersDue (framesFrom c events) ∧ ∀ frame ∈ sent, Proper frame := by
  intro sent
  have hco := coherent_init h
  clear h
  induction events generalizing srv with
  | nil => exact ⟨rfl, fun _ hmem => absurd hmem List.not_mem_nil⟩
  | cons event events ih =>
    obtain ⟨hpossible, hrest⟩ := hrun
    obtain ⟨hanswers, hproper⟩ := ((step_outcome range hco hpossible).answered hco).answers c
    obtain ⟨hanswers', hproper'⟩ := ih hrest (hco.step range hpossible)
    have hsent : sent = framesTo c (srv.step range event).2 ++
        framesTo c ((machine range).run (srv.step range event).1 events).2 := framesTo_append c _ _
    rw [hsent]
    refine ⟨?_, List.forall_mem_append.mpr ⟨hproper, hproper'⟩⟩
    rw [answersAmong_append, ← List.singleton_append, framesFrom_append, answersDue_append]
    exact congrArg₂ (· ++ ·) hanswers hanswers'

end GameServer

end ArenaGame
