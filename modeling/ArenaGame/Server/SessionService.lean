import ArenaGame.Common.BinaryStream
import ArenaGame.Util.UnorderedMap

/-!
# Sessions (`server/game/SessionService.h`, `server/game/SessionService.cc`)

A session belongs to one connection and one user.  The structure carries that the two maps are
inverse to each other and that neither a connection nor a user is numbered 0, so that 0 can stand
for "no connection".
-/

namespace ArenaGame

structure PlayerSession where
  userId_ : UInt32 := 0
  userName_ : StdString := []
  elo_ : UInt32 := 1000
  roomId_ : UInt64 := 0
deriving DecidableEq

structure SessionService where
  sessionsByConnection_ : UnorderedMap UInt64 PlayerSession
  connectionByUserId_ : UnorderedMap UInt32 UInt64
  /-- The session of a connection is found again through its user. -/
  connection_of_session : ∀ {c s}, sessionsByConnection_.lookup c = some s →
    connectionByUserId_.lookup s.userId_ = some c
  /-- The connection of a user has a session of that user. -/
  session_of_connection : ∀ {u c}, connectionByUserId_.lookup u = some c →
    ∃ s, sessionsByConnection_.lookup c = some s ∧ s.userId_ = u
  connection_ne_zero : ∀ {c s}, sessionsByConnection_.lookup c = some s → c ≠ 0
  user_ne_zero : ∀ {c s}, sessionsByConnection_.lookup c = some s → s.userId_ ≠ 0

namespace SessionService

def empty : SessionService where
  sessionsByConnection_ := ∅
  connectionByUserId_ := ∅
  connection_of_session h := by simp at h
  session_of_connection h := by simp at h
  connection_ne_zero h := by simp at h
  user_ne_zero h := by simp at h

variable (s : SessionService)

/-- `findByConnection`; `none` is the null pointer. -/
def findByConnection (connectionId : UInt64) : Option PlayerSession :=
  s.sessionsByConnection_.lookup connectionId

def findConnectionByUserId (userId : UInt32) : UInt64 :=
  (s.connectionByUserId_.lookup userId).getD 0

def bind (connectionId : UInt64) (session : PlayerSession) : Bool × SessionService :=
  if h : connectionId = 0 ∨ session.userId_ = 0 ∨ connectionId ∈ s.sessionsByConnection_ ∨
      session.userId_ ∈ s.connectionByUserId_ then
    (false, s)
  else
    (true,
      { sessionsByConnection_ := s.sessionsByConnection_.insert connectionId session
        connectionByUserId_ := s.connectionByUserId_.insert session.userId_ connectionId
        connection_of_session := by
          intro c t hc
          rw [UnorderedMap.lookup_insert] at hc ⊢
          split at hc
          · rename_i hcc
            obtain rfl := Option.some.inj hc
            rw [if_pos rfl, hcc]
          · have hu := s.connection_of_session hc
            rw [if_neg, hu]
            intro heq
            rw [heq] at hu
            exact h (Or.inr (Or.inr (Or.inr (Finmap.mem_of_lookup_eq_some hu))))
        session_of_connection := by
          intro u c hu
          rw [UnorderedMap.lookup_insert] at hu
          split at hu
          · rename_i huu
            obtain rfl := Option.some.inj hu
            exact ⟨session, by rw [UnorderedMap.lookup_insert, if_pos rfl], huu.symm⟩
          · obtain ⟨t, ht, hut⟩ := s.session_of_connection hu
            refine ⟨t, ?_, hut⟩
            rw [UnorderedMap.lookup_insert, if_neg, ht]
            rintro rfl
            exact h (Or.inr (Or.inr (Or.inl (Finmap.mem_of_lookup_eq_some ht))))
        connection_ne_zero := by
          intro c t hc
          rw [UnorderedMap.lookup_insert] at hc
          split at hc
          · rename_i hcc
            exact fun h0 => h (Or.inl (hcc ▸ h0))
          · exact s.connection_ne_zero hc
        user_ne_zero := by
          intro c t hc
          rw [UnorderedMap.lookup_insert] at hc
          split at hc
          · obtain rfl := Option.some.inj hc
            exact fun h0 => h (Or.inr (Or.inl h0))
          · exact s.user_ne_zero hc })

/-- A session is erased with the entry of its user; the inner guard of the source always holds
here. -/
def remove (connectionId : UInt64) : SessionService :=
  match h : s.sessionsByConnection_.lookup connectionId with
  | none => s
  | some session =>
    { sessionsByConnection_ := s.sessionsByConnection_.erase connectionId
      connectionByUserId_ :=
        if s.connectionByUserId_.lookup session.userId_ = some connectionId then
          s.connectionByUserId_.erase session.userId_
        else s.connectionByUserId_
      connection_of_session := by
        intro c t hc
        rw [UnorderedMap.lookup_erase] at hc
        split at hc
        · cases hc
        · rename_i hne
          have hu := s.connection_of_session hc
          rw [if_pos (s.connection_of_session h), UnorderedMap.lookup_erase, if_neg, hu]
          intro heq
          rw [heq, s.connection_of_session h] at hu
          exact hne (Option.some.inj hu).symm
      session_of_connection := by
        intro u c hu
        rw [if_pos (s.connection_of_session h), UnorderedMap.lookup_erase] at hu
        split at hu
        · cases hu
        · rename_i hne
          obtain ⟨t, ht, hut⟩ := s.session_of_connection hu
          refine ⟨t, ?_, hut⟩
          rw [UnorderedMap.lookup_erase, if_neg, ht]
          rintro rfl
          rw [h, Option.some.injEq] at ht
          exact hne (ht ▸ hut.symm)
      connection_ne_zero := by
        intro c t hc
        rw [UnorderedMap.lookup_erase] at hc
        split at hc
        · cases hc
        · exact s.connection_ne_zero hc
      user_ne_zero := by
        intro c t hc
        rw [UnorderedMap.lookup_erase] at hc
        split at hc
        · cases hc
        · exact s.user_ne_zero hc }

/-- An assignment through the pointer that `findByConnection` returned; the user id is never
assigned. -/
def modify (connectionId : UInt64) (f : PlayerSession → PlayerSession)
    (hf : ∀ t, (f t).userId_ = t.userId_) : SessionService where
  sessionsByConnection_ := UnorderedMap.modify s.sessionsByConnection_ connectionId f
  connectionByUserId_ := s.connectionByUserId_
  connection_of_session := by
    intro c t hc
    rw [UnorderedMap.lookup_modify] at hc
    split at hc
    · rename_i hcc
      obtain ⟨t', ht', rfl⟩ := Option.map_eq_some_iff.mp hc
      rw [hf, hcc]
      exact s.connection_of_session ht'
    · exact s.connection_of_session hc
  session_of_connection := by
    intro u c hu
    obtain ⟨t, ht, hut⟩ := s.session_of_connection hu
    by_cases hcc : c = connectionId
    · refine ⟨f t, ?_, by rw [hf, hut]⟩
      rw [UnorderedMap.lookup_modify, if_pos hcc, ← hcc, ht]
      rfl
    · exact ⟨t, by rw [UnorderedMap.lookup_modify, if_neg hcc, ht], hut⟩
  connection_ne_zero := by
    intro c t hc
    rw [UnorderedMap.lookup_modify] at hc
    split at hc
    · rename_i hcc
      obtain ⟨t', ht', -⟩ := Option.map_eq_some_iff.mp hc
      exact hcc ▸ s.connection_ne_zero ht'
    · exact s.connection_ne_zero hc
  user_ne_zero := by
    intro c t hc
    rw [UnorderedMap.lookup_modify] at hc
    split at hc
    · obtain ⟨t', ht', rfl⟩ := Option.map_eq_some_iff.mp hc
      rw [hf]
      exact s.user_ne_zero ht'
    · exact s.user_ne_zero hc

/-- `session->roomId_ = roomId`. -/
def setRoom (connectionId roomId : UInt64) : SessionService :=
  s.modify connectionId (fun t => { t with roomId_ := roomId }) fun _ => rfl

/-- `session->elo_ = elo`. -/
def setElo (connectionId : UInt64) (elo : UInt32) : SessionService :=
  s.modify connectionId (fun t => { t with elo_ := elo }) fun _ => rfl

def markInRoom (userId : UInt32) (roomId : UInt64) : SessionService :=
  let connectionId := s.findConnectionByUserId userId
  if connectionId = 0 then s else s.setRoom connectionId roomId

def clearRoom (userId : UInt32) : SessionService :=
  let connectionId := s.findConnectionByUserId userId
  if connectionId = 0 then s else s.setRoom connectionId 0

end SessionService

end ArenaGame
