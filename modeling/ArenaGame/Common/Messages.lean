import ArenaGame.Common.Equiv.GameMessages
import ArenaGame.Common.Framing

/-!
# Messages as frames

A `ServerMessage` is what the server has to say to a client, a `ClientRequest` what a client has to
say to the server: one of the structures of `GameMessages.h` together with the message type under
which it travels.  `frame` is its spelling.
-/

namespace ArenaGame

open GameProtocol GameMessages

inductive ServerMessage
  | loginRsp (response : LoginResponse)
  | registerRsp (response : RegisterResponse)
  | matchJoinRsp (response : MatchJoinResponse)
  | matchFoundNtf (notification : MatchFoundNotification)
  | matchCancelRsp (response : MatchCancelResponse)
  | heroSelectRsp (response : HeroSelectResponse)
  | battleStartNtf (notification : BattleStartNotification)
  | roomClosedNtf (notification : RoomClosedNotification)
  | battleStateNtf (notification : BattleStateNotification)
  | battleResultNtf (notification : BattleResultNotification)
deriving DecidableEq

inductive ClientRequest
  | loginReq (request : LoginRequest)
  | registerReq (request : RegisterRequest)
  | matchJoinReq
  | matchCancelReq
  | heroSelectReq (request : HeroSelectRequest)
  | battleAttackReq
deriving DecidableEq

namespace ServerMessage

def type : ServerMessage → MessageType
  | loginRsp _ => .loginResponse
  | registerRsp _ => .registerResponse
  | matchJoinRsp _ => .matchJoinResponse
  | matchFoundNtf _ => .matchFoundNotification
  | matchCancelRsp _ => .matchCancelResponse
  | heroSelectRsp _ => .heroSelectResponse
  | battleStartNtf _ => .battleStartNotification
  | roomClosedNtf _ => .roomClosedNotification
  | battleStateNtf _ => .battleStateNotification
  | battleResultNtf _ => .battleResultNotification

def value : (m : ServerMessage) → m.type.Value
  | loginRsp response => response
  | registerRsp response => response
  | matchJoinRsp response => response
  | matchFoundNtf notification => notification
  | matchCancelRsp response => response
  | heroSelectRsp response => response
  | battleStartNtf notification => notification
  | roomClosedNtf notification => notification
  | battleStateNtf notification => notification
  | battleResultNtf notification => notification

def msgType : ServerMessage → UInt16
  | loginRsp _ => MSG_LOGIN_RSP
  | registerRsp _ => MSG_REGISTER_RSP
  | matchJoinRsp _ => MSG_MATCH_JOIN_RSP
  | matchFoundNtf _ => MSG_MATCH_FOUND_NTF
  | matchCancelRsp _ => MSG_MATCH_CANCEL_RSP
  | heroSelectRsp _ => MSG_HERO_SELECT_RSP
  | battleStartNtf _ => MSG_BATTLE_START_NTF
  | roomClosedNtf _ => MSG_ROOM_CLOSED_NTF
  | battleStateNtf _ => MSG_BATTLE_STATE_NTF
  | battleResultNtf _ => MSG_BATTLE_RESULT_NTF

def frame (m : ServerMessage) : Frame := (m.msgType, m.type.bytes m.value)

def Fits (m : ServerMessage) : Prop := m.type.Fits m.value

end ServerMessage

namespace ClientRequest

def type : ClientRequest → MessageType
  | loginReq _ => .loginRequest
  | registerReq _ => .registerRequest
  | matchJoinReq => .matchJoinRequest
  | matchCancelReq => .matchCancelRequest
  | heroSelectReq _ => .heroSelectRequest
  | battleAttackReq => .battleAttackRequest

def value : (m : ClientRequest) → m.type.Value
  | loginReq request => request
  | registerReq request => request
  | matchJoinReq => ({} : MatchJoinRequest)
  | matchCancelReq => ({} : MatchCancelRequest)
  | heroSelectReq request => request
  | battleAttackReq => ({} : BattleAttackRequest)

def msgType : ClientRequest → UInt16
  | loginReq _ => MSG_LOGIN_REQ
  | registerReq _ => MSG_REGISTER_REQ
  | matchJoinReq => MSG_MATCH_JOIN_REQ
  | matchCancelReq => MSG_MATCH_CANCEL_REQ
  | heroSelectReq _ => MSG_HERO_SELECT_REQ
  | battleAttackReq => MSG_BATTLE_ATTACK_REQ

def frame (m : ClientRequest) : Frame := (m.msgType, m.type.bytes m.value)

def Fits (m : ClientRequest) : Prop := m.type.Fits m.value

end ClientRequest

/-! ### Sizes -/

/-- The texts of the source are short. -/
theorem fits_accepted {accepted : Bool} {errorCode : ErrorCode} {errorMessage : StdString}
    (h : errorMessage.length ≤ kMaxStringBytes) :
    WireFormat.Fits kMaxStringBytes
      (MessageType.acceptedWire accepted errorCode errorMessage) := by
  cases accepted <;> simp [MessageType.acceptedWire, WireField.Fits, h]

theorem ServerMessage.fits_matchJoinRsp {response : MatchJoinResponse}
    (h : response.errorMessage_.length ≤ kMaxStringBytes) : (matchJoinRsp response).Fits :=
  fits_accepted h

theorem ServerMessage.fits_matchCancelRsp {response : MatchCancelResponse}
    (h : response.errorMessage_.length ≤ kMaxStringBytes) : (matchCancelRsp response).Fits :=
  fits_accepted h

theorem ServerMessage.fits_heroSelectRsp {response : HeroSelectResponse}
    (h : response.errorMessage_.length ≤ kMaxStringBytes) : (heroSelectRsp response).Fits :=
  fits_accepted h

theorem ServerMessage.fits_loginRsp {response : LoginResponse}
    (hname : response.userName_.length ≤ kMaxStringBytes)
    (h : response.errorMessage_.length ≤ kMaxStringBytes) : (loginRsp response).Fits := by
  show WireFormat.Fits _ (MessageType.wire .loginResponse response)
  cases hs : response.success_ <;>
    simp [MessageType.wire, WireField.Fits, hs, h, hname]

theorem ServerMessage.fits_registerRsp {response : RegisterResponse}
    (hname : response.userName_.length ≤ kMaxStringBytes)
    (h : response.errorMessage_.length ≤ kMaxStringBytes) : (registerRsp response).Fits := by
  show WireFormat.Fits _ (MessageType.wire .registerResponse response)
  cases hs : response.success_ <;>
    simp [MessageType.wire, WireField.Fits, hs, h, hname]

theorem ServerMessage.fits_matchFoundNtf {notification : MatchFoundNotification}
    (h : notification.opponentUserName_.length ≤ kMaxStringBytes) :
    (matchFoundNtf notification).Fits := by
  show WireFormat.Fits _ (MessageType.wire .matchFoundNotification notification)
  simp [MessageType.wire, WireField.Fits, h]

theorem ServerMessage.fits_roomClosedNtf {notification : RoomClosedNotification}
    (h : notification.reason_.length ≤ kMaxStringBytes) :
    (roomClosedNtf notification).Fits := by
  show WireFormat.Fits _ (MessageType.wire .roomClosedNotification notification)
  simp [MessageType.wire, WireField.Fits, h]

theorem ServerMessage.fits_battleStartNtf (notification : BattleStartNotification) :
    (battleStartNtf notification).Fits := by
  show WireFormat.Fits _ (MessageType.wire .battleStartNotification notification)
  simp [MessageType.wire, WireField.Fits]

theorem ServerMessage.fits_battleStateNtf (notification : BattleStateNotification) :
    (battleStateNtf notification).Fits := by
  show WireFormat.Fits _ (MessageType.wire .battleStateNotification notification)
  simp [MessageType.wire, WireField.Fits]

theorem ServerMessage.fits_battleResultNtf (notification : BattleResultNotification) :
    (battleResultNtf notification).Fits := by
  show WireFormat.Fits _ (MessageType.wire .battleResultNotification notification)
  simp [MessageType.wire, WireField.Fits]

end ArenaGame
