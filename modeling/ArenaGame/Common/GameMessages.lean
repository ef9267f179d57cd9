import ArenaGame.Common.BinaryStream

/-!
# Messages (`common/GameMessages.h`)

The sixteen message structures with their `encode` and `decode`.  `encode` writes to a
`BinaryWriter` and returns whether it succeeded.  `decode` overwrites fields of the value it is
given, as the source overwrites its reference argument; a failed `decode` is `none`.

Both enumerations have a fixed underlying type, so a value decoded from the wire may be none of
the named ones: they are wrapped integers with named constants.

`MessageType` names the sixteen types, so that statements can quantify over all of them.
-/

namespace ArenaGame.GameMessages

open BinaryWriter BinaryReader

structure ErrorCode where
  value : UInt16
deriving DecidableEq, Repr

namespace ErrorCode

def kNone : ErrorCode := ⟨0⟩
def kMalformedPayload : ErrorCode := ⟨1⟩
def kInvalidCredentials : ErrorCode := ⟨2⟩
def kDuplicateUserName : ErrorCode := ⟨3⟩
def kNotAuthenticated : ErrorCode := ⟨4⟩
def kInvalidState : ErrorCode := ⟨5⟩
def kInvalidCommand : ErrorCode := ⟨6⟩
def kInternalError : ErrorCode := ⟨7⟩

end ErrorCode

structure HeroType where
  value : UInt8
deriving DecidableEq, Repr

namespace HeroType

def kNone : HeroType := ⟨0⟩
def kWarrior : HeroType := ⟨1⟩
def kMage : HeroType := ⟨2⟩
def kArcher : HeroType := ⟨3⟩

end HeroType

structure LoginRequest where
  userName_ : StdString := []
  password_ : StdString := []
deriving DecidableEq

structure RegisterRequest where
  userName_ : StdString := []
  password_ : StdString := []
deriving DecidableEq

structure LoginResponse where
  success_ : Bool := false
  userId_ : UInt32 := 0
  elo_ : UInt32 := 0
  userName_ : StdString := []
  errorCode_ : ErrorCode := .kNone
  errorMessage_ : StdString := []
deriving DecidableEq

structure RegisterResponse where
  success_ : Bool := false
  userId_ : UInt32 := 0
  userName_ : StdString := []
  errorCode_ : ErrorCode := .kNone
  errorMessage_ : StdString := []
deriving DecidableEq

structure MatchFoundNotification where
  roomId_ : UInt64 := 0
  opponentUserId_ : UInt32 := 0
  opponentUserName_ : StdString := []
  opponentElo_ : UInt32 := 0
deriving DecidableEq

structure MatchJoinResponse where
  accepted_ : Bool := false
  errorCode_ : ErrorCode := .kNone
  errorMessage_ : StdString := []
deriving DecidableEq

structure MatchJoinRequest where
deriving DecidableEq

structure MatchCancelRequest where
deriving DecidableEq

structure MatchCancelResponse where
  accepted_ : Bool := false
  errorCode_ : ErrorCode := .kNone
  errorMessage_ : StdString := []
deriving DecidableEq

structure HeroSelectRequest where
  heroType_ : HeroType := .kNone
deriving DecidableEq

structure HeroSelectResponse where
  accepted_ : Bool := false
  errorCode_ : ErrorCode := .kNone
  errorMessage_ : StdString := []
deriving DecidableEq

structure BattleStartNotification where
  roomId_ : UInt64 := 0
  playerHero_ : HeroType := .kNone
  opponentHero_ : HeroType := .kNone
deriving DecidableEq

structure BattleAttackRequest where
deriving DecidableEq

structure BattleStateNotification where
  roomId_ : UInt64 := 0
  playerHealth_ : UInt16 := 0
  opponentHealth_ : UInt16 := 0
  playerTurn_ : Bool := false
deriving DecidableEq

structure BattleResultNotification where
  roomId_ : UInt64 := 0
  won_ : Bool := false
  playerElo_ : UInt32 := 0
deriving DecidableEq

structure RoomClosedNotification where
  roomId_ : UInt64 := 0
  reason_ : StdString := []
deriving DecidableEq

/-- `value ? 1 : 0`. -/
def flag (value : Bool) : UInt8 := if value then 1 else 0

/-! ### Credentials -/

/-- The shared body of the two credential requests: two strings. -/
def encodeCredentials (userName password : StdString) : Write Bool :=
  writeString userName <&&> writeString password

/-- The shared body of the two credential requests: two strings and nothing more. -/
def decodeCredentials : Read (StdString × StdString) := do
  let userName ← readString
  let password ← readString
  guard (← eof)
  return (userName, password)

def LoginRequest.encode (value : LoginRequest) : Write Bool :=
  encodeCredentials value.userName_ value.password_

def LoginRequest.decode (value : LoginRequest) : Read LoginRequest := do
  let (userName, password) ← decodeCredentials
  return { value with userName_ := userName, password_ := password }

def RegisterRequest.encode (value : RegisterRequest) : Write Bool :=
  encodeCredentials value.userName_ value.password_

def RegisterRequest.decode (value : RegisterRequest) : Read RegisterRequest := do
  let (userName, password) ← decodeCredentials
  return { value with userName_ := userName, password_ := password }

/-! ### Login and registration answers

Their decoders take any nonzero byte for `true`, unlike every decoder below. -/

def LoginResponse.encode (value : LoginResponse) : Write Bool := do
  writeU8 (flag value.success_)
  if value.success_ then
    writeU32 value.userId_
    writeU32 value.elo_
    writeString value.userName_
  else
    writeU16 value.errorCode_.value
    writeString value.errorMessage_

def LoginResponse.decode (value : LoginResponse) : Read LoginResponse := do
  let success ← readU8
  if success ≠ 0 then
    let userId ← readU32
    let elo ← readU32
    let userName ← readString
    guard (← eof)
    return { value with success_ := true, userId_ := userId, elo_ := elo, userName_ := userName }
  else
    let errorCode ← readU16
    let errorMessage ← readString
    guard (← eof)
    return { value with success_ := false, errorCode_ := ⟨errorCode⟩,
                        errorMessage_ := errorMessage }

def RegisterResponse.encode (value : RegisterResponse) : Write Bool := do
  writeU8 (flag value.success_)
  if value.success_ then
    writeU32 value.userId_
    writeString value.userName_
  else
    writeU16 value.errorCode_.value
    writeString value.errorMessage_

def RegisterResponse.decode (value : RegisterResponse) : Read RegisterResponse := do
  let success ← readU8
  if success ≠ 0 then
    let userId ← readU32
    let userName ← readString
    guard (← eof)
    return { value with success_ := true, userId_ := userId, userName_ := userName }
  else
    let errorCode ← readU16
    let errorMessage ← readString
    guard (← eof)
    return { value with success_ := false, errorCode_ := ⟨errorCode⟩,
                        errorMessage_ := errorMessage }

/-! ### Matchmaking and rooms -/

def MatchFoundNotification.encode (value : MatchFoundNotification) : Write Bool := do
  writeU64 value.roomId_
  writeU32 value.opponentUserId_
  if !(← writeString value.opponentUserName_) then
    return false
  writeU32 value.opponentElo_
  return true

def MatchFoundNotification.decode (value : MatchFoundNotification) :
    Read MatchFoundNotification := do
  let roomId ← readU64
  let opponentUserId ← readU32
  let opponentUserName ← readString
  let opponentElo ← readU32
  guard (← eof)
  return { value with roomId_ := roomId, opponentUserId_ := opponentUserId,
                      opponentUserName_ := opponentUserName, opponentElo_ := opponentElo }

/-- The shared body of the three accept-or-reject answers. -/
def encodeAccepted (accepted : Bool) (errorCode : ErrorCode) (errorMessage : StdString) :
    Write Bool := do
  writeU8 (flag accepted)
  if accepted then
    return true
  writeU16 errorCode.value
  writeString errorMessage

/-- The shared body of the three accept-or-reject answers: the flag byte must be 0 or 1, and the
fields that the read branch does not carry are the defaults. -/
def decodeAccepted : Read (Bool × ErrorCode × StdString) := do
  let accepted ← readU8
  guard (¬ (accepted ≠ 0 ∧ accepted ≠ 1))
  if accepted ≠ 0 then
    guard (← eof)
    return (true, .kNone, [])
  else
    let errorCode ← readU16
    let errorMessage ← readString
    guard (← eof)
    return (false, ⟨errorCode⟩, errorMessage)

def MatchJoinResponse.encode (value : MatchJoinResponse) : Write Bool :=
  encodeAccepted value.accepted_ value.errorCode_ value.errorMessage_

def MatchJoinResponse.decode (_ : MatchJoinResponse) : Read MatchJoinResponse := do
  let (accepted, errorCode, errorMessage) ← decodeAccepted
  return { accepted_ := accepted, errorCode_ := errorCode, errorMessage_ := errorMessage }

def MatchJoinRequest.encode (_ : MatchJoinRequest) : Write Bool := return true

def MatchJoinRequest.decode (value : MatchJoinRequest) : Read MatchJoinRequest := do
  guard (← eof)
  return value

def MatchCancelRequest.encode (_ : MatchCancelRequest) : Write Bool := return true

def MatchCancelRequest.decode (value : MatchCancelRequest) : Read MatchCancelRequest := do
  guard (← eof)
  return value

def MatchCancelResponse.encode (value : MatchCancelResponse) : Write Bool :=
  encodeAccepted value.accepted_ value.errorCode_ value.errorMessage_

def MatchCancelResponse.decode (_ : MatchCancelResponse) : Read MatchCancelResponse := do
  let (accepted, errorCode, errorMessage) ← decodeAccepted
  return { accepted_ := accepted, errorCode_ := errorCode, errorMessage_ := errorMessage }

def HeroSelectRequest.encode (value : HeroSelectRequest) : Write Bool := do
  writeU8 value.heroType_.value
  return true

def HeroSelectRequest.decode (value : HeroSelectRequest) : Read HeroSelectRequest := do
  let heroType ← readU8
  guard (← eof)
  return { value with heroType_ := ⟨heroType⟩ }

def HeroSelectResponse.encode (value : HeroSelectResponse) : Write Bool :=
  encodeAccepted value.accepted_ value.errorCode_ value.errorMessage_

def HeroSelectResponse.decode (_ : HeroSelectResponse) : Read HeroSelectResponse := do
  let (accepted, errorCode, errorMessage) ← decodeAccepted
  return { accepted_ := accepted, errorCode_ := errorCode, errorMessage_ := errorMessage }

def RoomClosedNotification.encode (value : RoomClosedNotification) : Write Bool := do
  writeU64 value.roomId_
  writeString value.reason_

def RoomClosedNotification.decode (value : RoomClosedNotification) :
    Read RoomClosedNotification := do
  let roomId ← readU64
  let reason ← readString
  guard (← eof)
  return { value with roomId_ := roomId, reason_ := reason }

/-! ### Battles -/

def BattleStartNotification.encode (value : BattleStartNotification) : Write Bool := do
  writeU64 value.roomId_
  writeU8 value.playerHero_.value
  writeU8 value.opponentHero_.value
  return true

def BattleStartNotification.decode (value : BattleStartNotification) :
    Read BattleStartNotification := do
  let roomId ← readU64
  let playerHero ← readU8
  let opponentHero ← readU8
  guard (← eof)
  return { value with roomId_ := roomId, playerHero_ := ⟨playerHero⟩,
                      opponentHero_ := ⟨opponentHero⟩ }

def BattleAttackRequest.encode (_ : BattleAttackRequest) : Write Bool := return true

def BattleAttackRequest.decode (value : BattleAttackRequest) : Read BattleAttackRequest := do
  guard (← eof)
  return value

def BattleStateNotification.encode (value : BattleStateNotification) : Write Bool := do
  writeU64 value.roomId_
  writeU16 value.playerHealth_
  writeU16 value.opponentHealth_
  writeU8 (flag value.playerTurn_)
  return true

def BattleStateNotification.decode (value : BattleStateNotification) :
    Read BattleStateNotification := do
  let roomId ← readU64
  let playerHealth ← readU16
  let opponentHealth ← readU16
  let playerTurn ← readU8
  guard (¬ (playerTurn ≠ 0 ∧ playerTurn ≠ 1))
  guard (← eof)
  return { value with roomId_ := roomId, playerHealth_ := playerHealth,
                      opponentHealth_ := opponentHealth,
                      playerTurn_ := decide (playerTurn ≠ 0) }

def BattleResultNotification.encode (value : BattleResultNotification) : Write Bool := do
  writeU64 value.roomId_
  writeU8 (flag value.won_)
  writeU32 value.playerElo_
  return true

/-- The flag byte is checked only after the ELO behind it has been read. -/
def BattleResultNotification.decode (value : BattleResultNotification) :
    Read BattleResultNotification := do
  let roomId ← readU64
  let won ← readU8
  let playerElo ← readU32
  guard (¬ (won ≠ 0 ∧ won ≠ 1))
  guard (← eof)
  return { value with roomId_ := roomId, won_ := decide (won ≠ 0), playerElo_ := playerElo }

/-! ### All message types -/

inductive MessageType
  | loginRequest | registerRequest | loginResponse | registerResponse
  | matchFoundNotification | matchJoinResponse | matchJoinRequest
  | matchCancelRequest | matchCancelResponse
  | heroSelectRequest | heroSelectResponse
  | battleStartNotification | battleAttackRequest
  | battleStateNotification | battleResultNotification | roomClosedNotification
deriving DecidableEq, Repr

namespace MessageType

/-- The values of a message type. -/
@[reducible] def Value : MessageType → Type
  | loginRequest => LoginRequest
  | registerRequest => RegisterRequest
  | loginResponse => LoginResponse
  | registerResponse => RegisterResponse
  | matchFoundNotification => MatchFoundNotification
  | matchJoinResponse => MatchJoinResponse
  | matchJoinRequest => MatchJoinRequest
  | matchCancelRequest => MatchCancelRequest
  | matchCancelResponse => MatchCancelResponse
  | heroSelectRequest => HeroSelectRequest
  | heroSelectResponse => HeroSelectResponse
  | battleStartNotification => BattleStartNotification
  | battleAttackRequest => BattleAttackRequest
  | battleStateNotification => BattleStateNotification
  | battleResultNotification => BattleResultNotification
  | roomClosedNotification => RoomClosedNotification

/-- The default-constructed value. -/
def initial : (t : MessageType) → t.Value
  | loginRequest => ({} : LoginRequest)
  | registerRequest => ({} : RegisterRequest)
  | loginResponse => ({} : LoginResponse)
  | registerResponse => ({} : RegisterResponse)
  | matchFoundNotification => ({} : MatchFoundNotification)
  | matchJoinResponse => ({} : MatchJoinResponse)
  | matchJoinRequest => ({} : MatchJoinRequest)
  | matchCancelRequest => ({} : MatchCancelRequest)
  | matchCancelResponse => ({} : MatchCancelResponse)
  | heroSelectRequest => ({} : HeroSelectRequest)
  | heroSelectResponse => ({} : HeroSelectResponse)
  | battleStartNotification => ({} : BattleStartNotification)
  | battleAttackRequest => ({} : BattleAttackRequest)
  | battleStateNotification => ({} : BattleStateNotification)
  | battleResultNotification => ({} : BattleResultNotification)
  | roomClosedNotification => ({} : RoomClosedNotification)

def encode : (t : MessageType) → t.Value → Write Bool
  | loginRequest => LoginRequest.encode
  | registerRequest => RegisterRequest.encode
  | loginResponse => LoginResponse.encode
  | registerResponse => RegisterResponse.encode
  | matchFoundNotification => MatchFoundNotification.encode
  | matchJoinResponse => MatchJoinResponse.encode
  | matchJoinRequest => MatchJoinRequest.encode
  | matchCancelRequest => MatchCancelRequest.encode
  | matchCancelResponse => MatchCancelResponse.encode
  | heroSelectRequest => HeroSelectRequest.encode
  | heroSelectResponse => HeroSelectResponse.encode
  | battleStartNotification => BattleStartNotification.encode
  | battleAttackRequest => BattleAttackRequest.encode
  | battleStateNotification => BattleStateNotification.encode
  | battleResultNotification => BattleResultNotification.encode
  | roomClosedNotification => RoomClosedNotification.encode

def decode : (t : MessageType) → t.Value → Read t.Value
  | loginRequest => LoginRequest.decode
  | registerRequest => RegisterRequest.decode
  | loginResponse => LoginResponse.decode
  | registerResponse => RegisterResponse.decode
  | matchFoundNotification => MatchFoundNotification.decode
  | matchJoinResponse => MatchJoinResponse.decode
  | matchJoinRequest => MatchJoinRequest.decode
  | matchCancelRequest => MatchCancelRequest.decode
  | matchCancelResponse => MatchCancelResponse.decode
  | heroSelectRequest => HeroSelectRequest.decode
  | heroSelectResponse => HeroSelectResponse.decode
  | battleStartNotification => BattleStartNotification.decode
  | battleAttackRequest => BattleAttackRequest.decode
  | battleStateNotification => BattleStateNotification.decode
  | battleResultNotification => BattleResultNotification.decode
  | roomClosedNotification => RoomClosedNotification.decode

/-- The bytes that `encode` writes to an empty writer, or `none` when it returns `false`. -/
def encoded (t : MessageType) (v : t.Value) : Option (List UInt8) :=
  match (t.encode v).run {} with
  | (true, writer) => some writer.buf_
  | (false, _) => none

/-- The value that `decode` puts into a default-constructed target, or `none` when it returns
`false`. -/
def decoded (t : MessageType) (b : List UInt8) : Option t.Value :=
  (t.decode t.initial (ofBytes b)).1

end MessageType

end ArenaGame.GameMessages
