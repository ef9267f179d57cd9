import Mathlib.Data.UInt

/-!
# Protocol constants (`common/GameProtocol.h`)

The message types of `GameProtocol::MsgType` and the frame limits.  A received type is any
`uint16_t`, so the types are `UInt16` constants and not an inductive type.
-/

namespace ArenaGame.GameProtocol

def MSG_HEARTBEAT_REQ : UInt16 := 0x0001

def MSG_LOGIN_REQ : UInt16 := 0x0010
def MSG_LOGIN_RSP : UInt16 := 0x0011
def MSG_REGISTER_REQ : UInt16 := 0x0012
def MSG_REGISTER_RSP : UInt16 := 0x0013

def MSG_MATCH_JOIN_REQ : UInt16 := 0x0030
def MSG_MATCH_JOIN_RSP : UInt16 := 0x0031
def MSG_MATCH_FOUND_NTF : UInt16 := 0x0032
def MSG_MATCH_CANCEL_REQ : UInt16 := 0x0033
def MSG_MATCH_CANCEL_RSP : UInt16 := 0x0034

def MSG_HERO_SELECT_REQ : UInt16 := 0x0040
def MSG_HERO_SELECT_RSP : UInt16 := 0x0041
def MSG_BATTLE_START_NTF : UInt16 := 0x0042
def MSG_ROOM_CLOSED_NTF : UInt16 := 0x0043

def MSG_BATTLE_ATTACK_REQ : UInt16 := 0x0050
def MSG_BATTLE_STATE_NTF : UInt16 := 0x0051
def MSG_BATTLE_RESULT_NTF : UInt16 := 0x0052

/-- `kHeaderSize`: a 4-byte total length and a 2-byte message type. -/
def HEADER_SIZE : ℕ := 4 + 2

def MAX_FRAME : ℕ := 64 * 1024

def kMaxStringBytes : ℕ := 1024

end ArenaGame.GameProtocol
