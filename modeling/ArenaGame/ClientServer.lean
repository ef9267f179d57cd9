import ArenaGame.Client.MainWindow
import ArenaGame.Server.GameServer

/-!
# One client and the server

The client of the connection `c` and the server exchange frames over two queues that lose nothing
and keep the order, as the two directions of a connection that stays open do.  Everything else that
happens at the server (other connections, their messages, ticks) may happen at any time.
-/

namespace ArenaGame

open GameProtocol GameServer

structure ClientServer where
  client : MainWindow := {}
  server : GameServer
  /-- What the server has not taken yet.  For the reader of a run each frame comes with the
  `matchedRoomId_` of the client at the time of the click. -/
  requests : List (Frame × UInt64) := []
  /-- What the client has not received yet. -/
  messages : List Frame := []

namespace ClientServer

inductive Action
  | click (button : MainWindow.Button)
  /-- The client receives the next frame. -/
  | receive
  /-- The server takes the next frame. -/
  | deliver (now : MatchTimePoint) (io : SaveIO)
  | elsewhere (event : Event)

variable (s : ClientServer) (c : UInt64)

def Action.Possible : Action → Prop
  | click button => s.client.Clickable button
  | receive => s.messages ≠ []
  | deliver _ _ => s.requests ≠ []
  | elsewhere event => event.Possible s.server ∧ event.connection ≠ some c

instance (action : Action) : Decidable (action.Possible s c) := by
  cases action <;> unfold Action.Possible <;> infer_instance

variable (range : MatchTicket → MatchTimePoint → ℚ)

/-- An event at the server; what it tells the client has to travel. -/
def serve (event : Event) : ClientServer × List Effect :=
  let next := s.server.step range event
  ({ s with server := next.1, messages := s.messages ++ framesTo c next.2 }, next.2)

def step : Action → ClientServer × List Effect
  | .click button =>
    let clicked := s.client.click button
    ({ s with
        client := clicked.1
        requests := s.requests ++ clicked.2.map fun frame => (frame, s.client.matchedRoomId_) },
      [])
  | .receive =>
    match s.messages with
    | [] => (s, [])
    | frame :: messages => ({ s with client := s.client.receive frame, messages := messages }, [])
  | .deliver now io =>
    match s.requests with
    | [] => (s, [])
    | (frame, _) :: requests => { s with requests := requests }.serve c range (.message c frame now io)
  | .elsewhere event => s.serve c range event

def machine : Machine ClientServer Action Effect where
  step s := s.step c range
  Enabled s action := action.Possible s c

instance (action : Action) : Decidable ((machine c range).Enabled s action) :=
  inferInstanceAs (Decidable (action.Possible s c))

/-- The connection of the client has just been opened, after `events` at the server. -/
def start (srv : GameServer) (events : List Event) : ClientServer :=
  { server := ((GameServer.machine range).run srv (events ++ [.opened c])).1 }

/-- Nothing is on the way. -/
def Quiet : Prop := s.requests = [] ∧ s.messages = []

instance : Decidable s.Quiet := by
  unfold Quiet
  infer_instance

/-- A join request has not been answered yet: it is on the way, or its answer is. -/
def JoinPending : Prop :=
  (∃ request ∈ s.requests, request.1.1 = MSG_MATCH_JOIN_REQ) ∨
    ∃ frame ∈ s.messages, frame.1 = MSG_MATCH_JOIN_RSP

instance : Decidable s.JoinPending := by
  unfold JoinPending
  infer_instance

/-- The action is not a click that sends a join request while another one is pending. -/
def SingleJoin : Action → Prop
  | .click .matchButton_ => s.client.lobbyScene_.matchmakingQueued_ = false → ¬ s.JoinPending
  | _ => True

instance (action : Action) : Decidable (s.SingleJoin action) := by
  unfold SingleJoin
  split <;> infer_instance

end ClientServer

end ArenaGame
