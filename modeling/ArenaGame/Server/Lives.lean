import ArenaGame.Server.GameServer

/-!
# The server across its restarts

The process may end between any two events, and `main` starts it again: `init` loads the account
file, which is all that is left.  If it cannot be loaded, no server comes up.
-/

namespace ArenaGame.GameServer

inductive Life
  | event (event : Event)
  | restart

variable (srv : GameServer)

def Life.Possible : Life → Prop
  | event e => e.Possible srv
  | restart => True

instance : (life : Life) → Decidable (life.Possible srv)
  | .event e => inferInstanceAs (Decidable (e.Possible srv))
  | .restart => isTrue trivial

/-- The server that `init` makes of the file, if it makes one. -/
def restarted : GameServer := (init srv.accountRepository_.file_).getD srv

variable (range : MatchTicket → MatchTimePoint → ℚ)

def live : Life → GameServer × List Effect
  | .event e => srv.step range e
  | .restart => (srv.restarted, [])

def lives : Machine GameServer Life Effect where
  step srv := srv.live range
  Enabled srv life := life.Possible srv

instance (life : Life) : Decidable ((lives range).Enabled srv life) :=
  inferInstanceAs (Decidable (life.Possible srv))

end ArenaGame.GameServer
