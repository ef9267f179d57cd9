import ArenaGame.Client.Equiv.Connection
import ArenaGame.Common.Equiv.RawReader
import ArenaGame.Equiv.ArenaServer.Runs
import ArenaGame.Equiv.ClientServer.Identity
import ArenaGame.Equiv.InputBuffer
import ArenaGame.Equiv.SendReceive
import ArenaGame.Muduo.Equiv.EventLoop
import ArenaGame.Muduo.Equiv.LogFlush
import ArenaGame.Muduo.Equiv.OpenConnections
import ArenaGame.Muduo.Equiv.RawBuffer
import ArenaGame.Muduo.Equiv.RoundRobin
import ArenaGame.Muduo.Equiv.SendingConnection
import ArenaGame.Muduo.Equiv.TimerCancellation
import ArenaGame.Server.Equiv.Authentication
import ArenaGame.Server.Equiv.BattleRules
import ArenaGame.Server.Equiv.CompleteFile
import ArenaGame.Server.Equiv.DefensiveBranches
import ArenaGame.Server.Equiv.HeroSelection
import ArenaGame.Server.Equiv.MatchOrder
import ArenaGame.Server.Equiv.NearestNeighbour
import ArenaGame.Server.Equiv.OwnRoom
import ArenaGame.Server.Equiv.Ratings
import ArenaGame.Server.Equiv.RawMatchQueue
import ArenaGame.Server.Equiv.Settlement
import ArenaGame.Server.Equiv.UserIds
