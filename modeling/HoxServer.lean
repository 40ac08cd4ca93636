import HoxServer.DbAgent.AttachedData
import HoxServer.DbAgent.PlayerRecord
import HoxServer.DbAgent.SharedConnection
import HoxServer.DbAgent.Sql
import HoxServer.HoxTest.Manager
import HoxServer.HoxTest.MoveEvents
import HoxServer.Net.FileCache
import HoxServer.Net.ResponseTheorems
import HoxServer.Referee.Search
import HoxServer.Server.SessionTheorems
import HoxServer.Table.Clock
import HoxServer.Table.EloTheorems
import HoxServer.Table.Mirror
import HoxServer.Table.Counters
import HoxServer.Table.ScoreEvents
import HoxServer.Table.Deadline
import HoxServer.Server.Membership
import HoxServer.Server.ThreadPool
import HoxServer.Server.WriteProgress
import HoxServer.XQWLight.Opponent
import HoxServer.XQWLight.Quiesc
