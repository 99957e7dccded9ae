import Zelda.Foundations.Loop
import Zelda.Foundations.Runs
import Zelda.Foundations.Keyed
import Zelda.Foundations.Placement
import Zelda.Foundations.Word
import Zelda.Foundations.Memory
import Zelda.Foundations.Framing
import Zelda.Foundations.TextStream
import Zelda.Foundations.WireFormat
import Zelda.Foundations.Binary32
import Zelda.Foundations.PriorityQueue
import Zelda.Foundations.LinkedSearch
import Zelda.Foundations.Trails
import Zelda.Foundations.BestFirst
import Zelda.Foundations.GreedyWays
import Zelda.Foundations.Token
import Zelda.Foundations.Relay
import Zelda.Foundations.Echo
import Zelda.ServerCore.PacketSession
import Zelda.ServerCore.RecvBuffer
import Zelda.ServerCore.BufferReader
import Zelda.ServerCore.SendBuffer
import Zelda.ServerCore.Builds
import Zelda.ServerCore.SocketResult
import Zelda.ServerCore.Session
import Zelda.ServerCore.SendQueue
import Zelda.ServerCore.HalfDead
import Zelda.ServerCore.Dispatch
import Zelda.ServerCore.Listener
import Zelda.Protocol
import Zelda.Protocol.Parse
import Zelda.Server.Vec2Int
import Zelda.Server.Tilemap
import Zelda.Server.TilemapFile
import Zelda.Server.GameObject
import Zelda.Server.GameRoom
import Zelda.Server.FindPath
import Zelda.Server.Search
import Zelda.Server.FindPathTermination
import Zelda.Server.GreedyFindPath
import Zelda.Server.ExactFindPath
import Zelda.Server.ShortestPaths
import Zelda.Server.World
import Zelda.Server.Broadcast
import Zelda.Server.Delivery
import Zelda.Server.Handlers
import Zelda.Server.Monster
import Zelda.Server.Edits
import Zelda.Server.MonsterEdits
import Zelda.Server.Runs
import Zelda.Server.Registration
import Zelda.Server.Ghosts
import Zelda.Server.Health
import Zelda.Server.Cells
import Zelda.Server.Ownership
import Zelda.Server.Malformed
import Zelda.Server.Aside
import Zelda.Server.Strikes
import Zelda.Server.Removal
import Zelda.Client.Tilemap
import Zelda.Client.GameObject
import Zelda.Client.DevScene
import Zelda.Client.Mirror
import Zelda.Client.Animation
import Zelda.Client.MyPlayer
import Zelda.Client.Weapons
import Zelda.Client.Combat
import Zelda.Replication
import Zelda.Directions
import Zelda.Replicas
import Zelda.Swings
import Zelda.WeaponSwitches
import Zelda.Traffic
import Zelda.Server.Known
import Zelda.Server.Between
import Zelda.Server.Attrition
import Zelda.Skirmish
import Zelda.Prediction
import Zelda.Server.Turns
import Zelda.Server.Updates
import Zelda.Server.Pursuit
import Zelda.Server.ClosestPlayer
import Zelda.Server.Plans
import Zelda.Client.RefreshStat
import Zelda.Client.RemoveObject
import Zelda.ServerCore.RecvCycle
import Zelda.Client.Flipbook
import Zelda.Client.Movement
import Zelda.Server.Repetition
import Zelda.Client.EditScene
import Zelda.Server.MapFiles
import Zelda.Foundations.Pacing
import Zelda.Server.Pacing
import Zelda.Foundations.Buffer
import Zelda.ServerCore.DeliveredPackets
import Zelda.ServerCore.BufferWriter
import Zelda.Foundations.WireEncoding
import Zelda.Protocol.Serialize
import Zelda.ServerCore.Link
import Zelda.Connection
import Zelda.PacketSizes
import Zelda.Arrivals
import Zelda.Server.Balance
import Zelda.Poses
import Zelda.ServerCore.Held
import Zelda.ServerCore.Lifetime
import Zelda.Foundations.Deadlines
import Zelda.Server.Hunt
import Zelda.Foundations.Worklist
import Zelda.Server.Passes
import Zelda.Client.Projectile
import Zelda.Walkability
