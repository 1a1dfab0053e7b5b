import ForgottenServer.Lib.Run
import ForgottenServer.Lib.Bytes
import ForgottenServer.Lib.Forest
import ForgottenServer.Lib.SortedMap
import ForgottenServer.Trade
import ForgottenServer.TradeConsent
import ForgottenServer.Experience
import ForgottenServer.Item
import ForgottenServer.ItemStream
import ForgottenServer.ItemRestore
import ForgottenServer.Tile
import ForgottenServer.IOMapSerialize
import ForgottenServer.IOLoginItems
import ForgottenServer.IOLoginResave
import ForgottenServer.SettledRows
import ForgottenServer.IOLoginData
import ForgottenServer.Delivery
import ForgottenServer.Spectators
import ForgottenServer.TileStack
import ForgottenServer.TileDescription
import ForgottenServer.KnownCreatures
import ForgottenServer.Lib.Buffer
import ForgottenServer.Lib.Feistel
import ForgottenServer.Lib.SkipCode
import ForgottenServer.NetworkMessage
import ForgottenServer.Xtea
import ForgottenServer.Protocol
import ForgottenServer.Connection
import ForgottenServer.MapDescription
import ForgottenServer.Viewport
import ForgottenServer.Condition
import ForgottenServer.Decay
import ForgottenServer.DecayQueue
import ForgottenServer.Lib.Ledger
import ForgottenServer.Equipment
import ForgottenServer.Party
import ForgottenServer.Lib.Grid
import ForgottenServer.WalkCache
import ForgottenServer.ConditionEffects
import ForgottenServer.TileItems
import ForgottenServer.TileItemVector
import ForgottenServer.Lib.Summary
import ForgottenServer.TileFlags
import ForgottenServer.Lib.Trie
import ForgottenServer.QTree
import ForgottenServer.SpectatorScan
import ForgottenServer.Lib.Ancestry
import ForgottenServer.AStarNodes
import ForgottenServer.PathSearch
import ForgottenServer.BatchInsert
import ForgottenServer.WildcardTree
import ForgottenServer.Guild
import ForgottenServer.Chat
import ForgottenServer.Spawn
import ForgottenServer.ConditionBlob
import ForgottenServer.ItemTypeChange
import ForgottenServer.FileCache
import ForgottenServer.FileLoader
import ForgottenServer.FailedMove
import ForgottenServer.Advance
import ForgottenServer.Death
import ForgottenServer.SkillPercent
import ForgottenServer.Coins
import ForgottenServer.ContainerChanges
import ForgottenServer.RemoveItem
import ForgottenServer.TransformWeight
import ForgottenServer.Carried
import ForgottenServer.RemoveItemOfType
import ForgottenServer.AddItem
import ForgottenServer.Holdings
import ForgottenServer.AddHolding
import ForgottenServer.RemoveMoney
import ForgottenServer.DamageList
import ForgottenServer.ReqMana
import ForgottenServer.CombatHealth
import ForgottenServer.Lib.Raster
import ForgottenServer.SightLine
import ForgottenServer.DistanceStep
import ForgottenServer.Lib.Words
import ForgottenServer.AreaCombat
import ForgottenServer.CombatFunc
import ForgottenServer.CombatArea
import ForgottenServer.DecayTiming
import ForgottenServer.Lib.Depth
import ForgottenServer.Teleport
import ForgottenServer.TeleportItems
import ForgottenServer.Actions
import ForgottenServer.ItemEquality
import ForgottenServer.Premium
import ForgottenServer.Rent
import ForgottenServer.MessageFields
import ForgottenServer.ContainerIterator
import ForgottenServer.FileCursor
import ForgottenServer.Lib.Sha1
import ForgottenServer.TransformSha1
import ForgottenServer.Lib.Wildcard
import ForgottenServer.AccessList
import ForgottenServer.Lib.Placement
import ForgottenServer.HeldItems
import ForgottenServer.Conservation
import ForgottenServer.Lib.Wakeup
import ForgottenServer.Scheduler
import ForgottenServer.SchedulerEvents
import ForgottenServer.CreatureChecks
import ForgottenServer.Outgoing
import ForgottenServer.DatabaseTasks
import ForgottenServer.PrivateChannels
import ForgottenServer.Sessions
import ForgottenServer.HouseGuests
import ForgottenServer.Beds
import ForgottenServer.Ban
