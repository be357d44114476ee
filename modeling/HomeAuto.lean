import HomeAuto.DhcpHandshake
import HomeAuto.HttpdDelivery
import HomeAuto.ShutterExclusion
import HomeAuto.ShutterDeadTime
import HomeAuto.ConnectTimeout
import HomeAuto.MqttDelivery
import HomeAuto.PcbOwnership
import HomeAuto.StopFinal
import HomeAuto.OtaExactlyOnce
import HomeAuto.OtaSuccess
import HomeAuto.OtaVendorStaging
import HomeAuto.OtaBrickSafe
import HomeAuto.OtaPost
import HomeAuto.OutputStore
import HomeAuto.ShutterCoherence
import HomeAuto.MqttDispatch
import HomeAuto.PalStorageCrash
import HomeAuto.PalStorageFlat
import HomeAuto.BackPressure
import HomeAuto.ConfigFollowed
import HomeAuto.ClickGestures
import HomeAuto.TimedOff
import HomeAuto.OutputRoundTrip
import HomeAuto.BindRoundTrip
import HomeAuto.ConfigPowerLoss
import HomeAuto.RelayCounts
import HomeAuto.NamesCoherence
import HomeAuto.ReloadOrphans
import HomeAuto.OtaPageZero
import HomeAuto.IoScan
import HomeAuto.InputTransitions
import HomeAuto.ClickCarryOver
import HomeAuto.ClickGlitches
import HomeAuto.WifiFallback
import HomeAuto.RelayNesting
import HomeAuto.PublishNesting
import HomeAuto.BackupPage
import HomeAuto.BackupRestore
import HomeAuto.BackupText
import HomeAuto.BackupScan
import HomeAuto.BackupUpload
import HomeAuto.BackupNames
import HomeAuto.BackupTables
import HomeAuto.BackupDocument
import HomeAuto.BackupSurvives
import HomeAuto.BackupRoundTrip
import HomeAuto.RestoreLookalikes
import HomeAuto.NameLists
import HomeAuto.MqttRxRuns
import HomeAuto.KeepAliveClocks
import HomeAuto.Lib.MqttWire
import HomeAuto.MqttConnect
import HomeAuto.MqttPublish
import HomeAuto.MqttAborts
import HomeAuto.Lib.JsonReader
import HomeAuto.HaDiscovery
import HomeAuto.DiscoveryJson
import HomeAuto.DiscoveryRuns
import HomeAuto.Lib.Ranking
import HomeAuto.WifiScan
import HomeAuto.WifiCandidates
import HomeAuto.Lib.NibbleLetters
import HomeAuto.NetBios
import HomeAuto.SntpClient
import HomeAuto.LengthCodec
import HomeAuto.SubscribeIds
import HomeAuto.Lib.EscapeTable
import HomeAuto.HtmlEscape
