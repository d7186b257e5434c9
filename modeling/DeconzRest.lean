import DeconzRest.Ias.Enrollment
import DeconzRest.Alarm.Config
import DeconzRest.Cj.Misread
import DeconzRest.Rule.LocalTime
import DeconzRest.Rule.Change
import DeconzRest.Rule.IndexHistory
import DeconzRest.Rule.Trigger
import DeconzRest.Rule.Conditions
import DeconzRest.Device.Retry
import DeconzRest.Device.ApsBusy
import DeconzRest.Binding.TableRead
import DeconzRest.Binding.ReportCheck
import DeconzRest.Device.Tick
import DeconzRest.Device.Poll
import DeconzRest.Event.Queue
import DeconzRest.Ddf.Signatures
import DeconzRest.Channel.Change
import DeconzRest.Tasks.Discipline
import DeconzRest.Tasks.Merge
import DeconzRest.Vfs.Read
import DeconzRest.Schedule.Law
import DeconzRest.Schedule.Restart
import DeconzRest.Binding.TaskResponses
import DeconzRest.Touchlink.Once
import DeconzRest.WindowCovering.Calibrated
import DeconzRest.Ddf.DescriptorPages
import DeconzRest.Scene.ViewDecoded
import DeconzRest.Ddf.PolicyDurable
import DeconzRest.Sensor.Stored
import DeconzRest.Alarm.Duration
import DeconzRest.Alarm.ArmCommand
import DeconzRest.Device.StateChangeList
import DeconzRest.Sensor.Groups
import DeconzRest.Cj.CopyString
import DeconzRest.Cj.RefToLong
import DeconzRest.Cj.ValueRef
import DeconzRest.Binding.ReportAnswer
import DeconzRest.Zcl.TuyaData
import DeconzRest.Event.Data
import DeconzRest.Utils.BufString
import DeconzRest.Utils.UniqueId
import DeconzRest.Zcl.XiaomiTag
import DeconzRest.Resource.NumberItem
import DeconzRest.Resource.Utf8Item
import DeconzRest.Ddf.RoundTrip
import DeconzRest.Ddf.FindChunk
import DeconzRest.Ddf.BundleScripts
import DeconzRest.Ddf.BundleLoad
import DeconzRest.Vfs.Elements
import DeconzRest.Crypto.InstallCode
import DeconzRest.Schedule.Interpretation
import DeconzRest.Thermostat.WeeklySchedule
import DeconzRest.Thermostat.ScheduleText
import DeconzRest.Device.PollManager
import DeconzRest.Tasks.StoreScene
import DeconzRest.Rest.DeviceKey
import DeconzRest.Touchlink.ScanResults
import DeconzRest.WindowCovering.Records
import DeconzRest.Zcl.TimeCluster
import DeconzRest.Sensor.Fingerprint
import DeconzRest.Binding.Bookkeeping
import DeconzRest.Ddf.BaseDescription
import DeconzRest.Sensor.FreeId
