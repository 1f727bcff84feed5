import AlertFlow.Main
import AlertFlow.Rehearsal.GroupRun
import AlertFlow.Proofs.Selection
import AlertFlow.Proofs.Group.Holdings
import AlertFlow.Proofs.Group.Step
import AlertFlow.Proofs.Group.Bookkeeping
import AlertFlow.Proofs.Group.Map
import AlertFlow.Proofs.Group.Keeping
import AlertFlow.Proofs.Engine.Step
import AlertFlow.Proofs.Engine.Custody
import AlertFlow.Proofs.Alert.Feed
import AlertFlow.Proofs.Server.Run
import AlertFlow.Proofs.Server.Reading
import AlertFlow.Proofs.Server.Loss
import AlertFlow.Proofs.LabelOrder
import AlertFlow.Proofs.Overview
import AlertFlow.Proofs.Alert.Store
import AlertFlow.Proofs.Server.Keeping
import AlertFlow.Proofs.Engine.Mirror
import AlertFlow.Proofs.Alert.Wait
import AlertFlow.Proofs.Group.Course
import AlertFlow.Proofs.Group.Cadence
import AlertFlow.Proofs.Group.Escalation
import AlertFlow.Proofs.Group.Silence
import AlertFlow.Proofs.Engine.Run
import AlertFlow.Proofs.Engine.Strays
import AlertFlow.Proofs.Engine.Silence
import AlertFlow.Proofs.Text.Decimal
import AlertFlow.Proofs.Time.Calendar
import AlertFlow.Proofs.Time.Timestamp
import AlertFlow.Proofs.Json.RoundTrip
import AlertFlow.Proofs.EventLog
import AlertFlow.Proofs.Alert.Stream
import AlertFlow.Proofs.LabelSet
import AlertFlow.Proofs.Engine.Purity
import AlertFlow.Proofs.Engine.Classification
import AlertFlow.Proofs.Group.Calls
import AlertFlow.Proofs.Engine.History
import AlertFlow.Proofs.Engine.Notification
import AlertFlow.Proofs.Route.Inheritance
import AlertFlow.Proofs.Http.Posting
import AlertFlow.Proofs.Server.Reference
import AlertFlow.Proofs.Overview.Enumeration
import AlertFlow.Proofs.Overview.Correspondence
import AlertFlow.Proofs.Engine.Succession
import AlertFlow.Proofs.Engine.Sweeping
import AlertFlow.Proofs.Engine.Progress
import AlertFlow.Proofs.Group.Deadline
import AlertFlow.Proofs.Engine.Stopping
import AlertFlow.Proofs.Hash.Layout
import AlertFlow.Proofs.Group.Key
import AlertFlow.Proofs.Json.Record
import AlertFlow.Proofs.Alert.Readers
import AlertFlow.Proofs.Alert.RoundTrip
import AlertFlow.Proofs.Time.DurationText
import AlertFlow.Proofs.Route.Options
import AlertFlow.Proofs.Text.Hex
import AlertFlow.Proofs.Fingerprint
import AlertFlow.Proofs.LabelSet.Canonical
import AlertFlow.Proofs.Http.Path
import AlertFlow.Proofs.Http.Lookup
