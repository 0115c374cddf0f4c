import Deskflow.Callback
import Deskflow.Condition
import Deskflow.Database.Address
import Deskflow.Database.Handle
import Deskflow.Delivery
import Deskflow.Desk.Call
import Deskflow.Desk.Column
import Deskflow.Desk.History
import Deskflow.Desk.Inbound
import Deskflow.Desk.Row
import Deskflow.Desk.RunLog
import Deskflow.Desk.Sheet
import Deskflow.Desk.Slot
import Deskflow.Desk.Store
import Deskflow.Desk.Tagging
import Deskflow.Desk.Thread
import Deskflow.Desk.Transaction
import Deskflow.Digest.Md5
import Deskflow.Duration
import Deskflow.Engine.Click
import Deskflow.Engine.Dispatch
import Deskflow.Engine.Execution
import Deskflow.Engine.Flow
import Deskflow.Fault
import Deskflow.Front.Access
import Deskflow.Front.Inbox
import Deskflow.Front.Office
import Deskflow.Front.Post
import Deskflow.Front.Update
import Deskflow.Front.Web
import Deskflow.Json.Printer
import Deskflow.Json.Reader
import Deskflow.Lock
import Deskflow.Media
import Deskflow.Moment
import Deskflow.Number.Binary64
import Deskflow.Number.Difference
import Deskflow.Number.Numeral
import Deskflow.Number.Shortest
import Deskflow.Proofs.AllOrNothing
import Deskflow.Proofs.Attachment
import Deskflow.Proofs.ButtonTags
import Deskflow.Proofs.ButtonTakedown
import Deskflow.Proofs.CallbackCodec
import Deskflow.Proofs.CallbackRoundTrip
import Deskflow.Proofs.ClickMemory
import Deskflow.Proofs.ClickRanking
import Deskflow.Proofs.ClickRefusal
import Deskflow.Proofs.ConversationFrame
import Deskflow.Proofs.DispatchRoster
import Deskflow.Proofs.EventMatching
import Deskflow.Proofs.FindButton
import Deskflow.Proofs.GroupEntries
import Deskflow.Proofs.GroupPlaces
import Deskflow.Proofs.GroupTransparency
import Deskflow.Proofs.HistoryMirror
import Deskflow.Proofs.HomeSteps
import Deskflow.Proofs.InboundVisit
import Deskflow.Proofs.LastStop
import Deskflow.Proofs.LockLine
import Deskflow.Proofs.LockTurns
import Deskflow.Proofs.Logbook
import Deskflow.Proofs.LogbookMail
import Deskflow.Proofs.LogbookTables
import Deskflow.Proofs.MessageIntake
import Deskflow.Proofs.Preservation
import Deskflow.Proofs.Redelivery
import Deskflow.Proofs.Redrawing
import Deskflow.Proofs.ResumeExactly
import Deskflow.Proofs.ResumeGuard
import Deskflow.Proofs.ResumeOnce
import Deskflow.Proofs.Retouch
import Deskflow.Proofs.RunChains
import Deskflow.Proofs.RunClosing
import Deskflow.Proofs.RunCourse
import Deskflow.Proofs.RunHeadway
import Deskflow.Proofs.RunIsolation
import Deskflow.Proofs.RunLedger
import Deskflow.Proofs.RunLogGrowth
import Deskflow.Proofs.RunPaging
import Deskflow.Proofs.RunTrace
import Deskflow.Proofs.Session
import Deskflow.Proofs.Simulation
import Deskflow.Proofs.SlotCell
import Deskflow.Proofs.SlotJams
import Deskflow.Proofs.StepKeys
import Deskflow.Proofs.StepPieces
import Deskflow.Proofs.StorageBoundary
import Deskflow.Proofs.SuspendedRuns
import Deskflow.Proofs.TagChaining
import Deskflow.Proofs.TagGuard
import Deskflow.Proofs.TagNotes
import Deskflow.Proofs.TagSets
import Deskflow.Proofs.TagTargets
import Deskflow.Proofs.TagWindow
import Deskflow.Proofs.TemplateFilling
import Deskflow.Proofs.TextContainment
import Deskflow.Proofs.TwinStores
import Deskflow.Proofs.UpdateAcknowledgement
import Deskflow.Proofs.WebStrangers
import Deskflow.Proofs.WorkFrame
import Deskflow.Service
import Deskflow.Settings
import Deskflow.Sort
import Deskflow.Step
import Deskflow.Step.Parse
import Deskflow.Stopwatch
import Deskflow.Suspension
import Deskflow.Template
import Deskflow.Text.Alphanumeric
import Deskflow.Text.Blank
import Deskflow.Text.Case
import Deskflow.Text.Digit
import Deskflow.Text.Escaped
import Deskflow.Text.Printable
import Deskflow.Text.Quoted
import Deskflow.Text.Utf8
import Deskflow.Trigger
import Deskflow.Value
import Deskflow.Value.Reading
import Deskflow.Value.Text
import Deskflow.World
