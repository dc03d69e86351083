import MySQLPlugin.Threads.Program
import MySQLPlugin.Threads.Sequential
import MySQLPlugin.Threads.Interleaving
import MySQLPlugin.Threads.Cycles
import MySQLPlugin.Threads.Protocol
import MySQLPlugin.Threads.Loops
import MySQLPlugin.Dispatch.Ledger
import MySQLPlugin.Dispatch.Positions
import MySQLPlugin.Dispatch.Handoff
import MySQLPlugin.Dispatch.Custody
import MySQLPlugin.Model.Data
import MySQLPlugin.Model.Libmysql
import MySQLPlugin.Model.State
import MySQLPlugin.Model.CMySQLHandler
import MySQLPlugin.Model.CScripting
import MySQLPlugin.Model.Main
import MySQLPlugin.Logic.History
import MySQLPlugin.Logic.Footprint
import MySQLPlugin.Logic.Wiring
import MySQLPlugin.Logic.Runs
import MySQLPlugin.Logic.Views
import MySQLPlugin.Queues.Books
import MySQLPlugin.Queues.Delivery
import MySQLPlugin.Queues.Order
import MySQLPlugin.Queues.Serving
import MySQLPlugin.Queues.Rounds
import MySQLPlugin.Handles.Names
import MySQLPlugin.Handles.Identity
import MySQLPlugin.Handles.Tick
import MySQLPlugin.Handles.Parameters
import MySQLPlugin.Handles.Frame
import MySQLPlugin.Handles.Unloading
import MySQLPlugin.Members.Assigned
import MySQLPlugin.Connections.Owned
import MySQLPlugin.Connections.Pings
import MySQLPlugin.Connections.Lost
import MySQLPlugin.Results.Sweeps
import MySQLPlugin.Results.Held
import MySQLPlugin.Results.Stream
import MySQLPlugin.Results.Fetch
import MySQLPlugin.Results.Rows
import MySQLPlugin.Results.Buffer
import MySQLPlugin.Results.Texts
import MySQLPlugin.Results.Loops
import MySQLPlugin.Results.Numbers
import MySQLPlugin.Results.Escaping
import MySQLPlugin.Results.Fields
import MySQLPlugin.Errors.Reported
import MySQLPlugin.Errors.Rejected
import MySQLPlugin.Errors.Dead
import MySQLPlugin.Locks.Paired
import MySQLPlugin.Interplay.Rules
import MySQLPlugin.Interplay.Schedule
import MySQLPlugin.Interplay.Receipts
import MySQLPlugin.Connections.Holders
import MySQLPlugin.Connections.Apart
import MySQLPlugin.Results.Synchronous
import MySQLPlugin.Interplay.Calls
import MySQLPlugin.Interplay.Lifetimes
import MySQLPlugin.Interplay.Waiting
import MySQLPlugin.Interplay.Outcomes
import MySQLPlugin.Interplay.Phases
import MySQLPlugin.Interplay.Handoff
import MySQLPlugin.Interplay.Direct
import MySQLPlugin.Interplay.Exclusive
import MySQLPlugin.Threads.Secured
import MySQLPlugin.Threads.Discipline
import MySQLPlugin.Threads.Turns
import MySQLPlugin.Safety.Policy
import MySQLPlugin.Safety.Natives
import MySQLPlugin.Safety.Worker
import MySQLPlugin.Safety.Ticks
import MySQLPlugin.Safety.Faults
import MySQLPlugin.Safety.Release
import MySQLPlugin.Safety.Traces
import MySQLPlugin.Queues.Interleaved
import MySQLPlugin.Queues.Sent
import MySQLPlugin.Dispatch.Course
import MySQLPlugin.Progress.Answers
