import Playground.Session.Feed
import Playground.Guest.Scripted
import Playground.Files.Tree
import Playground.Main
import Playground.Proofs.Outcome
import Playground.Proofs.Guest.Record
import Playground.Proofs.Controller.History
import Playground.Proofs.Controller.Record
import Playground.Proofs.Controller.Effects
import Playground.Proofs.Scheduler.Effects
import Playground.Proofs.Controller.Soundness
import Playground.Proofs.Controller.Runs
import Playground.Proofs.Controller.Calls
import Playground.Proofs.Scheduler.Binding
import Playground.Proofs.Memory
import Playground.Proofs.Guest.View
import Playground.Proofs.Controller.View
import Playground.Proofs.Guest.Watch
import Playground.Proofs.HandOff
import Playground.Proofs.Scheduler.Exits
import Playground.Proofs.Session.Loop
import Playground.Proofs.Console.Reading
import Playground.Proofs.Controller.Reach
import Playground.Proofs.Controller.Input
import Playground.Proofs.Scheduler.Calls
import Playground.Proofs.Scheduler.Completion
import Playground.Proofs.Guest.Echo
import Playground.Proofs.Session.Cancellation
import Playground.Proofs.Scheduler.Steps
import Playground.Proofs.Controller.Start
import Playground.Proofs.Guest.EchoStart
import Playground.Proofs.Guest.EchoRun
import Playground.Proofs.Controller.Frame
import Playground.Proofs.Controller.Restart
import Playground.Proofs.Console.Writing
import Playground.Proofs.Guest.Uses
import Playground.Proofs.Controller.Output
import Playground.Proofs.Controller.Lockstep
import Playground.Proofs.Console.Alike
import Playground.Proofs.Guest.EchoHeap
import Playground.Proofs.Guest.EchoAlike
import Playground.Proofs.Guest.EchoLaunch
import Playground.Proofs.Guest.EchoRestart
import Playground.Proofs.Guest.EchoChecks
import Playground.Proofs.Console.Queue
import Playground.Proofs.Controller.Postconditions
import Playground.Proofs.Controller.Transitions
import Playground.Proofs.Toml.Number
import Playground.Proofs.Toml.Quoted
import Playground.Proofs.Toml.Codec
import Playground.Proofs.Config.Settings
import Playground.Proofs.Config.Document
import Playground.Proofs.Controller.Starts
import Playground.Proofs.Scheduler.Accounts
import Playground.Proofs.Scheduler.Termination
import Playground.Proofs.Session.Armed
import Playground.Proofs.Console.Imports
import Playground.Proofs.Console.Time
import Playground.Proofs.Controller.Time
import Playground.Proofs.Config.Partial
import Playground.Proofs.Memory.Copies
import Playground.Proofs.Text.Utf8
import Playground.Proofs.Console.Pieces
import Playground.Proofs.Config.Discovery
import Playground.Proofs.Session.Greeting
