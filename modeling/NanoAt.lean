import NanoAt.Handoff
import NanoAt.Stranded
import NanoAt.Acknowledgement
import NanoAt.Context
import NanoAt.Finished
import NanoAt.Requests
import NanoAt.Segmentation
import NanoAt.Completion
import NanoAt.TimeBase
import NanoAt.Terminator
import NanoAt.Verdict
import NanoAt.Countdown
import NanoAt.RetryBudget
import NanoAt.Console
import NanoAt.Boot
import NanoAt.HeapRuns
import NanoAt.TimerReturns
import NanoAt.TimerFlags
import NanoAt.TimerAgenda
import NanoAt.Ipc
import NanoAt.PriorityGroup
import NanoAt.ThreadLists
import NanoAt.ThreadTicks
import NanoAt.Waiting
import NanoAt.Inheritance
import NanoAt.EventRefinement
import NanoAt.Timeouts
