import NetImitate.Buffer.Input
import NetImitate.Tcpconn.Output
import NetImitate.Eventloop
import NetImitate.Eventloop.Run
import NetImitate.Eventloop.Wakeup
import NetImitate.Eventloop.Rounds
import NetImitate.Eventloop.Threads
import NetImitate.Eventloop.Quit
import NetImitate.Eventloop.Progress
import NetImitate.Library.OrdSet
import NetImitate.Timerqueue
import NetImitate.Timerqueue.Run
import NetImitate.Timerqueue.Ownership
import NetImitate.Timerqueue.Arming
import NetImitate.Tcpserver
import NetImitate.Tcpserver.Run
import NetImitate.Tcpserver.Lifecycle
import NetImitate.Tcpserver.Lifetime
import NetImitate.Tcpserver.Close
import NetImitate.Tcpserver.Registry
import NetImitate.Timerqueue.Delay
import NetImitate.Timerqueue.Assertion
import NetImitate.Timerqueue.Order
import NetImitate.Buffer.Run
import NetImitate.Poll.Interest
import NetImitate.Eventloopthread
import NetImitate.Poll.Wait
import NetImitate.Tcpconn.Shutdown
import NetImitate.Tcpserver.Stream
import NetImitate.Threadpoll
import NetImitate.Tcpserver.Loops
import NetImitate.Buffer.Append
import NetImitate.Buffer.Space
import NetImitate.Library.Shared
import NetImitate.Tcpserver.Accounting
import NetImitate.Tcpserver.Callbacks
import NetImitate.Tcpserver.Cleanup
import NetImitate.Tcpserver.Tasks
import NetImitate.Library.Turns
import NetImitate.Threadpoll.Turns
import NetImitate.Tcpserver.Wakeup
import NetImitate.Tcpserver.Removal
import NetImitate.Tcpserver.NoThreads
import NetImitate.Timerqueue.Head
import NetImitate.Timerqueue.Progress
import NetImitate.Tcpserver.Output
import NetImitate.Tcpserver.Polling
import NetImitate.Tcpserver.Dispatch
import NetImitate.Threadpoll.Teardown
