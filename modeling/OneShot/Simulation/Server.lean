import OneShot.Http.Message
import OneShot.Simulation.VirtualClock

/-!
# A scripted server

The server answers the requests with the answers of a script, in order, and
says of everything after the last that it is gone.  Requests are noted, and so
are the pauses between them, which take no time.
-/

namespace OneShot.Simulation

/-- A server that follows a script. -/
structure Server where
  clock : VirtualClock
  answers : List Http.Answer
  requests : List Http.Request := []
  pauses : List Float := []

namespace Server

def gone : Http.Answer :=
  .response (.ofJson 404 (.obj [("kind", .str "Status"), ("reason", .str "NotFound"),
    ("code", .int 404), ("message", .str "gone")]))

def link : Http.Link Server where
  exchange request server :=
    (server.answers.head?.getD gone,
      { server with
        answers := server.answers.drop 1
        requests := server.requests ++ [request] })
  pause seconds server := { server with pauses := server.pauses ++ [seconds] }

instance : Clock Server Float where
  read server :=
    let (now, clock) := server.clock.reading
    (now, { server with clock })
  sleep duration server := { server with clock := server.clock.sleep duration }
  ownMoves server := server.clock.readings.length

def clearNotes (server : Server) : Server :=
  { server with requests := [], pauses := [] }

end Server

end OneShot.Simulation
