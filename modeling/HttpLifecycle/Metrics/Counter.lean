namespace HttpLifecycle

inductive Counter where
  | connectionsOpened
  | connectionsClosed
  | streamsOpened
  | streamsRefused
  | requestsAborted
  | aggregationFailures
  | drainsStarted
  | immediateDisconnects
  | pingsSent
  | pingTimeouts
  deriving DecidableEq, Repr

namespace Counter

def all : List Counter :=
  [connectionsOpened, connectionsClosed, streamsOpened, streamsRefused, requestsAborted,
    aggregationFailures, drainsStarted, immediateDisconnects, pingsSent, pingTimeouts]

def name : Counter → String
  | connectionsOpened => "connections_opened"
  | connectionsClosed => "connections_closed"
  | streamsOpened => "streams_opened"
  | streamsRefused => "streams_refused"
  | requestsAborted => "requests_aborted"
  | aggregationFailures => "aggregation_failures"
  | drainsStarted => "drains_started"
  | immediateDisconnects => "immediate_disconnects"
  | pingsSent => "pings_sent"
  | pingTimeouts => "ping_timeouts"

def ofName? (s : String) : Option Counter := all.find? fun c => c.name == s

end Counter

end HttpLifecycle
