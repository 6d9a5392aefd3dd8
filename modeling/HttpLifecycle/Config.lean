import HttpLifecycle.Error

namespace HttpLifecycle

def millis? (n : Nat) : Option Duration :=
  if n = 0 then none else some (Duration.ofMillis n)

/-- When a connection is pinged, recycled and given up. Zero disables a limit. -/
structure KeepAlive where
  idleTimeoutMillis : Nat := 10000
  pingIntervalMillis : Nat := 0
  pingTimeoutMillis : Nat := 0
  maxAgeMillis : Nat := 0
  maxRequests : Nat := 0
  onPing : Bool := false
  deriving DecidableEq, Repr

namespace KeepAlive

def disabled : KeepAlive := { idleTimeoutMillis := 0 }

def idleTimeout? (k : KeepAlive) : Option Duration := millis? k.idleTimeoutMillis

def pingInterval? (k : KeepAlive) : Option Duration := millis? k.pingIntervalMillis

/-- A ping may stay unanswered for one interval unless a time is set. -/
def pingTimeout? (k : KeepAlive) : Option Duration :=
  k.pingInterval?.map fun interval => (millis? k.pingTimeoutMillis).getD interval

def maxAge? (k : KeepAlive) : Option Duration := millis? k.maxAgeMillis

def maxRequests? (k : KeepAlive) : Option Nat :=
  if k.maxRequests = 0 then none else some k.maxRequests

def enabled (k : KeepAlive) : Bool :=
  k.idleTimeout?.isSome || k.pingInterval?.isSome || k.maxAge?.isSome || k.maxRequests?.isSome

def text (k : KeepAlive) : String :=
  Text.record "KeepAliveConfig" [
    ("idle_timeout_millis", toString k.idleTimeoutMillis),
    ("ping_interval_millis", toString k.pingIntervalMillis),
    ("ping_timeout_millis", toString k.pingTimeoutMillis),
    ("max_connection_age_millis", toString k.maxAgeMillis),
    ("max_num_requests_per_connection", toString k.maxRequests),
    ("keep_alive_on_ping", Text.bool k.onPing)]

end KeepAlive

/-- Unread bytes at which reading stops and at which it goes on. A high mark
of zero switches the gate off. -/
structure Marks where
  high : Nat := 131072
  low : Nat := 65536
  deriving DecidableEq, Repr

def Marks.text (m : Marks) : String :=
  Text.record "TrafficConfig" [
    ("high_water_mark", toString m.high),
    ("low_water_mark", toString m.low)]

structure LogSettings where
  filter : String := "info"
  json : Bool := false
  deriving DecidableEq, Repr

structure Config where
  keepAlive : KeepAlive := {}
  drainMicros : Nat := 1000000
  marks : Marks := {}
  /-- Limit on a request body where its service sets none; zero lifts it. -/
  maxRequestLength : Nat := 10485760
  log : LogSettings := {}
  deriving DecidableEq, Repr

namespace Config

def drain (c : Config) : Duration := Duration.ofMicros c.drainMicros

def validate (c : Config) : Except Error Unit :=
  if 0 < c.marks.high ∧ c.marks.high < c.marks.low then
    .error (.invalidConfig
      s!"low_water_mark ({c.marks.low}) exceeds high_water_mark ({c.marks.high})")
  else if 0 < c.keepAlive.pingTimeoutMillis ∧ c.keepAlive.pingIntervalMillis = 0 then
    .error (.invalidConfig "ping_timeout_millis requires ping_interval_millis")
  else .ok ()

end Config

end HttpLifecycle
