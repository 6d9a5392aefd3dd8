import HttpLifecycle.Config
import HttpLifecycle.Document.Basic

namespace HttpLifecycle

open Document (Surplus orDefault count? flag? text?)

def KeepAlive.decode? (surplus : Surplus) (d : Document) : Option KeepAlive := do
  let fields ← d.fields? surplus
    ["idle_timeout_millis", "ping_interval_millis", "ping_timeout_millis",
      "max_connection_age_millis", "max_num_requests_per_connection", "keep_alive_on_ping"]
  let base : KeepAlive := {}
  match fields with
  | [idle, interval, timeout, age, requests, onPing] =>
    some {
      idleTimeoutMillis := ← orDefault base.idleTimeoutMillis count? idle
      pingIntervalMillis := ← orDefault base.pingIntervalMillis count? interval
      pingTimeoutMillis := ← orDefault base.pingTimeoutMillis count? timeout
      maxAgeMillis := ← orDefault base.maxAgeMillis count? age
      maxRequests := ← orDefault base.maxRequests count? requests
      onPing := ← orDefault base.onPing flag? onPing }
  | _ => none

def Marks.decode? (surplus : Surplus) (d : Document) : Option Marks := do
  let fields ← d.fields? surplus ["high_water_mark", "low_water_mark"]
  let base : Marks := {}
  match fields with
  | [high, low] =>
    some { high := ← orDefault base.high count? high, low := ← orDefault base.low count? low }
  | _ => none

def LogSettings.decode? (surplus : Surplus) (d : Document) : Option LogSettings := do
  let fields ← d.fields? surplus ["filter", "json"]
  let base : LogSettings := {}
  match fields with
  | [filter, json] =>
    some {
      filter := ← orDefault base.filter text? filter
      json := ← orDefault base.json flag? json }
  | _ => none

namespace Config

def section? (surplus : Surplus) (name : String) (default : Nat) (d : Document) :
    Option Nat := do
  let fields ← d.fields? surplus [name]
  match fields with
  | [n] => orDefault default count? n
  | _ => none

def decode? (surplus : Surplus) (d : Document) : Option Config := do
  let fields ← d.fields? surplus ["keep_alive", "drain", "traffic", "request", "log"]
  let base : Config := {}
  match fields with
  | [keepAlive, drain, traffic, request, log] =>
    some {
      keepAlive := ← orDefault base.keepAlive (KeepAlive.decode? surplus) keepAlive
      drainMicros := ←
        orDefault base.drainMicros (section? surplus "drain_duration_micros" base.drainMicros)
          drain
      marks := ← orDefault base.marks (Marks.decode? surplus) traffic
      maxRequestLength := ←
        orDefault base.maxRequestLength
          (section? surplus "max_request_length" base.maxRequestLength) request
      log := ← orDefault base.log (LogSettings.decode? surplus) log }
  | _ => none

end Config

end HttpLifecycle
