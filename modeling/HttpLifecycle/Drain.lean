import HttpLifecycle.Error
import HttpLifecycle.Note

namespace HttpLifecycle

/-- Graceful drain of one connection: announce the shutdown, let streams run
for a while, then send the final signal. The coordinator sequences the phases;
announcing and finalizing are events that its owner carries out. -/
inductive Drain.Phase where
  | idle
  | start
  | wait
  | closed
  deriving DecidableEq, Repr

structure Drain where
  phase : Drain.Phase := .idle
  reason : Option Reason := none
  startedAt : Option Instant := none
  deadline : Option Instant := none
  deriving DecidableEq, Repr

namespace Drain

namespace Phase

def rank : Phase → Nat
  | idle => 0
  | start => 1
  | wait => 2
  | closed => 3

def text : Phase → String
  | idle => "Idle"
  | start => "DrainStart"
  | wait => "DrainWait"
  | closed => "Closed"

end Phase

inductive Event where
  | note (n : Note)
  | announce (r : Reason)
  | finalize (r : Reason)
  deriving DecidableEq, Repr

def isDraining (d : Drain) : Bool := d.phase == .start || d.phase == .wait

def isClosed (d : Drain) : Bool := d.phase == .closed

def finish (d : Drain) (now : Instant) : Step Drain Event Unit :=
  let reason := d.reason.getD .serverShutdown
  let elapsed : Duration := (d.startedAt.map now.since).getD 0
  ⟨{ d with phase := .closed, deadline := none },
    [.note ⟨.info, "connection drain finished",
        [("reason", .text reason.tag), ("elapsed_us", .micros elapsed)]⟩,
      .finalize reason], ()⟩

/-- A later trigger is turned away and moves no deadline, but a reason that the
protocol requires takes the place of the application's wish. -/
def race (d : Drain) (reason : Reason) : Step Drain Event (Except Error Unit) :=
  let current := d.reason.getD reason
  if d.phase ≠ .closed ∧ current = .appRequested ∧ reason.required then
    ⟨{ d with reason := some reason },
      [.note ⟨.debug, "protocol shutdown reason supersedes application request",
        [("from", .text current.tag), ("to", .text reason.tag)]⟩],
      .error (.shutdownRace current)⟩
  else ⟨d, [], .error (.shutdownRace current)⟩

/-- Announces and schedules the end. With nothing to wait for, the end comes at
once. An end that the clock cannot tell stops the call: there is no answer then,
and the drain is left waiting with no end set. -/
def startOn (clock : Clock) (d : Drain) (reason : Reason) (wait : Duration) (now : Instant) :
    Step Drain Event (Option (Except Error Unit)) :=
  if d.phase ≠ .idle then
    let s := d.race reason
    ⟨s.state, s.events, some s.result⟩
  else
    let opening : List Event :=
      [.note ⟨.info, "starting connection drain",
          [("reason", .text reason.tag), ("drain_us", .micros wait)]⟩,
        .announce reason]
    let d := { d with phase := .start, reason := some reason, startedAt := some now }
    if wait = 0 then
      let s := d.finish now
      ⟨s.state, opening ++ s.events, some (.ok ())⟩
    else
      let d := { d with phase := .wait }
      if clock.tells (now + wait) then
        ⟨{ d with deadline := some (now + wait) }, opening, some (.ok ())⟩
      else ⟨d, opening, none⟩

/-- A start on a clock that tells every instant always has an answer. -/
def start (d : Drain) (reason : Reason) (wait : Duration) (now : Instant) :
    Step Drain Event (Except Error Unit) :=
  let s := d.startOn .endless reason wait now
  ⟨s.state, s.events, s.result.getD (.ok ())⟩

def force (d : Drain) (reason : Reason) (now : Instant) : Step Drain Event Bool :=
  if d.phase = .closed then ⟨d, [], false⟩
  else
    let reason := d.reason.getD reason
    let s := finish { d with reason := some reason } now
    ⟨s.state,
      .note ⟨.warn, "forcing connection close",
        [("reason", .text reason.tag), ("phase", .text d.phase.text)]⟩ :: s.events,
      true⟩

/-- Drops the pending end. False if none was pending. -/
def cancel (d : Drain) : Step Drain Event Bool :=
  if d.deadline.isSome then
    ⟨{ d with deadline := none },
      [.note ⟨.debug, "drain end cancelled", [("phase", .text d.phase.text)]⟩], true⟩
  else ⟨d, [], false⟩

def poll (d : Drain) (now : Instant) : Step Drain Event Bool :=
  if d.deadline.any (· ≤ now) ∧ d.phase = .wait then
    let s := d.finish now
    ⟨s.state, s.events, true⟩
  else ⟨d, [], false⟩

end Drain

end HttpLifecycle
