import HttpLifecycle.Config
import HttpLifecycle.Note
import HttpLifecycle.Word

namespace HttpLifecycle

inductive Signal where
  | suspend
  | resume
  deriving DecidableEq, Repr

/-- Counts the bytes that were read from the transport and that no consumer
has taken yet, and holds reading back while there are too many. -/
structure Gate where
  marks : Marks
  unread : Nat := 0
  suspended : Bool := false
  suspends : Nat := 0
  resumes : Nat := 0
  deriving DecidableEq, Repr

namespace Gate

inductive Event where
  | note (n : Note)
  | signal (s : Signal)
  deriving DecidableEq, Repr

def disabled : Gate := { marks := { high := 0, low := 0 } }

def suspendNote (g : Gate) : Note :=
  ⟨.debug, "suspending inbound reads",
    [("unread", .num g.unread), ("high_water_mark", .num g.marks.high)]⟩

def resumeNote (g : Gate) : Note :=
  ⟨.debug, "resuming inbound reads",
    [("unread", .num g.unread), ("low_water_mark", .num g.marks.low)]⟩

def settle (g : Gate) : Step Gate Event (Option Signal) :=
  if g.marks.high = 0 then ⟨g, [], none⟩
  else if !g.suspended && decide (g.marks.high ≤ g.unread) then
    ⟨{ g with suspended := true, suspends := g.suspends + 1 },
      [.note g.suspendNote, .signal .suspend], some .suspend⟩
  else if g.suspended && decide (g.unread ≤ g.marks.low) then
    ⟨{ g with suspended := false, resumes := g.resumes + 1 },
      [.note g.resumeNote, .signal .resume], some .resume⟩
  else ⟨g, [], none⟩

/-- `n` bytes came in. The count is a 64-bit word and wraps. -/
def arrive (g : Gate) (n : Nat) : Step Gate Event (Option Signal) :=
  settle { g with unread := Word.wrap (g.unread + n) }

/-- `n` bytes were consumed. The count stops at zero. -/
def release (g : Gate) (n : Nat) : Step Gate Event (Option Signal) :=
  settle { g with unread := g.unread - n }

def statsText (g : Gate) : String :=
  Text.record "TrafficStats" [
    ("unread_bytes", toString g.unread),
    ("suspended", Text.bool g.suspended),
    ("suspend_count", toString g.suspends),
    ("resume_count", toString g.resumes)]

def text (g : Gate) : String :=
  Text.record "TrafficController" [("config", g.marks.text), ("stats", g.statsText)]

end Gate

end HttpLifecycle
