import HttpLifecycle.Effect

namespace HttpLifecycle

structure Histogram where
  buckets : List Nat
  sum : Float

namespace Histogram

/-- Upper ends of the buckets, in seconds. -/
def bounds : List Float := [0.1, 0.5, 1, 5, 10, 30, 60, 300, 900, 3600, 14400]

def empty : Histogram := ⟨List.replicate (bounds.length + 1) 0, 0⟩

def total (buckets : List Nat) : Nat := buckets.foldr (· + ·) 0

def samples (h : Histogram) : Nat := total h.buckets

def bucketOf (seconds : Float) : Nat := (bounds.takeWhile fun b => !(seconds ≤ b)).length

def seconds (d : Duration) : Float :=
  Float.ofNat (d / 1000000000) + Float.ofNat (d % 1000000000) / 1000000000

def observe (h : Histogram) (d : Duration) : Histogram :=
  { buckets := h.buckets.modify (bucketOf (seconds d)) (· + 1)
    sum := h.sum + seconds d }

end Histogram

structure Metrics where
  counts : Counter → Nat := fun _ => 0
  lifespans : List (String × Histogram) := []

namespace Metrics

def add (m : Metrics) (k : Counter) (n : Nat) : Metrics :=
  { m with counts := fun j => if j = k then m.counts j + n else m.counts j }

def active (m : Metrics) : Nat := m.counts .connectionsOpened - m.counts .connectionsClosed

def histogram (m : Metrics) (label : String) : Histogram :=
  (m.lifespans.lookup label).getD .empty

def touch (m : Metrics) (label : String) : Metrics :=
  if (m.lifespans.lookup label).isSome then m
  else { m with lifespans := m.lifespans ++ [(label, .empty)] }

def observe (m : Metrics) (label : String) (d : Duration) : Metrics :=
  let m := m.touch label
  { m with
    lifespans := m.lifespans.map fun e => if e.1 = label then (e.1, e.2.observe d) else e }

def samples (m : Metrics) (label : String) : Nat := (m.histogram label).samples

def record (m : Metrics) : Effect → Metrics
  | .count k => m.add k 1
  | .lifespan p d => m.observe p.label d
  | _ => m

def recordAll (m : Metrics) (es : List Effect) : Metrics := es.foldl record m

def snapshot (m : Metrics) : List (String × Nat) :=
  let named (k : Counter) : String × Nat := (k.name, m.counts k)
  [named .connectionsOpened, named .connectionsClosed, ("active_connections", m.active)] ++
    [.streamsOpened, .streamsRefused, .requestsAborted, .aggregationFailures, .drainsStarted,
      .immediateDisconnects, .pingsSent, .pingTimeouts].map named

def text (m : Metrics) : String :=
  Text.record "TransportMetrics" [
    ("snapshot", Text.record "MetricsSnapshot" (m.snapshot.map fun e => (e.1, toString e.2)))]

end Metrics

end HttpLifecycle
