import HttpLifecycle.Decimal.Shortest
import HttpLifecycle.Metrics.Basic

namespace HttpLifecycle.Metrics

def family : String := "stratus_connection_lifespan_seconds"

def escape (s : String) : String :=
  String.ofList (s.toList.flatMap fun c =>
    if c = '\\' then ['\\', '\\']
    else if c = '\n' then ['\\', 'n']
    else if c = '\x22' then ['\\', '\x22']
    else [c])

def sample (suffix label extra value : String) : String :=
  family ++ suffix ++ "\x7bprotocol=\"" ++ escape label ++ "\"" ++ extra ++ "\x7d " ++ value ++
    "\n"

/-- Buckets are written cumulatively, the last of them with everything. -/
def bucketLines (label : String) : Nat → List Float → List Nat → String
  | total, bound :: bounds, n :: counts =>
    sample "_bucket" label (",le=\"" ++ Decimal.shortest bound ++ "\"") (toString (total + n)) ++
      bucketLines label (total + n) bounds counts
  | total, _, counts =>
    sample "_bucket" label ",le=\"+Inf\"" (toString (total + Histogram.total counts))

def histogramLines (label : String) (h : Histogram) : String :=
  bucketLines label 0 Histogram.bounds h.buckets ++
    sample "_sum" label "" (Decimal.shortest h.sum) ++
    sample "_count" label "" (toString h.samples)

def render (m : Metrics) : String :=
  if m.lifespans.isEmpty then ""
  else
    let sorted := m.lifespans.mergeSort fun a b => !decide (b.1 < a.1)
    "# HELP " ++ family ++
      " Time between keep-alive initialization and teardown of a connection\n" ++
      "# TYPE " ++ family ++ " histogram\n" ++
      String.join (sorted.map fun e => histogramLines e.1 e.2)

end HttpLifecycle.Metrics
