import HttpLifecycle.Proofs.Connection.Lifecycle
import HttpLifecycle.Proofs.Metrics.Totals

namespace HttpLifecycle

open Connection

/-- All that a connection is made from. -/
structure Setup where
  id : ConnectionId
  protocol : Protocol
  config : Config := {}
  routes : Resolver := fun _ => none
  handler : Handler := fun _ _ => []
  start : Instant := 0

def Setup.create (u : Setup) : Connection :=
  .create u.id u.protocol u.config u.routes u.handler u.start

structure Fleet where
  connections : List Connection
  metrics : Metrics := {}

abbrev Traffic := List (Nat × Call)

def Traffic.calls (ops : Traffic) (i : Nat) : List Call :=
  ops.filterMap fun o => if o.1 = i then some o.2 else none

namespace Fleet

def launch (us : List Setup) : Fleet := { connections := us.map Setup.create }

def step (f : Fleet) (o : Nat × Call) : Fleet :=
  match f.connections[o.1]? with
  | none => f
  | some c =>
    { connections := f.connections.set o.1 (c.after o.2)
      metrics := f.metrics.recordAll ((c.after o.2).journal.drop c.journal.length) }

def run (f : Fleet) (ops : Traffic) : Fleet := ops.foldl step f

def tally (us : List Setup) (ops : Traffic) (p : Setup → List Call → Bool) : Nat :=
  us.zipIdx.countP fun e => p e.1 (ops.calls e.2)

variable {f : Fleet}

theorem step_connection (f : Fleet) (o : Nat × Call) (i : Nat) :
    (f.step o).connections[i]? =
      f.connections[i]?.map fun c => if o.1 = i then c.after o.2 else c := by
  rw [step]
  cases hc : f.connections[o.1]? with
  | none =>
      by_cases hi : o.1 = i
      · rw [← hi, hc]
        rfl
      · simp [hi]
  | some c =>
      by_cases hi : o.1 = i
      · subst hi
        simp [hc, List.getElem?_set_self', Option.map]
      · simp [hi, List.getElem?_set_ne hi]

theorem run_connection (f : Fleet) (ops : Traffic) (i : Nat) :
    (f.run ops).connections[i]? = f.connections[i]?.map fun c => c.run (ops.calls i) := by
  induction ops generalizing f with
  | nil => simp [run, Traffic.calls, Connection.run]
  | cons o rest ih =>
      have hrest : (f.run (o :: rest)).connections[i]? = _ := ih (f.step o)
      rw [hrest, step_connection, Option.map_map]
      congr 1
      funext c
      by_cases hi : o.1 = i <;> simp [Traffic.calls, hi, Connection.run]

theorem run_connections (us : List Setup) (ops : Traffic) :
    ((launch us).run ops).connections =
      us.zipIdx.map fun e => e.1.create.run (ops.calls e.2) := by
  apply List.ext_getElem?
  intro i
  rw [run_connection]
  simp [launch, List.getElem?_zipIdx, Option.map_map]
  rfl

def sumOf {α : Type} (g : α → Nat) (as : List α) : Nat := as.foldr (fun a n => g a + n) 0

theorem sumOf_cons {α : Type} (g : α → Nat) (a : α) (as : List α) :
    sumOf g (a :: as) = g a + sumOf g as := rfl

theorem sumOf_set {cs : List Connection} {i : Nat} {c d : Connection} (g : Connection → Nat)
    {n : Nat} (hc : cs[i]? = some c) (h : g d = g c + n) :
    sumOf g (cs.set i d) = sumOf g cs + n := by
  induction cs generalizing i with
  | nil => contradiction
  | cons e rest ih =>
      cases i with
      | zero =>
          obtain rfl : e = c := by simpa using hc
          rw [List.set_cons_zero, sumOf_cons, sumOf_cons]
          omega
      | succ i =>
          have hrest := ih (i := i) (by simpa using hc)
          rw [List.set_cons_succ, sumOf_cons, sumOf_cons]
          omega

/-- The shared metrics are what the connections told, added up. -/
structure Booked (f : Fleet) : Prop where
  coherent : ∀ c ∈ f.connections, Coherent c
  sized : f.metrics.Sized
  counts : ∀ k, f.metrics.counts k = sumOf (fun c => c.journal.count (.count k)) f.connections
  samples : ∀ p : Protocol, f.metrics.samples p.label =
    sumOf (fun c => c.journal.countP (·.lasts p)) f.connections

theorem sumOf_launch (us : List Setup) (g : Connection → Nat) (h : ∀ u : Setup, g u.create = 0) :
    sumOf g (launch us).connections = 0 := by
  induction us with
  | nil => rfl
  | cons u rest ih =>
      have hcons : sumOf g (launch (u :: rest)).connections =
          g u.create + sumOf g (launch rest).connections := rfl
      rw [hcons, h, ih]

theorem booked_launch (us : List Setup) : Booked (launch us) where
  coherent c hc := by
    obtain ⟨u, -, rfl⟩ := List.mem_map.mp hc
    exact coherent_create u.id u.protocol u.config u.routes u.handler u.start
  sized := Metrics.sized_fresh
  counts k := (sumOf_launch us _ fun _ => rfl).symm
  samples p := (sumOf_launch us _ fun _ => rfl).symm

theorem Booked.step (h : Booked f) (o : Nat × Call) : Booked (f.step o) := by
  rw [Fleet.step]
  split
  · exact h
  · rename_i c hc
    have hcoh := h.coherent c (List.mem_of_getElem? hc)
    obtain ⟨es, hjournal, -⟩ := (after_passed hcoh o.2).journal
    have hdrop : (c.after o.2).journal.drop c.journal.length = es := by
      rw [hjournal, List.drop_left]
    rw [hdrop]
    refine ⟨fun d hd => ?_, h.sized.recordAll es, fun k => ?_, fun p => ?_⟩
    · rcases List.mem_or_eq_of_mem_set hd with hd | rfl
      · exact h.coherent d hd
      · exact invariant_coherent.after hcoh hcoh o.2
    · rw [Metrics.counts_recordAll, h.counts, sumOf_set _ hc]
      rw [hjournal, List.count_append]
    · rw [h.sized.samples_recordAll, h.samples, sumOf_set _ hc]
      rw [hjournal, List.countP_append]

theorem Booked.run (h : Booked f) (ops : Traffic) : Booked (f.run ops) := by
  induction ops generalizing f with
  | nil => exact h
  | cons o rest ih => exact ih (h.step o)

theorem sumOf_toNat {α : Type} (p : α → Bool) (as : List α) :
    sumOf (fun a => (p a).toNat) as = as.countP p := by
  induction as with
  | nil => rfl
  | cons a rest ih =>
      rw [sumOf_cons, ih, List.countP_cons, Nat.add_comm]
      cases p a <;> rfl

theorem run_tally (us : List Setup) (ops : Traffic) (g : Connection → Nat)
    (p : Setup → List Call → Bool)
    (h : ∀ (u : Setup) (xs : List Call), g (u.create.run xs) = (p u xs).toNat) :
    sumOf g ((launch us).run ops).connections = tally us ops p := by
  rw [run_connections, sumOf, List.foldr_map, tally, ← sumOf_toNat]
  simp only [h]
  rfl

theorem opened_count (es : List Effect) : (es.filterMap Effect.landmark?).count .opened =
    es.count (.count .connectionsOpened) := by
  refine count_shown (fun e => ?_) es
  cases e with
  | count k => cases k <;> simp [Effect.landmark?]
  | _ => simp [Effect.landmark?]

theorem closed_count (es : List Effect) : (es.filterMap Effect.landmark?).count .closed =
    es.count (.count .connectionsClosed) := by
  refine count_shown (fun e => ?_) es
  cases e with
  | count k => cases k <;> simp [Effect.landmark?]
  | _ => simp [Effect.landmark?]

theorem lifespans_count (es : List Effect) (p : Protocol) :
    (es.filterMap Effect.landmark?).count (.lifespan p) = es.countP (·.lasts p) := by
  rw [List.count_filterMap]
  apply List.countP_congr
  intro e _
  cases e with
  | count k => cases k <;> simp [Effect.landmark?, Effect.lasts]
  | _ => simp [Effect.landmark?, Effect.lasts]

end Fleet

namespace Setup

variable (u : Setup) (xs : List Call)

def watched : Bool :=
  !(u.create.armings xs).isEmpty && (u.create.run xs).monitor.stage == .destroyed

theorem chronicle : Chronicle u.create xs (u.create.run xs) :=
  chronicle_run u.id u.protocol u.config u.routes u.handler u.start xs

theorem coherent : Coherent (u.create.run xs) :=
  coherent_run u.id u.protocol u.config u.routes u.handler u.start xs

theorem opened : (u.create.run xs).journal.count (.count .connectionsOpened) = (came xs).toNat := by
  rw [← Fleet.opened_count]
  exact (u.chronicle xs).opened

theorem closed : (u.create.run xs).journal.count (.count .connectionsClosed) =
    (came xs && gone xs).toNat := by
  rw [← Fleet.closed_count]
  exact (u.chronicle xs).closed

theorem lifespans (p : Protocol) : (u.create.run xs).journal.countP (·.lasts p) =
    (u.protocol == p && u.watched xs).toNat := by
  have hprotocol : u.create.protocol = u.protocol := rfl
  rw [← Fleet.lifespans_count, (u.chronicle xs).lifespans, watched, (u.chronicle xs).armings,
    hprotocol]
  by_cases hp : p = u.protocol
  · cases hs : (u.create.run xs).monitor.stage <;>
      cases ht : (u.create.run xs).monitor.startedAt <;> simp [hp] <;> rfl
  · have hother : (u.protocol == p) = false := beq_false_of_ne fun he => hp he.symm
    simp [hp, hother]

theorem armings_length : (u.create.armings xs).length ≤ 1 := by
  rw [(u.chronicle xs).armings]
  cases (u.create.run xs).monitor.startedAt <;> simp

theorem starts (x : Call) :
    let c := u.create.run xs
    c.monitor.stage ≠ .active ∧ (c.after x).monitor.stage = .active ↔
      seen xs = false ∧ seen (xs ++ [x]) = true ∧ u.config.keepAlive.enabled = true ∧
        c.state.rank < State.closing.rank := by
  intro c
  have hlimits : c.monitor.limits = u.config.keepAlive :=
    limits_run u.id u.protocol u.config u.routes u.handler u.start xs
  rw [← hlimits]
  exact (u.chronicle xs).starts rfl (u.coherent xs)

end Setup

namespace Fleet

theorem tally_split (us : List Setup) (ops : Traffic) :
    tally us ops (fun _ xs => came xs) = tally us ops (fun _ xs => came xs && gone xs) +
      tally us ops (fun _ xs => came xs && !gone xs) := by
  rw [tally, tally, tally]
  induction us.zipIdx with
  | nil => rfl
  | cons e rest ih =>
      rw [List.countP_cons, List.countP_cons, List.countP_cons, ih]
      cases came (ops.calls e.2) <;> cases gone (ops.calls e.2) <;> simp <;> omega

/-- However the calls to connections that share their metrics are mixed, each
connection adds to them by its own history alone: it counts as opened and as
closed at most once, and as active in between. Its monitor starts at most once,
with the second of the two events it waits for, and a lifespan goes on record
once for each monitor that stopped after it had started. -/
theorem lifecycle_accounted (us : List Setup) (ops : Traffic) :
    let f := (launch us).run ops
    f.metrics.active = tally us ops (fun _ xs => came xs && !gone xs) ∧
    f.metrics.counts .connectionsOpened = tally us ops (fun _ xs => came xs) ∧
    f.metrics.counts .connectionsClosed = tally us ops (fun _ xs => came xs && gone xs) ∧
    (∀ p : Protocol, f.metrics.samples p.label =
      tally us ops fun u xs => u.protocol == p && u.watched xs) ∧
    ∀ i u, us[i]? = some u →
      let xs := ops.calls i
      f.connections[i]? = some (u.create.run xs) ∧
      (u.create.run xs).journal.count (.count .connectionsOpened) = (came xs).toNat ∧
      (u.create.run xs).journal.count (.count .connectionsClosed) = (came xs && gone xs).toNat ∧
      (∀ p, (u.create.run xs).journal.countP (·.lasts p) =
        (u.protocol == p && u.watched xs).toNat) ∧
      (u.create.armings xs).length ≤ 1 ∧
      ∀ ys x zs, xs = ys ++ x :: zs →
        let c := u.create.run ys
        (c.monitor.stage ≠ .active ∧ (c.after x).monitor.stage = .active ↔
          seen ys = false ∧ seen (ys ++ [x]) = true ∧ u.config.keepAlive.enabled = true ∧
            c.state.rank < State.closing.rank) := by
  intro f
  have hbooked : Booked f := (booked_launch us).run ops
  have hopened : f.metrics.counts .connectionsOpened = tally us ops (fun _ xs => came xs) := by
    rw [hbooked.counts]
    exact run_tally us ops _ _ fun u xs => u.opened xs
  have hclosed : f.metrics.counts .connectionsClosed =
      tally us ops (fun _ xs => came xs && gone xs) := by
    rw [hbooked.counts]
    exact run_tally us ops _ _ fun u xs => u.closed xs
  refine ⟨?_, hopened, hclosed, fun p => ?_, fun i u hu => ?_⟩
  · rw [Metrics.active, hopened, hclosed, tally_split, Nat.add_sub_cancel_left]
  · rw [hbooked.samples]
    exact run_tally us ops _ _ fun u xs => u.lifespans xs p
  · intro xs
    refine ⟨?_, u.opened xs, u.closed xs, u.lifespans xs, u.armings_length xs, ?_⟩
    · rw [run_connection, launch, List.getElem?_map, hu]
      rfl
    · intro ys x zs _
      exact u.starts ys x

end Fleet

end HttpLifecycle
