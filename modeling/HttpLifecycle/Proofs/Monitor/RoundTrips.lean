import HttpLifecycle.Proofs.Monitor.Probes
import Mathlib

namespace HttpLifecycle.Monitor

/-- When the last ping went out, as the answers of the calls tell. -/
def sentAt (m : Monitor) (last : Instant) : Call → Instant
  | .poll now => if (m.poll now).result.isSome then now else last
  | _ => last

def trip (m : Monitor) (last : Instant) : Call → List Duration
  | .ack payload now => if (m.ack payload now).result then [now.since last] else []
  | _ => []

/-- The round trips of a run, one for each acknowledgement that was taken. -/
def trips : Monitor → Instant → List Call → List Duration
  | _, _, [] => []
  | m, last, x :: rest => m.trip last x ++ trips (m.after x) (m.sentAt last x) rest

def Clocked (p : Probes) (last : Instant) : Prop :=
  ∀ ping, p.outstanding = some ping → ping.sentAt = last

variable {m : Monitor} {last : Instant} {x : Call}

theorem sentAt_unsent (h : m.sent? x = none) (last : Instant) : m.sentAt last x = last := by
  cases x with
  | poll now =>
      have hr : (m.poll now).result = none := h
      simp [sentAt, hr]
  | _ => rfl

theorem trip_unacked (h : m.acked? x = none) (last : Instant) : m.trip last x = [] := by
  cases x with
  | ack payload now =>
      have hr : (m.ack payload now).result = false := by simpa [acked?] using h
      simp [trip, hr]
  | _ => rfl

theorem Clocked.after (h : Clocked m.probes last) (x : Call) :
    Clocked (m.after x).probes (m.sentAt last x) ∧
      (m.after x).probes.acked = m.pingsAcked + (m.trip last x).length ∧
      (m.after x).probes.roundTrips = m.roundTrips + (m.trip last x).sum := by
  have hx := m.after_probing x
  generalize (m.after x).probes = p at hx
  cases hx with
  | still _ hsent hacked =>
      rw [sentAt_unsent hsent, trip_unacked hacked]
      exact ⟨h, rfl, rfl⟩
  | armed now | heard now frame => exact ⟨h, rfl, rfl⟩
  | sent now hr =>
      have hnow : m.sentAt last (.poll now) = now := by simp [sentAt, hr]
      rw [hnow]
      refine ⟨?_, rfl, rfl⟩
      rintro ping ⟨⟩
      rfl
  | acked ping now hr hout =>
      have htrip : m.trip last (.ack ping.payload now) = [now.since ping.sentAt] := by
        simp [trip, hr, h ping hout]
      rw [htrip]
      exact ⟨nofun, rfl, rfl⟩
  | dropped now => exact ⟨nofun, rfl, rfl⟩

theorem Clocked.run (h : Clocked m.probes last) (xs : List Call) :
    (m.run xs).pingsAcked = m.pingsAcked + (m.trips last xs).length ∧
      (m.run xs).roundTrips = m.roundTrips + (m.trips last xs).sum := by
  induction xs generalizing m last with
  | nil => exact ⟨rfl, rfl⟩
  | cons x rest ih =>
      obtain ⟨hclock, hacked, htrips⟩ := h.after x
      obtain ⟨hackedRest, htripsRest⟩ := ih hclock
      rw [trips, List.length_append, List.sum_append, ← Nat.add_assoc, ← Nat.add_assoc, ← hacked,
        ← htrips]
      exact ⟨hackedRest, htripsRest⟩

theorem run_trips (k : KeepAlive) (xs : List Call) :
    ((fresh k).run xs).pingsAcked = ((fresh k).trips 0 xs).length ∧
      ((fresh k).run xs).roundTrips = ((fresh k).trips 0 xs).sum := by
  have hclock : Clocked (fresh k).probes 0 := nofun
  simpa only [fresh, Nat.zero_add] using hclock.run xs

theorem stats?_average (m : Monitor) :
    m.stats?.map (·.averageRoundTrip) =
      if m.pingsAcked = 0 then some none
      else if Word.wrap32 m.pingsAcked = 0 then none
      else some (some (m.roundTrips / Word.wrap32 m.pingsAcked)) := by
  by_cases hz : m.pingsAcked = 0
  · simp [stats?, hz]
  · by_cases hw : Word.wrap32 m.pingsAcked = 0 <;> simp [stats?, hz, hw]

/-- Rounded down. -/
def mean? (ds : List Duration) : Option Duration :=
  if ds = [] then none else some (ds.sum / ds.length)

/-- The average is taken over the number of round trips as a 32-bit word. So it
is the true one for as many as such a word can tell, and beyond that only where
the two quotients happen to agree. -/
theorem average_of_trips (k : KeepAlive) (xs : List Call) :
    let m := (fresh k).run xs
    let ds := (fresh k).trips 0 xs
    ds.length = m.pingsAcked ∧
      (m.stats?.map (·.averageRoundTrip) =
        if ds = [] then some none
        else if Word.wrap32 ds.length = 0 then none
        else some (some (ds.sum / Word.wrap32 ds.length))) ∧
      (m.stats?.map (·.averageRoundTrip) = some (mean? ds) ↔
        ds = [] ∨ Word.wrap32 ds.length ≠ 0 ∧
          ds.sum / Word.wrap32 ds.length = ds.sum / ds.length) ∧
      (ds.length < Word.size32 → m.stats?.map (·.averageRoundTrip) = some (mean? ds)) := by
  intro m ds
  obtain ⟨hacked, htrips⟩ := run_trips k xs
  have hlength : ds.length = m.pingsAcked := hacked.symm
  have hsum : ds.sum = m.roundTrips := htrips.symm
  have haverage : m.stats?.map (·.averageRoundTrip) =
      if ds = [] then some none
      else if Word.wrap32 ds.length = 0 then none
      else some (some (ds.sum / Word.wrap32 ds.length)) := by
    rw [stats?_average, hlength, hsum]
    simp only [← List.length_eq_zero_iff, hlength]
  have hiff : m.stats?.map (·.averageRoundTrip) = some (mean? ds) ↔
      ds = [] ∨ Word.wrap32 ds.length ≠ 0 ∧
        ds.sum / Word.wrap32 ds.length = ds.sum / ds.length := by
    rw [haverage, mean?]
    by_cases hempty : ds = []
    · simp [hempty]
    · by_cases hzero : Word.wrap32 ds.length = 0 <;> simp [hempty, hzero]
  refine ⟨hlength, haverage, hiff, fun hlt => hiff.mpr ?_⟩
  have hword : Word.wrap32 ds.length = ds.length := Nat.mod_eq_of_lt hlt
  rw [hword]
  by_cases hempty : ds = []
  · exact .inl hempty
  · exact .inr ⟨fun hzero => hempty (List.length_eq_zero_iff.mp hzero), rfl⟩

theorem average_of_trips_rounded :
    let k : KeepAlive := { idleTimeoutMillis := 0, pingIntervalMillis := 1000 }
    let xs : List Call :=
      [.arm 0, .poll 1000000000, .ack 1 1000000010, .poll 2000000010, .ack 1 2000000015,
        .ack 2 2000000030, .activity 2500000000 .data, .poll 3500000000, .ack 3 3500000005]
    (fresh k).trips 0 xs = [10, 20, 5] ∧ [10, 20, 5].length < Word.size32 ∧
      ((fresh k).run xs).stats?.map (·.averageRoundTrip) = some (some 11) := by
  intro k xs
  have htrips : (fresh k).trips 0 xs = [10, 20, 5] := by decide
  have hlt : [10, 20, 5].length < Word.size32 := by decide
  have haverage := (average_of_trips k xs).2.2.2 (by rwa [htrips])
  rw [htrips] at haverage
  exact ⟨htrips, hlt, haverage⟩

def brisk : KeepAlive := { idleTimeoutMillis := 0, pingIntervalMillis := 1 }

/-- Each ping is sent when it is due and acknowledged half a millisecond later. -/
def rounds : Nat → List Call
  | 0 => [.arm 0]
  | n + 1 => rounds n ++
      [.poll (1000000 + n * 1500000), .ack (Word.wrap (n + 1)) (1500000 + n * 1500000)]

structure Rested (n : Nat) (m : Monitor) : Prop where
  active : m.stage = .active
  healthy : m.unhealthy = false
  limits : m.limits = brisk
  probes : m.probes = ⟨some (1000000 + n * 1500000), none, Word.wrap (n + 1), n, n, n * 500000⟩

theorem probes_sent {payload : Nat} {now : Instant} (h : (m.poll now).result = some payload) :
    (m.after (.poll now)).probes =
      { m.probes with
        pingAt := none
        outstanding := some ⟨m.nextPayload, now, now + m.limits.patience⟩
        nextPayload := Word.wrap (m.nextPayload + 1)
        sent := m.pingsSent + 1 } := by
  have hx := m.after_probing (.poll now)
  generalize (m.after (.poll now)).probes = p at hx
  cases hx with
  | still _ hnone =>
      have hr : (m.poll now).result = none := hnone
      rw [hr] at h
      contradiction
  | sent now hr => rfl

theorem Rested.sends {n : Nat} (h : Rested n m) {t : Instant} (ht : 1000000 + n * 1500000 = t) :
    (m.poll t).result = some m.nextPayload := by
  have hat : m.pingAt = some t := ht ▸ congrArg Probes.pingAt h.probes
  have hout : m.outstanding = none := congrArg Probes.outstanding h.probes
  have hinterval : m.limits.pingInterval?.isSome := by rw [h.limits]; rfl
  exact poll_due h.active hinterval hat (Nat.le_refl _) hout h.healthy

theorem Rested.round {n : Nat} (h : Rested n m) : Rested (n + 1) (m.run
    [.poll (1000000 + n * 1500000), .ack (Word.wrap (n + 1)) (1500000 + n * 1500000)]) := by
  have hnext : m.nextPayload = Word.wrap (n + 1) := congrArg Probes.nextPayload h.probes
  have hsent := h.sends rfl
  obtain ⟨-, -, -, hhealthy, hping⟩ := poll_sent hsent
  have hprobes := probes_sent hsent
  have hlimits : (m.poll (1000000 + n * 1500000)).state.limits = brisk :=
    (poll_change m _).limits.trans h.limits
  rw [← hnext]
  show Rested (n + 1) ((m.poll (1000000 + n * 1500000)).state.ack m.nextPayload _).state
  rw [ack_taken_state hping hhealthy]
  refine ⟨(poll_stage m _).trans h.active, hhealthy, hlimits, ?_⟩
  rw [h.probes] at hprobes
  simp only [Monitor.probes, after, Probes.mk.injEq] at hprobes
  obtain ⟨-, -, hpayload, hsentCount, hacked, htrips⟩ := hprobes
  simp only [Monitor.probes, Probes.mk.injEq, hlimits, hpayload, hsentCount, hacked, htrips, hnext,
    Word.wrap_succ]
  refine ⟨congrArg some ?_, trivial, trivial, congrArg (· + 1) (congrArg Probes.sent h.probes),
    trivial, ?_⟩
  · show (1500000 + n * 1500000 + 1000000 : Nat) = 1000000 + (n + 1) * 1500000
    omega
  · show (n * 500000 + (1500000 + n * 1500000 - (1000000 + n * 1500000)) : Nat) = (n + 1) * 500000
    omega

theorem rested_rounds (n : Nat) : Rested n ((fresh brisk).run (rounds n)) := by
  induction n with
  | zero => exact ⟨rfl, rfl, rfl, rfl⟩
  | succ n ih =>
      rw [rounds, run_append]
      exact ih.round

theorem rounds_acked (n : Nat) : ((fresh brisk).run (rounds n)).pingsAcked = n :=
  congrArg Probes.acked (rested_rounds n).probes

theorem rounds_trips (n : Nat) :
    ((fresh brisk).trips 0 (rounds n)).length = n ∧
      ((fresh brisk).trips 0 (rounds n)).sum = n * 500000 := by
  obtain ⟨hacked, htrips⟩ := run_trips brisk (rounds n)
  rw [← hacked, ← htrips]
  exact ⟨rounds_acked n, congrArg Probes.roundTrips (rested_rounds n).probes⟩

theorem rounds_average {n : Nat} (h : n ≠ 0) :
    ((fresh brisk).run (rounds n)).stats?.map (·.averageRoundTrip) =
      if Word.wrap32 n = 0 then none else some (some (n * 500000 / Word.wrap32 n)) := by
  have htrips : ((fresh brisk).run (rounds n)).roundTrips = n * 500000 :=
    congrArg Probes.roundTrips (rested_rounds n).probes
  rw [stats?_average, rounds_acked, htrips, if_neg h]

/-- With as many round trips as a 32-bit word has values there is no report, and
with one more their sum is taken for the average. -/
theorem average_lost :
    ((fresh brisk).run (rounds 4294967296)).pingsAcked = 4294967296 ∧
      ((fresh brisk).run (rounds 4294967296)).stats? = none ∧
      ((fresh brisk).trips 0 (rounds 4294967297)).length = 4294967297 ∧
      ((fresh brisk).trips 0 (rounds 4294967297)).sum = 4294967297 * 500000 ∧
      ((fresh brisk).run (rounds 4294967297)).stats?.map (·.averageRoundTrip) =
        some (some (4294967297 * 500000)) := by
  refine ⟨rounds_acked _, Option.map_eq_none_iff.mp (rounds_average (by decide)),
    (rounds_trips _).1, (rounds_trips _).2, ?_⟩
  rw [rounds_average (by decide)]
  rfl

end HttpLifecycle.Monitor
