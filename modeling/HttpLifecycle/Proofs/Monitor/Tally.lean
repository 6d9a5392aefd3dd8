import HttpLifecycle.Proofs.Monitor.Probes

namespace HttpLifecycle.Monitor

def told (m : Monitor) : Call → List Event
  | .arm now => (m.arm now).events
  | .activity _ _ => []
  | .openStream => m.openStream.events
  | .ack payload now => (m.ack payload now).events
  | .poll now => (m.poll now).events
  | .verdict now => (m.verdict now).events
  | .needsDisconnection now => (m.needsDisconnection now).events
  | .isUnhealthy now => (m.isUnhealthy now).events
  | .destroy now => (m.destroy now).events

def timeouts (es : List Event) : Nat := es.count (.count .pingTimeouts)

@[simp] theorem timeouts_append (es fs : List Event) :
    timeouts (es ++ fs) = timeouts es + timeouts fs := List.count_append

theorem expire_timeouts (m : Monitor) (now : Instant) :
    timeouts (m.expire now).events + m.unhealthy.toNat = (m.expire now).state.unhealthy.toNat := by
  obtain ⟨notes, hevents⟩ := m.expire_events now
  have hnotes : timeouts (notes.map .note) = 0 := List.count_eq_zero.mpr (by simp)
  have hstate : (m.expire now).state.unhealthy = (m.expirePing now).state.unhealthy := by
    rw [expire_state, expirePing_state]
  rw [hevents, timeouts_append, hnotes, Nat.zero_add, hstate, expirePing]
  cases m.outstanding with
  | none => exact Nat.zero_add _
  | some ping =>
      by_cases hd : ping.deadline ≤ now <;> cases hu : m.unhealthy <;> simp [hd, hu, timeouts]

theorem verdict_timeouts (m : Monitor) (now : Instant) :
    timeouts (m.verdict now).events + m.unhealthy.toNat = (m.fired now).unhealthy.toNat := by
  cases hs : m.stage with
  | active => simpa [fired, verdict, hs] using expire_timeouts m now
  | dormant | destroyed => simp [fired, verdict, hs, timeouts]

theorem poll_timeouts (m : Monitor) (now : Instant) :
    timeouts (m.poll now).events = timeouts (m.verdict now).events := by
  by_cases ha : m.stage = .active
  · simp only [poll, verdict, ha, ne_eq, not_true_eq_false, if_false]
    split <;> simp [timeouts]
  · cases hs : m.stage <;> simp_all [poll, verdict]

theorem told_unlooked {m : Monitor} {x : Call} (h : x.look? = none) : timeouts (m.told x) = 0 := by
  cases x with
  | activity now frame => rfl
  | arm now =>
      rw [told, arm]
      split <;> rfl
  | openStream =>
      rw [told, openStream]
      cases m.limits.maxRequests? with
      | none => rfl
      | some max => dsimp only; split <;> rfl
  | ack payload now =>
      rw [told, ack]
      split
      · split <;> rfl
      · rfl
  | destroy now =>
      rw [told, destroy]
      split
      · cases m.startedAt <;> rfl
      · rfl
  | poll now | verdict now | needsDisconnection now | isUnhealthy now => contradiction

theorem told_looked {m : Monitor} {x : Call} {now : Instant} (h : x.look? = some now) :
    timeouts (m.told x) = timeouts (m.verdict now).events := by
  cases x with
  | poll t =>
      obtain rfl := Option.some.inj h
      exact poll_timeouts m t
  | verdict t | needsDisconnection t | isUnhealthy t =>
      obtain rfl := Option.some.inj h
      rfl
  | arm | activity | openStream | ack | destroy => contradiction

theorem told_timeouts (m : Monitor) (x : Call) :
    timeouts (m.told x) + m.unhealthy.toNat = (m.after x).unhealthy.toNat := by
  have hx := m.after_change x
  generalize m.after x = n at hx
  have unlooked (h : x.look? = none) : timeouts (m.told x) + m.unhealthy.toNat =
      m.unhealthy.toNat := by
    rw [told_unlooked h, Nat.zero_add]
  cases hx with
  | armed | rearmed | restarted | overheard | acked | unexpected => exact unlooked rfl
  | opened =>
      rw [openStream_state]
      exact unlooked rfl
  | looked x now hlook =>
      rw [told_looked hlook]
      exact verdict_timeouts m now
  | sent payload now =>
      rw [told_looked rfl]
      exact verdict_timeouts m now
  | destroyed now =>
      rw [destroy_state]
      exact unlooked rfl

def payloads (n : Nat) : List Nat := (List.range' 1 n).map Word.wrap

theorem payloads_succ (n : Nat) : payloads (n + 1) = payloads n ++ [Word.wrap (n + 1)] := by
  rw [payloads, List.range'_concat, List.map_append, Nat.one_mul, Nat.add_comm 1]
  rfl

theorem payloads_of_lt {n : Nat} (h : n < Word.size) : payloads n = List.range' 1 n := by
  refine (List.map_congr_left fun i hi => ?_).trans (List.map_id _)
  have hle := (List.mem_range'_1.mp hi).2
  exact Word.wrap_of_lt (by omega)

/-- The books of the pings: what went out, what came back, and what is on its way. -/
structure Booked (p : Probes) (sends acks : List Nat) : Prop where
  sent : sends = payloads p.sent
  acked : acks = payloads p.acked
  balance : p.sent = p.acked + if p.outstanding.isSome then 1 else 0
  next : p.nextPayload = Word.wrap (p.sent + 1)
  last : ∀ ping, p.outstanding = some ping → ping.payload = Word.wrap p.sent
  streamsKept : p.outstanding.isSome → p.pingAt = none

theorem booked_fresh (k : KeepAlive) : Booked (fresh k).probes [] [] :=
  ⟨rfl, rfl, rfl, rfl, nofun, nofun⟩

variable {m : Monitor} {x : Call} {sends acks : List Nat}

theorem Booked.after (h : Booked m.probes sends acks) (hv : m.Vigilant)
    (hlive : ∀ now, x ≠ .destroy now) :
    Booked (m.after x).probes (sends ++ (m.sent? x).toList) (acks ++ (m.acked? x).toList) := by
  have hx := m.after_probing x
  generalize (m.after x).probes = p at hx
  cases hx with
  | still _ hsent hacked =>
      rw [hsent, hacked, Option.toList_none, List.append_nil, List.append_nil]
      exact h
  | armed now hd =>
      have hout := hv.dormant hd
      simp only [sent?, acked?, Option.toList_none, List.append_nil]
      exact ⟨h.sent, h.acked, h.balance, h.next, h.last,
        fun hsome => by simp [probes, hout] at hsome⟩
  | heard now frame _ hout =>
      simp only [sent?, acked?, Option.toList_none, List.append_nil]
      exact ⟨h.sent, h.acked, h.balance, h.next, h.last,
        fun hsome => by simp [probes, hout] at hsome⟩
  | sent now hr =>
      have hout := (poll_sent hr).2.1
      have hbalance : m.pingsSent = m.pingsAcked := by simpa [probes, hout] using h.balance
      have hnext : m.nextPayload = Word.wrap (m.pingsSent + 1) := h.next
      have hsent : sends = payloads m.pingsSent := h.sent
      simp only [sent?, acked?, hr, Option.toList_none, Option.toList_some, List.append_nil]
      refine ⟨?_, h.acked, ?_, ?_, ?_, fun _ => rfl⟩
      · rw [payloads_succ, hsent, hnext]
      · simp [hbalance, probes]
      · rw [hnext]
        exact Word.wrap_succ _
      · rintro ping ⟨⟩
        exact hnext
  | acked ping now hr hout =>
      have hbalance : m.pingsSent = m.pingsAcked + 1 := by simpa [probes, hout] using h.balance
      have hacked : acks = payloads m.pingsAcked := h.acked
      have hlast : ping.payload = Word.wrap m.pingsSent := h.last ping hout
      simp only [sent?, acked?, hr, if_true, Option.toList_none, Option.toList_some,
        List.append_nil]
      refine ⟨h.sent, ?_, hbalance, h.next, ?_, ?_⟩
      · rw [payloads_succ, hacked, hlast, hbalance]
      · rintro ping ⟨⟩
      · rintro ⟨⟩
  | dropped now => exact absurd rfl (hlive now)

theorem run_booked (k : KeepAlive) (xs : List Call) (hlive : ∀ now, .destroy now ∉ xs) :
    Booked ((fresh k).run xs).probes ((fresh k).sent xs) ((fresh k).acked xs) := by
  induction xs using List.reverseRecOn with
  | nil => exact booked_fresh k
  | append_singleton xs x ih =>
      have hbooked := ih fun now hmem => hlive now (List.mem_append_left _ hmem)
      rw [run_concat, sent, acked, gather_concat, gather_concat]
      refine hbooked.after ((vigilant_fresh k).run xs) ?_
      rintro now rfl
      exact hlive now (by simp)

theorem run_timeouts (m : Monitor) (xs : List Call) :
    timeouts (m.gather told xs) + m.unhealthy.toNat = (m.run xs).unhealthy.toNat := by
  induction xs generalizing m with
  | nil => exact Nat.zero_add _
  | cons x rest ih =>
      have hx := m.told_timeouts x
      have hrest := ih (m.after x)
      rw [gather, timeouts_append]
      show _ = ((m.after x).run rest).unhealthy.toNat
      omega

/-- Every payload goes out once and in order, and no acknowledgement is taken
but that of the last one, as long as it is awaited. -/
structure Ledger (k : KeepAlive) (xs : List Call) (m : Monitor) : Prop where
  balance : m.pingsSent = m.pingsAcked + if m.outstanding.isSome then 1 else 0
  sent : (fresh k).sent xs = List.range' 1 m.pingsSent
  last : ∀ ping, m.outstanding = some ping → ping.payload = m.pingsSent
  acked : (fresh k).acked xs = List.range' 1 m.pingsAcked
  taken : ∀ payload now, (m.ack payload now).result = true ↔
    m.unhealthy = false ∧ ∃ ping, m.outstanding = some ping ∧ ping.payload = payload
  timeouts : timeouts ((fresh k).gather told xs) ≤ 1

/-- Either the next ping is scheduled or one is out. What is scheduled is sent
once it is due, and an acknowledgement that is taken schedules the next one. -/
structure Cycling (m : Monitor) : Prop where
  one : m.pingAt.isSome = !m.outstanding.isSome
  due : ∀ payload now, (m.poll now).result = some payload ↔
    payload = Word.wrap (m.pingsSent + 1) ∧ ∃ t, m.pingAt = some t ∧ t ≤ now
  resumes : ∀ payload now, (m.ack payload now).result = true →
    (m.ack payload now).state.pingAt.isSome

theorem Booked.cycling (h : Booked m.probes sends acks) (hv : m.Vigilant) (hk : m.KeepsLost)
    (ha : m.stage = .active) (hpos : 0 < m.limits.pingIntervalMillis) : m.Cycling := by
  have hinterval := KeepAlive.pingInterval?_eq hpos
  have hone : m.pingAt.isSome = !m.outstanding.isSome := by
    have hsome := hv.ping ha
    rw [hinterval, Option.isSome_some] at hsome
    cases hout : m.outstanding with
    | none => simpa [hout] using hsome
    | some ping =>
        have hnone : m.pingAt = none := h.streamsKept (by rw [probes, hout]; rfl)
        rw [hnone]
        rfl
  refine ⟨hone, fun payload now => ?_, fun payload now hr => ?_⟩
  · have hnext : m.nextPayload = Word.wrap (m.pingsSent + 1) := h.next
    constructor
    · intro hsent
      refine ⟨?_, poll_sent_due hsent⟩
      rcases poll_cases m now with ⟨hr, -, -⟩ | ⟨timeout, -, -, -, hr, -⟩
      · rw [hr] at hsent
        contradiction
      · rw [← hnext]
        exact Option.some.inj (hsent.symm.trans hr)
    · rintro ⟨rfl, t, hat, hle⟩
      have hout : m.outstanding = none := by simpa [hat] using hone
      have hhealthy := hk.healthy ha hout
      rw [← hnext]
      exact poll_due ha (by rw [hinterval]; rfl) hat hle hout hhealthy
  · obtain ⟨hhealthy, ping, hout, rfl⟩ := (ack_taken_iff m payload now).mp hr
    rw [ack_taken_state hout hhealthy, hinterval]
    rfl

/-- As long as the payloads do not run out. -/
theorem pings_accounted (k : KeepAlive) (xs : List Call) (hlive : ∀ now, .destroy now ∉ xs)
    (hcount : ((fresh k).run xs).pingsSent < Word.size) :
    Ledger k xs ((fresh k).run xs) ∧
      (((fresh k).run xs).stage = .active → 0 < k.pingIntervalMillis →
        Cycling ((fresh k).run xs)) := by
  have hbooked := run_booked k xs hlive
  have hle : ((fresh k).run xs).pingsAcked ≤ ((fresh k).run xs).pingsSent := by
    have := hbooked.balance
    simp only [probes] at this
    omega
  refine ⟨⟨hbooked.balance, ?_, fun ping hout => ?_, ?_, ack_taken_iff _, ?_⟩, fun ha hpos => ?_⟩
  · rw [← payloads_of_lt hcount]
    exact hbooked.sent
  · rw [← Word.wrap_of_lt hcount]
    exact hbooked.last ping hout
  · rw [← payloads_of_lt (Nat.lt_of_le_of_lt hle hcount)]
    exact hbooked.acked
  · have hcounted := run_timeouts (fresh k) xs
    have hbound := Bool.toNat_le ((fresh k).run xs).unhealthy
    omega
  · refine hbooked.cycling ((vigilant_fresh k).run xs) (keepsLost_run k xs) ha ?_
    rwa [run_limits, fresh_limits]

theorem pings_accounted_lost :
    let k : KeepAlive := { idleTimeoutMillis := 0, pingIntervalMillis := 1000 }
    let xs : List Call :=
      [.arm 0, .poll 1000000000, .ack 2 1100000000, .ack 1 1200000000, .ack 1 1300000000,
        .poll 2200000000, .activity 2300000000 .data, .verdict 3200000000, .ack 2 3300000000]
    (∀ now, .destroy now ∉ xs) ∧ ((fresh k).run xs).pingsSent < Word.size ∧
      (fresh k).sent xs = [1, 2] ∧ (fresh k).acked xs = [1] ∧
      timeouts ((fresh k).gather told xs) ≤ 1 ∧ ((fresh k).run xs).pingAt = none := by
  intro k xs
  have hlive : ∀ now, .destroy now ∉ xs := by simp [xs]
  have hsent : ((fresh k).run xs).pingsSent = 2 := by decide
  have hacked : ((fresh k).run xs).pingsAcked = 1 := by decide
  have hout : ((fresh k).run xs).outstanding.isSome = true := by decide
  have hcount : ((fresh k).run xs).pingsSent < Word.size := by decide
  obtain ⟨hledger, hcycling⟩ := pings_accounted k xs hlive hcount
  have hone := (hcycling (by decide) (by decide)).one
  have hsends := hledger.sent
  have hacks := hledger.acked
  rw [hsent] at hsends
  rw [hacked] at hacks
  rw [hout] at hone
  have hnone : ((fresh k).run xs).pingAt = none := by simpa using hone
  exact ⟨hlive, hcount, hsends, hacks, hledger.timeouts, hnone⟩

end HttpLifecycle.Monitor
