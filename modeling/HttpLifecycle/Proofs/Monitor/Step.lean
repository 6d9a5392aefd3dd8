import HttpLifecycle.Proofs.Monitor.Vigilance

namespace HttpLifecycle.Monitor

/-- Steps of a monitor that cannot latch a verdict. -/
inductive Turn (m : Monitor) : Monitor → Prop
  | arm (now : Instant) : Turn m (m.arm now).state
  | activity (now : Instant) (frame : Frame) : Turn m (m.activity now frame)
  | ack (payload : Nat) (now : Instant) : Turn m (m.ack payload now).state

/-- Steps of a monitor that may latch a verdict. -/
inductive Latch (m : Monitor) : Monitor → Prop
  | openStream : Latch m m.openStream.state
  | verdict (now : Instant) : Latch m (m.fired now)
  | poll (now : Instant) : Latch m (m.poll now).state

variable {m n : Monitor}

theorem poll_stage (m : Monitor) (now : Instant) : (m.poll now).state.stage = m.stage := by
  rcases poll_cases m now with ⟨-, hs, -⟩ | ⟨timeout, -, -, -, -, hs⟩
  · rw [hs, fired_stage]
  · rw [hs]
    exact fired_stage m now

theorem destroy_state (m : Monitor) (now : Instant) :
    (m.destroy now).state =
      { m with
        stage := .destroyed
        idleAt := none
        ageAt := none
        pingAt := none
        outstanding := none } := by
  rw [destroy]
  split <;> rfl

theorem destroy_stage (m : Monitor) (now : Instant) : (m.destroy now).state.stage = .destroyed := by
  rw [destroy_state]

theorem Turn.destroyed_iff (h : m.Turn n) : n.stage = .destroyed ↔ m.stage = .destroyed := by
  cases h with
  | arm now =>
      by_cases ha : m.stage ≠ .dormant ∨ m.isNoop
      · simp [Monitor.arm, ha]
      · have hd : m.stage = .dormant := by simpa using (not_or.mp ha).1
        rw [Monitor.arm, if_neg ha, hd]
        simp
  | activity now frame =>
      rw [Monitor.activity]
      split
      · rfl
      · split <;> rfl
  | ack payload now =>
      rw [Monitor.ack]
      split
      · split <;> rfl
      · rfl

theorem Turn.verdicts (h : m.Turn n) : n.graceful = m.graceful ∧ n.unhealthy = m.unhealthy := by
  cases h with
  | arm now => unfold Monitor.arm; split <;> exact ⟨rfl, rfl⟩
  | activity now frame =>
      rw [Monitor.activity]
      split
      · exact ⟨rfl, rfl⟩
      · split <;> exact ⟨rfl, rfl⟩
  | ack payload now =>
      rw [Monitor.ack]
      split
      · split <;> exact ⟨rfl, rfl⟩
      · exact ⟨rfl, rfl⟩

theorem Turn.limits (h : m.Turn n) : n.limits = m.limits := by
  cases h with
  | arm now => unfold Monitor.arm; split <;> rfl
  | activity now frame =>
      rw [Monitor.activity]
      split
      · rfl
      · split <;> rfl
  | ack payload now =>
      rw [Monitor.ack]
      split
      · split <;> rfl
      · rfl

theorem Latch.limits (h : m.Latch n) : n.limits = m.limits := by
  cases h with
  | openStream => rw [openStream_state]
  | verdict now => exact fired_limits m now
  | poll now =>
      rcases poll_cases m now with ⟨-, hs, -⟩ | ⟨timeout, -, -, -, -, hs⟩
      · rw [hs, fired_limits]
      · rw [hs]
        exact fired_limits m now

theorem destroy_limits (m : Monitor) (now : Instant) :
    (m.destroy now).state.limits = m.limits := by
  rw [destroy_state]

theorem destroy_verdicts (m : Monitor) (now : Instant) :
    (m.destroy now).state.graceful = m.graceful ∧
      (m.destroy now).state.unhealthy = m.unhealthy := by
  rw [destroy_state]
  exact ⟨rfl, rfl⟩

theorem Latch.stage_eq (h : m.Latch n) : n.stage = m.stage := by
  cases h with
  | openStream => rw [openStream_state]
  | verdict now => exact fired_stage m now
  | poll now => exact poll_stage m now

theorem Turn.vigilant (h : m.Turn n) (hv : Vigilant m) : Vigilant n := by
  cases h with
  | arm now => exact hv.arm now
  | activity now frame => exact hv.activity now frame
  | ack payload now => exact hv.ack payload now

theorem Latch.vigilant (h : m.Latch n) (hv : Vigilant m) : Vigilant n := by
  cases h with
  | openStream => exact hv.openStream
  | verdict now => exact hv.fired now
  | poll now => exact hv.poll now

theorem fired_startedAt (m : Monitor) (now : Instant) : (m.fired now).startedAt = m.startedAt := by
  by_cases h : m.stage = .active
  · rw [fired_active h, expire_state]
  · rw [fired_inactive h]

theorem fired_requests (m : Monitor) (now : Instant) : (m.fired now).requests = m.requests := by
  by_cases h : m.stage = .active
  · rw [fired_active h, expire_state]
  · rw [fired_inactive h]

theorem fired_unhealthy (m : Monitor) (now : Instant) :
    (m.fired now).unhealthy =
      (m.unhealthy || m.stage == .active && m.outstanding.any (·.deadline ≤ now)) := by
  by_cases ha : m.stage = .active
  · rw [fired_active ha, expire_state]
    simp [ha]
  · rw [fired_inactive ha]
    simp [ha]

theorem poll_unhealthy (m : Monitor) (now : Instant) :
    (m.poll now).state.unhealthy = (m.fired now).unhealthy := by
  rcases poll_cases m now with ⟨-, hs, -⟩ | ⟨timeout, -, -, -, -, hs⟩ <;> rw [hs]

theorem fired_outstanding (m : Monitor) (now : Instant) :
    (m.fired now).outstanding = m.outstanding := by
  by_cases h : m.stage = .active
  · rw [fired_active h, expire_state]
  · rw [fired_inactive h]

theorem verdict_lost_iff (h : Vigilant m) (now : Instant) :
    (m.verdict now).result = some .pingTimeout ↔
      m.stage ≠ .destroyed ∧ (m.fired now).unhealthy = true := by
  have hgraceful := (h.fired now).graceful
  rw [verdict_result, latched]
  cases hs : m.stage <;> cases hu : (m.fired now).unhealthy <;> simp [hgraceful]

theorem poll_sent {payload : Nat} {now : Instant} (h : (m.poll now).result = some payload) :
    m.stage = .active ∧ m.outstanding = none ∧ 0 < m.limits.pingIntervalMillis ∧
      (m.poll now).state.unhealthy = false ∧
      (m.poll now).state.outstanding = some ⟨payload, now, now + m.limits.patience⟩ := by
  rcases poll_cases m now with ⟨hnone, -, -⟩ | ⟨timeout, ha, ht, hnext, hresult, hs⟩
  · rw [hnone] at h
    contradiction
  · obtain rfl := Option.some.inj (hresult.symm.trans h)
    obtain ⟨hpos, rfl⟩ := KeepAlive.pingTimeout?_eq_some ht
    have hclear : m.outstanding = none ∧ (m.fired now).unhealthy = false := by
      rw [nextPing, fired_outstanding] at hnext
      cases ho : m.outstanding <;> cases hu : (m.fired now).unhealthy <;> simp [ho, hu] at hnext ⊢
    rw [hs]
    exact ⟨ha, hclear.1, hpos, hclear.2, rfl⟩

theorem poll_due {t : Instant} {now : Instant} (ha : m.stage = .active)
    (hinterval : m.limits.pingInterval?.isSome) (hat : m.pingAt = some t) (hle : t ≤ now)
    (hout : m.outstanding = none) (hu : m.unhealthy = false) :
    (m.poll now).result = some m.nextPayload := by
  rcases poll_cases m now with ⟨-, -, hlater⟩ | ⟨timeout, -, -, -, hsome, -⟩
  · have hnext : (m.fired now).nextPing = some t := by
      rw [fired_active ha, expire_state]
      simp [nextPing, hout, hu, hat]
    have hlt := hlater ha (by rwa [KeepAlive.pingTimeout?_isSome]) t hnext
    exact absurd hlt (Nat.not_lt.mpr hle)
  · exact hsome

theorem poll_sent_due {payload : Nat} {now : Instant} (h : (m.poll now).result = some payload) :
    ∃ t, m.pingAt = some t ∧ t ≤ now := by
  obtain ⟨ha, hout, -, hhealthy, -⟩ := poll_sent h
  rw [poll_unhealthy, fired_unhealthy, hout] at hhealthy
  have hnext : (m.expire now).state.nextPing = m.pingAt := by
    simp only [expire_state, nextPing, hout]
    simp_all
  simp only [poll, ha, ne_eq, not_true_eq_false, if_false, hnext] at h
  cases hfilter : m.pingAt.filter (· ≤ now) with
  | none => simp [hfilter] at h
  | some t =>
      obtain ⟨hat, hle⟩ := Option.filter_eq_some_iff.mp hfilter
      exact ⟨t, hat, of_decide_eq_true hle⟩

theorem poll_isSome_iff (m : Monitor) (now : Instant) :
    (m.poll now).result.isSome ↔
      m.stage = .active ∧ 0 < m.limits.pingIntervalMillis ∧ m.unhealthy = false ∧
        m.outstanding = none ∧ ∃ t, m.pingAt = some t ∧ t ≤ now := by
  constructor
  · intro h
    obtain ⟨payload, hsent⟩ := Option.isSome_iff_exists.mp h
    obtain ⟨ha, hout, hpos, hhealthy, -⟩ := poll_sent hsent
    refine ⟨ha, hpos, ?_, hout, poll_sent_due hsent⟩
    rw [poll_unhealthy, fired_unhealthy] at hhealthy
    exact (Bool.or_eq_false_iff.mp hhealthy).1
  · rintro ⟨ha, hpos, hhealthy, hout, t, hat, hle⟩
    have hinterval : m.limits.pingInterval?.isSome := by rw [KeepAlive.pingInterval?_eq hpos]; rfl
    rw [poll_due ha hinterval hat hle hout hhealthy]
    rfl

theorem arm_result_iff (m : Monitor) (now : Instant) :
    (m.arm now).result = true ↔ m.stage = .dormant ∧ m.isNoop = false := by
  by_cases hd : m.stage = .dormant <;> cases hn : m.isNoop <;> simp [arm, hd, hn]

theorem ack_taken_iff (m : Monitor) (payload : Nat) (now : Instant) :
    (m.ack payload now).result = true ↔
      m.unhealthy = false ∧ ∃ p, m.outstanding = some p ∧ p.payload = payload := by
  rw [ack]
  cases hout : m.outstanding with
  | none => simp
  | some ping => by_cases h : ping.payload = payload <;> cases hu : m.unhealthy <;> simp [h]

theorem ack_taken_state {ping : Ping} (hout : m.outstanding = some ping)
    (hhealthy : m.unhealthy = false) (now : Instant) :
    (m.ack ping.payload now).state =
      { m with
        outstanding := none
        pingsAcked := m.pingsAcked + 1
        roundTrips := m.roundTrips + now.since ping.sentAt
        pingAt := m.limits.pingInterval?.map (now + ·) } := by
  simp [ack, hout, hhealthy]

theorem ack_refused {payload : Nat} {now : Instant} (h : (m.ack payload now).result = false) :
    (m.ack payload now).state = m := by
  rw [ack] at h ⊢
  cases hout : m.outstanding with
  | none => rfl
  | some ping =>
      by_cases hp : ping.payload = payload ∧ !m.unhealthy
      · simp only [hout, if_pos hp] at h
        contradiction
      · simp only [if_neg hp]

end HttpLifecycle.Monitor
