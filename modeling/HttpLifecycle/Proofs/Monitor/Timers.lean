import HttpLifecycle.Monitor

namespace HttpLifecycle.Monitor

theorem due_clear (at? : Option Instant) (now : Instant) :
    due (if due at? now then none else at?) now = false := by
  by_cases h : due at? now = true
  · rw [if_pos h]; rfl
  · simp [h]

theorem expireIdle_state (m : Monitor) (now : Instant) :
    (m.expireIdle now).state =
      { m with
        idleAt := if due m.idleAt now then none else m.idleAt
        graceful := m.graceful.or (if due m.idleAt now then some .idleTimeout else none) } := by
  by_cases hd : due m.idleAt now = true
  · cases hg : m.graceful <;> simp [expireIdle, latch, hd, hg]
  · simp [expireIdle, hd]

theorem expireAge_state (m : Monitor) (now : Instant) :
    (m.expireAge now).state =
      { m with
        ageAt := if due m.ageAt now then none else m.ageAt
        graceful := m.graceful.or (if due m.ageAt now then some .maxAge else none) } := by
  by_cases hd : due m.ageAt now = true
  · cases hg : m.graceful <;> simp [expireAge, latch, hd, hg]
  · simp [expireAge, hd]

theorem expirePing_state (m : Monitor) (now : Instant) :
    (m.expirePing now).state =
      { m with unhealthy := m.unhealthy || m.outstanding.any (·.deadline ≤ now) } := by
  cases m with
  | mk _ _ _ _ _ _ outstanding _ _ _ unhealthy =>
      cases outstanding with
      | none => simp [expirePing]
      | some ping =>
          by_cases hp : ping.deadline ≤ now
          · cases unhealthy <;> simp [expirePing, hp]
          · simp [expirePing, hp]

/-- All that firing changes. Idle time is looked at before age, so of two
limits that are due at once it is the idle one that is latched. -/
theorem expire_state (m : Monitor) (now : Instant) :
    (m.expire now).state =
      { m with
        idleAt := if due m.idleAt now then none else m.idleAt
        ageAt := if due m.ageAt now then none else m.ageAt
        graceful := (m.graceful.or (if due m.idleAt now then some .idleTimeout else none)).or
          (if due m.ageAt now then some .maxAge else none)
        unhealthy := m.unhealthy || m.outstanding.any (·.deadline ≤ now) } := by
  simp only [expire, expirePing_state, expireAge_state, expireIdle_state]

theorem latch_events (m : Monitor) (v : Verdict) :
    ∃ notes : List Note, (m.latch v).events = notes.map .note := by
  rw [latch]
  split
  · exact ⟨[], rfl⟩
  · exact ⟨[_], rfl⟩

theorem expire_events (m : Monitor) (now : Instant) :
    ∃ notes : List Note, (m.expire now).events = notes.map .note ++ (m.expirePing now).events := by
  have hidle : ∃ notes : List Note, (m.expireIdle now).events = notes.map .note := by
    rw [expireIdle]
    split
    · exact latch_events _ _
    · exact ⟨[], rfl⟩
  have hage (n : Monitor) : ∃ notes : List Note, (n.expireAge now).events = notes.map .note := by
    rw [expireAge]
    split
    · exact latch_events _ _
    · exact ⟨[], rfl⟩
  have hping (n : Monitor) (hout : n.outstanding = m.outstanding)
      (hunhealthy : n.unhealthy = m.unhealthy) :
      (n.expirePing now).events = (m.expirePing now).events := by
    rw [expirePing, expirePing, hout, hunhealthy]
    cases m.outstanding with
    | none => rfl
    | some ping => dsimp only; split <;> rfl
  obtain ⟨idle, hidle⟩ := hidle
  obtain ⟨age, hage⟩ := hage (m.expireIdle now).state
  refine ⟨idle ++ age, ?_⟩
  rw [expire, hidle, hage, List.map_append, hping]
  · rw [expireAge_state, expireIdle_state]
  · rw [expireAge_state, expireIdle_state]

/-- Every limit that is due has been latched, so that asking for a verdict
finds nothing new. -/
structure Current (m : Monitor) (now : Instant) : Prop where
  idle : m.stage = .active → due m.idleAt now = false
  age : m.stage = .active → due m.ageAt now = false
  ping : m.stage = .active → m.outstanding.any (·.deadline ≤ now) = true → m.unhealthy = true

theorem Current.expire_eq {m : Monitor} {now : Instant} (h : Current m now)
    (ha : m.stage = .active) : m.expire now = ⟨m, [], ()⟩ := by
  have hi : m.expireIdle now = ⟨m, [], ()⟩ := by simp [expireIdle, h.idle ha]
  have hg : m.expireAge now = ⟨m, [], ()⟩ := by simp [expireAge, h.age ha]
  have hp : m.expirePing now = ⟨m, [], ()⟩ := by
    cases ho : m.outstanding with
    | none => simp [expirePing, ho]
    | some ping =>
        by_cases hd : ping.deadline ≤ now
        · have hu := h.ping ha (by simp [ho, hd])
          simp [expirePing, ho, hu]
        · simp [expirePing, ho, hd]
  simp [expire, hi, hg, hp]

def fired (m : Monitor) (now : Instant) : Monitor := (m.verdict now).state

theorem fired_active {m : Monitor} (h : m.stage = .active) (now : Instant) :
    m.fired now = (m.expire now).state := by
  simp [fired, verdict, h]

theorem fired_inactive {m : Monitor} (h : m.stage ≠ .active) (now : Instant) :
    m.fired now = m := by
  rw [fired, verdict]
  split
  · rfl
  · contradiction
  · rfl

theorem fired_stage (m : Monitor) (now : Instant) : (m.fired now).stage = m.stage := by
  by_cases h : m.stage = .active
  · rw [fired_active h, expire_state]
  · rw [fired_inactive h]

theorem fired_limits (m : Monitor) (now : Instant) : (m.fired now).limits = m.limits := by
  by_cases h : m.stage = .active
  · rw [fired_active h, expire_state]
  · rw [fired_inactive h]

theorem fired_current (m : Monitor) (now : Instant) : Current (m.fired now) now := by
  by_cases h : m.stage = .active
  · rw [fired_active h, expire_state]
    exact ⟨fun _ => due_clear _ _, fun _ => due_clear _ _, fun _ hp => by simp [hp]⟩
  · rw [fired_inactive h]
    exact ⟨fun ha => absurd ha h, fun ha => absurd ha h, fun ha => absurd ha h⟩

theorem Current.verdict_eq {m : Monitor} {now : Instant} (h : Current m now) :
    m.verdict now = ⟨m, [], if m.stage = .destroyed then none else m.latched⟩ := by
  cases hs : m.stage with
  | dormant => simp [verdict, hs]
  | destroyed => simp [verdict, hs]
  | active => simp [verdict, hs, h.expire_eq hs]

theorem verdict_result (m : Monitor) (now : Instant) :
    (m.verdict now).result = if m.stage = .destroyed then none else (m.fired now).latched := by
  cases hs : m.stage <;> simp [verdict, fired, hs]

theorem openStream_state (m : Monitor) :
    m.openStream.state =
      { m with
        requests := m.requests + 1
        graceful :=
          if m.limits.maxRequests?.any (· ≤ m.requests + 1) then m.graceful.or (some .maxRequests)
          else m.graceful } := by
  rw [openStream]
  cases hm : m.limits.maxRequests? with
  | none => simp
  | some max =>
      by_cases hl : max ≤ m.requests + 1
      · cases hg : m.graceful <;> simp [hl]
      · simp [hl]

def Ahead (m : Monitor) (now : Instant) : Prop := ∀ t ∈ m.timers, now < t

theorem mem_timers {m : Monitor} (h : m.stage = .active) (t : Instant) :
    t ∈ m.timers ↔ m.idleAt = some t ∨ m.ageAt = some t ∨ m.nextPing = some t ∨
      m.unhealthy = false ∧ ∃ p, m.outstanding = some p ∧ p.deadline = t := by
  have hcomm (o : Option Instant) : some t = o ↔ o = some t := eq_comm
  cases hu : m.unhealthy <;> simp [timers, h, hu, hcomm]

theorem ahead_iff {m : Monitor} (h : m.stage = .active) (now : Instant) :
    Ahead m now ↔ (∀ t, m.idleAt = some t → now < t) ∧ (∀ t, m.ageAt = some t → now < t) ∧
      (∀ t, m.nextPing = some t → now < t) ∧
      (∀ p, m.outstanding = some p → m.unhealthy = false → now < p.deadline) := by
  rw [Ahead]
  simp only [mem_timers h]
  constructor
  · intro hall
    exact ⟨fun t ht => hall t (.inl ht), fun t ht => hall t (.inr (.inl ht)),
      fun t ht => hall t (.inr (.inr (.inl ht))),
      fun p hp hu => hall _ (.inr (.inr (.inr ⟨hu, p, hp, rfl⟩)))⟩
  · rintro ⟨hidle, hage, hping, hout⟩ t (ht | ht | ht | ⟨hu, p, hp, rfl⟩)
    · exact hidle t ht
    · exact hage t ht
    · exact hping t ht
    · exact hout p hp hu

theorem Ahead.current {m : Monitor} {now : Instant} (h : Ahead m now) : Current m now := by
  have clear (ha : m.stage = .active) (at? : Option Instant)
      (hat : ∀ t, at? = some t → now < t) : due at? now = false := by
    cases at? with
    | none => rfl
    | some t => have := hat t rfl; simp [due]; omega
  refine ⟨fun ha => ?_, fun ha => ?_, fun ha hp => ?_⟩
  · exact clear ha _ ((ahead_iff ha now).mp h).1
  · exact clear ha _ ((ahead_iff ha now).mp h).2.1
  · obtain ⟨ping, ho, hd⟩ := (Option.any_eq_true _ _).mp hp
    cases hu : m.unhealthy with
    | true => rfl
    | false =>
        have hlt := ((ahead_iff ha now).mp h).2.2.2 ping ho hu
        have hle : ping.deadline ≤ now := by simpa using hd
        exact absurd hlt (Nat.not_lt.mpr hle)

theorem Ahead.poll_eq {m : Monitor} {now : Instant} (h : Ahead m now) :
    m.poll now = ⟨m, [], none⟩ := by
  by_cases ha : m.stage = .active
  · have hn : m.nextPing.filter (· ≤ now) = none := by
      cases hp : m.nextPing with
      | none => rfl
      | some t =>
          have hlt := ((ahead_iff ha now).mp h).2.2.1 t hp
          simp [Option.filter]; omega
    simp [poll, ha, h.current.expire_eq ha, hn]
  · simp [poll, ha]

theorem poll_cases (m : Monitor) (now : Instant) :
    (m.poll now).result = none ∧ (m.poll now).state = m.fired now ∧
        (m.stage = .active → m.limits.pingTimeout?.isSome →
          ∀ t, (m.fired now).nextPing = some t → now < t) ∨
      ∃ timeout, m.stage = .active ∧ m.limits.pingTimeout? = some timeout ∧
        (m.fired now).nextPing.isSome ∧
        (m.poll now).result = some m.nextPayload ∧
        (m.poll now).state =
          { m.fired now with
            nextPayload := Word.wrap (m.nextPayload + 1)
            pingAt := none
            outstanding := some ⟨m.nextPayload, now, now + timeout⟩
            pingsSent := m.pingsSent + 1 } := by
  by_cases ha : m.stage = .active
  · have hf := fired_active ha now
    have hl : (m.expire now).state.limits = m.limits := by rw [expire_state]
    have hn : (m.expire now).state.nextPayload = m.nextPayload := by rw [expire_state]
    have hs : (m.expire now).state.pingsSent = m.pingsSent := by rw [expire_state]
    rw [hf]
    cases hp : (m.expire now).state.nextPing.filter (· ≤ now) with
    | none =>
        refine .inl ⟨?_, ?_, ?_⟩
        · simp [poll, ha, hp]
        · simp [poll, ha, hp]
        · intro _ _ t ht
          have := Option.filter_eq_none_iff.mp hp t ht
          simpa using this
    | some at_ =>
        cases ht : m.limits.pingTimeout? with
        | none =>
            refine .inl ⟨?_, ?_, ?_⟩
            · simp [poll, ha, hp, hl, ht]
            · simp [poll, ha, hp, hl, ht]
            · intro _ hsome
              simp at hsome
        | some timeout =>
            have hsome := (Option.filter_eq_some_iff.mp hp).1
            refine .inr ⟨timeout, ha, rfl, ?_, ?_, ?_⟩
            · rw [hsome]; rfl
            · simp [poll, ha, hp, hl, ht, hn]
            · simp [poll, ha, hp, hl, ht, hn, hs]
  · exact .inl ⟨by simp [poll, ha], by simp [poll, ha, fired_inactive ha], fun h => absurd h ha⟩

end HttpLifecycle.Monitor
