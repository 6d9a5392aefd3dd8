import HttpLifecycle.Proofs.Connection.Verdicts

namespace HttpLifecycle

theorem min?_later {ts : List Instant} {now : Instant} :
    (∀ d, ts.min? = some d → now < d) ↔ ∀ t ∈ ts, now < t := by
  constructor
  · intro h t ht
    obtain ⟨d, hd⟩ := Option.isSome_iff_exists.mp (List.isSome_min?_of_mem ht)
    exact Nat.lt_of_lt_of_le (h d hd) ((List.min?_eq_some_iff.mp hd).2 t ht)
  · intro h d hd
    exact h d (List.min?_eq_some_iff.mp hd).1

namespace Connection

variable {c : Connection} {now : Instant}

structure Ahead (c : Connection) (now : Instant) : Prop where
  monitor : c.monitor.Ahead now
  drain : ∀ t, c.drain.deadline = some t → now < t

theorem nextDeadline_later (c : Connection) (now : Instant) :
    (∀ d, c.nextDeadline = some d → now < d) ↔ c.Ahead now := by
  rw [nextDeadline, min?_later]
  have hmonitor : (∀ t ∈ c.monitor.nextDeadline.toList, now < t) ↔ c.monitor.Ahead now := by
    refine Iff.trans ?_ min?_later
    simp [Monitor.nextDeadline]
  constructor
  · intro h
    refine ⟨hmonitor.mp fun t ht => h t (List.mem_append_left _ ht), fun t ht => ?_⟩
    exact h t (List.mem_append_right _ (by simp [ht]))
  · intro h t ht
    rcases List.mem_append.mp ht with ht | ht
    · exact hmonitor.mpr h.monitor t ht
    · exact h.drain t (by simpa using ht)

theorem ahead_destroyed {m : Monitor} (h : m.stage = .destroyed) : m.Ahead now := by
  intro t ht
  simp [Monitor.timers, h] at ht

theorem ahead_over (h : Coherent c) (ho : ¬ c.Open) : c.Ahead now := by
  refine ⟨ahead_destroyed (h.destroyed_iff.mpr ho), fun t ht => absurd ?_ ho⟩
  obtain ⟨htorn, hphase⟩ := h.deadline.mp (by simp [ht])
  exact ⟨by simp [hphase], htorn⟩

theorem ahead_closed (h : Coherent c) (hp : c.drain.phase = .closed) : c.Ahead now :=
  ahead_over h fun ho => ho.1 hp

theorem startDrain_ahead (h : Coherent c) (ht : c.tornDown = false) (ha : c.Ahead now)
    (reason : Reason) (wait : Duration) : (c.startDrain reason wait now).Ahead now := by
  by_cases hphase : c.drain.phase = .idle
  · by_cases hw : wait = 0
    · have hcoh := (moves_startDrain (b := true) reason now wait h ht).coherent h
      apply ahead_closed hcoh
      obtain ⟨es, fs, -, -, he⟩ := startDrain_zero reason now h ht hphase
      rw [hw, he]
    · obtain ⟨es, -, he⟩ := startDrain_idle reason now h ht hphase hw
      rw [he]
      refine ⟨ha.monitor, fun t hd => ?_⟩
      obtain rfl := Option.some.inj hd
      exact Nat.lt_add_of_pos_right (Nat.pos_of_ne_zero hw)
  · obtain ⟨es, -, he⟩ := startDrain_later reason now wait h hphase
    rw [he]
    exact ⟨ha.monitor, ha.drain⟩

theorem fire_ahead (ha : c.Ahead now) : c.fire now = c := fire_of_current ha.monitor.current

theorem checkDisconnection_ahead (h : Coherent c) (ha : c.Ahead now) :
    (c.checkDisconnection now).Ahead now := by
  have hcoh := (moves_checkDisconnection now h).coherent h
  by_cases ho : c.Open
  · by_cases hu : c.Urgent now
    · exact ahead_closed hcoh (checkDisconnection_closed ho hu)
    · rw [checkDisconnection_calm ho hu, fire_ahead ha]
      split
      · rw [startDrain_flag]
        have hstart := startDrain_ahead h ho.2 ha (drainReason (c.monitor.verdict now).result)
          c.drainFor
        exact ⟨hstart.monitor, hstart.drain⟩
      · exact ha
  · rw [checkDisconnection_over ho]
    exact ha

theorem pollDrain_ahead (h : Coherent c) (hm : c.monitor.Ahead now) :
    (c.pollDrain now).Ahead now := by
  have hcoh := (moves_pollDrain (b := true) now h).coherent h
  rcases pollDrain_cases now h with ⟨he, hearly⟩ | ⟨reason, es, -, -, -, he⟩
  · rw [he]
    exact ⟨hm, hearly⟩
  · apply ahead_closed hcoh
    rw [he]

theorem probed_ahead (hv : c.monitor.Vigilant) : (c.probed now).monitor.Ahead now := by
  have hpoll := hv.poll_ahead now
  rw [probed]
  split <;> exact hpoll

theorem pollTimers_ahead (h : Coherent c) (hv : c.monitor.Vigilant) :
    (c.pollTimers now).Ahead now := by
  rw [pollTimers_eq]
  split
  · rename_i ht
    apply ahead_over h
    intro ho
    rw [ho.2] at ht
    contradiction
  · have hprobed := (moves_probed c now).coherent h
    have hdrain := (moves_pollDrain (b := true) now hprobed).coherent hprobed
    exact checkDisconnection_ahead hdrain (pollDrain_ahead hprobed (probed_ahead hv))

end Connection

end HttpLifecycle
