import HttpLifecycle.Proofs.Connection.Inputs

namespace HttpLifecycle

/-- Every limit that is set is being watched. For pings that means that one is
scheduled or one is out. -/
structure Monitor.Watches (m : Monitor) (k : KeepAlive) : Prop where
  idle : m.stage = .active → m.idleAt.isSome = k.idleTimeout?.isSome
  age : m.stage = .active → m.ageAt.isSome = k.maxAge?.isSome
  ping : m.stage = .active → (m.pingAt.isSome || m.outstanding.isSome) = k.pingInterval?.isSome
  requests : ∀ max, k.maxRequests? = some max → m.requests < max

namespace Connection

variable {c d : Connection} {now : Instant}

/-- What was latched has been acted on: a lost ping ended the drain, and any
other limit decided for one, unless the transport is gone. -/
structure Answered (c : Connection) : Prop where
  graceful : c.tornDown = false → c.monitor.graceful.isSome → c.drain.Decided
  unhealthy : c.monitor.unhealthy = true → c.drain.phase = .closed

theorem answered_create (id : ConnectionId) (protocol : Protocol) (config : Config)
    (routes : Resolver) (handler : Handler) (now : Instant) :
    Answered (create id protocol config routes handler now) := by
  constructor <;> simp [create]

theorem Answered.of_closed (h : c.drain.phase = .closed) : Answered c :=
  ⟨fun _ _ => .inl h, fun _ => h⟩

theorem Answered.keep (hc : Coherent c) (h : Answered c) (m : Move false c d) : Answered d := by
  obtain ⟨hg, hu⟩ := m.verdicts
  refine ⟨fun ht hs => ?_, fun hs => ?_⟩
  · rw [hg] at hs
    exact m.decided hc (h.graceful (m.attached ht) hs)
  · rw [hu] at hs
    exact m.closed (h.unhealthy hs)

theorem Answered.moves (hc : Coherent c) (h : Answered c) (m : Moves false c d) : Answered d := by
  induction m with
  | refl => exact h
  | tail m n ih => exact ih.keep (Moves.coherent hc m) n

theorem not_urgent (hc : Coherent c) (ho : c.Open) (hu : ¬ c.Urgent now) :
    (c.monitor.verdict now).result = (c.monitor.fired now).graceful ∧
      (c.monitor.fired now).unhealthy = false := by
  have hstage : c.monitor.stage ≠ .destroyed := fun hs => hc.destroyed_iff.mp hs ho
  have hresult := Monitor.verdict_result c.monitor now
  rw [if_neg hstage] at hresult
  cases hf : (c.monitor.fired now).unhealthy with
  | true =>
      refine absurd (.inr (.inr ?_)) hu
      rw [isUnhealthy_result, hresult, Monitor.latched, hf]
      rfl
  | false =>
      refine ⟨?_, rfl⟩
      rw [hresult, Monitor.latched, hf]
      rfl

theorem startDrain_answered {reason : Reason} {wait : Duration} (hc : Coherent c)
    (ht : c.tornDown = false) (hu : c.monitor.unhealthy = false) (hreq : reason.required = true) :
    Answered (c.startDrain reason wait now) := by
  have hdecided := startDrain_decided reason now wait hc ht hreq
  refine ⟨fun _ _ => hdecided, fun hs => ?_⟩
  have hsame := (moves_startDrain (b := false) reason now wait hc ht).verdicts.2
  rw [hsame, hu] at hs
  contradiction

theorem close_answered (hc : Coherent c) (h : Answered c) : Answered (c.close now) := by
  by_cases ho : c.Open
  · by_cases hu : c.Urgent now
    · exact .of_closed (close_closed ho hu)
    · rw [close_calm ho hu]
      have hfire := (moves_fire c now).coherent hc
      exact startDrain_answered hfire ho.2 (not_urgent hc ho hu).2 (drainReason_required _)
  · rw [close_over ho]
    exact h

theorem checkDisconnection_answered (hc : Coherent c) (ht : c.tornDown = false) :
    Answered (c.checkDisconnection now) := by
  by_cases ho : c.Open
  · by_cases hu : c.Urgent now
    · exact .of_closed (checkDisconnection_closed ho hu)
    · rw [checkDisconnection_calm ho hu]
      have hfire := (moves_fire c now).coherent hc
      obtain ⟨hverdict, hhealthy⟩ := not_urgent hc ho hu
      split
      · rw [startDrain_flag]
        have hreq := drainReason_required (c.monitor.verdict now).result
        have hstart : Answered ((c.fire now).startDrain _ c.drainFor now) :=
          startDrain_answered hfire ht hhealthy hreq
        exact ⟨hstart.graceful, hstart.unhealthy⟩
      · rename_i hno
        refine ⟨fun _ hs => ?_, fun hs => ?_⟩
        · apply hc.closeRequested
          rw [hverdict] at hno
          cases hr : c.closeRequested with
          | true => rfl
          | false => exact absurd ⟨hr, hs⟩ hno
        · change (c.monitor.fired now).unhealthy = true at hs
          rw [hhealthy] at hs
          contradiction
  · rw [checkDisconnection_over ho]
    refine .of_closed (Decidable.byContradiction fun hp => ho ⟨hp, ht⟩)

theorem pollDrain_tornDown (hc : Coherent c) (now : Instant) :
    (c.pollDrain now).tornDown = c.tornDown := by
  rcases pollDrain_cases now hc with ⟨he, -⟩ | ⟨reason, es, -, -, -, he⟩ <;> rw [he]

theorem probed_tornDown (c : Connection) (now : Instant) :
    (c.probed now).tornDown = c.tornDown := by
  rw [probed]
  split <;> rfl

theorem pollTimers_answered (hc : Coherent c) (h : Answered c) : Answered (c.pollTimers now) := by
  rw [pollTimers_eq]
  split
  · exact h
  · rename_i ht
    have hprobed := (moves_probed c now).coherent hc
    have hdrain := (moves_pollDrain (b := true) now hprobed).coherent hprobed
    apply checkDisconnection_answered hdrain
    rw [pollDrain_tornDown hprobed]
    exact (probed_tornDown c now).trans (by simpa using ht)

theorem onHeaders_answered (hc : Coherent c) (h : Answered c) (stream : StreamId)
    (headers : Headers) (endOfStream : Bool) :
    Answered (c.onHeaders stream headers endOfStream now).1 := by
  by_cases hlate : State.closing.rank ≤ c.state.rank
  · rw [onHeaders_late now stream headers endOfStream hlate]
    have hrefused : Moves false c ((c.activity now .headers).refuse stream .closing) :=
      (moves_activity c now .headers).trans (ShutdownKept.refuse _ _ _).moves
    exact h.moves hc hrefused
  · have ht := hc.attached hlate
    have hcounted := (moves_counted c now).coherent hc
    cases hr : (c.activity now .headers).monitor.openStream.result with
    | false =>
        rw [onHeaders_beyond now stream headers endOfStream hlate hr]
        have hserved := ShutdownKept.refuse (c.counted now) stream .maxRequests
        have hrefused : Moves true (c.counted now) _ := hserved.moves
        exact checkDisconnection_answered (hrefused.coherent hcounted) (hserved.tornDown.trans ht)
    | true =>
        obtain ⟨e, hseat, he⟩ := onHeaders_opens now stream headers endOfStream hlate hr
        rw [he]
        have hmoves : Moves true ((c.counted now).admitStream stream) e := hseat.moves
        exact checkDisconnection_answered (hmoves.coherent (hcounted.admitStream stream))
          (hseat.tornDown.trans ht)

/-- Only a question whose answer nobody acts on can leave a limit that was hit
unanswered. -/
theorem after_answered (hc : Coherent c) (h : Answered c) (x : Call) (hx : x.input ≠ .query) :
    Answered (c.after x) := by
  cases hl : x.input.latches with
  | false =>
      rcases after_cases hc x with ⟨-, -, he⟩ | l
      · rw [he]
        exact ⟨h.graceful, h.unhealthy⟩
      · rw [hl] at l
        generalize c.admission? x = s at l
        cases l with
        | plain m => exact h.moves hc m
        | admits stream m hrank n =>
            have hm := m.coherent hc
            have ha := h.moves hc m
            exact Answered.moves (hm.admitStream stream) ⟨ha.graceful, ha.unhealthy⟩ n
  | true =>
      obtain ⟨input, now⟩ := x
      cases input with
      | query => contradiction
      | timers => exact pollTimers_answered hc h
      | serve => contradiction
      | serverCloses => contradiction
      | event e =>
          cases e with
          | headers stream headers endOfStream =>
              exact onHeaders_answered hc h stream headers endOfStream
          | close => exact close_answered hc h
          | _ => contradiction

theorem run_answered (hc : Coherent c) (h : Answered c) (xs : List Call)
    (hxs : ∀ x ∈ xs, x.input ≠ .query) : Answered (c.run xs) := by
  induction xs generalizing c with
  | nil => exact h
  | cons x rest ih =>
      have hx := after_answered hc h x (hxs x List.mem_cons_self)
      exact ih (invariant_coherent.after hc hc x) hx fun y hy => hxs y (List.mem_cons_of_mem x hy)

/-- No limit is hit in vain. Once an event or a poll is over, a limit that was
hit has started a drain, a lost ping has ended it, and as long as no drain has
started every limit is still being watched. -/
theorem limit_never_lost (id : ConnectionId) (protocol : Protocol) (config : Config)
    (routes : Resolver) (handler : Handler) (start : Instant) (xs : List Call)
    (hxs : ∀ x ∈ xs, x.input ≠ .query) :
    let c := (create id protocol config routes handler start).run xs
    (c.tornDown = false → c.monitor.latched.isSome → c.drain.phase ≠ .idle) ∧
      (c.monitor.unhealthy = true → c.drain.phase = .closed) ∧
      (c.tornDown = false → c.drain.phase = .idle → c.monitor.Watches config.keepAlive) := by
  intro c
  have hfresh := coherent_create id protocol config routes handler start
  have hstart := answered_create id protocol config routes handler start
  have hv : c.monitor.Vigilant := vigilant_run id protocol config routes handler start xs
  have hlimits : c.monitor.limits = config.keepAlive :=
    limits_run id protocol config routes handler start xs
  have ha : Answered c := run_answered hfresh hstart xs hxs
  have hdecided (ht : c.tornDown = false) (hg : c.monitor.graceful.isSome) :
      c.drain.phase ≠ .idle := by
    intro hp
    rcases ha.graceful ht hg with hd | ⟨hd, -⟩
    · rw [hp] at hd
      contradiction
    · contradiction
  refine ⟨fun ht hl => ?_, ha.unhealthy, fun ht hp => ?_⟩
  · cases hu : c.monitor.unhealthy with
    | true =>
        rw [ha.unhealthy hu]
        simp
    | false =>
        rw [Monitor.latched, hu] at hl
        exact hdecided ht hl
  · have hnone : c.monitor.graceful = none := by
      cases hg : c.monitor.graceful with
      | none => rfl
      | some v => exact absurd hp (hdecided ht (by rw [hg]; rfl))
    rw [← hlimits]
    exact ⟨fun hs => hv.idle hs hnone, fun hs => hv.age hs hnone, hv.ping,
      fun max hm => hv.requests max hm hnone⟩

theorem limit_never_lost_idle :
    let xs : List Call := [⟨.event (.lifecycle .registered), 0⟩, ⟨.event (.lifecycle .active), 0⟩,
      ⟨.event (.headers 1 {} true), 1⟩, ⟨.timers, 10000000001⟩]
    let c := (create 1 .h2 {} (fun _ => none) (fun _ _ => []) 0).run xs
    (∀ x ∈ xs, x.input ≠ .query) ∧ c.tornDown = false ∧
      c.monitor.latched = some .idleTimeout ∧ c.drain.phase ≠ .idle := by
  intro xs c
  have hxs : ∀ x ∈ xs, x.input ≠ .query := by simp [xs]
  have h := limit_never_lost 1 .h2 {} (fun _ => none) (fun _ _ => []) 0 xs hxs
  exact ⟨hxs, rfl, rfl, h.1 rfl rfl⟩

end Connection

end HttpLifecycle
