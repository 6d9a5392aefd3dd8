import HttpLifecycle.Proofs.Connection.Deadlines

namespace HttpLifecycle.Connection

variable {c d : Connection} {now : Instant}

/-- Nothing that the peer or the driver could see has changed. -/
structure Undisturbed (c d : Connection) : Prop where
  commands : d.commands = c.commands
  state : d.state = c.state
  drain : d.drain = c.drain
  streams : d.streams = c.streams

/-- A limit was hit and nobody has acted on it. -/
def Overlooked (c : Connection) : Prop :=
  c.Open ∧ (c.monitor.unhealthy = true ∨ c.monitor.graceful.isSome ∧ ¬ c.drain.Decided)

theorem Undisturbed.refl (c : Connection) : Undisturbed c c := ⟨rfl, rfl, rfl, rfl⟩

theorem undisturbed_flag (flag : Bool) :
    Undisturbed c { d with closeRequested := flag } ↔ Undisturbed c d :=
  ⟨fun h => ⟨h.commands, h.state, h.drain, h.streams⟩,
    fun h => ⟨h.commands, h.state, h.drain, h.streams⟩⟩

theorem Answered.not_overlooked (h : Answered c) : ¬ c.Overlooked := by
  rintro ⟨ho, hu | ⟨hg, hd⟩⟩
  · exact ho.1 (h.unhealthy hu)
  · exact hd (h.graceful ho.2 hg)

/-- A drain for a limit makes itself felt unless one is under way that the
limit cannot rename. -/
theorem startDrain_undisturbed {reason : Reason} {wait : Duration} (h : Coherent c) (ho : c.Open)
    (hreq : reason.required = true) :
    Undisturbed c (c.startDrain reason wait now) ↔ c.drain.Decided := by
  constructor
  · intro hu
    rw [← hu.drain]
    exact startDrain_decided reason now wait h ho.2 hreq
  · intro hd
    rcases hd with hp | ⟨hp, hr⟩
    · exact absurd hp ho.1
    · obtain ⟨es, hes, he⟩ := startDrain_later reason now wait h hp
      have hs : superseded c.drain reason = c.drain.reason := if_neg fun hn => hr hn.2.1
      rw [he, hs]
      refine ⟨?_, rfl, rfl, rfl⟩
      show commandsOf (c.journal ++ es) = commandsOf c.journal
      rw [commandsOf_append, hes, List.append_nil]

theorem urgent_unhealthy (h : Coherent c) (hv : c.monitor.Vigilant) (hs : c.serverClosing = false)
    (ho : c.Open) (ha : c.Ahead now) (hu : c.Urgent now) : c.monitor.unhealthy = true := by
  rcases hu with hc | hp | hu
  · rw [hs] at hc
    contradiction
  · exact absurd (h.peerError hp) ho.1
  · rw [isUnhealthy_result, ha.monitor.current.verdict_eq] at hu
    obtain ⟨v, hresult, hv'⟩ := (Option.any_eq_true _ _).mp hu
    have hlatched : c.monitor.latched = some v := by
      split at hresult
      · contradiction
      · exact hresult
    cases hh : c.monitor.unhealthy with
    | true => rfl
    | false =>
        rw [Monitor.latched, hh] at hlatched
        have hg : c.monitor.graceful = some v := hlatched
        cases v with
        | pingTimeout => exact absurd hg hv.graceful
        | _ => contradiction

theorem checkDisconnection_undisturbed (h : Coherent c) (hv : c.monitor.Vigilant)
    (hs : c.serverClosing = false) (ha : c.Ahead now) :
    Undisturbed c (c.checkDisconnection now) ↔ ¬ c.Overlooked := by
  by_cases ho : c.Open
  · by_cases hu : c.Urgent now
    · have hunhealthy := urgent_unhealthy h hv hs ho ha hu
      have hclosed := checkDisconnection_closed ho hu
      constructor
      · intro hsame
        rw [hsame.drain] at hclosed
        exact absurd hclosed ho.1
      · intro hno
        exact absurd ⟨ho, .inl hunhealthy⟩ hno
    · obtain ⟨hverdict, hhealthy⟩ := not_urgent h ho hu
      have hfired : c.monitor.fired now = c.monitor := congrArg Connection.monitor (fire_ahead ha)
      rw [hfired] at hverdict hhealthy
      rw [checkDisconnection_calm ho hu, fire_ahead ha, hverdict]
      split
      · rename_i hlatched
        have hreq := drainReason_required c.monitor.graceful
        rw [startDrain_flag, undisturbed_flag, startDrain_undisturbed h ho hreq]
        constructor
        · rintro hd ⟨-, hn | ⟨-, hn⟩⟩
          · rw [hhealthy] at hn
            contradiction
          · exact hn hd
        · intro hno
          exact Classical.byContradiction fun hd => hno ⟨ho, .inr ⟨hlatched.2, hd⟩⟩
      · rename_i hidle
        refine ⟨fun _ => ?_, fun _ => .refl c⟩
        rintro ⟨-, hn | ⟨hg, hd⟩⟩
        · rw [hhealthy] at hn
          contradiction
        · cases hr : c.closeRequested with
          | true => exact hd (h.closeRequested hr)
          | false => exact hidle ⟨hr, hg⟩
  · rw [checkDisconnection_over ho]
    exact ⟨fun _ hn => ho hn.1, fun _ => .refl c⟩

theorem pollTimers_early (ha : c.Ahead now) : c.pollTimers now = c.checkDisconnection now := by
  rw [pollTimers_eq]
  split
  · rename_i ht
    rw [checkDisconnection_over fun ho => by simp [ho.2] at ht]
  · have hidle : c.probed now = c := by
      rw [probed, ha.monitor.poll_eq]
      exact observe_idle rfl rfl
    rw [hidle, pollDrain_early now ha.drain]

theorem Leads.serverClosing {b : Bool} {s : Option StreamId} (l : Leads b c s d) :
    d.serverClosing = c.serverClosing := by
  cases l with
  | plain m => exact (Moves.frame m).2.1
  | admits stream m _ n =>
      have hm := (Moves.frame m).2.1
      exact (Moves.frame n).2.1.trans hm

theorem run_serverClosing (h : Coherent c) (xs : List Call)
    (hxs : ∀ x ∈ xs, x.input ≠ .serverCloses) : (c.run xs).serverClosing = c.serverClosing := by
  induction xs generalizing c with
  | nil => rfl
  | cons x rest ih =>
      have hx : (c.after x).serverClosing = c.serverClosing := by
        rcases after_cases h x with ⟨hs, -⟩ | hl
        · exact absurd hs (hxs x List.mem_cons_self)
        · exact hl.serverClosing
      have hrest : ∀ y ∈ rest, y.input ≠ .serverCloses :=
        fun y hy => hxs y (List.mem_cons_of_mem x hy)
      exact (ih (invariant_coherent.after h h x) hrest).trans hx

/-- Who sleeps until the next deadline misses nothing, unless somebody asked in
the meantime whether the connection has to close: the question fires what is
due, takes the deadline away, and leaves the limit for a poll that nobody has a
reason to make. -/
theorem early_poll_iff (id : ConnectionId) (protocol : Protocol) (config : Config)
    (routes : Resolver) (handler : Handler) (start : Instant) (xs : List Call)
    (hxs : ∀ x ∈ xs, x.input ≠ .serverCloses) (now : Instant)
    (hnow : ∀ d, ((create id protocol config routes handler start).run xs).nextDeadline = some d →
      now < d) :
    let c := (create id protocol config routes handler start).run xs
    (Undisturbed c (c.pollTimers now) ↔ ¬ c.Overlooked) ∧
      (c.Overlooked → ∃ x ∈ xs, x.input = .query) := by
  intro c
  have hfresh := coherent_create id protocol config routes handler start
  have hv : c.monitor.Vigilant := vigilant_run id protocol config routes handler start xs
  have ha : c.Ahead now := (nextDeadline_later c now).mp hnow
  have hs : c.serverClosing = false := run_serverClosing hfresh xs hxs
  refine ⟨?_, fun hover => ?_⟩
  · rw [pollTimers_early ha]
    exact checkDisconnection_undisturbed (hfresh.run xs) hv hs ha
  · apply Classical.byContradiction
    intro hno
    have hquery : ∀ x ∈ xs, x.input ≠ .query := fun x hx hq => hno ⟨x, hx, hq⟩
    have hstart := answered_create id protocol config routes handler start
    exact (run_answered hfresh hstart xs hquery).not_overlooked hover

theorem early_poll_renames :
    let xs : List Call := [⟨.event (.lifecycle .registered), 0⟩, ⟨.event (.lifecycle .active), 0⟩,
      ⟨.event (.shutdown none), 9500000000⟩, ⟨.query, 10000000000⟩]
    let c := (create 1 .h2 {} (fun _ => none) (fun _ _ => []) 0).run xs
    (∀ x ∈ xs, x.input ≠ .serverCloses) ∧ (∀ d, c.nextDeadline = some d → 10200000000 < d) ∧
      c.Overlooked ∧ ¬ Undisturbed c (c.pollTimers 10200000000) := by
  intro xs c
  have hxs : ∀ x ∈ xs, x.input ≠ .serverCloses := by simp [xs]
  have hnext : c.nextDeadline = some 10500000000 := by decide +kernel
  have hnow : ∀ d, c.nextDeadline = some d → 10200000000 < d := by
    intro d hd
    obtain rfl := Option.some.inj (hnext.symm.trans hd)
    decide
  have hover : c.Overlooked := by
    refine ⟨⟨by decide, rfl⟩, .inr ⟨rfl, ?_⟩⟩
    rintro (hp | ⟨-, hr⟩)
    · contradiction
    · exact hr rfl
  have h := early_poll_iff 1 .h2 {} (fun _ => none) (fun _ _ => []) 0 xs hxs 10200000000 hnow
  exact ⟨hxs, hnow, hover, fun hsame => h.1.mp hsame hover⟩

/-- Asked when its idle time is up, a connection has no deadline left, and yet
the next poll drains it. -/
theorem early_poll_disturbs :
    let xs : List Call := [⟨.event (.lifecycle .registered), 0⟩, ⟨.event (.lifecycle .active), 0⟩,
      ⟨.query, 10000000000⟩]
    let c := (create 1 .h2 {} (fun _ => none) (fun _ _ => []) 0).run xs
    (∀ x ∈ xs, x.input ≠ .serverCloses) ∧ c.nextDeadline = none ∧
      ¬ Undisturbed c (c.pollTimers 10000000001) ∧
      (c.pollTimers 10000000001).commands =
        [.goAway ErrorCode.noError unboundedStream "idle-timeout", .flush] := by
  intro xs c
  have hsent : (c.pollTimers 10000000001).commands =
      [.goAway ErrorCode.noError unboundedStream "idle-timeout", .flush] := by decide +kernel
  refine ⟨by simp [xs], rfl, fun hsame => ?_, hsent⟩
  have hsilent : c.commands = [] := rfl
  rw [hsame.commands, hsilent] at hsent
  contradiction

end HttpLifecycle.Connection
