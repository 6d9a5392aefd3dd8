import HttpLifecycle.Proofs.Connection.Alike
import HttpLifecycle.Proofs.Connection.Pings

namespace HttpLifecycle

theorem goAway_not_mem {ks : List Command} (h : Quiet ks) (code : Nat) (last : StreamId)
    (text : String) : .goAway code last text ∉ ks := by
  intro hk
  have := h _ hk
  contradiction

namespace Connection

variable {c d : Connection}

theorem Announced.no_goAway {p : Protocol} {ks : List Command} (hp : p.isHttp2 = false)
    (h : Announced p ks) (code : Nat) (last : StreamId) (text : String) :
    .goAway code last text ∉ ks := by
  obtain ⟨before, r, after, hb, ha, rfl⟩ := h
  simp [announcement, hp, goAway_not_mem hb, goAway_not_mem ha]

theorem Wire.no_goAway {p : Protocol} {last : StreamId} {phase : Drain.Phase}
    {ks : List Command} (hp : p.isHttp2 = false) (h : Wire p last phase ks) (code : Nat)
    (stream : StreamId) (text : String) : .goAway code stream text ∉ ks := by
  cases phase with
  | idle => exact goAway_not_mem h code stream text
  | start => exact Announced.no_goAway hp h code stream text
  | wait => exact Announced.no_goAway hp h code stream text
  | closed =>
      obtain ⟨before, r, after, hb, ha, -, rfl⟩ := h
      have hbefore : .goAway code stream text ∉ before := by
        rcases hb with hb | hb
        · exact goAway_not_mem hb code stream text
        · exact hb.no_goAway hp code stream text
      simp [farewell, hp, hbefore, goAway_not_mem ha]

theorem Wire.close_told {p : Protocol} {last : StreamId} {ks : List Command}
    (h : Wire p last .closed ks) : .close ∈ ks := by
  obtain ⟨before, r, after, -, -, -, rfl⟩ := h
  simp [farewell]

theorem Alike.pinged? (h : Alike c d) (x : Call) : d.pinged? x = c.pinged? x := by
  cases h
  rfl

theorem Alike.run_pings (h : Alike c d) (hc : Coherent c) (hd : Coherent d)
    (hsame : d.pings = c.pings) (xs : List Call) : (d.run xs).pings = (c.run xs).pings := by
  induction xs generalizing c d with
  | nil => exact hsame
  | cons x rest ih =>
      refine ih (h.after x) (invariant_coherent.after hc hc x) (invariant_coherent.after hd hd x) ?_
      rw [after_pings hc x, after_pings hd x, hsame, h.pinged? x]

theorem pollTimers_lost (h : Coherent c) (hv : c.monitor.Vigilant) (ho : c.Open)
    {p : Monitor.Ping} (hp : c.monitor.outstanding = some p) {now : Instant}
    (hle : p.deadline ≤ now) : (c.pollTimers now).drain.phase = .closed := by
  refine pollTimers_closed h hv ho (.inr (.inr ((Monitor.isUnhealthy_iff hv now).mpr ⟨?_, ?_⟩)))
  · exact fun hs => h.destroyed_iff.mp hs ho
  · rw [Monitor.fired_unhealthy, hp]
    cases hs : c.monitor.stage with
    | active => simp [hle]
    | dormant =>
        rw [hv.dormant hs] at hp
        contradiction
    | destroyed => exact absurd ho (h.destroyed_iff.mp hs)

section Fresh

variable (id : ConnectionId) (protocol : Protocol) (config : Config) (routes : Resolver)
  (handler : Handler) (start : Instant)

def established : List Call :=
  [⟨.event (.lifecycle .registered), start⟩, ⟨.event (.lifecycle .active), start⟩]

theorem established_scheduled {interval : Duration}
    (h : config.keepAlive.pingInterval? = some interval) :
    let c := (create id protocol config routes handler start).run (established start)
    c.tornDown = false ∧ c.monitor.stage = .active ∧
      c.monitor.pingAt = some (start + interval) ∧ c.monitor.outstanding = none ∧
      c.monitor.unhealthy = false := by
  have hset : config.keepAlive.enabled = true := by simp [KeepAlive.enabled, h]
  simp [established, run, after, perform, handle, onLifecycle, establish, create, log, emit,
    Connection.count, observe, Monitor.arm, Monitor.isNoop, hset, h]

theorem established_pinged (h : config.keepAlive.pingIntervalMillis ≠ 0) :
    ∃ xs, ((create id protocol config routes handler start).run xs).pings ≠ [] := by
  obtain ⟨interval, hinterval⟩ : ∃ interval, config.keepAlive.pingInterval? = some interval :=
    ⟨_, if_neg h⟩
  obtain ⟨htorn, hactive, hat, hout, hhealthy⟩ :=
    established_scheduled id protocol config routes handler start hinterval
  have hcoh := coherent_run id protocol config routes handler start (established start)
  have hlimits := limits_run id protocol config routes handler start (established start)
  refine ⟨established start ++ [⟨.timers, start + interval⟩], ?_⟩
  rw [run_concat, after_pings hcoh]
  generalize (create id protocol config routes handler start).run (established start) = c at *
  have hsent : c.pinged? ⟨.timers, start + interval⟩ = some c.monitor.nextPayload := by
    rw [pinged?]
    simp only [htorn, Bool.false_eq_true, if_false]
    refine Monitor.poll_due hactive ?_ hat (Nat.le_refl _) hout hhealthy
    rw [hlimits, hinterval]
    rfl
  rw [hsent]
  simp

/-- What a connection that cannot announce its shutdown has to say. It never
sends a GOAWAY, but its pings, and all that its timers and a shutdown look at,
are those of an HTTP/2 connection: it is pinged just if an interval is set,
and given up when such a ping is not acknowledged. -/
theorem http1_pinged (hp : protocol.isHttp2 = false) :
    let c := create id protocol config routes handler start
    let e := create id .h2 config routes handler start
    (∀ xs code last text, .goAway code last text ∉ (c.run xs).commands) ∧
      (∀ xs, (c.run xs).pings = (e.run xs).pings ∧ Alike (c.run xs) (e.run xs)) ∧
      ((∀ xs n, .ping n ∉ (c.run xs).commands) ↔ config.keepAlive.pingIntervalMillis = 0) ∧
      (∀ xs p now, (c.run xs).Open → (c.run xs).monitor.outstanding = some p →
        p.deadline ≤ now → .close ∈ ((c.run xs).after ⟨.timers, now⟩).commands) ∧
      (config.keepAlive.pingIntervalMillis = 0 → ∀ xs now,
        ((c.run xs).monitor.isUnhealthy now).result = false) := by
  intro c e
  have hc : Coherent c := coherent_create id protocol config routes handler start
  have he : Coherent e := coherent_create id .h2 config routes handler start
  have hwired (xs : List Call) : Wired (c.run xs) ∧ (c.run xs).protocol = protocol :=
    ⟨invariant_wired.run hc (fun k hk => by contradiction) xs,
      (invariant_protocol protocol).run hc rfl xs⟩
  have hpingless (hoff : config.keepAlive.pingIntervalMillis = 0) : c.monitor.Pingless :=
    ⟨if_pos hoff, rfl, rfl⟩
  refine ⟨fun xs code last text => ?_, fun xs => ⟨?_, ?_⟩, ⟨fun hnone => ?_, fun hoff xs n => ?_⟩,
    fun xs p now ho hout hle => ?_, fun hoff xs now => ?_⟩
  · exact (hwired xs).1.no_goAway ((hwired xs).2 ▸ hp) code last text
  · have halike : Alike e c := .intro ..
    exact halike.run_pings he hc rfl xs
  · have halike : Alike c e := .intro ..
    exact halike.run xs
  · by_contra hset
    obtain ⟨xs, hxs⟩ := established_pinged id protocol config routes handler start hset
    exact hxs (pingsOf_eq_nil (hnone xs))
  · rw [← mem_pingsOf]
    have hsilent := run_unpinged hc (hpingless hoff) rfl xs
    rw [pings] at hsilent
    simp [hsilent]
  · have hcoh := hc.run xs
    have hphase := pollTimers_lost hcoh (vigilant_run id protocol config routes handler start xs) ho
      hout hle
    have hnext := invariant_wired.after hcoh (hwired xs).1 ⟨.timers, now⟩
    rw [Wired] at hnext
    have hclosed : ((c.run xs).after ⟨.timers, now⟩).drain.phase = .closed := hphase
    rw [hclosed] at hnext
    exact hnext.close_told
  · have hm := invariant_pingless.run hc (hpingless hoff) xs
    have hv := vigilant_run id protocol config routes handler start xs
    rw [Bool.eq_false_iff]
    intro hu
    have hlost := ((Monitor.isUnhealthy_iff hv now).mp hu).2
    rw [(hm.fired now).healthy] at hlost
    contradiction

end Fresh

theorem http1_pinged_interval :
    let c := create 1 .h1c { keepAlive := { pingIntervalMillis := 1000 } } (fun _ => none)
      (fun _ _ => []) 0
    Protocol.h1c.isHttp2 = false ∧
      (∀ xs code last text, .goAway code last text ∉ (c.run xs).commands) ∧
      ∃ xs n, .ping n ∈ (c.run xs).commands := by
  intro c
  obtain ⟨hsilent, -, hpings, -⟩ := http1_pinged 1 .h1c
    { keepAlive := { pingIntervalMillis := 1000 } } (fun _ => none) (fun _ _ => []) 0 rfl
  refine ⟨rfl, hsilent, ?_⟩
  have hset : ¬ ∀ xs n, .ping n ∉ (c.run xs).commands := fun hnone => by
    have := hpings.mp hnone
    contradiction
  simpa using hset

/-- A set-up that passes every check has an HTTP/1 connection pinged, and
closed when nobody answers. -/
theorem http1_lost_ping :
    let config : Config := { keepAlive := { pingIntervalMillis := 1000, pingTimeoutMillis := 500 } }
    let c := create 1 .h1 config (fun _ => none) (fun _ _ => []) 0
    config.validate.isOk = true ∧
      (c.run (established 0 ++ [⟨.timers, 1000000000⟩])).commands = [.ping 1, .flush] ∧
      (c.run (established 0 ++ [⟨.timers, 1000000000⟩, ⟨.timers, 1500000000⟩])).commands =
        [.ping 1, .flush, .close] := by
  decide +kernel

end Connection

end HttpLifecycle
