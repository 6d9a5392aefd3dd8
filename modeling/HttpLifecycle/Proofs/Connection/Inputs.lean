import HttpLifecycle.Proofs.Connection.Ending

namespace HttpLifecycle.Connection

variable {b : Bool} {c d : Connection} (now : Instant)

def Input.latches : Input → Bool
  | .event (.headers ..) | .event .close | .timers | .query => true
  | _ => false

def admitStream (c : Connection) (stream : StreamId) : Connection :=
  { c with lastStream := max c.lastStream stream }

theorem Coherent.admitStream (h : Coherent c) (stream : StreamId) :
    Coherent (c.admitStream stream) := { h with }

/-- What one input does: moves, and the admission of a stream among them if
the input opened one. -/
inductive Leads (b : Bool) (c : Connection) : Option StreamId → Connection → Prop
  | plain {d : Connection} (m : Moves b c d) : Leads b c none d
  | admits {d e : Connection} (stream : StreamId) (m : Moves b c d)
      (hrank : d.state.rank < State.closing.rank) (n : Moves b (d.admitStream stream) e) :
      Leads b c (some stream) e

theorem moves_activity (c : Connection) (now : Instant) (frame : Frame) :
    Moves b c (c.activity now frame) :=
  .of (.watch (.activity now frame))

theorem moves_establish (c : Connection) (now : Instant) : Moves b c (c.establish now) := by
  rw [establish]
  split
  · have harm : Moves b c (c.observe (c.monitor.arm now)) := moves_watch (.arm now)
    simp only
    split
    · exact harm.trans (moves_log _ _ _ _)
    · exact harm
  · exact .refl c

theorem moves_onLifecycle (h : Coherent c) (e : Lifecycle) :
    Moves b c (c.onLifecycle e now) := by
  have hlog : Moves b c (c.log .debug "lifecycle event"
      [("connection_id", .num c.id), ("event", .text e.text)]) := moves_log c _ _ _
  have hcoh := hlog.coherent h
  cases e with
  | added => exact hlog
  | registered =>
      exact (hlog.trans (.of (.attach true c.active))).trans (moves_establish _ now)
  | active =>
      refine hlog.trans (Moves.trans ?_ (moves_establish _ now))
      split
      · exact .refl _
      · exact (Moves.of (.attach c.registered true)).trans (.of (.tally _ rfl))
  | inactive => exact hlog.trans (moves_teardown now hcoh)
  | removed => exact hlog.trans (moves_teardown now hcoh)

def noted (c : Connection) (code : Nat) (last : StreamId) (now : Instant) : Connection :=
  (c.activity now .control).log .info "peer sent GOAWAY"
    [("connection_id", .num c.id), ("error_code", .num code), ("last_stream_id", .num last)]

theorem moves_noted (c : Connection) (code : Nat) (last : StreamId) (now : Instant) :
    Moves b c (c.noted code last now) :=
  (moves_activity c now .control).trans (moves_log _ _ _ _)

theorem onGoAway_error {code : Nat} (h : code ≠ ErrorCode.noError) (last : StreamId) :
    c.onGoAway code last now =
      { (c.noted code last now).conclude .peerGoAway now with
        peerError := c.peerError.or (some code) } := by
  have hsome : (c.peerError.or (some code)).isSome = true := by
    cases c.peerError <;> rfl
  rw [← conclude_peerError]
  refine (if_pos h).trans ?_
  rw [forceClose_eq, forceReason]
  simp only [noted, activity, log, emit, hsome, if_true]

theorem onGoAway_graceful (c : Connection) (last : StreamId) :
    c.onGoAway ErrorCode.noError last now =
      if c.tornDown || c.drain.isClosed then c.noted ErrorCode.noError last now
      else (c.noted ErrorCode.noError last now).startDrain .peerGoAway c.drainFor now := rfl

theorem moves_onGoAway (h : Coherent c) (code : Nat) (last : StreamId) :
    Moves b c (c.onGoAway code last now) := by
  have hnoted : Moves b c (c.noted code last now) := moves_noted c code last now
  have hcoh := hnoted.coherent h
  by_cases hcode : code = ErrorCode.noError
  · subst hcode
    rw [onGoAway_graceful]
    split
    · exact hnoted
    · rename_i hover
      have ht : c.tornDown = false := by
        cases ht : c.tornDown with
        | false => rfl
        | true => simp [ht] at hover
      exact hnoted.trans (moves_startDrain .peerGoAway now _ hcoh ht)
  · rw [onGoAway_error now hcode]
    exact (hnoted.trans (moves_conclude .peerGoAway now hcoh)).trans
      (.of (.peerFails _ (conclude_phase .peerGoAway now _)))

theorem onHeaders_late (stream : StreamId) (headers : Headers) (endOfStream : Bool)
    (h : State.closing.rank ≤ c.state.rank) :
    c.onHeaders stream headers endOfStream now =
      ((c.activity now .headers).refuse stream .closing, .error (.refused stream .closing)) := by
  rw [onHeaders]
  exact if_pos h

def counted (c : Connection) (now : Instant) : Connection :=
  (c.activity now .headers).observe (c.activity now .headers).monitor.openStream

theorem moves_counted (c : Connection) (now : Instant) : Moves true c (c.counted now) :=
  (moves_activity c now .headers).trans (moves_latch .openStream)

theorem onHeaders_beyond (stream : StreamId) (headers : Headers) (endOfStream : Bool)
    (h : ¬ State.closing.rank ≤ c.state.rank)
    (hr : (c.activity now .headers).monitor.openStream.result = false) :
    c.onHeaders stream headers endOfStream now =
      (((c.counted now).refuse stream .maxRequests).checkDisconnection now,
        .error (.refused stream .maxRequests)) := by
  have hr' : (!(c.activity now .headers).monitor.openStream.result) = true := by rw [hr]; rfl
  rw [onHeaders]
  exact (if_neg h).trans (if_pos hr')

def seat (c : Connection) (r : Request) : Connection :=
  let p := if r.ready then c.dispatch r else (c, r)
  p.1.put p.2

theorem ShutdownKept.seat (c : Connection) (r : Request) : ShutdownKept c (c.seat r) := by
  unfold Connection.seat
  simp only
  split
  · exact (dispatch c r).trans (put _ _)
  · exact put c r

def opening (c : Connection) (stream : StreamId) (headers : Headers) (endOfStream : Bool)
    (now : Instant) : Request.Opening :=
  { connection := c.id
    stream := stream
    headers := headers
    endOfStream := endOfStream
    keepAlive := c.state == .active && (c.protocol.isHttp2 || !headers.wantsClose)
    service := c.routes headers
    defaultLimit := c.defaultLimit
    now := now }

theorem onHeaders_within (stream : StreamId) (headers : Headers) (endOfStream : Bool)
    (h : ¬ State.closing.rank ≤ c.state.rank)
    (hr : (c.activity now .headers).monitor.openStream.result = true) :
    c.onHeaders stream headers endOfStream now =
      ((seat { ((c.counted now).admitStream stream).count .streamsOpened with
          intake := (Request.ofOpening (c.opening stream headers endOfStream now) c.intake).2 }
        (Request.ofOpening (c.opening stream headers endOfStream now)
          c.intake).1).checkDisconnection now, .ok ()) := by
  have hr' : ¬ (!(c.activity now .headers).monitor.openStream.result) = true := by
    rw [hr]
    simp
  rw [onHeaders]
  refine (if_neg h).trans ((if_neg hr').trans ?_)
  simp only [seat, counted, admitStream, count, emit, observe, activity, opening]
  rfl

theorem onHeaders_opens (stream : StreamId) (headers : Headers) (endOfStream : Bool)
    (h : ¬ State.closing.rank ≤ c.state.rank)
    (hr : (c.activity now .headers).monitor.openStream.result = true) :
    ∃ e, ShutdownKept ((c.counted now).admitStream stream) e ∧
      c.onHeaders stream headers endOfStream now = (e.checkDisconnection now, .ok ()) := by
  have hopened := ShutdownKept.count ((c.counted now).admitStream stream) (k := .streamsOpened) rfl
  exact ⟨_, (hopened.trans (ShutdownKept.intake _ _)).trans (ShutdownKept.seat _ _),
    onHeaders_within now stream headers endOfStream h hr⟩

theorem leads_onHeaders (h : Coherent c) (stream : StreamId) (headers : Headers)
    (endOfStream : Bool) :
    (c.onHeaders stream headers endOfStream now).2 = .ok () ∧
        Leads true c (some stream) (c.onHeaders stream headers endOfStream now).1 ∨
      (c.onHeaders stream headers endOfStream now).2 ≠ .ok () ∧
        Leads true c none (c.onHeaders stream headers endOfStream now).1 := by
  by_cases hlate : State.closing.rank ≤ c.state.rank
  · rw [onHeaders_late now stream headers endOfStream hlate]
    exact .inr ⟨by simp,
      .plain ((moves_activity c now .headers).trans (ShutdownKept.refuse _ _ _).moves)⟩
  · have hcounted := moves_counted c now
    cases hr : (c.activity now .headers).monitor.openStream.result with
    | false =>
        rw [onHeaders_beyond now stream headers endOfStream hlate hr]
        have hrefused :=
          hcounted.trans (ShutdownKept.refuse (c.counted now) stream .maxRequests).moves
        refine .inr ⟨by simp, .plain (hrefused.trans ?_)⟩
        exact moves_checkDisconnection now (hrefused.coherent h)
    | true =>
        obtain ⟨e, hseat, he⟩ := onHeaders_opens now stream headers endOfStream hlate hr
        rw [he]
        have hmoves : Moves true ((c.counted now).admitStream stream) e := hseat.moves
        have hcoh := hmoves.coherent ((hcounted.coherent h).admitStream stream)
        refine .inl ⟨rfl, .admits stream hcounted (Nat.lt_of_not_le hlate) ?_⟩
        exact hmoves.trans (moves_checkDisconnection now hcoh)

theorem leads_handle (h : Coherent c) (e : Event) :
    Leads (Input.event e).latches c (c.admission? ⟨.event e, now⟩) (c.handle e now).1 := by
  cases e with
  | lifecycle e => exact .plain (moves_onLifecycle now h e)
  | headers stream headers endOfStream =>
      rcases leads_onHeaders now h stream headers endOfStream with ⟨hr, hl⟩ | ⟨hr, hl⟩
      · have ha : c.admission? ⟨.event (.headers stream headers endOfStream), now⟩ =
            some stream := by
          simp only [admission?, perform, handle, hr]
        rw [ha]
        exact hl
      · have ha : c.admission? ⟨.event (.headers stream headers endOfStream), now⟩ = none := by
          simp only [admission?, perform, handle]
          split
          · rename_i hok
            exact absurd hok hr
          · rfl
        rw [ha]
        exact hl
  | data stream bytes endOfStream =>
      exact .plain ((moves_activity c now .data).trans
        (StreamSteps.moves (.onData stream bytes endOfStream now fun _ _ _ => trivial)))
  | ping payload => exact .plain (moves_activity c now .ping)
  | pingAck payload =>
      have hack : Moves false (c.activity now .ping) (c.onPingAck payload now) :=
        moves_watch (.ack payload now)
      exact .plain ((moves_activity c now .ping).trans hack)
  | reset stream code =>
      exact .plain
        ((moves_activity c now .control).trans (StreamSteps.moves (.onReset stream code now)))
  | goAway code last => exact .plain (moves_onGoAway now h code last)
  | setResponse stream tag => exact .plain (StreamSteps.moves (.setResponse stream tag))
  | complete stream => exact .plain (StreamSteps.moves (.completeResponse stream now))
  | abort stream cause => exact .plain (StreamSteps.moves (.abortStream stream cause now))
  | close => exact .plain (moves_close now h)
  | shutdown wait =>
      apply Leads.plain
      show Moves false c (c.shutdownRequested wait now)
      rw [shutdownRequested]
      split
      · exact .refl c
      · rename_i ht
        exact moves_startDrain .appRequested now _ h (by simpa using ht)

/-- Everything but the server's own flag comes down to moves. -/
theorem after_cases (h : Coherent c) (x : Call) :
    (x.input = .serverCloses ∧ c.admission? x = none ∧
        c.after x = { c with serverClosing := true }) ∨
      Leads x.input.latches c (c.admission? x) (c.after x) := by
  obtain ⟨input, now⟩ := x
  cases input with
  | event e => exact .inr (leads_handle now h e)
  | timers => exact .inr (.plain (moves_pollTimers now h))
  | query =>
      apply Or.inr
      apply Leads.plain
      show Moves true c (c.needsImmediate now).1
      rcases needsImmediate_state c now with he | he
      · rw [he]
        exact .refl c
      · rw [he]
        exact moves_fire c now
  | serve stream demand allowance =>
      exact .inr (.plain (StreamSteps.moves (.serve stream demand allowance)))
  | serverCloses => exact .inl ⟨rfl, rfl, rfl⟩

/-- What everything that can happen keeps, given that the parts agree. -/
structure Invariant (P : Connection → Prop) : Prop where
  move : ∀ {b : Bool} {c d : Connection}, Coherent c → P c → Move b c d → P d
  admits : ∀ {c : Connection} (stream : StreamId), Coherent c →
    c.state.rank < State.closing.rank → P c → P (c.admitStream stream)
  server : ∀ {c : Connection}, P c → P { c with serverClosing := true }

theorem invariant_coherent : Invariant Coherent where
  move h _ m := m.coherent h
  admits stream h _ _ := h.admitStream stream
  server h := { h with }

theorem invariant_vigilant : Invariant fun c => c.monitor.Vigilant where
  move _ h m := m.vigilant h
  admits _ _ _ h := h
  server h := h

theorem invariant_limits (k : KeepAlive) : Invariant fun c => c.monitor.limits = k where
  move _ h m := m.limits.trans h
  admits _ _ _ h := h
  server h := h

namespace Invariant

variable {P : Connection → Prop}

theorem moves (i : Invariant P) (h : Coherent c) (hp : P c) (m : Moves b c d) : P d := by
  induction m with
  | refl => exact hp
  | tail m n ih => exact i.move (Moves.coherent h m) ih n

theorem leads {s : Option StreamId} (i : Invariant P) (h : Coherent c) (hp : P c)
    (l : Leads b c s d) : P d := by
  cases l with
  | plain m => exact i.moves h hp m
  | admits stream m hrank n =>
      have hm := m.coherent h
      exact i.moves (hm.admitStream stream) (i.admits stream hm hrank (i.moves h hp m)) n

theorem after (i : Invariant P) (h : Coherent c) (hp : P c) (x : Call) : P (c.after x) := by
  rcases after_cases h x with ⟨-, -, he⟩ | hl
  · rw [he]
    exact i.server hp
  · exact i.leads h hp hl

theorem run (i : Invariant P) (h : Coherent c) (hp : P c) (xs : List Call) : P (c.run xs) := by
  induction xs generalizing c with
  | nil => exact hp
  | cons x rest ih => exact ih (invariant_coherent.after h h x) (i.after h hp x)

end Invariant

theorem Coherent.run (h : Coherent c) (xs : List Call) : Coherent (c.run xs) :=
  invariant_coherent.run h h xs

section Reachable

variable (id : ConnectionId) (protocol : Protocol) (config : Config) (routes : Resolver)
  (handler : Handler) (start : Instant) (xs : List Call)

theorem coherent_run : Coherent ((create id protocol config routes handler start).run xs) :=
  (coherent_create id protocol config routes handler start).run xs

theorem vigilant_run :
    ((create id protocol config routes handler start).run xs).monitor.Vigilant := by
  have hfresh := coherent_create id protocol config routes handler start
  exact invariant_vigilant.run hfresh (Monitor.vigilant_fresh config.keepAlive) xs

theorem limits_run :
    ((create id protocol config routes handler start).run xs).monitor.limits =
      config.keepAlive := by
  have hfresh := coherent_create id protocol config routes handler start
  exact (invariant_limits config.keepAlive).run hfresh rfl xs

end Reachable

end HttpLifecycle.Connection
