import HttpLifecycle.Proofs.Connection.Inputs

namespace HttpLifecycle.Connection

/-- Two connections are alike in all that the timers and a shutdown look at.
They may speak different protocols, serve different streams and have written
different things. -/
inductive Alike (c : Connection) : Connection → Prop
  | intro (id : ConnectionId) (protocol : Protocol) (createdAt : Instant) (defaultLimit : Nat)
      (streams : List Request) (lastStream : StreamId) (routes : Resolver) (handler : Handler)
      (dispatched : Nat) (intake : Intake) (journal : List Effect) :
      Alike c { c with
        id := id
        protocol := protocol
        createdAt := createdAt
        defaultLimit := defaultLimit
        streams := streams
        lastStream := lastStream
        routes := routes
        handler := handler
        dispatched := dispatched
        intake := intake
        journal := journal }

theorem ShutdownKept.alike {c d : Connection} (h : ShutdownKept c d) : Alike c d := by
  obtain ⟨streams, intake, dispatched, es, hes⟩ := h
  exact .intro ..

namespace Alike

variable {c d e : Connection} (now : Instant)

theorem refl (c : Connection) : Alike c c := .intro ..

theorem symm (h : Alike c d) : Alike d c := by
  cases h
  exact .intro ..

theorem trans (h : Alike c d) (g : Alike d e) : Alike c e := by
  cases h
  cases g
  exact .intro ..

theorem emit (c : Connection) (es : List Effect) : Alike c (c.emit es) := .intro ..

theorem onward {c₂ d₂ : Connection} (h : Alike c d) (hc : Alike c c₂) (hd : Alike d d₂) :
    Alike c₂ d₂ :=
  (hc.symm.trans h).trans hd

theorem shutdownsKept {c₂ d₂ : Connection} (h : Alike c d) (hc : ShutdownKept c c₂)
    (hd : ShutdownKept d d₂) :
    Alike c₂ d₂ :=
  h.onward hc.alike hd.alike

theorem ite {c₂ d₂ : Connection} {p : Prop} [Decidable p] (h : Alike c d) (g : Alike c₂ d₂) :
    Alike (if p then c else c₂) (if p then d else d₂) := by
  split
  · exact h
  · exact g

theorem observe {α : Type} (h : Alike c d) (s : Step Monitor Monitor.Event α) :
    Alike (c.observe s) (d.observe s) := by
  cases h
  exact .intro ..

theorem steer {α : Type} (h : Alike c d) (s : Step Drain Drain.Event α) :
    Alike (c.steer s) (d.steer s) := by
  cases h
  exact .intro ..

theorem activity (h : Alike c d) (frame : Frame) :
    Alike (c.activity now frame) (d.activity now frame) := by
  cases h
  exact .intro ..

theorem closing (h : Alike c d) :
    Alike { c with state := .closing } { d with state := .closing } := by
  cases h
  exact .intro ..

theorem afterDrain (h : Alike c d) : Alike (c.afterDrain now) (d.afterDrain now) := by
  have hclosed := h.closing.observe (c.monitor.destroy now)
  cases h with
  | intro => exact ite hclosed (.intro ..)

theorem startDrain (h : Alike c d) (reason : Reason) (wait : Duration) :
    Alike (c.startDrain reason wait now) (d.startDrain reason wait now) := by
  have hsteer := h.steer (c.drain.startOn c.clock reason wait now)
  cases h with
  | intro =>
      simp only [Connection.startDrain]
      cases (c.drain.startOn c.clock reason wait now).result with
      | none => exact hsteer
      | some answer =>
          apply afterDrain now
          cases answer with
          | ok u => exact .intro ..
          | error e => exact hsteer.onward (emit _ _) (emit _ _)

theorem fire (h : Alike c d) : Alike (c.fire now) (d.fire now) := by
  have hfire := h.observe (c.monitor.verdict now)
  cases h with
  | intro => exact hfire

theorem needsImmediate (h : Alike c d) :
    Alike (c.needsImmediate now).1 (d.needsImmediate now).1 ∧
      (c.needsImmediate now).2 = (d.needsImmediate now).2 := by
  have hfire := h.fire now
  have hsame := h
  cases h with
  | intro =>
      simp only [Connection.needsImmediate]
      split
      · exact ⟨hsame, rfl⟩
      · exact ⟨hfire, rfl⟩

theorem conclude (h : Alike c d) (reason : Reason) :
    Alike (c.conclude reason now) (d.conclude reason now) := by
  have hsteer := h.steer (c.drain.force reason now)
  cases h with
  | intro =>
      refine afterDrain now ?_
      exact ite (hsteer.onward (emit _ _) (emit _ _)) hsteer

theorem forceClose (h : Alike c d) : Alike (c.forceClose now) (d.forceClose now) := by
  have hkept := h.conclude now .peerGoAway
  have hfired := (h.fire now).conclude now
    (if (c.monitor.isUnhealthy now).result then .pingTimeout else .serverShutdown)
  rw [forceClose_eq, forceClose_eq]
  cases h with
  | intro =>
      simp only [Connection.forceReason]
      split
      · exact hkept
      · exact hfired

theorem isOpen (h : Alike c d) (ho : c.Open) : d.Open := by
  cases h
  exact ho

theorem urgent (h : Alike c d) (hu : c.Urgent now) : d.Urgent now := by
  cases h
  exact hu

theorem forced (h : Alike c d) :
    Alike ((c.needsImmediate now).1.forceClose now) ((d.needsImmediate now).1.forceClose now) :=
  (h.needsImmediate now).1.forceClose now

theorem close (h : Alike c d) : Alike (c.close now) (d.close now) := by
  by_cases ho : c.Open
  · by_cases hu : c.Urgent now
    · rw [close_forced ho hu, close_forced (h.isOpen ho) (h.urgent now hu)]
      exact h.forced now
    · rw [close_calm ho hu, close_calm (h.isOpen ho) fun hd => hu (h.symm.urgent now hd)]
      have hstart := (h.fire now).startDrain now
        (drainReason (c.monitor.verdict now).result) c.drainFor
      cases h with
      | intro => exact hstart
  · rw [close_over ho, close_over fun hd => ho (h.symm.isOpen hd)]
    exact h

theorem decided (h : Alike c d) :
    Alike { c with closeRequested := true } { d with closeRequested := true } := by
  cases h
  exact .intro ..

theorem checkDisconnection (h : Alike c d) :
    Alike (c.checkDisconnection now) (d.checkDisconnection now) := by
  by_cases ho : c.Open
  · by_cases hu : c.Urgent now
    · rw [checkDisconnection_forced ho hu,
        checkDisconnection_forced (h.isOpen ho) (h.urgent now hu)]
      exact h.forced now
    · rw [checkDisconnection_calm ho hu,
        checkDisconnection_calm (h.isOpen ho) fun hd => hu (h.symm.urgent now hd)]
      have hfire := h.fire now
      have hstart := hfire.decided.startDrain now
        (drainReason (c.monitor.verdict now).result) c.drainFor
      cases h with
      | intro => exact ite hstart hfire
  · rw [checkDisconnection_over ho, checkDisconnection_over fun hd => ho (h.symm.isOpen hd)]
    exact h

theorem pollDrain (h : Alike c d) : Alike (c.pollDrain now) (d.pollDrain now) := by
  have hsteer := h.steer (c.drain.poll now)
  cases h with
  | intro => exact ite (hsteer.afterDrain now) hsteer

theorem probed (h : Alike c d) : Alike (c.probed now) (d.probed now) := by
  have hpoll := h.observe (c.monitor.poll now)
  cases h with
  | intro =>
      simp only [Connection.probed]
      split
      · exact hpoll.onward (emit _ _) (emit _ _)
      · exact hpoll

theorem pollTimers (h : Alike c d) : Alike (c.pollTimers now) (d.pollTimers now) := by
  have hpolled := ((h.probed now).pollDrain now).checkDisconnection now
  rw [pollTimers_eq, pollTimers_eq]
  cases h with
  | intro => exact ite (.intro ..) hpolled

theorem establish (h : Alike c d) : Alike (c.establish now) (d.establish now) := by
  have harm := h.observe (c.monitor.arm now)
  cases h with
  | intro =>
      refine ite (ite (harm.onward (emit _ _) (emit _ _)) harm) ?_
      exact .intro ..

theorem stopped (h : Alike c d) : Alike (c.stopped now) (d.stopped now) := by
  have hgone := (h.observe (c.monitor.destroy now)).steer c.drain.cancel
  cases h with
  | intro => exact hgone

theorem closeStreams (h : Alike c d) (rs ss : List Request) :
    Alike (rs.foldl (closeStream now) { c with tornDown := true })
      (ss.foldl (closeStream now) { d with tornDown := true }) := by
  refine shutdownsKept (c := { c with tornDown := true }) (d := { d with tornDown := true }) ?_
    (.closeStreams _ now rs) (.closeStreams _ now ss)
  cases h
  exact .intro ..

theorem closed (h : Alike c d) : Alike { c with state := .closed } { d with state := .closed } := by
  cases h
  exact .intro ..

theorem parted (h : Alike c d) : Alike (c.parted now) (d.parted now) :=
  ((h.stopped now).closeStreams now (c.stopped now).streams (d.stopped now).streams).closed

theorem teardown (h : Alike c d) : Alike (c.teardown now) (d.teardown now) := by
  have hsame : d.tornDown = c.tornDown := by
    cases h
    rfl
  cases ht : c.tornDown with
  | true =>
      rw [teardown_later now ht, teardown_later now (hsame.trans ht)]
      exact h.stopped now
  | false =>
      rw [teardown_first now ht, teardown_first now (hsame.trans ht)]
      have hcounted (c : Connection) : Alike c
          (if c.active then c.count .connectionsClosed else c) := by
        split
        · exact emit _ _
        · exact refl c
      exact (h.parted now).onward ((hcounted _).trans (emit _ _)) ((hcounted _).trans (emit _ _))

theorem onLifecycle (h : Alike c d) (e : Lifecycle) :
    Alike (c.onLifecycle e now) (d.onLifecycle e now) := by
  have hlog : Alike (c.log .debug "lifecycle event" _) (d.log .debug "lifecycle event" _) :=
    h.onward (emit c [.note ⟨.debug, "lifecycle event",
        [("connection_id", .num c.id), ("event", .text e.text)]⟩])
      (emit d [.note ⟨.debug, "lifecycle event",
        [("connection_id", .num d.id), ("event", .text e.text)]⟩])
  unfold Connection.onLifecycle
  simp only
  generalize c.log .debug "lifecycle event" _ = c₂ at hlog
  generalize d.log .debug "lifecycle event" _ = d₂ at hlog
  cases e with
  | added => exact hlog
  | registered =>
      refine establish now ?_
      cases hlog
      exact .intro ..
  | active =>
      refine establish now ?_
      cases hlog with
      | intro => exact ite (.intro ..) (.intro ..)
  | inactive => exact hlog.teardown now
  | removed => exact hlog.teardown now

theorem onGoAway (h : Alike c d) (code : Nat) (last : StreamId) :
    Alike (c.onGoAway code last now) (d.onGoAway code last now) := by
  have hnoted : Alike (c.noted code last now) (d.noted code last now) :=
    (h.activity now .control).onward (emit _ _) (emit _ _)
  by_cases hcode : code = ErrorCode.noError
  · subst hcode
    rw [onGoAway_graceful, onGoAway_graceful]
    have hstart := hnoted.startDrain now .peerGoAway c.drainFor
    cases h with
    | intro => exact ite hnoted hstart
  · rw [onGoAway_error now hcode, onGoAway_error now hcode]
    have hended := hnoted.conclude now .peerGoAway
    generalize (c.noted code last now).conclude .peerGoAway now = c₂ at hended
    generalize (d.noted code last now).conclude .peerGoAway now = d₂ at hended
    cases h with
    | intro =>
        cases hended
        exact .intro ..

theorem counted (h : Alike c d) : Alike (c.counted now) (d.counted now) := by
  have hcounted := (h.activity now .headers).observe
    (c.activity now .headers).monitor.openStream
  cases h with
  | intro => exact hcounted

theorem onHeaders (h : Alike c d) (stream : StreamId) (headers : Headers) (endOfStream : Bool) :
    Alike (c.onHeaders stream headers endOfStream now).1
      (d.onHeaders stream headers endOfStream now).1 := by
  have hstate : d.state = c.state := by
    cases h
    rfl
  have hopens : (d.activity now .headers).monitor.openStream.result =
      (c.activity now .headers).monitor.openStream.result := by
    cases h
    rfl
  by_cases hlate : State.closing.rank ≤ c.state.rank
  · rw [onHeaders_late now stream headers endOfStream hlate,
      onHeaders_late now stream headers endOfStream (hstate ▸ hlate)]
    exact (h.activity now .headers).shutdownsKept (.refuse _ _ _) (.refuse _ _ _)
  · cases hr : (c.activity now .headers).monitor.openStream.result with
    | false =>
        rw [onHeaders_beyond now stream headers endOfStream hlate hr,
          onHeaders_beyond now stream headers endOfStream (hstate ▸ hlate) (hopens.trans hr)]
        exact ((h.counted now).shutdownsKept (.refuse _ _ _) (.refuse _ _ _)).checkDisconnection now
    | true =>
        obtain ⟨c₂, hc, hceq⟩ := onHeaders_opens now stream headers endOfStream hlate hr
        obtain ⟨d₂, hd, hdeq⟩ :=
          onHeaders_opens now stream headers endOfStream (hstate ▸ hlate) (hopens.trans hr)
        rw [hceq, hdeq]
        have hadmitted : Alike ((c.counted now).admitStream stream)
            ((d.counted now).admitStream stream) :=
          (h.counted now).onward (.intro ..) (.intro ..)
        exact (hadmitted.shutdownsKept hc hd).checkDisconnection now

theorem served {c₂ d₂ : Connection} (h : Alike c d) (hc : StreamSteps (fun _ _ => True) false c c₂)
    (hd : StreamSteps (fun _ _ => True) false d d₂) : Alike c₂ d₂ :=
  h.shutdownsKept hc.shutdownKept hd.shutdownKept

theorem handle (h : Alike c d) (e : Event) :
    Alike (c.handle e now).1 (d.handle e now).1 := by
  cases e with
  | lifecycle e => exact h.onLifecycle now e
  | headers stream headers endOfStream => exact h.onHeaders now stream headers endOfStream
  | data stream bytes endOfStream =>
      exact (h.activity now .data).served
        (.onData stream bytes endOfStream now fun _ _ _ => trivial)
        (.onData stream bytes endOfStream now fun _ _ _ => trivial)
  | ping payload => exact h.activity now .ping
  | pingAck payload =>
      have hack := (h.activity now .ping).observe ((c.activity now .ping).monitor.ack payload now)
      cases h with
      | intro => exact hack
  | reset stream code =>
      exact (h.activity now .control).served (.onReset stream code now) (.onReset stream code now)
  | goAway code last => exact h.onGoAway now code last
  | setResponse stream tag => exact h.served (.setResponse stream tag) (.setResponse stream tag)
  | complete stream =>
      exact h.served (.completeResponse stream now) (.completeResponse stream now)
  | abort stream cause =>
      exact h.served (.abortStream stream cause now) (.abortStream stream cause now)
  | close => exact h.close now
  | shutdown wait =>
      have hstart := h.startDrain now .appRequested (wait.getD c.drainFor)
      cases h with
      | intro => exact ite (.intro ..) hstart

theorem after (h : Alike c d) (x : Call) : Alike (c.after x) (d.after x) := by
  obtain ⟨input, now⟩ := x
  cases input with
  | event e => exact h.handle now e
  | timers => exact h.pollTimers now
  | query => exact (h.needsImmediate now).1
  | serve stream demand allowance =>
      exact h.served (.serve stream demand allowance) (.serve stream demand allowance)
  | serverCloses =>
      cases h
      exact .intro ..

theorem run (h : Alike c d) (xs : List Call) : Alike (c.run xs) (d.run xs) := by
  induction xs generalizing c d with
  | nil => exact h
  | cons x rest ih => exact ih (h.after x)

end Alike

end HttpLifecycle.Connection
