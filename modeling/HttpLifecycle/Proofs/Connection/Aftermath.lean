import HttpLifecycle.Proofs.Connection.Outcome
import HttpLifecycle.Proofs.Connection.Transcript

namespace HttpLifecycle

/-- What a transport hears of its own end or of its keeping alive, and what is
counted for a drain or a forced end. -/
def Effect.signal : Effect → Bool
  | .sink (.goAway ..) | .sink (.ping _) | .sink .close => true
  | .count .drainsStarted | .count .immediateDisconnects => true
  | _ => false

def signalsOf (es : List Effect) : List Effect := es.filter Effect.signal

@[simp] theorem signalsOf_append (es fs : List Effect) :
    signalsOf (es ++ fs) = signalsOf es ++ signalsOf fs := List.filter_append es fs

@[simp] theorem signalsOf_nil : signalsOf [] = [] := rfl

@[simp] theorem signalsOf_cons_note (n : Note) (es : List Effect) :
    signalsOf (.note n :: es) = signalsOf es := rfl

theorem signalsOf_eq_nil {es : List Effect} (h : ∀ e ∈ es, e.signal = false) :
    signalsOf es = [] :=
  List.filter_eq_nil_iff.mpr fun e he => by simp [h e he]

theorem Serving.signals {es : List Effect} (h : Serving es) : signalsOf es = [] := by
  refine signalsOf_eq_nil fun e he => ?_
  have hserving := h e he
  cases e with
  | sink k => cases k <;> first | rfl | contradiction
  | count k => cases k <;> first | rfl | contradiction
  | _ => rfl

namespace Connection

def signals (c : Connection) : List Effect := signalsOf c.journal

theorem signalsOf_ofMonitor (c : Connection) {es : List Monitor.Event} (h : Monitor.Modest es) :
    signalsOf (es.map c.ofMonitor) = [] := by
  refine signalsOf_eq_nil fun e he => ?_
  obtain ⟨g, hg, rfl⟩ := List.mem_map.mp he
  have hmodest := h g hg
  cases g with
  | count k => cases k <;> first | rfl | contradiction
  | note n => rfl
  | lifespan d => rfl

theorem ShutdownKept.coherent {c d : Connection} (h : ShutdownKept c d) (hc : Coherent c) :
    Coherent d :=
  Move.coherent (b := false) hc (.serve h)

/-- One connection follows another without a word to the transport, and the
drain stands where it stood. -/
structure SignalsKept (c d : Connection) : Prop where
  drain : d.drain = c.drain
  tornDown : d.tornDown = c.tornDown
  protocol : d.protocol = c.protocol
  lastStream : d.lastStream = c.lastStream
  signals : d.signals = c.signals

namespace SignalsKept

variable {c d : Connection} (now : Instant)

theorem refl (c : Connection) : SignalsKept c c := ⟨rfl, rfl, rfl, rfl, rfl⟩

theorem trans {e : Connection} (h : SignalsKept c d) (g : SignalsKept d e) : SignalsKept c e :=
  ⟨g.drain.trans h.drain, g.tornDown.trans h.tornDown, g.protocol.trans h.protocol,
    g.lastStream.trans h.lastStream, g.signals.trans h.signals⟩

theorem signals_append (c : Connection) {es : List Effect} (h : signalsOf es = []) :
    signalsOf (c.journal ++ es) = c.signals := by
  rw [signalsOf_append, h, List.append_nil]
  rfl

theorem emit (c : Connection) {es : List Effect} (h : signalsOf es = []) :
    SignalsKept c (c.emit es) :=
  ⟨rfl, rfl, rfl, rfl, signals_append c h⟩

theorem log (c : Connection) (level : Level) (message : String)
    (fields : List (String × Note.Value)) : SignalsKept c (c.log level message fields) :=
  emit c rfl

theorem shutdownKept (h : ShutdownKept c d) : SignalsKept c d := by
  obtain ⟨streams, intake, dispatched, es, hes⟩ := h
  exact ⟨rfl, rfl, rfl, rfl, signals_append c hes.signals⟩

theorem streamSteps (m : StreamSteps (fun _ _ => True) false c d) : SignalsKept c d :=
  shutdownKept m.shutdownKept

theorem observe {α : Type} (c : Connection) {s : Step Monitor Monitor.Event α}
    (h : Monitor.Modest s.events) : SignalsKept c (c.observe s) :=
  ⟨rfl, rfl, rfl, rfl, signals_append c (signalsOf_ofMonitor c h)⟩

theorem activity (c : Connection) (frame : Frame) : SignalsKept c (c.activity now frame) :=
  ⟨rfl, rfl, rfl, rfl, rfl⟩

theorem stopped (h : Coherent c) (ht : c.tornDown = true) : SignalsKept c (c.stopped now) := by
  rw [Connection.stopped, cancel_gone h ht]
  exact (observe c (Monitor.modest_destroy _ _)).trans
    ⟨rfl, rfl, rfl, rfl, congrArg signalsOf (List.append_nil _)⟩

theorem establish (ht : c.tornDown = true) : SignalsKept c (c.establish now) := by
  rw [Connection.establish, if_neg (by simp [ht])]
  exact refl c

theorem registered (c : Connection) : SignalsKept c { c with registered := true } :=
  ⟨rfl, rfl, rfl, rfl, rfl⟩

theorem onLifecycle (h : Coherent c) (ht : c.tornDown = true) (e : Lifecycle) :
    SignalsKept c (c.onLifecycle e now) := by
  have hlog := log c .debug "lifecycle event"
    [("connection_id", .num c.id), ("event", .text e.text)]
  have hcoh := (ShutdownKept.log c .debug "lifecycle event"
    [("connection_id", .num c.id), ("event", .text e.text)]).coherent h
  unfold Connection.onLifecycle
  simp only
  generalize c.log .debug "lifecycle event" _ = d at hlog hcoh
  have htorn : d.tornDown = true := hlog.tornDown.trans ht
  cases e with
  | added => exact hlog
  | registered => exact (hlog.trans (registered d)).trans (establish now htorn)
  | active =>
      simp only [htorn, Bool.or_true, if_true]
      exact hlog.trans (establish now htorn)
  | inactive =>
      simp only [teardown_later now htorn]
      exact hlog.trans (stopped now hcoh htorn)
  | removed =>
      simp only [teardown_later now htorn]
      exact hlog.trans (stopped now hcoh htorn)

end SignalsKept

def Input.breaks : Input → Bool
  | .event (.goAway code _) => code != ErrorCode.noError
  | _ => false

def lateDrain (d : Drain) : Drain :=
  { d with phase := .closed, reason := some (d.reason.getD .peerGoAway), deadline := none }

/-- What an error of the peer still has said and counted when nobody is left to
hear it. -/
def lateSignals (c : Connection) : List Effect :=
  (farewell c.protocol c.lastStream (c.drain.reason.getD .peerGoAway)).map .sink ++
    [.count .immediateDisconnects]

variable {c d : Connection} (now : Instant)

theorem SignalsKept.lateSignals (h : SignalsKept c d) : d.lateSignals = c.lateSignals := by
  rw [Connection.lateSignals, h.protocol, h.lastStream, h.drain]
  rfl

@[simp] theorem signalsOf_finalize (c : Connection) (r : Reason) :
    signalsOf (c.ofDrain (.finalize r)) = (farewell c.protocol c.lastStream r).map .sink := by
  cases hp : c.protocol.isHttp2 <;> simp [ofDrain, farewell, hp] <;> rfl

theorem conclude_signals (reason : Reason) (ht : c.state = .closed)
    (hphase : c.drain.phase ≠ .closed) :
    (c.conclude reason now).signals = c.signals ++
      (farewell c.protocol c.lastStream (c.drain.reason.getD reason)).map .sink ++
        [.count .immediateDisconnects] := by
  have hjournal : (c.conclude reason now).journal = c.journal ++
      ((c.drain.force reason now).events.flatMap c.ofDrain ++
        [.count .immediateDisconnects]) := by
    simp [conclude, Drain.force, Drain.finish, hphase, steer, emit, Connection.count, afterDrain,
      Drain.isClosed, ht, State.rank]
  have hnote (n : Note) : c.ofDrain (.note n) = [.note n] := rfl
  rw [Connection.signals, hjournal]
  simp only [Drain.force, hphase, if_false, Drain.finish, List.flatMap_cons, List.flatMap_nil,
    hnote, signalsOf_append, signalsOf_cons_note, signalsOf_nil, signalsOf_finalize,
    List.nil_append, List.append_nil, List.append_assoc]
  rfl

structure Late (c d : Connection) : Prop where
  drain : d.drain = lateDrain c.drain
  signals : d.signals = c.signals ++ c.lateSignals

theorem Late.phase (h : Late c d) : d.drain.phase = .closed := by
  rw [h.drain]
  rfl

theorem Late.signalsKept {e : Connection} (h : Late c d) (g : SignalsKept d e) : Late c e :=
  ⟨g.drain.trans h.drain, g.signals.trans h.signals⟩

theorem SignalsKept.late {e : Connection} (h : SignalsKept c d) (g : Late d e) : Late c e := by
  refine ⟨g.drain.trans (congrArg lateDrain h.drain), g.signals.trans ?_⟩
  rw [h.signals, h.lateSignals]

def Broken (c : Connection) (ys : List Call) : Prop :=
  c.drain.phase ≠ .closed ∧ ∃ y ∈ ys, y.input.breaks = true

theorem SignalsKept.noted (c : Connection) (code : Nat) (last : StreamId) :
    SignalsKept c (c.noted code last now) :=
  (activity now c .control).trans (log _ _ _ _)

theorem invariant_gone : Invariant fun c => c.tornDown = true where
  move _ h m := Decidable.byContradiction fun ht => by
    have := m.attached (Bool.eq_false_iff.mpr ht)
    rw [h] at this
    contradiction
  admits _ _ _ h := h
  server h := h

section Gone

variable (h : Coherent c) (ht : c.tornDown = true)
include h ht

theorem SignalsKept.onGoAway {code : Nat} (last : StreamId)
    (hgone : code = ErrorCode.noError ∨ c.drain.phase = .closed) :
    SignalsKept c (c.onGoAway code last now) := by
  have hnoted := noted now c code last
  by_cases hcode : code = ErrorCode.noError
  · subst hcode
    rw [onGoAway_graceful, if_pos (by simp [ht])]
    exact hnoted
  · have hphase := hgone.resolve_left hcode
    rw [onGoAway_error now hcode, conclude_closed]
    · exact hnoted.trans ⟨rfl, rfl, rfl, rfl, rfl⟩
    · exact (moves_noted (b := false) c code last now).coherent h
    · exact hphase

theorem Late.onGoAway {code : Nat} (last : StreamId) (hcode : code ≠ ErrorCode.noError)
    (hphase : c.drain.phase ≠ .closed) : Late c (c.onGoAway code last now) := by
  have hnoted := SignalsKept.noted now c code last
  have hstate : (c.noted code last now).state = .closed := h.state_closed ht
  rw [onGoAway_error now hcode]
  constructor
  · obtain ⟨es, -, he⟩ := conclude_late .peerGoAway now hstate hphase
    rw [he]
    rfl
  · have hsignals := conclude_signals now .peerGoAway hstate hphase
    rw [List.append_assoc, hnoted.signals] at hsignals
    exact hsignals

theorem SignalsKept.handle (e : Event) (hquiet : (Input.event e).breaks = false ∨
    c.drain.phase = .closed) : SignalsKept c (c.handle e now).1 := by
  have hstate := h.state_closed ht
  cases e with
  | lifecycle e => exact onLifecycle now h ht e
  | headers stream headers endOfStream =>
      have hrank : State.closing.rank ≤ c.state.rank := by simp [hstate, State.rank]
      rw [Connection.handle, onHeaders_late now stream headers endOfStream hrank]
      exact (activity now c .headers).trans (shutdownKept (.refuse _ _ _))
  | data stream bytes endOfStream =>
      exact (activity now c .data).trans
        (streamSteps (.onData stream bytes endOfStream now fun _ _ _ => trivial))
  | ping payload => exact activity now c .ping
  | pingAck payload =>
      exact (activity now c .ping).trans (observe _ (Monitor.modest_ack _ _ _))
  | reset stream code =>
      exact (activity now c .control).trans (streamSteps (.onReset stream code now))
  | goAway code last =>
      exact onGoAway now h ht last (hquiet.imp_left fun hb => by simpa [Input.breaks] using hb)
  | setResponse stream tag => exact streamSteps (.setResponse stream tag)
  | complete stream => exact streamSteps (.completeResponse stream now)
  | abort stream cause => exact streamSteps (.abortStream stream cause now)
  | close =>
      show SignalsKept c (c.close now)
      rw [close_over fun ho => by simp [ho.2] at ht]
      exact refl c
  | shutdown wait =>
      show SignalsKept c (c.shutdownRequested wait now)
      rw [shutdownRequested, if_pos ht]
      exact refl c

theorem after_signalsKept (x : Call) (hquiet : x.input.breaks = false ∨ c.drain.phase = .closed) :
    SignalsKept c (c.after x) := by
  obtain ⟨input, now⟩ := x
  cases input with
  | event e => exact .handle now h ht e hquiet
  | timers =>
      show SignalsKept c (c.pollTimers now)
      rw [pollTimers_eq, if_pos ht]
      exact .refl c
  | query =>
      show SignalsKept c (c.needsImmediate now).1
      rcases needsImmediate_state c now with he | he
      · rw [he]
        exact .refl c
      · rw [he]
        exact .observe c (Monitor.modest_verdict _ _)
  | serve stream demand allowance => exact .streamSteps (.serve stream demand allowance)
  | serverCloses => exact ⟨rfl, rfl, rfl, rfl, rfl⟩

theorem after_late (x : Call) (hbreaks : x.input.breaks = true) (hphase : c.drain.phase ≠ .closed) :
    Late c (c.after x) := by
  obtain ⟨input, now⟩ := x
  cases input with
  | event e =>
      cases e with
      | goAway code last =>
          exact .onGoAway now h ht last (by simpa [Input.breaks] using hbreaks) hphase
      | _ => contradiction
  | _ => contradiction

theorem run_signalsKept (ys : List Call) (hquiet : ¬ Broken c ys) : SignalsKept c (c.run ys) := by
  induction ys generalizing c with
  | nil => exact .refl c
  | cons y rest ih =>
      have hy : y.input.breaks = false ∨ c.drain.phase = .closed := by
        by_cases hphase : c.drain.phase = .closed
        · exact .inr hphase
        · refine .inl (Bool.eq_false_iff.mpr fun hb => hquiet ⟨hphase, y, ?_, hb⟩)
          exact List.mem_cons_self
      have hstep := after_signalsKept h ht y hy
      refine hstep.trans (ih (invariant_coherent.after h h y) (hstep.tornDown.trans ht) ?_)
      rintro ⟨hphase, z, hz, hb⟩
      rw [hstep.drain] at hphase
      exact hquiet ⟨hphase, z, List.mem_cons_of_mem y hz, hb⟩

theorem run_late (ys : List Call) (hbroken : Broken c ys) : Late c (c.run ys) := by
  induction ys generalizing c with
  | nil =>
      obtain ⟨-, y, hy, -⟩ := hbroken
      contradiction
  | cons y rest ih =>
      obtain ⟨hphase, z, hz, hb⟩ := hbroken
      have hcoh := invariant_coherent.after h h y
      have htorn := invariant_gone.after h ht y
      cases hy : y.input.breaks with
      | true =>
          have hlate := after_late h ht y hy hphase
          exact hlate.signalsKept (run_signalsKept hcoh htorn rest fun hopen => hopen.1 hlate.phase)
      | false =>
          have hstep := after_signalsKept h ht y (.inl hy)
          refine hstep.late (ih hcoh htorn ⟨hstep.drain ▸ hphase, z, ?_, hb⟩)
          rcases List.mem_cons.mp hz with rfl | hz
          · rw [hy] at hb
            contradiction
          · exact hz

end Gone

/-- Once the transport is gone it hears nothing, no drain starts and no forced
end is counted, with one exception: if the drain was not over, the first error
of the peer ends it as if somebody were listening. -/
theorem quiet_after_teardown (id : ConnectionId) (protocol : Protocol) (config : Config)
    (routes : Resolver) (handler : Handler) (start : Instant) (xs ys : List Call) (x : Call)
    (hx : x.input.ends = true) :
    let c := (create id protocol config routes handler start).run (xs ++ [x])
    let d := c.run ys
    (¬ Broken c ys → d.drain = c.drain ∧ d.signals = c.signals) ∧
      (Broken c ys → d.drain = lateDrain c.drain ∧ d.signals = c.signals ++ c.lateSignals) := by
  intro c d
  have h : Coherent c := coherent_run id protocol config routes handler start (xs ++ [x])
  have ht : c.tornDown = true := by
    have hdistinct := run_distinct
      (distinct_create id protocol config routes handler start) xs
    show ((create id protocol config routes handler start).run (xs ++ [x])).tornDown = true
    rw [run_concat]
    exact (after_outcome (R := fun _ _ => True) hdistinct x trivial).ended hx
  constructor
  · intro hquiet
    have hkeeps := run_signalsKept h ht ys hquiet
    exact ⟨hkeeps.drain, hkeeps.signals⟩
  · intro hbroken
    have hlate := run_late h ht ys hbroken
    exact ⟨hlate.drain, hlate.signals⟩

theorem quiet_after_teardown_drained :
    let c := (create 1 .h2 {} (fun _ => none) (fun _ _ => []) 0).run
      ([⟨.event (.lifecycle .active), 0⟩, ⟨.event (.shutdown none), 0⟩] ++
        [⟨.event (.lifecycle .inactive), 1⟩])
    let d := c.run [⟨.event (.goAway 0 0), 2⟩, ⟨.event .close, 2⟩, ⟨.timers, 60000000⟩]
    c.drain.phase = .wait ∧ d.drain = c.drain ∧ d.signals = c.signals := by
  intro c d
  have hphase : c.drain.phase = .wait := by decide +kernel
  obtain ⟨hquiet, -⟩ := quiet_after_teardown 1 .h2 {} (fun _ => none) (fun _ _ => []) 0
    [⟨.event (.lifecycle .active), 0⟩, ⟨.event (.shutdown none), 0⟩]
    [⟨.event (.goAway 0 0), 2⟩, ⟨.event .close, 2⟩, ⟨.timers, 60000000⟩]
    ⟨.event (.lifecycle .inactive), 1⟩ rfl
  refine ⟨hphase, hquiet ?_⟩
  rintro ⟨-, y, hy, hb⟩
  simp only [List.mem_cons, List.not_mem_nil, or_false] at hy
  rcases hy with rfl | rfl | rfl <;> contradiction

/-- A transport that went away is told to go away, and then to close. -/
theorem error_after_teardown :
    let c := (create 1 .h2 {} (fun _ => none) (fun _ _ => []) 0).run
      [⟨.event (.lifecycle .inactive), 0⟩]
    let d := c.after ⟨.event (.goAway 2 0), 1⟩
    c.signals = [] ∧
      d.signals = [.sink (.goAway 0 0 "peer-go-away"), .sink .close,
        .count .immediateDisconnects] := by
  decide +kernel

end Connection

end HttpLifecycle
