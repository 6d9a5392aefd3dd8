import HttpLifecycle.Connection.Event
import HttpLifecycle.Proofs.Monitor.Timers

namespace HttpLifecycle

/-- Effects that are about the connection as a whole. None of them concerns a
stream. -/
def Effect.upkeep : Effect → Bool
  | .sink (.goAway ..) | .sink .flush | .sink (.ping _) | .sink .close => true
  | .sink _ => false
  | .count .connectionsOpened | .count .connectionsClosed => true
  | .count .drainsStarted | .count .immediateDisconnects => true
  | .count .pingsSent | .count .pingTimeouts => true
  | .count _ => false
  | .note _ | .lifespan .. => true
  | _ => false

def Upkeep (es : List Effect) : Prop := ∀ e ∈ es, e.upkeep = true

theorem upkeep_nil : Upkeep [] := List.forall_mem_nil _

theorem upkeep_append {es fs : List Effect} (h : Upkeep es) (g : Upkeep fs) : Upkeep (es ++ fs) :=
  List.forall_mem_append.mpr ⟨h, g⟩

theorem upkeep_cons {e : Effect} {es : List Effect} (h : e.upkeep = true) (g : Upkeep es) :
    Upkeep (e :: es) :=
  List.forall_mem_cons.mpr ⟨h, g⟩

namespace Monitor

def Event.modest : Event → Bool
  | .count .pingsSent | .count .pingTimeouts => true
  | .count _ => false
  | _ => true

def Modest (es : List Event) : Prop := ∀ e ∈ es, e.modest = true

variable (m : Monitor) (now : Instant)

theorem modest_expire : Modest (m.expire now).events := by
  obtain ⟨notes, hevents⟩ := m.expire_events now
  have hnotes : Modest (notes.map .note) := by simp [Modest, Event.modest]
  have hping : Modest (m.expirePing now).events := by
    rw [expirePing]
    split
    · split <;> simp [Modest, Event.modest]
    · exact List.forall_mem_nil _
  rw [hevents]
  exact List.forall_mem_append.mpr ⟨hnotes, hping⟩

theorem modest_verdict : Modest (m.verdict now).events := by
  rw [verdict]
  split
  · exact List.forall_mem_nil _
  · exact modest_expire m now
  · exact List.forall_mem_nil _

theorem modest_poll : Modest (m.poll now).events := by
  have hfired := modest_expire m now
  rw [poll]
  split
  · exact List.forall_mem_nil _
  · simp only
    split
    · exact List.forall_mem_append.mpr ⟨hfired, by simp [Event.modest]⟩
    · exact hfired

theorem modest_arm : Modest (m.arm now).events := by
  rw [arm]
  split <;> simp [Modest, Event.modest]

theorem modest_openStream : Modest m.openStream.events := by
  rw [openStream]
  simp only
  split
  · exact List.forall_mem_nil _
  · split <;> simp [Modest, Event.modest]

theorem modest_ack (payload : Nat) : Modest (m.ack payload now).events := by
  rw [ack]
  split
  · split <;> simp [Modest, Event.modest, ack.unexpected]
  · simp [Modest, Event.modest, ack.unexpected]

theorem modest_destroy : Modest (m.destroy now).events := by
  rw [destroy]
  split
  · refine List.forall_mem_append.mpr ⟨?_, by simp [Event.modest]⟩
    intro e he
    obtain ⟨start, -, rfl⟩ := List.mem_map.mp he
    rfl
  · exact List.forall_mem_nil _

end Monitor

namespace Connection

theorem upkeep_ofMonitor (c : Connection) {es : List Monitor.Event} (h : Monitor.Modest es) :
    Upkeep (es.map c.ofMonitor) := by
  intro e he
  obtain ⟨g, hg, rfl⟩ := List.mem_map.mp he
  have hmodest := h g hg
  cases g with
  | note n => rfl
  | count k => cases k <;> first | rfl | contradiction
  | lifespan d => rfl

theorem upkeep_ofDrain (c : Connection) (es : List Drain.Event) :
    Upkeep (es.flatMap c.ofDrain) := by
  intro e he
  obtain ⟨g, -, hg⟩ := List.mem_flatMap.mp he
  have hall : Upkeep (c.ofDrain g) := by
    cases g with
    | note n => exact upkeep_cons rfl upkeep_nil
    | announce reason =>
        rw [ofDrain]
        split <;> simp [Upkeep, Effect.upkeep]
    | finalize reason =>
        rw [ofDrain]
        split <;> simp [Upkeep, Effect.upkeep]
  exact hall e hg

/-- One connection follows another while its shutdown gets on, its timers run
or the transport speaks of itself. The table and the inbound side stay as they
are, and no effect concerns a stream. -/
inductive StreamsKept (c : Connection) : Connection → Prop
  | intro (state : State) (registered active closeRequested serverClosing : Bool)
      (monitor : Monitor) (drain : Drain) (peerError : Option Nat) (es : List Effect)
      (h : Upkeep es) :
      StreamsKept c { c with
        state := state
        registered := registered
        active := active
        closeRequested := closeRequested
        serverClosing := serverClosing
        monitor := monitor
        drain := drain
        peerError := peerError
        journal := c.journal ++ es }

namespace StreamsKept

theorem emit (c : Connection) {es : List Effect} (h : Upkeep es) : StreamsKept c (c.emit es) :=
  .intro _ _ _ _ _ _ _ _ es h

theorem silent (c : Connection) (state : State)
    (registered active closeRequested serverClosing : Bool) (monitor : Monitor) (drain : Drain)
    (peerError : Option Nat) :
    StreamsKept c { c with
      state := state
      registered := registered
      active := active
      closeRequested := closeRequested
      serverClosing := serverClosing
      monitor := monitor
      drain := drain
      peerError := peerError } := by
  have h := StreamsKept.intro (c := c) state registered active closeRequested serverClosing
    monitor drain peerError [] upkeep_nil
  rwa [List.append_nil] at h

theorem refl (c : Connection) : StreamsKept c c := silent ..

theorem trans {c d e : Connection} (h : StreamsKept c d) (g : StreamsKept d e) :
    StreamsKept c e := by
  obtain ⟨_, _, _, _, _, _, _, _, es, hes⟩ := h
  obtain ⟨state, registered, active, closeRequested, serverClosing, monitor, drain, peerError, fs,
    hfs⟩ := g
  have := StreamsKept.intro (c := c) state registered active closeRequested serverClosing
    monitor drain peerError (es ++ fs) (upkeep_append hes hfs)
  rwa [← List.append_assoc] at this

theorem streams {c d : Connection} (h : StreamsKept c d) : d.streams = c.streams := by
  cases h
  rfl

theorem intake {c d : Connection} (h : StreamsKept c d) : d.intake = c.intake := by
  cases h
  rfl

theorem tornDown {c d : Connection} (h : StreamsKept c d) : d.tornDown = c.tornDown := by
  cases h
  rfl

theorem ite {a b c : Connection} {p : Prop} [Decidable p] (h : StreamsKept a b)
    (g : StreamsKept a c) :
    StreamsKept a (if p then b else c) := by
  split
  · exact h
  · exact g

variable (c : Connection) (now : Instant)

theorem log (level : Level) (message : String) (fields : List (String × Note.Value)) :
    StreamsKept c (c.log level message fields) :=
  emit c (upkeep_cons rfl upkeep_nil)

theorem count {k : Counter} (h : (Effect.count k).upkeep = true) : StreamsKept c (c.count k) :=
  emit c (upkeep_cons h upkeep_nil)

theorem observe {α : Type} {s : Step Monitor Monitor.Event α} (h : Monitor.Modest s.events) :
    StreamsKept c (c.observe s) :=
  .intro _ _ _ _ _ s.state _ _ _ (c.upkeep_ofMonitor h)

theorem steer {α : Type} (s : Step Drain Drain.Event α) : StreamsKept c (c.steer s) :=
  .intro _ _ _ _ _ _ s.state _ _ (c.upkeep_ofDrain s.events)

theorem activity (frame : Frame) : StreamsKept c (c.activity now frame) := silent ..

theorem afterDrain : StreamsKept c (c.afterDrain now) := by
  rw [Connection.afterDrain]
  split
  · exact trans (silent ..) (observe _ (Monitor.modest_destroy _ _))
  · exact refl c

theorem needsImmediate : StreamsKept c (c.needsImmediate now).1 := by
  rw [Connection.needsImmediate]
  split
  · exact refl c
  · exact observe c (Monitor.modest_verdict _ _)

theorem onStarted (answer : Except Error Unit) : StreamsKept c (c.onStarted answer) := by
  cases answer with
  | ok u => exact (silent ..).trans (count _ rfl)
  | error e => exact log _ _ _ _

theorem startDrain (reason : Reason) (wait : Duration) :
    StreamsKept c (c.startDrain reason wait now) := by
  have hsteer := steer c (c.drain.startOn c.clock reason wait now)
  rw [Connection.startDrain]
  split
  · exact (hsteer.trans (onStarted _ _)).trans (afterDrain _ now)
  · exact hsteer

theorem forceReason : StreamsKept c (c.forceReason now).1 := by
  rw [Connection.forceReason]
  split
  · exact refl c
  · exact observe c (Monitor.modest_verdict _ _)

theorem forceClose : StreamsKept c (c.forceClose now) := by
  rw [Connection.forceClose]
  exact (((forceReason c now).trans (steer _ _)).trans (ite (count _ rfl) (refl _))).trans
    (afterDrain _ now)

theorem close : StreamsKept c (c.close now) := by
  have hasked := needsImmediate c now
  rw [Connection.close]
  split
  · exact refl c
  · split
    · rename_i d hd
      rw [hd] at hasked
      exact hasked.trans (forceClose d now)
    · rename_i d hd
      rw [hd] at hasked
      exact (hasked.trans (observe d (Monitor.modest_verdict _ _))).trans (startDrain _ now _ _)

theorem shutdownRequested (wait : Option Duration) :
    StreamsKept c (c.shutdownRequested wait now) := by
  rw [Connection.shutdownRequested]
  exact ite (refl c) (startDrain c now _ _)

theorem checkDisconnection : StreamsKept c (c.checkDisconnection now) := by
  have hasked := needsImmediate c now
  rw [Connection.checkDisconnection]
  split
  · exact refl c
  · split
    · rename_i d hd
      rw [hd] at hasked
      exact hasked.trans (forceClose d now)
    · rename_i d hd
      rw [hd] at hasked
      have hverdict := hasked.trans
        (observe d (s := d.monitor.needsDisconnection now) (Monitor.modest_verdict _ _))
      exact ite hasked (ite ((hverdict.trans (silent ..)).trans (close _ now)) hverdict)

theorem pollTimers : StreamsKept c (c.pollTimers now) := by
  have hpoll := observe c (Monitor.modest_poll c.monitor now)
  have hping (payload : Nat) (d : Connection) : StreamsKept d (d.write [.ping payload, .flush]) :=
    emit d (upkeep_cons rfl (upkeep_cons rfl upkeep_nil))
  rw [Connection.pollTimers]
  split
  · exact refl c
  · simp only
    split
    · exact ((hpoll.trans (hping _ _)).trans
        ((steer _ _).trans (ite (afterDrain _ now) (refl _)))).trans (checkDisconnection _ now)
    · exact (hpoll.trans ((steer _ _).trans (ite (afterDrain _ now) (refl _)))).trans
        (checkDisconnection _ now)

theorem establish : StreamsKept c (c.establish now) := by
  have harm := observe c (Monitor.modest_arm c.monitor now)
  rw [Connection.establish]
  exact ite (harm.trans (ite (log _ _ _ _) (refl _))) (refl c)

theorem onGoAway (code : Nat) (last : StreamId) : StreamsKept c (c.onGoAway code last now) := by
  have hlog := (activity c now .control).trans (log _ .info "peer sent GOAWAY"
    [("connection_id", .num c.id), ("error_code", .num code), ("last_stream_id", .num last)])
  rw [Connection.onGoAway]
  exact ite ((hlog.trans (silent ..)).trans (forceClose _ now))
    (ite hlog (hlog.trans (startDrain _ now _ _)))

theorem onPingAck (payload : Nat) : StreamsKept c (c.onPingAck payload now) :=
  (activity c now .ping).trans (observe _ (Monitor.modest_ack _ _ _))

end StreamsKept

end Connection

end HttpLifecycle
