import HttpLifecycle.Proofs.Connection.Inputs

namespace HttpLifecycle

def Command.quiet : Command → Bool
  | .goAway .. | .close => false
  | _ => true

def Quiet (ks : List Command) : Prop := ∀ k ∈ ks, k.quiet = true

theorem quiet_append {ks ls : List Command} (h : Quiet ks) (g : Quiet ls) : Quiet (ks ++ ls) := by
  intro k hk
  rcases List.mem_append.mp hk with hk | hk
  · exact h k hk
  · exact g k hk

theorem close_not_mem {ks : List Command} (h : Quiet ks) : .close ∉ ks := by
  intro hk
  have := h _ hk
  contradiction

theorem close_not_mem_announcement (p : Protocol) (r : Reason) :
    .close ∉ Connection.announcement p r := by
  cases p <;> simp [Connection.announcement, Protocol.isHttp2]

theorem Serving.commands {es : List Effect} (h : Serving es) :
    Quiet (commandsOf es) ∧ ∀ n, .ping n ∉ commandsOf es := by
  have hserving : ∀ k ∈ commandsOf es, (Effect.sink k).serving = true := by
    intro k hk
    obtain ⟨e, he, hek⟩ := List.mem_filterMap.mp hk
    cases e with
    | sink l =>
        obtain rfl := Option.some.inj hek
        exact h _ he
    | _ => contradiction
  constructor
  · intro k hk
    have := hserving k hk
    cases k <;> first | rfl | contradiction
  · intro n hn
    have := hserving _ hn
    contradiction

namespace Connection

/-- The shutdown was announced, and neither before nor since was there
anything else about it. -/
def Announced (p : Protocol) (ks : List Command) : Prop :=
  ∃ before r after, Quiet before ∧ Quiet after ∧ ks = before ++ announcement p r ++ after

/-- The transport was ended, announced or not, and was left in peace since. -/
def Ended (p : Protocol) (last : StreamId) (ks : List Command) : Prop :=
  ∃ before r after, (Quiet before ∨ Announced p before) ∧ Quiet after ∧ (∀ n, .ping n ∉ after) ∧
    ks = before ++ farewell p last r ++ after

def Wire (p : Protocol) (last : StreamId) : Drain.Phase → List Command → Prop
  | .idle, ks => Quiet ks
  | .start, ks | .wait, ks => Announced p ks
  | .closed, ks => Ended p last ks

/-- What a connection wrote goes with the phase it is in. -/
def Wired (c : Connection) : Prop := Wire c.protocol c.lastStream c.drain.phase c.commands

variable {b : Bool} {c d : Connection}

theorem Announced.append {p : Protocol} {ks ls : List Command} (h : Announced p ks)
    (g : Quiet ls) : Announced p (ks ++ ls) := by
  obtain ⟨before, r, after, hb, ha, rfl⟩ := h
  exact ⟨before, r, after ++ ls, hb, quiet_append ha g, List.append_assoc ..⟩

theorem Ended.append {p : Protocol} {last : StreamId} {ks ls : List Command}
    (h : Ended p last ks) (g : Quiet ls) (hn : ∀ n, .ping n ∉ ls) : Ended p last (ks ++ ls) := by
  obtain ⟨before, r, after, hb, ha, hping, rfl⟩ := h
  refine ⟨before, r, after ++ ls, hb, quiet_append ha g, fun n hmem => ?_, List.append_assoc ..⟩
  rcases List.mem_append.mp hmem with hmem | hmem
  · exact hping n hmem
  · exact hn n hmem

theorem Announced.no_close {p : Protocol} {ks : List Command} (h : Announced p ks) :
    .close ∉ ks := by
  obtain ⟨before, r, after, hb, ha, rfl⟩ := h
  simp [close_not_mem hb, close_not_mem ha, close_not_mem_announcement]

theorem Wire.opening {p : Protocol} {last : StreamId} {phase : Drain.Phase} {ks : List Command}
    (h : Wire p last phase ks) (hphase : phase ≠ .closed) : Quiet ks ∨ Announced p ks := by
  cases phase with
  | idle => exact .inl h
  | start => exact .inr h
  | wait => exact .inr h
  | closed => contradiction

theorem Wire.append {p : Protocol} {last : StreamId} {phase : Drain.Phase} {ks ls : List Command}
    (h : Wire p last phase ks) (g : Quiet ls) (hn : phase = .closed → ∀ n, .ping n ∉ ls) :
    Wire p last phase (ks ++ ls) := by
  cases phase with
  | idle => exact quiet_append h g
  | start => exact Announced.append h g
  | wait => exact Announced.append h g
  | closed => exact Ended.append h g (hn rfl)

theorem Wire.finish {p : Protocol} {last : StreamId} {phase : Drain.Phase} {ks : List Command}
    (h : Wire p last phase ks) (hphase : phase ≠ .closed) (r : Reason) :
    Wire p last .closed (ks ++ farewell p last r) :=
  ⟨ks, r, [], h.opening hphase, by simp [Quiet], by simp, by simp⟩

theorem Wire.close_mem {p : Protocol} {last : StreamId} {phase : Drain.Phase} {ks : List Command}
    (h : Wire p last phase ks) (hk : .close ∈ ks) : phase = .closed := by
  by_cases hphase : phase = .closed
  · exact hphase
  · rcases h.opening hphase with hq | ha
    · exact absurd hk (close_not_mem hq)
    · exact absurd hk ha.no_close

theorem commands_append (c : Connection) (es : List Effect) :
    commandsOf (c.journal ++ es) = c.commands ++ commandsOf es := commandsOf_append c.journal es

theorem Move.wired (hc : Coherent c) (h : Wired c) (m : Move b c d) : Wired d := by
  cases m with
  | serve ha =>
      obtain ⟨streams, intake, dispatched, es, hes⟩ := ha
      have hk := hes.commands
      show Wire c.protocol c.lastStream c.drain.phase (commandsOf (c.journal ++ es))
      rw [commands_append]
      exact h.append hk.1 fun _ => hk.2
  | tally es hes =>
      show Wire c.protocol c.lastStream c.drain.phase (commandsOf (c.journal ++ es))
      rw [commands_append, hes, List.append_nil]
      exact h
  | probe payload hstage =>
      show Wire c.protocol c.lastStream c.drain.phase (commandsOf (c.journal ++ _))
      rw [commands_append, commandsOf_sinks]
      refine h.append ?_ fun hphase => ?_
      · simp [Quiet, Command.quiet]
      · have := hc.stage.mpr (.inr hphase)
        rw [hstage] at this
        contradiction
  | announce reason wait now es htorn hphase hes =>
      show Announced c.protocol (commandsOf (c.journal ++ es))
      rw [commands_append, hes]
      have hquiet : Quiet c.commands := by
        rw [Wired, hphase] at h
        exact h
      exact ⟨c.commands, reason, [], hquiet, by simp [Quiet], by simp⟩
  | finish reason now es ho hreason hes =>
      show Wire c.protocol c.lastStream .closed (commandsOf (c.journal ++ es))
      rw [commands_append, hes]
      exact h.finish ho.1 reason
  | finishLate reason es htorn hphase hreason hes =>
      show Wire c.protocol c.lastStream .closed (commandsOf (c.journal ++ es))
      rw [commands_append, hes]
      exact h.finish hphase reason
  | attach | watch | latch | supersede | decide | peerFails | tearDown => exact h

theorem Wired.admitStream (hc : Coherent c) (hrank : c.state.rank < State.closing.rank)
    (h : Wired c) (stream : StreamId) : Wired (c.admitStream stream) := by
  have hphase : c.drain.phase ≠ .closed := fun hp => hc.rank hp hrank
  rw [Wired] at h ⊢
  show Wire c.protocol (max c.lastStream stream) c.drain.phase c.commands
  cases hp : c.drain.phase with
  | closed => contradiction
  | _ => rw [hp] at h; exact h

theorem invariant_protocol (p : Protocol) : Invariant fun c => c.protocol = p where
  move _ h m := m.frame.2.2.trans h
  admits _ _ _ h := h
  server h := h

theorem invariant_id (i : ConnectionId) : Invariant fun c => c.id = i where
  move _ h m := by
    cases m with
    | serve ha => cases ha; exact h
    | _ => exact h
  admits _ _ _ h := h
  server h := h

theorem invariant_wired : Invariant Wired where
  move hc h m := m.wired hc h
  admits stream hc hrank h := h.admitStream hc hrank stream
  server h := h

def closes (c : Connection) : Nat := c.commands.count .close

theorem closes_append (c : Connection) (es : List Effect) :
    (commandsOf (c.journal ++ es)).count .close =
      c.closes + (commandsOf es).count .close := by
  rw [commands_append, List.count_append]
  rfl

theorem count_close {ks : List Command} (h : .close ∉ ks) : ks.count .close = 0 :=
  List.count_eq_zero.mpr h

theorem count_farewell (p : Protocol) (last : StreamId) (r : Reason) :
    (farewell p last r).count .close = 1 := by
  cases p <;> rfl

/-- The transport is told to close once, when the drain ends. What it was told
before the journal began is counted in. -/
theorem invariant_closes (n : Nat) :
    Invariant fun c => c.closes + n = if c.drain.phase = .closed then 1 else 0 where
  move {b c d} _ h m := by
    have hquiet {es : List Effect} (hes : .close ∉ commandsOf es) :
        (commandsOf (c.journal ++ es)).count .close = c.closes := by
      rw [closes_append, count_close hes, Nat.add_zero]
    have hended {es : List Effect} {reason : Reason} (hphase : c.drain.phase ≠ .closed)
        (hes : commandsOf es = farewell c.protocol c.lastStream reason) :
        (commandsOf (c.journal ++ es)).count .close + n = 1 := by
      rw [if_neg hphase] at h
      rw [closes_append, hes, count_farewell, Nat.add_right_comm, h]
    cases m with
    | serve ha =>
        obtain ⟨streams, intake, dispatched, es, hes⟩ := ha
        exact (congrArg (· + n) (hquiet (close_not_mem hes.commands.1))).trans h
    | tally es hes => exact (congrArg (· + n) (hquiet (by rw [hes]; simp))).trans h
    | probe payload hstage => exact (congrArg (· + n) (hquiet (by simp))).trans h
    | announce reason wait now es htorn hphase hes =>
        rw [hphase] at h
        refine (congrArg (· + n) (hquiet ?_)).trans h
        rw [hes]
        exact close_not_mem_announcement _ _
    | finish reason now es ho hreason hes => exact hended ho.1 hes
    | finishLate reason es htorn hphase hreason hes => exact hended hphase hes
    | attach | watch | latch | supersede | decide | peerFails | tearDown => exact h
  admits _ _ _ h := h
  server h := h

theorem Leads.lastStream {s : Option StreamId} (l : Leads b c s d) :
    d.lastStream = s.toList.foldl max c.lastStream := by
  cases l with
  | plain m => exact (Moves.frame m).1
  | admits stream m _ n =>
      rw [(Moves.frame n).1]
      show max _ stream = max _ stream
      rw [(Moves.frame m).1]

theorem after_lastStream (h : Coherent c) (x : Call) :
    (c.after x).lastStream = (c.admission? x).toList.foldl max c.lastStream := by
  rcases after_cases h x with ⟨-, hnone, he⟩ | hl
  · rw [he, hnone]
    rfl
  · exact hl.lastStream

theorem run_lastStream (h : Coherent c) (xs : List Call) :
    (c.run xs).lastStream = (c.admitted xs).foldl max c.lastStream := by
  induction xs generalizing c with
  | nil => rfl
  | cons x rest ih =>
      show ((c.after x).run rest).lastStream =
        ((c.admission? x).toList ++ (c.after x).admitted rest).foldl max c.lastStream
      rw [ih (invariant_coherent.after h h x), after_lastStream h x, List.foldl_append]

theorem after_closed (h : Coherent c) (hp : c.drain.phase = .closed) (x : Call) :
    c.admission? x = none ∧ (c.after x).drain.phase = .closed := by
  rcases after_cases h x with ⟨-, hnone, he⟩ | hl
  · rw [he]
    exact ⟨hnone, hp⟩
  · generalize c.admission? x = s at hl
    cases hl with
    | plain m => exact ⟨rfl, m.closed hp⟩
    | admits stream m hrank n =>
        exact absurd hrank ((Moves.coherent h m).rank (Moves.closed hp m))

theorem admitted_closed (h : Coherent c) (hp : c.drain.phase = .closed) (xs : List Call) :
    c.admitted xs = [] := by
  induction xs generalizing c with
  | nil => rfl
  | cons x rest ih =>
      obtain ⟨hnone, hafter⟩ := after_closed h hp x
      show (c.admission? x).toList ++ (c.after x).admitted rest = []
      rw [hnone, ih (invariant_coherent.after h h x) hafter]
      rfl

/-- The shutdown on the wire. At any point of a run the transport was told of
it not at all, or by an announcement, or by the final signal and the end, in
this order. The final signal names the greatest stream of the whole run, for
once it is written no more are admitted. -/
theorem shutdown_transcript (id : ConnectionId) (protocol : Protocol) (config : Config)
    (routes : Resolver) (handler : Handler) (start : Instant) (xs ys : List Call) :
    let c := create id protocol config routes handler start
    let written := (c.run xs).commands
    let last := (c.admitted (xs ++ ys)).foldl max 0
    (Quiet written ∨ Announced protocol written ∨ Ended protocol last written) ∧
      (.close ∉ written ∨ (c.run xs).admitted ys = []) := by
  intro c written last
  have hc : Coherent c := coherent_create id protocol config routes handler start
  have hfresh : Wired c := by
    intro k hk
    contradiction
  have hcoh := hc.run xs
  have hwired := invariant_wired.run hc hfresh xs
  have hprotocol := (invariant_protocol protocol).run hc rfl xs
  by_cases hphase : (c.run xs).drain.phase = .closed
  · have hnone := admitted_closed hcoh hphase ys
    have hlast : (c.run xs).lastStream = last := by
      rw [run_lastStream hc xs]
      show _ = (c.admitted (xs ++ ys)).foldl max 0
      rw [admitted_append, hnone, List.append_nil]
      rfl
    rw [Wired, hphase, hlast, hprotocol] at hwired
    exact ⟨.inr (.inr hwired), .inr hnone⟩
  · refine ⟨?_, .inl fun hk => hphase (hwired.close_mem hk)⟩
    rw [Wired, hprotocol] at hwired
    exact (hwired.opening hphase).imp_right .inl

end Connection

end HttpLifecycle
