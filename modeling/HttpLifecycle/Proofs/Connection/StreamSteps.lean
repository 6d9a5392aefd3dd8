import HttpLifecycle.Proofs.Connection.StreamsKept
import HttpLifecycle.Proofs.Request.OwnStep

namespace HttpLifecycle

def Effect.tending : Effect → Bool
  | .sink (.reset ..) | .sink .suspendReads | .sink .resumeReads => true
  | .sink _ => false
  | .count .streamsRefused | .count .requestsAborted | .count .aggregationFailures => true
  | .count _ | .record _ | .lifespan .. => false
  | _ => true

def Tending (es : List Effect) : Prop := ∀ e ∈ es, e.tending = true

theorem tending_nil : Tending [] := List.forall_mem_nil _

theorem tending_cons {e : Effect} {es : List Effect} (h : e.tending = true) (g : Tending es) :
    Tending (e :: es) :=
  List.forall_mem_cons.mpr ⟨h, g⟩

theorem Inner.tending {es : List Effect} (h : Inner es) : Tending es := by
  intro e he
  have hinner := h e he
  cases e with
  | sink k => cases k <;> first | rfl | contradiction
  | dispatch r => rfl
  | action stream a r => rfl
  | abortResponse stream tag cause => rfl
  | note n => rfl
  | count k => contradiction
  | record a => contradiction
  | lifespan p d => contradiction

namespace Connection

/-- All that can happen to the streams of a connection short of a new one, one
thing at a time. What payload there is room for is left open, and the flag says
whether the connection itself may get on as well. -/
inductive StreamStep (R : Intake → Bytes → Prop) : Bool → Connection → Connection → Prop
  | upkeep {c d : Connection} (h : StreamsKept c d) : StreamStep R true c d
  | serve {b : Bool} {c : Connection} (i : Intake) (dispatched : Nat) (es : List Effect)
      (hi : c.intake.Moves R i) (hes : Tending es) :
      StreamStep R b c { c with
        intake := i
        dispatched := dispatched
        journal := c.journal ++ es }
  | amend {b : Bool} {c : Connection} (old r : Request) (h : c.find? old.stream = some old)
      (hstays : old.SameOpening r) : StreamStep R b c (c.update r)
  | leave {b : Bool} {c : Connection} (old r : Request) (now : Instant)
      (h : c.find? old.stream = some old) (hstays : old.SameOpening r) :
      StreamStep R b c ((c.remove r.stream).emit [.record (.ofRequest r now)])

def StreamSteps (R : Intake → Bytes → Prop) (b : Bool) : Connection → Connection → Prop :=
  Relation.ReflTransGen (StreamStep R b)

def Lifecycle.ends : Lifecycle → Bool
  | .inactive | .removed => true
  | _ => false

/-- No two requests are open under one id. -/
def Distinct (c : Connection) : Prop := (c.streams.map (·.stream)).Nodup

variable {R : Intake → Bytes → Prop} {b : Bool} {c d : Connection}

theorem find?_stream {stream : StreamId} {r : Request} (h : c.find? stream = some r) :
    r.stream = stream := by
  simpa using List.find?_some h

theorem update_ids (c : Connection) (r : Request) :
    (c.update r).streams.map (·.stream) = c.streams.map (·.stream) := by
  rw [update, List.map_map]
  refine List.map_congr_left fun s _ => ?_
  show (if s.stream == r.stream then r else s).stream = s.stream
  split
  · rename_i hs
    exact (beq_iff_eq.mp hs).symm
  · rfl

theorem find?_update {old r : Request} (h : c.find? r.stream = some old) :
    (c.update r).find? r.stream = some r := by
  have hsome : ((c.update r).find? r.stream).isSome := by
    rw [find?, List.find?_isSome]
    have hids : r.stream ∈ (c.update r).streams.map (·.stream) := by
      rw [update_ids]
      exact List.mem_map.mpr ⟨old, List.mem_of_find?_eq_some h, find?_stream h⟩
    obtain ⟨s, hs, hid⟩ := List.mem_map.mp hids
    exact ⟨s, hs, by simp [hid]⟩
  obtain ⟨s, hs⟩ := Option.isSome_iff_exists.mp hsome
  obtain ⟨t, -, ht⟩ := List.mem_map.mp (List.mem_of_find?_eq_some hs)
  have hid := find?_stream hs
  rw [hs]
  split at ht
  · exact congrArg some ht.symm
  · rename_i hne
    rw [ht, hid] at hne
    simp at hne

theorem StreamStep.distinct (h : Distinct c) (m : StreamStep R b c d) : Distinct d := by
  cases m with
  | upkeep ha =>
      rw [Distinct, ha.streams]
      exact h
  | amend old r hr hstays =>
      rw [Distinct, update_ids]
      exact h
  | leave old r now hr hstays => exact h.sublist (List.filter_sublist.map _)
  | serve => exact h

theorem StreamStep.intake (m : StreamStep R b c d) : c.intake.Moves R d.intake := by
  cases m with
  | upkeep ha =>
      rw [ha.intake]
      exact .refl _
  | serve i dispatched es hi hes => exact hi
  | amend | leave => exact .refl _

theorem StreamStep.attached (m : StreamStep R b c d) : d.tornDown = c.tornDown := by
  cases m with
  | upkeep ha => exact ha.tornDown
  | serve | amend | leave => rfl

theorem StreamStep.vacant (h : c.streams = []) (m : StreamStep R b c d) : d.streams = [] := by
  cases m with
  | upkeep ha => exact ha.streams.trans h
  | amend old r hr hstays =>
      rw [update, h]
      rfl
  | leave old r now hr hstays =>
      rw [remove, h]
      rfl
  | serve => exact h

theorem onLifecycle_ends {e : Lifecycle} (h : e.ends = true) (now : Instant) :
    c.onLifecycle e now = (c.log .debug "lifecycle event"
      [("connection_id", .num c.id), ("event", .text e.text)]).teardown now := by
  cases e with
  | inactive => rfl
  | removed => rfl
  | _ => contradiction

theorem StreamsKept.teardown (ht : c.tornDown = true) (now : Instant) :
    StreamsKept c (c.teardown now) := by
  have hstopped := (StreamsKept.observe c (Monitor.modest_destroy c.monitor now)).trans
    (.steer _ (c.observe (c.monitor.destroy now)).drain.cancel)
  have hagain : c.teardown now = _ := if_pos ht
  rw [hagain]
  exact hstopped

theorem StreamsKept.onLifecycle (e : Lifecycle) (now : Instant)
    (h : e.ends = true → c.tornDown = true) : StreamsKept c (c.onLifecycle e now) := by
  have hlog : StreamsKept c (c.log .debug "lifecycle event"
      [("connection_id", .num c.id), ("event", .text e.text)]) := .log c _ _ _
  cases e with
  | added => exact hlog
  | registered => exact (hlog.trans (.silent ..)).trans (.establish _ now)
  | active =>
      exact (hlog.trans (.ite (.refl _) ((StreamsKept.silent ..).trans (.count _ rfl)))).trans
        (.establish _ now)
  | inactive => exact hlog.trans (.teardown (c := c.log ..) (h rfl) now)
  | removed => exact hlog.trans (.teardown (c := c.log ..) (h rfl) now)

namespace StreamSteps

theorem refl (c : Connection) : StreamSteps R b c c := Relation.ReflTransGen.refl

theorem of (m : StreamStep R b c d) : StreamSteps R b c d := Relation.ReflTransGen.single m

theorem upkeep (h : StreamsKept c d) : StreamSteps R true c d := of (.upkeep h)

theorem trans {e : Connection} (m : StreamSteps R b c d) (n : StreamSteps R b d e) :
    StreamSteps R b c e :=
  Relation.ReflTransGen.trans m n

theorem ite {c d e : Connection} {p : Prop} [Decidable p] (h : StreamSteps R b c d)
    (g : StreamSteps R b c e) : StreamSteps R b c (if p then d else e) := by
  split
  · exact h
  · exact g

theorem distinct (h : Distinct c) (m : StreamSteps R b c d) : Distinct d := by
  induction m with
  | refl => exact h
  | tail _ m ih => exact m.distinct ih

theorem intake (m : StreamSteps R b c d) : c.intake.Moves R d.intake := by
  induction m with
  | refl => exact .refl _
  | tail _ m ih => exact ih.trans m.intake

theorem attached (m : StreamSteps R b c d) : d.tornDown = c.tornDown := by
  induction m with
  | refl => rfl
  | tail _ m ih => exact m.attached.trans ih

theorem vacant (h : c.streams = []) (m : StreamSteps R b c d) : d.streams = [] := by
  induction m with
  | refl => exact h
  | tail _ m ih => exact m.vacant ih

theorem tend {α : Type} {r : Request} {s : Step (Request × Intake) Effect α}
    (h : r.OwnStep R c.intake s) :
    StreamSteps R b c ({ c with intake := s.state.2 }.emit s.events) :=
  .of (.serve s.state.2 c.dispatched s.events h.intake h.inner.tending)

theorem emit {es : List Effect} (h : Tending es) : StreamSteps R b c (c.emit es) :=
  .of (.serve c.intake c.dispatched es (.refl _) h)

theorem count {k : Counter} (h : (Effect.count k).tending = true) : StreamSteps R b c (c.count k) :=
  emit (tending_cons h tending_nil)

theorem log (level : Level) (message : String) (fields : List (String × Note.Value)) :
    StreamSteps R b c (c.log level message fields) :=
  emit (tending_cons rfl tending_nil)

theorem write_reset (stream : StreamId) (code : Nat) :
    StreamSteps R b c (c.write [.reset stream code]) :=
  emit (tending_cons rfl tending_nil)

theorem discard (r : Request) : StreamSteps R b c (c.absorb (r.discard c.intake)) :=
  .of (.serve _ c.dispatched _ (r.moves_discard c.intake) (r.inner_discard c.intake).tending)

theorem retire {old r : Request} (h : c.find? old.stream = some old) (hstays : old.SameOpening r)
    (now : Instant) : StreamSteps R b c ((c.remove r.stream).retire r now) :=
  (discard r).trans (of (.leave (c := c.absorb (r.discard c.intake)) old r now h hstays))

theorem finishStream (stream : StreamId) (now : Instant) :
    StreamSteps R b c (c.finishStream stream now) := by
  rw [Connection.finishStream]
  cases hf : c.find? stream with
  | none => exact refl c
  | some r =>
      obtain rfl := find?_stream hf
      exact retire hf (.refl r) now

theorem dispatch (r : Request) : StreamSteps R b c (c.dispatch r).1 := by
  have h := r.ownStep_performAll (R := R) c.intake (c.handler c.dispatched r)
  exact of (.serve _ (c.dispatched + 1) _ h.intake (tending_cons rfl h.inner.tending))

theorem refuse (stream : StreamId) (why : Refusal) : StreamSteps R b c (c.refuse stream why) :=
  ((log _ _ _).trans (write_reset _ _)).trans (count rfl)

theorem put {old r : Request} (h : c.find? old.stream = some old) (hstays : old.SameOpening r) :
    StreamSteps R b c (c.put r) := by
  have hput : c.put r = (c.update r).absorb (old.discard c.intake) := by
    rw [Connection.put, hstays.stream, h]
  rw [hput]
  exact (of (.amend old r h hstays)).trans (discard (c := c.update r) old)

theorem convert {r : Request} (h : c.find? r.stream = some r) (cause : AbortCause) :
    StreamSteps R b c
      (match r.toAborted? c.intake cause with
      | none => c
      | some (aborted, intake) =>
        let (c, aborted) := { c with intake := intake }.dispatch aborted
        c.put aborted) := by
  split
  · exact refl c
  · rename_i aborted i ha
    obtain ⟨hstays, hi⟩ := Request.ownStep_toAborted (R := R) ha
    have hopen : StreamSteps R b c { c with intake := i } := by
      have hserve := StreamStep.serve (b := b) (c := c) i c.dispatched [] hi tending_nil
      rw [List.append_nil] at hserve
      exact of hserve
    have hdone :=
      (aborted.ownStep_performAll (R := R) i (c.handler c.dispatched aborted)).sameOpening
    refine (hopen.trans (dispatch aborted)).trans (put ?_ (hstays.trans hdone))
    exact h

theorem rejectBody {r : Request} (h : c.find? r.stream = some r) (e : Error) (now : Instant) :
    StreamSteps R b c (c.rejectBody r e now) := by
  have hlog : StreamSteps R b c ((c.count .aggregationFailures).log .warn "request body rejected"
      [("connection_id", .num c.id), ("stream_id", .num r.stream), ("err", .text e.message)]) :=
    (count rfl).trans (log _ _ _)
  rw [Connection.rejectBody]
  cases hc : r.cause with
  | none => exact hlog
  | some cause =>
      refine (hlog.trans (convert ?_ cause)).trans
        (trans (ite (write_reset _ _) (refl _)) (finishStream r.stream now))
      exact h

theorem onData (stream : StreamId) (bytes : Bytes) (endOfStream : Bool) (now : Instant)
    (h : ∀ r, c.find? stream = some r → r.feeds c.intake bytes = true → R c.intake bytes) :
    StreamSteps R b (c.activity now .data) (c.onData stream bytes endOfStream now).1 := by
  have hroom : ∀ r, (c.activity now .data).find? stream = some r →
      r.feeds (c.activity now .data).intake bytes = true →
      R (c.activity now .data).intake bytes := h
  rw [Connection.onData]
  simp only
  generalize c.activity now .data = d at hroom
  cases hf : d.find? stream with
  | none => exact refl d
  | some r =>
      obtain rfl := find?_stream hf
      have hdata := r.ownStep_onData d.intake bytes endOfStream (hroom r hf)
      simp only
      generalize r.onData d.intake bytes endOfStream = s at hdata
      have hstep := (tend (b := b) hdata).trans (of (.amend r s.state.1 hf hdata.sameOpening))
      have hfound : (({ d with intake := s.state.2 }.emit s.events).update s.state.1).find?
          s.state.1.stream = some s.state.1 := find?_update (hdata.sameOpening.stream ▸ hf)
      split
      · split
        · have hdone := (s.state.1.ownStep_performAll (R := R) s.state.2
            (d.handler d.dispatched s.state.1)).sameOpening
          exact (hstep.trans (dispatch s.state.1)).trans (of (.amend s.state.1 _ hfound hdone))
        · exact hstep
      · exact hstep.trans (rejectBody hfound _ now)

theorem onReset (stream : StreamId) (code : Nat) (now : Instant) :
    StreamSteps R b (c.activity now .control) (c.onReset stream code now).1 := by
  rw [Connection.onReset]
  simp only
  generalize c.activity now .control = d
  cases hf : d.find? stream with
  | none => exact refl d
  | some r =>
      obtain rfl := find?_stream hf
      have habort := r.ownStep_abort (R := R) d.intake (.peerReset code) false
      have hended := ((tend (b := b) habort).trans (count (k := .requestsAborted) rfl)).trans
        (of (.amend r _ hf habort.sameOpening))
      exact (ite (refl d) hended).trans (finishStream r.stream now)

theorem setResponse (stream : StreamId) (tag : String) :
    StreamSteps R b c (c.setResponse stream tag).1 := by
  rw [Connection.setResponse]
  cases hf : c.find? stream with
  | none => exact refl c
  | some r =>
      obtain rfl := find?_stream hf
      exact (of (.amend r _ hf (r.sameOpening_bind tag))).trans (emit (r.inner_bind tag).tending)

theorem completeResponse (stream : StreamId) (now : Instant) :
    StreamSteps R b c (c.completeResponse stream now).1 := by
  rw [Connection.completeResponse]
  cases hf : c.find? stream with
  | none => exact refl c
  | some r =>
      obtain rfl := find?_stream hf
      exact (of (.amend r _ hf r.sameOpening_complete)).trans (finishStream r.stream now)

theorem abortStream (stream : StreamId) (cause : AbortCause) (now : Instant) :
    StreamSteps R b c (c.abortStream stream cause now).1 := by
  rw [Connection.abortStream]
  cases hf : c.find? stream with
  | none => exact refl c
  | some r =>
      obtain rfl := find?_stream hf
      have habort := r.ownStep_abort (R := R) c.intake cause true
      simp only
      generalize r.abort c.intake cause true = s at habort
      have hcounted : StreamSteps R b c
          (if s.result.isSome then
            ({ c with intake := s.state.2 }.emit s.events).count .requestsAborted
          else { c with intake := s.state.2 }.emit s.events) :=
        (tend habort).trans (ite (count rfl) (refl _))
      split
      · exact (ite (write_reset _ _) (refl _)).trans (finishStream r.stream now)
      · refine ((hcounted.trans (of (.amend r s.state.1 ?_ habort.sameOpening))).trans
          (ite (write_reset _ _) (refl _))).trans (finishStream r.stream now)
        split
        · exact hf
        · exact hf

theorem closeStream {r : Request} (h : c.find? r.stream = some r) (now : Instant) :
    StreamSteps R b c (Connection.closeStream now c r) := by
  rw [Connection.closeStream]
  simp only
  split
  · exact retire h (.refl r) now
  · have habort := r.ownStep_abort (R := R) c.intake .connectionClosed false
    have hended := (tend (b := b) habort).trans (count (k := .requestsAborted) rfl)
    rw [← habort.sameOpening.stream]
    refine hended.trans (retire ?_ habort.sameOpening now)
    exact h

theorem closeStream_streams (now : Instant) (c : Connection) (r : Request) :
    (Connection.closeStream now c r).streams = (c.remove r.stream).streams := by
  rw [Connection.closeStream]
  simp only
  split <;> rfl

theorem closeStreams (h : Distinct c) (now : Instant) :
    StreamSteps R b c (c.streams.foldl (Connection.closeStream now) c) ∧
      (c.streams.foldl (Connection.closeStream now) c).streams = [] := by
  generalize hrs : c.streams = rs
  induction rs generalizing c with
  | nil => exact ⟨refl c, hrs⟩
  | cons r rest ih =>
      have hopen : c.find? r.stream = some r := by simp [find?, hrs]
      have hclosed := closeStream (R := R) (b := b) hopen now
      have hrest : (Connection.closeStream now c r).streams = rest := by
        have hnodup := h
        rw [Distinct, hrs, List.map_cons, List.nodup_cons] at hnodup
        rw [closeStream_streams, remove, hrs]
        simp only [List.filter_cons, bne_self_eq_false, Bool.false_eq_true, if_false]
        refine List.filter_eq_self.mpr fun s hs => bne_iff_ne.mpr fun hid => ?_
        exact hnodup.1 (hid ▸ List.mem_map_of_mem hs)
      obtain ⟨hothers, hnone⟩ := ih (hclosed.distinct h) hrest
      exact ⟨hclosed.trans hothers, hnone⟩

theorem closeStreams_detached (now : Instant) (rs : List Request) (c : Connection) :
    rs.foldl (Connection.closeStream now) { c with tornDown := true } =
      { rs.foldl (Connection.closeStream now) c with tornDown := true } := by
  induction rs generalizing c with
  | nil => rfl
  | cons r rest ih =>
      have hr : Connection.closeStream now { c with tornDown := true } r =
          { Connection.closeStream now c r with tornDown := true } := by
        rw [Connection.closeStream, Connection.closeStream]
        simp only
        split <;> rfl
      rw [List.foldl_cons, List.foldl_cons, hr, ih]

theorem teardown (h : Distinct c) (ht : c.tornDown = false) (now : Instant) :
    ∃ d, StreamSteps R true c d ∧ d.streams = [] ∧
      c.teardown now = { d with tornDown := true } := by
  have hstopped := (StreamsKept.observe c (Monitor.modest_destroy c.monitor now)).trans
    (.steer _ (c.observe (c.monitor.destroy now)).drain.cancel)
  rw [Connection.teardown]
  simp only
  generalize (c.observe (c.monitor.destroy now)).steer _ = d at hstopped
  have hdown : StreamSteps R true c d := upkeep hstopped
  have hnot : ¬ d.tornDown = true := by simp [hdown.attached, ht]
  rw [if_neg hnot, closeStreams_detached]
  obtain ⟨hended, hnone⟩ := closeStreams (R := R) (hdown.distinct h) now
  generalize d.streams.foldl (Connection.closeStream now) d = e at hended hnone
  have hclosed : StreamsKept e { e with state := .closed } := .silent ..
  have hcounted := hclosed.trans (.ite (p := e.active = true)
    (.count _ (k := .connectionsClosed) rfl) (.refl _))
  refine ⟨_, (hdown.trans hended).trans (upkeep (hcounted.trans
    (.log _ .info "connection closed"
      [("connection_id", .num e.id), ("age_ms", .millis (e.age now))]))), ?_, ?_⟩
  · cases e.active <;> exact hnone
  · cases e.active <;> rfl

theorem onLifecycle (e : Lifecycle) (now : Instant)
    (h : e.ends = true → c.tornDown = true) : StreamSteps R true c (c.onLifecycle e now) :=
  upkeep (.onLifecycle e now h)

theorem serve (stream : StreamId) (demand : Demand) (allowance : Option Nat) :
    StreamSteps R b c (c.serve stream demand allowance).1 := by
  have hmoves := c.intake.moves_serve (R := R) stream demand allowance
  exact of (.serve _ c.dispatched _ hmoves (ofGate_inner _).tending)

end StreamSteps

end Connection

end HttpLifecycle
