import HttpLifecycle.Proofs.Connection.Adds
import HttpLifecycle.Proofs.Connection.Owners

namespace HttpLifecycle

def Action.aborts : Action → Bool
  | .abort .. => true
  | _ => false

/-- A handler that leaves aborting to others. -/
def Handler.Tame (h : Handler) : Prop := ∀ n r, ∀ a ∈ h n r, a.aborts = false

def AbortCause.exceeds : AbortCause → Bool
  | .limitExceeded .. => true
  | _ => false

inductive Mark where
  | aborted
  | rejected
  | failed (cause : AbortCause)
  deriving DecidableEq

def Mark.isFailed : Mark → Bool
  | .failed _ => true
  | _ => false

def Mark.exceeded : Mark → Bool
  | .failed cause => cause.exceeds
  | _ => false

def Effect.mark? : Effect → Option Mark
  | .count .requestsAborted => some .aborted
  | .count .aggregationFailures => some .rejected
  | .record a => a.cause.map .failed
  | _ => none

theorem Effect.mark_overlooked : Overlooked Effect.mark? where
  upkeep e h := by
    cases e with
    | count k => cases k <;> first | rfl | contradiction
    | record a => contradiction
    | _ => rfl
  inner e h := by
    cases e with
    | count k => contradiction
    | record a => contradiction
    | _ => rfl
  dispatch _ := rfl
  opened := rfl

namespace Request

variable (r : Request) (i : Intake)

def failure : List Mark := r.cause.toList.map .failed

def toll (cause : AbortCause) : List Mark :=
  if r.completed then [] else [.aborted, .failed cause]

theorem cause_bind (tag : String) : (r.bind tag).state.cause = r.cause := by
  rw [bind]
  split <;> rfl

theorem cause_perform {a : Action} (h : a.aborts = false) :
    (r.perform i a).state.1.cause = r.cause := by
  cases a with
  | bind tag => exact r.cause_bind tag
  | takeBody =>
      obtain ⟨mode, hs⟩ := r.perform_takeBody i
      rw [hs]
  | takeAggregated =>
      obtain ⟨mode, hs⟩ := r.takeAggregated_state
      show r.takeAggregated.1.cause = r.cause
      rw [hs]
  | abort cause reset => contradiction
  | complete =>
      obtain ⟨completed, hs⟩ := r.complete_state
      show r.complete.1.cause = r.cause
      rw [hs]

theorem cause_performAll {actions : List Action} (h : ∀ a ∈ actions, a.aborts = false) :
    (r.performAll i actions).state.1.cause = r.cause := by
  induction actions generalizing r i with
  | nil => rfl
  | cons a rest ih =>
      obtain ⟨ha, hrest⟩ := List.forall_mem_cons.mp h
      exact (ih _ _ hrest).trans (r.cause_perform i ha)

theorem abort_result (cause : AbortCause) (reset : Bool) :
    (r.abort i cause reset).result = (r.abort i cause reset).state.1.cause := by
  rw [abort]
  split
  · split <;> rfl
  · rfl

theorem abort_failure (h : r.cause = none) (cause : AbortCause) (reset : Bool) :
    (r.abort i cause reset).state.1.failure = if r.completed then [] else [.failed cause] := by
  cases hdone : r.completed with
  | true =>
      have hover : r.terminal = true := by simp [terminal, hdone]
      have hsame : (r.abort i cause reset).state.1 = r := by rw [abort, fail_over hover]; rfl
      rw [hsame, failure, h]
      rfl
  | false =>
      have hlive : r.terminal = false := by simp [terminal, hdone, h]
      rw [failure, abort_cause hlive]
      rfl

theorem abort_failed (h : r.cause = none) (cause : AbortCause) (reset : Bool) :
    (r.abort i cause reset).result.isSome = !r.completed := by
  rw [abort_result]
  cases hdone : r.completed with
  | true =>
      have hover : r.terminal = true := by simp [terminal, hdone]
      rw [abort, fail_over hover]
      exact congrArg Option.isSome h
  | false =>
      have hlive : r.terminal = false := by simp [terminal, hdone, h]
      rw [abort_cause hlive]
      rfl

theorem receive_exceeds {n : Nat} {cause : AbortCause} (h : (r.receive n).2 = some cause) :
    cause.exceeds = true := by
  rw [receive] at h
  simp only at h
  split at h
  · obtain rfl := Option.some.inj h
    rfl
  · contradiction

end Request

namespace Connection

variable {c d : Connection} {stream : StreamId} {r t : Request} (now : Instant)

theorem retire_marks (c : Connection) (r : Request) :
    Adds Effect.mark? r.failure c (c.retire r now) := by
  have hgone : Adds Effect.mark? [] c (c.absorb (r.discard c.intake)) :=
    .inner Effect.mark_overlooked rfl (r.inner_discard _)
  have hrecord : [Effect.record (.ofRequest r now)].filterMap Effect.mark? = r.failure := by
    rw [Request.failure]
    cases hc : r.cause <;> simp [Effect.mark?, AccessRecord.ofRequest, hc]
  exact hgone.trans ⟨[.record (.ofRequest r now)], rfl, hrecord⟩

theorem finishStream_marks (h : c.find? stream = some r) :
    Adds Effect.mark? r.failure c (c.finishStream stream now) := by
  have hremoved : Adds Effect.mark? [] c (c.remove stream) := .same rfl
  rw [finishStream, h]
  exact hremoved.trans (retire_marks now _ r)

theorem update_marks (c : Connection) (r : Request) : Adds Effect.mark? [] c (c.update r) :=
  .same rfl

theorem follow_marks {α : Type} {s : Step (Request × Intake) Effect α} (c : Connection)
    (h : Inner s.events) : Adds Effect.mark? [] c (c.follow s) :=
  .inner Effect.mark_overlooked rfl h

theorem write_reset_marks (c : Connection) (stream : StreamId) (code : Nat) :
    Adds Effect.mark? [] c (c.write [.reset stream code]) :=
  ⟨[.sink (.reset stream code)], rfl, rfl⟩

theorem count_aborted (c : Connection) :
    Adds Effect.mark? [.aborted] c (c.count .requestsAborted) :=
  ⟨[.count .requestsAborted], rfl, rfl⟩

theorem inner_abort (r : Request) (i : Intake) (cause : AbortCause) (reset : Bool) :
    Inner (r.abort i cause reset).events :=
  (r.ownStep_abort (R := fun _ _ => True) i cause reset).inner

theorem find?_aborted (h : c.find? r.stream = some r) (hs : d.streams = c.streams) (i : Intake)
    (cause : AbortCause) (reset : Bool) :
    (d.update (r.abort i cause reset).state.1).find? r.stream =
      some (r.abort i cause reset).state.1 := by
  have hid := r.abort_stream i cause reset
  have hfound : d.find? (r.abort i cause reset).state.1.stream = some r := by
    rw [hid, find?, hs]
    exact h
  have hupdate := find?_update hfound
  rwa [hid] at hupdate

theorem onReset_marks (h : c.find? stream = some r) (hr : r.cause = none) (code : Nat) :
    Adds Effect.mark? (.aborted :: if r.completed then [] else [.failed (.peerReset code)]) c
      (c.onReset stream code now).1 := by
  obtain rfl := find?_stream h
  have hopen : (c.activity now .control).find? r.stream = some r := h
  have hnone : ¬ r.cause.isSome = true := by simp [hr]
  have hnoted : Adds Effect.mark? [] c (c.activity now .control) := .same rfl
  rw [onReset]
  simp only [hopen]
  rw [if_neg hnone, ← r.abort_failure c.intake hr (.peerReset code) false]
  have hfollow := hnoted.trans (follow_marks (c.activity now .control)
    (inner_abort r c.intake (.peerReset code) false))
  have hcounted := hfollow.trans (count_aborted _)
  have hupdated := hcounted.hush
    (update_marks _ (r.abort c.intake (.peerReset code) false).state.1)
  exact hupdated.trans (finishStream_marks now (find?_aborted hopen rfl _ _ _))

theorem depart_marks (h : c.find? stream = some r) (p : Prop) [Decidable p] :
    Adds Effect.mark? r.failure c
      ((if p then c.write [.reset stream ErrorCode.cancel] else c).finishStream stream now) := by
  split
  · exact (write_reset_marks c stream _).trans (finishStream_marks now h)
  · exact finishStream_marks now h

theorem toll_eq (r : Request) (cause : AbortCause) :
    r.toll cause = (if r.completed then [] else [.aborted]) ++
      if r.completed then [] else [.failed cause] := by
  rw [Request.toll]
  cases r.completed <;> rfl

theorem count_failed (c : Connection) {flag completed : Bool} (h : flag = !completed) :
    Adds Effect.mark? (if completed then [] else [.aborted]) c
      (if flag then c.count .requestsAborted else c) := by
  cases completed with
  | true =>
      rw [h]
      exact .same rfl
  | false =>
      rw [h]
      exact count_aborted c

theorem setResponse_marks (h : c.find? stream = some r) (tag : String) :
    Adds Effect.mark? [] c (c.setResponse stream tag).1 := by
  rw [setResponse, h]
  exact (update_marks c _).trans (.inner Effect.mark_overlooked rfl (r.inner_bind tag))

theorem onHeaders_marks (stream : StreamId) (headers : Headers) (endOfStream : Bool) :
    Adds Effect.mark? [] c (c.onHeaders stream headers endOfStream now).1 := by
  have hadds := Adds.onHeaders Effect.mark_overlooked c stream headers endOfStream now
  split at hadds <;> exact hadds

theorem abortStream_marks (h : c.find? stream = some r) (hr : r.cause = none)
    (cause : AbortCause) :
    Adds Effect.mark? (r.toll cause) c (c.abortStream stream cause now).1 := by
  obtain rfl := find?_stream h
  have hnone : ¬ r.cause.isSome = true := by simp [hr]
  have hfollow := follow_marks c (inner_abort r c.intake cause true)
  have hcounted := hfollow.trans (count_failed _ (r.abort_failed c.intake hr cause true))
  rw [abortStream]
  simp only [h]
  rw [if_neg hnone, toll_eq, ← r.abort_failure c.intake hr cause true]
  have hupdated := hcounted.hush (update_marks _ (r.abort c.intake cause true).state.1)
  refine hupdated.trans (depart_marks now (find?_aborted h ?_ _ _ _) _)
  split <;> rfl

theorem completeResponse_marks (h : c.find? stream = some r) (hr : r.cause = none) :
    Adds Effect.mark? [] c (c.completeResponse stream now).1 := by
  obtain rfl := find?_stream h
  obtain ⟨completed, hdone⟩ := r.complete_state
  have hold : c.find? r.complete.1.stream = some r := by
    rw [hdone]
    exact h
  have hfound := find?_update hold
  have hnone : r.complete.1.failure = [] := by rw [hdone, Request.failure, hr]; rfl
  have hfinish := finishStream_marks now hfound
  rw [hnone, hdone] at hfinish
  rw [completeResponse]
  simp only [h]
  rw [hdone]
  exact (Adds.same rfl).trans hfinish

theorem closeStream_marks (c : Connection) (hr : r.cause = none) :
    Adds Effect.mark? (r.toll .connectionClosed) c (closeStream now c r) := by
  have hremoved : Adds Effect.mark? [] c (c.remove r.stream) := .same rfl
  have hover : r.terminal = r.completed := by simp [Request.terminal, hr]
  have hfailure := r.abort_failure c.intake hr .connectionClosed false
  rw [closeStream]
  simp only [hover]
  rw [Request.toll]
  cases hdone : r.completed with
  | true =>
      have hnone : r.failure = [] := by rw [Request.failure, hr]; rfl
      exact hnone ▸ hremoved.trans (retire_marks now _ r)
  | false =>
      rw [hdone] at hfailure
      have hfollow := hremoved.trans
        (follow_marks (c.remove r.stream) (inner_abort r c.intake .connectionClosed false))
      have hretired := (hfollow.trans (count_aborted _)).trans
        (retire_marks now _ (r.abort c.intake .connectionClosed false).state.1)
      rwa [hfailure] at hretired

theorem closeStreams_marks {rs : List Request} (hrs : ∀ r ∈ rs, r.cause = none) (c : Connection) :
    Adds Effect.mark? (rs.flatMap (·.toll .connectionClosed)) c (rs.foldl (closeStream now) c) := by
  induction rs generalizing c with
  | nil => exact .same rfl
  | cons r rest ih =>
      obtain ⟨hr, hrest⟩ := List.forall_mem_cons.mp hrs
      exact (closeStream_marks now c hr).trans (ih hrest _)

theorem teardown_marks (h : ∀ r ∈ c.streams, r.cause = none) (ht : c.tornDown = false) :
    Adds Effect.mark? (c.streams.flatMap (·.toll .connectionClosed)) c (c.teardown now) := by
  have hstopped : StreamsKept c (c.stopped now) :=
    (StreamsKept.observe c (Monitor.modest_destroy c.monitor now)).trans (.steer _ _)
  have hdetached : Adds Effect.mark? [] c { c.stopped now with tornDown := true } :=
    (Adds.streamsKept Effect.mark_overlooked hstopped).trans (.same rfl)
  have hclosed := hdetached.trans (closeStreams_marks now h { c.stopped now with tornDown := true })
  have hparted : Adds Effect.mark? (c.streams.flatMap (·.toll .connectionClosed)) c
      (c.parted now) := by
    rw [parted, hstopped.streams]
    exact hclosed.hush (.same rfl)
  have hcounted (d : Connection) :
      StreamsKept d (if d.active then d.count .connectionsClosed else d) :=
    .ite (.count d rfl) (.refl d)
  rw [teardown_first now ht]
  exact hparted.hush (.streamsKept Effect.mark_overlooked ((hcounted _).trans (.log _ _ _ _)))

theorem rejectBody_marks {cause : AbortCause} (h : c.find? r.stream = some r)
    (hr : r.cause = some cause) (htame : c.handler.Tame) (e : Error) :
    Adds Effect.mark? [.rejected, .failed cause] c (c.rejectBody r e now) := by
  have hlog : Adds Effect.mark? [.rejected] c ((c.count .aggregationFailures).log .warn
      "request body rejected" [("connection_id", .num c.id), ("stream_id", .num r.stream),
        ("err", .text e.message)]) :=
    ⟨[.count .aggregationFailures, .note ⟨.warn, "request body rejected", _⟩],
      List.append_assoc .., rfl⟩
  have hopen := (Touches.rejected c r e).find.trans h
  rw [rejectBody]
  simp only [hr]
  generalize hd : (c.count .aggregationFailures).log .warn "request body rejected" _ = d
    at hlog hopen
  have hhandler : d.handler.Tame := hd ▸ htame
  have hfailure {t : Request} (ht : t.cause = some cause) : t.failure = [.failed cause] := by
    rw [Request.failure, ht]
    rfl
  cases ha : r.toAborted? d.intake cause with
  | none => exact hlog.trans (hfailure hr ▸ depart_marks now hopen _)
  | some p =>
      obtain ⟨a, j⟩ := p
      have hstream : a.stream = r.stream := (Request.sameOpening_toAborted ha).stream
      have hcause : a.cause = some cause := (Request.toAborted_fills ha).1
      have hseat := Touches.seat { d with intake := j } a
      have hseated : Adds Effect.mark? [] d
          ((Connection.dispatch { d with intake := j } a).1.put
            (Connection.dispatch { d with intake := j } a).2) :=
        ((Adds.same rfl).trans (.dispatch Effect.mark_overlooked { d with intake := j } a)).trans
          (.put Effect.mark_overlooked _ _)
      rw [hstream] at hseat
      have hkept := (a.cause_performAll j (hhandler d.dispatched a)).trans hcause
      exact (hlog.trans hseated).trans (hfailure hkept ▸ depart_marks now hseat.find _)

theorem onData_marks (h : c.find? stream = some r) (hr : r.cause = none)
    (htame : c.handler.Tame) (bytes : Bytes) (last : Bool) :
    Adds Effect.mark? ((r.onData c.intake bytes last).state.1.cause.toList.flatMap fun cause =>
        [.rejected, .failed cause]) c
      (c.onData stream bytes last now).1 := by
  obtain rfl := find?_stream h
  have hcases := r.onData_cases c.intake bytes last
  have hstays := r.sameOpening_onData c.intake bytes last
  have hinner :=
    (r.ownStep_onData (R := fun _ _ => True) c.intake bytes last fun _ => trivial).inner
  have hnoted : Adds Effect.mark? [] c (c.activity now .data) := .same rfl
  have hfed := (hnoted.trans (follow_marks (c.activity now .data) hinner)).trans
    (update_marks _ (r.onData c.intake bytes last).state.1)
  rw [onData_eq h]
  simp only
  generalize hd : ((c.activity now .data).follow (r.onData c.intake bytes last)).update
    (r.onData c.intake bytes last).state.1 = d at hfed
  rcases hcases with htaken | ⟨cause, hover⟩
  · rw [htaken.result, htaken.cause, hr]
    simp only
    split
    · exact (hfed.trans (.dispatch Effect.mark_overlooked d _)).trans (update_marks _ _)
    · exact hfed
  · rw [hover.cause]
    have hfound : d.find? (r.onData c.intake bytes last).state.1.stream =
        some (r.onData c.intake bytes last).state.1 := by
      rw [← hd]
      have hold : ((c.activity now .data).follow (r.onData c.intake bytes last)).find?
          (r.onData c.intake bytes last).state.1.stream = some r := hstays.stream ▸ h
      exact find?_update hold
    cases hresult : (r.onData c.intake bytes last).result with
    | ok u => exact absurd hresult hover.result
    | error e =>
        have hhandler : d.handler.Tame := hd ▸ htame
        exact hfed.trans (rejectBody_marks now hfound hover.cause hhandler e)

end Connection

end HttpLifecycle
