import HttpLifecycle.Proofs.Connection.Story

namespace HttpLifecycle

namespace Request

variable (r : Request) (i : Intake)

theorem ofRequest_abort (cause : AbortCause) (reset : Bool) (now : Instant) :
    AccessRecord.ofRequest (r.abort i cause reset).state.1 now =
      .ofRequest (r.fail cause reset).state now := by
  obtain ⟨mode, hs⟩ := r.abort_state i cause reset
  rw [hs]
  rfl

def parting (now : Instant) : List Effect :=
  (if r.resetRequested then [.sink (.reset r.stream ErrorCode.cancel)] else []) ++
    [.record (.ofRequest r now)]

def lost (cause : AbortCause) (now : Instant) : List Effect :=
  storyOf r.stream (r.fail cause false).events ++
    [.record (.ofRequest (r.fail cause false).state now)]

theorem parting_abort (cause : AbortCause) (reset : Bool) (now : Instant) :
    (r.abort i cause reset).state.1.parting now = (r.fail cause reset).state.parting now := by
  obtain ⟨mode, hs⟩ := r.abort_state i cause reset
  rw [hs]
  rfl

theorem abort_stream (cause : AbortCause) (reset : Bool) :
    (r.abort i cause reset).state.1.stream = r.stream :=
  (r.sameOpening_abort i cause reset).stream

theorem storyOf_abort (cause : AbortCause) (reset : Bool) (s : StreamId) :
    storyOf s (r.abort i cause reset).events = storyOf s (r.fail cause reset).events := by
  rw [abort_events]

theorem within_abort (cause : AbortCause) (reset : Bool) :
    Within r.stream (r.abort i cause reset).events := by
  rw [abort_events]
  exact r.within_fail cause reset

theorem within_onData (bytes : Bytes) (endOfStream : Bool) :
    Within r.stream (r.onData i bytes endOfStream).events := by
  rcases r.onData_cases i bytes endOfStream with htaken | ⟨cause, hover⟩
  · exact within_of_storyOf htaken.silent
  · exact hover.within

theorem toAborted?_streaming (h : r.needsAggregation = false) (cause : AbortCause) :
    r.toAborted? i cause = none := by
  rw [needsAggregation] at h
  rw [toAborted?]
  split
  · simp_all
  · rfl

theorem toAborted?_gathering (h : r.needsAggregation = true) (cause : AbortCause) :
    ∃ a j, r.toAborted? i cause = some (a, j) ∧ a.stream = r.stream := by
  rw [needsAggregation] at h
  rw [toAborted?]
  split
  · exact ⟨_, _, rfl, rfl⟩
  · simp_all

end Request

namespace Connection

def follow {α : Type} (c : Connection) (s : Step (Request × Intake) Effect α) : Connection :=
  { c with intake := s.state.2 }.emit s.events

variable {c d : Connection} {stream : StreamId} {r : Request}

namespace Touches

variable {es fs : List Effect} {new : Option Request}

theorem count (k : Counter) : Touches stream [] (c.find? stream) c (c.count k) :=
  mute rfl rfl fun _ => rfl

theorem log (level : Level) (message : String) (fields : List (String × Note.Value)) :
    Touches stream [] (c.find? stream) c (c.log level message fields) :=
  mute rfl rfl fun _ => rfl

theorem more {e : Connection} (h : Touches stream es new c d)
    (g : Touches stream fs (d.find? stream) d e) : Touches stream (es ++ fs) new c e := by
  have hboth := h.trans g
  rwa [h.find] at hboth

theorem hush {e : Connection} (h : Touches stream es new c d)
    (g : Touches stream [] (d.find? stream) d e) : Touches stream es new c e := by
  have hboth := h.more g
  rwa [List.append_nil] at hboth

theorem write_reset (stream : StreamId) (code : Nat) :
    Touches stream [.sink (.reset stream code)] (c.find? stream) c
      (c.write [.reset stream code]) := by
  have hreset : (Effect.sink (.reset stream code)).about stream = true := beq_self_eq_true stream
  have hspeak : Touches stream (storyOf stream [.sink (.reset stream code)]) _ c
      (c.write [.reset stream code]) :=
    speak rfl rfl (within_cons (fun s hs => (beq_iff_eq.mp hs).symm) within_nil)
  rwa [storyOf_cons hreset] at hspeak

theorem refuse (stream : StreamId) (why : Refusal) :
    Touches stream [.sink (.reset stream ErrorCode.refusedStream)] (c.find? stream) c
      (c.refuse stream why) :=
  ((log _ _ _).more (write_reset stream _)).hush (count _)

theorem follow {α : Type} {s : Step (Request × Intake) Effect α} (h : Within stream s.events) :
    Touches stream (storyOf stream s.events) (c.find? stream) c (c.follow s) :=
  speak rfl rfl h

theorem fail (h : c.find? r.stream = some r) (cause : AbortCause) (reset : Bool)
    (hd : Touches r.stream [] ((c.follow (r.abort c.intake cause reset)).find? r.stream)
      (c.follow (r.abort c.intake cause reset)) d) :
    Touches r.stream (storyOf r.stream (r.fail cause reset).events)
      (some (r.abort c.intake cause reset).state.1) c
      (d.update (r.abort c.intake cause reset).state.1) := by
  have hfollow := (follow (c := c) (r.within_abort c.intake cause reset)).hush hd
  have hfound : d.find? (r.abort c.intake cause reset).state.1.stream = some r := by
    rw [r.abort_stream]
    exact hfollow.find.trans h
  have hupdate := update hfound
  rw [r.abort_stream] at hupdate
  have hboth := hfollow.trans hupdate
  rwa [List.append_nil, r.storyOf_abort] at hboth

theorem onReset (h : c.find? stream = some r) (code : Nat) (now : Instant) :
    Touches stream (r.lost (.peerReset code) now) none c (c.onReset stream code now).1 := by
  obtain rfl := find?_stream h
  have hnoted : Touches r.stream [] (c.find? r.stream) c (c.activity now .control) :=
    silent rfl rfl
  have hopen : (c.activity now .control).find? r.stream = some r := h
  rw [Connection.onReset]
  simp only
  generalize c.activity now .control = d at hnoted hopen
  rw [hopen]
  simp only
  refine hnoted.trans ?_
  by_cases hcause : r.cause.isSome = true
  · have hover : r.terminal = true := by simp [Request.terminal, hcause]
    rw [if_pos hcause, Request.fail_over hover]
    exact finishStream hopen now
  · rw [if_neg hcause]
    have hfailed := fail hopen (.peerReset code) false (count .requestsAborted)
    have hdone := hfailed.trans (finishStream hfailed.find now)
    rwa [r.ofRequest_abort] at hdone

theorem completeResponse (h : c.find? stream = some r) (now : Instant) :
    Touches stream [.record (.ofRequest r.complete.1 now)] none c
      (c.completeResponse stream now).1 := by
  obtain rfl := find?_stream h
  have hstream : r.complete.1.stream = r.stream := r.sameOpening_complete.stream
  have hfound : c.find? r.complete.1.stream = some r := hstream ▸ h
  have hupdate := update hfound
  rw [hstream] at hupdate
  rw [Connection.completeResponse, h]
  exact hupdate.trans (finishStream hupdate.find now)

theorem setResponse (h : c.find? stream = some r) (tag : String) :
    Touches stream (r.bind tag).events (some (r.bind tag).state) c
      (c.setResponse stream tag).1 := by
  obtain rfl := find?_stream h
  have hstream : (r.bind tag).state.stream = r.stream := (r.sameOpening_bind tag).stream
  have hfound : c.find? (r.bind tag).state.stream = some r := hstream ▸ h
  have hupdate := update hfound
  have hspeak : Touches r.stream (storyOf r.stream (r.bind tag).events) _
      (c.update (r.bind tag).state) ((c.update (r.bind tag).state).emit (r.bind tag).events) :=
    speak rfl rfl (r.within_bind tag)
  rw [hstream] at hupdate
  rw [r.storyOf_bind] at hspeak
  rw [Connection.setResponse, h]
  exact hupdate.more hspeak

theorem depart (h : c.find? stream = some r) (now : Instant) :
    Touches stream (r.parting now) none c
      ((if r.resetRequested then c.write [.reset stream ErrorCode.cancel]
        else c).finishStream stream now) := by
  obtain rfl := find?_stream h
  rw [Request.parting]
  split
  · have hwrite := write_reset (c := c) r.stream ErrorCode.cancel
    exact hwrite.trans (finishStream (hwrite.find.trans h) now)
  · exact finishStream h now

theorem abortStream (h : c.find? stream = some r) (cause : AbortCause) (now : Instant) :
    Touches stream (storyOf stream (r.fail cause true).events ++
      (r.fail cause true).state.parting now) none
      c (c.abortStream stream cause now).1 := by
  obtain rfl := find?_stream h
  rw [Connection.abortStream, h]
  simp only
  by_cases hcause : r.cause.isSome = true
  · have hover : r.terminal = true := by simp [Request.terminal, hcause]
    rw [if_pos hcause, Request.fail_over hover]
    exact depart h now
  · rw [if_neg hcause]
    have hcounted : Touches r.stream [] ((c.follow (r.abort c.intake cause true)).find? r.stream)
        (c.follow (r.abort c.intake cause true))
        (if (r.abort c.intake cause true).result.isSome then
          (c.follow (r.abort c.intake cause true)).count .requestsAborted
        else c.follow (r.abort c.intake cause true)) := by
      split
      · exact count _
      · exact silent rfl rfl
    have hfailed := fail h cause true hcounted
    rw [← r.parting_abort c.intake]
    exact hfailed.trans (depart hfailed.find now)

theorem closeStream (c : Connection) (r : Request) (now : Instant) :
    Touches r.stream (r.lost .connectionClosed now) none c
      (Connection.closeStream now c r) := by
  have hremove := remove r.stream c
  rw [Connection.closeStream]
  simp only
  by_cases hover : r.terminal = true
  · rw [if_pos hover, Request.lost, Request.fail_over hover]
    exact hremove.more (retire r now)
  · rw [if_neg hover]
    have hfollow := (hremove.more
      (follow (r.within_abort c.intake .connectionClosed false))).hush (count .requestsAborted)
    have hretire := retire (c := ((c.remove r.stream).follow
      (r.abort c.intake .connectionClosed false)).count .requestsAborted)
      (r.abort c.intake .connectionClosed false).state.1 now
    rw [r.abort_stream, r.ofRequest_abort] at hretire
    rw [r.storyOf_abort] at hfollow
    exact hfollow.more hretire

theorem serve (h : c.find? r.stream = some r) :
    let p := r.performAll c.intake (c.handler c.dispatched r)
    Touches r.stream (.dispatch r :: storyOf r.stream p.events) (some p.state.1) c
      ((c.dispatch r).1.update (c.dispatch r).2) := by
  intro p
  have hstream : p.state.1.stream = r.stream :=
    (r.sameOpening_performAll c.intake _).stream
  have hdispatch := dispatch (c := c) r
  have hfound : (c.dispatch r).1.find? p.state.1.stream = some r :=
    hstream ▸ hdispatch.find.trans h
  have hupdate := update hfound
  rw [hstream] at hupdate
  have hboth := hdispatch.trans hupdate
  rwa [List.append_nil] at hboth

theorem seat (c : Connection) (r : Request) :
    let p := r.performAll c.intake (c.handler c.dispatched r)
    Touches r.stream (.dispatch r :: storyOf r.stream p.events) (some p.state.1) c
      ((c.dispatch r).1.put (c.dispatch r).2) := by
  intro p
  have hstream : p.state.1.stream = r.stream :=
    (r.sameOpening_performAll c.intake _).stream
  have hput := put (c := (c.dispatch r).1) p.state.1
  rw [hstream] at hput
  have hboth := (dispatch (c := c) r).trans hput
  rwa [List.append_nil] at hboth

theorem depart_found (h : c.find? stream = some r) (now : Instant) :
    Touches stream (r.parting now) none c
      ((if (c.find? stream).any (·.resetRequested) then c.write [.reset stream ErrorCode.cancel]
        else c).finishStream stream now) := by
  rw [h]
  exact depart h now

theorem rejected (c : Connection) (r : Request) (e : Error) :
    Touches r.stream [] (c.find? r.stream) c
      ((c.count .aggregationFailures).log .warn "request body rejected"
        [("connection_id", .num c.id), ("stream_id", .num r.stream), ("err", .text e.message)]) :=
  (count _).hush (log _ _ _)

theorem rejectBody_streaming (h : c.find? r.stream = some r) (hcause : r.cause.isSome)
    (hmode : r.needsAggregation = false) (e : Error) (now : Instant) :
    Touches r.stream (r.parting now) none c (c.rejectBody r e now) := by
  obtain ⟨cause, hc⟩ := Option.isSome_iff_exists.mp hcause
  have hlog := rejected c r e
  rw [rejectBody]
  simp only [hc, r.toAborted?_streaming _ hmode]
  exact hlog.trans (depart_found (hlog.find.trans h) now)

theorem rejectBody_gathering (hc : r.cause = some cause)
    (hmode : r.needsAggregation = true) (e : Error) (now : Instant) :
    ∃ a i j actions, r.toAborted? i cause = some (a, j) ∧
      Touches r.stream (.dispatch a :: storyOf r.stream (a.performAll j actions).events ++
        (a.performAll j actions).state.1.parting now) none c (c.rejectBody r e now) := by
  have hlog := rejected c r e
  rw [rejectBody]
  simp only [hc]
  generalize (c.count .aggregationFailures).log .warn "request body rejected" _ = d at hlog
  obtain ⟨a, j, ha, hstream⟩ := r.toAborted?_gathering d.intake hmode cause
  rw [ha]
  refine ⟨a, d.intake, j, d.handler d.dispatched a, ha, ?_⟩
  have hseat := seat { d with intake := j } a
  have hopened : Touches r.stream [] (d.find? r.stream) d { d with intake := j } := silent rfl rfl
  rw [hstream] at hseat
  have hserved := hopened.trans hseat
  exact (hlog.trans hserved).trans (depart_found hserved.find now)

theorem feed (h : c.find? r.stream = some r) (bytes : Bytes) (endOfStream : Bool) :
    let t := r.onData c.intake bytes endOfStream
    Touches r.stream (storyOf r.stream t.events) (some t.state.1) c
      ((c.follow t).update t.state.1) := by
  intro t
  have hstream : t.state.1.stream = r.stream :=
    (r.sameOpening_onData c.intake bytes endOfStream).stream
  have hfollow := follow (c := c) (r.within_onData c.intake bytes endOfStream)
  have hfound : (c.follow t).find? t.state.1.stream = some r := hstream ▸ hfollow.find.trans h
  have hupdate := update hfound
  rw [hstream] at hupdate
  have hboth := hfollow.trans hupdate
  rwa [List.append_nil] at hboth

end Touches

def Input.subject? : Input → Option StreamId
  | .event (.headers stream ..) | .event (.data stream ..) | .event (.reset stream _)
  | .event (.setResponse stream _) | .event (.complete stream) | .event (.abort stream _) =>
    some stream
  | _ => none

inductive Input.Fails (stream : StreamId) : Input → AbortCause → Prop
  | reset (code : Nat) : Fails stream (.event (.reset stream code)) (.peerReset code)
  | ends {x : Input} (h : x.ends = true) : Fails stream x .connectionClosed

theorem Input.Fails.ne {x y : Input} {s : StreamId} {cause : AbortCause} (h : x.Fails s cause)
    (hends : y.ends = false) (hreset : ∀ code, y ≠ .event (.reset s code)) : x ≠ y := by
  rintro rfl
  cases h with
  | reset code => exact hreset code rfl
  | ends h =>
      rw [h] at hends
      contradiction

/-- What one input does to one stream: what the journal tells of it, and the
request that is open under it afterwards. -/
inductive Fate (c : Connection) (s : StreamId) (x : Call) : List Effect → Option Request → Prop
  | spared (hsubject : x.input.subject? = some s → c.find? s = none ∧ c.admission? x = none) :
      Fate c s x [] (c.find? s)
  | refused {headers : Headers} {endOfStream : Bool}
      (hx : x.input = .event (.headers s headers endOfStream)) (hopen : c.admission? x = none) :
      Fate c s x [.sink (.reset s ErrorCode.refusedStream)] (c.find? s)
  | opened {headers : Headers} {endOfStream : Bool} {r : Request}
      (hx : x.input = .event (.headers s headers endOfStream)) (hopen : c.admission? x = some s)
      (hr : r = (Request.ofOpening (c.opening s headers endOfStream x.now) c.intake).1)
      (hready : r.ready = false) : Fate c s x [] (some r)
  | served {headers : Headers} {endOfStream : Bool} {r : Request} (i : Intake)
      (actions : List Action) (hx : x.input = .event (.headers s headers endOfStream))
      (hopen : c.admission? x = some s)
      (hr : r = (Request.ofOpening (c.opening s headers endOfStream x.now) c.intake).1)
      (hready : r.ready = true) :
      Fate c s x (.dispatch r :: storyOf s (r.performAll i actions).events)
        (some (r.performAll i actions).state.1)
  | bound {tag : String} {r : Request} (hx : x.input = .event (.setResponse s tag))
      (h : c.find? s = some r) : Fate c s x (r.bind tag).events (some (r.bind tag).state)
  | fed {bytes : Bytes} {endOfStream : Bool} {r t : Request}
      (hx : x.input = .event (.data s bytes endOfStream)) (h : c.find? s = some r)
      (ht : t = (r.onData c.intake bytes endOfStream).state.1)
      (htaken : r.TakenIn (r.onData c.intake bytes endOfStream))
      (hready : r.ready = true ∨ t.ready = false) : Fate c s x [] (some t)
  | gathered {bytes : Bytes} {endOfStream : Bool} {r t : Request} (i : Intake)
      (actions : List Action) (hx : x.input = .event (.data s bytes endOfStream))
      (h : c.find? s = some r) (ht : t = (r.onData c.intake bytes endOfStream).state.1)
      (htaken : r.TakenIn (r.onData c.intake bytes endOfStream))
      (hwaits : r.ready = false) (hready : t.ready = true) :
      Fate c s x (.dispatch t :: storyOf s (t.performAll i actions).events)
        (some (t.performAll i actions).state.1)
  | burst {bytes : Bytes} {endOfStream : Bool} {r t : Request} {cause : AbortCause}
      (hx : x.input = .event (.data s bytes endOfStream)) (h : c.find? s = some r)
      (ht : t = (r.onData c.intake bytes endOfStream).state.1)
      (hover : r.TooMuch bytes.length (r.onData c.intake bytes endOfStream) cause)
      (hmode : r.needsAggregation = false) : Fate c s x (r.tells cause ++ t.parting x.now) none
  | overrun {bytes : Bytes} {endOfStream : Bool} {r t a : Request} {cause : AbortCause}
      (i j : Intake) (actions : List Action) (hx : x.input = .event (.data s bytes endOfStream))
      (h : c.find? s = some r) (ht : t = (r.onData c.intake bytes endOfStream).state.1)
      (hover : r.TooMuch bytes.length (r.onData c.intake bytes endOfStream) cause)
      (hmode : r.needsAggregation = true) (ha : t.toAborted? i cause = some (a, j)) :
      Fate c s x (r.tells cause ++ (.dispatch a :: storyOf s (a.performAll j actions).events ++
        (a.performAll j actions).state.1.parting x.now)) none
  | completed {r : Request} (hx : x.input = .event (.complete s)) (h : c.find? s = some r) :
      Fate c s x [.record (.ofRequest r.complete.1 x.now)] none
  | cancelled {cause : AbortCause} {r : Request} (hx : x.input = .event (.abort s cause))
      (h : c.find? s = some r) :
      Fate c s x (storyOf s (r.fail cause true).events ++
        (r.fail cause true).state.parting x.now) none
  | ended {cause : AbortCause} {r : Request} (hx : x.input.Fails s cause)
      (h : c.find? s = some r) : Fate c s x (r.lost cause x.now) none

theorem Fate.vacant {x : Call} (hf : Fate c s x es new) (h : c.find? s = none)
    (hopen : c.admission? x ≠ some s) : new = none ∧ ∀ r, .dispatch r ∉ es := by
  cases hf with
  | spared hsubject => exact ⟨h, fun _ => List.not_mem_nil⟩
  | refused hx hnone => exact ⟨h, by simp⟩
  | opened hx hsome => exact absurd hsome hopen
  | served i actions hx hsome => exact absurd hsome hopen
  | bound hx hr | fed hx hr | gathered i actions hx hr | burst hx hr | overrun i j actions hx hr
  | completed hx hr | cancelled hx hr | ended hx hr =>
      rw [h] at hr
      contradiction

theorem onData_eq (h : c.find? stream = some r) (bytes : Bytes) (endOfStream : Bool)
    (now : Instant) :
    c.onData stream bytes endOfStream now =
      let p := r.onData c.intake bytes endOfStream
      let d := ((c.activity now .data).follow p).update p.state.1
      match p.result with
      | .ok () =>
        if !r.ready && p.state.1.ready then
          ((d.dispatch p.state.1).1.update (d.dispatch p.state.1).2, .ok ())
        else (d, .ok ())
      | .error e => (d.rejectBody p.state.1 e now, .error e) := by
  have hopen : (c.activity now .data).find? stream = some r := h
  rw [onData]
  simp only [hopen]
  rfl

theorem fate_onData (h : c.find? stream = some r) (bytes : Bytes) (endOfStream : Bool)
    (now : Instant) :
    ∃ es new, Touches stream es new c (c.onData stream bytes endOfStream now).1 ∧
      Fate c stream ⟨.event (.data stream bytes endOfStream), now⟩ es new := by
  obtain rfl := find?_stream h
  have hnoted : Touches r.stream [] (c.find? r.stream) c (c.activity now .data) := .silent rfl rfl
  have hfed := hnoted.trans (Touches.feed (c := c.activity now .data) h bytes endOfStream)
  have hstream : (r.onData c.intake bytes endOfStream).state.1.stream = r.stream :=
    (r.sameOpening_onData c.intake bytes endOfStream).stream
  have hcases := r.onData_cases c.intake bytes endOfStream
  rw [onData_eq h]
  change Touches r.stream (storyOf r.stream (r.onData c.intake bytes endOfStream).events)
    (some (r.onData c.intake bytes endOfStream).state.1) c
    (((c.activity now .data).follow (r.onData c.intake bytes endOfStream)).update
      (r.onData c.intake bytes endOfStream).state.1) at hfed
  simp only
  generalize ht : (r.onData c.intake bytes endOfStream).state.1 = t at hfed hstream
  generalize ((c.activity now .data).follow (r.onData c.intake bytes endOfStream)).update t = d
    at hfed
  have hfound : d.find? t.stream = some t := hstream ▸ hfed.find
  rcases hcases with htaken | ⟨cause, hover⟩
  · rw [htaken.silent] at hfed
    rw [htaken.result]
    simp only
    by_cases hready : (!r.ready && t.ready) = true
    · obtain ⟨hwaits, hnow⟩ : r.ready = false ∧ t.ready = true := by simpa using hready
      have hserved := Touches.serve hfound
      rw [hstream] at hserved
      rw [if_pos hready]
      exact ⟨_, _, hfed.trans hserved,
        .gathered d.intake (d.handler d.dispatched t) rfl h ht.symm htaken hwaits hnow⟩
    · rw [if_neg hready]
      refine ⟨_, _, hfed, .fed rfl h ht.symm htaken ?_⟩
      cases hr : r.ready <;> simp_all
  · rw [hover.told] at hfed
    have hcause : t.cause = some cause := ht ▸ hover.cause
    have hmode : t.needsAggregation = r.needsAggregation := ht ▸ hover.gathers
    cases hresult : (r.onData c.intake bytes endOfStream).result with
    | ok u => exact absurd hresult hover.result
    | error e =>
        simp only
        cases hgathers : r.needsAggregation with
        | false =>
            have hrejected := Touches.rejectBody_streaming hfound (by simp [hcause])
              (hmode.trans hgathers) e now
            rw [hstream] at hrejected
            exact ⟨_, _, hfed.trans hrejected, .burst rfl h ht.symm hover hgathers⟩
        | true =>
            obtain ⟨a, i, j, actions, ha, hrejected⟩ := Touches.rejectBody_gathering (c := d)
              hcause (hmode.trans hgathers) e now
            rw [hstream] at hrejected
            exact ⟨_, _, hfed.trans hrejected, .overrun i j actions rfl h ht.symm hover hgathers ha⟩

theorem fate_onHeaders (c : Connection) (stream : StreamId) (headers : Headers)
    (endOfStream : Bool) (now : Instant) :
    ∃ es new, Touches stream es new c (c.onHeaders stream headers endOfStream now).1 ∧
      Fate c stream ⟨.event (.headers stream headers endOfStream), now⟩ es new := by
  have hnoted : Touches stream [] (c.find? stream) c (c.activity now .headers) := .silent rfl rfl
  have hcounted : Touches stream [] (c.find? stream) c (c.counted now) :=
    hnoted.hush (.streamsKept (.observe _ (Monitor.modest_openStream _)))
  by_cases hlate : State.closing.rank ≤ c.state.rank
  · have heq := onHeaders_late now stream headers endOfStream hlate
    refine ⟨_, _, ?_, .refused rfl (by simp only [admission?, perform, handle, heq])⟩
    rw [heq]
    exact hnoted.more (.refuse stream .closing)
  · cases hr : (c.activity now .headers).monitor.openStream.result with
    | false =>
        have heq := onHeaders_beyond now stream headers endOfStream hlate hr
        refine ⟨_, _, ?_, .refused rfl (by simp only [admission?, perform, handle, heq])⟩
        rw [heq]
        exact (hcounted.more (.refuse stream .maxRequests)).hush
          (.streamsKept (.checkDisconnection _ now))
    | true =>
        have heq := onHeaders_within now stream headers endOfStream hlate hr
        have hopen : c.admission? ⟨.event (.headers stream headers endOfStream), now⟩ =
            some stream := by
          simp only [admission?, perform, handle, heq]
        obtain ⟨hstream, -⟩ :=
          Request.ofOpening_eq (c.opening stream headers endOfStream now) c.intake
        have hopened : Touches stream [] (c.find? stream) c
            { ((c.counted now).admitStream stream).count .streamsOpened with
              intake := (Request.ofOpening (c.opening stream headers endOfStream now)
                c.intake).2 } :=
          ((hcounted.hush (d := c.counted now) (.silent rfl rfl)).hush (.count _)).hush
            (.silent rfl rfl)
        rw [heq]
        generalize hq : (Request.ofOpening (c.opening stream headers endOfStream now)
          c.intake).1 = r at hstream
        generalize ({ ((c.counted now).admitStream stream).count .streamsOpened with
          intake := (Request.ofOpening (c.opening stream headers endOfStream now)
            c.intake).2 } : Connection) = d at hopened
        obtain rfl : r.stream = stream := hstream
        cases hready : r.ready with
        | true =>
            refine ⟨_, _, (hopened.trans (Touches.seat d r)).hush ?_,
              .served d.intake (d.handler d.dispatched r) rfl hopen hq.symm hready⟩
            rw [seat, if_pos hready]
            exact .streamsKept (.checkDisconnection _ now)
        | false =>
            refine ⟨_, _, (hopened.trans (Touches.put r)).hush ?_, .opened rfl hopen hq.symm hready⟩
            rw [seat, if_neg (by simp [hready])]
            exact .streamsKept (.checkDisconnection _ now)

/-- The request that a call is about, where there has to be one. -/
def Event.wanted? : Event → Option StreamId
  | .data stream .. | .reset stream _ | .setResponse stream _ | .complete stream
  | .abort stream _ => some stream
  | _ => none

theorem perform_vacant {e : Event} (hwanted : e.wanted? = some stream)
    (h : c.find? stream = none) (now : Instant) : ∃ d,
    c.perform ⟨.event e, now⟩ = (d, .error (.unknownStream stream)) ∧
      (d = c ∨ ∃ frame, d = c.activity now frame) := by
  cases e with
  | data s bytes last =>
      obtain rfl := Option.some.inj hwanted
      have hopen : (c.activity now .data).find? s = none := h
      exact ⟨c.activity now .data, by simp only [perform, handle, onData, hopen], .inr ⟨_, rfl⟩⟩
  | reset s code =>
      obtain rfl := Option.some.inj hwanted
      have hopen : (c.activity now .control).find? s = none := h
      exact ⟨c.activity now .control, by simp only [perform, handle, onReset, hopen], .inr ⟨_, rfl⟩⟩
  | setResponse s tag =>
      obtain rfl := Option.some.inj hwanted
      exact ⟨c, by simp only [perform, handle, setResponse, h], .inl rfl⟩
  | complete s =>
      obtain rfl := Option.some.inj hwanted
      exact ⟨c, by simp only [perform, handle, completeResponse, h], .inl rfl⟩
  | abort s cause =>
      obtain rfl := Option.some.inj hwanted
      exact ⟨c, by simp only [perform, handle, abortStream, h], .inl rfl⟩
  | _ => contradiction

theorem streamsKept_vacant {x : Call} (hx : x.input.subject? = some stream)
    (h : c.find? stream = none) :
    (∃ headers last, x.input = .event (.headers stream headers last)) ∨
      c.admission? x = none ∧ StreamsKept c (c.after x) := by
  obtain ⟨input, now⟩ := x
  cases input with
  | event e =>
      cases hwanted : e.wanted? with
      | none =>
          cases e with
          | headers s headers last =>
              obtain rfl := Option.some.inj hx
              exact .inl ⟨headers, last, rfl⟩
          | _ => contradiction
      | some s =>
          have hid : s = stream := by cases e <;> simp_all [Event.wanted?, Input.subject?]
          obtain ⟨d, hperform, hd⟩ := perform_vacant hwanted (hid ▸ h) now
          have hafter : c.after ⟨.event e, now⟩ = d := congrArg Prod.fst hperform
          refine .inr ⟨?_, ?_⟩
          · rw [admission?, hperform]
            cases e <;> rfl
          · rw [hafter]
            rcases hd with rfl | ⟨frame, rfl⟩
            · exact .refl d
            · exact .activity c now frame
  | _ => contradiction

theorem fate_subject {x : Call} (hx : x.input.subject? = some stream) :
    ∃ es new, Touches stream es new c (c.after x) ∧ Fate c stream x es new := by
  cases h : c.find? stream with
  | none =>
      rcases streamsKept_vacant hx h with ⟨headers, last, hinput⟩ | ⟨hnone, huntouched⟩
      · obtain ⟨input, now⟩ := x
        obtain rfl : input = .event (.headers stream headers last) := hinput
        exact fate_onHeaders c stream headers last now
      · exact ⟨[], _, .streamsKept huntouched, .spared fun _ => ⟨h, hnone⟩⟩
  | some r =>
      obtain ⟨input, now⟩ := x
      cases input with
      | event e =>
          cases e with
          | headers s headers last =>
              obtain rfl := Option.some.inj hx
              exact fate_onHeaders c s headers last now
          | data s bytes last =>
              obtain rfl := Option.some.inj hx
              exact fate_onData h bytes last now
          | reset s code =>
              obtain rfl := Option.some.inj hx
              exact ⟨_, _, .onReset h code now, .ended (.reset code) h⟩
          | setResponse s tag =>
              obtain rfl := Option.some.inj hx
              exact ⟨_, _, .setResponse h tag, .bound rfl h⟩
          | complete s =>
              obtain rfl := Option.some.inj hx
              exact ⟨_, _, .completeResponse h now, .completed rfl h⟩
          | abort s cause =>
              obtain rfl := Option.some.inj hx
              exact ⟨_, _, .abortStream h cause now, .cancelled rfl h⟩
          | _ => contradiction
      | _ => contradiction

theorem closeStreams_story {rs : List Request} (hd : (rs.map (·.stream)).Nodup) (now : Instant)
    (s : StreamId) (c : Connection) :
    (rs.foldl (closeStream now) c).story s =
      c.story s ++ (rs.find? (·.stream == s)).toList.flatMap (·.lost .connectionClosed now) := by
  induction rs generalizing c with
  | nil => exact (List.append_nil _).symm
  | cons r rest ih =>
      obtain ⟨hfirst, hrest⟩ := List.nodup_cons.mp hd
      have hclosed := Touches.closeStream c r now
      rw [List.foldl_cons, ih hrest]
      by_cases hid : r.stream = s
      · subst hid
        have hnone : rest.find? (·.stream == r.stream) = none :=
          List.find?_eq_none.mpr fun t ht hsame =>
            hfirst (List.mem_map.mpr ⟨t, ht, beq_iff_eq.mp hsame⟩)
        have hfound : (r :: rest).find? (·.stream == r.stream) = some r := by simp
        rw [hclosed.story, hnone, hfound]
        simp
      · rw [(hclosed.others s (Ne.symm hid)).2, List.find?_cons_of_neg (by simpa using hid)]

@[simp] theorem story_count (k : Counter) : (c.count k).story stream = c.story stream :=
  (Touches.count k).story.trans (List.append_nil _)

@[simp] theorem story_log (level : Level) (message : String) (fields : List (String × Note.Value)) :
    (c.log level message fields).story stream = c.story stream :=
  (Touches.log level message fields).story.trans (List.append_nil _)

theorem teardown_story (hd : Distinct c) (ht : c.tornDown = false) (now : Instant)
    (s : StreamId) :
    (c.teardown now).story s =
        c.story s ++ (c.find? s).toList.flatMap (·.lost .connectionClosed now) ∧
      (c.teardown now).find? s = none := by
  constructor
  · have hstopped : StreamsKept c (c.stopped now) :=
      (StreamsKept.observe c (Monitor.modest_destroy c.monitor now)).trans (.steer _ _)
    have hstory : (c.parted now).story s =
        c.story s ++ (c.find? s).toList.flatMap (·.lost .connectionClosed now) := by
      have hfold := closeStreams_story hd now s { c.stopped now with tornDown := true }
      have hquiet : Touches s [] (c.find? s) c (c.stopped now) := .streamsKept hstopped
      have hbefore := hquiet.story
      rw [List.append_nil] at hbefore
      have hparted : (c.parted now).story s = (c.streams.foldl (closeStream now)
          { c.stopped now with tornDown := true }).story s := by
        rw [← hstopped.streams]
        rfl
      rw [hparted, hfold, ← hbefore, find?]
      rfl
    rw [teardown_first now ht, ← hstory]
    simp only
    split
    · rw [story_log, story_count]
    · rw [story_log]
  · obtain ⟨d, -, hnone, heq⟩ := StreamSteps.teardown (R := fun _ _ => True) hd ht now
    rw [heq]
    show d.streams.find? _ = none
    rw [hnone]
    rfl

def Input.serves : Input → Bool
  | .serve .. => true
  | _ => false

theorem streamsKept_plain {x : Call} (hsubject : x.input.subject? = none)
    (hends : x.input.ends = true → c.tornDown = true) (hserves : x.input.serves = false) :
    StreamsKept c (c.after x) := by
  obtain ⟨input, now⟩ := x
  cases input with
  | timers => exact .pollTimers c now
  | query => exact .needsImmediate c now
  | serve stream demand allowance => contradiction
  | serverCloses => exact .silent ..
  | event e =>
      cases e with
      | lifecycle e => exact .onLifecycle e now hends
      | ping payload => exact .activity c now .ping
      | pingAck payload => exact .onPingAck c now payload
      | goAway code last => exact .onGoAway c now code last
      | close => exact .close c now
      | shutdown wait => exact .shutdownRequested c now wait
      | _ => contradiction

theorem touches_plain {x : Call} (hsubject : x.input.subject? = none)
    (hends : x.input.ends = true → c.tornDown = true) (s : StreamId) :
    Touches s [] (c.find? s) c (c.after x) := by
  cases hserves : x.input.serves with
  | false => exact .streamsKept (streamsKept_plain hsubject hends hserves)
  | true =>
      obtain ⟨input, now⟩ := x
      cases input with
      | serve stream demand allowance => exact .mute rfl rfl fun t => storyOf_ofGate _
      | _ => contradiction

theorem after_ends {x : Call} (h : x.input.ends = true) :
    ∃ fields, c.after x = (c.log .debug "lifecycle event" fields).teardown x.now := by
  obtain ⟨input, now⟩ := x
  cases input with
  | event e =>
      cases e with
      | lifecycle e => exact ⟨_, onLifecycle_ends h now⟩
      | _ => contradiction
  | _ => contradiction

theorem Touches.fate {x : Call} {es : List Effect} {new : Option Request}
    (h : Touches stream es new c (c.after x)) (hf : Fate c stream x es new) :
    ∃ es, (c.after x).story stream = c.story stream ++ es ∧
      Fate c stream x es ((c.after x).find? stream) :=
  ⟨es, h.story, h.find ▸ hf⟩

/-- Whatever comes, it does one of these things to a stream. -/
theorem after_fate (hd : Distinct c) (s : StreamId) (x : Call) :
    ∃ es, (c.after x).story s = c.story s ++ es ∧ Fate c s x es ((c.after x).find? s) := by
  cases hsubject : x.input.subject? with
  | some t =>
      obtain ⟨es, new, htouches, hfate⟩ := fate_subject hsubject
      by_cases hid : s = t
      · subst hid
        exact htouches.fate hfate
      · obtain ⟨hfind, hstory⟩ := htouches.others s hid
        refine ⟨[], by rw [hstory, List.append_nil], hfind ▸ .spared fun hs => ?_⟩
        rw [hsubject] at hs
        exact absurd (Option.some.inj hs).symm hid
  | none =>
      have hspared : Fate c s x [] (c.find? s) := .spared fun hs => by
        rw [hsubject] at hs
        contradiction
      by_cases hends : x.input.ends = true → c.tornDown = true
      · exact (touches_plain hsubject hends s).fate hspared
      · obtain ⟨hx, hattached⟩ := Classical.not_imp.mp hends
        obtain ⟨fields, heq⟩ := after_ends (c := c) hx
        have htorn : c.tornDown = false := by simpa using hattached
        obtain ⟨hstory, hnone⟩ :=
          teardown_story (c := c.log .debug "lifecycle event" fields) hd htorn x.now s
        rw [heq, hstory, hnone, story_log]
        refine ⟨_, rfl, ?_⟩
        show Fate c s x ((c.find? s).toList.flatMap _) none
        cases hf : c.find? s with
        | none =>
            rw [hf] at hspared
            exact hspared
        | some r =>
            rw [Option.toList_some, List.flatMap_singleton]
            exact .ended (.ends hx) hf

end Connection

end HttpLifecycle
