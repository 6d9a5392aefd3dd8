import HttpLifecycle.Proofs.Connection.Ledger
import HttpLifecycle.Proofs.Request.Filling

namespace HttpLifecycle

theorem Request.own_discard (r : Request) (i : Intake) (stream : StreamId) :
    Own stream (r.discard i).events := by
  have hnone {es : List Gate.Event} : Own stream (es.map .ofGate) :=
    fun s tag cause h => (ofGate_told h).elim
  rw [discard]
  split
  · simp only
    split
    · exact hnone
    · exact own_nil stream
  · exact own_nil stream

namespace Connection

/-- Nobody is told of an end, bar a response that came just now, and nothing
goes on record. -/
def Unrecorded (stream : StreamId) (c d : Connection) : Prop :=
  ∃ es, d.journal = c.journal ++ es ∧ recordsOf es = [] ∧ Own stream es

variable {R : Intake → Bytes → Prop} {c d : Connection} {stream : StreamId}

theorem Unrecorded.trans {e : Connection} (h : Unrecorded stream c d) (g : Unrecorded stream d e) :
    Unrecorded stream c e := by
  obtain ⟨es, hj, hr, ho⟩ := h
  obtain ⟨fs, hk, hs, hp⟩ := g
  refine ⟨es ++ fs, by rw [hk, hj, List.append_assoc], ?_, own_append ho hp⟩
  rw [recordsOf_append, hr, hs]
  rfl

theorem StreamsKept.unrecorded (h : StreamsKept c d) : Unrecorded stream c d := by
  obtain ⟨_, _, _, _, _, _, _, _, es, hes⟩ := h
  exact ⟨es, rfl, hes.unbooked.recordsOf, hes.own stream⟩

theorem emit_unrecorded {e : Effect} (h : e.record? = none)
    (g : ∀ s tag cause, e ≠ .abortResponse s tag cause) : Unrecorded stream c (c.emit [e]) :=
  ⟨[e], rfl, by rw [recordsOf, List.filterMap_cons_none h]; rfl, own_cons g (own_nil stream)⟩

theorem refuse_unrecorded (why : Refusal) : Unrecorded stream c (c.refuse stream why) :=
  ((emit_unrecorded rfl (by simp)).trans (emit_unrecorded rfl (by simp))).trans
    (emit_unrecorded rfl (by simp))

theorem refuse_streams (c : Connection) (stream : StreamId) (why : Refusal) :
    (c.refuse stream why).streams = c.streams := rfl

theorem Opens.unrecorded {r : Request} (m : Opens R c r d) : Unrecorded r.stream c d := by
  obtain ⟨es, hj, -, hnone, hown⟩ := m.counted
  exact ⟨es, hj, hnone, hown⟩

theorem put_open {r old : Request} (h : c.find? r.stream = some old) :
    Unrecorded r.stream c (c.put r) ∧ (c.put r).find? r.stream = some r ∧
      (c.put r).streams = c.streams.map (fun s => if s.stream == r.stream then r else s) ∧
      ∀ body untaken, old.mode = .streaming body untaken →
        (c.put r).intake.writable body = false := by
  rw [put_taken h]
  refine ⟨⟨_, rfl, (old.inner_discard c.intake).tending.unbooked.recordsOf, old.own_discard _ _⟩,
    find?_update h, rfl, fun body untaken hmode => ?_⟩
  exact Request.discard_unwritable hmode c.intake

theorem onHeaders_open {old : Request} (h : c.find? stream = some old) (headers : Headers)
    (endOfStream : Bool) (now : Instant) :
    let s := c.onHeaders stream headers endOfStream now
    Unrecorded stream c s.1 ∧
      (s.2 ≠ .ok () → s.1.streams = c.streams) ∧
      (s.2 = .ok () → ∃ r, r.headers = headers ∧ r.startedAt = now ∧
        s.1.find? stream = some r ∧
        s.1.streams = c.streams.map (fun s => if s.stream == stream then r else s) ∧
        ∀ body untaken, old.mode = .streaming body untaken →
          s.1.intake.writable body = false) := by
  intro s
  have hnoted : StreamsKept c (c.activity now .headers) := .activity c now .headers
  have hcounted : StreamsKept c (c.counted now) :=
    hnoted.trans (.observe _ (Monitor.modest_openStream _))
  by_cases hlate : State.closing.rank ≤ c.state.rank
  · have hs : s = _ := onHeaders_late now stream headers endOfStream hlate
    rw [hs]
    exact ⟨hnoted.unrecorded.trans (refuse_unrecorded _),
      fun _ => (refuse_streams _ _ _).trans hnoted.streams, by simp⟩
  · cases hr : (c.activity now .headers).monitor.openStream.result with
    | false =>
        have hs : s = _ := onHeaders_beyond now stream headers endOfStream hlate hr
        have hchecked :=
          StreamsKept.checkDisconnection ((c.counted now).refuse stream .maxRequests) now
        rw [hs]
        exact ⟨(hcounted.unrecorded.trans (refuse_unrecorded _)).trans hchecked.unrecorded,
          fun _ => (hchecked.streams.trans (refuse_streams _ _ _)).trans hcounted.streams, by simp⟩
    | true =>
        obtain ⟨r, d, hopens, hheaders, hadmission, heq⟩ :=
          opens_onHeaders (R := fun _ _ => True) now stream headers endOfStream hlate hr
        have hstream : r.stream = stream := congrArg Admission.stream hadmission
        have hstart : r.startedAt = now := congrArg Admission.startedAt hadmission
        subst hstream
        have htaken : d.find? r.stream = some old := by
          rw [find?, hopens.streams]
          exact h
        have hchecked := StreamsKept.checkDisconnection (d.put r) now
        have hs : s = _ := heq
        rw [hs]
        obtain ⟨hput, hfound, hplaced, hbody⟩ := put_open htaken
        refine ⟨(hopens.unrecorded.trans hput).trans hchecked.unrecorded, fun hno => absurd rfl hno,
          fun _ => ⟨r, hheaders, hstart, ?_, ?_, fun body untaken hmode => ?_⟩⟩
        · rw [find?, hchecked.streams]
          exact hfound
        · rw [hchecked.streams, hplaced, hopens.streams]
        · rw [hchecked.intake]
          exact hbody body untaken hmode

/-- Once a request was displaced the books never balance again. -/
theorem run_short (hj : c.journal = []) (hs : c.streams = []) (xs ys : List Call) {x : Call}
    {lost : Admission} (h : (c.run xs).displaced? x = some lost) :
    (((c.run xs).after x).run ys).streams.length +
        (recordsOf (((c.run xs).after x).run ys).journal).length <
      openings (((c.run xs).after x).run ys).journal := by
  have hrun : c.run (xs ++ x :: ys) = ((c.run xs).after x).run ys := List.foldl_append
  have hdisplaced : c.displaced (xs ++ x :: ys) =
      c.displaced xs ++ lost :: ((c.run xs).after x).displaced ys := by
    rw [displaced_append, displaced, h]
    rfl
  have hopenings := openings_run hj hs (xs ++ x :: ys)
  rw [hrun, hdisplaced, List.length_append, List.length_cons] at hopenings
  omega

/-- A stream is asked for again while it is open. Refused, it goes on as it
was. Admitted, it is a new one, and the one before is gone without a word: its
response hears nothing, a reader of its body finds that it ended, and no record
is written of it, then or later. -/
theorem reopening_unrecorded (id : ConnectionId) (protocol : Protocol) (config : Config)
    (routes : Resolver) (handler : Handler) (start : Instant) (xs : List Call) (stream : StreamId)
    (headers : Headers) (endOfStream : Bool) (now : Instant) (old : Request)
    (h : ((create id protocol config routes handler start).run xs).find? stream = some old) :
    let c := (create id protocol config routes handler start).run xs
    let s := c.onHeaders stream headers endOfStream now
    Unrecorded stream c s.1 ∧
      (s.2 ≠ .ok () → s.1.streams = c.streams) ∧
      (s.2 = .ok () →
        (∃ r, r.headers = headers ∧ r.startedAt = now ∧ s.1.find? stream = some r ∧
          s.1.streams = c.streams.map (fun s => if s.stream == stream then r else s)) ∧
        (∀ body untaken, old.mode = .streaming body untaken →
          s.1.intake.writable body = false) ∧
        ∀ ys, (s.1.run ys).streams.length + (recordsOf (s.1.run ys).journal).length <
          openings (s.1.run ys).journal) := by
  intro c s
  obtain ⟨hunrecorded, hrefused, hadmitted⟩ := onHeaders_open h headers endOfStream now
  refine ⟨hunrecorded, hrefused, fun hok => ?_⟩
  obtain ⟨r, hheaders, hstart, hfound, hstreams, hbody⟩ := hadmitted hok
  refine ⟨⟨r, hheaders, hstart, hfound, hstreams⟩, hbody, fun ys => ?_⟩
  have hlost : c.displaced? ⟨.event (.headers stream headers endOfStream), now⟩ =
      some old.admission := by
    have hanswer : (c.onHeaders stream headers endOfStream now).2 = .ok () := hok
    have hopen : c.find? stream = some old := h
    simp only [displaced?, arrival?, perform, handle, hanswer, Option.bind_some, hopen,
      Option.map_some]
  exact run_short rfl rfl xs ys hlost

theorem reopening_unrecorded_trailers :
    let c := (create 1 .h2 {} (Routes.resolver [("/chat", ⟨"chat", .bidiStreaming, none, false⟩)])
      (fun _ r => if r.headers.path = "/chat" then [.bind "handler", .takeBody] else []) 0).run
        [⟨.event (.headers 1 { path := "/chat" } false), 0⟩]
    let s := c.onHeaders 1 {} true 2000
    (∃ old, c.find? 1 = some old) ∧ Unrecorded 1 c s.1 ∧
      ∀ ys, (s.1.run ys).streams.length + (recordsOf (s.1.run ys).journal).length <
        openings (s.1.run ys).journal := by
  intro c s
  obtain ⟨old, hopen⟩ := Option.isSome_iff_exists.mp
    (show (c.find? 1).isSome = true by decide +kernel)
  obtain ⟨hunrecorded, -, hadmitted⟩ := reopening_unrecorded 1 .h2 {}
    (Routes.resolver [("/chat", ⟨"chat", .bidiStreaming, none, false⟩)])
    (fun _ r => if r.headers.path = "/chat" then [.bind "handler", .takeBody] else []) 0
    [⟨.event (.headers 1 { path := "/chat" } false), 0⟩] 1 {} true 2000 old hopen
  have hok : s.2.isOk = true := by decide +kernel
  obtain ⟨-, -, hshort⟩ := hadmitted (by
    cases hs : s.2 with
    | ok u => exact hs
    | error e => rw [hs] at hok; contradiction)
  exact ⟨⟨old, hopen⟩, hunrecorded, hshort⟩

/-- Trailers come for a request that is under way, and it is lost. -/
theorem trailers_lose_request :
    let c := (create 1 .h2 {} (Routes.resolver [("/chat", ⟨"chat", .bidiStreaming, none, false⟩)])
      (fun _ r => if r.headers.path = "/chat" then [.bind "handler", .takeBody] else []) 0).run
        [⟨.event (.headers 1 { path := "/chat" } false), 0⟩]
    let d := (c.onHeaders 1 {} true 2000).1
    ∃ old, c.find? 1 = some old ∧ old.response = some "handler" ∧ old.terminal = false ∧
      ¬ (d.find? 1 = some old ∨ ∃ a ∈ recordsOf d.journal, a.admission = old.admission) := by
  intro c d
  have hopen : (c.find? 1).map (fun r => (r.startedAt, r.response, r.terminal)) =
      some (0, some "handler", false) := by decide +kernel
  have hnew : (d.find? 1).map (·.startedAt) = some 2000 := by decide +kernel
  have hnone : recordsOf d.journal = [] := by decide +kernel
  obtain ⟨old, hold, hparts⟩ := Option.map_eq_some_iff.mp hopen
  obtain ⟨hstart, hbound, hlive⟩ : old.startedAt = 0 ∧ old.response = some "handler" ∧
      old.terminal = false := by simpa using hparts
  refine ⟨old, hold, hbound, hlive, ?_⟩
  rintro (hkept | ⟨a, ha, -⟩)
  · rw [hkept, Option.map_some, hstart] at hnew
    contradiction
  · rw [hnone] at ha
    contradiction

end Connection

end HttpLifecycle
