import HttpLifecycle.Proofs.Connection.Truncation
import HttpLifecycle.Proofs.Metrics.Totals
import HttpLifecycle.Proofs.Request.Dismissal

namespace HttpLifecycle

namespace Effect

def isNote : Effect → Bool
  | .note _ => true
  | _ => false

def firm : Effect → Bool
  | .note _ | .sink .suspendReads | .sink .resumeReads => false
  | _ => true

def measured : Effect → Bool
  | .count _ | .lifespan .. => true
  | _ => false

theorem ofGate_injective : Function.Injective ofGate := by
  rintro (n | s) (m | t) h
  · exact congrArg Gate.Event.note (Effect.note.inj h)
  · cases t <;> contradiction
  · cases s <;> contradiction
  · cases s <;> cases t <;> first | rfl | contradiction

theorem firm_ofGate (e : Gate.Event) : (ofGate e).firm = false := by
  cases e with
  | note n => rfl
  | signal s => cases s <;> rfl

theorem measured_firm {e : Effect} (h : e.measured = true) : e.firm = true := by
  cases e <;> first | rfl | contradiction

end Effect

theorem Metrics.recordAll_measured (m : Metrics) (es : List Effect) :
    m.recordAll (es.filter (·.measured)) = m.recordAll es := by
  induction es generalizing m with
  | nil => rfl
  | cons e rest ih =>
      cases e with
      | count k => exact ih (m.record (.count k))
      | lifespan p d => exact ih (m.record (.lifespan p d))
      | _ => exact ih m

theorem Metrics.recordAll_append (m : Metrics) (es fs : List Effect) :
    m.recordAll (es ++ fs) = (m.recordAll es).recordAll fs := List.foldl_append

structure Intake.Signals (i : Intake) (es : List Effect) (j : Intake) : Prop where
  suspends : j.gate.suspends = i.gate.suspends + es.count (.sink .suspendReads)
  resumes : j.gate.resumes = i.gate.resumes + es.count (.sink .resumeReads)

namespace Intake

variable {i j k : Intake} {es fs : List Effect}

theorem Signals.trans (h : i.Signals es j) (g : j.Signals fs k) : i.Signals (es ++ fs) k := by
  constructor
  · rw [g.suspends, h.suspends, List.count_append, Nat.add_assoc]
  · rw [g.resumes, h.resumes, List.count_append, Nat.add_assoc]

theorem signals_ofGate {gs : List Gate.Event} (h : i.gate.Signals gs j.gate) :
    i.Signals (gs.map .ofGate) j := by
  constructor
  · rw [h.suspends]
    exact congrArg _ (List.count_map_of_injective _ _ Effect.ofGate_injective _).symm
  · rw [h.resumes]
    exact congrArg _ (List.count_map_of_injective _ _ Effect.ofGate_injective _).symm

theorem signals_silent (hgate : j.gate = i.gate) (hsuspend : .sink .suspendReads ∉ es)
    (hresume : .sink .resumeReads ∉ es) : i.Signals es j := by
  constructor
  · rw [hgate, List.count_eq_zero.mpr hsuspend, Nat.add_zero]
  · rw [hgate, List.count_eq_zero.mpr hresume, Nat.add_zero]

end Intake

namespace Request

def passing (r : Request) (i : Intake) (now : Instant) : List Effect :=
  let s := r.abort i .connectionClosed false
  (if r.terminal then [] else s.events ++ [.count .requestsAborted]) ++
    ((s.state.1.discard s.state.2).events ++ [.record (.ofRequest s.state.1 now)])

def farewell (r : Request) (now : Instant) : List Effect :=
  (if r.terminal then [] else r.tells .connectionClosed ++ [.count .requestsAborted]) ++
    [.record (.ofRequest (r.fail .connectionClosed false).state now)]

def passings (now : Instant) : List Request → Intake → List Effect
  | [], _ => []
  | r :: rest, i => r.passing i now ++ passings now rest (r.dismiss i .connectionClosed false)

variable {r : Request} {i : Intake} {now : Instant}

theorem fail_events (h : r.terminal = false) (cause : AbortCause) (reset : Bool) :
    ∃ n, (r.fail cause reset).events = .note n :: r.tells cause :=
  ⟨_, congrArg Step.events (if_neg (by simp [h]))⟩

theorem passing_firm (r : Request) (i : Intake) (now : Instant) :
    (r.passing i now).filter (·.firm) = r.farewell now := by
  have hgate (q : Request) (j : Intake) : (q.discard j).events.filter (·.firm) = [] := by
    obtain ⟨es, hes, -⟩ := q.signals_discard j
    rw [hes, List.filter_eq_nil_iff]
    intro e he
    obtain ⟨g, -, rfl⟩ := List.mem_map.mp he
    simp [Effect.firm_ofGate]
  have htells : (r.tells .connectionClosed).filter (·.firm) = r.tells .connectionClosed := by
    refine List.filter_eq_self.mpr fun e he => ?_
    obtain ⟨tag, -, rfl⟩ := List.mem_map.mp he
    rfl
  have hlast := r.ofRequest_abort i .connectionClosed false now
  rw [passing, farewell]
  simp only [List.filter_append, hgate, hlast, abort_events]
  cases hover : r.terminal with
  | true => rfl
  | false =>
      obtain ⟨n, hevents⟩ := fail_events hover .connectionClosed false
      have hheard : (Effect.note n :: r.tells .connectionClosed).filter (·.firm) =
          r.tells .connectionClosed := htells
      simp only [Bool.false_eq_true, if_false, List.filter_append, hevents, hheard]
      rfl

theorem signals_passing (r : Request) (i : Intake) (now : Instant) :
    i.Signals (r.passing i now) (r.dismiss i .connectionClosed false) := by
  have hsignal {e : Effect} (he : e = .sink .suspendReads ∨ e = .sink .resumeReads) :
      e ∉ (if r.terminal then [] else
        (r.abort i .connectionClosed false).events ++ [.count .requestsAborted]) := by
    intro hmem
    cases hover : r.terminal with
    | true => simp [hover] at hmem
    | false =>
        obtain ⟨n, hevents⟩ := fail_events hover .connectionClosed false
        rw [hover, abort_events, hevents] at hmem
        rcases he with rfl | rfl <;> simp [tells] at hmem
  have habort : i.Signals _ (r.abort i .connectionClosed false).state.2 :=
    Intake.signals_silent (r.abort_gate i .connectionClosed false) (hsignal (.inl rfl))
      (hsignal (.inr rfl))
  obtain ⟨es, hes, hdiscard⟩ := Request.signals_discard
    (r.abort i .connectionClosed false).state.1 (r.abort i .connectionClosed false).state.2
  have hrecord : (r.dismiss i .connectionClosed false).Signals
      [.record (.ofRequest (r.abort i .connectionClosed false).state.1 now)]
      (r.dismiss i .connectionClosed false) :=
    Intake.signals_silent rfl (by simp) (by simp)
  rw [passing, hes]
  exact habort.trans ((Intake.signals_ofGate hdiscard).trans hrecord)

theorem passings_firm (rs : List Request) (i : Intake) :
    (passings now rs i).filter (·.firm) = rs.flatMap (·.farewell now) := by
  induction rs generalizing i with
  | nil => rfl
  | cons r rest ih => rw [passings, List.filter_append, passing_firm, ih, List.flatMap_cons]

theorem signals_passings (rs : List Request) (i : Intake) (now : Instant) :
    i.Signals (passings now rs i)
      (rs.foldl (fun i r => r.dismiss i .connectionClosed false) i) := by
  induction rs generalizing i with
  | nil => exact ⟨rfl, rfl⟩
  | cons r rest ih => exact (r.signals_passing i now).trans (ih _)

theorem farewells_measured (rs : List Request) (now : Instant) : ∃ n,
    (rs.flatMap (·.farewell now)).filter (·.measured) =
      List.replicate n (.count .requestsAborted) := by
  refine ⟨_, List.eq_replicate_of_mem fun e he => ?_⟩
  obtain ⟨hmem, hmeasured⟩ := List.mem_filter.mp he
  obtain ⟨r, -, hfarewell⟩ := List.mem_flatMap.mp hmem
  rcases List.mem_append.mp hfarewell with hlive | hrecord
  · split at hlive
    · contradiction
    · rcases List.mem_append.mp hlive with htell | hcount
      · obtain ⟨tag, -, rfl⟩ := List.mem_map.mp htell
        contradiction
      · exact List.mem_singleton.mp hcount
  · obtain rfl := List.mem_singleton.mp hrecord
    contradiction

theorem passings_measured (rs : List Request) (i : Intake) :
    (passings now rs i).filter (·.measured) =
      (rs.flatMap (·.farewell now)).filter (·.measured) := by
  rw [← passings_firm rs i, List.filter_filter]
  refine List.filter_congr fun e _ => ?_
  cases hm : e.measured with
  | false => rfl
  | true => simp [Effect.measured_firm hm]

section Order

variable {rs qs : List Request}

def dismissLevel (cause : AbortCause) (reset : Bool) (j : { j : Intake // j.Level }) (r : Request) :
    { j : Intake // j.Level } :=
  ⟨r.dismiss j.1 cause reset, level_dismiss j.2 r cause reset⟩

theorem foldl_dismissLevel (rs : List Request) (cause : AbortCause) (reset : Bool)
    (j : { j : Intake // j.Level }) :
    (rs.foldl (dismissLevel cause reset) j).1 =
      rs.foldl (fun i r => r.dismiss i cause reset) j.1 := by
  induction rs generalizing j with
  | nil => rfl
  | cons r rest ih => exact ih (dismissLevel cause reset j r)

/-- Whoever has a body of his own may go in any order. -/
theorem dismissals_perm (h : i.Level) (hperm : rs.Perm qs)
    (hown : ∀ r ∈ rs, ∀ q ∈ rs, r ≠ q → ∀ b, r.body? = some b → q.body? ≠ some b)
    (cause : AbortCause) (reset : Bool) :
    rs.foldl (fun i r => r.dismiss i cause reset) i =
      qs.foldl (fun i r => r.dismiss i cause reset) i := by
  have hcomm (r : Request) (hr : r ∈ rs) (q : Request) (hq : q ∈ rs)
      (j : { j : Intake // j.Level }) :
      dismissLevel cause reset (dismissLevel cause reset j r) q =
        dismissLevel cause reset (dismissLevel cause reset j q) r := by
    by_cases hsame : r = q
    · rw [hsame]
    · exact Subtype.ext (dismiss_comm j.2 (hown r hr q hq hsame) cause reset)
  have hlevel := hperm.foldl_eq' hcomm ⟨i, h⟩
  have hrs := foldl_dismissLevel rs cause reset ⟨i, h⟩
  have hqs := foldl_dismissLevel qs cause reset ⟨i, h⟩
  rw [← hrs, ← hqs, hlevel]

theorem passings_recordAll (hperm : rs.Perm qs) (i : Intake) (m : Metrics) :
    m.recordAll (passings now rs i) = m.recordAll (passings now qs i) := by
  obtain ⟨n, hn⟩ := farewells_measured qs now
  have hsame := (hperm.flatMap_right (·.farewell now)).filter (·.measured)
  rw [hn, List.perm_replicate, ← hn] at hsame
  rw [← m.recordAll_measured, ← m.recordAll_measured (passings now qs i), passings_measured,
    passings_measured, hsame]

/-- Notes aside, the same is told in any order in which the same comes of it. -/
theorem passings_perm (hperm : rs.Perm qs)
    (hgate : rs.foldl (fun i r => r.dismiss i .connectionClosed false) i =
      qs.foldl (fun i r => r.dismiss i .connectionClosed false) i) :
    ((passings now rs i).filter (!·.isNote)).Perm ((passings now qs i).filter (!·.isNote)) := by
  have hrs := signals_passings rs i now
  have hqs := signals_passings qs i now
  rw [hgate] at hrs
  rw [List.perm_iff_count]
  intro e
  have hfirm (he : e.firm = true) : (passings now rs i).count e = (passings now qs i).count e := by
    have hsame := (hperm.flatMap_right (·.farewell now)).count_eq e
    rw [← passings_firm rs i, ← passings_firm qs i] at hsame
    rwa [List.count_filter he, List.count_filter he] at hsame
  cases hnote : e.isNote with
  | true =>
      have hnone (es : List Effect) : (es.filter (!·.isNote)).count e = 0 :=
        List.count_eq_zero.mpr fun hmem => by simp [hnote] at hmem
      rw [hnone, hnone]
  | false =>
      rw [List.count_filter (by simp [hnote]), List.count_filter (by simp [hnote])]
      cases he : e.firm with
      | true => exact hfirm he
      | false =>
          cases e with
          | sink k =>
              cases k with
              | suspendReads => exact Nat.add_left_cancel (hrs.suspends.symm.trans hqs.suspends)
              | resumeReads => exact Nat.add_left_cancel (hrs.resumes.symm.trans hqs.resumes)
              | _ => contradiction
          | _ => contradiction

end Order

end Request

namespace Connection

def reorder (c : Connection) (rs : List Request) : Connection := { c with streams := rs }

/-- Two connections come to the same, and notes aside the same was told, in turn
for every stream and all in all. -/
structure EndsAlike (c d : Connection) : Prop where
  state : { c with journal := [] } = { d with journal := [] }
  metrics : ∀ m : Metrics, m.recordAll c.journal = m.recordAll d.journal
  stories : ∀ s, c.story s = d.story s
  told : (c.journal.filter (!·.isNote)).Perm (d.journal.filter (!·.isNote))

variable {c : Connection} {rs qs : List Request} {now : Instant}

theorem reorder_self (c : Connection) : c.reorder c.streams = c := rfl

theorem closeStream_eq (now : Instant) (c : Connection) (r : Request) :
    closeStream now c r = { c with
      streams := c.streams.filter (·.stream != r.stream)
      intake := r.dismiss c.intake .connectionClosed false
      journal := c.journal ++ r.passing c.intake now } := by
  rw [closeStream]
  simp only
  cases hover : r.terminal with
  | true =>
      have habort : r.abort c.intake .connectionClosed false = ⟨(r, c.intake), [], r.cause⟩ := by
        rw [Request.abort, Request.fail_over hover]
        rfl
      rw [if_pos rfl, Request.dismiss, Request.passing, habort]
      simp [hover, retire, Request.retire, absorb, emit, remove]
  | false =>
      rw [if_neg (by simp), Request.dismiss, Request.passing]
      simp [hover, retire, Request.retire, absorb, emit, remove, count]

theorem closeStreams_eq (rs : List Request) (c : Connection) :
    rs.foldl (closeStream now) c = { c with
      streams := (rs.foldl (closeStream now) c).streams
      intake := rs.foldl (fun i r => r.dismiss i .connectionClosed false) c.intake
      journal := c.journal ++ Request.passings now rs c.intake } := by
  induction rs generalizing c with
  | nil =>
      show c = { c with journal := c.journal ++ [] }
      rw [List.append_nil]
  | cons r rest ih =>
      rw [List.foldl_cons, List.foldl_cons, Request.passings, ih]
      generalize (rest.foldl (closeStream now) (closeStream now c r)).streams = left
      rw [closeStream_eq, ← List.append_assoc]

def lastWords (c : Connection) (now : Instant) : List Effect :=
  (if c.active then [.count .connectionsClosed] else []) ++
    [.note ⟨.info, "connection closed",
      [("connection_id", .num c.id), ("age_ms", .millis (c.age now))]⟩]

theorem teardown_eq (hd : (rs.map (·.stream)).Nodup) (ht : c.tornDown = false) :
    (c.reorder rs).teardown now = { c.stopped now with
      tornDown := true
      state := .closed
      streams := []
      intake := rs.foldl (fun i r => r.dismiss i .connectionClosed false) c.intake
      journal := (c.stopped now).journal ++
        (Request.passings now rs c.intake ++ c.lastWords now) } := by
  have hstopped : StreamsKept c (c.stopped now) :=
    (StreamsKept.observe c (Monitor.modest_destroy c.monitor now)).trans (.steer _ _)
  have hleft : (rs.foldl (closeStream now) { c.stopped now with
      streams := rs
      tornDown := true }).streams = [] :=
    (StreamSteps.closeStreams (R := fun _ _ => True) (b := false) (c := { c.stopped now with
      streams := rs
      tornDown := true }) hd now).2
  have hparted : (c.reorder rs).parted now = { c.stopped now with
      tornDown := true
      state := .closed
      streams := []
      intake := rs.foldl (fun i r => r.dismiss i .connectionClosed false) c.intake
      journal := (c.stopped now).journal ++ Request.passings now rs c.intake } := by
    show ({ rs.foldl (closeStream now) { c.stopped now with
      streams := rs
      tornDown := true } with state := .closed } : Connection) = _
    rw [closeStreams_eq, hleft, ← hstopped.intake]
  have hactive : (c.stopped now).active = c.active := rfl
  have hid : (c.stopped now).id = c.id := rfl
  have hborn : (c.stopped now).createdAt = c.createdAt := rfl
  rw [teardown_first (c := c.reorder rs) now ht, hparted, lastWords]
  cases hopen : c.active with
  | true => simp [hactive, hopen, hid, hborn, count, log, emit, age]
  | false => simp [hactive, hopen, hid, hborn, log, emit, age]

theorem EndsAlike.refl (c : Connection) : EndsAlike c c :=
  ⟨rfl, fun _ => rfl, fun _ => rfl, .refl _⟩

/-- What the acts of a connection keep that lets its streams end in any order. -/
structure Composed (c : Connection) : Prop where
  coherent : Coherent c
  settled : Settled c
  owned : Owned c
  level : c.intake.Level

theorem composed_create (id : ConnectionId) (protocol : Protocol) {config : Config}
    (hvalid : config.validate = .ok ()) (routes : Resolver) (handler : Handler) (start : Instant) :
    Composed (create id protocol config routes handler start) where
  coherent := coherent_create id protocol config routes handler start
  settled _ := rfl
  owned := owned_create id protocol config routes handler start
  level := Intake.level_fresh <|
    (Nat.eq_zero_or_pos config.marks.high).imp_right (Gate.accepted_marks hvalid)

theorem Composed.act (h : Composed c) (a : Act) : Composed (c.act a) := by
  have howned := act_owned h.owned a
  have hlevel : (c.act a).intake.Level :=
    h.level.moves (act_moves h.owned.distinct a fun hfed => hfed)
  cases a with
  | call x =>
      have houtcome := after_outcome (R := fun _ _ => True) h.owned.distinct x trivial
      exact ⟨invariant_coherent.after h.coherent h.coherent x,
        houtcome.settled h.coherent h.settled, howned, hlevel⟩
  | _ => exact ⟨{ h.coherent with }, h.settled, howned, hlevel⟩

theorem Owned.streamsKept (h : Owned c) {r q : Request} (hr : r ∈ c.streams) (hq : q ∈ c.streams)
    (hne : r ≠ q) {b : BodyId} (hb : r.body? = some b) : q.body? ≠ some b := by
  intro hsame
  have hfirst := find?_mem h.distinct hr
  have hsecond := find?_mem h.distinct hq
  have hid : r.stream = q.stream := h.sole hfirst hsecond hb hsame
  rw [hid, hsecond] at hfirst
  exact hne (Option.some.inj hfirst).symm

theorem find?_perm (hd : Distinct c) (hperm : rs.Perm c.streams) (s : StreamId) :
    (c.reorder rs).find? s = c.find? s := by
  have hperms : Distinct (c.reorder rs) := (hperm.map Request.stream).nodup_iff.mpr hd
  ext r
  constructor
  · intro hr
    have hmem : r ∈ c.streams := hperm.mem_iff.mp (List.mem_of_find?_eq_some hr)
    exact find?_stream hr ▸ find?_mem hd hmem
  · intro hr
    have hmem : r ∈ rs := hperm.mem_iff.mpr (List.mem_of_find?_eq_some hr)
    exact find?_stream hr ▸ find?_mem hperms hmem

theorem Composed.endsAlike (h : Composed c) (hrs : rs.Perm c.streams) (hqs : qs.Perm c.streams)
    (now : Instant) :
    EndsAlike ((c.reorder rs).teardown now) ((c.reorder qs).teardown now) := by
  cases htorn : c.tornDown with
  | true =>
      have hnone := h.settled htorn
      rw [hnone] at hrs hqs
      rw [hrs.eq_nil, hqs.eq_nil]
      exact .refl _
  | false =>
      have hids {ss : List Request} (hss : ss.Perm c.streams) : (ss.map (·.stream)).Nodup :=
        (hss.map _).nodup_iff.mpr h.owned.distinct
      have hgone : rs.foldl (fun i r => r.dismiss i .connectionClosed false) c.intake =
          qs.foldl (fun i r => r.dismiss i .connectionClosed false) c.intake :=
        Request.dismissals_perm h.level (hrs.trans hqs.symm) (fun r hr q hq hne b =>
          h.owned.streamsKept (hrs.mem_iff.mp hr) (hrs.mem_iff.mp hq) hne) .connectionClosed false
      have hstory (ss : List Request) (hss : ss.Perm c.streams) (s : StreamId) :=
        (teardown_story (c := c.reorder ss) (hids hss) htorn now s).1
      constructor
      · rw [teardown_eq (hids hrs) htorn, teardown_eq (hids hqs) htorn, hgone]
      · intro m
        rw [teardown_eq (hids hrs) htorn, teardown_eq (hids hqs) htorn]
        simp only [Metrics.recordAll_append]
        rw [Request.passings_recordAll (hrs.trans hqs.symm)]
      · intro s
        rw [hstory rs hrs, hstory qs hqs, find?_perm h.owned.distinct hrs,
          find?_perm h.owned.distinct hqs]
        rfl
      · rw [teardown_eq (hids hrs) htorn, teardown_eq (hids hqs) htorn]
        simp only [List.filter_append]
        exact ((Request.passings_perm (hrs.trans hqs.symm) hgone).append_right _).append_left _

/-- In whatever order the streams end with the transport, the same comes of it:
the connection, what was counted, what each stream was told and how often reading
was let on. -/
theorem teardown_order_free (id : ConnectionId) (protocol : Protocol) (config : Config)
    (hvalid : config.validate = .ok ()) (routes : Resolver) (handler : Handler) (start : Instant)
    (acts : List Act) (now : Instant) :
    let c := (create id protocol config routes handler start).live acts
    ∀ rs qs, rs.Perm c.streams → qs.Perm c.streams →
      let d := (c.reorder rs).teardown now
      let e := (c.reorder qs).teardown now
      EndsAlike d e ∧
        d.journal.count (.sink .resumeReads) = e.journal.count (.sink .resumeReads) := by
  intro c rs qs hrs hqs d e
  have hcomposed : Composed c :=
    live_kept Composed.act (composed_create id protocol hvalid routes handler start) acts
  have halike : EndsAlike d e := hcomposed.endsAlike hrs hqs now
  have hsignals := halike.told.count_eq (.sink .resumeReads)
  rw [List.count_filter rfl, List.count_filter rfl] at hsignals
  exact ⟨halike, hsignals⟩

/-- Two bodies that nobody took hold reading back, and with the one or the other
it goes on at another count. -/
theorem teardown_order_free_resumed :
    let config : Config := { marks := ⟨4, 2⟩ }
    let routes : Routes := [("/", ⟨"echo", .bidiStreaming, none, false⟩)]
    let acts : List Act := [.call ⟨.event (.headers 1 {} false), 0⟩,
      .call ⟨.event (.headers 3 {} false), 1⟩, .call ⟨.event (.setResponse 3 "page"), 2⟩,
      .call ⟨.event (.data 1 [7, 7, 7] false), 3⟩, .call ⟨.event (.data 3 [8, 8] false), 4⟩]
    let c := (create 1 .h2 config routes (fun _ _ => []) 0).live acts
    let back := c.reorder c.streams.reverse
    config.validate = .ok () ∧ c.streams.reverse.Perm c.streams ∧
      c.intake.gate.suspended = true ∧ (c.teardown 9).journal ≠ (back.teardown 9).journal ∧
      EndsAlike (c.teardown 9) (back.teardown 9) ∧
      (c.teardown 9).intake.gate.resumes = 1 := by
  intro config routes acts c back
  have hvalid : config.validate = .ok () := rfl
  have hperm : c.streams.reverse.Perm c.streams := c.streams.reverse_perm
  have halike := (teardown_order_free 1 .h2 config hvalid routes (fun _ _ => []) 0 acts 9
    c.streams c.streams.reverse (.refl _) hperm).1
  rw [reorder_self] at halike
  refine ⟨hvalid, hperm, ?_, ?_, halike, ?_⟩
  · decide +kernel
  · decide +kernel
  · decide +kernel

end Connection

end HttpLifecycle
