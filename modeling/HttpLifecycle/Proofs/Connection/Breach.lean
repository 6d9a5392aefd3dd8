import HttpLifecycle.Proofs.Connection.Handling
import HttpLifecycle.Proofs.Connection.Handover
import HttpLifecycle.Proofs.Connection.Hearing
import HttpLifecycle.Proofs.Connection.Overrun
import HttpLifecycle.Proofs.Connection.Quota
import HttpLifecycle.Proofs.Connection.Rejection
import HttpLifecycle.Proofs.Connection.Retirement

namespace HttpLifecycle

def Effect.count? : Effect → Option Counter
  | .count k => some k
  | _ => none

def resetsOf (es : List Effect) : List (StreamId × Nat) := es.filterMap Effect.reset?

theorem record?_inner (e : Effect) (h : e.inner = true) : e.record? = none := by
  cases e <;> first | rfl | contradiction

theorem handed?_inner (e : Effect) (h : e.inner = true) : e.handed? = none := by
  cases e <;> first | rfl | contradiction

theorem count?_inner (e : Effect) (h : e.inner = true) : e.count? = none := by
  cases e <;> first | rfl | contradiction

theorem count?_eq_some (k : Counter) (e : Effect) : e.count? = some k ↔ e = .count k := by
  cases e <;> simp [Effect.count?]

namespace Connection

variable {c d : Connection} {stream : StreamId} {r t q a : Request} {i j : Intake} {bytes : Bytes}
  {cause : AbortCause} {told : List Effect}

inductive Parting (c : Connection) (t : Request) (cause : AbortCause) :
    Request → Intake → List Effect → Prop
  | streamed (hmode : t.needsAggregation = false) : Parting c t cause t c.intake []
  | gathered {a : Request} {j : Intake} (actions : List Action)
      (ha : t.toAborted? c.intake cause = some (a, j)) :
      Parting c t cause (a.performAll j actions).state.1 (a.performAll j actions).state.2
        (.dispatch a :: (a.performAll j actions).events)

def expel (c : Connection) (r : Request) (now : Instant) : Connection :=
  ((c.write [.reset r.stream ErrorCode.cancel]).remove r.stream).retire r now

theorem expel_eq (h : c.find? r.stream = some r) (hreset : r.resetRequested = true)
    (now : Instant) :
    (if (c.find? r.stream).any (·.resetRequested) then c.write [.reset r.stream ErrorCode.cancel]
      else c).finishStream r.stream now = c.expel r now := by
  have hany : (c.find? r.stream).any (·.resetRequested) = true := by rw [h]; exact hreset
  have hfound : (c.write [.reset r.stream ErrorCode.cancel]).find? r.stream = some r := h
  rw [if_pos hany, finishStream, hfound]
  rfl

theorem expel_journal (c : Connection) (r : Request) (now : Instant) :
    (c.expel r now).journal = c.journal ++ .sink (.reset r.stream ErrorCode.cancel) ::
      ((r.discard c.intake).events ++ [.record (.ofRequest r now)]) := by
  show c.journal ++ [.sink (.reset r.stream ErrorCode.cancel)] ++ (r.discard c.intake).events ++
    [.record (.ofRequest r now)] = _
  simp

theorem remove_update (c : Connection) (r : Request) :
    ((c.update r).remove r.stream).streams = (c.remove r.stream).streams := by
  show (c.streams.map _).filter _ = c.streams.filter _
  induction c.streams with
  | nil => rfl
  | cons s rest ih =>
      rw [List.map_cons, List.filter_cons, List.filter_cons, ih]
      by_cases hid : s.stream = r.stream <;> simp [hid]

theorem put_gathering (h : c.find? q.stream = some t) (hmode : t.needsAggregation = true) :
    c.put q = c.update q := by
  have hkept : t.discard c.intake = ⟨c.intake, [], ()⟩ := by
    rw [Request.needsAggregation] at hmode
    rw [Request.discard]
    split
    · rename_i hstreaming
      simp [hstreaming] at hmode
    · rfl
  rw [put_taken h, hkept]
  simp [absorb, emit, update]

theorem report_eq (c : Connection) (r : Request) (e : Error) : ∃ n,
    (c.count .aggregationFailures).log .warn "request body rejected"
      [("connection_id", .num c.id), ("stream_id", .num r.stream), ("err", .text e.message)] =
        c.emit [.count .aggregationFailures, .note n] := by
  refine ⟨⟨.warn, "request body rejected",
    [("connection_id", .num c.id), ("stream_id", .num r.stream), ("err", .text e.message)]⟩, ?_⟩
  simp [count, log, emit]

theorem rejectBody_streaming_eq (h : c.find? t.stream = some t) (hcause : t.cause = some cause)
    (hreset : t.resetRequested = true) (hmode : t.needsAggregation = false) (e : Error)
    (now : Instant) :
    ∃ n, c.rejectBody t e now = (c.emit [.count .aggregationFailures, .note n]).expel t now := by
  obtain ⟨n, hreport⟩ := c.report_eq t e
  refine ⟨n, ?_⟩
  have hopen : (c.emit [.count .aggregationFailures, .note n]).find? t.stream = some t := h
  rw [rejectBody]
  simp only [hcause, hreport, t.toAborted?_streaming _ hmode]
  exact expel_eq hopen hreset now

theorem rejectBody_gathering_eq (h : c.find? t.stream = some t) (hcause : t.cause = some cause)
    (hreset : t.resetRequested = true) (hmode : t.needsAggregation = true)
    (ha : t.toAborted? c.intake cause = some (a, j)) (e : Error) (now : Instant) :
    let q := (a.performAll j (c.handler c.dispatched a)).state.1
    ∃ n, c.rejectBody t e now = (({ c.emit [.count .aggregationFailures, .note n] with
      intake := j }.dispatch a).1.update q).expel q now := by
  intro q
  obtain ⟨n, hreport⟩ := c.report_eq t e
  refine ⟨n, ?_⟩
  let e :=
    ({ c.emit [.count .aggregationFailures, .note n] with intake := j } : Connection).dispatch a
  have hkept : q.stream = t.stream :=
    (a.sameOpening_performAll _ _).stream.trans (Request.sameOpening_toAborted ha).stream
  have hkeeps : q.resetRequested = true := by
    obtain ⟨hcopy, -⟩ := Request.toAborted_eq ha
    rw [(a.sameEnd_performAll _ _ (Request.terminal_toAborted ha)).reset, hcopy]
    exact hreset
  have hold : e.1.find? q.stream = some t := hkept ▸ h
  have hleaves := expel_eq (find?_update hold) hkeeps now
  rw [hkept, ← put_gathering hold hmode] at hleaves
  have ha' : t.toAborted? (c.emit [.count .aggregationFailures, .note n]).intake cause =
    some (a, j) := ha
  rw [rejectBody]
  simp only [hcause, hreport, ha']
  rw [← put_gathering hold hmode]
  exact hleaves

theorem rejectBody_parting (h : c.find? t.stream = some t) (hcause : t.cause = some cause)
    (hreset : t.resetRequested = true) (e : Error) (now : Instant) :
    ∃ q i told n, Parting c t cause q i told ∧
      (c.rejectBody t e now).journal = c.journal ++ (.count .aggregationFailures :: .note n ::
        (told ++ .sink (.reset t.stream ErrorCode.cancel) ::
          ((q.discard i).events ++ [.record (.ofRequest q now)]))) ∧
      (c.rejectBody t e now).intake = (q.discard i).state ∧
      (c.rejectBody t e now).streams = (c.remove t.stream).streams := by
  cases hmode : t.needsAggregation with
  | false =>
      obtain ⟨n, hreject⟩ := rejectBody_streaming_eq h hcause hreset hmode e now
      refine ⟨t, c.intake, [], n, .streamed hmode, ?_, ?_, ?_⟩
      · rw [hreject, expel_journal]
        simp [emit]
      · rw [hreject]
        rfl
      · rw [hreject]
        rfl
  | true =>
      obtain ⟨a, j, ha, hstream⟩ := t.toAborted?_gathering c.intake hmode cause
      obtain ⟨n, hreject⟩ := rejectBody_gathering_eq h hcause hreset hmode ha e now
      have hkept : (a.performAll j (c.handler c.dispatched a)).state.1.stream = t.stream :=
        (a.sameOpening_performAll _ _).stream.trans hstream
      refine ⟨_, _, _, n, .gathered (c.handler c.dispatched a) ha, ?_, ?_, ?_⟩
      · rw [hreject, expel_journal, hkept]
        simp [emit, dispatch, update]
      · rw [hreject]
        rfl
      · rw [hreject, ← hkept]
        exact remove_update _ _

namespace Parting

theorem sameOpening (h : Parting c t cause q i told) : t.SameOpening q := by
  cases h with
  | streamed => exact .refl t
  | gathered actions ha =>
      exact (Request.sameOpening_toAborted ha).trans (Request.sameOpening_performAll _ _ _)

theorem ends (h : Parting c t cause q i told) (hcause : t.cause = some cause) :
    q.cause = some cause ∧ q.received = t.received := by
  cases h with
  | streamed => exact ⟨hcause, rfl⟩
  | @gathered a j actions ha =>
      obtain ⟨hcopy, -⟩ := Request.toAborted_eq ha
      have hkept := a.sameEnd_performAll j actions (Request.terminal_toAborted ha)
      rw [hkept.cause, a.received_performAll, hcopy]
      exact ⟨rfl, rfl⟩

theorem handed (h : Parting c t cause q i told) :
    told = [] ∨ ∃ a es, told = .dispatch a :: es ∧ Inner es := by
  cases h with
  | streamed => exact .inl rfl
  | @gathered a j actions ha => exact .inr ⟨a, _, rfl, a.inner_performAll j actions⟩

theorem within (h : Parting c t cause q i told) : Within t.stream told := by
  cases h with
  | streamed => exact within_nil
  | @gathered a j actions ha =>
      rw [← (Request.sameOpening_toAborted ha).stream]
      exact within_cons (fun s hs => (beq_iff_eq.mp hs).symm) (a.within_performAll j actions)

theorem heard (h : Parting c t cause q i told) (hcause : t.cause = some cause) {a : Audience}
    (ht : t.Heard a) : q.Heard (a.after (hearingsOf told)) := by
  cases h with
  | streamed => exact ht
  | gathered actions ha => exact (ht.toAborted hcause ha).performAll _ actions

theorem unrecorded (h : Parting c t cause q i told) (k : Option AbortCause) :
    .recorded k ∉ hearingsOf told := by
  rcases h.handed with rfl | ⟨a, es, rfl, hes⟩
  · exact List.not_mem_nil
  · exact hes.unrecorded k

theorem filterMap (h : Parting c t cause q i told) {α : Type} {f : Effect → Option α}
    (hf : ∀ e : Effect, e.inner = true → f e = none) :
    told.filterMap f = ((handedOf told).filterMap fun a => f (.dispatch a)) := by
  rcases h.handed with rfl | ⟨a, es, rfl, hes⟩
  · rfl
  · have hnone : es.filterMap f = [] :=
      List.filterMap_eq_nil_iff.mpr fun e he => hf e (hes e he)
    have hone : handedOf (.dispatch a :: es) = [a] := congrArg (a :: ·) hes.handedOf
    rw [hone, List.filterMap_cons, hnone]
    rfl

theorem spares (h : Parting c t cause q i told) {own : BodyId → Prop}
    (hbody : ∀ b, t.body? = some b → own b) (hnew : ∀ b, c.intake.channels.length ≤ b → own b)
    (htaken : ∀ b, c.intake.taken.lookup t.stream = some b → own b) :
    c.intake.Spares own (q.discard i).state := by
  cases h with
  | streamed => exact Request.spares_discard hbody
  | @gathered a j actions ha =>
      obtain ⟨-, hown, hj⟩ := Request.toAborted_fills ha
      have hfailed (b : BodyId) (hb : a.body? = some b) : own b := by
        obtain rfl := Option.some.inj (hown.symm.trans hb)
        exact hnew _ (Nat.le_refl _)
      have hserved : a.Fills (fun _ => false) j (a.performAll j actions).state :=
        Request.fills_performAll actions fun _ _ => rfl
      have hadded : c.intake.Spares own j := by
        rw [hj]
        exact Intake.spares_add hnew _
      have hkept : ∀ b, j.taken.lookup a.stream = some b → own b := by
        rw [(Request.sameOpening_toAborted ha).stream, hj]
        exact htaken
      have hhandled := Request.spares_performAll hfailed hkept actions
      exact (hadded.trans hhandled).trans
        (Request.spares_discard fun b hb => hfailed b (hserved.body ▸ hb))

theorem failed (h : Parting c t cause q i told) (hmode : t.needsAggregation = true) :
    ∃ a, t.toAborted? c.intake cause =
        some (a, (c.intake.add { queue := [.failed cause], writable := false }).1) ∧
      handedOf told = [a] ∧
      ∃ left, (q.discard i).state.channels[c.intake.channels.length]? = some left ∧
        (left = { queue := [.failed cause], writable := false } ∨ left.held = false) := by
  cases h with
  | streamed hstreams =>
      rw [hmode] at hstreams
      contradiction
  | @gathered a j actions ha =>
      obtain ⟨-, hown, hj⟩ := Request.toAborted_fills ha
      have hserved : a.Fills (fun _ => false) j (a.performAll j actions).state :=
        Request.fills_performAll actions fun _ _ => rfl
      have hclosed : ∀ b, (a.performAll j actions).state.1.body? = some b →
          (a.performAll j actions).state.2.writable b = false := fun b hb => by
        rw [hserved.body, hown] at hb
        obtain rfl := Option.some.inj hb
        refine hserved.intake.unwritable ?_
        rw [hj]
        exact Intake.add_failed (Nat.le_refl _)
      have hfailed : j.channels[c.intake.channels.length]? =
          some { queue := [.failed cause], writable := false } := by
        rw [hj]
        exact List.getElem?_concat_length
      obtain ⟨left, hleft, hfares⟩ := (hserved.discarded hclosed).fares hfailed
      refine ⟨a, hj ▸ ha, congrArg (a :: ·) (a.inner_performAll j actions).handedOf, left, hleft,
        ?_⟩
      cases hfares with
      | stays => exact .inl rfl
      | lost hlost => exact .inr hlost
      | fills more hw | ends more cause hw => contradiction

end Parting

/-- What a frame leaves behind that took a body over its limit: one reset, one
record, one count, everybody who was bound has heard, and where the body was
gathered the service was given the failure. -/
structure Breach (c : Connection) (r : Request) (cause : AbortCause) (total : Nat)
    (es : List Effect) (d : Connection) : Prop where
  frame : d = { c with
    monitor := d.monitor
    streams := c.streams.filter (·.stream != r.stream)
    intake := d.intake
    dispatched := d.dispatched
    journal := c.journal ++ es }
  within : Within r.stream es
  reset : resetsOf es = [(r.stream, ErrorCode.cancel)]
  record : ∃ a, recordsOf es = [a] ∧ a.stream = r.stream ∧ a.cause = some cause ∧ a.length = total
  heard : ({ bound := r.response.toList } : Audience).Served (hearingsOf es)
  counts : ∀ k, es.count (.count k) = if k = .aggregationFailures then 1 else 0
  streamed : r.needsAggregation = false → handedOf es = []
  gathered : r.needsAggregation = true →
    let body := c.intake.channels.length
    let failed : Channel := { queue := [.failed cause], writable := false }
    let a : Request := { r with
      received := total
      response := none
      cause := some cause
      resetRequested := true
      mode := .streaming body true }
    handedOf es = [a] ∧ a.state = .aborted ∧
      Request.OnlyFails cause body (a, (c.intake.add failed).1) ∧
      ∃ left, d.intake.channels[body]? = some left ∧ (left = failed ∨ left.held = false)
  bodies : ∀ b < c.intake.channels.length, r.body? ≠ some b →
    c.intake.taken.lookup r.stream ≠ some b → d.intake.channels[b]? = c.intake.channels[b]?

theorem ShutdownKept.frame (h : ShutdownKept c d) : d = { c with
    streams := d.streams
    intake := d.intake
    dispatched := d.dispatched
    journal := d.journal } := by
  cases h
  rfl

def breachEffects (r : Request) (cause : AbortCause) (n m : Note) (told : List Effect) (q : Request)
    (i : Intake) (now : Instant) : List Effect :=
  .note n :: (r.tells cause ++ (.count .aggregationFailures :: .note m :: (told ++
    .sink (.reset r.stream ErrorCode.cancel) ::
      ((q.discard i).events ++ [.record (.ofRequest q now)]))))

section BreachEffects

variable {n m : Note} {now : Instant}

theorem filterMap_breachEffects {α : Type} {f : Effect → Option α}
    (hf : ∀ e : Effect, e.inner = true → f e = none) (h : Parting c t cause q i told) :
    (breachEffects r cause n m told q i now).filterMap f =
      (f (.count .aggregationFailures)).toList ++
        (handedOf told).filterMap (fun a => f (.dispatch a)) ++
        (f (.sink (.reset r.stream ErrorCode.cancel))).toList ++
        (f (.record (.ofRequest q now))).toList := by
  have hnone {es : List Effect} (hes : Inner es) : es.filterMap f = [] :=
    List.filterMap_eq_nil_iff.mpr fun e he => hf e (hes e he)
  have hcons (e : Effect) (es : List Effect) :
      (e :: es).filterMap f = (f e).toList ++ es.filterMap f := by
    rw [List.filterMap_cons]
    cases f e <;> rfl
  rw [breachEffects, hcons, List.filterMap_append, hnone (r.inner_tells cause), hcons, hcons,
    List.filterMap_append, hcons, List.filterMap_append, hnone (q.inner_discard i), hcons,
    h.filterMap hf, hf (.note n) rfl, hf (.note m) rfl]
  simp

theorem resetsOf_breachEffects (h : Parting c t cause q i told) :
    resetsOf (breachEffects r cause n m told q i now) = [(r.stream, ErrorCode.cancel)] := by
  rw [resetsOf, filterMap_breachEffects Effect.reset_overlooked.inner h]
  simp [Effect.reset?]

theorem recordsOf_breachEffects (h : Parting c t cause q i told) :
    recordsOf (breachEffects r cause n m told q i now) = [.ofRequest q now] := by
  rw [recordsOf, filterMap_breachEffects record?_inner h]
  simp [Effect.record?]

theorem handedOf_breachEffects (h : Parting c t cause q i told) :
    handedOf (breachEffects r cause n m told q i now) = handedOf told := by
  rw [handedOf, filterMap_breachEffects handed?_inner h]
  simp [Effect.handed?]

theorem count_breachEffects (h : Parting c t cause q i told) (k : Counter) :
    (breachEffects r cause n m told q i now).count (.count k) =
      if k = .aggregationFailures then 1 else 0 := by
  rw [← count_shown (count?_eq_some k), filterMap_breachEffects count?_inner h]
  by_cases hk : k = .aggregationFailures
  · simp [Effect.count?, hk]
  · simp [Effect.count?, hk, Ne.symm hk]

theorem within_breachEffects (h : Parting c t cause q i told) (hid : t.stream = r.stream) :
    Within r.stream (breachEffects r cause n m told q i now) := by
  have htells : Within r.stream (r.tells cause) := fun e he s hs => by
    obtain ⟨tag, -, rfl⟩ := List.mem_map.mp he
    exact (beq_iff_eq.mp hs).symm
  have hgone : Within r.stream (q.discard i).events :=
    within_of_storyOf fun s => q.storyOf_discard i
  have hrecord : Within r.stream [.record (.ofRequest q now)] := by
    rw [← hid, ← h.sameOpening.stream]
    exact within_cons (fun s hs => (beq_iff_eq.mp hs).symm) within_nil
  refine within_cons (fun s hs => by contradiction) (within_append htells ?_)
  refine within_cons (fun s hs => by contradiction) (within_cons (fun s hs => by contradiction) ?_)
  refine within_append (hid ▸ h.within) (within_cons (fun s hs => (beq_iff_eq.mp hs).symm) ?_)
  exact within_append hgone hrecord

theorem heard_breachEffects (h : Parting c t cause q i told) (hlive : r.terminal = false)
    (hcause : t.cause = some cause) (hresponse : t.response = r.response) :
    ({ bound := r.response.toList } : Audience).Served
      (hearingsOf (breachEffects r cause n m told q i now)) := by
  have hopen : r.cause = none := Request.cause_of_live hlive
  have hr : r.Heard { bound := r.response.toList } :=
    ⟨by rw [hopen]; exact .refl [], fun _ => rfl⟩
  have ht :
      t.Heard (Audience.after { bound := r.response.toList } (hearingsOf (r.tells cause))) := by
    obtain ⟨note, hfail⟩ := Request.fail_noted hlive cause true
    have hfailed := hr.fail cause true
    rw [hfail] at hfailed
    exact hfailed.same hcause hresponse
  have hq := h.heard hcause ht
  rw [← Audience.after_append] at hq
  have hgone : hearingsOf (q.discard i).events = [] := by
    have hsilent : Within q.stream (q.discard i).events :=
      within_of_storyOf fun s => q.storyOf_discard i
    rw [← hearingsOf_within hsilent, q.storyOf_discard i]
    rfl
  have hall : hearingsOf (breachEffects r cause n m told q i now) =
      hearingsOf (r.tells cause) ++ hearingsOf told ++ [.recorded q.cause] := by
    show hearingsOf (r.tells cause ++ _) = _
    rw [hearingsOf_append, List.append_assoc]
    congr 1
    show hearingsOf (told ++ _) = _
    rw [hearingsOf_append]
    congr 1
    show hearingsOf ((q.discard i).events ++ _) = _
    rw [hearingsOf_append, hgone]
    rfl
  rw [hall]
  refine (Hears.leaves (fun k hmem => ?_) hq).served
  rcases List.mem_append.mp hmem with hmem | hmem
  · exact (r.inner_tells cause).unrecorded k hmem
  · exact h.unrecorded k hmem

end BreachEffects

def overfilled (c : Connection) (r : Request) (total : Nat) (n : Note) (now : Instant) :
    Connection :=
  let cause : AbortCause := .limitExceeded r.limit total
  ({ c with
    monitor := c.monitor.activity now .data
    intake := r.shut c.intake cause
    journal := c.journal ++ .note n :: r.tells cause } : Connection).update (r.spilt total)

section Overfilled

variable {total : Nat} {n : Note} {now : Instant}

theorem onData_overfilled (hr : c.find? r.stream = some r)
    (hreceiving : r.receiving c.intake = true)
    (htotal : Word.saturate (r.received + bytes.length) = total)
    (hover : 0 < r.limit ∧ r.limit < total) (last : Bool) (now : Instant) : ∃ n,
    c.onData r.stream bytes last now =
      ((c.overfilled r total n now).rejectBody (r.spilt total) (.limitExceeded r.limit total) now,
        .error (.limitExceeded r.limit total)) := by
  obtain ⟨n, hdata⟩ := Request.onData_spilt hreceiving htotal hover last
  exact ⟨n, by rw [onData_eq hr, hdata]; rfl⟩

theorem overfilled_find? (hr : c.find? r.stream = some r) :
    (c.overfilled r total n now).find? (r.spilt total).stream = some (r.spilt total) := by
  have hold : c.find? (r.spilt total).stream = some r := hr
  exact find?_update hold

theorem handed_overfilled
    (h : Parting (c.overfilled r total n now) (r.spilt total) (.limitExceeded r.limit total)
      q i told)
    (hlive : r.terminal = false) (hmode : r.needsAggregation = true) :
    let body := c.intake.channels.length
    let cause : AbortCause := .limitExceeded r.limit total
    let failed : Channel := { queue := [.failed cause], writable := false }
    let a : Request := { r with
      received := total
      response := none
      cause := some cause
      resetRequested := true
      mode := .streaming body true }
    handedOf told = [a] ∧ Request.OnlyFails cause body (a, (c.intake.add failed).1) ∧
      ∃ left, (q.discard i).state.channels[body]? = some left ∧
        (left = failed ∨ left.held = false) := by
  have hsame : (c.overfilled r total n now).intake = c.intake := by
    show r.shut c.intake _ = c.intake
    rw [Request.shut, Request.body?_gathering hmode]
  obtain ⟨a, ha, hone, left, hleft, hcases⟩ := h.failed ((r.spilt_gathers total).trans hmode)
  rw [hsame] at ha hleft
  have hcompleted : r.completed = false := (Bool.or_eq_false_iff.mp hlive).1
  obtain ⟨hcopy, -⟩ := Request.toAborted_eq ha
  have hcopied : a = { r with
      received := total
      response := none
      cause := some (.limitExceeded r.limit total)
      resetRequested := true
      mode := .streaming c.intake.channels.length true } := by
    rw [hcopy, hcompleted]
    rfl
  intro body cause failed a'
  obtain rfl : a = a' := hcopied
  exact ⟨hone, Request.onlyFails_toAborted ha, left, hleft, hcases⟩

theorem spares_overfilled
    (h : Parting (c.overfilled r total n now) (r.spilt total) (.limitExceeded r.limit total)
      q i told)
    {own : BodyId → Prop} (hbody : ∀ b, r.body? = some b → own b)
    (hnew : ∀ b, c.intake.channels.length ≤ b → own b)
    (htaken : ∀ b, c.intake.taken.lookup r.stream = some b → own b) :
    c.intake.Spares own (q.discard i).state := by
  obtain ⟨hsize, hkept⟩ := r.shut_size c.intake (.limitExceeded r.limit total)
  have hshut : c.intake.Spares own (c.overfilled r total n now).intake :=
    Request.spares_shut hbody c.intake _
  refine hshut.trans (h.spares (fun b hb => hbody b ?_) (fun b hb => hnew b ?_)
    (fun b hb => htaken b ?_))
  · rwa [Request.spilt_body] at hb
  · exact hsize ▸ hb
  · rw [← hkept]
    exact hb

end Overfilled

theorem onData_breach {total : Nat} (hr : c.find? r.stream = some r)
    (hreceiving : r.receiving c.intake = true)
    (htotal : Word.saturate (r.received + bytes.length) = total)
    (hover : 0 < r.limit ∧ r.limit < total) (last : Bool) (now : Instant) :
    (c.onData r.stream bytes last now).2 = .error (.limitExceeded r.limit total) ∧
      ∃ es, Breach c r (.limitExceeded r.limit total) total es
        (c.onData r.stream bytes last now).1 := by
  have hlive : r.terminal = false := by
    have hboth := (Bool.and_eq_true_iff.mp hreceiving).1
    simpa using hboth
  obtain ⟨n, hdata⟩ := onData_overfilled hr hreceiving htotal hover last now
  have hfound : (c.overfilled r total n now).find? (r.spilt total).stream = some (r.spilt total) :=
    overfilled_find? hr
  rw [hdata]
  refine ⟨rfl, ?_⟩
  obtain ⟨q, i, told, m, hparting, hjournal, hintake, hstreams⟩ :=
    rejectBody_parting hfound rfl rfl (.limitExceeded r.limit total) now
  have hframe := ShutdownKept.frame
    (StreamSteps.shutdownKept (.rejectBody hfound (.limitExceeded r.limit total) now))
  generalize rejectBody _ (r.spilt total) _ now = d at *
  have hwhole :
      d.journal = c.journal ++ breachEffects r (.limitExceeded r.limit total) n m told q i now := by
    rw [hjournal]
    show c.journal ++ .note n :: r.tells _ ++ _ = _
    rw [List.append_assoc]
    rfl
  have hkept : d.streams = c.streams.filter (·.stream != r.stream) :=
    hstreams.trans (remove_update _ _)
  rw [hwhole, hkept] at hframe
  obtain ⟨hcause, hreceived⟩ := hparting.ends rfl
  refine ⟨breachEffects r (.limitExceeded r.limit total) n m told q i now, ?_,
    within_breachEffects hparting rfl, resetsOf_breachEffects hparting,
    ⟨.ofRequest q now, recordsOf_breachEffects hparting, hparting.sameOpening.stream, hcause,
      hreceived⟩,
    heard_breachEffects hparting hlive rfl rfl, count_breachEffects hparting, fun hmode => ?_,
    fun hmode => ?_, fun b hb hbody htaken => ?_⟩
  · have hmonitor : d.monitor = c.monitor.activity now .data := by
      rw [hframe]
      rfl
    rw [hmonitor]
    exact hframe
  · rw [handedOf_breachEffects hparting]
    cases hparting with
    | streamed => rfl
    | gathered actions ha =>
        rw [Request.toAborted?_streaming _ _ ((r.spilt_gathers total).trans hmode)] at ha
        contradiction
  · obtain ⟨hone, hfails, hleft⟩ := handed_overfilled hparting hlive hmode
    rw [hintake, handedOf_breachEffects hparting]
    exact ⟨hone, rfl, hfails, hleft⟩
  · rw [hintake]
    let own (b : BodyId) : Prop := r.body? = some b ∨ c.intake.channels.length ≤ b ∨
      c.intake.taken.lookup r.stream = some b
    have hspared : c.intake.Spares own (q.discard i).state :=
      spares_overfilled hparting (fun _ h => .inl h) (fun _ h => .inr (.inl h))
        (fun _ h => .inr (.inr h))
    refine hspared b ?_
    rintro (hown | hfresh | hlent)
    · exact hbody hown
    · omega
    · exact htaken hlent

theorem Fate.kept {P : Request → Prop} {s : StreamId} {x : Call} {es : List Effect}
    {new : Option Request} (hf : Fate c s x es new)
    (hstays : ∀ r t : Request, r.SameOpening t → P r → P t)
    (hopens : ∀ headers last,
      P (Request.ofOpening (c.opening s headers last x.now) c.intake).1)
    (h : ∀ r, c.find? s = some r → P r) : ∀ r, new = some r → P r := by
  intro q hq
  cases hf with
  | spared | refused => exact h q hq
  | @opened headers last r hx hopen hr =>
      obtain rfl := Option.some.inj hq
      exact hr ▸ hopens headers last
  | @served headers last r i actions hx hopen hr =>
      obtain rfl := Option.some.inj hq
      exact hstays r _ (r.sameOpening_performAll i actions) (hr ▸ hopens headers last)
  | @bound tag r hx hr =>
      obtain rfl := Option.some.inj hq
      exact hstays r _ (r.sameOpening_bind tag) (h r hr)
  | @fed bytes last r t hx hr ht =>
      obtain rfl := Option.some.inj hq
      exact hstays r t (ht ▸ r.sameOpening_onData c.intake bytes last) (h r hr)
  | @gathered bytes last r t i actions hx hr ht =>
      obtain rfl := Option.some.inj hq
      have hfed : r.SameOpening t := ht ▸ r.sameOpening_onData c.intake bytes last
      exact hstays r _ (hfed.trans (t.sameOpening_performAll i actions)) (h r hr)
  | burst | overrun | completed | cancelled | ended => contradiction

theorem allowance_ofOpening (o : Request.Opening) (i : Intake) :
    (Request.ofOpening o i).1.limit = (Request.ofOpening o i).1.allowance o.defaultLimit := by
  cases hservice : o.service with
  | none => simp [Request.ofOpening, Request.allowance, hservice]
  | some service =>
      simp only [Request.ofOpening, hservice]
      split
      · simp [Request.allowance]
      · split <;> simp [Request.allowance]

/-- Every request that is open has the limit of its service, or else the one
of the connection. -/
structure Metered (limit : Nat) (c : Connection) : Prop where
  coherent : Coherent c
  distinct : Distinct c
  standard : c.defaultLimit = limit
  requests : ∀ s r, c.find? s = some r → r.limit = r.allowance limit

namespace Metered

variable {limit : Nat}

theorem after (h : Metered limit c) (x : Call) : Metered limit (c.after x) where
  coherent := invariant_coherent.after h.coherent h.coherent x
  distinct := after_distinct h.distinct x
  standard := ((invariant_served c.routes limit).after h.coherent ⟨rfl, h.standard⟩ x).2
  requests s := by
    obtain ⟨es, -, hf⟩ := after_fate h.distinct s x
    have hstays (r t : Request) (hstays : r.SameOpening t) (hr : r.limit = r.allowance limit) :
        t.limit = t.allowance limit := by
      cases hstays
      exact hr
    refine fun r => hf.kept hstays (fun headers last => ?_) (h.requests s) r
    rw [← h.standard]
    exact allowance_ofOpening (c.opening s headers last x.now) c.intake

theorem act (h : Metered limit c) (a : Act) : Metered limit (c.act a) := by
  cases a with
  | call x => exact h.after x
  | _ => exact ⟨{ h.coherent with }, h.distinct, h.standard, h.requests⟩

end Metered

theorem metered_create (id : ConnectionId) (protocol : Protocol) (config : Config)
    (routes : Resolver) (handler : Handler) (start : Instant) :
    Metered config.maxRequestLength (create id protocol config routes handler start) where
  coherent := coherent_create id protocol config routes handler start
  distinct := distinct_create id protocol config routes handler start
  standard := rfl
  requests s r h := by contradiction

/-- The stream is not let in again. -/
def Shuns (s : StreamId) : Connection → List Act → Prop
  | _, [] => True
  | c, a :: rest => (∀ x, a = .call x → c.admission? x ≠ some s) ∧ Shuns s (c.act a) rest

theorem shuns_vacant {s : StreamId} (hd : Distinct c) (h : c.find? s = none) {acts : List Act}
    (hshuns : Shuns s c acts) : (c.live acts).find? s = none := by
  induction acts generalizing c with
  | nil => exact h
  | cons a rest ih =>
      obtain ⟨hclosed, hrest⟩ := hshuns
      refine ih (act_distinct hd a) ?_ hrest
      cases a with
      | call x =>
          obtain ⟨es, -, hf⟩ := after_fate hd s x
          exact (hf.vacant h (hclosed x rfl)).1
      | _ => exact h

theorem Breach.tallied {total : Nat} {es : List Effect} (h : Breach c r cause total es d)
    (k : Counter) : d.tallied k = c.tallied k + if k = .aggregationFailures then 1 else 0 := by
  rw [tallied_eq, tallied_eq, h.frame]
  show (c.journal ++ es).count _ = _
  rw [List.count_append, h.counts]

theorem Breach.vacant {total : Nat} {es : List Effect} (h : Breach c r cause total es d) :
    d.find? r.stream = none := by
  rw [h.frame]
  exact find?_remove c r.stream

theorem onData_isOk {s : StreamId} (h : c.find? s = some r) (bytes : Bytes) (last : Bool)
    (now : Instant) :
    (c.onData s bytes last now).2.isOk = (r.onData c.intake bytes last).result.isOk := by
  rw [onData_eq h]
  cases hresult : (r.onData c.intake bytes last).result with
  | ok _ =>
      simp only [hresult]
      split <;> rfl
  | error e => simp only [hresult]

/-- A frame fails only if it takes a body that is still coming in over its
limit. Then the stream is reset and goes on record, all that were bound to it
hear why, the service that waits for the whole body is given the failure
instead, and nothing else is touched. From then on nobody knows the stream,
unless it is let in again. -/
theorem limit_breach_contained (id : ConnectionId) (protocol : Protocol) (config : Config)
    (routes : Resolver) (handler : Handler) (start : Instant) (acts : List Act) (r : Request)
    (bytes : Bytes) (last : Bool) (now : Instant) :
    let c := (create id protocol config routes handler start).live acts
    let limit := r.allowance config.maxRequestLength
    let total := r.received + bytes.length
    let x : Call := ⟨.event (.data r.stream bytes last), now⟩
    let exceeds := r.receiving c.intake = true ∧ 0 < limit ∧ limit < total
    c.find? r.stream = some r → total < Word.size →
      ((c.perform x).2.isOk = false ↔ exceeds) ∧
      (exceeds →
        (c.perform x).2 = .error (.limitExceeded limit total) ∧
        (∃ es, Breach c r (.limitExceeded limit total) total es (c.after x)) ∧
        (∀ k, (c.after x).tallied k =
          c.tallied k + if k = .aggregationFailures then 1 else 0) ∧
        ∀ later e at_, Shuns r.stream (c.after x) later → e.wanted? = some r.stream →
          (((c.after x).live later).perform ⟨.event e, at_⟩).2 =
            .error (.unknownStream r.stream)) := by
  intro c limit total x exceeds hr hsize
  have hmetered : Metered config.maxRequestLength c :=
    live_kept Metered.act (metered_create id protocol config routes handler start) acts
  have hlimit : r.limit = limit := hmetered.requests r.stream r hr
  have htotal : Word.saturate (r.received + bytes.length) = total := Word.saturate_of_lt hsize
  constructor
  · have hsame : (c.perform x).2.isOk = (r.onData c.intake bytes last).result.isOk :=
      onData_isOk hr bytes last now
    rw [hsame, r.onData_fails_iff, htotal, hlimit]
  · rintro ⟨hreceiving, hover⟩
    rw [← hlimit] at hover ⊢
    obtain ⟨hresult, es, hbreach⟩ := onData_breach hr hreceiving htotal hover last now
    refine ⟨hresult, ⟨es, hbreach⟩, hbreach.tallied, fun later e at_ hshuns hwanted => ?_⟩
    have hlater := shuns_vacant (after_distinct hmetered.distinct x) hbreach.vacant hshuns
    obtain ⟨d, hperform, -⟩ := perform_vacant hwanted hlater at_
    rw [hperform]

/-- The second frame takes a body over the three bytes that its service allows.
The handler binds a response to what it is given. -/
theorem limit_breach_contained_gathered :
    let service : Service := ⟨"up", .unary, some 3, false⟩
    let acts : List Act := [.call ⟨.event (.headers 1 { path := "/up" } false), 1⟩,
      .call ⟨.event (.data 1 [7] false), 2⟩]
    let c := (create 1 .h2 {} (Routes.resolver [("/up", service)])
      (fun _ _ => [.bind "late"]) 0).live acts
    let r : Request := {
      connection := 1
      stream := 1
      headers := { path := "/up" }
      keepAlive := c.state == .active
      exchange := .unary
      service := some service
      limit := 3
      startedAt := 1
      received := 1
      mode := .aggregating [7] false false }
    let x : Call := ⟨.event (.data 1 [8, 9, 9] false), 3⟩
    c.find? 1 = some r ∧ r.receiving c.intake = true ∧
      (c.perform x).2 = .error (.limitExceeded 3 4) ∧
      (∃ es, Breach c r (.limitExceeded 3 4) 4 es (c.after x)) ∧
      (c.after x).tallied .aggregationFailures = c.tallied .aggregationFailures + 1 ∧
      ((c.after x).perform ⟨.event (.reset 1 0), 4⟩).2 = .error (.unknownStream 1) := by
  intro service acts c r x
  have hr : c.find? r.stream = some r := by decide +kernel
  have hreceiving : r.receiving c.intake = true := by decide +kernel
  obtain ⟨hresult, hbreach, htallied, hlater⟩ :=
    (limit_breach_contained 1 .h2 {} (Routes.resolver [("/up", service)])
      (fun _ _ => [.bind "late"]) 0 acts r
      [8, 9, 9] false 3 hr (by decide)).2 ⟨hreceiving, by decide, by decide⟩
  exact ⟨hr, hreceiving, hresult, hbreach, htallied .aggregationFailures,
    hlater [] (.reset 1 0) 4 trivial rfl⟩

end Connection

end HttpLifecycle
