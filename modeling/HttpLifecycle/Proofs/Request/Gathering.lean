import HttpLifecycle.Proofs.Request.Streaming

namespace HttpLifecycle.Request

namespace Course

variable {c : Course} {limit : Nat}

theorem content_next (c : Course) (limit : Nat) (x : Call) :
    (c.next limit x).content.length ≤ c.content.length + x.payload.length := by
  rw [next]
  split
  · exact Nat.le_add_right _ _
  · cases x with
    | frame bytes last =>
        rw [advance]
        split
        · exact Nat.le_add_right _ _
        · rw [content_append, List.length_append]
          exact Nat.le_refl _
    | bind | abort | complete | takeBody | takeAggregated | read => exact Nat.le_add_right _ _

theorem content_after (c : Course) (limit : Nat) (xs : List Call) :
    (c.after limit xs).content.length ≤ c.content.length + volume xs := by
  induction xs generalizing c with
  | nil => exact Nat.le_refl _
  | cons x rest ih =>
      calc ((c.next limit x).after limit rest).content.length
          ≤ (c.next limit x).content.length + volume rest := ih _
        _ ≤ c.content.length + x.payload.length + volume rest :=
          Nat.add_le_add_right (c.content_next limit x) _
        _ = c.content.length + volume (x :: rest) := by
          simp only [volume, List.flatMap_cons, List.length_append]
          omega

def Within (limit : Nat) (c : Course) : Prop :=
  0 < limit → Word.saturate c.content.length ≤ limit

theorem Within.next (h : c.Within limit) (x : Call) : (c.next limit x).Within limit := by
  rw [Course.next]
  split
  · exact h
  · cases x with
    | frame bytes last =>
        rw [advance]
        split
        · exact h
        · rename_i hroom
          intro hlimit
          rw [content_append, ← total_eq]
          omega
    | bind | abort | complete | takeBody | takeAggregated | read => exact h

theorem Within.after (h : c.Within limit) (xs : List Call) : (c.after limit xs).Within limit := by
  induction xs generalizing c with
  | nil => exact h
  | cons x rest ih => exact ih (h.next x)

end Course

variable {c : Course} {r s : Request} {i : Intake} {b : BodyId} {limit : Nat} {given : List Bytes}

theorem abort_gathering {buffer : Bytes} {complete taken : Bool}
    (hmode : r.mode = .aggregating buffer complete taken) (hlive : r.terminal = false)
    (cause : AbortCause) (reset : Bool) :
    (r.abort i cause reset).state =
      ({ r with
          cause := some cause
          resetRequested := reset
          mode := .aggregating [] complete taken }, i) := by
  obtain ⟨es, hfail⟩ := fail_live hlive cause reset
  rw [abort, hfail]
  simp only [hmode, if_true]

inductive Keeps (c : Course) (given : List Bytes) (r : Request) : Prop
  | kept (buffer : Bytes) (hmode : r.mode = .aggregating buffer (c.close == some .whole) false)
      (hbuffer : r.cause = none → buffer = c.content) (hgiven : given = [])
  | handed (buffer : Bytes) (hmode : r.mode = .aggregating buffer true true)
      (hclose : c.close = some .whole) (hgiven : given = [c.content])

/-- A request that gathers its body and what it has handed out are as far as the
calls. -/
structure Gathers (limit : Nat) (c : Course) (given : List Bytes) (r : Request) : Prop where
  limit : r.limit = limit
  status : Status c r
  keeps : Keeps c given r

namespace Keeps

theorem gathering (h : Keeps c given r) :
    ∃ buffer taken, r.mode = .aggregating buffer (c.close == some .whole) taken := by
  cases h with
  | kept buffer hmode => exact ⟨buffer, false, hmode⟩
  | handed buffer hmode hclose => exact ⟨buffer, true, by rw [hclose]; exact hmode⟩

theorem congr (h : Keeps c given r) (hmode : s.mode = r.mode) (hcause : s.cause = r.cause) :
    Keeps c given s := by
  cases h with
  | kept buffer hm hbuffer hgiven =>
      exact .kept buffer (hmode.trans hm) (fun hs => hbuffer (hcause.symm.trans hs)) hgiven
  | handed buffer hm hclose hgiven => exact .handed buffer (hmode.trans hm) hclose hgiven

theorem given_le (h : Keeps c given r) :
    given.length ≤ 1 ∧ ∀ bytes ∈ given, c.close = some .whole ∧ bytes = c.content := by
  cases h with
  | kept _ _ _ hgiven =>
      rw [hgiven]
      exact ⟨Nat.zero_le 1, List.forall_mem_nil _⟩
  | handed _ _ hclose hgiven =>
      rw [hgiven]
      exact ⟨Nat.le_refl 1, List.forall_mem_singleton.mpr ⟨hclose, rfl⟩⟩

theorem filling (h : Keeps c given r) (hclose : c.close ≠ some .whole) :
    ∃ buffer, r.mode = .aggregating buffer false false ∧ given = [] ∧
      (r.cause = none → buffer = c.content) := by
  cases h with
  | kept buffer hmode hbuffer hgiven =>
      have hopen : (c.close == some .whole) = false := by simpa using hclose
      rw [hopen] at hmode
      exact ⟨buffer, hmode, hgiven, hbuffer⟩
  | handed _ _ hwhole => exact absurd hwhole hclose

end Keeps

namespace Gathers

theorem bodiless (h : Gathers limit c given r) : r.body? = none := by
  obtain ⟨buffer, taken, hmode⟩ := h.keeps.gathering
  rw [body?, hmode]

theorem amended (h : Gathers limit c given r) (hlimit : s.limit = r.limit)
    (hmode : s.mode = r.mode) (hcause : s.cause = r.cause) (hcompleted : s.completed = r.completed)
    (hreceived : s.received = r.received) : Gathers limit c given s :=
  ⟨hlimit.trans h.limit, h.status.congr hcause hcompleted hreceived, h.keeps.congr hmode hcause⟩

theorem frame (h : Gathers limit c given r) (bytes : Bytes) (last : Bool) :
    Gathers limit (c.next limit (.frame bytes last)) given (r.onData i bytes last).state.1 := by
  cases h.status.stage with
  | ongoing hclose hlive hreceived =>
      obtain ⟨buffer, hmode, hgiven, hbuffer⟩ := h.keeps.filling (by simp [hclose])
      obtain ⟨es, hs⟩ := onData_gathering (i := i) hmode hlive bytes last
      obtain ⟨htotal, hover⟩ := receive_course h.limit hreceived bytes
      have hcontent : buffer = c.content := hbuffer (cause_of_live hlive)
      rw [hs, hover, htotal, Course.next_open hclose, Course.advance]
      by_cases hlimit : 0 < limit ∧ limit < c.total bytes
      · simp only [if_pos hlimit]
        exact ⟨h.limit, .failed _ rfl rfl, .kept [] rfl (fun hnone => by contradiction) hgiven⟩
      · simp only [if_neg hlimit]
        refine ⟨h.limit, .grown last hlive (c.total_eq bytes), .kept (buffer ++ bytes) ?_ ?_ hgiven⟩
        · cases last <;> rfl
        · intro _
          rw [c.content_append, hcontent]
  | whole hclose =>
      obtain ⟨buffer, taken, hmode⟩ := h.keeps.gathering
      rw [onData_over hmode (.inr (by simp [hclose])), Course.next_whole hclose]
      exact h
  | finished hclosed hover =>
      obtain ⟨buffer, taken, hmode⟩ := h.keeps.gathering
      rw [onData_over hmode (.inl hover), Course.next_closed hclosed]
      exact h

theorem abort (h : Gathers limit c given r) (cause : AbortCause) (reset : Bool) :
    Gathers limit (c.next limit (.abort cause reset)) given (r.abort i cause reset).state.1 := by
  cases hover : r.terminal with
  | true =>
      rw [abort_over hover, h.status.next_over hover]
      exact h
  | false =>
      rcases h.status.live_close hover with hclose | hclose
      · obtain ⟨buffer, hmode, hgiven, -⟩ := h.keeps.filling (by simp [hclose])
        rw [abort_gathering hmode hover, Course.next_open hclose]
        exact ⟨h.limit, .failed cause rfl rfl, .kept [] rfl (fun hnone => by contradiction) hgiven⟩
      · have hreceived := h.status.received_eq (.inr hclose)
        rw [Course.next_whole hclose]
        cases h.keeps with
        | kept buffer hmode _ hgiven =>
            rw [abort_gathering hmode hover]
            exact ⟨h.limit, .whole hclose hreceived,
              .kept [] rfl (fun hnone => by contradiction) hgiven⟩
        | handed buffer hmode _ hgiven =>
            rw [abort_gathering hmode hover]
            exact ⟨h.limit, .whole hclose hreceived, .handed [] rfl hclose hgiven⟩

theorem complete (h : Gathers limit c given r) :
    Gathers limit (c.next limit .complete) given r.complete.1 := by
  cases hover : r.terminal with
  | true =>
      rw [complete_over hover, h.status.next_over hover]
      exact h
  | false =>
      have hcause := cause_of_live hover
      rw [complete_live hover]
      rcases h.status.live_close hover with hclose | hclose
      · obtain ⟨buffer, hmode, hgiven, hbuffer⟩ := h.keeps.filling (by simp [hclose])
        rw [Course.next_open hclose]
        exact ⟨h.limit, .abandoned rfl hcause rfl, .kept buffer hmode hbuffer hgiven⟩
      · have hreceived := h.status.received_eq (.inr hclose)
        rw [Course.next_whole hclose]
        exact ⟨h.limit, .whole hclose hreceived, h.keeps.congr rfl rfl⟩

theorem takeAggregated_iff (h : Gathers limit c given r) (bytes : Bytes) :
    r.takeAggregated.2 = some bytes ↔
      given = [] ∧ c.close = some .whole ∧ r.cause = none ∧ bytes = c.content := by
  cases h.keeps with
  | kept buffer hmode hbuffer hgiven =>
      rw [takeAggregated, hmode]
      cases hclose : c.close == some .whole with
      | false =>
          have hopen : c.close ≠ some .whole := by simpa using hclose
          simp [hopen]
      | true =>
          have hwhole : c.close = some .whole := by simpa using hclose
          cases hcause : r.cause with
          | some cause => simp
          | none => simp [hgiven, hwhole, hbuffer hcause, eq_comm]
  | handed buffer hmode hclose hgiven =>
      rw [takeAggregated, hmode]
      simp [hgiven]

theorem handing (h : Gathers limit c given r) :
    Gathers limit c (given ++ r.takeAggregated.2.toList) r.takeAggregated.1 := by
  cases htaken : r.takeAggregated.2 with
  | none =>
      have hsame : r.takeAggregated.1 = r := by
        rw [takeAggregated] at htaken ⊢
        split at htaken
        · split at htaken
          · contradiction
          · rename_i hcause
            rw [if_neg hcause]
        · rfl
      rw [hsame]
      simpa using h
  | some bytes =>
      obtain ⟨hgiven, hclose, hcause, hbytes⟩ := (h.takeAggregated_iff bytes).mp htaken
      cases h.keeps with
      | kept buffer hmode =>
          have hstate : r.takeAggregated.1 = { r with mode := .aggregating [] true true } := by
            rw [takeAggregated, hmode, hclose]
            simp [hcause]
          rw [hstate]
          refine ⟨h.limit, h.status.congr rfl rfl rfl, .handed [] rfl hclose ?_⟩
          rw [hgiven, hbytes]
          rfl
      | handed _ _ _ hhanded =>
          rw [hgiven] at hhanded
          contradiction

theorem call (h : Gathers limit c given r) (i : Intake) (x : Call) :
    Gathers limit (c.next limit x) (given ++ (r.call i x).result.bytes?.toList)
        (r.call i x).state.1 ∧
      (r.call i x).result.chunks = [] := by
  have hnone : given ++ (none : Option Bytes).toList = given := List.append_nil given
  rw [call_bytes]
  cases x with
  | frame bytes last =>
      simp only [reduceCtorEq, if_false, hnone]
      exact ⟨h.frame bytes last, rfl⟩
  | abort cause reset =>
      simp only [reduceCtorEq, if_false, hnone]
      exact ⟨h.abort cause reset, rfl⟩
  | complete =>
      simp only [reduceCtorEq, if_false, hnone]
      exact ⟨h.complete, rfl⟩
  | bind tag =>
      obtain ⟨response, hbind⟩ := r.bind_state tag
      simp only [reduceCtorEq, if_false, hnone]
      rw [Course.next_idle rfl, Request.call, hbind]
      exact ⟨h.amended rfl rfl rfl rfl rfl, rfl⟩
  | takeBody =>
      obtain ⟨buffer, taken, hmode⟩ := h.keeps.gathering
      simp only [reduceCtorEq, if_false, hnone]
      rw [Course.next_idle rfl, Request.call, takeBody, hmode]
      exact ⟨h, rfl⟩
  | takeAggregated =>
      rw [if_pos rfl, Course.next_idle rfl]
      exact ⟨h.handing, rfl⟩
  | read waits =>
      simp only [reduceCtorEq, if_false, hnone, Request.call, h.bodiless]
      rw [Course.next_idle rfl]
      exact ⟨h, rfl⟩

theorem run (h : Gathers limit c given r) (i : Intake) (xs : List Call) :
    Gathers limit (c.after limit xs) (given ++ (r.run i xs).result.filterMap Answer.bytes?)
        (r.run i xs).state.1 ∧
      (r.run i xs).result.flatMap Answer.chunks = [] := by
  induction xs generalizing c given r i with
  | nil =>
      rw [Request.run, List.filterMap_nil, List.append_nil]
      exact ⟨h, rfl⟩
  | cons x rest ih =>
      obtain ⟨hcall, hchunks⟩ := h.call i x
      obtain ⟨hrest, hnone⟩ := ih hcall (r.call i x).state.2
      rw [Request.run, bytes_cons, List.flatMap_cons, hchunks, hnone, ← List.append_assoc]
      exact ⟨hrest, rfl⟩

theorem waiting_iff (h : Gathers limit c given r) :
    r.terminal = false ∧ r.ready = false ↔ c.close = none := by
  obtain ⟨buffer, taken, hmode⟩ := h.keeps.gathering
  have hready : r.ready = ((c.close == some .whole) || r.cause.isSome) := by rw [ready, hmode]
  cases h.status.stage with
  | ongoing hclose hlive => simp [hready, hclose, hlive, cause_of_live hlive]
  | whole hclose => simp [hready, hclose]
  | finished hclosed hover =>
      have hshut : c.close ≠ none := Option.isSome_iff_ne_none.mp hclosed
      simp [hover, hshut]

theorem overrun (h : Gathers limit c given r) {bytes : Bytes} (hclose : c.close = none)
    (hover : 0 < limit ∧ limit < c.total bytes) (i : Intake) (last : Bool) :
    let s := r.onData i bytes last
    s.result = .error (.limitExceeded limit (c.total bytes)) ∧
      s.state.1.cause = some (.limitExceeded limit (c.total bytes)) ∧
      s.state.1.resetRequested = true ∧
      (c.next limit (.frame bytes last)).close =
        some (.failed (.limitExceeded limit (c.total bytes))) := by
  intro s
  have hlive : r.terminal = false := (h.waiting_iff.mpr hclose).1
  obtain ⟨buffer, hmode, -⟩ := h.keeps.filling (by simp [hclose])
  have hreceived := h.status.received_eq (.inl hclose)
  obtain ⟨es, hs⟩ := onData_gathering (i := i) hmode hlive bytes last
  obtain ⟨-, hcause⟩ := receive_course h.limit hreceived bytes
  rw [hcause, if_pos hover] at hs
  have heq : s = _ := hs
  rw [heq, Course.next_open hclose, Course.advance, if_pos hover]
  exact ⟨rfl, rfl, rfl, rfl⟩

theorem accepts (h : Gathers limit c given r) {bytes : Bytes}
    (hroom : ¬ (c.close = none ∧ 0 < limit ∧ limit < c.total bytes)) (i : Intake) (last : Bool) :
    (r.onData i bytes last).result = .ok () := by
  obtain ⟨buffer, taken, hmode⟩ := h.keeps.gathering
  cases h.status.stage with
  | ongoing hclose hlive hreceived =>
      obtain ⟨buffer, hmode, -⟩ := h.keeps.filling (by simp [hclose])
      obtain ⟨es, hs⟩ := onData_gathering (i := i) hmode hlive bytes last
      obtain ⟨-, hcause⟩ := receive_course h.limit hreceived bytes
      rw [hcause, if_neg fun hover => hroom ⟨hclose, hover⟩] at hs
      rw [hs]
  | whole hclose => rw [onData_over hmode (.inr (by simp [hclose]))]
  | finished _ hover => rw [onData_over hmode (.inl hover)]

theorem fails_iff (h : Gathers limit c given r) (i : Intake) (bytes : Bytes) (last : Bool) :
    (r.onData i bytes last).result.isOk = false ↔
      r.terminal = false ∧ r.ready = false ∧ 0 < limit ∧ limit < c.total bytes := by
  rw [← and_assoc, h.waiting_iff]
  by_cases hover : c.close = none ∧ 0 < limit ∧ limit < c.total bytes
  · obtain ⟨hresult, -⟩ := h.overrun hover.1 hover.2 i last
    rw [hresult]
    exact ⟨fun _ => hover, fun _ => rfl⟩
  · rw [h.accepts hover i last]
    exact ⟨fun hfails => by contradiction, fun hexceeds => absurd hexceeds hover⟩

theorem fits (h : Gathers limit c given r) (hclose : c.close = some .whole)
    (hwithin : c.Within limit) (hsize : c.content.length < Word.size) :
    c.content.length = r.received ∧ (0 < limit → c.content.length ≤ limit) := by
  have hsaturate := Word.saturate_of_lt hsize
  constructor
  · rw [h.status.received_eq (.inr hclose), hsaturate]
  · intro hlimit
    rw [← hsaturate]
    exact hwithin hlimit

end Gathers

/-- Whatever is asked of it from now on, no byte of the body comes out of a
request, nor out of a streaming one that is made of it. -/
def Withholds (p : Request × Intake) : Prop :=
  ∀ xs, let t := p.1.run p.2 xs
    t.result.filterMap Answer.bytes? = [] ∧ t.result.flatMap Answer.chunks = [] ∧
      ∀ cause q, t.state.1.toAborted? t.state.2 cause = some q →
        ∀ ys, let u := q.1.run q.2 ys
          u.result.filterMap Answer.bytes? = [] ∧
            u.result.flatMap Answer.chunks <+: [.failed cause]

theorem Gathers.withholds {cause : AbortCause} (h : Gathers limit c given r)
    (hclose : c.close = some (.failed cause)) (i : Intake) : Withholds (r, i) := by
  intro xs t
  obtain ⟨hrun, hchunks⟩ := h.run i xs
  rw [Course.after_closed (by rw [hclose]; rfl)] at hrun
  obtain ⟨-, -, hgiven, -⟩ := hrun.keeps.filling (by simp [hclose])
  refine ⟨(List.append_eq_nil_iff.mp hgiven).2, hchunks, fun later q hq ys => ?_⟩
  obtain ⟨-, hbody, -⟩ := toAborted_fills (s := q.1) (j := q.2) hq
  have htracks := (Opened.converted t.state.1 t.state.2 later hq hbody).tracks
  have hread := (htracks.run ys).next.1
  rw [Course.after_closed rfl, List.nil_append] at hread
  exact ⟨htracks.bytes ys, hread⟩

theorem gathers_fresh {o : Opening} (h : (ofOpening o i).1.needsAggregation = true) :
    Gathers (ofOpening o i).1.limit {} [] (ofOpening o i).1 :=
  ⟨rfl, .fresh o i, .kept [] (ofOpening_gathering h) (fun _ => rfl) rfl⟩

/-- A gathered body is handed out once and whole, or never. A frame over the
limit is the end of it: it is reported with the bytes that came, fails the
request and has the stream reset, and no byte of the body is seen any more. -/
theorem gathered_whole_or_never (o : Opening) (i : Intake)
    (hgather : (ofOpening o i).1.needsAggregation = true) (xs : List Call)
    (hsize : volume xs < Word.size) :
    let r := (ofOpening o i).1
    let t := r.run (ofOpening o i).2 xs
    let q := t.state.1
    let c := Course.after r.limit {} xs
    let given := t.result.filterMap Answer.bytes?
    given.length ≤ 1 ∧
      (∀ bytes, q.takeAggregated.2 = some bytes ↔
        given = [] ∧ c.close = some .whole ∧ bytes = c.content ∧
          ∀ ys, ys <+: xs → (r.run (ofOpening o i).2 ys).state.1.cause = none) ∧
      (∀ bytes, bytes ∈ given ∨ q.takeAggregated.2 = some bytes →
        bytes = c.content ∧ bytes.length = q.received ∧ (0 < r.limit → bytes.length ≤ r.limit)) ∧
      ∀ bytes last, volume xs + bytes.length < Word.size →
        let s := q.onData t.state.2 bytes last
        let total := c.content.length + bytes.length
        (s.result.isOk = false ↔
            q.terminal = false ∧ q.ready = false ∧ 0 < r.limit ∧ r.limit < total) ∧
          (s.result.isOk = false →
            s.result = .error (.limitExceeded r.limit total) ∧
              s.state.1.cause = some (.limitExceeded r.limit total) ∧
              s.state.1.resetRequested = true ∧ given = [] ∧ Withholds s.state) := by
  intro r t q c given
  have hq : Gathers r.limit c given q := ((gathers_fresh hgather).run (ofOpening o i).2 xs).1
  have hlength : c.content.length ≤ volume xs := by
    have hcontent := Course.content_after {} r.limit xs
    rwa [show Course.content {} = [] from rfl, List.length_nil, Nat.zero_add] at hcontent
  obtain ⟨honce, hhanded⟩ := hq.keeps.given_le
  refine ⟨honce, fun bytes => ?_, fun bytes hbytes => ?_, fun bytes last hroom => ?_⟩
  · rw [hq.takeAggregated_iff, ← run_unfailed]
    exact ⟨fun ⟨hgiven, hclose, hcause, hwhole⟩ => ⟨hgiven, hclose, hwhole, hcause⟩,
      fun ⟨hgiven, hclose, hwhole, hcause⟩ => ⟨hgiven, hclose, hcause, hwhole⟩⟩
  · obtain ⟨hclose, rfl⟩ : c.close = some .whole ∧ bytes = c.content := by
      rcases hbytes with hgiven | htaken
      · exact hhanded bytes hgiven
      · obtain ⟨-, hclose, -, hwhole⟩ := (hq.takeAggregated_iff bytes).mp htaken
        exact ⟨hclose, hwhole⟩
    have hwithin : c.Within r.limit := Course.Within.after (fun _ => Nat.zero_le _) xs
    exact ⟨rfl, hq.fits hclose hwithin (Nat.lt_of_le_of_lt hlength hsize)⟩
  · intro s total
    have htotal : c.total bytes = total := by
      apply Word.saturate_of_lt
      omega
    have hfails := hq.fails_iff t.state.2 bytes last
    rw [htotal] at hfails
    refine ⟨hfails, fun hrefused => ?_⟩
    obtain ⟨hlive, hwaiting, hlimit, hexceeds⟩ := hfails.mp hrefused
    have hclose : c.close = none := hq.waiting_iff.mp ⟨hlive, hwaiting⟩
    rw [← htotal] at hexceeds ⊢
    obtain ⟨hresult, hcause, hreset, hfailed⟩ :=
      hq.overrun hclose ⟨hlimit, hexceeds⟩ t.state.2 last
    obtain ⟨-, -, hgiven, -⟩ := hq.keeps.filling (by simp [hclose])
    have hnext : Gathers r.limit (c.next r.limit (.frame bytes last)) given s.state.1 :=
      hq.frame bytes last
    exact ⟨hresult, hcause, hreset, hgiven, hnext.withholds hfailed s.state.2⟩

theorem gathered_whole_or_never_overrun :
    let service : Service := { name := "upload", exchange := .unary, maxLength := some 3 }
    let o : Opening :=
      { connection := 1
        stream := 1
        headers := {}
        endOfStream := false
        keepAlive := true
        service := some service
        defaultLimit := 0
        now := 0 }
    let p := ofOpening o { gate := .disabled }
    let t := p.1.run p.2 [.frame [1, 2] false, .takeAggregated]
    let s := t.state.1.onData t.state.2 [3, 4] true
    p.1.needsAggregation = true ∧ volume [.frame [1, 2] false, .takeAggregated] < Word.size ∧
      s.result = .error (.limitExceeded 3 4) ∧ Withholds s.state := by
  intro service o p t s
  have hgather : p.1.needsAggregation = true := rfl
  have hsize : volume [.frame [1, 2] false, .takeAggregated] < Word.size := by decide
  obtain ⟨-, -, -, hframe⟩ := gathered_whole_or_never o { gate := .disabled } hgather _ hsize
  obtain ⟨hresult, -, -, -, hwithheld⟩ := (hframe [3, 4] true (by decide)).2 (by decide)
  exact ⟨hgather, hsize, hresult, hwithheld⟩

end HttpLifecycle.Request
