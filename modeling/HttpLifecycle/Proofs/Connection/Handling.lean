import HttpLifecycle.Proofs.Connection.Owners

namespace HttpLifecycle.Connection

variable {c d : Connection} {x : Call} {s : StreamId} {r t : Request} {b : BodyId} {i : Intake}
  {clean : BodyId → Bool} {es : List Effect}

theorem onData_result (h : c.find? s = some r) (bytes : Bytes) (last : Bool) (now : Instant) :
    (c.onData s bytes last now).2.isOk = (r.onData c.intake bytes last).result.isOk := by
  rw [onData_eq h]
  simp only
  cases (r.onData c.intake bytes last).result with
  | ok u =>
      simp only
      split <;> rfl
  | error e => rfl

theorem body?_waiting (h : r.ready = false) : r.body? = none := by
  rw [Request.ready] at h
  rw [Request.body?]
  split
  · rename_i hmode
    simp [hmode] at h
  · rfl

/-- What a frame makes of its request and its body: both go on as the request
has it, or the handler gets a request whose content is gathered, or is told that
it will not come. -/
inductive Feeding (c : Connection) (s : StreamId) (r : Request) (p : Request × Intake) :
    Connection → Prop
  | taken {d : Connection} {es : List Effect} (ht : Touches s es (some p.1) c d)
      (hi : d.intake = p.2) : Feeding c s r p d
  | gathered {d : Connection} {es : List Effect} (actions : List Action) (hmode : r.body? = none)
      (ht : Touches s es (some (p.1.performAll p.2 actions).state.1) c d)
      (hi : d.intake = (p.1.performAll p.2 actions).state.2) : Feeding c s r p d
  | burst {d : Connection} {es : List Effect} (hcause : p.1.cause.isSome)
      (ht : Touches s es none c d) (hi : d.intake = (p.1.discard p.2).state) : Feeding c s r p d
  | overrun {d : Connection} {es : List Effect} {a : Request} {j : Intake} {cause : AbortCause}
      (actions : List Action) (hmode : r.body? = none) (ht : Touches s es none c d)
      (ha : p.1.toAborted? p.2 cause = some (a, j))
      (hi : d.intake =
        ((a.performAll j actions).state.1.discard (a.performAll j actions).state.2).state) :
      Feeding c s r p d

theorem onData_feeding (h : c.find? s = some r) (bytes : Bytes) (last : Bool) (now : Instant) :
    Feeding c s r (r.onData c.intake bytes last).state (c.onData s bytes last now).1 := by
  obtain rfl := find?_stream h
  have hnoted : Touches r.stream [] (c.find? r.stream) c (c.activity now .data) := .silent rfl rfl
  have hfed := hnoted.trans (Touches.feed (c := c.activity now .data) h bytes last)
  have hstream : (r.onData c.intake bytes last).state.1.stream = r.stream :=
    (r.sameOpening_onData c.intake bytes last).stream
  have hcases := r.onData_cases c.intake bytes last
  rw [onData_eq h]
  change Touches r.stream _ (some (r.onData c.intake bytes last).state.1) c
    (((c.activity now .data).follow (r.onData c.intake bytes last)).update
      (r.onData c.intake bytes last).state.1) at hfed
  have hi : (((c.activity now .data).follow (r.onData c.intake bytes last)).update
      (r.onData c.intake bytes last).state.1).intake =
        (r.onData c.intake bytes last).state.2 := rfl
  simp only
  generalize ((c.activity now .data).follow (r.onData c.intake bytes last)).update
    (r.onData c.intake bytes last).state.1 = d at hfed hi
  generalize r.onData c.intake bytes last = p at hfed hi hcases hstream
  have hfound : d.find? p.state.1.stream = some p.state.1 := hstream ▸ hfed.find
  rcases hcases with htaken | ⟨cause, hover⟩
  · rw [htaken.result]
    simp only
    by_cases hready : (!r.ready && p.state.1.ready) = true
    · obtain ⟨hwaits, -⟩ : r.ready = false ∧ p.state.1.ready = true := by simpa using hready
      have hserved := Touches.serve hfound
      rw [hstream] at hserved
      rw [if_pos hready]
      refine .gathered (d.handler d.dispatched p.state.1) (body?_waiting hwaits)
        (hfed.trans (hi ▸ hserved)) ?_
      rw [← hi]
      rfl
    · rw [if_neg hready]
      exact .taken hfed hi
  · have hcause : p.state.1.cause = some cause := hover.cause
    have hmode : p.state.1.needsAggregation = r.needsAggregation := hover.gathers
    cases hresult : p.result with
    | ok u => exact absurd hresult hover.result
    | error e =>
        simp only
        cases hgathers : r.needsAggregation with
        | false =>
            have hsome : p.state.1.cause.isSome := by simp [hcause]
            have hrejected := Touches.rejectBody_streaming hfound hsome
              (hmode.trans hgathers) e now
            rw [hstream] at hrejected
            refine .burst hsome (hfed.trans hrejected) ?_
            rw [rejectBody_streaming_intake hfound hsome (hmode.trans hgathers), hi]
        | true =>
            obtain ⟨a, i, j, actions, -, hrejected⟩ := Touches.rejectBody_gathering (c := d)
              hcause (hmode.trans hgathers) e now
            rw [hstream] at hrejected
            obtain ⟨a, j, actions, ha, hlast⟩ := rejectBody_gathering_intake hfound hcause
              (hmode.trans hgathers) e now
            rw [hi] at ha
            exact .overrun actions (Request.body?_gathering hgathers) (hfed.trans hrejected)
              ha hlast

namespace Owned

theorem dismissed (h : Owned c) (hx : x.input.subject? = some s) (hr : c.find? s = some r)
    (ht : Touches s es none c (c.after x)) {cause : AbortCause} {reset : Bool}
    (hi : (c.after x).intake = r.dismiss c.intake cause reset)
    (hdone : ∀ b, r.body? = some b → c.intake.writable b = true → c.endsClean x b = r.completed) :
    Handled c (c.endsClean x) (c.after x) := by
  have hconducts : c.intake.Conducts (c.endsClean x) (c.after x).intake := by
    rw [hi]
    exact Request.conducts_dismiss (h.sealed hr) cause reset hdone
  refine h.left (after_distinct h.distinct x) hr ht .same hconducts (fun b hb => ?_)
    fun b hc => h.endsClean_open hx hr hc
  rcases hb with hb | hle
  · rw [hi]
    exact Request.dismiss_ended hb _ _ _
  · exact hconducts.beyond hle

theorem onReset (h : Owned c) (hr : c.find? s = some r) (code : Nat) (now : Instant) :
    let x : Call := ⟨.event (.reset s code), now⟩
    Handled c (c.endsClean x) (c.after x) := by
  intro x
  refine h.dismissed rfl hr (.onReset hr code now) (onReset_intake hr code now) fun b hb hw => ?_
  rw [h.endsClean_eq hr hb hw]
  simp [x, concludes, cuts, find?_stream hr]

theorem abortStream (h : Owned c) (hr : c.find? s = some r) (cause : AbortCause)
    (now : Instant) :
    let x : Call := ⟨.event (.abort s cause), now⟩
    Handled c (c.endsClean x) (c.after x) := by
  intro x
  refine h.dismissed rfl hr (.abortStream hr cause now) (abortStream_intake hr cause now)
    fun b hb hw => ?_
  rw [h.endsClean_eq hr hb hw]
  simp [x, concludes, cuts, find?_stream hr]

theorem completeResponse (h : Owned c) (hr : c.find? s = some r) (now : Instant) :
    let x : Call := ⟨.event (.complete s), now⟩
    Handled c (c.endsClean x) (c.after x) := by
  intro x
  have hi : (c.after x).intake = (r.discard c.intake).state := completeResponse_intake hr now
  have hconducts : c.intake.Conducts (c.endsClean x) (c.after x).intake := by
    rw [hi]
    refine Request.conducts_discard fun b hb hw => ?_
    rw [h.endsClean_eq hr hb hw]
    simp [x, concludes, cuts, find?_stream hr]
  refine h.left (after_distinct h.distinct x) hr (.completeResponse hr now) .same hconducts
    (fun b hb => ?_) fun b hc => h.endsClean_open rfl hr hc
  rcases hb with hb | hle
  · rw [hi]
    exact Request.discard_ended hb _
  · exact hconducts.beyond hle

theorem setResponse (h : Owned c) (hr : c.find? s = some r) (tag : String) (now : Instant) :
    let x : Call := ⟨.event (.setResponse s tag), now⟩
    Handled c (c.endsClean x) (c.after x) := by
  intro x
  have hi : (c.after x).intake = c.intake := by
    simp only [x, after, perform, handle, Connection.setResponse, hr]
    rfl
  refine h.amended (after_distinct h.distinct x) hr (.setResponse hr tag) ?_ fun b hc => ?_
  · rw [hi]
    exact Request.fills_bind tag
  · obtain ⟨q, -, -, -, hcond⟩ := h.endsClean_subject rfl hc
    simp [x, concludes, cuts, Input.ends] at hcond

theorem endsClean_data (h : Owned c) (hr : c.find? s = some r) (bytes : Bytes) (last : Bool)
    (now : Instant) (hlive : r.terminal = false) (b : BodyId) (hb : r.body? = some b)
    (hw : c.intake.writable b = true) :
    c.endsClean ⟨.event (.data s bytes last), now⟩ b =
      (last && (r.onData c.intake bytes last).result.isOk) := by
  have hresult : (c.perform ⟨.event (.data s bytes last), now⟩).2.isOk =
      (r.onData c.intake bytes last).result.isOk := onData_result hr bytes last now
  rw [h.endsClean_eq hr hb hw, ← hresult]
  simp [concludes, cuts, Input.ends, find?_stream hr, hlive]

theorem data_shuts (h : Owned c) (hr : c.find? s = some r) {bytes : Bytes} {last : Bool}
    {now : Instant} (hc : c.endsClean ⟨.event (.data s bytes last), now⟩ b = true) :
    (r.onData c.intake bytes last).state.2.writable b = false := by
  obtain ⟨q, hq, hb, hw, hcond⟩ := h.endsClean_subject rfl hc
  obtain rfl := Option.some.inj (hr.symm.trans hq)
  have hends := hc
  have hlive : r.terminal = false ∧ last = true := by
    simp [concludes, cuts, Input.ends] at hcond
    exact ⟨hcond.1.1.2, hcond.1.2⟩
  obtain ⟨hopen, rfl⟩ := hlive
  rw [h.endsClean_data hr bytes true now hopen b hb hw, Bool.true_and] at hends
  exact Request.onData_ended hb hopen hw hends

theorem fed (h : Owned c) (hx : x.input.subject? = some s) (hr : c.find? s = some r)
    {p : Request × Intake} (hp : Feeding c s r p (c.after x))
    (hfills : r.Fills (c.endsClean x) c.intake p)
    (hshut : ∀ b, c.endsClean x b = true → p.2.writable b = false)
    (hstill : r.body? = none → p.2 = c.intake) : Handled c (c.endsClean x) (c.after x) := by
  have hdistinct : Distinct (c.after x) := after_distinct h.distinct x
  cases hp with
  | taken ht hi =>
      refine h.amended hdistinct hr ht (hi ▸ hfills) fun b hc => ?_
      rw [hi]
      exact hshut b hc
  | gathered actions hmode ht hi =>
      have hserved : p.1.Fills (c.endsClean x) p.2 (p.1.performAll p.2 actions).state :=
        Request.fills_performAll actions fun b hb => by
          rw [hfills.body, hmode] at hb
          contradiction
      refine h.amended hdistinct hr ht (hi ▸ hfills.trans hserved) fun b hc => ?_
      rw [hi]
      exact hserved.intake.unwritable (hshut b hc)
  | burst hcause ht hi =>
      have hconducts : c.intake.Conducts (c.endsClean x) (c.after x).intake := by
        rw [hi]
        exact hfills.discarded fun b hb => hfills.sealed (h.sealed hr) b hb hcause
      refine h.left hdistinct hr ht .same hconducts (fun b hb => ?_)
        fun b hc => h.endsClean_open hx hr hc
      rcases hb with hb | hle
      · rw [hi]
        exact Request.discard_ended (hfills.body.trans hb) _
      · exact hconducts.beyond hle
  | @overrun _ a j cause actions hmode ht ha hi =>
      obtain ⟨-, hbody, hj⟩ := Request.toAborted_fills ha
      rw [hstill hmode] at hbody hj
      have hserved : a.Fills (c.endsClean x) j (a.performAll j actions).state :=
        Request.fills_performAll actions fun b hb => by
          obtain rfl := Option.some.inj (hbody.symm.trans hb)
          exact h.fresh x
      have hfailed (b : BodyId) (hle : c.intake.channels.length ≤ b) : j.writable b = false := by
        rw [hj]
        exact Intake.add_failed hle
      have hconducts : j.Conducts (c.endsClean x) (c.after x).intake := by
        rw [hi]
        refine hserved.discarded fun b hb => hserved.intake.unwritable (hfailed b ?_)
        rw [hserved.body, hbody] at hb
        exact Nat.le_of_eq (Option.some.inj hb)
      refine h.left hdistinct hr ht (hj ▸ .failed cause) hconducts (fun b hb => ?_)
        fun b hc => h.endsClean_open hx hr hc
      rcases hb with hb | hle
      · rw [hmode] at hb
        contradiction
      · exact hconducts.unwritable (hfailed b hle)

theorem onData (h : Owned c) (hr : c.find? s = some r) (bytes : Bytes) (last : Bool)
    (now : Instant) :
    let x : Call := ⟨.event (.data s bytes last), now⟩
    Handled c (c.endsClean x) (c.after x) :=
  h.fed rfl hr (onData_feeding hr bytes last now)
    (Request.fills_onData bytes last (h.endsClean_data hr bytes last now))
    (fun _ hc => h.data_shuts hr hc) fun hnone => (r.onData_bodiless hnone bytes last).2

end Owned

theorem ofOpening_grows (o : Request.Opening) (i : Intake) :
    i.Grows (Request.ofOpening o i).2 ∧
      (∀ b, (Request.ofOpening o i).1.body? = some b →
        i.channels.length ≤ b ∧ b < (Request.ofOpening o i).2.channels.length) ∧
      ∀ b, i.channels.length ≤ b → (Request.ofOpening o i).2.writable b = true →
        (Request.ofOpening o i).1.body? = some b := by
  obtain ⟨-, ⟨hbody, hi⟩ | ⟨hbody, hi⟩⟩ := Request.ofOpening_fills o i
  · rw [hi, hbody]
    refine ⟨.same, fun b hb => by contradiction, fun b hle hw => ?_⟩
    exact absurd (Intake.writable_lt hw) (Nat.not_lt_of_le hle)
  · rw [hi, hbody]
    refine ⟨.opened, fun b hb => ?_, fun b hle hw => ?_⟩
    · obtain rfl := Option.some.inj hb
      exact ⟨Nat.le_refl _, by simp [Intake.add]⟩
    · rw [(Intake.add_writable hle hw).1]

theorem onHeaders_seats (s : StreamId) (headers : Headers) (last : Bool) (now : Instant)
    (h : ¬ State.closing.rank ≤ c.state.rank)
    (hr : (c.activity now .headers).monitor.openStream.result = true) :
    let o := Request.ofOpening (c.opening s headers last now) c.intake
    ∃ e, e.intake = o.2 ∧ Touches s [] (c.find? s) c e ∧
      StreamsKept (e.seat o.1) (c.onHeaders s headers last now).1 ∧
      (c.onHeaders s headers last now).2 = .ok () := by
  have hcounted : Touches s [] (c.find? s) c (c.counted now) :=
    .streamsKept
      ((StreamsKept.activity c now .headers).trans (.observe _ (Monitor.modest_openStream _)))
  rw [onHeaders_within now s headers last h hr]
  refine ⟨_, rfl, ?_, .checkDisconnection _ now, rfl⟩
  have hnamed : Touches s [] (c.find? s) c ((c.counted now).admitStream s) :=
    hcounted.hush (.silent rfl rfl)
  exact (hnamed.hush (.count _)).hush (.silent rfl rfl)

theorem seat_fills (c : Connection) (hclean : ∀ b, r.body? = some b → clean b = false) :
    ∃ t j es, r.Fills clean c.intake (t, j) ∧ Touches r.stream es (some t) c (c.seat r) ∧
      (c.seat r).intake =
        match c.find? r.stream with
        | none => j
        | some old => (old.discard j).state := by
  have hput {d : Connection} {t : Request} (ht : t.stream = r.stream)
      (hfind : d.find? r.stream = c.find? r.stream) :
      (d.put t).intake =
        match c.find? r.stream with
        | none => d.intake
        | some old => (old.discard d.intake).state := by
    cases hf : c.find? r.stream with
    | none => rw [put_free (ht ▸ hfind.trans hf)]
    | some old => exact put_intake_taken (ht ▸ hfind.trans hf)
  rw [seat]
  cases hready : r.ready with
  | true =>
      have hkept := (r.sameOpening_performAll c.intake (c.handler c.dispatched r)).stream
      exact ⟨_, _, _, Request.fills_performAll (c.handler c.dispatched r) hclean, .seat c r,
        hput hkept rfl⟩
  | false => exact ⟨r, c.intake, _, .refl r c.intake, .put r, hput rfl rfl⟩

namespace Owned

theorem seated (h : Owned c) {e : Connection} {o : Request.Opening}
    (hr : r = (Request.ofOpening o c.intake).1) (hi : e.intake = (Request.ofOpening o c.intake).2)
    (he : Touches r.stream es (c.find? r.stream) c e) (hd : Distinct d)
    (hafter : StreamsKept (e.seat r) d)
    (honly : ∀ b, clean b = true → ∃ old, c.find? r.stream = some old ∧ old.body? = some b)
    (hcut : ∀ old b, c.find? r.stream = some old → old.body? = some b →
      c.intake.writable b = true → clean b = true) : Handled c clean d := by
  obtain ⟨hgrows, hown, hopened⟩ := ofOpening_grows o c.intake
  rw [← hi] at hgrows hown hopened
  rw [← hr] at hown hopened
  have hlive : r.cause = none := hr ▸ (Request.ofOpening_fills o c.intake).1
  have hnew (b : BodyId) (hb : r.body? = some b) : clean b = false := by
    cases hc : clean b with
    | false => rfl
    | true =>
        obtain ⟨old, hold, hob⟩ := honly b hc
        exact absurd (h.bound hold hob) (Nat.not_lt_of_le (hown b hb).1)
  obtain ⟨t, j, fs, hfills, hseat, hput⟩ := seat_fills e hnew
  rw [he.find, ← hafter.intake] at hput
  have htouched := (he.trans hseat).hush (.streamsKept hafter)
  have hshut {old : Request} (hold : c.find? r.stream = some old) (b : BodyId)
      (hob : old.body? = some b) : d.intake.writable b = false := by
    rw [hput, hold]
    exact Request.discard_ended hob j
  have hgiven : j.Conducts clean d.intake := by
    cases hold : c.find? r.stream with
    | none =>
        rw [hput, hold]
        exact .refl j
    | some old =>
        rw [hput, hold]
        refine Request.conducts_discard fun b hob hw => hcut old b hold hob ?_
        have hopen := hfills.intake.writable hw
        rwa [hgrows.writable (h.bound hold hob)] at hopen
  have hconducts := hfills.intake.trans hgiven
  refine ⟨⟨e.intake, hgrows, hconducts⟩, fun b hc => ?_, ?_⟩
  · obtain ⟨old, hold, hob⟩ := honly b hc
    exact hshut hold b hob
  · refine h.touched hd htouched hgrows hconducts (fun q b hq hb => ?_) (fun q hq => ?_)
      fun b hw hcase => ⟨t, rfl, ?_⟩
    · obtain rfl := Option.some.inj hq
      exact .inr (hown b (hfills.body ▸ hb))
    · obtain rfl := Option.some.inj hq
      exact (hfills.sealed (Request.sealed_of_live hlive _)).conducts hgiven
    · rcases hcase with ⟨old, hold, hob⟩ | hle
      · rw [hshut hold b hob] at hw
        contradiction
      · exact hfills.body.trans (hopened b hle (hconducts.writable hw))

theorem onHeaders (h : Owned c) (s : StreamId) (headers : Headers) (last : Bool) (now : Instant) :
    let x : Call := ⟨.event (.headers s headers last), now⟩
    Handled c (c.endsClean x) (c.after x) := by
  intro x
  have hrefused (hnone : c.admission? x = none) (b : BodyId) : c.endsClean x b = false := by
    cases hc : c.endsClean x b with
    | false => rfl
    | true =>
        obtain ⟨r, -, -, -, hcond⟩ := h.endsClean_subject rfl hc
        have hsome : c.admission? x = some r.stream := by simpa [x, concludes, cuts] using hcond
        rw [hnone] at hsome
        contradiction
  by_cases hlate : State.closing.rank ≤ c.state.rank
  · have heq := onHeaders_late now s headers last hlate
    have hafter : c.after x = (c.activity now .headers).refuse s .closing :=
      congrArg Prod.fst heq
    refine h.quiet (by rw [hafter]; rfl) (by rw [hafter]; rfl) (hrefused ?_)
    simp only [x, admission?, perform, handle, heq]
  · cases hr : (c.activity now .headers).monitor.openStream.result with
    | false =>
        have heq := onHeaders_beyond now s headers last hlate hr
        have hafter : c.after x = ((c.counted now).refuse s .maxRequests).checkDisconnection now :=
          congrArg Prod.fst heq
        have hchecked := StreamsKept.checkDisconnection ((c.counted now).refuse s .maxRequests) now
        have hcounted : StreamsKept c (c.counted now) :=
          (StreamsKept.activity c now .headers).trans (.observe _ (Monitor.modest_openStream _))
        refine h.quiet ?_ ?_ (hrefused ?_)
        · rw [hafter]
          exact hchecked.streams.trans hcounted.streams
        · rw [hafter]
          exact hchecked.intake.trans hcounted.intake
        · simp only [x, admission?, perform, handle, heq]
    | true =>
        obtain ⟨e, hi, he, hchecked, hok⟩ := onHeaders_seats s headers last now hlate hr
        have hstream : (Request.ofOpening (c.opening s headers last now) c.intake).1.stream = s :=
          (Request.ofOpening_eq _ c.intake).1
        have hopen : c.admission? x = some s := by
          simp only [x, admission?, perform, handle, hok]
        refine h.seated rfl hi (hstream.symm ▸ he) (after_distinct h.distinct x) hchecked ?_ ?_
        · rw [hstream]
          intro b hc
          obtain ⟨old, hold, hob, -⟩ := h.endsClean_subject rfl hc
          exact ⟨old, hold, hob⟩
        · rw [hstream]
          intro old b hold hob hw
          rw [h.endsClean_eq hold hob hw]
          simp [x, concludes, cuts, hopen, find?_stream hold]

end Owned

theorem cuts_ends (hx : x.input.ends = true) (ht : c.tornDown = false) (r : Request) :
    (c.concludes x r || c.cuts x r) = r.completed := by
  obtain ⟨input, now⟩ := x
  cases input with
  | event e =>
      cases e with
      | lifecycle e =>
          have hends : Input.ends (.event (.lifecycle e)) = true := hx
          simp [concludes, cuts, hends, ht]
      | _ => contradiction
  | _ => contradiction

theorem closeStream_intake (c : Connection) (r : Request) (now : Instant) :
    (closeStream now c r).intake = r.dismiss c.intake .connectionClosed false := by
  rw [closeStream]
  simp only
  by_cases hover : r.terminal = true
  · rw [if_pos hover, Request.dismiss_over hover]
    rfl
  · rw [if_neg hover]
    rfl

theorem closeStreams_intake (rs : List Request) (c : Connection) (now : Instant) :
    (rs.foldl (closeStream now) c).intake =
      rs.foldl (fun i r => r.dismiss i .connectionClosed false) c.intake := by
  induction rs generalizing c with
  | nil => rfl
  | cons r rest ih => rw [List.foldl_cons, ih, closeStream_intake, List.foldl_cons]

theorem teardown_intake (ht : c.tornDown = false) (now : Instant) :
    (c.teardown now).intake =
      c.streams.foldl (fun i r => r.dismiss i .connectionClosed false) c.intake := by
  have hstopped : StreamsKept c (c.stopped now) :=
    (StreamsKept.observe c (Monitor.modest_destroy c.monitor now)).trans (.steer _ _)
  have hparted : (c.parted now).intake =
      c.streams.foldl (fun i r => r.dismiss i .connectionClosed false) c.intake := by
    rw [← hstopped.streams, ← hstopped.intake]
    exact closeStreams_intake _ { c.stopped now with tornDown := true } now
  rw [teardown_first now ht, ← hparted]
  simp only
  split <;> rfl

namespace Owned

theorem endsClean_plain (h : Owned c) (hsubject : x.input.subject? = none)
    (hends : x.input.ends = true → c.tornDown = true) (b : BodyId) : c.endsClean x b = false := by
  cases hc : c.endsClean x b with
  | false => rfl
  | true =>
      obtain ⟨r, -, -, -, hcond⟩ := h.endsClean_owner hc
      obtain ⟨input, now⟩ := x
      rw [concludes, cuts] at hcond
      cases input with
      | event e => cases e <;> simp_all [Input.subject?, Input.ends]
      | _ => contradiction

theorem teardown (h : Owned c) (hx : x.input.ends = true) (ht : c.tornDown = false) :
    Handled c (c.endsClean x) (c.after x) := by
  obtain ⟨fields, heq⟩ := after_ends (c := c) hx
  have hlogged : Distinct (c.log .debug "lifecycle event" fields) := h.distinct
  have hnone (s : StreamId) : (c.after x).find? s = none := by
    rw [heq]
    exact (teardown_story hlogged ht x.now s).2
  have hi : (c.after x).intake =
      c.streams.foldl (fun i r => r.dismiss i .connectionClosed false) c.intake := by
    rw [heq]
    exact teardown_intake (c := c.log .debug "lifecycle event" fields) ht x.now
  have hopen {r : Request} (hr : r ∈ c.streams) := find?_mem h.distinct hr
  have hdone (r : Request) (hr : r ∈ c.streams) (b : BodyId) (hb : r.body? = some b)
      (hw : c.intake.writable b = true) : c.endsClean x b = r.completed := by
    rw [h.endsClean_eq (hopen hr) hb hw, cuts_ends hx ht]
  obtain ⟨hconducts, hshut⟩ := Request.conducts_dismissals
    (fun r hr => h.sealed (hopen hr)) .connectionClosed false hdone
  rw [← hi] at hconducts hshut
  have hall {s : StreamId} {r : Request} (hr : c.find? s = some r) (b : BodyId)
      (hb : r.body? = some b) : (c.after x).intake.writable b = false :=
    hshut r (List.mem_of_find?_eq_some hr) b hb
  refine ⟨⟨c.intake, .same, hconducts⟩, fun b hc => ?_, ?_⟩
  · obtain ⟨r, hr, hb, -⟩ := h.endsClean_owner hc
    exact hall hr b hb
  · constructor
    · exact after_distinct h.distinct x
    · intro s r b hr
      rw [hnone] at hr
      contradiction
    · intro s t r q b hr
      rw [hnone] at hr
      contradiction
    · intro s r hr
      rw [hnone] at hr
      contradiction
    · intro b hw
      obtain ⟨s, r, hr, hb⟩ := h.live (hconducts.writable hw)
      rw [hall hr b hb] at hw
      contradiction

/-- Whatever comes, a body is ended cleanly only where the frames or the way
that its request went say so. -/
theorem after (h : Owned c) (hserves : x.input.serves = false) :
    Handled c (c.endsClean x) (c.after x) := by
  cases hsubject : x.input.subject? with
  | none =>
      by_cases hends : x.input.ends = true → c.tornDown = true
      · have hplain := streamsKept_plain hsubject hends hserves
        exact h.quiet hplain.streams hplain.intake (h.endsClean_plain hsubject hends)
      · obtain ⟨hx, ht⟩ := Classical.not_imp.mp hends
        exact h.teardown hx (by simpa using ht)
  | some s =>
      cases hr : c.find? s with
      | none =>
          rcases streamsKept_vacant hsubject hr with ⟨headers, last, hinput⟩ | ⟨-, huntouched⟩
          · obtain ⟨input, now⟩ := x
            obtain rfl : input = .event (.headers s headers last) := hinput
            exact h.onHeaders s headers last now
          · exact h.quiet huntouched.streams huntouched.intake (h.endsClean_vacant hsubject hr)
      | some r =>
          obtain ⟨input, now⟩ := x
          cases input with
          | event e =>
              cases e with
              | headers s headers last => exact h.onHeaders s headers last now
              | data s bytes last =>
                  obtain rfl := Option.some.inj hsubject
                  exact h.onData hr bytes last now
              | reset s code =>
                  obtain rfl := Option.some.inj hsubject
                  exact h.onReset hr code now
              | setResponse s tag =>
                  obtain rfl := Option.some.inj hsubject
                  exact h.setResponse hr tag now
              | complete s =>
                  obtain rfl := Option.some.inj hsubject
                  exact h.completeResponse hr now
              | abort s cause =>
                  obtain rfl := Option.some.inj hsubject
                  exact h.abortStream hr cause now
              | _ => contradiction
          | _ => contradiction

end Owned

end HttpLifecycle.Connection
