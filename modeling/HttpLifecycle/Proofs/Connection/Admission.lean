import HttpLifecycle.Proofs.Connection.Inputs

namespace HttpLifecycle

/-- What an admission is known by, and the record that comes of it. -/
structure Admission where
  stream : StreamId
  startedAt : Instant
  path : String
  service : Option String
  deriving DecidableEq, Repr

def Request.admission (r : Request) : Admission :=
  ⟨r.stream, r.startedAt, r.headers.path, r.service.map (·.name)⟩

theorem Request.SameOpening.admission {r s : Request} (h : r.SameOpening s) :
    s.admission = r.admission := by
  cases h
  rfl

/-- Only a response that was bound in the course of it hears of a failure. -/
def Own (stream : StreamId) (es : List Effect) : Prop :=
  ∀ s tag cause, .abortResponse s tag cause ∈ es → .action stream (.bind tag) .done ∈ es

theorem own_nil (stream : StreamId) : Own stream [] := by
  intro s tag cause h
  contradiction

theorem own_cons {stream : StreamId} {e : Effect} {es : List Effect}
    (h : ∀ s tag cause, e ≠ .abortResponse s tag cause) (g : Own stream es) :
    Own stream (e :: es) := by
  intro s tag cause hmem
  rcases List.mem_cons.mp hmem with hmem | hmem
  · exact absurd hmem.symm (h s tag cause)
  · exact List.mem_cons_of_mem e (g s tag cause hmem)

theorem own_append {stream : StreamId} {es fs : List Effect} (h : Own stream es)
    (g : Own stream fs) : Own stream (es ++ fs) := by
  intro s tag cause hmem
  rcases List.mem_append.mp hmem with hmem | hmem
  · exact List.mem_append_left fs (h s tag cause hmem)
  · exact List.mem_append_right es (g s tag cause hmem)

theorem Upkeep.own {es : List Effect} (h : Upkeep es) (stream : StreamId) : Own stream es := by
  intro s tag cause hmem
  have hupkeep := h _ hmem
  contradiction

namespace Request

theorem bind_told (r : Request) (tag : String) {s : StreamId} {t : String} {cause : AbortCause}
    (h : .abortResponse s t cause ∈ (r.bind tag).events) :
    t = tag ∧ (r.bind tag).result = .ok () := by
  rw [bind] at h ⊢
  split at h
  · contradiction
  · rename_i hfree
    obtain ⟨_, -, he⟩ := List.mem_map.mp h
    rw [if_neg hfree]
    exact ⟨(Effect.abortResponse.inj he).2.1.symm, rfl⟩

theorem bind_response (r : Request) (tag : String) :
    (r.bind tag).state.response = r.response ∨
      (r.bind tag).state.response = some tag ∧ (r.bind tag).result = .ok () := by
  rw [bind]
  split
  · exact .inl rfl
  · exact .inr ⟨rfl, rfl⟩

theorem fail_told (r : Request) (cause : AbortCause) (reset : Bool) {s : StreamId} {t : String}
    {k : AbortCause} (h : .abortResponse s t k ∈ (r.fail cause reset).events) :
    r.response = some t := by
  rw [fail] at h
  split at h
  · contradiction
  · rcases List.mem_cons.mp h with h | h
    · contradiction
    · obtain ⟨tag, ht, he⟩ := List.mem_map.mp h
      obtain ⟨-, rfl, -⟩ := Effect.abortResponse.inj he
      exact Option.mem_toList.mp ht

theorem ofGate_told {es : List Gate.Event} {s : StreamId} {t : String} {k : AbortCause}
    (h : .abortResponse s t k ∈ es.map Effect.ofGate) : False := by
  obtain ⟨g, -, he⟩ := List.mem_map.mp h
  cases g with
  | note n => contradiction
  | signal s => cases s <;> contradiction

theorem perform_told (r : Request) (i : Intake) (a : Action) {s : StreamId} {t : String}
    {k : AbortCause} (h : .abortResponse s t k ∈ (r.perform i a).events) :
    r.response = some t ∨ a = .bind t ∧ (r.perform i a).result = .done := by
  cases a with
  | bind tag =>
      obtain ⟨rfl, hok⟩ := bind_told r tag h
      exact .inr ⟨rfl, by rw [perform, hok]; rfl⟩
  | takeBody =>
      rw [perform] at h
      split at h
      · exact (ofGate_told h).elim
      · contradiction
  | takeAggregated => contradiction
  | abort cause reset =>
      have habort : .abortResponse s t k ∈ (r.abort i cause reset).events := h
      rw [abort_events] at habort
      exact .inl (fail_told r cause reset habort)
  | complete => contradiction

theorem perform_response (r : Request) (i : Intake) (a : Action) :
    (r.perform i a).state.1.response = r.response ∨
      ∃ tag, a = .bind tag ∧ (r.perform i a).result = .done ∧
        (r.perform i a).state.1.response = some tag := by
  cases a with
  | bind tag =>
      rcases bind_response r tag with h | ⟨h, hok⟩
      · exact .inl h
      · exact .inr ⟨tag, rfl, by rw [perform, hok]; rfl, h⟩
  | takeBody =>
      have hsame := takeBody_response r
      apply Or.inl
      rw [perform]
      split
      · rename_i s body hs
        rwa [hs] at hsame
      · rename_i s hs
        rwa [hs] at hsame
  | takeAggregated =>
      apply Or.inl
      show r.takeAggregated.1.response = r.response
      rw [takeAggregated]
      split
      · split <;> rfl
      · rfl
  | abort cause reset => exact .inl (abort_response r i cause reset)
  | complete =>
      apply Or.inl
      show r.complete.1.response = r.response
      rw [complete]
      split <;> rfl

theorem performAll_told (r : Request) (i : Intake) (actions : List Action) {s : StreamId}
    {t : String} {k : AbortCause} (h : .abortResponse s t k ∈ (r.performAll i actions).events) :
    r.response = some t ∨ .action r.stream (.bind t) .done ∈ (r.performAll i actions).events := by
  induction actions generalizing r i with
  | nil => contradiction
  | cons a rest ih =>
      rw [performAll] at h ⊢
      rcases List.mem_append.mp h with h | h
      · rcases perform_told r i a h with hr | ⟨rfl, hdone⟩
        · exact .inl hr
        · exact .inr (by simp [hdone])
      · rcases List.mem_cons.mp h with h | h
        · contradiction
        · have hstays := (ownStep_perform (R := fun _ _ => True) r i a).sameOpening
          rcases ih _ _ h with hr | hr
          · rcases perform_response r i a with hsame | ⟨tag, rfl, hdone, htag⟩
            · exact .inl (hsame ▸ hr)
            · obtain rfl := Option.some.inj (htag.symm.trans hr)
              exact .inr (by simp [hdone])
          · rw [hstays.stream] at hr
            exact .inr (by simp [hr])

theorem own_performAll {r : Request} (h : r.response = none) (i : Intake)
    (actions : List Action) : Own r.stream (r.performAll i actions).events := by
  intro s tag cause hmem
  rcases performAll_told r i actions hmem with hbound | htold
  · rw [h] at hbound
    contradiction
  · exact htold

end Request

namespace Connection

/-- A request is opened, with whatever its handler makes of it, and is not in
the table yet. -/
inductive Opens (R : Intake → Bytes → Prop) (c : Connection) (r : Request) : Connection → Prop
  | intro (monitor : Monitor) (i : Intake) (dispatched : Nat) (before rest : List Effect)
      (hi : c.intake.Moves R i) (hbefore : Upkeep before) (hrest : Tending rest)
      (hown : Own r.stream rest) :
      Opens R c r { c with
        monitor := monitor
        lastStream := max c.lastStream r.stream
        intake := i
        dispatched := dispatched
        journal := c.journal ++ (before ++ .count .streamsOpened :: rest) }

variable {R : Intake → Bytes → Prop} {c d : Connection}

theorem Opens.streams {r : Request} (h : Opens R c r d) : d.streams = c.streams := by
  cases h
  rfl

theorem Opens.intake {r : Request} (h : Opens R c r d) : c.intake.Moves R d.intake := by
  cases h
  assumption

theorem Opens.tornDown {r : Request} (h : Opens R c r d) : d.tornDown = c.tornDown := by
  cases h
  rfl

theorem opens_seat {r : Request} {i : Intake} {before : List Effect} (monitor : Monitor)
    (hi : c.intake.Moves R i) (hbefore : Upkeep before) (hunbound : r.response = none) :
    ∃ s d, r.SameOpening s ∧ Opens R c s d ∧
      seat { c with
        monitor := monitor
        lastStream := max c.lastStream r.stream
        intake := i
        journal := c.journal ++ before ++ [.count .streamsOpened] } r = d.put s := by
  by_cases hready : r.ready
  · have hstep := r.ownStep_performAll (R := R) i (c.handler c.dispatched r)
    have hown := Request.own_performAll hunbound i (c.handler c.dispatched r)
    generalize ht : r.performAll i (c.handler c.dispatched r) = t at hstep hown
    have hown' : Own t.state.1.stream (.dispatch r :: t.events) := by
      rw [hstep.sameOpening.stream]
      exact own_cons (fun s tag cause h => by contradiction) hown
    have hopens := Opens.intro (R := R) (c := c) (r := t.state.1) monitor t.state.2
      (c.dispatched + 1) before _ (hi.trans hstep.intake) hbefore
      (tending_cons rfl hstep.inner.tending) hown'
    rw [hstep.sameOpening.stream, ← List.append_assoc, List.append_cons] at hopens
    refine ⟨_, _, hstep.sameOpening, hopens, ?_⟩
    rw [seat, if_pos hready, dispatch]
    simp only [ht]
    rfl
  · have hopens := Opens.intro (R := R) (c := c) monitor i c.dispatched before [] hi hbefore
      tending_nil (own_nil r.stream)
    rw [← List.append_assoc] at hopens
    refine ⟨_, _, .refl r, hopens, ?_⟩
    rw [seat, if_neg hready]

theorem opens_onHeaders (now : Instant) (stream : StreamId) (headers : Headers)
    (endOfStream : Bool) (h : ¬ State.closing.rank ≤ c.state.rank)
    (hr : (c.activity now .headers).monitor.openStream.result = true) :
    ∃ r d, Opens R c r d ∧ r.headers = headers ∧
      r.admission = ⟨stream, now, headers.path, (c.routes headers).map (·.name)⟩ ∧
      c.onHeaders stream headers endOfStream now =
        ((d.put r).checkDisconnection now, .ok ()) := by
  obtain ⟨hstream, hheaders, hstart, hservice⟩ :=
    Request.ofOpening_eq (c.opening stream headers endOfStream now) c.intake
  have hmonitor := (c.activity now .headers).upkeep_ofMonitor
    (Monitor.modest_openStream (c.monitor.activity now .headers))
  obtain ⟨s, d, hstays, hopens, heq⟩ := opens_seat (R := R) (c := c)
    (c.monitor.activity now .headers).openStream.state (Request.moves_ofOpening _ c.intake)
    hmonitor (Request.ofOpening_response (c.opening stream headers endOfStream now) c.intake)
  refine ⟨s, d, hopens, hstays.headers.trans hheaders, ?_, ?_⟩
  · rw [hstays.admission, Request.admission, hstream, hheaders, hstart, hservice]
    rfl
  · rw [onHeaders_within now stream headers endOfStream h hr, ← heq, hstream]
    simp only [count, emit, admitStream, counted, observe, activity]
    rfl

end Connection

end HttpLifecycle
