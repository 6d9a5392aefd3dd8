import HttpLifecycle.Proofs.Registry.Shutdown

namespace HttpLifecycle

namespace Request

/-- All that is told of a request that is in the table when the transport goes.
It goes on record, and unless it was over it fails first. -/
def ending (r : Request) (now : Instant) : List Effect :=
  if r.terminal then [.record (.ofRequest r now)]
  else
    r.tells .connectionClosed ++
      [.record { AccessRecord.ofRequest r now with cause := some .connectionClosed }]

theorem lost_closed (r : Request) (now : Instant) :
    r.lost .connectionClosed now = r.ending now := by
  rw [lost, ending]
  cases hover : r.terminal with
  | true =>
      rw [fail_over hover]
      rfl
  | false =>
      obtain ⟨hstate, htold⟩ := fail_open hover .connectionClosed false
      rw [hstate, htold]
      rfl

end Request

namespace Connection

def Input.event? : Input → Option Event
  | .event e => some e
  | _ => none

def handled (xs : List Call) : List Event := xs.filterMap (·.input.event?)

/-- A connection through some calls, where what each comes to is taken off its
journal. -/
def worked (c : Connection) (xs : List Call) : Connection :=
  xs.foldl (fun c x => { c.after x with journal := [] }) c

variable {c : Connection} {x : Call}

theorem worked_concat (c : Connection) (xs : List Call) (x : Call) :
    c.worked (xs ++ [x]) = { (c.worked xs).after x with journal := [] } := List.foldl_append

theorem handled_concat (xs : List Call) (x : Call) :
    handled (xs ++ [x]) = handled xs ++ x.input.event?.toList := by
  rw [handled, List.filterMap_append]
  cases h : x.input.event? <;> simp [handled, h]

theorem after_gone (hd : Distinct c) (ht : c.tornDown = false) (h : (c.after x).tornDown = true) :
    x.input.ends = true ∧ (c.after x).streams = [] ∧
      ∀ s, (c.after x).story s = c.story s ++ (c.find? s).toList.flatMap (·.ending x.now) := by
  have houtcome := after_outcome (R := fun _ _ => True) hd x trivial
  have hends := houtcome.ends_of_tornDown ht h
  obtain ⟨fields, heq⟩ := after_ends (c := c) hends
  have hstory (s : StreamId) :=
    teardown_story (c := c.log .debug "lifecycle event" fields) hd ht x.now s
  refine ⟨hends, ?_, fun s => ?_⟩
  · obtain ⟨d, -, hnone, hdown⟩ := StreamSteps.teardown (R := fun _ _ => True)
      (c := c.log .debug "lifecycle event" fields) hd ht x.now
    rw [heq, hdown]
    exact hnone
  · rw [heq, (hstory s).1, story_log]
    have hlost : (fun r : Request => r.lost .connectionClosed x.now) = (·.ending x.now) :=
      funext fun r => r.lost_closed x.now
    rw [hlost]
    rfl

end Connection

namespace Registry

namespace Member

open Connection (handled)

variable {m n o : Member}

/-- A connection that nobody can reach any more is torn down: by an end of the
transport among what was queued, or after all of it. What was open then is told
of, and that is on record. -/
structure Departed (m : Member) (xs : List Connection.Call) (x : Connection.Call) (n : Member) :
    Prop where
  standing : (m.connection.worked xs).tornDown = false
  ends : x.input.ends = true
  queue : m.queue = handled xs ∧ x.input = .event (.lifecycle .removed) ∨
    ∃ e rest, m.queue = handled xs ++ e :: rest ∧ x.input = .event e
  vacant : ((m.connection.worked xs).after x).streams = []
  told : ∀ s, ((m.connection.worked xs).after x).story s =
    ((m.connection.worked xs).find? s).toList.flatMap (·.ending x.now)
  recorded : ∃ before attached after, n.history = m.history ++ before ++
    stamped attached x.now ((m.connection.worked xs).after x).journal ++ after

/-- What becomes of a connection that nobody can reach any more. -/
inductive Wanes (m n : Member) : Prop
  | waits (xs : List Connection.Call) (before : List (Instant × Effect))
      (hlive : n.finished = false) (hconnection : n.connection = m.connection.worked xs)
      (hqueue : m.queue = handled xs ++ n.queue) (hhistory : n.history = m.history ++ before)
  | gone (xs : List Connection.Call) (x : Connection.Call) (hend : n.finished = true)
      (h : m.Departed xs x n)

theorem Wanes.refl (hlive : m.finished = false) : Wanes m m :=
  .waits [] [] hlive rfl rfl (List.append_nil _).symm

theorem Departed.later {xs : List Connection.Call} {x : Connection.Call}
    (h : m.Departed xs x n) {more : List (Instant × Effect)}
    (hmore : o.history = n.history ++ more) : m.Departed xs x o := by
  obtain ⟨before, attached, after, hhistory⟩ := h.recorded
  exact { h with recorded := ⟨before, attached, after ++ more, by
    rw [hmore, hhistory, List.append_assoc]⟩ }

theorem Wanes.call (h : Wanes m n) {x : Connection.Call} (hx : x.input.event? = none)
    (hlive : o.finished = n.finished) (hqueue : o.queue = n.queue)
    (hconnection : o.connection = { n.connection.after x with journal := [] })
    {more : List (Instant × Effect)} (hhistory : o.history = n.history ++ more) : Wanes m o := by
  cases h with
  | waits xs before hwaits hc hq hh =>
      refine .waits (xs ++ [x]) (before ++ more) (hlive.trans hwaits) ?_ ?_ ?_
      · rw [hconnection, hc, Connection.worked_concat]
      · rw [Connection.handled_concat, hx, hqueue, hq]
        simp
      · rw [hhistory, hh, List.append_assoc]
  | gone xs x hend hd => exact .gone xs x (hlive.trans hend) (hd.later hhistory)

theorem Wanes.turn (h : Wanes m n) (hn : n.Sound) {x : Connection.Call}
    {queue : List Connection.Event} (hdue : n.Due x queue) (hlive : n.finished = false) :
    Wanes m ({ n with queue := queue }.turn x.now fun c => c.after x) := by
  have ht : n.connection.tornDown = false := hn.ended.symm.trans hlive
  have hcoh := Connection.invariant_coherent.after hn.coherent hn.coherent x
  cases h with
  | gone xs y hend hd =>
      rw [hend] at hlive
      contradiction
  | waits xs before hwaits hc hq hh =>
      rw [turn_eq]
      by_cases hs : (n.connection.after x).halted = true
      · obtain ⟨hends, hvacant, htold⟩ :=
          Connection.after_gone hn.distinct ht (hcoh.halted_iff.mp hs)
        rw [hc] at ht hvacant htold
        refine .gone xs x (by simp [hs]) ⟨ht, hends, ?_, hvacant, fun s => ?_, ?_⟩
        · cases hdue with
          | event e rest now hwaits => exact .inr ⟨e, _, by rw [hq, hwaits], rfl⟩
          | gone now hempty hnone => exact .inl ⟨by rw [hq, hempty, List.append_nil], rfl⟩
          | timer d now hd hle => contradiction
        · have hsilent : (m.connection.worked xs).story s = [] := by
            rw [← hc, Connection.story, hn.clean]
            rfl
          rw [htold s, hsilent, List.nil_append]
        · refine ⟨before, n.attached, [], ?_⟩
          rw [← hc, List.append_nil, ← hh]
      · refine .waits (xs ++ [x])
          (before ++ stamped n.attached x.now (n.connection.after x).journal)
          (by simp [hs, hlive]) ?_ ?_ ?_
        · rw [Connection.worked_concat, hc]
        · simp only [hs]
          rw [Connection.handled_concat, hq]
          cases hdue with
          | event e rest now hwaits => simp [hwaits, Connection.Input.event?]
          | gone now hempty hnone =>
              have hgone := (Connection.after_outcome (R := fun _ _ => True) hn.distinct
                ⟨.event (.lifecycle .removed), now⟩ trivial).ended rfl
              exact absurd (hcoh.halted_iff.mpr hgone) hs
          | timer d now hd hle => simp [Connection.Input.event?]
        · rw [hh, List.append_assoc]

theorem Wanes.step (h : Wanes m n) (hnone : n.handles = 0) (hn : n.Sound)
    (s : Step (· = .detach) n o) : Wanes m o ∧ o.handles = 0 := by
  cases s with
  | enqueue e he hlive => contradiction
  | clone hh | drop hh =>
      rw [hnone] at hh
      contradiction
  | detach hcut =>
      refine ⟨?_, hnone⟩
      cases h with
      | waits xs before hwaits hc hq hh => exact .waits xs before hwaits hc hq hh
      | gone xs x hend hd => exact .gone xs x hend (hd.later (List.append_nil _).symm)
  | closing =>
      have hclean : { n.connection with serverClosing := true } =
          { n.connection.after ⟨.serverCloses, 0⟩ with journal := [] } := by
        rw [← hn.clean]
        rfl
      exact ⟨h.call rfl rfl rfl hclean (List.append_nil _).symm, hnone⟩
  | serve stream demand allowance now =>
      rw [stamp_eq]
      exact ⟨h.call (x := ⟨.serve stream demand allowance, now⟩) rfl rfl rfl rfl rfl, hnone⟩
  | turn hdue hlive =>
      refine ⟨h.turn hn hdue hlive, ?_⟩
      rw [turn_eq]
      exact hnone

theorem Wanes.steps (h : Wanes m n) (hnone : n.handles = 0) (hn : n.Sound)
    (s : Steps (· = .detach) n o) : Wanes m o ∧ o.handles = 0 := by
  have hkept : o.Sound ∧ Wanes m o ∧ o.handles = 0 :=
    s.keep (P := fun o => o.Sound ∧ Wanes m o ∧ o.handles = 0)
      (fun ⟨hs, hw, hz⟩ t => ⟨t.sound hs, hw.step hz hs t⟩) ⟨hn, h, hnone⟩
  exact hkept.2

theorem Idle.unreached (h : m.Idle) (hnone : m.handles = 0) : m.finished = true :=
  h.resolve_right fun hwaits => absurd hnone (Nat.ne_of_gt hwaits.2)

theorem Wanes.departed (h : Wanes m n) (hend : n.finished = true) : ∃ xs x, m.Departed xs x n := by
  cases h with
  | waits xs before hlive hc hq hh =>
      rw [hend] at hlive
      contradiction
  | gone xs x hend hd => exact ⟨xs, x, hd⟩

end Member

end Registry

end HttpLifecycle
