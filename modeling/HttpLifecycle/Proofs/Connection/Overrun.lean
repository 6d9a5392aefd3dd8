import HttpLifecycle.Proofs.Connection.Retirement
import HttpLifecycle.Proofs.Request.Locality
import HttpLifecycle.Proofs.Request.Streaming

namespace HttpLifecycle.Request

/-- What a body may come to: what its service allows, or else what goes for all.
Zero lifts the limit. -/
def allowance (r : Request) (standard : Nat) : Nat :=
  (r.service.map (·.limit standard)).getD standard

/-- Its body is still coming in. A request without content has none. -/
def receiving (r : Request) (i : Intake) : Bool :=
  !r.terminal &&
    match r.mode with
    | .empty => false
    | .aggregating _ complete _ => !complete
    | .streaming body _ => i.writable body

def spilt (r : Request) (total : Nat) : Request :=
  { r with
    received := total
    cause := some (.limitExceeded r.limit total)
    resetRequested := true
    mode :=
      match r.mode with
      | .aggregating _ complete taken => .aggregating [] complete taken
      | mode => mode }

def shut (r : Request) (i : Intake) (cause : AbortCause) : Intake :=
  match r.body? with
  | some body => i.finish body (some cause)
  | none => i

/-- Whatever is asked of a request, its body is read as the failure, once, and
as nothing else. -/
def OnlyFails (cause : AbortCause) (body : BodyId) (p : Request × Intake) : Prop :=
  ∀ xs, let t := p.1.run p.2 xs
    t.result.filterMap Answer.bytes? = [] ∧
      (t.result.flatMap Answer.chunks = [] ∧ (t.state.2.read body).result = .item (.failed cause) ∨
        t.result.flatMap Answer.chunks = [.failed cause] ∧ (t.state.2.read body).result = .ended)

variable {r a q : Request} {i j : Intake} {bytes : Bytes} {total : Nat} {cause : AbortCause}

theorem fail_noted (h : r.terminal = false) (cause : AbortCause) (reset : Bool) : ∃ n,
    r.fail cause reset = ⟨{ r with cause := some cause, resetRequested := reset },
      .note n :: r.tells cause, true⟩ :=
  ⟨_, if_neg (by simp [h])⟩

theorem onData_spilt (h : r.receiving i = true)
    (htotal : Word.saturate (r.received + bytes.length) = total)
    (hover : 0 < r.limit ∧ r.limit < total) (last : Bool) :
    let cause := .limitExceeded r.limit total
    ∃ n, r.onData i bytes last =
      ⟨(r.spilt total, r.shut i cause), .note n :: r.tells cause,
        .error (.limitExceeded r.limit total)⟩ := by
  intro cause
  obtain ⟨hlive, hopen⟩ := Bool.and_eq_true_iff.mp h
  have hlive : r.terminal = false := by simpa using hlive
  have hreceive : r.receive bytes.length = ({ r with received := total }, some cause) := by
    rw [receive, htotal]
    exact congrArg (Prod.mk _) (if_pos hover)
  rw [onData, spilt, shut, body?]
  cases hmode : r.mode with
  | empty =>
      rw [hmode] at hopen
      contradiction
  | aggregating buffer complete taken =>
      rw [hmode] at hopen
      obtain rfl : complete = false := by simpa using hopen
      obtain ⟨n, hfail⟩ := fail_noted
        (r := { r with received := total, mode := .aggregating [] false taken }) hlive cause true
      simp only [hlive, hreceive, Bool.or_false, Bool.false_eq_true, if_false]
      rw [hfail]
      exact ⟨n, rfl⟩
  | streaming body untaken =>
      rw [hmode] at hopen
      obtain ⟨n, hfail⟩ := fail_noted (r := { r with received := total }) hlive cause true
      have hwritable : i.writable body = true := hopen
      simp only [hlive, hwritable, Bool.not_true, Bool.or_false, hreceive, Bool.false_eq_true,
        if_false]
      rw [hfail, ← hmode]
      exact ⟨n, rfl⟩

theorem spilt_gathers (r : Request) (total : Nat) :
    (r.spilt total).needsAggregation = r.needsAggregation := by
  rw [needsAggregation, needsAggregation, spilt]
  cases r.mode <;> rfl

theorem spilt_body (r : Request) (total : Nat) : (r.spilt total).body? = r.body? := by
  rw [body?, body?, spilt]
  cases r.mode <;> rfl

theorem spares_shut {own : BodyId → Prop} (h : ∀ b, r.body? = some b → own b) (i : Intake)
    (cause : AbortCause) : i.Spares own (r.shut i cause) := by
  rw [shut]
  cases hbody : r.body? with
  | none => exact .refl i
  | some b => exact Intake.spares_finish (h b hbody) _

theorem shut_size (r : Request) (i : Intake) (cause : AbortCause) :
    (r.shut i cause).channels.length = i.channels.length ∧ (r.shut i cause).taken = i.taken := by
  rw [shut]
  cases r.body? with
  | none => exact ⟨rfl, rfl⟩
  | some b => exact ⟨List.length_modify .., rfl⟩

theorem onData_unheard (h : r.receiving i = false) (bytes : Bytes) (last : Bool) :
    (r.onData i bytes last).result = .ok () := by
  rw [receiving] at h
  rw [onData]
  cases hmode : r.mode with
  | empty => rfl
  | aggregating buffer complete taken =>
      have hover : (r.terminal || complete) = true := by
        rw [hmode] at h
        cases hlive : r.terminal <;> simp_all
      simp only [if_pos hover]
  | streaming body untaken =>
      have hover : (r.terminal || !i.writable body) = true := by
        rw [hmode] at h
        cases hlive : r.terminal <;> simp_all
      simp only [if_pos hover]

theorem onData_fails_iff (r : Request) (i : Intake) (bytes : Bytes) (last : Bool) :
    (r.onData i bytes last).result.isOk = false ↔
      r.receiving i = true ∧ 0 < r.limit ∧
        r.limit < Word.saturate (r.received + bytes.length) := by
  constructor
  · intro h
    rcases r.onData_cases i bytes last with htaken | ⟨cause, hover⟩
    · rw [htaken.result] at h
      contradiction
    · obtain ⟨hlimit, hexceeds, -⟩ := receive_over hover.exceeds
      refine ⟨?_, hlimit, hexceeds⟩
      cases hreceiving : r.receiving i with
      | true => rfl
      | false => exact absurd (onData_unheard hreceiving bytes last) hover.result
  · rintro ⟨hreceiving, hover⟩
    obtain ⟨n, hdata⟩ := onData_spilt hreceiving rfl hover last
    rw [hdata]
    rfl

theorem toAborted_eq (h : r.toAborted? i cause = some (a, j)) :
    a = { r with
      response := none
      cause := some cause
      completed := false
      mode := .streaming i.channels.length true } ∧
      j = (i.add { queue := [.failed cause], writable := false }).1 := by
  rw [toAborted?] at h
  split at h
  · obtain ⟨rfl, rfl⟩ := Prod.mk.inj (Option.some.inj h)
    exact ⟨rfl, rfl⟩
  · contradiction

theorem onlyFails_toAborted (h : r.toAborted? i cause = some (a, j)) :
    OnlyFails cause i.channels.length (a, j) := by
  intro xs t
  obtain ⟨-, hbody, -⟩ := toAborted_fills h
  have htracks := (Opened.converted r i cause h hbody).tracks
  have hrun := htracks.run xs
  rw [Course.after_closed rfl, List.nil_append] at hrun
  refine ⟨htracks.bytes xs, ?_⟩
  obtain ⟨hread, hitem, hended⟩ := hrun.next
  rcases List.prefix_cons_iff.mp hread with hnone | ⟨rest, hone, hrest⟩
  · exact .inl ⟨hnone, (hitem _).mpr (by rw [hnone]; exact List.prefix_refl _)⟩
  · obtain rfl := List.prefix_nil.mp hrest
    exact .inr ⟨hone, hended.mpr ⟨hone, rfl⟩⟩

theorem sameEnd_performAll (r : Request) (i : Intake) (actions : List Action)
    (h : r.terminal = true) : SameEnd r (r.performAll i actions).state.1 := by
  induction actions generalizing r i with
  | nil => exact ⟨rfl, rfl, rfl⟩
  | cons action rest ih =>
      have hone := r.sameEnd_perform i action (.inr h)
      have hrest := ih (r.perform i action).state.1 (r.perform i action).state.2
        (hone.terminal.trans h)
      exact ⟨hrest.cause.trans hone.cause, hrest.reset.trans hone.reset,
        hrest.completed.trans hone.completed⟩

theorem received_fail (r : Request) (cause : AbortCause) (reset : Bool) :
    (r.fail cause reset).state.received = r.received := by
  rw [fail]
  split <;> rfl

theorem received_perform (r : Request) (i : Intake) (action : Action) :
    (r.perform i action).state.1.received = r.received := by
  cases action with
  | bind tag =>
      obtain ⟨response, hs⟩ := r.bind_state tag
      show (r.bind tag).state.received = _
      rw [hs]
  | takeBody =>
      obtain ⟨mode, hs⟩ := r.perform_takeBody i
      rw [hs]
  | takeAggregated =>
      obtain ⟨mode, hs⟩ := r.takeAggregated_state
      show r.takeAggregated.1.received = _
      rw [hs]
  | abort cause reset =>
      obtain ⟨mode, hs⟩ := r.abort_state i cause reset
      show (r.abort i cause reset).state.1.received = _
      rw [hs]
      exact r.received_fail cause reset
  | complete =>
      obtain ⟨completed, hs⟩ := r.complete_state
      show r.complete.1.received = _
      rw [hs]

theorem received_performAll (r : Request) (i : Intake) (actions : List Action) :
    (r.performAll i actions).state.1.received = r.received := by
  induction actions generalizing r i with
  | nil => rfl
  | cons action rest ih => exact (ih _ _).trans (r.received_perform i action)

end HttpLifecycle.Request
