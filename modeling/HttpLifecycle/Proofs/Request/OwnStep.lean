import HttpLifecycle.Proofs.Intake.Move
import HttpLifecycle.Request.Actions

namespace HttpLifecycle

def Effect.inner : Effect → Bool
  | .sink .suspendReads | .sink .resumeReads => true
  | .action .. | .abortResponse .. | .note _ => true
  | _ => false

def Inner (es : List Effect) : Prop := ∀ e ∈ es, e.inner = true

theorem inner_nil : Inner [] := List.forall_mem_nil _

theorem inner_append {es fs : List Effect} (h : Inner es) (g : Inner fs) : Inner (es ++ fs) :=
  List.forall_mem_append.mpr ⟨h, g⟩

theorem inner_cons {e : Effect} {es : List Effect} (h : e.inner = true) (g : Inner es) :
    Inner (e :: es) :=
  List.forall_mem_cons.mpr ⟨h, g⟩

theorem ofGate_inner (es : List Gate.Event) : Inner (es.map .ofGate) := by
  intro e he
  obtain ⟨g, -, rfl⟩ := List.mem_map.mp he
  cases g with
  | note n => rfl
  | signal s => cases s <;> rfl

namespace Request

/-- One request at two times of its life: what was settled when it was opened
stays. -/
inductive SameOpening (r : Request) : Request → Prop
  | intro (received : Nat) (response : Option String) (cause : Option AbortCause)
      (resetRequested completed : Bool) (mode : Mode) :
      SameOpening r { r with
        received := received
        response := response
        cause := cause
        resetRequested := resetRequested
        completed := completed
        mode := mode }

variable {R : Intake → Bytes → Prop} {r s : Request}

namespace SameOpening

theorem refl (r : Request) : SameOpening r r := .intro ..

theorem trans {t : Request} (h : SameOpening r s) (g : SameOpening s t) : SameOpening r t := by
  cases h
  cases g
  exact .intro ..

theorem deliver (h : SameOpening r s) (mode : Mode) : SameOpening r { s with mode := mode } := by
  cases h
  exact .intro ..

theorem stream (h : SameOpening r s) : s.stream = r.stream := by
  cases h
  rfl

theorem headers (h : SameOpening r s) : s.headers = r.headers := by
  cases h
  rfl

end SameOpening

theorem receive_eq (r : Request) (n : Nat) : r.receive n =
    ({ r with received := Word.saturate (r.received + n) }, (r.receive n).2) := rfl

theorem receive_over {n : Nat} {cause : AbortCause} (h : (r.receive n).2 = some cause) :
    0 < r.limit ∧ r.limit < Word.saturate (r.received + n) ∧
      cause = .limitExceeded r.limit (Word.saturate (r.received + n)) := by
  rw [receive] at h
  simp only at h
  split at h
  · rename_i hover
    exact ⟨hover.1, hover.2, (Option.some.inj h).symm⟩
  · contradiction

theorem fail_over {r : Request} (h : r.terminal = true) (cause : AbortCause) (reset : Bool) :
    r.fail cause reset = ⟨r, [], false⟩ := if_pos h

theorem fail_live {r : Request} (h : r.terminal = false) (cause : AbortCause) (reset : Bool) : ∃ es,
    r.fail cause reset = ⟨{ r with cause := some cause, resetRequested := reset }, es, true⟩ :=
  ⟨_, if_neg (by simp [h])⟩

theorem sameOpening_receive (r : Request) (n : Nat) : r.SameOpening (r.receive n).1 := .intro ..

theorem sameOpening_fail (r : Request) (cause : AbortCause) (reset : Bool) :
    r.SameOpening (r.fail cause reset).state := by
  rw [fail]
  split <;> exact .intro ..

theorem mode_fail (r : Request) (cause : AbortCause) (reset : Bool) :
    (r.fail cause reset).state.mode = r.mode := by
  rw [fail]
  split <;> rfl

theorem sameOpening_bind (r : Request) (tag : String) : r.SameOpening (r.bind tag).state := by
  rw [bind]
  split <;> exact .intro ..

theorem sameOpening_takeBody (r : Request) : r.SameOpening r.takeBody.1 := by
  rw [takeBody]
  split <;> exact .intro ..

theorem sameOpening_takeAggregated (r : Request) : r.SameOpening r.takeAggregated.1 := by
  rw [takeAggregated]
  split
  · split <;> exact .intro ..
  · exact .refl r

theorem sameOpening_complete (r : Request) : r.SameOpening r.complete.1 := by
  rw [complete]
  split <;> exact .intro ..

theorem inner_fail (r : Request) (cause : AbortCause) (reset : Bool) :
    Inner (r.fail cause reset).events := by
  rw [fail]
  split
  · exact inner_nil
  · apply inner_cons rfl
    intro e he
    obtain ⟨tag, -, rfl⟩ := List.mem_map.mp he
    rfl

theorem inner_bind (r : Request) (tag : String) : Inner (r.bind tag).events := by
  rw [bind]
  split
  · exact inner_nil
  · intro e he
    obtain ⟨cause, -, rfl⟩ := List.mem_map.mp he
    rfl

/-- A step of a request: it stays the one it was, with its bodies nothing
happens but what may, and its effects are its own. -/
structure OwnStep {α : Type} (R : Intake → Bytes → Prop) (r : Request) (i : Intake)
    (s : Step (Request × Intake) Effect α) : Prop where
  sameOpening : r.SameOpening s.state.1
  intake : i.Moves R s.state.2
  inner : Inner s.events

def feeds (r : Request) (i : Intake) (bytes : Bytes) : Bool :=
  match r.mode with
  | .streaming body _ =>
    !(r.terminal || !i.writable body) && (r.receive bytes.length).2.isNone && !bytes.isEmpty
  | _ => false

theorem feeds_some {i : Intake} {bytes : Bytes} (h : r.feeds i bytes = true) : bytes ≠ [] := by
  rintro rfl
  rw [feeds] at h
  split at h
  · simp at h
  · contradiction

theorem onData_result (r : Request) (i : Intake) (bytes : Bytes) (last : Bool) :
    (r.onData i bytes last).result = .ok () ∨
      (r.onData i bytes last).result =
        .error (.limitExceeded r.limit (Word.saturate (r.received + bytes.length))) := by
  rw [onData]
  split
  · exact .inl rfl
  all_goals
    split
    · exact .inl rfl
    · rw [receive_eq]
      cases hover : (r.receive bytes.length).2 with
      | none => exact .inl rfl
      | some cause =>
          obtain ⟨-, -, rfl⟩ := receive_over hover
          exact .inr rfl

theorem ownStep_onData (r : Request) (i : Intake) (bytes : Bytes) (endOfStream : Bool)
    (h : r.feeds i bytes = true → R i bytes) : OwnStep R r i (r.onData i bytes endOfStream) := by
  have hreceive := sameOpening_receive r bytes.length
  rw [onData]
  split
  · exact ⟨.intro .., .refl i, inner_nil⟩
  · split
    · exact ⟨.refl r, .refl i, inner_nil⟩
    · split
      · rename_i s cause hr
        rw [hr] at hreceive
        exact ⟨(hreceive.deliver _).trans (sameOpening_fail _ cause true), .refl i,
          inner_fail _ _ _⟩
      · rename_i s hr
        rw [hr] at hreceive
        exact ⟨hreceive.deliver _, .refl i, inner_nil⟩
  · rename_i body untaken hmode
    split
    · exact ⟨.refl r, .refl i, inner_nil⟩
    · rename_i hopen
      split
      · rename_i s cause hr
        rw [hr] at hreceive
        exact ⟨hreceive.trans (sameOpening_fail s cause true), i.moves_finish body _,
          inner_fail s _ _⟩
      · rename_i s hr
        rw [hr] at hreceive
        refine ⟨hreceive, ?_, ofGate_inner _⟩
        have hpush : i.Moves R
            (if bytes.isEmpty then (⟨i, [], ()⟩ : Step Intake Gate.Event Unit)
              else i.push body bytes).state := by
          split
          · exact .refl i
          · rename_i hsome
            refine .of (.push body bytes (h ?_))
            simp only [feeds, hmode, hr, hopen, hsome]
            rfl
        simp only
        split
        · exact hpush.trans (Intake.moves_finish _ body none)
        · exact hpush

theorem ownStep_abort (r : Request) (i : Intake) (cause : AbortCause) (reset : Bool) :
    OwnStep R r i (r.abort i cause reset) := by
  have hstays := sameOpening_fail r cause reset
  have hinner := inner_fail r cause reset
  rw [abort]
  split
  · split
    · exact ⟨hstays, .refl i, hinner⟩
    · exact ⟨hstays.deliver _, .refl i, hinner⟩
    · exact ⟨hstays, i.moves_finish _ _, hinner⟩
  · exact ⟨hstays, .refl i, hinner⟩

theorem ownStep_perform (r : Request) (i : Intake) (a : Action) :
    OwnStep R r i (r.perform i a) := by
  cases a with
  | bind tag => exact ⟨sameOpening_bind r tag, .refl i, inner_bind r tag⟩
  | takeBody =>
      have hstays := sameOpening_takeBody r
      rw [perform]
      split
      · rename_i s body hs
        rw [hs] at hstays
        exact ⟨hstays, i.moves_keep _ body, ofGate_inner _⟩
      · rename_i s hs
        rw [hs] at hstays
        exact ⟨hstays, .refl i, inner_nil⟩
  | takeAggregated => exact ⟨sameOpening_takeAggregated r, .refl i, inner_nil⟩
  | abort cause reset =>
      have h := ownStep_abort (R := R) r i cause reset
      exact ⟨h.sameOpening, h.intake, h.inner⟩
  | complete => exact ⟨sameOpening_complete r, .refl i, inner_nil⟩

theorem ownStep_performAll (r : Request) (i : Intake) (actions : List Action) :
    OwnStep R r i (r.performAll i actions) := by
  induction actions generalizing r i with
  | nil => exact ⟨.refl r, .refl i, inner_nil⟩
  | cons a rest ih =>
      have ha := ownStep_perform (R := R) r i a
      have hrest := ih (r.perform i a).state.1 (r.perform i a).state.2
      exact ⟨ha.sameOpening.trans hrest.sameOpening, ha.intake.trans hrest.intake,
        inner_append ha.inner (inner_cons rfl hrest.inner)⟩

theorem ownStep_toAborted {i j : Intake} {cause : AbortCause}
    (h : r.toAborted? i cause = some (s, j)) : r.SameOpening s ∧ i.Moves R j := by
  rw [toAborted?] at h
  split at h
  · obtain ⟨rfl, rfl⟩ := Prod.mk.inj (Option.some.inj h)
    exact ⟨.intro .., .of (.add _ rfl (by simp [Chunk.isData]))⟩
  · contradiction

theorem ofOpening_eq (o : Opening) (i : Intake) :
    (ofOpening o i).1.stream = o.stream ∧ (ofOpening o i).1.headers = o.headers ∧
      (ofOpening o i).1.startedAt = o.now ∧ (ofOpening o i).1.service = o.service := by
  rw [ofOpening]
  cases hs : o.service with
  | none => exact ⟨rfl, rfl, rfl, rfl⟩
  | some service =>
      simp only
      split
      · exact ⟨rfl, rfl, rfl, rfl⟩
      · split <;> exact ⟨rfl, rfl, rfl, rfl⟩

theorem moves_ofOpening (o : Opening) (i : Intake) : i.Moves R (ofOpening o i).2 := by
  rw [ofOpening]
  split
  · exact .refl i
  · simp only
    split
    · exact .refl i
    · split
      · exact .of (.add _ rfl (List.forall_mem_nil _))
      · exact .refl i

theorem moves_discard (r : Request) (i : Intake) : i.Moves R (r.discard i).state := by
  rw [discard]
  split
  · rename_i body untaken hmode
    have hfinish := i.moves_finish (R := R) body none
    simp only
    split
    · exact hfinish.trans (Intake.moves_drop _ body)
    · exact hfinish
  · exact .refl i

theorem inner_discard (r : Request) (i : Intake) : Inner (r.discard i).events := by
  rw [discard]
  split
  · simp only
    split
    · exact ofGate_inner _
    · exact inner_nil
  · exact inner_nil

theorem fail_response (r : Request) (cause : AbortCause) (reset : Bool) :
    (r.fail cause reset).state.response = r.response := by
  rw [fail]
  split <;> rfl

theorem abort_events (r : Request) (i : Intake) (cause : AbortCause) (reset : Bool) :
    (r.abort i cause reset).events = (r.fail cause reset).events := by
  rw [abort]
  split
  · split <;> rfl
  · rfl

theorem abort_response (r : Request) (i : Intake) (cause : AbortCause) (reset : Bool) :
    (r.abort i cause reset).state.1.response = r.response := by
  rw [abort]
  split
  · split <;> exact fail_response r cause reset
  · exact fail_response r cause reset

theorem takeBody_response (r : Request) : r.takeBody.1.response = r.response := by
  rw [takeBody]
  split <;> rfl

theorem ofOpening_response (o : Opening) (i : Intake) : (ofOpening o i).1.response = none := by
  rw [ofOpening]
  split
  · rfl
  · simp only
    split
    · rfl
    · split <;> rfl

end Request

end HttpLifecycle
