import HttpLifecycle.Proofs.Intake.Conduct
import HttpLifecycle.Proofs.Request.OwnStep

namespace HttpLifecycle.Request

def body? (r : Request) : Option BodyId :=
  match r.mode with
  | .streaming body _ => some body
  | _ => none

def Sealed (r : Request) (i : Intake) : Prop :=
  ∀ b, r.body? = some b → r.cause.isSome = true → i.writable b = false

/-- A step of a request at its own body. The flag says of each body how it may
be ended. -/
structure Fills (clean : BodyId → Bool) (r : Request) (i : Intake) (p : Request × Intake) :
    Prop where
  body : p.1.body? = r.body?
  intake : i.Conducts clean p.2
  sealed : r.Sealed i → p.1.Sealed p.2

variable {clean : BodyId → Bool} {r : Request} {i j : Intake} {b : BodyId}

theorem body?_streaming {untaken : Bool} (h : r.mode = .streaming b untaken) :
    r.body? = some b := by
  rw [body?, h]

theorem body?_eq_some (h : r.body? = some b) : ∃ untaken, r.mode = .streaming b untaken := by
  rw [body?] at h
  split at h
  · rename_i body untaken hmode
    obtain rfl := Option.some.inj h
    exact ⟨untaken, hmode⟩
  · contradiction

theorem body?_gathering (h : r.needsAggregation = true) : r.body? = none := by
  rw [needsAggregation] at h
  rw [body?]
  split
  · rename_i hmode
    simp [hmode] at h
  · rfl

theorem body?_congr {s : Request} (h : s.mode = r.mode) : s.body? = r.body? := by
  rw [body?, body?, h]

theorem Sealed.conducts (h : r.Sealed i) (hi : i.Conducts clean j) : r.Sealed j :=
  fun b hb hcause => hi.unwritable (h b hb hcause)

theorem Sealed.live (h : r.Sealed i) (hb : r.body? = some b) (hw : i.writable b = true) :
    r.cause = none := by
  cases hc : r.cause with
  | none => rfl
  | some cause =>
      have hshut := h b hb (by rw [hc]; rfl)
      rw [hw] at hshut
      contradiction

theorem sealed_of_live (h : r.cause = none) (i : Intake) : r.Sealed i := fun b _ hcause => by
  rw [h] at hcause
  contradiction

theorem sealed_of_bodiless (h : r.body? = none) (i : Intake) : r.Sealed i := fun b hb _ => by
  rw [h] at hb
  contradiction

namespace Fills

theorem refl (r : Request) (i : Intake) : r.Fills clean i (r, i) := ⟨rfl, .refl i, id⟩

theorem trans {p q : Request × Intake} (h : r.Fills clean i p) (g : p.1.Fills clean p.2 q) :
    r.Fills clean i q :=
  ⟨g.body.trans h.body, h.intake.trans g.intake, fun hr => g.sealed (h.sealed hr)⟩

theorem still {s : Request} (hb : s.body? = r.body?) (hc : s.cause = r.cause) :
    r.Fills clean i (s, i) :=
  ⟨hb, .refl i, fun hr b hbody hcause => hr b (hb ▸ hbody) (hc ▸ hcause)⟩

end Fills

theorem fills_abort (cause : AbortCause) (reset : Bool)
    (h : r.terminal = false → ∀ b, r.body? = some b → i.writable b = true → clean b = false) :
    r.Fills clean i (r.abort i cause reset).state := by
  cases hlive : r.terminal with
  | true =>
      rw [abort, fail_over hlive]
      exact .refl r i
  | false =>
      obtain ⟨es, hfail⟩ := fail_live hlive cause reset
      rw [abort, hfail]
      simp only [if_true]
      split
      · rename_i hmode
        exact ⟨rfl, .refl i, fun _ => sealed_of_bodiless (by rw [body?, hmode]) i⟩
      · rename_i buffer complete taken hmode
        refine ⟨?_, .refl i, fun _ => sealed_of_bodiless rfl i⟩
        exact (show r.body? = none by rw [body?, hmode]).symm
      · rename_i body untaken hmode
        have hbody := body?_streaming hmode
        refine ⟨rfl, Intake.conducts_finish fun hw => ?_, fun _ b hb _ => ?_⟩
        · exact (h hlive body hbody hw).symm
        · obtain rfl := Option.some.inj (hbody.symm.trans hb)
          exact i.finish_writable body _

theorem fills_bind (tag : String) : r.Fills clean i ((r.bind tag).state, i) := by
  rw [bind]
  split <;> exact .still rfl rfl

theorem body?_takeBody (r : Request) : r.takeBody.1.body? = r.body? := by
  rw [takeBody]
  split
  · rename_i body hmode
    rw [body?, body?, hmode]
  · rfl

theorem takeBody_cause (r : Request) : r.takeBody.1.cause = r.cause := by
  rw [takeBody]
  split <;> rfl

theorem fills_perform (a : Action)
    (h : r.terminal = false → ∀ b, r.body? = some b → i.writable b = true → clean b = false) :
    r.Fills clean i (r.perform i a).state := by
  cases a with
  | bind tag => exact fills_bind tag
  | takeBody =>
      have hbody := body?_takeBody r
      have hcause := takeBody_cause r
      rw [perform]
      split
      · rename_i s body hs
        rw [hs] at hbody hcause
        have hkept : i.Conducts clean (i.keep s.stream body).state := i.conducts_keep _ body
        exact (Fills.still hbody hcause).trans ⟨rfl, hkept, fun hr => hr.conducts hkept⟩
      · rename_i s hs
        rw [hs] at hbody hcause
        exact .still hbody hcause
  | takeAggregated =>
      show r.Fills clean i (r.takeAggregated.1, i)
      rw [takeAggregated]
      split
      · rename_i buffer hmode
        split
        · exact .still (by rw [body?, body?, hmode]) rfl
        · exact .refl r i
      · exact .refl r i
  | abort cause reset => exact fills_abort cause reset h
  | complete =>
      show r.Fills clean i (r.complete.1, i)
      rw [complete]
      split <;> exact .still rfl rfl

theorem fills_performAll (actions : List Action) (h : ∀ b, r.body? = some b → clean b = false) :
    r.Fills clean i (r.performAll i actions).state := by
  induction actions generalizing r i with
  | nil => exact .refl r i
  | cons a rest ih =>
      have ha : r.Fills clean i (r.perform i a).state := fills_perform a fun _ b hb _ => h b hb
      exact ha.trans (ih fun b hb => h b (ha.body ▸ hb))

theorem onData_open {untaken : Bool} (hmode : r.mode = .streaming b untaken)
    (hlive : r.terminal = false) (hw : i.writable b = true) (bytes : Bytes) (last : Bool) :
    let s := r.onData i bytes last
    s.state.1.mode = r.mode ∧
      (s.result.isOk = false ∧ (∃ cause, s.state.2 = i.finish b (some cause)) ∨
        s.result.isOk = true ∧ s.state.1.cause = r.cause ∧
          ∃ j, (∀ clean, i.Conducts clean j) ∧
            s.state.2 = if last then j.finish b none else j) := by
  have hopen : ¬ (r.terminal || !i.writable b) = true := by simp [hlive, hw]
  simp only [onData, hmode]
  rw [if_neg hopen, receive_eq]
  cases hcause : (r.receive bytes.length).2 with
  | some cause =>
      obtain ⟨es, hfail⟩ := fail_live (r := { r with
        received := Word.saturate (r.received + bytes.length) }) hlive cause true
      simp only
      rw [hfail]
      exact ⟨hmode, .inl ⟨rfl, cause, rfl⟩⟩
  | none =>
      refine ⟨hmode, .inr ⟨rfl, rfl, _, fun clean => ?_, rfl⟩⟩
      split
      · exact .refl i
      · exact Intake.conducts_push hw bytes

theorem onData_bodiless (h : r.body? = none) (bytes : Bytes) (last : Bool) :
    (r.onData i bytes last).state.1.body? = none ∧ (r.onData i bytes last).state.2 = i := by
  rw [onData]
  cases hmode : r.mode with
  | empty => exact ⟨by rw [body?], rfl⟩
  | aggregating buffer complete taken =>
      simp only
      split
      · exact ⟨h, rfl⟩
      · rename_i hopen
        obtain ⟨hlive, -⟩ : r.terminal = false ∧ complete = false := by simpa using hopen
        rw [receive_eq]
        cases hcause : (r.receive bytes.length).2 with
        | none => exact ⟨rfl, rfl⟩
        | some cause =>
            obtain ⟨es, hfail⟩ := fail_live (r := { r with
              received := Word.saturate (r.received + bytes.length)
              mode := .aggregating [] complete taken }) hlive cause true
            refine ⟨?_, rfl⟩
            simp only
            rw [hfail]
            rfl
  | streaming body untaken =>
      rw [body?_streaming hmode] at h
      contradiction

theorem fills_onData (bytes : Bytes) (last : Bool)
    (h : r.terminal = false → ∀ b, r.body? = some b → i.writable b = true →
      clean b = (last && (r.onData i bytes last).result.isOk)) :
    r.Fills clean i (r.onData i bytes last).state := by
  cases hbody : r.body? with
  | none =>
      obtain ⟨hnone, hi⟩ := r.onData_bodiless (i := i) hbody bytes last
      exact ⟨hnone.trans hbody.symm, .of_channels (congrArg _ hi),
        fun _ => sealed_of_bodiless hnone _⟩
  | some b =>
      obtain ⟨untaken, hmode⟩ := body?_eq_some hbody
      by_cases hover : (r.terminal || !i.writable b) = true
      · have hsame : (r.onData i bytes last).state = (r, i) := by
          simp only [onData, hmode]
          rw [if_pos hover]
        rw [hsame]
        exact .refl r i
      · obtain ⟨hlive, hw⟩ : r.terminal = false ∧ i.writable b = true := by simpa using hover
        have hclean := h hlive b hbody hw
        obtain ⟨hsame, ⟨herror, cause, hi⟩ | ⟨hok, hcause, j, hj, hi⟩⟩ :=
          onData_open hmode hlive hw bytes last
        · rw [herror, Bool.and_false] at hclean
          refine ⟨body?_congr hsame, ?_, fun _ d hd _ => ?_⟩
          · rw [hi]
            exact Intake.conducts_finish fun _ => hclean.symm
          · obtain rfl := Option.some.inj (hbody.symm.trans ((body?_congr hsame).symm.trans hd))
            rw [hi]
            exact i.finish_writable b _
        · rw [hok, Bool.and_true] at hclean
          have hfed : i.Conducts clean (r.onData i bytes last).state.2 := by
            rw [hi]
            split
            · rename_i hlast
              exact (hj clean).trans (Intake.conducts_finish fun _ => by rw [hclean, hlast]; rfl)
            · exact hj clean
          have hr : r.Fills clean i ((r.onData i bytes last).state.1, i) :=
            .still (body?_congr hsame) hcause
          exact hr.trans ⟨rfl, hfed, fun hs => hs.conducts hfed⟩

theorem onData_ended (hb : r.body? = some b) (hlive : r.terminal = false)
    (hw : i.writable b = true) {bytes : Bytes} (hok : (r.onData i bytes true).result.isOk = true) :
    (r.onData i bytes true).state.2.writable b = false := by
  obtain ⟨untaken, hmode⟩ := body?_eq_some hb
  obtain ⟨-, ⟨herror, -⟩ | ⟨-, -, j, -, hi⟩⟩ := onData_open hmode hlive hw bytes true
  · rw [hok] at herror
    contradiction
  · rw [hi]
    exact j.finish_writable b none

theorem discard_unwritable {untaken : Bool} (h : r.mode = .streaming b untaken) (i : Intake) :
    (r.discard i).state.writable b = false := by
  have hfinish := i.finish_writable b none
  rw [discard, h]
  cases untaken with
  | false => exact hfinish
  | true => exact (Intake.drop_writable _ b).trans hfinish

theorem discard_ended (h : r.body? = some b) (i : Intake) :
    (r.discard i).state.writable b = false := by
  obtain ⟨untaken, hmode⟩ := body?_eq_some h
  exact discard_unwritable hmode i

theorem discard_bodiless (h : r.body? = none) (i : Intake) : (r.discard i).state = i := by
  rw [discard]
  split
  · rename_i body untaken hmode
    rw [body?_streaming hmode] at h
    contradiction
  · rfl

theorem conducts_discard (h : ∀ b, r.body? = some b → i.writable b = true → clean b = true) :
    i.Conducts clean (r.discard i).state := by
  cases hbody : r.body? with
  | none =>
      rw [discard_bodiless hbody]
      exact .refl i
  | some b =>
      obtain ⟨untaken, hmode⟩ := body?_eq_some hbody
      have hfinish : i.Conducts clean (i.finish b none) :=
        Intake.conducts_finish fun hw => (h b hbody hw).symm
      rw [discard, hmode]
      cases untaken with
      | false => exact hfinish
      | true => exact hfinish.trans (Intake.conducts_drop _ b)

theorem Fills.discarded {p : Request × Intake} (h : r.Fills clean i p)
    (hshut : ∀ b, p.1.body? = some b → p.2.writable b = false) :
    i.Conducts clean (p.1.discard p.2).state :=
  h.intake.trans (conducts_discard fun b hb hw => by
    rw [hshut b hb] at hw
    contradiction)

theorem abort_cause (h : r.terminal = false) (i : Intake) (cause : AbortCause) (reset : Bool) :
    (r.abort i cause reset).state.1.cause = some cause := by
  obtain ⟨es, hfail⟩ := fail_live h cause reset
  rw [abort, hfail]
  simp only [if_true]
  split <;> rfl

theorem abort_streaming {untaken : Bool} (hmode : r.mode = .streaming b untaken)
    (hlive : r.terminal = false) (cause : AbortCause) (reset : Bool) :
    (r.abort i cause reset).state =
      ({ r with cause := some cause, resetRequested := reset }, i.finish b (some cause)) := by
  obtain ⟨es, hfail⟩ := fail_live hlive cause reset
  rw [abort, hfail]
  simp only [hmode, if_true]

def dismiss (r : Request) (i : Intake) (cause : AbortCause) (reset : Bool) : Intake :=
  let p := (r.abort i cause reset).state
  (p.1.discard p.2).state

theorem dismiss_over (h : r.terminal = true) (i : Intake) (cause : AbortCause) (reset : Bool) :
    r.dismiss i cause reset = (r.discard i).state := by
  rw [dismiss, abort, fail_over h]
  rfl

theorem conducts_dismiss (hr : r.Sealed i) (cause : AbortCause) (reset : Bool)
    (h : ∀ b, r.body? = some b → i.writable b = true → clean b = r.completed) :
    i.Conducts clean (r.dismiss i cause reset) := by
  have habort : r.Fills clean i (r.abort i cause reset).state :=
    fills_abort cause reset fun hlive b hb hw => by
      rw [h b hb hw]
      exact (Bool.or_eq_false_iff.mp hlive).1
  refine habort.intake.trans (conducts_discard fun b hb hw => ?_)
  have hopen := habort.intake.writable hw
  have hbody : r.body? = some b := habort.body ▸ hb
  rw [h b hbody hopen]
  cases hdone : r.completed with
  | true => rfl
  | false =>
      have hlive : r.terminal = false := by rw [terminal, hdone, hr.live hbody hopen]; rfl
      have hcause := (habort.sealed hr).live hb hw
      rw [abort_cause hlive] at hcause
      contradiction

theorem dismiss_ended (h : r.body? = some b) (i : Intake) (cause : AbortCause) (reset : Bool) :
    (r.dismiss i cause reset).writable b = false := by
  have habort : r.Fills (fun _ => false) i (r.abort i cause reset).state :=
    fills_abort cause reset fun _ _ _ _ => rfl
  exact discard_ended (habort.body.trans h) _

theorem conducts_dismissals {rs : List Request} (hs : ∀ r ∈ rs, r.Sealed i) (cause : AbortCause)
    (reset : Bool)
    (h : ∀ r ∈ rs, ∀ b, r.body? = some b → i.writable b = true → clean b = r.completed) :
    let j := rs.foldl (fun i r => r.dismiss i cause reset) i
    i.Conducts clean j ∧ ∀ r ∈ rs, ∀ b, r.body? = some b → j.writable b = false := by
  induction rs generalizing i with
  | nil => exact ⟨.refl i, List.forall_mem_nil _⟩
  | cons r rest ih =>
      have hfirst := conducts_dismiss (hs r List.mem_cons_self) cause reset
        (h r List.mem_cons_self)
      obtain ⟨hrest, hended⟩ := ih
        (fun q hq => (hs q (List.mem_cons_of_mem r hq)).conducts hfirst)
        (fun q hq b hb hw => h q (List.mem_cons_of_mem r hq) b hb (hfirst.writable hw))
      refine ⟨hfirst.trans hrest, List.forall_mem_cons.mpr ⟨fun b hb => ?_, hended⟩⟩
      exact hrest.unwritable (dismiss_ended hb i cause reset)

theorem ofOpening_fills (o : Opening) (i : Intake) :
    (ofOpening o i).1.cause = none ∧
      ((ofOpening o i).1.body? = none ∧ (ofOpening o i).2 = i ∨
        (ofOpening o i).1.body? = some i.channels.length ∧ (ofOpening o i).2 = (i.add {}).1) := by
  rw [ofOpening]
  cases o.service with
  | none => exact ⟨rfl, .inl ⟨rfl, rfl⟩⟩
  | some service =>
      simp only
      split
      · exact ⟨rfl, .inl ⟨rfl, rfl⟩⟩
      · split
        · exact ⟨rfl, .inr ⟨rfl, rfl⟩⟩
        · exact ⟨rfl, .inl ⟨rfl, rfl⟩⟩

theorem toAborted_fills {s : Request} {cause : AbortCause}
    (h : r.toAborted? i cause = some (s, j)) :
    s.cause = some cause ∧ s.body? = some i.channels.length ∧
      j = (i.add { queue := [.failed cause], writable := false }).1 := by
  rw [toAborted?] at h
  split at h
  · obtain ⟨rfl, rfl⟩ := Prod.mk.inj (Option.some.inj h)
    exact ⟨rfl, rfl, rfl⟩
  · contradiction

end HttpLifecycle.Request
