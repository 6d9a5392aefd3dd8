import HttpLifecycle.Proofs.Intake.Draining
import HttpLifecycle.Proofs.Request.Locality
import Mathlib.Data.List.Count

namespace HttpLifecycle

namespace Intake

variable {b : BodyId}

theorem waiting_modify {f : Channel → Channel}
    (hf : ∀ c : Channel, Channel.weigh (f c).queue = Channel.weigh c.queue) (i : Intake)
    (b : BodyId) : (i.modify b f).waiting b = i.waiting b := by
  show (((i.channels.modify b f)[b]?).map _).getD 0 = _
  rw [List.getElem?_modify, waiting]
  cases i.channels[b]? with
  | none => rfl
  | some c => simp [hf]

theorem Spares.waiting {own : BodyId → Prop} {i j : Intake} (h : i.Spares own j) (hb : ¬ own b) :
    j.waiting b = i.waiting b := by
  rw [Intake.waiting, Intake.waiting, h b hb]

theorem modify_modify (f g : Channel → Channel) (i : Intake) (b : BodyId) :
    (i.modify b f).modify b g = i.modify b (g ∘ f) := by
  show { i with channels := (i.channels.modify b f).modify b g } = _
  rw [List.modify_modify_eq]
  rfl

end Intake

namespace Request

def untaken (r : Request) : Bool :=
  match r.mode with
  | .streaming _ untaken => untaken
  | _ => false

def closing (r : Request) (cause : AbortCause) (c : Channel) : Channel :=
  (if r.terminal then c else c.ended (some cause)).ended none

def leaving (r : Request) (cause : AbortCause) (c : Channel) : Channel :=
  if r.untaken then { r.closing cause c with queue := [], held := false } else r.closing cause c

def burden (r : Request) (i : Intake) : Nat :=
  if r.untaken then (r.body?.map i.waiting).getD 0 else 0

variable {r q : Request} {i j : Intake} {b : BodyId} {u : Bool}

theorem abort_ends (hmode : r.mode = .streaming b u) (i : Intake) (cause : AbortCause)
    (reset : Bool) :
    let p := (r.abort i cause reset).state
    p.1.mode = .streaming b u ∧ p.2 = if r.terminal then i else i.finish b (some cause) := by
  cases hlive : r.terminal with
  | true =>
      rw [abort, fail_over hlive]
      exact ⟨hmode, rfl⟩
  | false =>
      rw [abort_streaming hmode hlive]
      exact ⟨hmode, rfl⟩

theorem discard_streaming (hmode : r.mode = .streaming b u) (i : Intake) :
    (r.discard i).state =
      if u then ((i.finish b none).drop b).state else i.finish b none := by
  simp only [discard, hmode]
  split <;> rfl

theorem weigh_closing (r : Request) (cause : AbortCause) (c : Channel) :
    Channel.weigh (r.closing cause c).queue = Channel.weigh c.queue := by
  rw [closing, Channel.weigh_ended]
  split
  · rfl
  · exact c.weigh_ended _

theorem level_dismiss (h : i.Level) (r : Request) (cause : AbortCause) (reset : Bool) :
    (r.dismiss i cause reset).Level :=
  (h.moves (r.ownStep_abort i cause reset).intake).moves (moves_discard _ _)

theorem abort_body (r : Request) (i : Intake) (cause : AbortCause) (reset : Bool) :
    (r.abort i cause reset).state.1.body? = r.body? := by
  have habort : r.Fills (fun _ => false) i (r.abort i cause reset).state :=
    fills_abort cause reset fun _ _ _ _ => rfl
  exact habort.body

theorem abort_bodiless (h : r.body? = none) (i : Intake) (cause : AbortCause) (reset : Bool) :
    (r.abort i cause reset).state.1.body? = none ∧ (r.abort i cause reset).state.2 = i := by
  refine ⟨(r.abort_body i cause reset).trans h, ?_⟩
  have hmode := mode_fail r cause reset
  rw [abort]
  split
  · split
    · rfl
    · rfl
    · rename_i body untaken hstreaming
      rw [body?_streaming (hmode ▸ hstreaming)] at h
      contradiction
  · rfl

theorem dismiss_bodiless (h : r.body? = none) (i : Intake) (cause : AbortCause) (reset : Bool) :
    r.dismiss i cause reset = i := by
  obtain ⟨hbody, hintake⟩ := abort_bodiless h i cause reset
  rw [dismiss, discard_bodiless hbody, hintake]

theorem spares_dismiss (own : BodyId → Prop) (h : ∀ b, r.body? = some b → own b) (i : Intake)
    (cause : AbortCause) (reset : Bool) : i.Spares own (r.dismiss i cause reset) :=
  (spares_abort h cause reset).1.trans
    (spares_discard fun b hb => h b (r.abort_body i cause reset ▸ hb))

theorem dismiss_eq (h : i.Level) (hbody : r.body? = some b) (cause : AbortCause) (reset : Bool) :
    r.dismiss i cause reset =
      { i with
        channels := i.channels.modify b (r.leaving cause)
        gate := i.gate.drain (r.burden i) } := by
  obtain ⟨u, hmode⟩ := body?_eq_some hbody
  obtain ⟨hkept, hintake⟩ := abort_ends hmode i cause reset
  have huntaken : r.untaken = u := by rw [untaken, hmode]
  have hclosed : (r.abort i cause reset).state.2.finish b none = i.modify b (r.closing cause) := by
    rw [hintake]
    cases hover : r.terminal with
    | true =>
        have hsame : r.closing cause = Channel.ended none := by
          funext c
          simp [closing, hover]
        rw [hsame]
        rfl
    | false =>
        have hboth : r.closing cause = Channel.ended none ∘ Channel.ended (some cause) := by
          funext c
          simp [closing, hover]
        rw [hboth, ← Intake.modify_modify]
        rfl
  rw [dismiss, discard_streaming hkept, hclosed]
  cases hu : u with
  | false =>
      have hleaves : r.leaving cause = r.closing cause := by
        funext c
        simp [leaving, huntaken, hu]
      have hnone : r.burden i = 0 := by simp [burden, huntaken, hu]
      rw [hleaves, hnone]
      rfl
  | true =>
      have hleaves : r.leaving cause =
          (fun c => { c with queue := [], held := false }) ∘ r.closing cause := by
        funext c
        simp [leaving, huntaken, hu]
      have hweight : r.burden i = (i.modify b (r.closing cause)).waiting b := by
        rw [Intake.waiting_modify (r.weigh_closing cause)]
        simp [burden, huntaken, hu, hbody]
      have hlevel : (i.modify b (r.closing cause)).Level := by
        rw [← hclosed]
        exact (h.moves (r.ownStep_abort i cause reset).intake).finish b none
      rw [if_pos rfl, Intake.drop_eq hlevel, hleaves, hweight, ← List.modify_modify_eq]
      rfl

theorem dismiss_comm (h : i.Level) (hown : ∀ b, r.body? = some b → q.body? ≠ some b)
    (cause : AbortCause) (reset : Bool) :
    q.dismiss (r.dismiss i cause reset) cause reset =
      r.dismiss (q.dismiss i cause reset) cause reset := by
  cases hr : r.body? with
  | none => rw [dismiss_bodiless hr, dismiss_bodiless hr]
  | some b =>
      cases hq : q.body? with
      | none => rw [dismiss_bodiless hq, dismiss_bodiless hq]
      | some a =>
          have hne : b ≠ a := fun hsame => hown b hr (hsame ▸ hq)
          have hqr : q.burden (r.dismiss i cause reset) = q.burden i := by
            have hspared := spares_dismiss (· = b)
              (fun c hc => Option.some.inj (hc.symm.trans hr)) i cause reset
            rw [burden, burden, hq, Option.map_some, Option.map_some, hspared.waiting hne.symm]
          have hrq : r.burden (q.dismiss i cause reset) = r.burden i := by
            have hspared := spares_dismiss (· = a)
              (fun c hc => Option.some.inj (hc.symm.trans hq)) i cause reset
            rw [burden, burden, hr, Option.map_some, Option.map_some, hspared.waiting hne]
          rw [dismiss_eq (level_dismiss h r cause reset) hq, hqr,
            dismiss_eq (level_dismiss h q cause reset) hr, hrq, dismiss_eq h hr, dismiss_eq h hq]
          simp only [List.modify_modify_ne _ _ _ hne, h.calm.drain_comm (r.burden i)]

theorem abort_gate (r : Request) (i : Intake) (cause : AbortCause) (reset : Bool) :
    (r.abort i cause reset).state.2.gate = i.gate := by
  cases hbody : r.body? with
  | none => rw [(abort_bodiless hbody i cause reset).2]
  | some b =>
      obtain ⟨u, hmode⟩ := body?_eq_some hbody
      rw [(abort_ends hmode i cause reset).2]
      split <;> rfl

theorem signals_discard (r : Request) (i : Intake) : ∃ es,
    (r.discard i).events = es.map .ofGate ∧ i.gate.Signals es (r.discard i).state.gate := by
  rw [discard]
  split
  · rename_i b u hmode
    simp only
    split
    · exact ⟨_, rfl, Intake.signals_drop (i.finish b none) b⟩
    · exact ⟨[], rfl, .refl i.gate⟩
  · exact ⟨[], rfl, .refl i.gate⟩

end Request

end HttpLifecycle
