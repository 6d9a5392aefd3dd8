import HttpLifecycle.Proofs.Request.Filling

namespace HttpLifecycle

namespace Intake

def Spares (own : BodyId → Prop) (i j : Intake) : Prop :=
  ∀ b, ¬ own b → j.channels[b]? = i.channels[b]?

variable {own : BodyId → Prop} {i j k : Intake} {b : BodyId}

namespace Spares

theorem of_channels (h : j.channels = i.channels) : i.Spares own j := fun b _ => by rw [h]

theorem refl (i : Intake) : i.Spares own i := of_channels rfl

theorem trans (h : i.Spares own j) (g : j.Spares own k) : i.Spares own k :=
  fun b hb => (g b hb).trans (h b hb)

end Spares

theorem spares_add (h : ∀ b, i.channels.length ≤ b → own b) (c : Channel) :
    i.Spares own (i.add c).1 := by
  intro b hb
  have hlt : b < i.channels.length := Nat.lt_of_not_le fun hle => hb (h b hle)
  exact List.getElem?_append_left hlt

theorem spares_modify (h : own b) (f : Channel → Channel) : i.Spares own (i.modify b f) := by
  intro a ha
  have hne : b ≠ a := fun hsame => ha (hsame ▸ h)
  show (i.channels.modify b f)[a]? = _
  simp [hne]

theorem spares_finish (h : own b) (cause : Option AbortCause) : i.Spares own (i.finish b cause) :=
  spares_modify h _

theorem spares_drop (h : own b) : i.Spares own (i.drop b).state := by
  cases hc : i.channels[b]? with
  | none =>
      rw [drop, hc]
      exact .refl i
  | some c =>
      rw [drop_some hc]
      exact (spares_modify h _).trans (.of_channels (consumeAll_channels _ _))

theorem consume_taken (i : Intake) (c : Chunk) : (i.consume c).state.taken = i.taken := by
  cases c <;> rfl

theorem consumeAll_taken (i : Intake) (chunks : List Chunk) :
    (i.consumeAll chunks).state.taken = i.taken := by
  induction chunks generalizing i with
  | nil => rfl
  | cons c rest ih => exact (ih _).trans (consume_taken i c)

theorem drop_taken (i : Intake) (b : BodyId) : (i.drop b).state.taken = i.taken := by
  rw [drop]
  split
  · rfl
  · exact consumeAll_taken _ _

theorem spares_keep {stream : StreamId} (h : ∀ old, i.taken.lookup stream = some old → own old)
    (body : BodyId) :
    i.Spares own (i.keep stream body).state ∧
      (i.keep stream body).state.taken.lookup stream = some body := by
  have hkept : ((stream, body) :: i.taken.filter (·.1 != stream)).lookup stream = some body := by
    simp
  rw [keep]
  cases hold : i.taken.lookup stream with
  | none => exact ⟨.of_channels rfl, hkept⟩
  | some old =>
      refine ⟨Spares.trans (.of_channels rfl) (spares_drop (h old hold)), ?_⟩
      show (drop _ old).state.taken.lookup stream = _
      rw [drop_taken]
      exact hkept

end Intake

namespace Request

variable {own : BodyId → Prop} {r : Request} {i : Intake}

theorem spares_abort (h : ∀ b, r.body? = some b → own b) (cause : AbortCause) (reset : Bool) :
    i.Spares own (r.abort i cause reset).state.2 ∧
      (r.abort i cause reset).state.2.taken = i.taken := by
  have hmode := mode_fail r cause reset
  rw [abort]
  split
  · split
    · exact ⟨.refl i, rfl⟩
    · exact ⟨.refl i, rfl⟩
    · rename_i b untaken hstreaming
      exact ⟨Intake.spares_finish (h b (body?_streaming (hmode ▸ hstreaming))) _, rfl⟩
  · exact ⟨.refl i, rfl⟩

theorem spares_discard (h : ∀ b, r.body? = some b → own b) : i.Spares own (r.discard i).state := by
  cases hbody : r.body? with
  | none =>
      rw [discard_bodiless hbody]
      exact .refl i
  | some b =>
      obtain ⟨untaken, hmode⟩ := body?_eq_some hbody
      have hown := h b hbody
      rw [discard, hmode]
      cases untaken with
      | false => exact Intake.spares_finish hown none
      | true => exact (Intake.spares_finish hown none).trans (Intake.spares_drop hown)

theorem spares_perform (hbody : ∀ b, r.body? = some b → own b)
    (htaken : ∀ old, i.taken.lookup r.stream = some old → own old) (a : Action) :
    i.Spares own (r.perform i a).state.2 ∧
      ∀ old, (r.perform i a).state.2.taken.lookup r.stream = some old → own old := by
  cases a with
  | takeBody =>
      rw [perform, takeBody]
      cases hmode : r.mode with
      | streaming b untaken =>
          have hown := hbody b (body?_streaming hmode)
          cases untaken with
          | false => exact ⟨.refl i, htaken⟩
          | true =>
              have hkeep : i.Spares own (i.keep r.stream b).state ∧
                  (i.keep r.stream b).state.taken.lookup r.stream = some b :=
                Intake.spares_keep htaken b
              obtain ⟨hspares, hkept⟩ := hkeep
              refine ⟨hspares, fun old hold => ?_⟩
              obtain rfl := Option.some.inj (hkept.symm.trans hold)
              exact hown
      | _ => exact ⟨.refl i, htaken⟩
  | abort cause reset =>
      obtain ⟨hspares, hsame⟩ := spares_abort hbody (i := i) cause reset
      exact ⟨hspares, fun old hold => htaken old (hsame ▸ hold)⟩
  | bind tag | takeAggregated | complete => exact ⟨.refl i, htaken⟩

theorem spares_performAll (hbody : ∀ b, r.body? = some b → own b)
    (htaken : ∀ old, i.taken.lookup r.stream = some old → own old) (actions : List Action) :
    i.Spares own (r.performAll i actions).state.2 := by
  induction actions generalizing r i with
  | nil => exact .refl i
  | cons a rest ih =>
      obtain ⟨hspares, hkept⟩ := spares_perform hbody htaken a
      have hfills : r.Fills (fun _ => false) i (r.perform i a).state :=
        fills_perform a fun _ _ _ _ => rfl
      have hstream := (ownStep_perform (R := fun _ _ => True) r i a).sameOpening.stream
      refine hspares.trans (ih (fun b hb => hbody b (hfills.body ▸ hb)) ?_)
      rw [hstream]
      exact hkept

end Request

end HttpLifecycle
