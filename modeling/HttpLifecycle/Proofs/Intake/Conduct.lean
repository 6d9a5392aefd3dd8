import HttpLifecycle.Proofs.Intake.Balance

namespace HttpLifecycle

namespace Channel

inductive Fares (clean : Bool) (c : Channel) : Channel → Prop
  | stays : Fares clean c c
  | fills (more : List Chunk) (hw : c.writable = true)
      (hmore : ∀ chunk ∈ more, chunk.isData = true) :
      Fares clean c { c with queue := c.queue ++ more }
  | ends (more : List Chunk) (cause : Option AbortCause) (hw : c.writable = true)
      (hmore : ∀ chunk ∈ more, chunk.isData = true) (hcause : cause.isNone = clean) :
      Fares clean c { c with
        queue := c.queue ++ more ++ cause.toList.map .failed
        writable := false }
  | lost {d : Channel} (hd : d.held = false) (hw : d.writable = true → c.writable = true) :
      Fares clean c d

variable {clean : Bool} {c d e : Channel}

namespace Fares

theorem held (h : c.Fares clean d) (hd : d.held = true) : c.held = true := by
  cases h with
  | stays | fills | ends => exact hd
  | lost hlost =>
      rw [hlost] at hd
      contradiction

theorem writable (h : c.Fares clean d) (hd : d.writable = true) : c.writable = true := by
  cases h with
  | stays | fills => exact hd
  | ends more cause hw => exact hw
  | lost hlost hw => exact hw hd

theorem trans (h : c.Fares clean d) (g : d.Fares clean e) : c.Fares clean e := by
  cases g with
  | stays => exact h
  | lost he hw => exact .lost he fun hopen => h.writable (hw hopen)
  | fills more hw hmore =>
      cases h with
      | stays => exact .fills more hw hmore
      | fills first hw' hfirst =>
          have hall : c.Fares clean { c with queue := c.queue ++ (first ++ more) } :=
            .fills (first ++ more) hw' (List.forall_mem_append.mpr ⟨hfirst, hmore⟩)
          rw [← List.append_assoc] at hall
          exact hall
      | ends => contradiction
      | lost hd hw' => exact .lost hd hw'
  | ends more cause hw hmore hcause =>
      cases h with
      | stays => exact .ends more cause hw hmore hcause
      | fills first hw' hfirst =>
          have hall := Fares.ends (c := c) (first ++ more) cause hw'
            (List.forall_mem_append.mpr ⟨hfirst, hmore⟩) hcause
          rw [← List.append_assoc c.queue first more] at hall
          exact hall
      | ends => contradiction
      | lost hd hw' => exact .lost hd fun hopen => by contradiction

end Fares

theorem fares_filled (h : c.writable = true) (bytes : Bytes) : c.Fares clean (c.filled bytes) :=
  .fills [.data bytes] h fun chunk hchunk => by
    obtain rfl := List.mem_singleton.mp hchunk
    rfl

theorem fares_ended (cause : Option AbortCause) (h : c.writable = true → cause.isNone = clean) :
    c.Fares clean (c.ended cause) := by
  cases hw : c.writable with
  | false =>
      rw [ended, hw]
      exact .stays
  | true =>
      cases hh : c.held with
      | false => exact .lost ((ended_held cause c).trans hh) fun _ => hw
      | true =>
          have hends := Fares.ends (c := c) [] cause hw (List.forall_mem_nil _) (h hw)
          rw [List.append_nil] at hends
          have hended : c.ended cause =
              { c with queue := c.queue ++ cause.toList.map .failed, writable := false } := by
            simp [ended, hw, hh]
          rw [hended]
          exact hends

end Channel

namespace Intake

open Channel

/-- No body comes to be, and for every one that is there the flag says how it
may be ended. -/
structure Conducts (clean : BodyId → Bool) (i j : Intake) : Prop where
  size : j.channels.length = i.channels.length
  fares : ∀ {b : BodyId} {c : Channel}, i.channels[b]? = some c →
    ∃ d, j.channels[b]? = some d ∧ c.Fares (clean b) d

variable {clean : BodyId → Bool} {i j k : Intake} {b : BodyId}

theorem writable_iff : i.writable b = true ↔ ∃ c, i.channels[b]? = some c ∧ c.writable = true :=
  Option.any_eq_true _ _

theorem writable_lt (h : i.writable b = true) : b < i.channels.length := by
  obtain ⟨c, hc, -⟩ := writable_iff.mp h
  exact (List.getElem?_eq_some_iff.mp hc).1

namespace Conducts

theorem of_channels (h : j.channels = i.channels) : i.Conducts clean j :=
  ⟨congrArg List.length h, fun hc => ⟨_, h ▸ hc, .stays⟩⟩

theorem refl (i : Intake) : i.Conducts clean i := of_channels rfl

theorem trans (h : i.Conducts clean j) (g : j.Conducts clean k) : i.Conducts clean k := by
  refine ⟨g.size.trans h.size, fun hc => ?_⟩
  obtain ⟨d, hd, hfirst⟩ := h.fares hc
  obtain ⟨e, he, hsecond⟩ := g.fares hd
  exact ⟨e, he, hfirst.trans hsecond⟩

theorem writable (h : i.Conducts clean j) (hw : j.writable b = true) : i.writable b = true := by
  have hlt : b < i.channels.length := h.size ▸ writable_lt hw
  obtain ⟨d, hd, hfares⟩ := h.fares (List.getElem?_eq_getElem hlt)
  obtain ⟨e, he, hopen⟩ := writable_iff.mp hw
  obtain rfl := Option.some.inj (hd.symm.trans he)
  exact writable_iff.mpr ⟨_, List.getElem?_eq_getElem hlt, hfares.writable hopen⟩

theorem unwritable (h : i.Conducts clean j) (hw : i.writable b = false) : j.writable b = false := by
  cases hj : j.writable b with
  | false => rfl
  | true => exact (h.writable hj).symm.trans hw

theorem beyond (h : i.Conducts clean j) (hb : i.channels.length ≤ b) : j.writable b = false := by
  cases hj : j.writable b with
  | false => rfl
  | true => exact absurd (writable_lt (h.writable hj)) (Nat.not_lt_of_le hb)

end Conducts

theorem conducts_modify {body : BodyId} {f : Channel → Channel}
    (h : ∀ c, i.channels[body]? = some c → c.Fares (clean body) (f c)) :
    i.Conducts clean (i.modify body f) := by
  refine ⟨List.length_modify .., fun {b c} hc => ?_⟩
  show ∃ d, (i.channels.modify body f)[b]? = some d ∧ _
  rw [List.getElem?_modify, hc]
  by_cases hb : body = b
  · subst hb
    exact ⟨f c, by simp, h c hc⟩
  · exact ⟨c, by simp [hb], .stays⟩

theorem conducts_push {body : BodyId} (h : i.writable body = true) (bytes : Bytes) :
    i.Conducts clean (i.push body bytes).state := by
  obtain ⟨c, hc, hopen⟩ := writable_iff.mp h
  by_cases hheld : i.held body = true
  · have hfilled : i.Conducts clean (i.modify body (filled bytes)) :=
      conducts_modify fun d hd => by
        obtain rfl := Option.some.inj (hc.symm.trans hd)
        exact fares_filled hopen bytes
    rw [push_held hheld]
    exact hfilled.trans (.of_channels rfl)
  · rw [push_gone hheld]
    exact .of_channels (consume_channels _ _)

theorem conducts_finish {body : BodyId} {cause : Option AbortCause}
    (h : i.writable body = true → cause.isNone = clean body) :
    i.Conducts clean (i.finish body cause) := by
  rw [finish_eq]
  refine conducts_modify fun c hc => fares_ended cause fun hopen => h ?_
  exact writable_iff.mpr ⟨c, hc, hopen⟩

theorem conducts_drop (i : Intake) (body : BodyId) : i.Conducts clean (i.drop body).state := by
  cases hc : i.channels[body]? with
  | none =>
      rw [drop, hc]
      exact .refl i
  | some c =>
      have hlost :
          i.Conducts clean (i.modify body fun c => { c with queue := [], held := false }) :=
        conducts_modify fun d _ => .lost rfl id
      rw [drop_some hc]
      exact hlost.trans (.of_channels (consumeAll_channels _ _))

theorem conducts_keep (i : Intake) (stream : StreamId) (body : BodyId) :
    i.Conducts clean (i.keep stream body).state := by
  rw [keep]
  cases i.taken.lookup stream with
  | none => exact .of_channels rfl
  | some old =>
      have hfile : i.Conducts clean
          { i with taken := (stream, body) :: i.taken.filter (·.1 != stream) } := .of_channels rfl
      exact hfile.trans (conducts_drop _ old)

theorem finish_writable (i : Intake) (body : BodyId) (cause : Option AbortCause) :
    (i.finish body cause).writable body = false := by
  rw [finish_eq, writable, modify, List.getElem?_modify_eq]
  cases i.channels[body]? with
  | none => rfl
  | some c =>
      show (c.ended cause).writable = false
      rw [Channel.ended]
      cases hw : c.writable <;> simp [hw]

theorem drop_writable (i : Intake) (body : BodyId) :
    (i.drop body).state.writable body = i.writable body := by
  cases hc : i.channels[body]? with
  | none => rw [drop, hc]
  | some c =>
      rw [drop_some hc, writable, consumeAll_channels, modify, List.getElem?_modify_eq, writable,
        hc]
      rfl

end Intake

end HttpLifecycle
