import HttpLifecycle.Proofs.Gate.Draining
import HttpLifecycle.Proofs.Intake.Balance

namespace HttpLifecycle

namespace Channel

def Solid (c : Channel) : Prop := ∀ chunk ∈ c.queue, chunk ≠ .data []

variable {c : Channel}

theorem solid_nil (h : c.queue = []) : c.Solid := by
  rw [Solid, h]
  exact List.forall_mem_nil _

theorem Solid.filled (h : c.Solid) {bytes : Bytes} (hb : bytes ≠ []) : (c.filled bytes).Solid := by
  refine List.forall_mem_append.mpr ⟨h, List.forall_mem_singleton.mpr fun hnone => hb ?_⟩
  exact Chunk.data.inj hnone

theorem Solid.ended (h : c.Solid) (cause : Option AbortCause) : (c.ended cause).Solid := by
  rw [Channel.ended]
  split
  · exact h
  · intro chunk hchunk
    have hqueue : chunk ∈ c.queue ++ cause.toList.map .failed := by
      cases hh : c.held with
      | true => simpa [hh] using hchunk
      | false =>
          have hold : chunk ∈ c.queue := by simpa [hh] using hchunk
          exact List.mem_append_left _ hold
    rcases List.mem_append.mp hqueue with hold | hfailed
    · exact h chunk hold
    · obtain ⟨k, -, rfl⟩ := List.mem_map.mp hfailed
      exact Chunk.noConfusion

theorem weigh_ended (c : Channel) (cause : Option AbortCause) :
    weigh (c.ended cause).queue = weigh c.queue := by
  rw [ended]
  split
  · rfl
  · cases hh : c.held with
    | false => simp
    | true =>
        have hfailed : weigh (cause.toList.map .failed) = 0 := by cases cause <;> rfl
        simp [weigh_append, hfailed]

end Channel

namespace Intake

open Channel

/-- The gate is calm, and no empty payload waits anywhere. -/
structure Level (i : Intake) : Prop where
  calm : i.gate.Calm
  solid : ∀ c ∈ i.channels, c.Solid

def waiting (i : Intake) (b : BodyId) : Nat := (i.channels[b]?.map fun c => weigh c.queue).getD 0

variable {i j : Intake} {b : BodyId}

theorem level_fresh {marks : Marks} (h : marks.high = 0 ∨ marks.low ≤ marks.high) :
    Level { gate := { marks := marks } } where
  calm := ⟨h, fun hon _ => .inl hon⟩
  solid := List.forall_mem_nil _

namespace Level

theorem modify (h : i.Level) {f : Channel → Channel}
    (hf : ∀ c, i.channels[b]? = some c → c.Solid → (f c).Solid) : (i.modify b f).Level := by
  refine ⟨h.calm, fun d hd => ?_⟩
  rcases mem_modify hd with hd | ⟨c, hc, rfl⟩
  · exact h.solid d hd
  · exact hf c hc (h.solid c (List.mem_of_getElem? hc))

theorem release (h : i.Level) (n : Nat) : Level { i with gate := (i.gate.release n).state } :=
  ⟨h.calm.call (.release n), h.solid⟩

theorem consume (h : i.Level) (c : Chunk) : (i.consume c).state.Level := by
  cases c with
  | data bytes => exact h.release bytes.length
  | failed cause => exact h

theorem consumeAll (h : i.Level) (chunks : List Chunk) : (i.consumeAll chunks).state.Level := by
  induction chunks generalizing i with
  | nil => exact h
  | cons c rest ih => exact ih (h.consume c)

theorem add (h : i.Level) {c : Channel} (hc : ∀ chunk ∈ c.queue, chunk.isData = false) :
    (i.add c).1.Level := by
  refine ⟨h.calm, List.forall_mem_append.mpr ⟨h.solid, List.forall_mem_singleton.mpr ?_⟩⟩
  rintro chunk hchunk rfl
  exact absurd (hc _ hchunk) (by simp [Chunk.isData])

theorem push (h : i.Level) (b : BodyId) {bytes : Bytes} (hb : bytes ≠ []) :
    (i.push b bytes).state.Level := by
  have hcame : Level { i with gate := (i.gate.arrive bytes.length).state } :=
    ⟨h.calm.call (.arrive bytes.length), h.solid⟩
  by_cases hheld : i.held b = true
  · rw [push_held hheld]
    exact hcame.modify (b := b) fun c _ hc => hc.filled hb
  · rw [push_gone hheld]
    exact hcame.consume (.data bytes)

theorem finish (h : i.Level) (b : BodyId) (cause : Option AbortCause) :
    (i.finish b cause).Level := by
  rw [finish_eq]
  exact h.modify fun c _ hc => hc.ended cause

theorem read (h : i.Level) (b : BodyId) : (i.read b).state.Level := by
  cases hc : i.channels[b]? with
  | none =>
      rw [Intake.read, hc]
      exact h
  | some c =>
      cases hq : c.queue with
      | nil =>
          rw [Intake.read, hc]
          simp only [hq]
          exact h
      | cons chunk rest =>
          rw [read_next hc hq]
          refine (h.modify fun d hd hsolid left hleft => hsolid left ?_).consume chunk
          obtain rfl := Option.some.inj (hc.symm.trans hd)
          exact hq ▸ List.mem_cons_of_mem chunk hleft

theorem drop (h : i.Level) (b : BodyId) : (i.drop b).state.Level := by
  cases hc : i.channels[b]? with
  | none =>
      rw [Intake.drop, hc]
      exact h
  | some c =>
      rw [drop_some hc]
      exact (h.modify fun _ _ _ => solid_nil rfl).consumeAll c.queue

theorem move (h : i.Level) (m : Move (fun _ bytes => bytes ≠ []) i j) : j.Level := by
  cases m with
  | add c hheld hempty => exact h.add hempty
  | push body bytes hsome => exact h.push body hsome
  | finish body cause => exact h.finish body cause
  | read body => exact h.read body
  | drop body => exact h.drop body
  | file taken => exact ⟨h.calm, h.solid⟩

theorem moves (h : i.Level) (m : Moves (fun _ bytes => bytes ≠ []) i j) : j.Level := by
  induction m with
  | refl => exact h
  | tail _ m ih => exact ih.move m

end Level

theorem consume_eq {c : Chunk} (h : c ≠ .data []) (i : Intake) :
    (i.consume c).state = { i with gate := i.gate.drain c.size } := by
  cases c with
  | data bytes =>
      have hsome : bytes.length ≠ 0 := fun hnone => h (by rw [List.length_eq_zero_iff.mp hnone])
      have hdrain : i.gate.drain bytes.length = (i.gate.release bytes.length).state := if_neg hsome
      show _ = { i with gate := i.gate.drain bytes.length }
      rw [hdrain]
      rfl
  | failed cause => rfl

theorem consumeAll_eq (h : i.gate.Calm) {chunks : List Chunk}
    (hsolid : ∀ chunk ∈ chunks, chunk ≠ .data []) :
    (i.consumeAll chunks).state = { i with gate := i.gate.drain (weigh chunks) } := by
  induction chunks generalizing i with
  | nil => rfl
  | cons c rest ih =>
      obtain ⟨hc, hrest⟩ := List.forall_mem_cons.mp hsolid
      have hfirst := consume_eq hc i
      show ((i.consume c).state.consumeAll rest).state = _
      rw [hfirst, ih (h.drain c.size) hrest]
      show { i with gate := (i.gate.drain c.size).drain (weigh rest) } = _
      rw [h.drain_drain]
      rfl

theorem drop_eq (h : i.Level) (b : BodyId) :
    (i.drop b).state =
      { i with
        channels := i.channels.modify b fun c => { c with queue := [], held := false }
        gate := i.gate.drain (i.waiting b) } := by
  cases hc : i.channels[b]? with
  | none =>
      have hsame := modify_none hc fun c => { c with queue := [], held := false }
      have hnone : i.waiting b = 0 := by rw [waiting, hc]; rfl
      rw [Intake.drop, hc, hnone]
      exact congrArg (fun k : Intake => { i with channels := k.channels }) hsame.symm
  | some c =>
      have hsome : i.waiting b = weigh c.queue := by rw [waiting, hc]; rfl
      rw [drop_some hc, hsome]
      exact consumeAll_eq (i := i.modify b _) h.calm (h.solid c (List.mem_of_getElem? hc))

theorem signals_consumeAll (i : Intake) (chunks : List Chunk) :
    i.gate.Signals (i.consumeAll chunks).events (i.consumeAll chunks).state.gate := by
  induction chunks generalizing i with
  | nil => exact .refl i.gate
  | cons c rest ih =>
      refine Gate.Signals.trans ?_ (ih (i.consume c).state)
      cases c with
      | data bytes => exact Gate.signals_release i.gate bytes.length
      | failed cause => exact .refl i.gate

theorem signals_drop (i : Intake) (b : BodyId) :
    i.gate.Signals (i.drop b).events (i.drop b).state.gate := by
  rw [drop]
  split
  · exact .refl i.gate
  · exact signals_consumeAll (i.modify b _) _

end Intake

end HttpLifecycle
