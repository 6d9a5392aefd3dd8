import HttpLifecycle.Proofs.Connection.StreamSteps

namespace HttpLifecycle

def Effect.serving : Effect → Bool
  | .sink (.reset ..) | .sink .suspendReads | .sink .resumeReads => true
  | .sink _ => false
  | .count .streamsOpened | .count .streamsRefused => true
  | .count .requestsAborted | .count .aggregationFailures => true
  | .count _ => false
  | .lifespan .. => false
  | _ => true

def Serving (es : List Effect) : Prop := ∀ e ∈ es, e.serving = true

theorem serving_nil : Serving [] := by simp [Serving]

theorem serving_append {es fs : List Effect} (h : Serving es) (g : Serving fs) :
    Serving (es ++ fs) := by
  intro e he
  rcases List.mem_append.mp he with he | he
  · exact h e he
  · exact g e he

theorem serving_cons {e : Effect} {es : List Effect} (h : e.serving = true) (g : Serving es) :
    Serving (e :: es) := by
  intro f hf
  rcases List.mem_cons.mp hf with rfl | hf
  · exact h
  · exact g f hf

theorem Tending.serving {es : List Effect} (h : Tending es) : Serving es := by
  intro e he
  have htending := h e he
  cases e with
  | sink k => cases k <;> first | rfl | contradiction
  | count k => cases k <;> first | rfl | contradiction
  | lifespan p d => contradiction
  | _ => rfl

namespace Connection

/-- One connection follows another while streams are served: the table, the
inbound side and the journal may differ, and nothing that a shutdown looks at. -/
inductive ShutdownKept (c : Connection) : Connection → Prop
  | intro (streams : List Request) (intake : Intake) (dispatched : Nat) (es : List Effect)
      (h : Serving es) :
      ShutdownKept c { c with
        streams := streams
        intake := intake
        dispatched := dispatched
        journal := c.journal ++ es }

namespace ShutdownKept

theorem refl (c : Connection) : ShutdownKept c c := by
  have h := ShutdownKept.intro (c := c) c.streams c.intake c.dispatched [] serving_nil
  rwa [List.append_nil] at h

theorem trans {a b c : Connection} (h : ShutdownKept a b) (g : ShutdownKept b c) :
    ShutdownKept a c := by
  obtain ⟨_, _, _, es, hes⟩ := h
  obtain ⟨streams, intake, dispatched, fs, hfs⟩ := g
  have := ShutdownKept.intro (c := a) streams intake dispatched (es ++ fs) (serving_append hes hfs)
  rwa [← List.append_assoc] at this

theorem tornDown {c d : Connection} (h : ShutdownKept c d) : d.tornDown = c.tornDown := by
  cases h
  rfl

variable (c : Connection)

theorem emit {es : List Effect} (h : Serving es) : ShutdownKept c (c.emit es) :=
  .intro c.streams c.intake c.dispatched es h

theorem streams (streams : List Request) : ShutdownKept c { c with streams := streams } := by
  have h := ShutdownKept.intro (c := c) streams c.intake c.dispatched [] serving_nil
  rwa [List.append_nil] at h

theorem intake (intake : Intake) : ShutdownKept c { c with intake := intake } := by
  have h := ShutdownKept.intro (c := c) c.streams intake c.dispatched [] serving_nil
  rwa [List.append_nil] at h

theorem log (level : Level) (message : String) (fields : List (String × Note.Value)) :
    ShutdownKept c (c.log level message fields) :=
  emit c (serving_cons rfl serving_nil)

theorem count {k : Counter} (h : (Effect.count k).serving = true) : ShutdownKept c (c.count k) :=
  emit c (serving_cons h serving_nil)

theorem discard (r : Request) : ShutdownKept c (c.absorb (r.discard c.intake)) :=
  .intro c.streams _ c.dispatched _ (r.inner_discard c.intake).tending.serving

theorem retire (r : Request) (now : Instant) : ShutdownKept c (c.retire r now) :=
  (discard c r).trans (emit _ (serving_cons rfl serving_nil))

theorem put (r : Request) : ShutdownKept c (c.put r) := by
  rw [Connection.put]
  split
  · exact streams c _
  · exact (streams c _).trans (discard (c.update r) _)

theorem closeStream (now : Instant) (r : Request) :
    ShutdownKept c (Connection.closeStream now c r) := by
  rw [Connection.closeStream]
  simp only
  split
  · exact (streams c _).trans (retire _ _ now)
  · have habort := (r.ownStep_abort (R := fun _ _ => True) c.intake .connectionClosed false).inner
    exact ((((streams c _).trans (intake _ _)).trans (emit _ habort.tending.serving)).trans
      (count _ rfl)).trans (retire _ _ now)

theorem closeStreams (now : Instant) (rs : List Request) :
    ShutdownKept c (rs.foldl (Connection.closeStream now) c) := by
  induction rs generalizing c with
  | nil => exact refl c
  | cons r rest ih => exact (closeStream c now r).trans (ih _)

end ShutdownKept

variable {c d : Connection}

theorem StreamStep.shutdownKept (m : StreamStep (fun _ _ => True) false c d) :
    ShutdownKept c d := by
  cases m with
  | serve i dispatched es hi hes => exact .intro c.streams i dispatched es hes.serving
  | amend old r hr hstays => exact .streams c _
  | leave old r now hr hstays =>
      exact (ShutdownKept.streams c _).trans (.emit _ (serving_cons rfl serving_nil))

theorem StreamSteps.shutdownKept (m : StreamSteps (fun _ _ => True) false c d) :
    ShutdownKept c d := by
  induction m with
  | refl => exact .refl c
  | tail _ m ih => exact ih.trans m.shutdownKept

theorem ShutdownKept.dispatch (c : Connection) (r : Request) : ShutdownKept c (c.dispatch r).1 :=
  StreamSteps.shutdownKept (.dispatch r)

theorem ShutdownKept.refuse (c : Connection) (stream : StreamId) (why : Refusal) :
    ShutdownKept c (c.refuse stream why) :=
  StreamSteps.shutdownKept (.refuse stream why)

end Connection

end HttpLifecycle
