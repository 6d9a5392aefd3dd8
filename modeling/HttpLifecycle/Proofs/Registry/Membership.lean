import HttpLifecycle.Proofs.Registry.Waning

namespace HttpLifecycle.Registry

open Member

def given (r : Registry) : Op → List ConnectionId
  | .spawn protocol => [(r.spawn protocol).2]
  | _ => []

def spawned (r : Registry) : List Op → List ConnectionId
  | [] => []
  | op :: rest => r.given op ++ (r.step op).spawned rest

/-- An event was queued once for each connection that a handle can be got to,
and for no other. -/
structure Notified (r : Registry) (e : Connection.Event) (s : Registry) (count : Nat) : Prop where
  count : count = r.members.countP fun m => (r.get? m.id).isSome
  size : s.members.length = r.members.length
  queued : ∀ (k : Nat) (m : Member), r.members[k]? = some m → ∃ n, s.members[k]? = some n ∧
    n.queue = m.queue ++ if (r.get? m.id).isSome then [e] else []

variable {r : Registry} {k : Nat} {m n : Member}

theorem Orderly.ids (h : Orderly r) :
    r.members.map Member.id = (List.range r.members.length).map (· + 1) := by
  apply List.ext_getElem?
  intro k
  rw [List.getElem?_map, List.getElem?_map]
  cases hm : r.members[k]? with
  | none =>
      have hlen := List.getElem?_eq_none_iff.mp hm
      rw [List.getElem?_eq_none_iff.mpr (by simpa using hlen)]
      rfl
  | some m =>
      have hlen := (List.getElem?_eq_some_iff.mp hm).1
      rw [List.getElem?_range hlen]
      exact congrArg some (h.member k m hm).1

theorem Orderly.nodup (h : Orderly r) : (r.members.map Member.id).Nodup := by
  rw [h.ids]
  exact List.nodup_range.map fun a b hab => Nat.succ.inj hab

theorem step_length (r : Registry) (op : Op) :
    (r.step op).members.length = r.members.length + (r.given op).length := by
  cases op with
  | spawn protocol => exact List.length_append
  | send id viaGet events => exact (r.modifies_send id viaGet events).length
  | clone id => exact (r.modifies_clone id).length
  | drop id => exact (r.modifies_dropHandle id).length
  | serve id stream demand => exact (r.modifies_serve id stream demand).length
  | shutdownAll => exact (List.length_map _).trans (List.length_map _)
  | pass d => rfl
  | drainAll | detach | advance | take | wake => exact List.length_map _

theorem step_ids (h : Orderly r) (op : Op) :
    (r.step op).members.map Member.id = r.members.map Member.id ++ r.given op := by
  rw [(h.step op).ids, h.ids, step_length]
  cases op with
  | spawn protocol =>
      rw [given, List.length_singleton, List.range_succ, List.map_append]
      rfl
  | _ => exact (List.append_nil _).symm

theorem spawned_ids (h : Orderly r) (ops : List Op) :
    (r.play ops).members.map Member.id = r.members.map Member.id ++ r.spawned ops := by
  induction ops generalizing r with
  | nil => exact (List.append_nil _).symm
  | cons op rest ih =>
      have hrest : (r.play (op :: rest)).members.map Member.id = _ := ih (h.step op)
      rw [hrest, step_ids h, List.append_assoc]
      rfl

theorem Member.Sound.live_eq (h : m.Sound) : m.live = decide (m.connection.state ≠ .closed) := by
  rw [live, h.ended]
  cases ht : m.connection.tornDown with
  | true => simp [h.coherent.closed_iff.mpr ht]
  | false =>
      have hopen : m.connection.state ≠ .closed := fun hs => by
        rw [h.coherent.closed_iff.mp hs] at ht
        contradiction
      simp [hopen]

theorem held_eq (h : Orderly r) :
    r.held = (r.members.filter fun m => m.connection.state ≠ .closed).map Member.id := by
  rw [h.held, List.filter_congr fun m hm => (h.member.sound hm).live_eq]

theorem get?_eq_some (h : Orderly r) {id : ConnectionId} :
    r.get? id = some m ↔
      m ∈ r.members ∧ m.id = id ∧ m.connection.state ≠ .closed ∧ 0 < m.handles := by
  rw [get?, Option.filter_eq_some_iff, find?_eq_some h.member, and_assoc]
  refine and_congr_right fun hm => and_congr_right fun _ => ?_
  rw [h.yields_eq hm, reachable, (h.member.sound hm).live_eq]
  simp

theorem get?_isSome (h : Orderly r) (hm : m ∈ r.members) : (r.get? m.id).isSome = m.reachable := by
  rw [get?, (find?_eq_some h.member).mpr ⟨hm, rfl⟩, ← h.yields_eq hm]
  cases hr : r.yields m <;> simp [Option.filter, hr]

theorem Member.queue_enqueue (m : Member) (e : Connection.Event) :
    (if m.reachable then (m.enqueue e).1 else m).queue =
      m.queue ++ if m.reachable then [e] else [] := by
  cases hr : m.reachable with
  | true =>
      obtain ⟨hlive, -⟩ : m.finished = false ∧ 0 < m.handles := by simpa [reachable, live] using hr
      rw [if_pos rfl, if_pos rfl, enqueue, if_neg (by simp [hlive])]
  | false => exact (List.append_nil _).symm

theorem Member.taken_enqueue (m : Member) (e : Connection.Event) :
    (m.reachable && (m.enqueue e).2) = m.reachable := by
  cases hlive : m.finished <;> simp [reachable, live, enqueue, hlive]

theorem Orderly.notified (h : Orderly r) {s : Registry} {e : Connection.Event} {f : Member → Member}
    (hs : s.members = r.members.map f)
    (hf : ∀ m, (f m).queue = m.queue ++ if m.reachable then [e] else []) :
    Notified r e s (r.members.countP Member.reachable) where
  count := List.countP_congr fun m hm => by rw [get?_isSome h hm]
  size := by rw [hs, List.length_map]
  queued k m hm := by
    refine ⟨f m, by rw [hs, List.getElem?_map, hm]; rfl, ?_⟩
    rw [hf, get?_isSome h (List.mem_of_getElem? hm)]

theorem broadcast_eq (h : Orderly r) (e : Connection.Event) :
    (r.broadcast e).1.members =
        r.members.map (fun m => if m.reachable then (m.enqueue e).1 else m) ∧
      (r.broadcast e).2 = r.members.countP Member.reachable := by
  refine ⟨List.map_congr_left fun m hm => ?_, List.countP_congr fun m hm => ?_⟩
  · rw [h.yields_eq hm]
  · rw [h.yields_eq hm, m.taken_enqueue]

theorem notified_drainAll (h : Orderly r) (wait : Option Duration) :
    Notified r (.shutdown wait) (r.drainAll wait).1 (r.drainAll wait).2 := by
  obtain ⟨hmembers, hcount⟩ := broadcast_eq h (.shutdown wait)
  rw [drainAll, hcount]
  exact h.notified hmembers fun m => m.queue_enqueue (.shutdown wait)

theorem notified_shutdownAll (h : Orderly r) :
    Notified r .close r.shutdownAll.1 r.shutdownAll.2 := by
  have hcount : r.shutdownAll.2 = r.members.countP Member.reachable := by
    rw [shutdownAll, broadcast, List.countP_map]
    refine List.countP_congr fun m hm => ?_
    show (r.yields m && (enqueue { m with connection.serverClosing := true } .close).2) = true ↔ _
    rw [h.yields_eq hm]
    exact iff_of_eq (congrArg (· = true)
      (taken_enqueue { m with connection.serverClosing := true } .close))
  rw [hcount]
  exact h.notified (shutdownAll_members h) fun m =>
    Member.queue_enqueue { m with connection.serverClosing := true } .close

theorem steps_unreached (h : Orderly r) (op : Op) (hm : r.members[k]? = some m)
    (hnone : m.handles = 0) (hn : (r.step op).members[k]? = some n) :
    Member.Steps (· = .detach) m n := by
  have hmissed : m.reachable = false := by simp [reachable, hnone]
  obtain ⟨o, ho, hsteps⟩ : ∃ o, r.members[k]? = some o ∧ Steps (· = .detach) o n := by
    cases op with
    | spawn protocol =>
        have hlen := (List.getElem?_eq_some_iff.mp hm).1
        rw [step, spawn_members, List.getElem?_append_left hlen] at hn
        exact ⟨n, hn, .refl n⟩
    | send id viaGet events =>
        rw [step, send] at hn
        split at hn
        · exact ⟨n, hn, .refl n⟩
        · rename_i holder hheld
          refine steps_modify h hn fun o ho hid => ?_
          obtain ⟨hfound, hhandles⟩ : r.find? (k + 1) = some holder ∧ 0 < holder.handles := by
            rw [hid]
            cases viaGet with
            | true =>
                obtain ⟨hfound, hyields⟩ := Option.filter_eq_some_iff.mp hheld
                obtain ⟨-, hhandles⟩ : r.held.contains holder.id = true ∧ 0 < holder.handles := by
                  simpa only [yields, Bool.and_eq_true, decide_eq_true_eq] using hyields
                exact ⟨hfound, hhandles⟩
            | false => simpa [Option.filter_eq_some_iff] using hheld
          obtain rfl := find?_number h hm hfound
          exact absurd hnone (Nat.ne_of_gt hhandles)
    | drainAll wait =>
        rw [step, drainAll, (broadcast_eq h (.shutdown wait)).1, List.getElem?_map, hm] at hn
        obtain rfl := Option.some.inj hn
        exact ⟨m, hm, by simpa [hmissed] using .refl m⟩
    | shutdownAll =>
        rw [step, shutdownAll_get h, hm] at hn
        obtain rfl := Option.some.inj hn
        refine ⟨m, hm, ?_⟩
        have hpassed : m.summoned = { m with connection.serverClosing := true } :=
          if_neg (Bool.not_eq_true _ ▸ hmissed)
        rw [hpassed]
        exact .of .closing
    | clone id => exact steps_clone h id hn
    | drop id => exact steps_dropHandle h id hn
    | detach id => exact steps_modify h hn fun _ _ _ => .of (.detach rfl)
    | serve id stream demand => exact steps_serve h id stream demand hn
    | advance d => exact steps_runUntil _ hn
    | pass d => exact ⟨n, hn, .refl n⟩
    | take id => exact steps_modify h hn fun o _ _ => steps_take o r.now
    | wake id => exact steps_modify h hn fun o _ _ => steps_wake o r.now
  obtain rfl := Option.some.inj (hm.symm.trans ho)
  exact hsteps

theorem play_wanes (h : Orderly r) (hn : r.members[k]? = some n) (hw : Wanes m n)
    (hnone : n.handles = 0) (later : List Op) :
    ∃ o, (r.play later).members[k]? = some o ∧ Wanes m o ∧ o.handles = 0 := by
  induction later generalizing r n with
  | nil => exact ⟨n, hn, hw, hnone⟩
  | cons op rest ih =>
      have hlen : k < (r.step op).members.length := by
        rw [step_length]
        exact Nat.lt_add_right _ (List.getElem?_eq_some_iff.mp hn).1
      have ho := List.getElem?_eq_getElem hlen
      obtain ⟨hwanes, hzero⟩ :=
        hw.steps hnone (h.member k n hn).2 (steps_unreached h op hn hnone ho)
      exact ih (h.step op) ho hwanes hzero

theorem unheld (h : Orderly r) (hm : m ∈ r.members) (hend : m.finished = true) :
    m.id ∉ r.held := by
  rw [h.mem_held hm, live, hend]
  simp

/-- On a clock that tells every instant, the registry holds the connections that
are not closed, each under an id of its own, and gives out handles to those that
somebody else still has a handle to. These are told of a drain or of a shutdown,
once each. A connection that nobody has a handle to is forgotten by the time its
task is idle. It has been torn down then, after what was queued or by the end of
the transport that was queued with it. -/
theorem membership_exact (config : Config) (routes : Resolver) (handler : Handler) (ops : List Op) :
    let fresh : Registry :=
      { config := config, routes := routes, handler := handler, clock := .endless }
    let r := fresh.play ops
    (r.members.map Member.id = fresh.spawned ops ∧ (fresh.spawned ops).Nodup) ∧
      (r.held = (r.members.filter fun m => m.connection.state ≠ .closed).map Member.id ∧
        r.size = r.held.length) ∧
      (∀ id m, r.get? id = some m ↔
        m ∈ r.members ∧ m.id = id ∧ m.connection.state ≠ .closed ∧ 0 < m.handles) ∧
      Notified r .close r.shutdownAll.1 r.shutdownAll.2 ∧
      (∀ wait, Notified r (.shutdown wait) (r.drainAll wait).1 (r.drainAll wait).2) ∧
      (∀ d, ∀ m ∈ (r.advance d).members, m.Idle) ∧
      ∀ (k : Nat) (m : Member), r.members[k]? = some m → m.handles = 0 → m.finished = false →
        ∀ later, ∃ n, (r.play later).members[k]? = some n ∧ n.id = m.id ∧ n.handles = 0 ∧
          Wanes m n ∧ (n.Idle → n.id ∉ (r.play later).held ∧ ∃ xs x, m.Departed xs x n) := by
  intro fresh r
  have hfresh : Orderly fresh := orderly_fresh config routes handler
  have hr : Orderly r := hfresh.play ops
  have hids : r.members.map Member.id = fresh.spawned ops := spawned_ids hfresh ops
  refine ⟨⟨hids, hids ▸ hr.nodup⟩, ⟨held_eq hr, rfl⟩, fun id m => get?_eq_some hr,
    notified_shutdownAll hr, notified_drainAll hr, fun d m hm => ?_, ?_⟩
  · obtain ⟨o, ho, rfl⟩ := List.mem_map.mp hm
    exact run_idle (hr.member.sound ho)
  · intro k m hm hnone hlive later
    obtain ⟨n, hn, hwanes, hzero⟩ := play_wanes hr hm (.refl hlive) hnone later
    have hs := hr.play later
    refine ⟨n, hn, (hs.member k n hn).1.trans (hr.member k m hm).1.symm, hzero, hwanes,
      fun hidle => ?_⟩
    have hend := hidle.unreached hzero
    exact ⟨unheld hs (List.mem_of_getElem? hn) hend, hwanes.departed hend⟩

/-- The transport lets go of a connection while one stream is open and another
is still to come. -/
theorem membership_dropped :
    let fresh : Registry := { config := {}, routes := fun _ => none, handler := fun _ _ => [] }
    let r := fresh.play [.spawn .h2, .send 1 false [.headers 1 {} true], .advance 0,
      .send 1 false [.headers 3 {} true], .drop 1]
    let s := r.play [.advance 0]
    ∃ m n, (r.members[0]? = some m ∧ m.handles = 0 ∧ m.finished = false ∧ m.queue.length = 1) ∧
      s.members[0]? = some n ∧ n.id ∉ s.held ∧
      (recordsOf n.effects).map (·.cause) = [some .connectionClosed, some .connectionClosed] ∧
      ∃ xs x, m.Departed xs x n := by
  intro fresh r s
  obtain ⟨-, -, -, -, -, -, hdropped⟩ := membership_exact {} (fun _ => none) (fun _ _ => [])
    [.spawn .h2, .send 1 false [.headers 1 {} true], .advance 0,
      .send 1 false [.headers 3 {} true], .drop 1]
  have hr : r.members.map (fun m => (m.handles, m.finished, m.queue.length)) =
      [(0, false, 1)] := by
    decide +kernel
  have hs : s.members.map (fun n => (n.finished, (recordsOf n.effects).map (·.cause))) =
      [(true, [some .connectionClosed, some .connectionClosed])] := by
    decide +kernel
  obtain ⟨m, hm, hparts⟩ := List.map_eq_singleton_iff.mp hr
  obtain ⟨n, hn, hend⟩ := List.map_eq_singleton_iff.mp hs
  obtain ⟨hnone, hlive, hqueue⟩ : m.handles = 0 ∧ m.finished = false ∧ m.queue.length = 1 := by
    simpa using hparts
  obtain ⟨hfinished, hcauses⟩ := Prod.mk.inj hend
  have hfirst : r.members[0]? = some m := by rw [hm]; rfl
  obtain ⟨o, ho, -, -, -, hgone⟩ := hdropped 0 m hfirst hnone hlive [.advance 0]
  have hlast : s.members[0]? = some n := by rw [hn]; rfl
  obtain rfl := Option.some.inj (ho.symm.trans hlast)
  obtain ⟨hunheld, hdeparted⟩ := hgone (.inl hfinished)
  exact ⟨m, o, ⟨hfirst, hnone, hlive, hqueue⟩, hlast, hunheld, hcauses, hdeparted⟩

/-- A wait whose end the clock cannot tell stops the task, and nobody takes the
connection out of the map. -/
example :
    let fresh : Registry :=
      { config := {}, routes := fun _ => none, handler := fun _ _ => [], clock := ⟨some 1000⟩ }
    let r := fresh.play [.spawn .h2, .drainAll (some 1000), .advance 0]
    r.members.map (·.finished) = [true] ∧ r.held = [1] ∧ (r.drainAll none).2 = 0 := by
  decide +kernel

/-- A request that its handler completed is not aborted when its connection goes,
and an end of the transport that was queued is not put off until what came after
it. -/
theorem completed_unaborted_on_drop :
    (let fresh : Registry :=
      { config := {}, routes := fun _ => none, handler := fun _ _ => [.complete] }
    let r := fresh.play [.spawn .h2, .send 1 false [.headers 1 {} true], .advance 0, .drop 1]
    (r.members.map fun m => (m.handles, m.finished, m.connection.streams.length)) =
        [(0, false, 1)] ∧
      ((r.play [.advance 0]).members.map fun m =>
        (m.finished, (recordsOf m.effects).map (·.cause))) = [(true, [none])]) ∧
    let fresh : Registry := { config := {}, routes := fun _ => none, handler := fun _ _ => [] }
    let r := fresh.play [.spawn .h2, .send 1 false [.headers 1 {} true], .advance 0,
      .send 1 false [.lifecycle .inactive, .headers 3 {} true], .drop 1]
    (r.members.map fun m => (m.handles, m.finished, m.queue.length)) = [(0, false, 2)] ∧
      ((r.play [.advance 0]).members.map fun m =>
        (m.finished, (recordsOf m.effects).map (·.stream))) = [(true, [1])] := by
  decide +kernel

end HttpLifecycle.Registry
