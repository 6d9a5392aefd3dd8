import HttpLifecycle.Proofs.Registry.Step

namespace HttpLifecycle.Registry

namespace Member

def take (m : Member) (now : Instant) : Member :=
  if m.finished then m
  else
    match m.queue with
    | e :: rest => { m with queue := rest }.turn now fun c => (c.handle e now).1
    | [] => m.release now

def wake (m : Member) (now : Instant) : Member :=
  if m.live && m.connection.nextDeadline.any (·.tick ≤ now) then
    m.turn now fun c => c.pollTimers now
  else m

end Member

/-- What can happen on a server. The transports and the server use the registry
at any time, tasks get their turns one by one, and time passes in between. An
advance gives every task all the turns that it can use. -/
inductive Op where
  | spawn (protocol : Protocol)
  | send (id : ConnectionId) (viaGet : Bool) (events : List Connection.Event)
  | drainAll (wait : Option Duration)
  | shutdownAll
  | clone (id : ConnectionId)
  | drop (id : ConnectionId)
  | detach (id : ConnectionId)
  | serve (id : ConnectionId) (stream : StreamId) (demand : Demand)
  | advance (d : Duration)
  | pass (d : Duration)
  | take (id : ConnectionId)
  | wake (id : ConnectionId)

def step (r : Registry) : Op → Registry
  | .spawn protocol => (r.spawn protocol).1
  | .send id viaGet events => (r.send id viaGet events).1
  | .drainAll wait => (r.drainAll wait).1
  | .shutdownAll => r.shutdownAll.1
  | .clone id => (r.clone id).1
  | .drop id => (r.dropHandle id).1
  | .detach id => r.dropTransport id
  | .serve id stream demand => (r.serve id stream demand).1
  | .advance d => r.advance d
  | .pass d => { r with now := r.now + d }
  | .take id => (r.modify id fun m => m.take r.now).reap
  | .wake id => (r.modify id fun m => m.wake r.now).reap

def play (r : Registry) (ops : List Op) : Registry := ops.foldl step r

def Op.Ends (op : Op) (id : ConnectionId) : Prop :=
  ∃ viaGet events, op = .send id viaGet events ∧
    ∃ e ∈ events, (Connection.Input.event e).ends = true

/-- An operation queues no end of the transport, and cuts off no sink, without
telling so. -/
def Op.Tells (op : Op) (id : ConnectionId) : Member.Influence → Prop
  | .event e => (Connection.Input.event e).ends = true → op.Ends id
  | .detach => op = .detach id

/-- Connections are numbered from one in the order in which they came, and what is
known of each fits together. -/
def Numbered (ms : List Member) : Prop := ∀ k m, ms[k]? = some m → m.id = k + 1 ∧ m.Sound

/-- The map holds those connections whose task goes on, and no task was stopped. -/
structure Orderly (r : Registry) : Prop where
  clock : r.clock = .endless
  member : Numbered r.members
  held : r.held = (r.members.filter Member.live).map Member.id

/-- At most the one connection is another one than before, and its task goes on if
it did. -/
def Modifies (r : Registry) (id : ConnectionId) (s : Registry) : Prop :=
  s = r ∨ ∃ f : Member → Member, (∀ m, (f m).live = m.live) ∧ s = r.modify id f

def newcomer (r : Registry) (protocol : Protocol) : Member :=
  { connection :=
      { Connection.create (r.members.length + 1) protocol r.config r.routes r.handler r.now with
        serverClosing := r.closing
        clock := r.clock }
    queue := if r.closing then [.close] else [] }

theorem spawn_members (r : Registry) (protocol : Protocol) :
    (r.spawn protocol).1.members = r.members ++ [r.newcomer protocol] := rfl

namespace Member

variable {T : Influence → Prop} {m n : Member}

theorem steps_take (m : Member) (now : Instant) : Steps T m (m.take now) := by
  rw [take]
  split
  · exact .refl m
  · rename_i hlive
    split
    · rename_i e rest hq
      exact .of (.turn (.event e rest now hq) (by simpa using hlive))
    · rename_i hq
      exact steps_release m now hq

theorem steps_wake (m : Member) (now : Instant) : Steps T m (m.wake now) := by
  rw [wake]
  split
  · rename_i hdue
    obtain ⟨hlive, d, hd, hle⟩ :
        m.finished = false ∧ ∃ d, m.connection.nextDeadline = some d ∧ d.tick ≤ now := by
      simpa [live, Option.any_eq_true] using hdue
    exact .of (.turn (.timer d now hd hle) hlive)
  · exact .refl m

theorem steps_enqueue (m : Member) {e : Connection.Event} (h : T (.event e)) :
    Steps T m (m.enqueue e).1 := by
  rw [enqueue]
  split
  · exact .refl m
  · rename_i hlive
    exact .of (.enqueue e h (by simpa using hlive))

theorem enqueue_live (m : Member) (e : Connection.Event) : (m.enqueue e).1.live = m.live := by
  rw [enqueue]
  split <;> rfl

theorem enqueueAll_live (m : Member) (es : List Connection.Event) :
    (es.foldl (fun m e => (m.enqueue e).1) m).live = m.live := by
  induction es generalizing m with
  | nil => rfl
  | cons e rest ih => exact (ih _).trans (m.enqueue_live e)

theorem steps_enqueueAll (m : Member) (es : List Connection.Event) (h : ∀ e ∈ es, T (.event e)) :
    Steps T m (es.foldl (fun m e => (m.enqueue e).1) m) := by
  induction es generalizing m with
  | nil => exact .refl m
  | cons e rest ih =>
      exact (steps_enqueue m (h e List.mem_cons_self)).trans
        (ih _ fun f hf => h f (List.mem_cons_of_mem e hf))

end Member

open Member

variable {r : Registry}

theorem modify_members (r : Registry) (id : ConnectionId) (f : Member → Member) (k : Nat) :
    (r.modify id f).members[k]? = r.members[k]?.map fun m => if m.id == id then f m else m :=
  List.getElem?_map

@[simp] theorem reap_members (r : Registry) : r.reap.members = r.members := rfl

theorem steps_modify (h : Orderly r) {T : Influence → Prop} {id : ConnectionId}
    {f : Member → Member} {k : Nat} {n : Member} (hn : (r.modify id f).members[k]? = some n)
    (hf : ∀ m, r.members[k]? = some m → k + 1 = id → Steps T m (f m)) :
    ∃ m, r.members[k]? = some m ∧ Steps T m n := by
  rw [modify_members] at hn
  obtain ⟨m, hm, rfl⟩ := Option.map_eq_some_iff.mp hn
  refine ⟨m, hm, ?_⟩
  split
  · rename_i hid
    exact hf m hm ((h.member k m hm).1.symm.trans (beq_iff_eq.mp hid))
  · exact .refl m

theorem Numbered.sound {ms : List Member} {m : Member} (h : Numbered ms) (hm : m ∈ ms) :
    m.Sound := by
  obtain ⟨k, hk⟩ := List.mem_iff_getElem?.mp hm
  exact (h k m hk).2

theorem Numbered.unique {ms : List Member} {m n : Member} (h : Numbered ms) (hm : m ∈ ms)
    (hn : n ∈ ms) (hid : m.id = n.id) : m = n := by
  obtain ⟨i, hi⟩ := List.mem_iff_getElem?.mp hm
  obtain ⟨j, hj⟩ := List.mem_iff_getElem?.mp hn
  have hij : i + 1 = j + 1 := (h i m hi).1.symm.trans (hid.trans (h j n hj).1)
  obtain rfl : i = j := Nat.succ.inj hij
  exact Option.some.inj (hi.symm.trans hj)

theorem find?_eq_some (h : Numbered r.members) {id : ConnectionId} {m : Member} :
    r.find? id = some m ↔ m ∈ r.members ∧ m.id = id := by
  constructor
  · intro hfound
    exact ⟨List.mem_of_find?_eq_some hfound, by simpa using List.find?_some hfound⟩
  · rintro ⟨hm, rfl⟩
    have hsome : (r.find? m.id).isSome := by
      rw [find?, List.find?_isSome]
      exact ⟨m, hm, beq_self_eq_true _⟩
    obtain ⟨n, hn⟩ := Option.isSome_iff_exists.mp hsome
    have hid : n.id = m.id := by simpa using List.find?_some hn
    rw [hn, h.unique (List.mem_of_find?_eq_some hn) hm hid]

theorem find?_number (h : Orderly r) {k : Nat} {m n : Member} (hm : r.members[k]? = some m)
    (hn : r.find? (k + 1) = some n) : n = m := by
  obtain ⟨hmem, hid⟩ := (find?_eq_some h.member).mp hn
  exact h.member.unique hmem (List.mem_of_getElem? hm) (hid.trans (h.member k m hm).1.symm)

theorem steps_broadcast {T : Influence → Prop} {e : Connection.Event} (hT : T (.event e))
    {k : Nat}
    {n : Member} (hn : (r.broadcast e).1.members[k]? = some n) :
    ∃ m, r.members[k]? = some m ∧ Steps T m n := by
  rw [broadcast, List.getElem?_map] at hn
  obtain ⟨m, hm, rfl⟩ := Option.map_eq_some_iff.mp hn
  refine ⟨m, hm, ?_⟩
  split
  · exact steps_enqueue m hT
  · exact .refl m

theorem steps_clone (h : Orderly r) {T : Influence → Prop} (id : ConnectionId) {k : Nat}
    {n : Member} (hn : (r.clone id).1.members[k]? = some n) :
    ∃ m, r.members[k]? = some m ∧ Steps T m n := by
  rw [clone] at hn
  split at hn
  · exact ⟨n, hn, .refl n⟩
  · rename_i holder hheld
    obtain ⟨hfound, hhandles⟩ := Option.filter_eq_some_iff.mp hheld
    refine steps_modify h hn fun m hm hid => ?_
    subst hid
    obtain rfl := find?_number h hm hfound
    exact .of (.clone (by simpa using hhandles))

theorem steps_dropHandle (h : Orderly r) {T : Influence → Prop} (id : ConnectionId)
    {k : Nat} {n : Member} (hn : (r.dropHandle id).1.members[k]? = some n) :
    ∃ m, r.members[k]? = some m ∧ Steps T m n := by
  rw [dropHandle] at hn
  split at hn
  · exact ⟨n, hn, .refl n⟩
  · rename_i holder hheld
    obtain ⟨hfound, hhandles⟩ := Option.filter_eq_some_iff.mp hheld
    refine steps_modify h hn fun m hm hid => ?_
    subst hid
    obtain rfl := find?_number h hm hfound
    exact .of (.drop (by simpa using hhandles))

theorem steps_send (h : Orderly r) (id : ConnectionId) (viaGet : Bool)
    (events : List Connection.Event) {k : Nat} {n : Member}
    (hn : (r.send id viaGet events).1.members[k]? = some n) :
    ∃ m, r.members[k]? = some m ∧ Steps ((Op.send id viaGet events).Tells (k + 1)) m n := by
  rw [send] at hn
  split at hn
  · exact ⟨n, hn, .refl n⟩
  · refine steps_modify h hn fun m hm hid => ?_
    subst hid
    exact steps_enqueueAll m events fun e he hends => ⟨viaGet, events, rfl, e, he, hends⟩

theorem steps_serve (h : Orderly r) {T : Influence → Prop} (id : ConnectionId)
    (stream : StreamId) (demand : Demand) {k : Nat} {n : Member}
    (hn : (r.serve id stream demand).1.members[k]? = some n) :
    ∃ m, r.members[k]? = some m ∧ Steps T m n := by
  rw [serve] at hn
  split at hn
  · exact ⟨n, hn, .refl n⟩
  · rename_i holder hfound
    refine steps_modify h hn fun m hm hid => ?_
    subst hid
    obtain rfl := find?_number h hm hfound
    exact .of (.serve stream demand (some allowance) r.now)

theorem steps_runUntil {T : Influence → Prop} (target : Instant) {k : Nat} {n : Member}
    (hn : (r.runUntil target).members[k]? = some n) :
    ∃ m, r.members[k]? = some m ∧ Steps T m n := by
  rw [runUntil, reap_members, List.getElem?_map] at hn
  obtain ⟨m, hm, rfl⟩ := Option.map_eq_some_iff.mp hn
  exact ⟨m, hm, steps_run m r.now target⟩

theorem steps_shutdownAll {T : Influence → Prop} (hT : T (.event .close)) {k : Nat} {n : Member}
    (hn : r.shutdownAll.1.members[k]? = some n) :
    ∃ m, r.members[k]? = some m ∧ Steps T m n := by
  obtain ⟨o, ho, hsteps⟩ := steps_broadcast hT hn
  rw [List.getElem?_map] at ho
  obtain ⟨m, hm, rfl⟩ := Option.map_eq_some_iff.mp ho
  exact ⟨m, hm, (Steps.of .closing).trans hsteps⟩

/-- What an operation comes down to for a connection of the server: steps of its
own, unless it is the one that the operation brings in. -/
theorem steps_step (h : Orderly r) (op : Op) {k : Nat} {n : Member}
    (hn : (r.step op).members[k]? = some n) :
    (∃ m, r.members[k]? = some m ∧ Steps (op.Tells (k + 1)) m n) ∨
      ∃ protocol, k = r.members.length ∧ n = r.newcomer protocol := by
  cases op with
  | spawn protocol =>
      rw [step, spawn_members, List.getElem?_append] at hn
      split at hn
      · exact .inl ⟨n, hn, .refl n⟩
      · rename_i hlen
        obtain ⟨hk, rfl⟩ := List.getElem?_eq_some_iff.mp hn
        refine .inr ⟨protocol, ?_, ?_⟩
        · simp at hk
          omega
        · simp
  | send id viaGet events => exact .inl (steps_send h id viaGet events hn)
  | drainAll wait => exact .inl (steps_broadcast (fun hends => by contradiction) hn)
  | shutdownAll => exact .inl (steps_shutdownAll (fun hends => by contradiction) hn)
  | clone id => exact .inl (steps_clone h id hn)
  | drop id => exact .inl (steps_dropHandle h id hn)
  | detach id => exact .inl (steps_modify h hn fun m _ hid => .of (.detach (by rw [hid]; rfl)))
  | serve id stream demand => exact .inl (steps_serve h id stream demand hn)
  | advance d => exact .inl (steps_runUntil _ hn)
  | pass d => exact .inl ⟨n, hn, .refl n⟩
  | take id => exact .inl (steps_modify h hn fun m _ _ => steps_take m r.now)
  | wake id => exact .inl (steps_modify h hn fun m _ _ => steps_wake m r.now)

theorem newcomer_sound (h : Orderly r) (protocol : Protocol) : (r.newcomer protocol).Sound where
  coherent :=
    { Connection.coherent_create (r.members.length + 1) protocol r.config r.routes r.handler
        r.now with
      clock := h.clock }
  distinct := List.nodup_nil
  clean := rfl
  ended := rfl
  once := Nat.zero_le _
  heard _ := rfl

theorem Orderly.numbered_step (h : Orderly r) (op : Op) : Numbered (r.step op).members := by
  intro k n hn
  rcases steps_step h op hn with ⟨m, hm, hsteps⟩ | ⟨protocol, hk, rfl⟩
  · obtain ⟨hid, hsound⟩ := h.member k m hm
    exact ⟨(hsteps.id_eq hsound).trans hid, hsteps.sound hsound⟩
  · refine ⟨?_, newcomer_sound h protocol⟩
    rw [hk]
    rfl

section Modifies

variable {s : Registry} {id : ConnectionId}

theorem modifies_modify {f : Member → Member} (hlive : ∀ m, (f m).live = m.live) :
    r.Modifies id (r.modify id f) := .inr ⟨f, hlive, rfl⟩

theorem modifies_send (r : Registry) (id : ConnectionId) (viaGet : Bool)
    (events : List Connection.Event) : r.Modifies id (r.send id viaGet events).1 := by
  rw [send]
  split
  · exact .inl rfl
  · exact modifies_modify fun m => m.enqueueAll_live events

theorem modifies_clone (r : Registry) (id : ConnectionId) : r.Modifies id (r.clone id).1 := by
  rw [clone]
  split
  · exact .inl rfl
  · exact modifies_modify fun _ => rfl

theorem modifies_dropHandle (r : Registry) (id : ConnectionId) :
    r.Modifies id (r.dropHandle id).1 := by
  rw [dropHandle]
  split
  · exact .inl rfl
  · exact modifies_modify fun _ => rfl

theorem modifies_serve (r : Registry) (id : ConnectionId) (stream : StreamId) (demand : Demand) :
    r.Modifies id (r.serve id stream demand).1 := by
  rw [serve]
  split
  · exact .inl rfl
  · exact modifies_modify fun _ => rfl

theorem Modifies.settings (h : r.Modifies id s) : s.clock = r.clock ∧ s.closing = r.closing := by
  rcases h with rfl | ⟨f, -, rfl⟩
  · exact ⟨rfl, rfl⟩
  · exact ⟨rfl, rfl⟩

theorem Modifies.length (h : r.Modifies id s) : s.members.length = r.members.length := by
  rcases h with rfl | ⟨f, -, rfl⟩
  · rfl
  · exact List.length_map _

end Modifies

theorem step_clock (r : Registry) (op : Op) : (r.step op).clock = r.clock := by
  cases op with
  | send id viaGet events => exact (r.modifies_send id viaGet events).settings.1
  | clone id => exact (r.modifies_clone id).settings.1
  | drop id => exact (r.modifies_dropHandle id).settings.1
  | serve id stream demand => exact (r.modifies_serve id stream demand).settings.1
  | spawn | shutdownAll | drainAll | detach | advance | pass | take | wake => rfl

theorem Orderly.mem_held (h : Orderly r) {m : Member} (hm : m ∈ r.members) :
    m.id ∈ r.held ↔ m.live = true := by
  rw [h.held, List.mem_map]
  constructor
  · rintro ⟨n, hn, hid⟩
    obtain ⟨hmem, hlive⟩ := List.mem_filter.mp hn
    obtain rfl := h.member.unique hmem hm hid
    exact hlive
  · exact fun hlive => ⟨m, List.mem_filter.mpr ⟨hm, hlive⟩, rfl⟩

def Member.reachable (m : Member) : Bool := m.live && decide (0 < m.handles)

theorem Orderly.yields_eq (h : Orderly r) {m : Member} (hm : m ∈ r.members) :
    r.yields m = m.reachable := by
  rw [yields, reachable]
  refine congrArg (· && _) (Bool.eq_iff_iff.mpr ?_)
  rw [List.contains_iff_mem, h.mem_held hm]

section Map

variable {s : Registry} {f : Member → Member}

theorem Orderly.ids_map (h : Orderly r) (hs : s.members = r.members.map f)
    (hnumbered : Numbered s.members) : ∀ m ∈ r.members, (f m).id = m.id := by
  intro m hm
  obtain ⟨k, hk⟩ := List.mem_iff_getElem?.mp hm
  have hk' : s.members[k]? = some (f m) := by rw [hs, List.getElem?_map, hk]; rfl
  exact (hnumbered k _ hk').1.trans (h.member k m hk).1.symm

theorem living_map (hs : s.members = r.members.map f)
    (hids : ∀ m ∈ r.members, (f m).id = m.id) :
    (s.members.filter Member.live).map Member.id =
      (r.members.filter fun m => (f m).live).map Member.id := by
  rw [hs, List.filter_map, List.map_map]
  exact List.map_congr_left fun m hm => hids m (List.mem_filter.mp hm).1

theorem Orderly.held_map (h : Orderly r) (hs : s.members = r.members.map f)
    (hnumbered : Numbered s.members) (hheld : s.held = r.held)
    (hlive : ∀ m, (f m).live = m.live) :
    s.held = (s.members.filter Member.live).map Member.id := by
  rw [hheld, h.held, living_map hs (h.ids_map hs hnumbered),
    List.filter_congr fun m _ => hlive m]

/-- The map keeps up with the tasks that have run to their end. -/
theorem Orderly.held_reap (h : Orderly r) (hs : s.members = r.members.map f)
    (hnumbered : Numbered s.members) (hheld : s.held = r.held)
    (hlive : ∀ m, (f m).live = true → m.live = true) :
    s.reap.held = (s.reap.members.filter Member.live).map Member.id := by
  have hids := h.ids_map hs hnumbered
  rw [reap_members, living_map hs hids, reap, hheld, h.held, List.filter_map, List.filter_filter]
  refine congrArg _ (List.filter_congr fun m hm => ?_)
  have hmem : f m ∈ s.members := by rw [hs]; exact List.mem_map_of_mem hm
  have hfound : s.find? m.id = some (f m) :=
    (find?_eq_some hnumbered).mpr ⟨hmem, hids m hm⟩
  have hleft := (hnumbered.sound hmem).left_eq
  cases hgoes : (f m).live with
  | true => simp [hfound, hleft, hgoes, hlive m hgoes]
  | false => simp [hfound, hleft, hgoes]

end Map

theorem Modifies.held {s : Registry} {id : ConnectionId} (hs : r.Modifies id s) (h : Orderly r)
    (hnumbered : Numbered s.members) :
    s.held = (s.members.filter Member.live).map Member.id := by
  rcases hs with rfl | ⟨f, hlive, rfl⟩
  · exact h.held
  · refine h.held_map rfl hnumbered rfl fun m => ?_
    split
    · exact hlive m
    · rfl

theorem held_reap_modify (h : Orderly r) (id : ConnectionId) {f : Member → Member}
    (hnumbered : Numbered (r.modify id f).members) (hsteps : ∀ m, Steps (fun _ => True) m (f m)) :
    (r.modify id f).reap.held =
      ((r.modify id f).reap.members.filter Member.live).map Member.id := by
  refine h.held_reap rfl hnumbered rfl fun m hgoes => ?_
  split at hgoes
  · exact (hsteps m).live hgoes
  · exact hgoes

theorem held_broadcast (h : Orderly r) (e : Connection.Event)
    (hnumbered : Numbered (r.broadcast e).1.members) :
    (r.broadcast e).1.held = ((r.broadcast e).1.members.filter Member.live).map Member.id := by
  refine h.held_map rfl hnumbered rfl fun m => ?_
  split
  · exact m.enqueue_live e
  · rfl

theorem Orderly.held_step (h : Orderly r) (op : Op) :
    (r.step op).held = ((r.step op).members.filter Member.live).map Member.id := by
  have hnumbered := h.numbered_step op
  cases op with
  | spawn protocol =>
      rw [step, spawn_members, List.filter_append, List.map_append, ← h.held]
      rfl
  | send id viaGet events => exact (r.modifies_send id viaGet events).held h hnumbered
  | drainAll wait => exact held_broadcast h _ hnumbered
  | shutdownAll =>
      refine h.held_map (List.map_map ..) hnumbered rfl fun m => ?_
      simp only [Function.comp_apply]
      split
      · exact enqueue_live _ _
      · rfl
  | clone id => exact (r.modifies_clone id).held h hnumbered
  | drop id => exact (r.modifies_dropHandle id).held h hnumbered
  | detach id =>
      have hs : r.Modifies id (r.dropTransport id) := modifies_modify fun _ => rfl
      exact hs.held h hnumbered
  | serve id stream demand => exact (r.modifies_serve id stream demand).held h hnumbered
  | advance d =>
      exact h.held_reap rfl hnumbered rfl fun m => (steps_run (T := fun _ => True) m _ _).live
  | pass d => exact h.held
  | take id => exact held_reap_modify h id hnumbered fun m => steps_take m r.now
  | wake id => exact held_reap_modify h id hnumbered fun m => steps_wake m r.now

theorem Orderly.step (h : Orderly r) (op : Op) : Orderly (r.step op) :=
  ⟨(step_clock r op).trans h.clock, h.numbered_step op, h.held_step op⟩

theorem Orderly.play (h : Orderly r) (ops : List Op) : Orderly (r.play ops) := by
  induction ops generalizing r with
  | nil => exact h
  | cons op rest ih => exact ih (h.step op)

theorem orderly_fresh (config : Config) (routes : Resolver) (handler : Handler) :
    Orderly { config := config, routes := routes, handler := handler } where
  clock := rfl
  member k m hm := by contradiction
  held := rfl

end HttpLifecycle.Registry
