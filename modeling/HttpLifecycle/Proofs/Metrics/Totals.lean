import HttpLifecycle.Metrics.Basic

namespace HttpLifecycle

theorem Protocol.label_inj {p q : Protocol} (h : p.label = q.label) : p = q := by
  cases p <;> cases q <;> first | rfl | simp [label] at h

def Effect.lasts (p : Protocol) : Effect → Bool
  | .lifespan q _ => q == p
  | _ => false

namespace Histogram

theorem bucketOf_le (seconds : Float) : bucketOf seconds ≤ bounds.length :=
  (List.takeWhile_sublist _).length_le

theorem total_modify (buckets : List Nat) (i : Nat) (h : i < buckets.length) :
    total (buckets.modify i (· + 1)) = total buckets + 1 := by
  induction buckets generalizing i with
  | nil => contradiction
  | cons n rest ih =>
      cases i with
      | zero => simp [total]; omega
      | succ i =>
          have hrest := ih i (Nat.lt_of_succ_lt_succ h)
          simp only [total, List.modify_succ_cons, List.foldr_cons] at hrest ⊢
          omega

def Sized (h : Histogram) : Prop := h.buckets.length = bounds.length + 1

theorem sized_empty : Sized empty := List.length_replicate

theorem Sized.observe {h : Histogram} (hs : Sized h) (d : Duration) : Sized (h.observe d) :=
  (List.length_modify ..).trans hs

theorem samples_observe {h : Histogram} (hs : Sized h) (d : Duration) :
    (h.observe d).samples = h.samples + 1 := by
  apply total_modify
  rw [hs]
  exact Nat.lt_succ_of_le (bucketOf_le _)

end Histogram

namespace Metrics

variable (m : Metrics)

theorem touch_counts (label : String) : (m.touch label).counts = m.counts := by
  rw [touch]
  split <;> rfl

theorem counts_record (e : Effect) (k : Counter) :
    (m.record e).counts k = m.counts k + if e = .count k then 1 else 0 := by
  cases e with
  | count j =>
      rw [record, add]
      by_cases hk : j = k
      · simp [hk]
      · have hne : ¬ k = j := fun h => hk h.symm
        simp [hk, hne]
  | lifespan p d =>
      rw [record, observe]
      simp [touch_counts]
  | _ => simp [record]

theorem counts_recordAll (es : List Effect) (k : Counter) :
    (m.recordAll es).counts k = m.counts k + es.count (.count k) := by
  induction es generalizing m with
  | nil => rfl
  | cons e rest ih =>
      have hrest : (m.recordAll (e :: rest)).counts k = _ := ih (m.record e)
      rw [hrest, counts_record, List.count_cons]
      by_cases he : e = .count k <;> simp [he]
      omega

def Sized : Prop := ∀ e ∈ m.lifespans, e.2.Sized

theorem sized_fresh : Sized {} := List.forall_mem_nil _

variable {m}

theorem Sized.histogram (h : m.Sized) (label : String) : (m.histogram label).Sized := by
  rw [Metrics.histogram]
  cases hl : m.lifespans.lookup label with
  | none => exact Histogram.sized_empty
  | some found =>
      obtain ⟨l, r, he, -⟩ := List.lookup_eq_some_iff.mp hl
      exact h (label, found) (by simp [he])

theorem Sized.touch (h : m.Sized) (label : String) : (m.touch label).Sized := by
  rw [Metrics.touch]
  split
  · exact h
  · exact List.forall_mem_append.mpr
      ⟨h, List.forall_mem_singleton.mpr Histogram.sized_empty⟩

theorem Sized.record (h : m.Sized) (e : Effect) : (m.record e).Sized := by
  cases e with
  | lifespan p d =>
      intro entry hentry
      obtain ⟨old, hold, rfl⟩ := List.mem_map.mp hentry
      have hsized := h.touch p.label old hold
      split
      · exact hsized.observe d
      · exact hsized
  | _ => exact h

theorem Sized.recordAll (h : m.Sized) (es : List Effect) : (m.recordAll es).Sized := by
  induction es generalizing m with
  | nil => exact h
  | cons e rest ih => exact ih (h.record e)

theorem lookup_adjust (l : List (String × Histogram)) (label other : String)
    (f : Histogram → Histogram) :
    (l.map fun e => if e.1 = label then (e.1, f e.2) else e).lookup other =
      if other = label then (l.lookup other).map f else l.lookup other := by
  induction l with
  | nil => simp
  | cons e rest ih =>
      have hkey : (if e.1 = label then (e.1, f e.2) else e).1 = e.1 := by
        split <;> rfl
      rw [List.map_cons, List.lookup_cons, List.lookup_cons, hkey, ih]
      cases hb : other == e.1 with
      | false => rfl
      | true =>
          obtain rfl : other = e.1 := by simpa using hb
          by_cases ho : e.1 = label <;> simp [ho]

theorem histogram_touch (label other : String) :
    (m.touch label).histogram other = m.histogram other := by
  rw [touch]
  split
  · rfl
  · rename_i hnone
    rw [histogram, histogram, List.lookup_append]
    cases hl : m.lifespans.lookup other with
    | some found => rfl
    | none =>
        rw [Option.none_or, List.lookup_cons]
        cases other == label <;> rfl

theorem lookup_touch (label : String) : ((m.touch label).lifespans.lookup label).isSome := by
  rw [touch]
  split
  · assumption
  · simp [List.lookup_append]

theorem histogram_observe (label other : String) (d : Duration) :
    (m.observe label d).histogram other =
      if other = label then (m.histogram other).observe d else m.histogram other := by
  have hlookup : (m.observe label d).lifespans.lookup other = _ :=
    lookup_adjust (m.touch label).lifespans label other (·.observe d)
  rw [← histogram_touch (m := m) label other, histogram, hlookup]
  split
  · rename_i ho
    obtain ⟨found, hfound⟩ := Option.isSome_iff_exists.mp (lookup_touch (m := m) label)
    rw [histogram, ho, hfound]
    rfl
  · rfl

theorem Sized.samples_record (h : m.Sized) (e : Effect) (p : Protocol) :
    (m.record e).samples p.label = m.samples p.label + (e.lasts p).toNat := by
  cases e with
  | lifespan q d =>
      have hobserve := histogram_observe (m := m) q.label p.label d
      rw [Metrics.samples, Metrics.samples, Metrics.record, hobserve, Effect.lasts]
      by_cases hq : q = p
      · rw [hq, if_pos rfl, Histogram.samples_observe (h.histogram p.label)]
        simp
      · have hne : ¬ p.label = q.label := fun hl => hq (Protocol.label_inj hl).symm
        simp [hne, hq]
  | _ => rfl

theorem Sized.samples_recordAll (h : m.Sized) (es : List Effect) (p : Protocol) :
    (m.recordAll es).samples p.label = m.samples p.label + es.countP (·.lasts p) := by
  induction es generalizing m with
  | nil => rfl
  | cons e rest ih =>
      have hrest : (m.recordAll (e :: rest)).samples p.label = _ := ih (h.record e)
      rw [hrest, h.samples_record, List.countP_cons]
      cases e.lasts p <;> simp
      omega

end Metrics

end HttpLifecycle
