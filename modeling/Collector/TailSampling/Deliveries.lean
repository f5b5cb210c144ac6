import Collector.TailSampling.Machine

/-!
# Deliveries in the tail sampling processor

`Kept` says of a state of the processor that every delivery in it, under way, stored or forwarded,
is one that was received, and that its batch has just the spans of its trace that the call came
with. Every step keeps this (`Kept.stepped`).
-/

namespace Collector.TailSampling

open Lib List

variable {N R X : Type}

/-! ## The spans of a trace -/

section Spans

variable (traceId : X → TraceKey)

theorem idToSpans_snoc (spans : List X) (x : X) :
    idToSpans traceId (spans ++ [x]) =
      if (traceId x).length ≠ 16 then idToSpans traceId spans
      else (idToSpans traceId spans).insert (traceId x)
        (((idToSpans traceId spans).lookup (traceId x)).getD [] ++ [x]) := by
  unfold idToSpans
  rw [foldl_append]
  rfl

variable {id : TraceKey} {spans : List X}

theorem getD_lookup_idToSpans (spans : List X) (hid : id.length = 16) :
    ((idToSpans traceId spans).lookup id).getD [] = spans.filter fun x => traceId x = id := by
  induction spans using List.reverseRecOn with
  | nil => rfl
  | append_singleton spans x ih =>
    rw [idToSpans_snoc, filter_append]
    by_cases hx : traceId x = id
    · rw [if_neg (by simp [hx, hid]), hx, AList.lookup_insert, ih]
      simp [hx]
    · have hlookup : ∀ m : GoMap TraceKey (List X), ∀ v,
          (m.insert (traceId x) v).lookup id = m.lookup id := by
        intro m v
        exact AList.lookup_insert_ne (Ne.symm hx)
      by_cases hlen : (traceId x).length ≠ 16
      · simp [hlen, ih, hx]
      · rw [if_neg hlen, hlookup, ih]
        simp [hx]

theorem lookup_idToSpans {ss : List X} (h : (idToSpans traceId spans).lookup id = some ss) :
    id.length = 16 ∧ ss ≠ [] := by
  induction spans using List.reverseRecOn generalizing ss with
  | nil => cases h
  | append_singleton spans x ih =>
    rw [idToSpans_snoc] at h
    by_cases hlen : (traceId x).length ≠ 16
    · rw [if_pos hlen] at h
      exact ih h
    · rw [if_neg hlen] at h
      by_cases hx : id = traceId x
      · subst hx
        rw [AList.lookup_insert] at h
        cases h
        exact ⟨not_not.1 hlen, by simp⟩
      · rw [AList.lookup_insert_ne hx] at h
        exact ih h

theorem mem_groups {g : TraceKey × List X} (h : g ∈ (idToSpans traceId spans).pairs) :
    (spans.filter fun x => traceId x = g.1) = g.2 ∧ g.2 ≠ [] := by
  have hlookup := GoMap.mem_pairs.1 (show (g.1, g.2) ∈ _ from h)
  obtain ⟨hlen, hne⟩ := lookup_idToSpans traceId hlookup
  have hget := getD_lookup_idToSpans traceId spans hlen
  rw [hlookup] at hget
  exact ⟨hget.symm, hne⟩

theorem spans_prepareTraceBatch {td : Batch N R X} (single : Bool)
    (h : (td.spans.filter fun x => traceId x = id) = spans) :
    ((prepareTraceBatch spans single td).spans.filter fun x => traceId x = id) = spans := by
  unfold prepareTraceBatch
  cases single with
  | true => exact h
  | false =>
    simp only [Bool.false_eq_true, if_false]
    rw [← h, filter_filter]
    simp

end Spans

/-! ## Deliveries -/

/-- The delivery that a call has under way, and the policy it is at. -/
def Stage.under : Stage N R X → Option (Delivery N R X × Nat)
  | .choosing => none
  | .adding d | .posting d | .evicting d | .dropping d _ | .deleting d _ => some (d, 0)
  | .policies d i => some (d, i)

/-- Every delivery was received, and is where it belongs. -/
structure Kept (traceId : X → TraceKey) (s : State N R X) : Prop where
  numbers : ∀ (k : Nat) (d : Delivery N R X), s.received[k]? = some d → d.number = k
  under : ∀ call ∈ s.calls, ∀ d i, call.stage.under = some (d, i) → d ∈ s.received
  stored : ∀ (a : Nat) (trace : TraceData N R X), s.traces[a]? = some trace →
    ∀ d ∈ trace.receivedBatches, d ∈ s.received ∧ d.address = a
  forwarded : ∀ f ∈ s.forwarded, f.delivery ∈ s.received ∧ f.delivery.address = f.address
  mapped : ∀ id a, s.idToTrace.lookup id = some a → ∃ d ∈ s.received, d.address = a
  groups : ∀ call ∈ s.calls, ∀ g ∈ call.groups,
    (call.td.spans.filter fun x => traceId x = g.1) = g.2 ∧ g.2 ≠ []
  /-- A batch holds the spans of its delivery, and no other of that trace. -/
  batches : ∀ d ∈ s.received,
    (d.batch.spans.filter fun x => traceId x = d.id) = d.spans ∧ d.spans ≠ []

namespace Kept

variable {traceId : X → TraceKey} {cfg : Config} {s s' : State N R X} {act : Act N R X}

theorem init : Kept traceId (State.init cfg : State N R X) where
  numbers := by simp [State.init]
  under := by simp [State.init]
  stored := by simp [State.init]
  forwarded := by simp [State.init]
  mapped id a h := by cases h
  groups := by simp [State.init]
  batches := by simp [State.init]

variable {d : Delivery N R X} {c : Nat} {call : Call N R X} (h : Kept traceId s)

include h

theorem eq_of_number {d' : Delivery N R X} (hd : d ∈ s.received)
    (hd' : d' ∈ s.received) (hn : d.number = d'.number) : d = d' := by
  obtain ⟨k, hk⟩ := getElem?_of_mem hd
  obtain ⟨k', hk'⟩ := getElem?_of_mem hd'
  have hkk : k = k' := (h.numbers k d hk).symm.trans (hn.trans (h.numbers k' d' hk'))
  subst hkk
  exact Option.some.inj (hk.symm.trans hk')

theorem number_lt (hd : d ∈ s.received) : d.number < s.received.length := by
  obtain ⟨k, hk⟩ := getElem?_of_mem hd
  rw [h.numbers k d hk]
  exact (List.getElem?_eq_some_iff.1 hk).1

theorem setCall {call' : Call N R X} (hc : s.calls[c]? = some call)
    (htd : call'.td = call.td) (hg : call'.groups ⊆ call.groups)
    (hu : ∀ d i, call'.stage.under = some (d, i) → d ∈ s.received) :
    Kept traceId (s.setCall c call') where
  __ := h
  under call'' hmem d i hd := by
    rcases mem_or_eq_of_mem_set hmem with hmem | rfl
    · exact h.under call'' hmem d i hd
    · exact hu d i hd
  groups call'' hmem g hg' := by
    rcases mem_or_eq_of_mem_set hmem with hmem | rfl
    · exact h.groups call'' hmem g hg'
    · rw [htd]
      exact h.groups call (mem_of_getElem? hc) g (hg hg')

theorem setStage (stage : Stage N R X) (hc : s.calls[c]? = some call)
    (hu : ∀ d i, stage.under = some (d, i) → ∃ j, call.stage.under = some (d, j)) :
    Kept traceId (s.setCall c { call with stage }) := by
  refine h.setCall hc rfl (List.Subset.refl _) fun d i hd => ?_
  obtain ⟨j, hj⟩ := hu d i hd
  exact h.under call (mem_of_getElem? hc) d j hj

theorem setTrace {a : Nat} (trace : TraceData N R X)
    (ht : ∀ d ∈ trace.receivedBatches, d ∈ s.received ∧ d.address = a) :
    Kept traceId (s.setTrace a trace) where
  __ := h
  stored b trace' hb d hd := by
    change (s.traces.set a trace)[b]? = some trace' at hb
    rw [getElem?_set] at hb
    by_cases hab : a = b
    · subst hab
      rw [if_pos rfl] at hb
      split at hb
      · cases hb
        exact ht d hd
      · cases hb
    · rw [if_neg hab] at hb
      exact h.stored b trace' hb d hd

theorem receive (hn : d.number = s.received.length)
    (hb : (d.batch.spans.filter fun x => traceId x = d.id) = d.spans ∧ d.spans ≠ []) :
    Kept traceId { s with received := s.received ++ [d] } where
  numbers k d' hk := by
    change (s.received ++ [d])[k]? = some d' at hk
    rw [getElem?_append] at hk
    split at hk
    · exact h.numbers k d' hk
    · obtain ⟨hlt, rfl⟩ := List.getElem?_eq_some_iff.1 hk
      simp only [length_singleton] at hlt
      simp only [getElem_singleton]
      omega
  under call hmem d' i hd' := mem_append_left _ (h.under call hmem d' i hd')
  stored a trace ht d' hd' :=
    ⟨mem_append_left _ (h.stored a trace ht d' hd').1, (h.stored a trace ht d' hd').2⟩
  forwarded f hf := ⟨mem_append_left _ (h.forwarded f hf).1, (h.forwarded f hf).2⟩
  mapped id a hid := by
    obtain ⟨d', hd', ha⟩ := h.mapped id a hid
    exact ⟨d', mem_append_left _ hd', ha⟩
  groups := h.groups
  batches d' hd' := by
    rcases mem_append.1 hd' with hd' | hd'
    · exact h.batches d' hd'
    · obtain rfl := mem_singleton.1 hd'
      exact hb

theorem forward {fs : List (Forward N R X)}
    (hfs : ∀ f ∈ fs, f.delivery ∈ s.received ∧ f.delivery.address = f.address) :
    Kept traceId { s with forwarded := s.forwarded ++ fs } where
  __ := h
  forwarded f hf := by
    rcases mem_append.1 hf with hf | hf
    · exact h.forwarded f hf
    · exact hfs f hf

theorem allocate (id : TraceKey) {trace : TraceData N R X}
    (ht : trace.receivedBatches = []) (hd : ∃ d ∈ s.received, d.address = s.traces.length) :
    Kept traceId { s with
      traces := s.traces ++ [trace]
      idToTrace := s.idToTrace.insert id s.traces.length } where
  __ := h
  stored b trace' hb d hd := by
    change (s.traces ++ [trace])[b]? = some trace' at hb
    rw [getElem?_append] at hb
    split at hb
    · exact h.stored b trace' hb d hd
    · rw [mem_singleton.1 (mem_of_getElem? hb), ht] at hd
      cases hd
  mapped id' a hid := by
    change (s.idToTrace.insert id s.traces.length).lookup id' = some a at hid
    by_cases heq : id' = id
    · subst heq
      rw [AList.lookup_insert] at hid
      cases hid
      exact hd
    · rw [AList.lookup_insert_ne heq] at hid
      exact h.mapped id' a hid

theorem erase (key : TraceKey) : Kept traceId { s with idToTrace := s.idToTrace.erase key } where
  __ := h
  mapped id a hid := by
    change (s.idToTrace.erase key).lookup id = some a at hid
    by_cases heq : id = key
    · subst heq
      rw [AList.lookup_erase] at hid
      cases hid
    · rw [AList.lookup_erase_ne heq] at hid
      exact h.mapped id a hid

theorem congr (hreceived : s'.received = s.received)
    (hcalls : s'.calls = s.calls) (htraces : s'.traces = s.traces)
    (hforwarded : s'.forwarded = s.forwarded) (hmap : s'.idToTrace = s.idToTrace) :
    Kept traceId s' where
  numbers := hreceived ▸ h.numbers
  under := by
    rw [hreceived, hcalls]
    exact h.under
  stored := by
    rw [hreceived, htraces]
    exact h.stored
  forwarded := by
    rw [hreceived, hforwarded]
    exact h.forwarded
  mapped := by
    rw [hreceived, hmap]
    exact h.mapped
  groups := hcalls ▸ h.groups
  batches := hreceived ▸ h.batches

theorem process (td : Batch N R X) : Kept traceId (s.process traceId td) where
  __ := h
  under call hmem d i hd := by
    rcases mem_append.1 hmem with hmem | hmem
    · exact h.under call hmem d i hd
    · obtain rfl := mem_singleton.1 hmem
      cases hd
  groups call hmem g hg := by
    rcases mem_append.1 hmem with hmem | hmem
    · exact h.groups call hmem g hg
    · obtain rfl := mem_singleton.1 hmem
      exact mem_groups traceId hg

theorem take {j : Nat} {g : TraceKey × List X} (hc : s.calls[c]? = some call)
    (hj : call.groups[j]? = some g) (a : Nat) :
    Kept traceId { s with received := s.received ++
      [⟨s.received.length, a, g.1, g.2, prepareTraceBatch g.2 call.singleTrace call.td⟩] } := by
  have hg := h.groups call (mem_of_getElem? hc) g (mem_of_getElem? hj)
  exact h.receive rfl ⟨spans_prepareTraceBatch traceId _ hg.1, hg.2⟩

theorem mem_received {i : Nat} (hc : s.calls[c]? = some call)
    (hs : call.stage = .policies d i) : d ∈ s.received :=
  h.under call (mem_of_getElem? hc) d i (by rw [hs]; rfl)

theorem stepped (hstep : Stepped cfg traceId s act s') : Kept traceId s' := by
  cases hstep with
  | process td => exact h.process td
  | load hc hj hid hd =>
    rename_i a td groups single id spans d
    subst hd
    refine (h.take hc hj a).setCall hc rfl (eraseIdx_subset) fun d i hu => ?_
    cases hu
    exact mem_append_right _ (mem_singleton.2 rfl)
  | store hc hj hid hd =>
    rename_i td groups single id spans d
    subst hd
    have htake := h.take hc hj s.traces.length
    have halloc := htake.allocate id (rfl : (TraceData.new cfg.policies).receivedBatches = [])
      ⟨_, mem_append_right _ (mem_singleton.2 rfl), rfl⟩
    refine halloc.setCall hc rfl (eraseIdx_subset) fun d i hu => ?_
    cases hu
    exact mem_append_right _ (mem_singleton.2 rfl)
  | add hc hs | post hc hs | full hc hs | evict hc hs _ | missing hc hs | drop hc hs =>
    exact (h.setStage _ hc fun d i hu => ⟨0, by cases hu; rw [hs]; rfl⟩).congr rfl rfl rfl rfl rfl
  | delete hc hs =>
    exact (h.erase _).setStage _ hc fun d i hu => ⟨0, by cases hu; rw [hs]; rfl⟩
  | leave hc hs ht hd => exact h.setStage _ hc fun d i hu => by cases hu
  | append hc hs ht hd =>
    rename_i trace
    refine (h.setTrace _ fun d' hd' => ?_).setStage _ hc fun d i hu => by cases hu
    rcases mem_append.1 hd' with hd' | hd'
    · exact h.stored _ trace ht d' hd'
    · obtain rfl := mem_singleton.1 hd'
      exact ⟨h.mem_received hc hs, rfl⟩
  | late hc hs ht hd =>
    rename_i i call d trace
    refine (h.setStage (.policies d (i + 1)) hc fun d' j hu => ?_).forward fun f hf => ?_
    · cases hu
      exact ⟨i, by rw [hs]; rfl⟩
    · obtain rfl := mem_singleton.1 hf
      exact ⟨h.mem_received hc hs, rfl⟩
  | skip hc hs ht hd hp hn =>
    exact h.setStage _ hc fun d' j hu => ⟨_, by cases hu; rw [hs]; rfl⟩
  | receive | collect | tick | done | gone | found => exact h.congr rfl rfl rfl rfl rfl
  | decide hp ht hi hd =>
    rename_i a i ids trace result decision
    exact (h.setTrace { trace with decisions := trace.decisions.set i decision }
      (h.stored a trace ht)).congr rfl rfl rfl rfl rfl
  | clear hp ht hi =>
    exact (h.setTrace _ fun d hd => absurd hd not_mem_nil).congr rfl rfl rfl rfl rfl
  | read hp ht =>
    refine (h.forward fun f hf => ?_).congr rfl rfl rfl rfl rfl
    obtain ⟨d, hd, rfl⟩ := mem_map.1 hf
    exact h.stored _ _ ht d hd

end Kept

/-! ## The shortcut for a single trace -/

section Shortcut

variable (traceId : X → TraceKey) (td : Batch N R X)

/-- The loop over `idToSpans` has one round, and `prepareTraceBatch` hands on the whole batch. -/
def Batch.IsSingle : Prop := (idToSpans traceId td.spans).pairs.length = 1

instance : Decidable (td.IsSingle traceId) := inferInstanceAs (Decidable (_ = 1))

/-- What `processTraces` stores or forwards under an id. -/
def Batch.handed (id : TraceKey) : Option (Batch N R X) :=
  ((idToSpans traceId td.spans).lookup id).map fun spans =>
    prepareTraceBatch spans (td.IsSingle traceId) td

variable {traceId td}

theorem eq_of_isSingle {id : TraceKey} {spans : List X} {x : X} (hsingle : td.IsSingle traceId)
    (hspans : (idToSpans traceId td.spans).lookup id = some spans) (hx : x ∈ td.spans)
    (hlen : (traceId x).length = 16) : traceId x = id := by
  obtain ⟨g, hgroups⟩ := length_eq_one_iff.1 hsingle
  have hmem := GoMap.mem_pairs.2 hspans
  cases hown : (idToSpans traceId td.spans).lookup (traceId x) with
  | none =>
    have hfilter := getD_lookup_idToSpans traceId td.spans hlen
    rw [hown] at hfilter
    exact absurd (decide_eq_true rfl) (filter_eq_nil_iff.1 hfilter.symm x hx)
  | some own =>
    have hmem' := GoMap.mem_pairs.2 hown
    rw [hgroups, mem_singleton] at hmem hmem'
    exact congrArg Prod.fst (hmem'.trans hmem.symm)

variable (traceId td)

/-- **What is stored or forwarded under an id are the spans of the batch that have it**, exactly
when the shortcut is not taken for a batch with spans that have no valid id. -/
theorem handed_exact_iff :
    (∀ id : TraceKey, id.length = 16 →
        ((td.handed traceId id).elim [] fun batch => batch.spans) =
          (td.spans.filter fun x => traceId x = id) ∧
        ∀ batch ∈ td.handed traceId id, batch.node = td.node ∧ batch.resource = td.resource) ↔
      (td.IsSingle traceId → ∀ x ∈ td.spans, (traceId x).length = 16) := by
  constructor
  · intro h hsingle x hx
    obtain ⟨⟨id, spans⟩, hgroups⟩ := length_eq_one_iff.1 hsingle
    have hspans := GoMap.mem_pairs.1 (hgroups ▸ mem_singleton_self (id, spans))
    have hlen := (lookup_idToSpans traceId hspans).1
    have hexact := (h id hlen).1
    rw [Batch.handed, hspans, decide_eq_true hsingle] at hexact
    rw [of_decide_eq_true (filter_eq_self.1 hexact.symm x hx)]
    exact hlen
  · intro h id hlen
    have hfilter := getD_lookup_idToSpans traceId td.spans hlen
    unfold Batch.handed
    cases hspans : (idToSpans traceId td.spans).lookup id with
    | none =>
      rw [hspans] at hfilter
      exact ⟨hfilter, by simp⟩
    | some spans =>
      rw [hspans] at hfilter
      by_cases hsingle : td.IsSingle traceId
      · have hall : (td.spans.filter fun x => traceId x = id) = td.spans :=
          filter_eq_self.2 fun x hx =>
            decide_eq_true (eq_of_isSingle hsingle hspans hx (h hsingle x hx))
        rw [hall]
        simp [prepareTraceBatch, hsingle]
      · rw [← hfilter]
        simp [prepareTraceBatch, hsingle]

/-- One span has a valid id and one has none: both are handed on under the id of the first. -/
theorem invalid_span_handed_on :
    ((⟨(), (), [replicate 16 1, []], ""⟩ : Batch Unit Unit TraceKey).handed id
      (replicate 16 1)).map Batch.spans = some [replicate 16 1, []] := by
  decide

end Shortcut

end Collector.TailSampling
