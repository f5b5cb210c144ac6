import Collector.TailSampling.Deliveries
import Mathlib.Algebra.Order.Group.Multiset

/-!
# A stored trace within the processor

`view a` is the life of the trace stored at the address `a`, as a part of the state of the
processor, and `label a` is what an act means for it. Every step of the processor is a move in the
life of every stored trace (`view_moved`), most often `stay`.
-/

namespace Collector.TailSampling

open Lib List State

variable {N R X : Type}

/-- What a call has on its way to the trace stored at `a`. -/
def Call.transit (a : Nat) (call : Call N R X) : Multiset (Nat × Nat) :=
  match call.stage.under with
  | some (d, i) => if d.address = a then {(d.number, i)} else 0
  | none => 0

def Phase.visit (a : Nat) : Phase → Visit
  | .evaluating b i _ => if b = a then .evaluating i else .away
  | .reading b i _ => if b = a then .reading i else .away
  | _ => .away

open Phase (visit)

namespace State

def transit (s : State N R X) (a : Nat) : Multiset (Nat × Nat) :=
  (s.calls.map (Call.transit a)).sum

/-- A trace that is not stored yet is like a new one. -/
def trace (cfg : Config) (s : State N R X) (a : Nat) : TraceData N R X :=
  (s.traces[a]?).getD (.new cfg.policies)

def passed (s : State N R X) (a : Nat) : List (Nat × Nat) :=
  (s.forwarded.filter fun f => f.address = a).map fun f => (f.delivery.number, f.policy)

def arrived (s : State N R X) (a : Nat) : List Nat :=
  (s.received.filter fun d => d.address = a).map (·.number)

def evaluations (s : State N R X) (a : Nat) : List Nat :=
  (s.evaluated.filter fun p => p.1 = a).map Prod.snd

/-- The life of the trace stored at `a`. -/
def view (cfg : Config) (a : Nat) (s : State N R X) : Life where
  decisions := (s.trace cfg a).decisions
  stored := (s.trace cfg a).receivedBatches.map (·.number)
  visit := s.phase.visit a
  transit := s.transit a
  passed := s.passed a
  arrived := s.arrived a
  evaluated := s.evaluations a
  visits := s.visited.count a

/-- The address of the trace that a group of a call goes to. -/
def target (s : State N R X) (c j : Nat) : Option Nat :=
  match s.calls[c]? with
  | some call =>
    (call.groups[j]?).map fun g => (s.idToTrace.lookup g.1).getD s.traces.length
  | none => none

/-- What an act is to the trace stored at `a`. -/
def label (a : Nat) (s : State N R X) : Act N R X → Move
  | .group c j => if s.target c j = some a then .arrive s.received.length else .stay
  | .run c =>
    match s.calls[c]? with
    | some ⟨_, _, _, .policies d i⟩ => if d.address = a then .check d.number i else .stay
    | _ => .stay
  | .evaluate result =>
    if s.phase.visit a = .away then .stay else .decide (result.getD .notSampled)
  | .next =>
    match s.phase with
    | .batch (e :: _) => if s.idToTrace.lookup e.id = some a then .visit else .stay
    | .evaluating b _ _ => if b = a then .finish else .stay
    | .reading b _ _ => if b = a then .read else .stay
    | _ => .stay
  | _ => .stay

end State

section Projection

variable {traceId : X → TraceKey} {cfg : Config} {s s' : State N R X} {act : Act N R X} {a c : Nat}
  {call : Call N R X}

variable {d : Delivery N R X} {b : Nat} {trace : TraceData N R X}

theorem Call.transit_of_under {i : Nat} (h : call.stage.under = some (d, i)) :
    call.transit a = if d.address = a then {(d.number, i)} else 0 := by
  simp [Call.transit, h]

theorem Call.transit_of_none (h : call.stage.under = none) : call.transit a = 0 := by
  simp [Call.transit, h]

theorem State.sum_setCall {M : Type} [AddCommMonoid M] (f : Call N R X → M)
    (hc : s.calls[c]? = some call) :
    ∃ rest, (s.calls.map f).sum = f call + rest ∧
      ∀ call', ((s.calls.set c call').map f).sum = f call' + rest := by
  obtain ⟨hlt, hget⟩ := List.getElem?_eq_some_iff.1 hc
  have hset : ∀ call', ((s.calls.set c call').map f).sum =
      f call' + (((s.calls.take c).map f).sum + ((s.calls.drop (c + 1)).map f).sum) := by
    intro call'
    rw [set_eq_take_append_cons_drop, if_pos hlt, map_append, sum_append,
      map_cons, sum_cons]
    exact add_left_comm _ _ _
  refine ⟨_, ?_, hset⟩
  rw [← hset call, ← hget, set_getElem_self]

theorem State.transit_setCall (hc : s.calls[c]? = some call) (a : Nat) :
    ∃ rest, s.transit a = call.transit a + rest ∧
      ∀ call', (s.setCall c call').transit a = call'.transit a + rest :=
  sum_setCall (Call.transit a) hc

theorem State.transit_setStage (hc : s.calls[c]? = some call) {stage : Stage N R X}
    (h : stage.under = call.stage.under) (a : Nat) :
    (s.setCall c { call with stage }).transit a = s.transit a := by
  obtain ⟨rest, hrest, hset⟩ := transit_setCall hc a
  rw [hset, hrest, Call.transit, Call.transit, h]

theorem State.trace_of_getElem? (h : s.traces[b]? = some trace) : s.trace cfg b = trace := by
  rw [State.trace, h]
  rfl

theorem State.trace_setTrace (cfg : Config) (h : s.traces[b]? = some trace)
    (trace' : TraceData N R X) (a : Nat) :
    (s.setTrace b trace').trace cfg a = if b = a then trace' else s.trace cfg a := by
  change ((s.traces.set b trace')[a]?).getD _ = _
  by_cases hba : b = a
  · subst hba
    simp [(List.getElem?_eq_some_iff.1 h).1]
  · simp [hba, State.trace]

theorem State.trace_append (a : Nat) :
    ((s.traces ++ [TraceData.new cfg.policies])[a]?).getD (.new cfg.policies) = s.trace cfg a := by
  rw [State.trace, getElem?_append]
  split
  · rfl
  · rename_i hge
    rw [getElem?_eq_none (Nat.not_lt.1 hge)]
    cases (a - s.traces.length) <;> rfl

/-! ## The steps of the calls -/

theorem State.label_run_of_ne (hc : s.calls[c]? = some call)
    (h : ∀ d i, call.stage ≠ .policies d i) : s.label a (.run c) = .stay := by
  simp only [label, hc]
  split
  · rename_i heq
    cases heq
    exact absurd rfl (h _ _)
  · rfl

theorem State.label_run_policies {i : Nat} (hc : s.calls[c]? = some call)
    (hs : call.stage = .policies d i) :
    s.label a (.run c) = if d.address = a then .check d.number i else .stay := by
  obtain ⟨td, groups, single, stage⟩ := call
  cases hs
  simp [label, hc]

theorem moved_stay (hlabel : s.label a act = .stay) (hview : s'.view cfg a = s.view cfg a) :
    Life.Moved (s.view cfg a) (s.label a act) (s'.view cfg a) := by
  rw [hlabel, hview]
  exact .stay

theorem State.view_congr (htrace : s'.trace cfg a = s.trace cfg a)
    (hvisit : s'.phase.visit a = s.phase.visit a) (htransit : s'.transit a = s.transit a)
    (hpassed : s'.passed a = s.passed a) (harrived : s'.arrived a = s.arrived a)
    (hevaluations : s'.evaluations a = s.evaluations a)
    (hvisits : s'.visited.count a = s.visited.count a) : s'.view cfg a = s.view cfg a := by
  simp only [view, htrace, hvisit, htransit, hpassed, harrived, hevaluations, hvisits]

theorem moved_setStage {stage : Stage N R X} (hc : s.calls[c]? = some call)
    (hne : ∀ d i, call.stage ≠ .policies d i) (hold : call.stage.under = some (d, 0))
    (hnew : stage.under = some (d, 0)) (hcalls : s'.calls = s.calls.set c { call with stage })
    (htraces : s'.traces = s.traces) (hphase : s'.phase = s.phase)
    (hreceived : s'.received = s.received) (hforwarded : s'.forwarded = s.forwarded)
    (hevaluated : s'.evaluated = s.evaluated) (hvisited : s'.visited = s.visited) :
    Life.Moved (s.view cfg a) (s.label a (.run c)) (s'.view cfg a) := by
  refine moved_stay (label_run_of_ne hc hne) ?_
  have htransit : s'.transit a = s.transit a := by
    rw [← transit_setStage hc (hnew.trans hold.symm) a, transit, hcalls]
    rfl
  refine view_congr ?_ (by rw [hphase]) htransit ?_ ?_ ?_ (by rw [hvisited])
  · rw [State.trace, State.trace, htraces]
  · rw [passed, passed, hforwarded]
  · rw [arrived, arrived, hreceived]
  · rw [evaluations, evaluations, hevaluated]

theorem moved_take (h : Kept traceId s) {j : Nat} {call' : Call N R X}
    (hc : s.calls[c]? = some call) (hold : call.stage.under = none)
    (hnew : call'.stage.under = some (d, 0)) (hn : d.number = s.received.length)
    (htarget : s.target c j = some d.address) (hcalls : s'.calls = s.calls.set c call')
    (htrace : s'.trace cfg a = s.trace cfg a) (hphase : s'.phase = s.phase)
    (hreceived : s'.received = s.received ++ [d]) (hforwarded : s'.forwarded = s.forwarded)
    (hevaluated : s'.evaluated = s.evaluated) (hvisited : s'.visited = s.visited) :
    Life.Moved (s.view cfg a) (s.label a (.group c j)) (s'.view cfg a) := by
  have htransit : s'.transit a = call'.transit a + s.transit a := by
    obtain ⟨rest, hrest, hset⟩ := transit_setCall hc a
    rw [hrest, Call.transit_of_none hold, zero_add, ← hset, transit, hcalls]
    rfl
  rw [Call.transit_of_under hnew] at htransit
  by_cases hd : d.address = a
  · have hlabel : s.label a (.group c j) = .arrive s.received.length :=
      if_pos (by rw [htarget, hd])
    have harrived : s'.arrived a = s.arrived a ++ [s.received.length] := by
      simp [arrived, hreceived, hd, hn]
    rw [hlabel]
    refine Life.Moved.to (.arrive fun hmem => ?_) ?_
    · obtain ⟨d', hd', hn'⟩ := mem_map.1 hmem
      have hlt := h.number_lt (mem_of_mem_filter hd')
      omega
    · rw [if_pos hd, hn] at htransit
      simp only [view, passed, evaluations, htransit, harrived, htrace, hphase,
        hforwarded, hevaluated, hvisited, Multiset.singleton_add]
  · refine moved_stay (if_neg (by rw [htarget]; simpa using hd)) ?_
    have harrived : s'.arrived a = s.arrived a := by
      simp [arrived, hreceived, hd]
    rw [if_neg hd, zero_add] at htransit
    refine view_congr htrace (by rw [hphase]) htransit ?_ harrived ?_ (by rw [hvisited])
    · rw [passed, passed, hforwarded]
    · rw [evaluations, evaluations, hevaluated]

theorem State.decisions_view (ht : s.traces[a]? = some trace) :
    (s.view cfg a).decisions = trace.decisions := by
  rw [view, trace_of_getElem? ht]

/-- For the trace at one address the step is a move, for every other one it is nothing. -/
theorem moved_visited {mv : Move} (hlabel : s.label a act = if b = a then mv else .stay)
    (hown : Life.Moved (s.view cfg b) mv (s'.view cfg b))
    (helse : b ≠ a → s'.view cfg a = s.view cfg a) :
    Life.Moved (s.view cfg a) (s.label a act) (s'.view cfg a) := by
  by_cases ha : b = a
  · subst ha
    rw [hlabel, if_pos rfl]
    exact hown
  · exact moved_stay (hlabel.trans (if_neg ha)) (helse ha)

/-! ## The loop over the policies -/

section Policies

variable {i : Nat} (hc : s.calls[c]? = some call) (hs : call.stage = .policies d i)

include hc hs

theorem State.transit_policies :
    ∃ rest, s.transit d.address = (d.number, i) ::ₘ rest ∧
      ∀ stage : Stage N R X,
        (s.setCall c { call with stage }).transit d.address =
          Call.transit d.address { call with stage } + rest := by
  obtain ⟨rest, hrest, hset⟩ := transit_setCall hc d.address
  have hunder : call.stage.under = some (d, i) := by rw [hs]; rfl
  refine ⟨rest, ?_, fun stage => hset _⟩
  rw [hrest, Call.transit_of_under hunder, if_pos rfl, Multiset.singleton_add]

theorem State.transit_elsewhere (stage : Stage N R X)
    (hstage : ∀ d' j, stage.under = some (d', j) → d' = d) (ha : d.address ≠ a) :
    (s.setCall c { call with stage }).transit a = s.transit a := by
  obtain ⟨rest, hrest, hset⟩ := transit_setCall hc a
  have hunder : call.stage.under = some (d, i) := by rw [hs]; rfl
  have hzero : Call.transit a { call with stage } = 0 := by
    cases hstage' : stage.under with
    | none => exact Call.transit_of_none hstage'
    | some p =>
      obtain ⟨d', j⟩ := p
      rw [Call.transit_of_under (d := d') (i := j) hstage', hstage d' j hstage', if_neg ha]
  rw [hset, hrest, hzero, Call.transit_of_under hunder, if_neg ha]

theorem moved_policies
    (hown : Life.Moved (s.view cfg d.address) (.check d.number i) (s'.view cfg d.address))
    (helse : d.address ≠ a → s'.view cfg a = s.view cfg a) :
    Life.Moved (s.view cfg a) (s.label a (.run c)) (s'.view cfg a) := by
  exact moved_visited (label_run_policies hc hs) hown helse

variable (ht : s.traces[d.address]? = some trace)

include ht

theorem moved_leave (hd : trace.decisions[i]? = none) :
    Life.Moved (s.view cfg a) (s.label a (.run c))
      ((s.setCall c { call with stage := .choosing }).view cfg a) := by
  refine moved_policies hc hs ?_ fun ha => ?_
  · obtain ⟨rest, hrest, hset⟩ := transit_policies hc hs
    refine Life.Moved.to (.leave hrest (by rw [decisions_view ht, hd])) ?_
    exact Life.ext rfl rfl rfl ((hset .choosing).trans (zero_add rest)) rfl rfl rfl rfl
  · have htransit := transit_elsewhere hc hs .choosing (fun _ _ hu => by cases hu) ha
    exact view_congr rfl rfl htransit rfl rfl rfl rfl

theorem moved_append (hd : trace.decisions[i]? = some .pending) :
    Life.Moved (s.view cfg a) (s.label a (.run c))
      (((s.setTrace d.address
        { trace with receivedBatches := trace.receivedBatches ++ [d] }).setCall c
          { call with stage := .choosing }).view cfg a) := by
  have htrace := trace_setTrace cfg ht
    { trace with receivedBatches := trace.receivedBatches ++ [d] }
  refine moved_policies hc hs ?_ fun ha => ?_
  · obtain ⟨rest, hrest, hset⟩ := transit_policies hc hs
    have hown := htrace d.address
    rw [if_pos rfl] at hown
    have hstored : (s.view cfg d.address).stored = trace.receivedBatches.map (·.number) := by
      rw [view, trace_of_getElem? ht]
    refine Life.Moved.to (.store hrest (by rw [decisions_view ht, hd])) ?_
    refine Life.ext ?_ ?_ rfl ((hset .choosing).trans (zero_add rest)) rfl rfl rfl rfl
    · exact (congrArg TraceData.decisions hown).trans (decisions_view ht).symm
    · refine (congrArg (fun t => t.receivedBatches.map (·.number)) hown).trans ?_
      simp [hstored]
  · have hother := htrace a
    rw [if_neg ha] at hother
    have htransit := transit_elsewhere hc hs .choosing (fun _ _ hu => by cases hu) ha
    exact view_congr hother rfl htransit rfl rfl rfl rfl

omit ht in
theorem State.transit_next :
    ∃ rest, s.transit d.address = (d.number, i) ::ₘ rest ∧
      (s.setCall c { call with stage := .policies d (i + 1) }).transit d.address =
        (d.number, i + 1) ::ₘ rest := by
  obtain ⟨rest, hrest, hset⟩ := transit_policies hc hs
  refine ⟨rest, hrest, ?_⟩
  rw [hset, Call.transit_of_under (d := d) (i := i + 1) rfl, if_pos rfl, Multiset.singleton_add]

theorem moved_late (hd : trace.decisions[i]? = some .sampled) :
    Life.Moved (s.view cfg a) (s.label a (.run c))
      (State.view cfg a { s.setCall c { call with stage := .policies d (i + 1) } with
        forwarded := s.forwarded ++ [⟨d.address, i, d⟩] }) := by
  refine moved_policies hc hs ?_ fun ha => ?_
  · obtain ⟨rest, hrest, hnext⟩ := transit_next hc hs
    refine Life.Moved.to (.late hrest (by rw [decisions_view ht, hd])) ?_
    refine Life.ext rfl rfl rfl hnext ?_ rfl rfl rfl
    simp [view, passed]
  · have htransit := transit_elsewhere hc hs (.policies d (i + 1))
      (fun _ _ hu => by cases hu; rfl) ha
    refine view_congr rfl rfl htransit ?_ rfl rfl rfl
    simp [passed, ha]

theorem moved_skip {decision : Decision} (hd : trace.decisions[i]? = some decision)
    (hp : decision ≠ .pending) (hn : decision ≠ .sampled) :
    Life.Moved (s.view cfg a) (s.label a (.run c))
      ((s.setCall c { call with stage := .policies d (i + 1) }).view cfg a) := by
  refine moved_policies hc hs ?_ fun ha => ?_
  · obtain ⟨rest, hrest, hnext⟩ := transit_next hc hs
    refine Life.Moved.to (.skip hrest (by rw [decisions_view ht, hd]) hp hn) ?_
    exact Life.ext rfl rfl rfl hnext rfl rfl rfl rfl
  · have htransit := transit_elsewhere hc hs (.policies d (i + 1))
      (fun _ _ hu => by cases hu; rfl) ha
    exact view_congr rfl rfl htransit rfl rfl rfl rfl

end Policies

/-! ## The steps of the tick -/

section Tick

variable {i : Nat} {ids : List Entry}

theorem moved_found (h : Kept traceId s) {e : Entry} (hp : s.phase = .batch (e :: ids))
    (he : s.idToTrace.lookup e.id = some b) :
    Life.Moved (s.view cfg a) (s.label a .next)
      (State.view cfg a { s with phase := .evaluating b 0 ids, visited := s.visited ++ [b] }) := by
  have hlabel : s.label a .next = if b = a then .visit else .stay := by
    simp [label, hp, he]
  have haway : ∀ a, (s.view cfg a).visit = .away := by
    simp [view, hp, visit]
  refine moved_visited hlabel ?_ fun ha => ?_
  · refine Life.Moved.to (.visit (haway b) fun hnil => ?_) (Life.ext rfl rfl ?_ rfl rfl rfl rfl ?_)
    · obtain ⟨d, hd, hda⟩ := h.mapped e.id b he
      have hmem : d.number ∈ (s.view cfg b).arrived :=
        mem_map.2 ⟨d, mem_filter.2 ⟨hd, by simpa using hda⟩, rfl⟩
      rw [hnil] at hmem
      cases hmem
    · simp [view, visit]
    · simp [view]
  · refine view_congr rfl ?_ rfl rfl rfl rfl ?_
    · exact (if_neg ha).trans (haway a).symm
    · simp [count_append, ha]

theorem moved_decide {result : Option Decision} {decision : Decision}
    (hp : s.phase = .evaluating b i ids) (ht : s.traces[b]? = some trace)
    (hi : i < trace.decisions.length) (hd : decision = result.getD .notSampled) :
    Life.Moved (s.view cfg a) (s.label a (.evaluate result))
      (State.view cfg a
        { s.setTrace b { trace with decisions := trace.decisions.set i decision } with
          phase := if decision = .sampled then .reading b i ids else .evaluating b (i + 1) ids
          evaluated := s.evaluated ++ [(b, i)] }) := by
  have htrace := trace_setTrace cfg ht
    { trace with decisions := trace.decisions.set i decision } a
  by_cases ha : b = a
  · subst ha
    rw [if_pos rfl] at htrace
    have hvisit : (s.view cfg b).visit = .evaluating i := by
      simp [view, hp, visit]
    have hlabel : s.label b (.evaluate result) = .decide decision := by
      simp [label, hp, visit, hd]
    rw [hlabel]
    refine Life.Moved.to (.decide hvisit (by rw [decisions_view ht]; exact hi)) ?_
    refine Life.ext ?_ ?_ ?_ rfl rfl rfl ?_ rfl
    · refine (congrArg TraceData.decisions htrace).trans ?_
      rw [Life.decide, decisions_view ht]
    · refine (congrArg (fun t => t.receivedBatches.map (·.number)) htrace).trans ?_
      rw [Life.decide, view, trace_of_getElem? ht]
    · by_cases hsampled : decision = .sampled <;> simp [view, Life.decide, visit, hsampled]
    · simp [view, Life.decide, evaluations]
  · rw [if_neg ha] at htrace
    have haway : s.phase.visit a = .away := by
      simp [hp, visit, ha]
    refine moved_stay (if_pos haway) (view_congr htrace ?_ rfl rfl rfl ?_ rfl)
    · refine Eq.trans ?_ haway.symm
      by_cases hsampled : decision = .sampled <;> simp [visit, hsampled, ha]
    · simp [evaluations, ha]

theorem moved_clear (hp : s.phase = .evaluating b i ids) (ht : s.traces[b]? = some trace)
    (hi : i = trace.decisions.length) :
    Life.Moved (s.view cfg a) (s.label a .next)
      (State.view cfg a
        { s.setTrace b { trace with receivedBatches := [] } with phase := .batch ids }) := by
  have htrace := trace_setTrace cfg ht { trace with receivedBatches := [] }
  have hlabel : s.label a .next = if b = a then .finish else .stay := by
    simp [label, hp]
  refine moved_visited hlabel ?_ fun ha => ?_
  · have hown := (htrace b).trans (if_pos rfl)
    refine Life.Moved.to (.finish ?_) (Life.ext ?_ ?_ rfl rfl rfl rfl rfl rfl)
    · rw [decisions_view ht, ← hi]
      simp [view, hp, visit]
    · exact (congrArg TraceData.decisions hown).trans (decisions_view ht).symm
    · exact congrArg (fun t => t.receivedBatches.map (·.number)) hown
  · refine view_congr ((htrace a).trans (if_neg ha)) ?_ rfl rfl rfl rfl rfl
    simp [hp, visit, ha]

theorem moved_read (hp : s.phase = .reading b i ids) (ht : s.traces[b]? = some trace) :
    Life.Moved (s.view cfg a) (s.label a .next)
      (State.view cfg a { s with
        forwarded := s.forwarded ++ trace.receivedBatches.map fun d => ⟨b, i, d⟩
        phase := .evaluating b (i + 1) ids }) := by
  have hlabel : s.label a .next = if b = a then .read else .stay := by
    simp [label, hp]
  refine moved_visited hlabel ?_ fun ha => ?_
  · refine Life.Moved.to (.read (i := i) ?_) (Life.ext rfl rfl ?_ rfl ?_ rfl rfl rfl)
    · simp [view, hp, visit]
    · simp [view, visit]
    · simp [view, passed, trace_of_getElem? ht, filter_map, Function.comp_def]
  · refine view_congr rfl ?_ rfl ?_ rfl rfl rfl
    · simp [hp, visit, ha]
    · simp [passed, filter_map, Function.comp_def, ha]

end Tick

/-- **Every step of the processor is a move in the life of every stored trace.** -/
theorem view_moved (h : Kept traceId s) (hstep : Stepped cfg traceId s act s') (a : Nat) :
    Life.Moved (s.view cfg a) (s.label a act) (s'.view cfg a) := by
  cases hstep with
  | process td =>
    refine moved_stay rfl (view_congr rfl rfl ?_ rfl rfl rfl rfl)
    have hcalls : (s.process traceId td).transit a = s.transit a + Call.transit a
        { td, groups := (idToSpans traceId td.spans).pairs,
          singleTrace := (idToSpans traceId td.spans).pairs.length = 1 } := by
      simp [transit, process]
    rw [hcalls, Call.transit_of_none rfl, add_zero]
  | load hc hj hid hd =>
    subst hd
    exact moved_take h hc rfl rfl rfl (by simp [target, hc, hj, hid]) rfl rfl rfl rfl rfl rfl
      rfl
  | store hc hj hid hd =>
    subst hd
    exact moved_take h hc rfl rfl rfl (by simp [target, hc, hj, hid]) rfl
      (trace_append a) rfl rfl rfl rfl rfl
  | add hc hs | post hc hs | full hc hs | evict hc hs _ | missing hc hs | drop hc hs
  | delete hc hs =>
    exact moved_setStage hc (by simp [hs]) (by rw [hs]; rfl) rfl rfl rfl rfl rfl rfl rfl rfl
  | leave hc hs ht hd => exact moved_leave hc hs ht hd
  | append hc hs ht hd => exact moved_append hc hs ht hd
  | late hc hs ht hd => exact moved_late hc hs ht hd
  | skip hc hs ht hd hp hn => exact moved_skip hc hs ht hd hp hn
  | receive | collect => exact moved_stay rfl rfl
  | tick hp hb =>
    refine moved_stay rfl (view_congr rfl ?_ rfl rfl rfl rfl rfl)
    simp [hp, visit]
  | done hp =>
    refine moved_stay (by simp [label, hp]) (view_congr rfl ?_ rfl rfl rfl rfl rfl)
    simp [hp, visit]
  | gone hp he =>
    refine moved_stay (by simp [label, hp, he])
      (view_congr rfl ?_ rfl rfl rfl rfl rfl)
    simp [hp, visit]
  | found hp he => exact moved_found h hp he
  | decide hp ht hi hd => exact moved_decide hp ht hi hd
  | clear hp ht hi => exact moved_clear hp ht hi
  | read hp ht => exact moved_read hp ht

theorem views (cfg : Config) (traceId : X → TraceKey) (a : Nat) :
    Views (step (N := N) (R := R) cfg traceId) Life.step (State.view cfg a) (State.label a)
      (Kept traceId) where
  kept _ _ _ hstep h := h.stepped (stepped_of_step hstep)
  moves _ _ _ hstep h := (view_moved h (stepped_of_step hstep) a).step

end Projection

end Collector.TailSampling
