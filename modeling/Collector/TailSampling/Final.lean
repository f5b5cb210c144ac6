import Collector.Lib.Collate
import Collector.TailSampling.Once

/-!
# Decisions are final

The batcher is given an id when a trace is stored under it, and the id stays in the batcher when the
trace is dropped from the map. When spans of the trace come again before that id is taken, a new
`TraceData` is stored under the same id, and the tick finds it for the old entry as well as for its
own. It is then evaluated twice, and its decisions can change.

This is the only way: in the runs in which no entry is taken for a trace other than its own, every
policy evaluates a stored trace at most once and its decision stays (`final_iff`).
-/

namespace Collector.TailSampling

open Lib List State

variable {N R X : Type}

/-! ## The entries of the batcher -/

/-- The id that the call is about to give to the batcher. -/
def Call.entries (call : Call N R X) : Multiset Entry :=
  match call.stage with
  | .adding d => {⟨d.id, d.address⟩}
  | _ => 0

def Phase.ids : Phase → List Entry
  | .idle => []
  | .batch ids | .evaluating _ _ ids | .reading _ _ ids => ids

/-- What is in the batcher, or taken from it by the tick. -/
def State.queue (s : State N R X) : List Entry :=
  s.pendingIds ++ s.held.toList ++ s.currentBatch ++ s.batches.flatten ++ s.phase.ids

def State.entries (s : State N R X) : Multiset Entry :=
  (s.calls.map Call.entries).sum + s.queue

def State.taken (s : State N R X) : Act N R X → Option Entry
  | .next =>
    match s.phase with
    | .batch (e :: _) => some e
    | _ => none
  | _ => none

/-- The trace stored at `a` is not found for an id that was queued for another one. -/
def NoStale (a : Nat) (s : State N R X) (act : Act N R X) : Prop :=
  ∀ e ∈ s.taken act, s.idToTrace.lookup e.id = some a → e.address = a

instance (a : Nat) (s : State N R X) (act : Act N R X) : Decidable (NoStale a s act) :=
  inferInstanceAs (Decidable (∀ e ∈ s.taken act, s.idToTrace.lookup e.id = some a → e.address = a))

/-- What a step does to the map and the entries, with the entry that it takes. -/
inductive Booked (s : State N R X) : Option Entry → State N R X → Prop where
  | keep {s' : State N R X} (hentries : s'.entries = s.entries)
    (hmap : s'.idToTrace = s.idToTrace) (hvisited : s'.visited = s.visited)
    (hlength : s'.traces.length = s.traces.length) : Booked s none s'
  | store {s' : State N R X} {id : TraceKey} (hid : s.idToTrace.lookup id = none)
    (hentries : s'.entries = ⟨id, s.traces.length⟩ ::ₘ s.entries)
    (hmap : s'.idToTrace = s.idToTrace.insert id s.traces.length)
    (hvisited : s'.visited = s.visited) (hlength : s'.traces.length = s.traces.length + 1) :
    Booked s none s'
  | delete {s' : State N R X} {key : TraceKey} (hentries : s'.entries = s.entries)
    (hmap : s'.idToTrace = s.idToTrace.erase key) (hvisited : s'.visited = s.visited)
    (hlength : s'.traces.length = s.traces.length) : Booked s none s'
  | gone {s' : State N R X} {e : Entry} (hid : s.idToTrace.lookup e.id = none)
    (hentries : s.entries = e ::ₘ s'.entries) (hmap : s'.idToTrace = s.idToTrace)
    (hvisited : s'.visited = s.visited) (hlength : s'.traces.length = s.traces.length) :
    Booked s (some e) s'
  | found {s' : State N R X} {e : Entry} {b : Nat} (hid : s.idToTrace.lookup e.id = some b)
    (hentries : s.entries = e ::ₘ s'.entries) (hmap : s'.idToTrace = s.idToTrace)
    (hvisited : s'.visited = s.visited ++ [b]) (hlength : s'.traces.length = s.traces.length) :
    Booked s (some e) s'

section Booked

variable {traceId : X → TraceKey} {cfg : Config} {s s' : State N R X} {act : Act N R X} {c : Nat}
  {call : Call N R X}

theorem State.entries_congr (hcalls : s'.calls = s.calls) (hqueue : s'.queue.Perm s.queue) :
    s'.entries = s.entries := by
  rw [State.entries, State.entries, hcalls, Multiset.coe_eq_coe.2 hqueue]

theorem State.entries_take {e : Entry} (hcalls : s'.calls = s.calls)
    (hqueue : s.queue.Perm (e :: s'.queue)) : s.entries = e ::ₘ s'.entries := by
  rw [State.entries, State.entries, hcalls, Multiset.coe_eq_coe.2 hqueue, ← Multiset.cons_coe,
    Multiset.add_cons]

theorem Call.entries_of_ne (h : ∀ d, call.stage ≠ .adding d) : call.entries = 0 := by
  unfold Call.entries
  split
  · rename_i d hs
    exact absurd hs (h d)
  · rfl

theorem State.entries_setCall {call' : Call N R X} (hc : s.calls[c]? = some call)
    (hold : ∀ d, call.stage ≠ .adding d) (hnew : ∀ d, call'.stage ≠ .adding d)
    (hcalls : s'.calls = s.calls.set c call') (hqueue : s'.queue = s.queue) :
    s'.entries = s.entries := by
  obtain ⟨rest, hrest, hset⟩ := sum_setCall Call.entries hc
  rw [State.entries, State.entries, hcalls, hset, hrest, hqueue, Call.entries_of_ne hold,
    Call.entries_of_ne hnew]

theorem State.entries_store {call' : Call N R X} {e : Entry} (hc : s.calls[c]? = some call)
    (hold : ∀ d, call.stage ≠ .adding d) (hnew : call'.entries = {e})
    (hcalls : s'.calls = s.calls.set c call') (hqueue : s'.queue = s.queue) :
    s'.entries = e ::ₘ s.entries := by
  obtain ⟨rest, hrest, hset⟩ := sum_setCall Call.entries hc
  rw [State.entries, State.entries, hcalls, hset, hrest, hqueue, Call.entries_of_ne hold, hnew,
    zero_add, add_assoc, Multiset.singleton_add]

theorem State.entries_add {d : Delivery N R X} (hc : s.calls[c]? = some call)
    (hs : call.stage = .adding d) :
    State.entries { s.setCall c { call with stage := .posting d } with
      pendingIds := s.pendingIds ++ [⟨d.id, d.address⟩] } = s.entries := by
  obtain ⟨rest, hrest, hset⟩ := sum_setCall Call.entries hc
  have hold : call.entries = {⟨d.id, d.address⟩} := by rw [Call.entries, hs]
  have hqueue : (State.queue { s.setCall c { call with stage := .posting d } with
      pendingIds := s.pendingIds ++ [⟨d.id, d.address⟩] }).Perm (⟨d.id, d.address⟩ :: s.queue) := by
    simp only [State.queue, setCall, append_assoc, singleton_append]
    exact perm_middle
  change ((s.calls.set c { call with stage := .posting d }).map Call.entries).sum + _ = _
  rw [hset, Call.entries_of_ne (by simp), zero_add, Multiset.coe_eq_coe.2 hqueue,
    ← Multiset.cons_coe, Multiset.add_cons, State.entries, hrest, hold, add_assoc,
    Multiset.singleton_add]

theorem booked_of_stepped (h : Stepped cfg traceId s act s') : Booked s (s.taken act) s' := by
  cases h with
  | process td =>
    refine .keep ?_ rfl rfl rfl
    have hcalls : ((s.process traceId td).calls.map Call.entries).sum =
        (s.calls.map Call.entries).sum := by
      simp [process, Call.entries]
    exact congrArg (· + (s.queue : Multiset Entry)) hcalls
  | load hc hj hid hd =>
    exact .keep (entries_setCall hc (by simp) (by simp) rfl rfl) rfl rfl rfl
  | store hc hj hid hd =>
    subst hd
    refine .store hid ?_ rfl rfl (by simp)
    exact entries_store hc (by simp) rfl rfl rfl
  | add hc hs => exact .keep (entries_add hc hs) rfl rfl rfl
  | post hc hs | full hc hs | evict hc hs _ | missing hc hs | drop hc hs | leave hc hs _ _
  | late hc hs _ _ | skip hc hs _ _ _ _ =>
    exact .keep (entries_setCall hc (by simp [hs]) (by simp) rfl rfl) rfl rfl rfl
  | append hc hs ht hd =>
    refine .keep (entries_setCall hc (by simp [hs]) (by simp) rfl rfl) rfl rfl ?_
    simp [setTrace, setCall]
  | delete hc hs =>
    exact .delete (entries_setCall hc (by simp [hs]) (by simp) rfl rfl) rfl rfl rfl
  | receive hh hp =>
    refine .keep (entries_congr rfl ?_) rfl rfl rfl
    refine perm_iff_count.2 fun e => ?_
    simp only [State.queue, hh, hp, count_append, count_cons, Option.toList_some,
      Option.toList_none, count_nil]
    omega
  | collect hh =>
    refine .keep (entries_congr rfl ?_) rfl rfl rfl
    refine perm_iff_count.2 fun e => ?_
    simp only [State.queue, hh, count_append, Option.toList_some, Option.toList_none,
      count_nil]
    omega
  | tick hp hb =>
    refine .keep (entries_congr rfl ?_) rfl rfl rfl
    refine perm_iff_count.2 fun e => ?_
    simp only [State.queue, hp, hb, Phase.ids, flatten_append, flatten_cons,
      flatten_nil, count_append, count_nil]
    omega
  | done hp | read hp =>
    simp only [taken, hp]
    refine .keep (entries_congr rfl ?_) rfl rfl rfl
    simp [State.queue, hp, Phase.ids]
  | gone hp he =>
    simp only [taken, hp]
    refine .gone he (entries_take rfl ?_) rfl rfl rfl
    simp only [State.queue, hp, Phase.ids]
    exact perm_middle
  | found hp he =>
    simp only [taken, hp]
    refine .found he (entries_take rfl ?_) rfl rfl rfl
    simp only [State.queue, hp, Phase.ids]
    exact perm_middle
  | decide hp ht hi hd =>
    rename_i decision
    refine .keep (entries_congr rfl ?_) rfl rfl (by simp [setTrace])
    by_cases hs : decision = .sampled <;> simp [State.queue, setTrace, hp, Phase.ids, hs]
  | clear hp ht hi =>
    simp only [taken, hp]
    refine .keep (entries_congr rfl ?_) rfl rfl (by simp [setTrace])
    simp [State.queue, setTrace, hp, Phase.ids]

end Booked

/-! ## One entry for every stored trace -/

/-- An entry has the id under which its trace is found, if it is found at all. -/
structure Named (s : State N R X) : Prop where
  entries : ∀ e ∈ s.entries, e.address < s.traces.length ∧
    ∀ id, s.idToTrace.lookup id = some e.address → id = e.id
  map : ∀ id b, s.idToTrace.lookup id = some b → b < s.traces.length
  visited : ∀ b ∈ s.visited, b < s.traces.length

def State.Mapped (s : State N R X) (a : Nat) : Prop := ∃ id, s.idToTrace.lookup id = some a

/-- The entries that are left for the trace stored at `a`. -/
def State.queued (s : State N R X) (a : Nat) : Nat := s.entries.countP fun e => e.address = a

/-- The visits of the trace, made and to be made. -/
def State.visitsDue (s : State N R X) (a : Nat) : Nat := s.queued a + s.visited.count a

/-- What a step does to the visits due to the trace stored at `a`. -/
inductive Turned (a : Nat) (s : State N R X) (taken : Option Entry) (s' : State N R X) : Prop where
  | same (hfresh : ∀ e ∈ taken, s.idToTrace.lookup e.id = some a → e.address = a)
    (hdue : s'.visitsDue a = s.visitsDue a) (hmapped : s'.Mapped a → s.Mapped a)
  | stored (hfresh : ∀ e ∈ taken, s.idToTrace.lookup e.id = some a → e.address = a)
    (hnew : a = s.traces.length) (hdue : s'.visitsDue a = 1)
  | lost (hfresh : ∀ e ∈ taken, s.idToTrace.lookup e.id = some a → e.address = a)
    (hdue : s.visitsDue a = s'.visitsDue a + 1) (hmapped : ¬ s'.Mapped a)
  | stale (hstale : ¬ ∀ e ∈ taken, s.idToTrace.lookup e.id = some a → e.address = a)
    (hdue : s'.visitsDue a = s.visitsDue a + 1) (hmapped : s.Mapped a)

section Named

variable {cfg : Config} {s s' : State N R X} {taken : Option Entry} {a : Nat}

theorem Named.init : Named (State.init cfg : State N R X) where
  entries e he := by
    have hempty : (State.init cfg : State N R X).entries = 0 := by
      simp [State.entries, State.init, State.queue, Phase.ids]
    rw [hempty] at he
    cases Multiset.notMem_zero e he
  map id b h := by cases h
  visited b h := by cases h

theorem Named.visitsDue_new (h : Named s) : s.visitsDue s.traces.length = 0 := by
  have hqueued : s.queued s.traces.length = 0 := by
    refine Multiset.countP_eq_zero.2 fun e he heq => ?_
    have := (h.entries e he).1
    omega
  have hvisited : s.visited.count s.traces.length = 0 := by
    refine count_eq_zero.2 fun hmem => ?_
    have := h.visited _ hmem
    omega
  rw [visitsDue, hqueued, hvisited]

theorem Named.of_subset (h : Named s) (hentries : ∀ e ∈ s'.entries, e ∈ s.entries)
    (hmap : ∀ id b, s'.idToTrace.lookup id = some b → s.idToTrace.lookup id = some b)
    (hvisited : ∀ b ∈ s'.visited, b < s.traces.length)
    (hlength : s'.traces.length = s.traces.length) : Named s' := by
  refine ⟨fun e he => ?_, fun id b hb => ?_, fun b hb => ?_⟩
  · obtain ⟨hlt, hname⟩ := h.entries e (hentries e he)
    exact ⟨hlength ▸ hlt, fun id hid => hname id (hmap id _ hid)⟩
  · exact hlength ▸ h.map id b (hmap id b hb)
  · exact hlength ▸ hvisited b hb

theorem Named.store (h : Named s) {id : TraceKey} (hid : s.idToTrace.lookup id = none)
    (hentries : s'.entries = ⟨id, s.traces.length⟩ ::ₘ s.entries)
    (hmap : s'.idToTrace = s.idToTrace.insert id s.traces.length)
    (hvisited : s'.visited = s.visited) (hlength : s'.traces.length = s.traces.length + 1) :
    Named s' := by
  have hlookup : ∀ id' b, s'.idToTrace.lookup id' = some b →
      id' = id ∧ s.traces.length = b ∨ s.idToTrace.lookup id' = some b := fun id' b hb =>
    (lookup_insert_new hid).1 (hmap ▸ hb)
  refine ⟨fun e he => ?_, fun id' b hb => ?_, fun b hb => ?_⟩
  · rw [hentries] at he
    rcases Multiset.mem_cons.1 he with rfl | he
    · refine ⟨hlength ▸ Nat.lt_succ_self _, fun id' hid' => ?_⟩
      rcases hlookup id' _ hid' with ⟨heq, -⟩ | hid'
      · exact heq
      · exact absurd (h.map id' _ hid') (Nat.lt_irrefl _)
    · obtain ⟨hlt, hname⟩ := h.entries e he
      refine ⟨by omega, fun id' hid' => ?_⟩
      rcases hlookup id' _ hid' with ⟨-, heq⟩ | hid'
      · omega
      · exact hname id' hid'
  · rcases hlookup id' b hb with ⟨-, heq⟩ | hb
    · omega
    · have := h.map id' b hb
      omega
  · have := h.visited b (hvisited ▸ hb)
    omega

theorem Named.booked (h : Named s) (hb : Booked s taken s') : Named s' := by
  cases hb with
  | keep hentries hmap hvisited hlength =>
    exact h.of_subset (fun e he => hentries ▸ he) (fun id b hb => hmap ▸ hb)
      (fun b hb => h.visited b (hvisited ▸ hb)) hlength
  | store hid hentries hmap hvisited hlength => exact h.store hid hentries hmap hvisited hlength
  | delete hentries hmap hvisited hlength =>
    exact h.of_subset (fun e he => hentries ▸ he)
      (fun id b hb => (lookup_erase_iff.1 (hmap ▸ hb)).2)
      (fun b hb => h.visited b (hvisited ▸ hb)) hlength
  | gone hid hentries hmap hvisited hlength =>
    exact h.of_subset (fun e he => hentries ▸ Multiset.mem_cons_of_mem he)
      (fun id b hb => hmap ▸ hb) (fun b hb => h.visited b (hvisited ▸ hb)) hlength
  | found hid hentries hmap hvisited hlength =>
    refine h.of_subset (fun e he => hentries ▸ Multiset.mem_cons_of_mem he)
      (fun id b hb => hmap ▸ hb) (fun b hb => ?_) hlength
    rw [hvisited] at hb
    rcases mem_append.1 hb with hb | hb
    · exact h.visited b hb
    · obtain rfl := mem_singleton.1 hb
      exact h.map _ _ hid

theorem Named.not_mapped (h : Named s) {e : Entry} (he : e ∈ s.entries)
    (hid : s.idToTrace.lookup e.id ≠ some e.address) : ¬ s.Mapped e.address := by
  rintro ⟨id, hid'⟩
  have hname := (h.entries e he).2 id hid'
  exact hid (hname ▸ hid')

theorem State.queued_of_cons {e : Entry} {entries : Multiset Entry}
    (h : s.entries = e ::ₘ entries) (a : Nat) :
    s.queued a = entries.countP (fun e => e.address = a) + if e.address = a then 1 else 0 := by
  rw [queued, h, Multiset.countP_cons]

/-- **A trace has one visit due to it**, and gets more only by an entry that was not its own. -/
theorem Named.turned (h : Named s) (hb : Booked s taken s') (a : Nat) : Turned a s taken s' := by
  cases hb with
  | keep hentries hmap hvisited hlength =>
    refine .same (by simp) ?_ fun ⟨id, hid⟩ => ⟨id, hmap ▸ hid⟩
    rw [visitsDue, visitsDue, queued, queued, hentries, hvisited]
  | store hid hentries hmap hvisited hlength =>
    have hqueued := queued_of_cons hentries a
    by_cases ha : s.traces.length = a
    · subst ha
      refine .stored (by simp) rfl ?_
      have hnew := h.visitsDue_new
      rw [if_pos rfl] at hqueued
      rw [visitsDue, queued] at hnew
      rw [visitsDue, hqueued, hvisited]
      omega
    · refine .same (by simp) ?_ fun ⟨id', hid'⟩ => ⟨id', ?_⟩
      · rw [if_neg ha] at hqueued
        rw [visitsDue, hqueued, hvisited]
        rfl
      · rw [hmap] at hid'
        exact ((lookup_insert_new hid).1 hid').resolve_left fun he => ha he.2
  | delete hentries hmap hvisited hlength =>
    refine .same (by simp) ?_ fun ⟨id, hid⟩ => ⟨id, (lookup_erase_iff.1 (hmap ▸ hid)).2⟩
    rw [visitsDue, visitsDue, queued, queued, hentries, hvisited]
  | gone hid hentries hmap hvisited hlength =>
    rename_i e
    have hqueued := queued_of_cons hentries a
    have hmapped : s'.Mapped a ↔ s.Mapped a := by rw [State.Mapped, State.Mapped, hmap]
    have hfresh : ∀ e' ∈ some e, s.idToTrace.lookup e'.id = some a → e'.address = a := by
      simp [hid]
    by_cases ha : e.address = a
    · rw [if_pos ha] at hqueued
      refine .lost hfresh ?_ ?_
      · rw [visitsDue, visitsDue, hqueued, hvisited, queued]
        omega
      · rw [hmapped, ← ha]
        exact h.not_mapped (hentries ▸ Multiset.mem_cons_self _ _) (by simp [hid])
    · rw [if_neg ha] at hqueued
      refine .same hfresh ?_ hmapped.1
      rw [visitsDue, visitsDue, hqueued, hvisited]
      rfl
  | found hid hentries hmap hvisited hlength =>
    rename_i e b
    have hqueued := queued_of_cons hentries a
    have hmapped : s'.Mapped a ↔ s.Mapped a := by rw [State.Mapped, State.Mapped, hmap]
    have hcount : s'.visited.count a = s.visited.count a + if b = a then 1 else 0 := by
      rw [hvisited, count_append, count_singleton]
      simp
    have hdue : s'.visitsDue a + (if e.address = a then 1 else 0) =
        s.visitsDue a + if b = a then 1 else 0 := by
      rw [visitsDue, visitsDue, hqueued, hcount, queued]
      omega
    by_cases ha : e.address = a
    · have hfresh : ∀ e' ∈ some e, s.idToTrace.lookup e'.id = some a → e'.address = a := by
        simp [ha]
      by_cases hba : b = a
      · rw [if_pos ha, if_pos hba] at hdue
        exact .same hfresh (Nat.succ.inj hdue) hmapped.1
      · rw [if_pos ha, if_neg hba] at hdue
        refine .lost hfresh hdue.symm ?_
        rw [hmapped, ← ha]
        exact h.not_mapped (hentries ▸ Multiset.mem_cons_self _ _) (by simp [hid, ha, hba])
    · rw [if_neg ha] at hdue
      by_cases hba : b = a
      · rw [if_pos hba] at hdue
        exact .stale (fun hfresh => ha (hfresh e rfl (hba ▸ hid))) hdue ⟨e.id, hba ▸ hid⟩
      · rw [if_neg hba] at hdue
        exact .same (by simp [hid, hba]) hdue hmapped.1

end Named

/-! ## Runs -/

/-- **Every policy has evaluated the trace stored at `a` at most once**, and what it had decided
before is still its decision. -/
structure Final (cfg : Config) (a : Nat) (s s' : State N R X) : Prop where
  once : ∀ i, s'.evaluated.count (a, i) ≤ 1
  kept : ∀ (i : Nat) d, d = .sampled ∨ d = .notSampled →
    (s.trace cfg a).decisions[i]? = some d → (s'.trace cfg a).decisions[i]? = some d

/-- The trace stored at `a` is in the map, its own entry was taken and the tick has left it. -/
structure Resolved (a : Nat) (s : State N R X) : Prop where
  mapped : s.Mapped a
  taken : s.queued a = 0
  away : s.phase.visit a = .away

structure Issued (cfg : Config) (traceId : X → TraceKey) (a : Nat) (s : State N R X) : Prop where
  kept : Kept traceId s
  named : Named s
  counted : (s.view cfg a).Counted
  policies : (s.view cfg a).decisions.length = cfg.policies
  due : s.Mapped a → 1 ≤ s.visitsDue a

/-- The trace is dropped, or there are two visits of it. -/
def Overdue (a : Nat) (s : State N R X) : Prop :=
  a < s.traces.length ∧ (¬ s.Mapped a ∨ 2 ≤ s.visitsDue a)

section Run

variable {cfg : Config} {traceId : X → TraceKey} {s s' : State N R X} {act : Act N R X} {a : Nat}

theorem Issued.init : Issued cfg traceId a (State.init cfg : State N R X) where
  kept := Kept.init
  named := Named.init
  counted := by
    exact Life.Counted.new cfg.policies
  policies := by
    exact length_replicate
  due h := by
    obtain ⟨id, hid⟩ := h
    cases hid

section

variable (h : Issued cfg traceId a s) (hstep : step cfg traceId s act = some s')

include h hstep

theorem Issued.turned : Turned a s (s.taken act) s' :=
  h.named.turned (booked_of_stepped (stepped_of_step hstep)) a

theorem Issued.step : Issued cfg traceId a s' := by
  have hstepped := stepped_of_step hstep
  have hmoved := view_moved h.kept hstepped a
  refine ⟨h.kept.stepped hstepped, h.named.booked (booked_of_stepped hstepped),
    h.counted.moved hmoved, hmoved.length_decisions.trans h.policies, fun hmapped => ?_⟩
  cases h.turned hstep with
  | same hfresh hdue hold =>
    rw [hdue]
    exact h.due (hold hmapped)
  | stored hfresh hnew hdue => exact hdue.ge
  | lost hfresh hdue hnot => exact absurd hmapped hnot
  | stale hstale hdue hold => omega

theorem visitsDue_le_step
    (hfresh : NoStale a s act) (hs : s.visitsDue a ≤ 1) : s'.visitsDue a ≤ 1 := by
  cases h.turned hstep with
  | same _ hdue _ | stored _ _ hdue | lost _ hdue _ => omega
  | stale hstale _ _ => exact absurd hfresh hstale

end

theorem length_le_of_booked {taken : Option Entry} (h : Booked s taken s') :
    s.traces.length ≤ s'.traces.length := by
  cases h with
  | keep _ _ _ hlength | store _ _ _ _ hlength | delete _ _ _ hlength | gone _ _ _ _ hlength
  | found _ _ _ _ hlength => omega

theorem Overdue.step (h : Issued cfg traceId a s) (hstep : step cfg traceId s act = some s')
    (hs : Overdue a s) : Overdue a s' := by
  have hlength := length_le_of_booked (booked_of_stepped (stepped_of_step hstep))
  refine ⟨Nat.lt_of_lt_of_le hs.1 hlength, ?_⟩
  cases h.turned hstep with
  | same _ hdue hold =>
    rw [hdue]
    exact hs.2.imp (mt hold) id
  | stored _ hnew _ => exact absurd hnew (Nat.ne_of_lt hs.1)
  | lost _ _ hnot => exact .inl hnot
  | stale _ hdue hmapped =>
    have := hs.2.resolve_left (not_not.2 hmapped)
    exact .inr (by omega)

/-- An entry of another trace makes a second visit. -/
theorem overdue_of_stale (h : Issued cfg traceId a s) (hstep : step cfg traceId s act = some s')
    (hstale : ¬ NoStale a s act) : Overdue a s' := by
  cases h.turned hstep with
  | same hfresh _ _ | stored hfresh _ _ | lost hfresh _ _ => exact absurd hfresh hstale
  | stale _ hdue hmapped =>
    obtain ⟨id, hid⟩ := hmapped
    have hlength := length_le_of_booked (booked_of_stepped (stepped_of_step hstep))
    have hone := h.due ⟨id, hid⟩
    exact ⟨Nat.lt_of_lt_of_le (h.named.map id a hid) hlength, .inr (by omega)⟩

theorem count_evaluations (s : State N R X) (a i : Nat) :
    (s.evaluations a).count i = s.evaluated.count (a, i) := by
  unfold evaluations List.count
  rw [countP_map, countP_filter]
  refine countP_congr fun p _ => ?_
  obtain ⟨b, j⟩ := p
  simp [and_comm]

theorem Issued.count_le (h : Issued cfg traceId a s) (i : Nat) :
    s.evaluated.count (a, i) ≤ s.visitsDue a := by
  have hle := h.counted.count_le i
  change (s.evaluations a).count i ≤ s.visited.count a at hle
  rw [count_evaluations] at hle
  exact Nat.le_add_left_of_le hle

theorem Issued.kept_run {acts : List (Act N R X)} (h : Issued cfg traceId a s)
    (hrun : runFrom (TailSampling.step cfg traceId) s acts = some s') {i : Nat} {d : Decision}
    (hd : d ≠ .pending) (hs : (s.trace cfg a).decisions[i]? = some d) :
    (s'.trace cfg a).decisions[i]? = some d ∨ 2 ≤ s'.evaluated.count (a, i) := by
  have hend := runFrom_invariant (I := fun s => Issued cfg traceId a s ∧
      ((s.view cfg a).decisions[i]? = some d ∨ 2 ≤ (s.view cfg a).evaluated.count i))
    (fun s act s' hstep hs => ⟨hs.1.step hstep, Life.final_moved hs.1.counted
      (view_moved hs.1.kept (stepped_of_step hstep) a) hd hs.2⟩) hrun ⟨h, .inl hs⟩
  rw [← count_evaluations]
  exact hend.2

theorem visitsDue_init (a : Nat) : (State.init cfg : State N R X).visitsDue a = 0 := by
  simp [visitsDue, queued, State.entries, State.init, State.queue, Phase.ids]

/-- No policy decides twice where no entry is taken for another trace. -/
theorem keepsDecision_of_noStale {acts : List (Act N R X)}
    (h : Meets (step cfg traceId) (NoStale a) (.init cfg) acts) :
    Meets (step cfg traceId) (KeepsDecision cfg a) (.init cfg) acts := by
  refine h.imp (I := fun s => Issued cfg traceId a s ∧ s.visitsDue a ≤ 1)
    (fun _ _ _ hfresh hstep h => ⟨h.1.step hstep, visitsDue_le_step h.1 hstep hfresh h.2⟩)
    (fun s act _ hs => stable_iff.1 (hs.1.counted.stable ?_ _))
    ⟨Issued.init, (visitsDue_init a).le.trans (Nat.zero_le 1)⟩
  exact Nat.le_trans (Nat.le_add_left _ _) hs.2

/-- **Decisions are final**, whatever the order of arrivals, evictions, re-arrivals and ticks, if no
entry is taken for the trace other than its own; when its own was taken and the trace is still in
the map, only then. -/
theorem final_iff (a : Nat) {acts acts' : List (Act N R X)}
    (hrun : runFrom (step cfg traceId) (.init cfg) acts = some s)
    (hrun' : runFrom (step cfg traceId) s acts' = some s') :
    (Meets (step cfg traceId) (NoStale a) (.init cfg) (acts ++ acts') → Final cfg a s s') ∧
    (0 < cfg.policies → Resolved a s' →
      (Final cfg a s s' ↔
        Meets (step cfg traceId) (NoStale a) (.init cfg) (acts ++ acts'))) := by
  have hwhole : runFrom (TailSampling.step cfg traceId) (.init cfg) (acts ++ acts') = some s' := by
    rw [runFrom_append, hrun]
    exact hrun'
  have hs : Issued cfg traceId a s :=
    runFrom_invariant (fun _ _ _ hstep h => h.step hstep) hrun Issued.init
  have hs' : Issued cfg traceId a s' :=
    runFrom_invariant (fun _ _ _ hstep h => h.step hstep) hrun' hs
  have hif : Meets (TailSampling.step cfg traceId) (NoStale a) (.init cfg) (acts ++ acts') →
      Final cfg a s s' := by
    intro hmeets
    have hdue := hmeets.invariant (I := fun s => Issued cfg traceId a s ∧ s.visitsDue a ≤ 1)
      (fun _ _ _ hfresh hstep h => ⟨h.1.step hstep, visitsDue_le_step h.1 hstep hfresh h.2⟩)
      hwhole ⟨Issued.init, (visitsDue_init a).le.trans (Nat.zero_le 1)⟩
    have honce : ∀ i, s'.evaluated.count (a, i) ≤ 1 := fun i => (hs'.count_le i).trans hdue.2
    refine ⟨honce, fun i d hd hold => ?_⟩
    have hpending : d ≠ .pending := by
      rcases hd with rfl | rfl <;> simp
    refine (hs.kept_run hrun' hpending hold).resolve_right fun htwo => ?_
    have := honce i
    omega
  refine ⟨hif, fun hpolicies hresolved => ⟨fun hfinal => ?_, hif⟩⟩
  refine Meets.of_run (A := fun _ _ => True) (I := Issued cfg traceId a) (G := fun _ => True)
    (D := Overdue a) (fun _ _ _ _ hstep h => h.step hstep) (fun _ _ _ _ _ _ _ _ => trivial)
    (fun _ _ _ _ hstep h _ hstale => overdue_of_stale h hstep hstale)
    (fun _ _ _ _ hstep h hD => hD.step h hstep)
    (meets_of_forall (fun _ _ _ => trivial) _) hwhole Issued.init trivial ?_
  rintro ⟨-, hnot | htwo⟩
  · exact hnot hresolved.mapped
  · -- the tick has left the trace, so every visit was an evaluation
    have hbeyond : (s'.view cfg a).beyond 0 := by
      have hvisit : (s'.view cfg a).visit = .away := hresolved.away
      rw [Life.beyond, hvisit]
      trivial
    have hcount := hs'.counted.beyond 0 (hs'.policies.symm ▸ hpolicies) hbeyond
    change (s'.evaluations a).count 0 = s'.visited.count a at hcount
    rw [count_evaluations] at hcount
    have hone := hfinal.once 0
    rw [visitsDue, hresolved.taken] at htwo
    omega

end Run

/-! ## A trace that comes again -/

def ownTrace : UInt8 → TraceKey := fun x => List.replicate 16 x

def onePolicy : Config :=
  { policies := 1, maxNumTraces := 1, numDecisionBatches := 1, batchChannelSize := 3 }

def evaluatedOnce : List (Act Unit Unit UInt8) :=
  [.process ⟨(), (), [1], ""⟩, .group 0 0, .run 0, .run 0, .run 0, .collect, .collect,
    .tick, .next, .tick, .next, .evaluate (some .notSampled)]

def moreOfIt : List (Act Unit Unit UInt8) :=
  [.next, .next, .process ⟨(), (), [1], ""⟩, .group 1 0, .run 1, .run 1, .tick, .next]

theorem evaluatedOnce_final :
    ∃ s s', runFrom (step onePolicy ownTrace) (.init onePolicy) evaluatedOnce = some s ∧
      runFrom (step onePolicy ownTrace) s moreOfIt = some s' ∧
      (s.trace onePolicy 0).decisions = [.notSampled] ∧ Final onePolicy 0 s s' := by
  have hrun : ((runFrom (step onePolicy ownTrace) (.init onePolicy) evaluatedOnce).bind fun s =>
      (runFrom (step onePolicy ownTrace) s moreOfIt).map fun _ => (s.trace onePolicy 0).decisions) =
      some [.notSampled] := by decide +kernel
  obtain ⟨s, hs, hrest⟩ := Option.bind_eq_some_iff.1 hrun
  obtain ⟨s', hs', hdecisions⟩ := Option.map_eq_some_iff.1 hrest
  have hmeets : Meets (step onePolicy ownTrace) (NoStale 0) (.init onePolicy)
      (evaluatedOnce ++ moreOfIt) := by decide +kernel
  exact ⟨s, s', hs, hs', hdecisions, (final_iff 0 hs hs').1 hmeets⟩

/-- A trace is stored, dropped for another one, and stored again, which drops the other one. The
tick finds it for the entry of the trace that was dropped. -/
def droppedAndBack : List (Act Unit Unit UInt8) :=
  [.process ⟨(), (), [1], ""⟩, .group 0 0, .run 0, .run 0, .run 0,
    .process ⟨(), (), [2], ""⟩, .group 1 0, .run 1, .run 1, .run 1, .run 1, .run 1, .run 1, .run 1,
    .process ⟨(), (), [1], ""⟩, .group 2 0, .run 2, .run 2, .run 2, .run 2, .run 2, .run 2, .run 2,
    .collect, .collect, .collect, .collect, .collect, .collect,
    .tick, .next, .tick, .next, .evaluate (some .notSampled)]

/-- The tick goes on, and finds the trace for its own entry. -/
def foundAgain : List (Act Unit Unit UInt8) :=
  [.next, .next, .next, .evaluate (some .sampled)]

theorem back_with_old_entry_changes_decision :
    ∃ s s', runFrom (step onePolicy ownTrace) (.init onePolicy) droppedAndBack = some s ∧
      runFrom (step onePolicy ownTrace) s foundAgain = some s' ∧
      s.idToTrace.lookup (ownTrace 1) = some 2 ∧ s'.idToTrace.lookup (ownTrace 1) = some 2 ∧
      (s.trace onePolicy 2).decisions = [.notSampled] ∧
      (s'.trace onePolicy 2).decisions = [.sampled] ∧ s'.evaluated = [(2, 0), (2, 0)] ∧
      ¬ Final onePolicy 2 s s' := by
  have hrun : ((runFrom (step onePolicy ownTrace) (.init onePolicy) droppedAndBack).bind fun s =>
      (runFrom (step onePolicy ownTrace) s foundAgain).map fun s' => decide
        (s.idToTrace.lookup (ownTrace 1) = some 2 ∧ s'.idToTrace.lookup (ownTrace 1) = some 2 ∧
          (s.trace onePolicy 2).decisions = [.notSampled] ∧
          (s'.trace onePolicy 2).decisions = [.sampled] ∧ s'.evaluated = [(2, 0), (2, 0)])) =
      some true := by decide +kernel
  obtain ⟨s, hs, hrest⟩ := Option.bind_eq_some_iff.1 hrun
  obtain ⟨s', hs', hfacts⟩ := Option.map_eq_some_iff.1 hrest
  obtain ⟨hmap, hmap', hold, hnew, hevaluated⟩ := of_decide_eq_true hfacts
  refine ⟨s, s', hs, hs', hmap, hmap', hold, hnew, hevaluated, fun hfinal => ?_⟩
  have hone := hfinal.once 0
  rw [hevaluated] at hone
  exact absurd hone (by decide)

end Collector.TailSampling
