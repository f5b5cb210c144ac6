import Mathlib.Data.List.Perm.Basic
import Collector.Fanout.Connector
import Collector.Lib.Run

/-!
# The queued_retry processor in front of a fan-out

`processor/queuedprocessor/queued_processor.go` as a machine: batches are put into
a bounded queue, workers take them out, export them to the next consumer, and put
them back into the queue unless the error is permanent. The queue is jaeger's, known
by what `BoundedQueue.Keeps` says: it loses and doubles nothing. The next consumer
is a fan-out connector, and a step of the machine is what one goroutine does up to
the next point where another can come between. A batch carries the number it was
accepted under, through all its attempts; nothing reads it. Statistics and logs are
left out.
-/

namespace Collector.QueuedRetry

open Lib Fanout GoError List

/-- A `pdata.Traces` or a `pdata.Metrics`. -/
inductive Batch (T M : Type) where
  | traces (td : T)
  | metrics (md : M)

/-- `onPartialError`: of traces what failed is left, of metrics everything. -/
def Batch.onPartialError {T M : Type} (failed : T) : Batch T M → Batch T M
  | traces _ => traces failed
  | metrics md => metrics md

/-- A `queueItem`. -/
structure Item (T M : Type) where
  number : Nat
  data : Batch T M

/-- The item to retry: after a partial error, what is left of it. -/
def Item.leftOver {T M : Type} (item : Item T M) : GoError T → Item T M
  | .partialError _ failed => { item with data := item.data.onPartialError failed }
  | _ => item

theorem Item.leftOver_eq {T M : Type} (item : Item T M) (err : GoError T) :
    item.leftOver err = ⟨item.number, (item.leftOver err).data⟩ := by
  cases err <;> rfl

/-- The `BoundedQueue` of jaeger: what `Produce` leaves unless it refuses the item, what a consumer
of the queue is handed, and `Stop`. -/
structure BoundedQueue (Q α : Type) where
  new : Q
  produce : Q → α → Option Q
  take : Q → Option (α × Q)
  stop : Q → Q

/-- What is assumed of the queue, with what its states hold. -/
structure BoundedQueue.Keeps {Q α : Type} (b : BoundedQueue Q α) (held : Q → List α) : Prop where
  new : held b.new = []
  produce : ∀ {q a q'}, b.produce q a = some q' → (held q').Perm (held q ++ [a])
  take : ∀ {q a q'}, b.take q = some (a, q') → (held q).Perm (a :: held q')
  stop : ∀ q, (held (b.stop q)).Perm (held q)

/-- The processor and what stands behind it. -/
structure Settings (Q T M : Type) where
  queue : BoundedQueue Q (Item T M)
  numWorkers : Nat
  retryOnProcessingFailure : Bool
  backoffDelay : Int64
  next : Connector (Batch T M)
  /-- The number of consumers of the connector. -/
  consumers : Nat

/-- A worker in `processItemFromQueue`: before the export, or with its error. -/
structure Call (T M : Type) where
  item : Item T M
  answer : Option (Option (GoError T))

structure Export (T M : Type) where
  number : Nat
  spread : Spread (Batch T M) T

structure State (Q T M : Type) where
  queue : Q
  calls : List (Call T M)
  /-- The workers that wait for the back-off to end. -/
  waiting : Nat
  /-- The batches accepted so far. -/
  accepted : Nat
  exports : List (Export T M)
  /-- The batches thrown away, and the error that is logged. -/
  dropped : List (Nat × GoError T)

def State.init {Q T M : Type} (cfg : Settings Q T M) : State Q T M :=
  ⟨cfg.queue.new, [], 0, 0, [], []⟩

inductive Event (T M : Type) where
  /-- `ConsumeTraces` or `ConsumeMetrics`. -/
  | consume (data : Batch T M)
  /-- A worker is handed an item of the queue. -/
  | take
  /-- `item.export` of a call, and how the consumers answer. -/
  | exportItem (i : Nat) (cs : List (Consume (Batch T M) T))
  /-- The rest of `processItemFromQueue`. -/
  | settle (i : Nat)
  /-- A back-off ends. -/
  | resume
  | shutdown

section Machine

variable {Q T M : Type} (cfg : Settings Q T M)

def onDropped (s : State Q T M) (item : Item T M) (err : GoError T) : State Q T M :=
  { s with dropped := s.dropped ++ [(item.number, err)] }

/-- `processItemFromQueue` after the export. -/
def afterExport (s : State Q T M) (item : Item T M) : Option (GoError T) → State Q T M
  | none => s
  | some err =>
    if isPermanent (some err) then onDropped s item err
    else
      let item := item.leftOver err
      if !cfg.retryOnProcessingFailure then onDropped s item (.wrap "no retry processing " err)
      else
        match cfg.queue.produce s.queue item with
        | none => onDropped s item (.wrap "failed to re-enqueue: " err)
        | some queue =>
          if 0 < cfg.backoffDelay then { s with queue, waiting := s.waiting + 1 }
          else { s with queue }

def step (s : State Q T M) : Event T M → Option (State Q T M)
  | .consume data =>
    match cfg.queue.produce s.queue ⟨s.accepted, data⟩ with
    -- A refused batch is the caller's again.
    | none => some s
    | some queue => some { s with queue, accepted := s.accepted + 1 }
  | .take =>
    match cfg.queue.take s.queue with
    | none => none
    | some (item, queue) =>
      if s.calls.length + s.waiting < cfg.numWorkers then
        some { s with queue, calls := s.calls ++ [⟨item, none⟩] }
      else none
  | .exportItem i cs =>
    match s.calls[i]? with
    | some ⟨item, none⟩ =>
      if cs.length = cfg.consumers then
        let spread := cfg.next.consume cs item.data
        some { s with
          calls := s.calls.set i ⟨item, some spread.err⟩
          exports := s.exports ++ [⟨item.number, spread⟩] }
      else none
    | _ => none
  | .settle i =>
    match s.calls[i]? with
    | some ⟨item, some err⟩ =>
      some (afterExport cfg { s with calls := s.calls.eraseIdx i } item err)
    | _ => none
  | .resume => if 0 < s.waiting then some { s with waiting := s.waiting - 1 } else none
  | .shutdown => some { s with queue := cfg.queue.stop s.queue }

/-! ## What a step does -/

variable (held : Q → List (Item T M))

inductive Transition (s : State Q T M) : State Q T M → Prop where
  | accept {queue : Q} (data : Batch T M)
    (hq : (held queue).Perm (held s.queue ++ [⟨s.accepted, data⟩])) :
    Transition s { s with queue, accepted := s.accepted + 1 }
  | take {item : Item T M} {queue : Q} (hq : (held s.queue).Perm (item :: held queue)) :
    Transition s { s with queue, calls := s.calls ++ [⟨item, none⟩] }
  | exportItem {i : Nat} {item : Item T M} {cs : List (Consume (Batch T M) T)}
    (hi : s.calls[i]? = some ⟨item, none⟩) (hcs : cs.length = cfg.consumers) :
    Transition s { s with
      calls := s.calls.set i ⟨item, some (cfg.next.consume cs item.data).err⟩
      exports := s.exports ++ [⟨item.number, cfg.next.consume cs item.data⟩] }
  | done {i : Nat} {item : Item T M} (hi : s.calls[i]? = some ⟨item, some none⟩) :
    Transition s { s with calls := s.calls.eraseIdx i }
  | drop {i : Nat} {item : Item T M} {err : GoError T} (logged : GoError T)
    (hi : s.calls[i]? = some ⟨item, some (some err)⟩) :
    Transition s { s with
      calls := s.calls.eraseIdx i
      dropped := s.dropped ++ [(item.number, logged)] }
  | again {i : Nat} {item : Item T M} {err : GoError T} {queue : Q} (data : Batch T M)
    (waiting : Nat) (hi : s.calls[i]? = some ⟨item, some (some err)⟩)
    (herr : isPermanent (some err) = false)
    (hq : (held queue).Perm (held s.queue ++ [⟨item.number, data⟩])) :
    Transition s { s with queue, calls := s.calls.eraseIdx i, waiting }
  | other {queue : Q} (waiting : Nat) (hq : (held queue).Perm (held s.queue)) :
    Transition s { s with queue, waiting }

variable {cfg held} {s s' : State Q T M} {item : Item T M} {i n : Nat}

theorem transition_settle (hq : cfg.queue.Keeps held) {err : GoError T}
    (hi : s.calls[i]? = some ⟨item, some (some err)⟩) :
    Transition cfg held s
      (afterExport cfg { s with calls := s.calls.eraseIdx i } item (some err)) := by
  have hdrop : ∀ logged : GoError T,
      Transition cfg held s (onDropped { s with calls := s.calls.eraseIdx i } item logged) :=
    fun logged => .drop logged hi
  unfold afterExport
  simp only
  split
  · exact hdrop err
  · rename_i hperm
    rw [item.leftOver_eq err]
    split
    · exact hdrop _
    · split
      · exact hdrop _
      · rename_i queue hproduce
        have hnot : isPermanent (some err) = false := by simpa using hperm
        split
        all_goals exact .again _ _ hi hnot (hq.produce hproduce)

theorem step_transition (hq : cfg.queue.Keeps held) {e : Event T M}
    (h : step cfg s e = some s') : Transition cfg held s s' := by
  cases e with
  | consume data =>
    simp only [step] at h
    split at h
    · cases h
      exact .other s.waiting (.refl _)
    · rename_i queue hproduce
      cases h
      exact .accept data (hq.produce hproduce)
  | take =>
    simp only [step] at h
    split at h
    · cases h
    · rename_i item queue htake
      obtain ⟨-, h⟩ := Option.ite_none_right_eq_some.1 h
      cases h
      exact .take (hq.take htake)
  | exportItem i cs =>
    simp only [step] at h
    split at h
    · rename_i item hi
      obtain ⟨hcs, h⟩ := Option.ite_none_right_eq_some.1 h
      cases h
      exact .exportItem hi hcs
    · cases h
  | settle i =>
    simp only [step] at h
    split at h
    · rename_i item err hi
      cases h
      cases err with
      | none => exact .done hi
      | some err => exact transition_settle hq hi
    · cases h
  | resume =>
    obtain ⟨-, h⟩ := Option.ite_none_right_eq_some.1 h
    cases h
    exact .other _ (.refl _)
  | shutdown =>
    cases h
    exact .other s.waiting (hq.stop s.queue)

/-! ## What a run keeps -/

def numbersOf (queue : List (Item T M)) (calls : List (Call T M)) : List Nat :=
  queue.map Item.number ++ calls.map (·.item.number)

variable (held) in
def State.numbers (s : State Q T M) : List Nat := numbersOf (held s.queue) s.calls

variable (held) in
/-- The batch is on its way out: no worker will export it again. -/
structure Leaving (s : State Q T M) (n : Nat) : Prop where
  notQueued : n ∉ (held s.queue).map Item.number
  answered : ∀ c ∈ s.calls, c.item.number = n → ∃ err, c.answer = some err ∧ isPermanent err = true
  dropped : n ∈ s.dropped.map Prod.fst ∨ n ∈ s.calls.map (·.item.number)

def Export.Final (e : Export T M) : Prop := isPermanent e.spread.err = true

variable (cfg held) in
structure Inv (s : State Q T M) : Prop where
  nodup : (s.numbers held).Nodup
  bound : ∀ n ∈ s.numbers held, n < s.accepted
  exported : ∀ e ∈ s.exports, e.number < s.accepted
  spread : ∀ e ∈ s.exports, ∃ cs data, cs.length = cfg.consumers ∧
    e.spread = cfg.next.consume cs data
  leaving : ∀ e ∈ s.exports, e.Final → Leaving held s e.number
  once : s.exports.Pairwise fun e e' => e.Final → e'.number ≠ e.number

theorem numbers_init (hq : cfg.queue.Keeps held) : (State.init cfg).numbers held = [] := by
  simp [State.numbers, numbersOf, State.init, hq.new]

theorem inv_init (hq : cfg.queue.Keeps held) : Inv cfg held (State.init cfg) where
  nodup := numbers_init hq ▸ nodup_nil
  bound _ h := absurd (numbers_init hq ▸ h) not_mem_nil
  exported _ h := absurd h not_mem_nil
  spread _ h := absurd h not_mem_nil
  leaving _ h := absurd h not_mem_nil
  once := List.Pairwise.nil

theorem Leaving.ne (h : Leaving held s n) {answer : Option (Option (GoError T))}
    (hi : s.calls[i]? = some ⟨item, answer⟩)
    (hnot : ∀ err, answer = some err → isPermanent err = false) : item.number ≠ n := by
  intro hn
  obtain ⟨err, herr, hperm⟩ := h.answered _ (mem_of_getElem? hi) hn
  rw [hnot err herr] at hperm
  cases hperm

/-- What keeps a batch leaving: what is new in the queue or in a worker's hands is another batch,
and a worker gives it up only to drop it. -/
theorem Leaving.mono (h : Leaving held s n)
    (hq : ∀ item ∈ held s'.queue, item ∈ held s.queue ∨ item.number ≠ n)
    (hc : ∀ c ∈ s'.calls, c ∈ s.calls ∨ c.item.number ≠ n)
    (hd : n ∈ s.dropped.map Prod.fst ∨ n ∈ s.calls.map (·.item.number) →
      n ∈ s'.dropped.map Prod.fst ∨ n ∈ s'.calls.map (·.item.number)) : Leaving held s' n where
  notQueued hn := by
    obtain ⟨item, hmem, rfl⟩ := mem_map.1 hn
    rcases hq item hmem with hold | hne
    · exact h.notQueued (mem_map_of_mem hold)
    · exact hne rfl
  answered c hmem hn := by
    rcases hc c hmem with hold | hne
    · exact h.answered c hold hn
    · exact absurd hn hne
  dropped := hd h.dropped

theorem Inv.keep (h : Inv cfg held s) (hperm : (s'.numbers held).Nodup)
    (hbound : ∀ n ∈ s'.numbers held, n < s'.accepted) (hacc : s.accepted ≤ s'.accepted)
    (hexp : s'.exports = s.exports)
    (hleaving : ∀ n, n < s.accepted → Leaving held s n → Leaving held s' n) : Inv cfg held s' where
  nodup := hperm
  bound := hbound
  exported e he := by
    rw [hexp] at he
    exact Nat.lt_of_lt_of_le (h.exported e he) hacc
  spread e he := by
    rw [hexp] at he
    exact h.spread e he
  leaving e he hfinal := by
    rw [hexp] at he
    exact hleaving _ (h.exported e he) (h.leaving e he hfinal)
  once := by
    rw [hexp]
    exact h.once

theorem Inv.index_unique (h : Inv cfg held s) {j : Nat} {c c' : Call T M}
    (hi : s.calls[i]? = some c) (hj : s.calls[j]? = some c')
    (hn : c.item.number = c'.item.number) : i = j := by
  obtain ⟨hlt, -⟩ := List.getElem?_eq_some_iff.1 hi
  have hnodup : (s.calls.map (·.item.number)).Nodup := (nodup_append.1 h.nodup).2.1
  refine (getElem?_inj (by simpa using hlt) hnodup).1 ?_
  rw [getElem?_map, getElem?_map, hi, hj]
  exact congrArg some hn

theorem numbers_eraseIdx {c : Call T M} (hi : s.calls[i]? = some c) :
    (c.item.number :: (s.calls.eraseIdx i).map (·.item.number)).Perm
      (s.calls.map (·.item.number)) := by
  obtain ⟨hlt, rfl⟩ := List.getElem?_eq_some_iff.1 hi
  exact (getElem_cons_eraseIdx_perm hlt).map (·.item.number)

theorem mem_numbers_eraseIdx {c : Call T M} (hi : s.calls[i]? = some c) (hne : c.item.number ≠ n)
    (hn : n ∈ s.calls.map (·.item.number)) : n ∈ (s.calls.eraseIdx i).map (·.item.number) :=
  mem_of_ne_of_mem hne.symm ((numbers_eraseIdx hi).mem_iff.2 hn)

theorem numbers_giveUp (s : State Q T M) (i : Nat) :
    (numbersOf (held s.queue) (s.calls.eraseIdx i)).Sublist (s.numbers held) :=
  List.Sublist.append_left ((eraseIdx_sublist s.calls i).map _) _

theorem numbers_answer (hi : s.calls[i]? = some ⟨item, none⟩)
    (answer : Option (Option (GoError T))) :
    (s.calls.set i ⟨item, answer⟩).map (·.item.number) = s.calls.map (·.item.number) := by
  obtain ⟨hlt, -⟩ := List.getElem?_eq_some_iff.1 hi
  refine ext_getElem? fun j => ?_
  rw [getElem?_map, getElem?_map]
  by_cases hij : i = j
  · subst hij
    rw [getElem?_set_self hlt, hi]
    rfl
  · rw [getElem?_set_ne hij]

theorem Inv.exportItem (h : Inv cfg held s) {cs : List (Consume (Batch T M) T)}
    (hi : s.calls[i]? = some ⟨item, none⟩) (hcs : cs.length = cfg.consumers) :
    Inv cfg held { s with
      calls := s.calls.set i ⟨item, some (cfg.next.consume cs item.data).err⟩
      exports := s.exports ++ [⟨item.number, cfg.next.consume cs item.data⟩] } := by
  set spread := cfg.next.consume cs item.data with hspread
  have hnumbers :
      numbersOf (held s.queue) (s.calls.set i ⟨item, some spread.err⟩) = s.numbers held := by
    rw [numbersOf, numbers_answer hi]
    rfl
  have hmem : item.number ∈ s.calls.map (·.item.number) :=
    mem_map.2 ⟨_, mem_of_getElem? hi, rfl⟩
  have hin : item.number ∈ s.numbers held := mem_append_right _ hmem
  have hold : ∀ e ∈ s.exports, e.Final → item.number ≠ e.number :=
    fun e he hfinal => (h.leaving e he hfinal).ne hi (by simp)
  have hlt : i < s.calls.length := (List.getElem?_eq_some_iff.1 hi).1
  refine ⟨?_, ?_, ?_, ?_, ?_, ?_⟩
  · show (numbersOf _ _).Nodup
    rw [hnumbers]
    exact h.nodup
  · show ∀ n ∈ numbersOf _ _, _
    rw [hnumbers]
    exact h.bound
  · intro e he
    rcases mem_append.1 he with he | he
    · exact h.exported e he
    · rw [mem_singleton.1 he]
      exact h.bound _ hin
  · intro e he
    rcases mem_append.1 he with he | he
    · exact h.spread e he
    · rw [mem_singleton.1 he]
      exact ⟨cs, item.data, hcs, rfl⟩
  · intro e he hfinal
    rcases mem_append.1 he with he | he
    · have hne := hold e he hfinal
      refine (h.leaving e he hfinal).mono (fun _ hq => .inl hq) (fun c hc => ?_) fun hd => ?_
      · rcases mem_or_eq_of_mem_set hc with hc | rfl
        · exact .inl hc
        · exact .inr hne
      · exact hd.imp id fun hc => (numbers_answer hi _).symm ▸ hc
    · rw [mem_singleton.1 he] at hfinal ⊢
      refine ⟨fun hq => ?_, fun c hc hn => ?_, .inr ((numbers_answer hi _).symm ▸ hmem)⟩
      · exact (nodup_append.1 h.nodup).2.2 _ hq _ hmem rfl
      · obtain ⟨j, hj⟩ := mem_iff_getElem?.1 hc
        by_cases hij : i = j
        · subst hij
          rw [getElem?_set_self hlt] at hj
          cases hj
          exact ⟨_, rfl, hfinal⟩
        · rw [getElem?_set_ne hij] at hj
          exact absurd (h.index_unique hi hj hn.symm) hij
  · refine pairwise_append.2 ⟨h.once, pairwise_singleton _ _, ?_⟩
    intro e he e' he' hfinal
    rw [mem_singleton.1 he']
    exact hold e he hfinal

theorem perm_numbers {queue queue' : List (Item T M)} (h : queue'.Perm queue)
    (calls : List (Call T M)) : (numbersOf queue' calls).Perm (numbersOf queue calls) :=
  (h.map _).append_right _

theorem Inv.step (h : Inv cfg held s) (ht : Transition cfg held s s') : Inv cfg held s' := by
  cases ht with
  | @accept queue data hq =>
    have hperm : (s.accepted :: s.numbers held).Perm (numbersOf (held queue) s.calls) := by
      refine .trans ?_ (perm_numbers hq _).symm
      rw [numbersOf, map_append, append_assoc]
      exact perm_middle.symm
    have hfresh : s.accepted ∉ s.numbers held := fun hn => Nat.lt_irrefl _ (h.bound _ hn)
    refine h.keep (hperm.nodup_iff.1 ?_) ?_ (Nat.le_succ _) rfl ?_
    · exact nodup_cons.2 ⟨hfresh, h.nodup⟩
    · intro n hn
      rcases mem_cons.1 (hperm.mem_iff.2 hn) with rfl | hold
      · exact Nat.lt_succ_self _
      · exact Nat.lt_succ_of_lt (h.bound n hold)
    · intro n hlt hl
      refine hl.mono (fun item hmem => ?_) (fun c hc => .inl hc) id
      rcases mem_append.1 (hq.mem_iff.1 hmem) with hold | hnew
      · exact .inl hold
      · rw [mem_singleton.1 hnew]
        exact .inr (Nat.ne_of_gt hlt)
  | @take item queue hq =>
    have hperm : (s.numbers held).Perm (numbersOf (held queue) (s.calls ++ [⟨item, none⟩])) := by
      refine (perm_numbers hq _).trans ?_
      rw [numbersOf, numbersOf, map_append, ← append_assoc]
      exact (perm_append_singleton item.number _).symm
    refine h.keep (hperm.nodup_iff.1 h.nodup) (fun n hn => h.bound n (hperm.mem_iff.2 hn))
      (Nat.le_refl _) rfl fun n _ hl => ?_
    refine hl.mono (fun it hmem => .inl ?_) (fun c hmem => ?_) (fun hd => ?_)
    · exact hq.mem_iff.2 (mem_cons_of_mem _ hmem)
    · rcases mem_append.1 hmem with hold | hnew
      · exact .inl hold
      · rw [mem_singleton.1 hnew]
        refine .inr fun hn => hl.notQueued ?_
        rw [← hn]
        exact mem_map_of_mem (hq.mem_iff.2 mem_cons_self)
    · refine hd.imp id fun hc => ?_
      rw [map_append]
      exact mem_append_left _ hc
  | @exportItem i item cs hi hcs => exact h.exportItem hi hcs
  | @done i item hi =>
    refine h.keep (h.nodup.sublist (numbers_giveUp s i))
      (fun n hn => h.bound n ((numbers_giveUp s i).subset hn)) (Nat.le_refl _) rfl
      fun n _ hl => hl.mono (fun _ hmem => .inl hmem)
        (fun c hmem => .inl (eraseIdx_subset hmem)) fun hd => ?_
    have hne : item.number ≠ n := hl.ne hi fun err h => by
      cases h
      rfl
    exact hd.imp id (mem_numbers_eraseIdx hi hne)
  | @drop i item err logged hi =>
    refine h.keep (h.nodup.sublist (numbers_giveUp s i))
      (fun n hn => h.bound n ((numbers_giveUp s i).subset hn)) (Nat.le_refl _) rfl
      fun n _ hl => hl.mono (fun _ hmem => .inl hmem)
        (fun c hmem => .inl (eraseIdx_subset hmem)) fun hd => ?_
    rw [map_append]
    rcases hd with hd | hc
    · exact .inl (mem_append_left _ hd)
    · rcases mem_cons.1 ((numbers_eraseIdx hi).mem_iff.2 hc) with hn | hrest
      · exact .inl (mem_append_right _ (mem_singleton.2 hn))
      · exact .inr hrest
  | @again i item err queue data waiting hi herr hq =>
    have hperm : (s.numbers held).Perm (numbersOf (held queue) (s.calls.eraseIdx i)) := by
      refine .trans ?_ (perm_numbers hq _).symm
      rw [numbersOf, map_append, append_assoc]
      exact List.Perm.append_left _ (numbers_eraseIdx hi).symm
    refine h.keep (hperm.nodup_iff.1 h.nodup) (fun n hn => h.bound n (hperm.mem_iff.2 hn))
      (Nat.le_refl _) rfl fun n _ hl => ?_
    have hne : item.number ≠ n := hl.ne hi fun err h => by
      cases h
      exact herr
    refine hl.mono (fun it hmem => ?_) (fun c hmem => .inl (eraseIdx_subset hmem)) fun hd =>
      hd.imp id (mem_numbers_eraseIdx hi hne)
    rcases mem_append.1 (hq.mem_iff.1 hmem) with hold | hnew
    · exact .inl hold
    · rw [mem_singleton.1 hnew]
      exact .inr hne
  | @other queue waiting hq =>
    have hperm := (perm_numbers hq s.calls).symm
    exact h.keep (hperm.nodup_iff.1 h.nodup) (fun n hn => h.bound n (hperm.mem_iff.2 hn))
      (Nat.le_refl _) rfl fun n _ hl =>
        hl.mono (fun _ hmem => .inl (hq.mem_iff.1 hmem)) (fun _ hmem => .inl hmem) id

variable (cfg held) in
/-- What becomes of the batches that all failing consumers reject for good, where one consumer
alone fails: the error is permanent, the batch is not put back, and it is not exported again. -/
structure RejectsOnce (s : State Q T M) : Prop where
  called : ∀ e ∈ s.exports, e.spread.calls.length = cfg.consumers
  permanent : ∀ e ∈ s.exports, e.spread.Rejected →
    (isPermanent e.spread.err = true ↔ e.spread.failures.length = 1)
  leaving : ∀ e ∈ s.exports, e.spread.Rejected → e.spread.failures.length = 1 →
    Leaving held s e.number
  once : s.exports.Pairwise fun e e' =>
    e.spread.Rejected → e.spread.failures.length = 1 → e'.number ≠ e.number

/-- **A batch that one consumer alone rejects for good is dropped and seen once**, in every run.
With more than one such consumer the error is not permanent. -/
theorem rejectsOnce_run (hq : cfg.queue.Keeps held) {es : List (Event T M)}
    (h : runFrom (step cfg) (State.init cfg) es = some s) : RejectsOnce cfg held s := by
  have hinv : Inv cfg held s := runFrom_invariant
    (fun _ _ _ hstep hinv => hinv.step (step_transition hq hstep)) h (inv_init hq)
  have hperm : ∀ e ∈ s.exports, e.spread.Rejected →
      (isPermanent e.spread.err = true ↔ e.spread.failures.length = 1) := by
    intro e he hrej
    obtain ⟨cs, data, -, heq⟩ := hinv.spread e he
    rw [heq] at hrej ⊢
    exact Connector.isPermanent_consume hrej
  refine ⟨fun e he => ?_, hperm, fun e he hrej hone => ?_, ?_⟩
  · obtain ⟨cs, data, hcs, heq⟩ := hinv.spread e he
    rw [heq, Connector.length_calls, hcs]
  · exact hinv.leaving e he ((hperm e he hrej).2 hone)
  · refine hinv.once.imp_of_mem fun he _ hfinal hrej hone => ?_
    exact hfinal ((hperm _ he hrej).2 hone)

end Machine

section Runs

/-- A queue with room for one item, and whether it has been stopped. -/
def oneItem : BoundedQueue (Bool × Option (Item Nat Nat)) (Item Nat Nat) where
  new := (false, none)
  produce
    | (false, none), item => some (false, some item)
    | _, _ => none
  take
    | (stopped, some item) => some (item, stopped, none)
    | _ => none
  stop q := (true, q.2)

/-- A processor with one worker and room for one batch, in front of a connector with two
consumers. -/
def twoConsumers : Settings (Bool × Option (Item Nat Nat)) Nat Nat where
  queue := oneItem
  numWorkers := 1
  retryOnProcessingFailure := true
  backoffDelay := 0
  next := .cloning id
  consumers := 2

theorem keeps_twoConsumers : twoConsumers.queue.Keeps fun q => q.2.toList where
  new := rfl
  produce {q a q'} h := by
    obtain ⟨stopped, item⟩ := q
    cases stopped <;> cases item <;> cases h
    rfl
  take {q a q'} h := by
    obtain ⟨stopped, item⟩ := q
    cases item <;> cases h
    rfl
  stop _ := .rfl

def accepting : Consume (Batch Nat Nat) Nat := fun _ => none

def rejecting : Consume (Batch Nat Nat) Nat := fun _ => some (.permanent (.new "bad data"))

def attempt (cs : List (Consume (Batch Nat Nat) Nat)) : List (Event Nat Nat) :=
  [.take, .exportItem 0 cs, .settle 0]

/-- One of the two consumers rejects the batch, and it is dropped. -/
theorem rejectsOnce_attempt :
    ∃ s, runFrom (step twoConsumers) (State.init twoConsumers)
        (.consume (.traces 7) :: attempt [accepting, rejecting]) = some s ∧
      s.dropped = [(0, .permanent (.new "bad data"))] ∧
      RejectsOnce twoConsumers (fun q => q.2.toList) s := by
  obtain ⟨s, hrun, hdropped⟩ : ∃ s, runFrom (step twoConsumers) (State.init twoConsumers)
      (.consume (.traces 7) :: attempt [accepting, rejecting]) = some s ∧
      s.dropped = [(0, .permanent (.new "bad data"))] := ⟨_, rfl, rfl⟩
  exact ⟨s, hrun, hdropped, rejectsOnce_run keeps_twoConsumers hrun⟩

def rejectedByBoth : Export Nat Nat :=
  ⟨0, twoConsumers.next.consume [rejecting, rejecting] (.traces 7)⟩

/-- Both reject the batch for good, and both see it twice. -/
theorem rejectedByBoth_again :
    ∃ s, runFrom (step twoConsumers) (State.init twoConsumers) (.consume (.traces 7) ::
        (attempt [rejecting, rejecting] ++ attempt [rejecting, rejecting])) = some s ∧
      s.exports = [rejectedByBoth, rejectedByBoth] ∧
      rejectedByBoth.spread.Rejected ∧ isPermanent rejectedByBoth.spread.err = false := by
  refine ⟨_, rfl, rfl, ⟨?_, ?_⟩, rfl⟩
  · exact cons_ne_nil _ _
  · intro err herr
    rcases mem_cons.1 herr with rfl | herr
    · rfl
    · rw [mem_singleton.1 herr]
      rfl

end Runs

/-! ## Where a batch is -/

section Places

variable {Q T M : Type} {cfg : Settings Q T M} {held : Q → List (Item T M)} {s s' : State Q T M}

/-- The batch that a worker has, unless its export went well. -/
def Call.pending : Call T M → List Nat
  | ⟨_, some none⟩ => []
  | ⟨item, _⟩ => [item.number]

def Export.delivered (e : Export T M) : List Nat := if e.spread.err.isNone then [e.number] else []

variable (held) in
def State.places (s : State Q T M) : List Nat :=
  (held s.queue).map Item.number ++ s.calls.flatMap Call.pending ++ s.dropped.map Prod.fst ++
    s.exports.flatMap Export.delivered

theorem count_pending {i : Nat} {c : Call T M} (hi : s.calls[i]? = some c) (n : Nat) :
    count n (s.calls.flatMap Call.pending) =
      count n c.pending + count n ((s.calls.eraseIdx i).flatMap Call.pending) := by
  obtain ⟨hlt, rfl⟩ := List.getElem?_eq_some_iff.1 hi
  rw [← count_append, ← flatMap_cons]
  exact ((getElem_cons_eraseIdx_perm hlt).flatMap_right _).count_eq n |>.symm

theorem places_step (ht : Transition cfg held s s') (h : (s.places held).Perm (range s.accepted)) :
    (s'.places held).Perm (range s'.accepted) := by
  rw [perm_iff_count] at h ⊢
  intro n
  have hn := h n
  simp only [State.places, count_append] at hn ⊢
  cases ht with
  | accept data hq =>
    rw [(hq.map _).count_eq]
    simp only [range_succ, map_append, count_append, map_cons, map_nil]
    omega
  | take hq =>
    rw [(hq.map _).count_eq, map_cons, count_cons] at hn
    simp only [flatMap_append, flatMap_singleton, count_append, Call.pending, count_singleton]
    omega
  | @exportItem i item cs hi hcs =>
    have hset := (set_perm_cons_eraseIdx (List.getElem?_eq_some_iff.1 hi).1
      ⟨item, some (cfg.next.consume cs item.data).err⟩).flatMap_right Call.pending
    rw [count_pending hi] at hn
    rw [hset.count_eq, flatMap_cons, flatMap_append, flatMap_singleton, count_append, count_append]
    cases herr : (cfg.next.consume cs item.data).err
    all_goals
      simp only [Export.delivered, Call.pending, herr] at hn ⊢
      simp only [Option.isNone_none, Option.isNone_some, if_true, if_false, count_nil,
        Bool.false_eq_true] at hn ⊢
      omega
  | done hi | drop _ hi =>
    rw [count_pending hi] at hn
    simp only [Call.pending, count_nil, map_append, count_append, map_cons, map_nil] at hn ⊢
    omega
  | again _ _ hi _ hq =>
    rw [count_pending hi] at hn
    rw [(hq.map _).count_eq]
    simp only [Call.pending, map_append, count_append, map_cons, map_nil] at hn ⊢
    omega
  | other _ hq =>
    rw [(hq.map _).count_eq]
    exact hn

/-- **Every accepted batch is in one place**, in every run: in the queue, with a worker, among the
dropped ones, or among those that were exported without an error. -/
theorem places_of_run (hq : cfg.queue.Keeps held) (es : List (Event T M))
    (hrun : runFrom (step cfg) (State.init cfg) es = some s) :
    (s.places held).Perm (range s.accepted) := by
  refine runFrom_invariant (fun _ _ _ hstep => places_step (step_transition hq hstep)) hrun ?_
  simp [State.places, State.init, hq.new]

/-- One batch is dropped, and another one waits in the queue. -/
theorem places_of_attempt : ∃ s : State (Bool × Option (Item Nat Nat)) Nat Nat,
    s.dropped.length = 1 ∧ s.queue.2.isSome ∧ (s.places fun q => q.2.toList).Perm (range 2) :=
  ⟨_, rfl, rfl, places_of_run keeps_twoConsumers (.consume (.traces 7) ::
    (attempt [accepting, rejecting] ++ [.consume (.traces 8)])) rfl⟩

end Places

end Collector.QueuedRetry
