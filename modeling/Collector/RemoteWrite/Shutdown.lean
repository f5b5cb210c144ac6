import Collector.Lib.Run

/-!
# Shutdown against concurrent pushes

`PushMetrics` joins the wait group before it looks at `closeChan` and leaves it
when it returns; `Shutdown` closes the channel and then waits for the group to
be empty. Each call is a program counter, and an event is one atomic step of
one call or of `Shutdown`. `Wait` takes two steps: it sees the counter at zero,
and it returns some time after. Go may also stop the process when `Add` races
with a waking `Wait`; such a run only ends earlier.

The order matters: were the channel checked before `Add`, a call could pass the
check, `Shutdown` return, and the call export afterwards.
-/

namespace Collector.RemoteWrite.Shutdown

open Lib List

/-- Where a call of `PushMetrics` stands. -/
inductive Pc where
  | entered
  /-- After `wg.Add(1)`. -/
  | added
  /-- `closeChan` was found open. -/
  | exporting
  | exported
  /-- `closeChan` was found closed. -/
  | refused
  /-- After `wg.Done()`. -/
  | returned
  deriving DecidableEq, Repr

/-- Where the call of `Shutdown` stands. -/
inductive Phase where
  | notCalled
  | waiting
  | sawZero
  | returned
  deriving DecidableEq, Repr

structure State where
  calls : List Pc
  wg : Nat
  closed : Bool
  phase : Phase
  deriving DecidableEq, Repr

inductive Event where
  | call
  | add (i : Nat)
  | check (i : Nat)
  | export (i : Nat)
  | done (i : Nat)
  | close
  | wake
  | return
  deriving DecidableEq, Repr

def init : State := ⟨[], 0, false, .notCalled⟩

def State.set (s : State) (i : Nat) (pc : Pc) : State := { s with calls := s.calls.set i pc }

def step (s : State) : Event → Option State
  | .call => some { s with calls := s.calls ++ [.entered] }
  | .add i =>
    match s.calls[i]? with
    | some .entered => some { s.set i .added with wg := s.wg + 1 }
    | _ => none
  | .check i =>
    match s.calls[i]? with
    | some .added => some (s.set i (if s.closed then .refused else .exporting))
    | _ => none
  | .export i =>
    match s.calls[i]? with
    | some .exporting => some (s.set i .exported)
    | _ => none
  | .done i =>
    match s.calls[i]? with
    | some .exported | some .refused => some { s.set i .returned with wg := s.wg - 1 }
    | _ => none
  | .close =>
    if s.phase = .notCalled then some { s with closed := true, phase := .waiting } else none
  | .wake => if s.phase = .waiting ∧ s.wg = 0 then some { s with phase := .sawZero } else none
  | .return => if s.phase = .sawZero then some { s with phase := .returned } else none

def holds : Pc → Bool
  | .added | .exporting | .exported | .refused => true
  | _ => false

/-- The call is between a successful check of `closeChan` and its `wg.Done()`. -/
def inside : Pc → Bool
  | .exporting | .exported => true
  | _ => false

/-- `Wait` has seen the group empty. -/
def Phase.drained : Phase → Bool
  | .sawZero | .returned => true
  | _ => false

structure Inv (s : State) : Prop where
  wg_eq : s.wg = s.calls.countP holds
  closed_iff : s.closed = true ↔ s.phase ≠ .notCalled
  drained : s.phase.drained = true → ∀ pc ∈ s.calls, inside pc = false

theorem inv_init : Inv init := ⟨rfl, by decide, fun h => by cases h⟩

/-- A call that holds the wait group is counted in it. -/
theorem Inv.sub_add_one {s : State} (h : Inv s) {i : Nat} {pc : Pc} (hi : s.calls[i]? = some pc)
    (hp : holds pc = true) : s.wg - 1 + 1 = s.wg := by
  have hpos : 0 < s.calls.countP holds := countP_pos_iff.2 ⟨pc, mem_of_getElem? hi, hp⟩
  have := h.wg_eq
  omega

/-- A call moves on: the wait group follows it, and it does not go inside once the group was seen
empty. -/
theorem Inv.move {s : State} (h : Inv s) {i wg : Nat} {pc pc' : Pc} (hi : s.calls[i]? = some pc)
    (hwg : wg + (holds pc).toNat = s.wg + (holds pc').toNat)
    (hin : inside pc' = true → inside pc = true ∨ s.phase.drained = false) :
    Inv ⟨s.calls.set i pc', wg, s.closed, s.phase⟩ := by
  obtain ⟨hlt, hval⟩ := List.getElem?_eq_some_iff.1 hi
  refine ⟨?_, h.closed_iff, fun hd q hq => ?_⟩
  · have hcount : (s.calls.set i pc').countP holds + (holds pc).toNat =
        s.calls.countP holds + (holds pc').toNat := by
      rw [countP_set hlt, hval]
      cases hp : holds pc with
      | false => cases holds pc' <;> rfl
      | true =>
        have hpos := countP_pos_iff.2 ⟨pc, mem_of_getElem? hi, hp⟩
        show s.calls.countP holds - 1 + (if holds pc' = true then 1 else 0) + 1 = _
        cases holds pc' <;> simp <;> omega
    have hwgs := h.wg_eq
    show wg = (s.calls.set i pc').countP holds
    omega
  · rcases mem_or_eq_of_mem_set hq with hq | rfl
    · exact h.drained hd q hq
    · by_contra hne
      rcases hin (by simpa using hne) with hpc | hnd
      · have hout := h.drained hd pc (mem_of_getElem? hi)
        rw [hpc] at hout
        cases hout
      · exact absurd hd (by rw [hnd]; decide)

theorem inv_step (s : State) (e : Event) (s' : State) (hs : step s e = some s') (h : Inv s) :
    Inv s' := by
  cases e <;> simp only [step] at hs
  case call =>
    cases hs
    refine ⟨?_, h.closed_iff, fun hd q hq => ?_⟩
    · show s.wg = (s.calls ++ [Pc.entered]).countP holds
      rw [h.wg_eq, countP_append]
      rfl
    · rcases mem_append.1 hq with hq | hq
      · exact h.drained hd q hq
      · rw [mem_singleton.1 hq]
        rfl
  case add i =>
    split at hs <;> cases hs
    rename_i hi
    exact h.move hi rfl (fun hp => by cases hp)
  case check i =>
    split at hs <;> cases hs
    rename_i hi
    -- an open channel is one that no `Wait` stands behind
    cases hc : s.closed with
    | true => exact h.move hi rfl (fun hp => by cases hp)
    | false =>
      refine h.move hi rfl fun _ => .inr ?_
      have hp : s.phase = .notCalled := by
        by_contra hp
        rw [h.closed_iff.2 hp] at hc
        cases hc
      rw [hp]
      rfl
  case «export» i =>
    split at hs <;> cases hs
    rename_i hi
    exact h.move hi rfl (fun _ => .inl rfl)
  case done i =>
    split at hs <;> cases hs <;> rename_i hi <;>
      exact h.move hi (h.sub_add_one hi rfl) (fun hp => by cases hp)
  case close =>
    split at hs <;> cases hs
    exact ⟨h.wg_eq, by simp, fun hd => by cases hd⟩
  case wake =>
    split at hs <;> cases hs
    rename_i hw
    refine ⟨h.wg_eq, ?_, fun _ q hq => ?_⟩
    · rw [h.closed_iff, hw.1]
      simp
    · have hz : s.calls.countP holds = 0 := h.wg_eq ▸ hw.2
      have hq' := countP_eq_zero.1 hz q hq
      cases q <;> first | rfl | exact absurd rfl hq'
  case «return» =>
    split at hs <;> cases hs
    rename_i hp
    refine ⟨h.wg_eq, ?_, fun _ => h.drained (by rw [hp]; rfl)⟩
    rw [h.closed_iff, hp]
    simp

theorem returned_step (s : State) (e : Event) (s' : State) (hs : step s e = some s')
    (h : s.phase = .returned) : s'.phase = .returned := by
  cases e with
  | close | wake | «return» => simp [step, h] at hs
  | call => cases hs; exact h
  | add | check | «export» | done =>
    simp only [step] at hs
    split at hs <;> cases hs <;> exact h

/-- No call is between a successful check and its `wg.Done()`. -/
def Quiet (s : State) : Prop := ∀ pc ∈ s.calls, inside pc = false

/-- **Nothing is exported once `Shutdown` has returned**, whatever the interleaving before and
after. -/
theorem quiet_after_shutdown {es : List Event} {s : State} (hrun : runFrom step init es = some s)
    (hret : s.phase = .returned) :
    Quiet s ∧ ∀ es' s', runFrom step s es' = some s' → Quiet s' := by
  have hquiet : ∀ es' s', runFrom step s es' = some s' → Quiet s' := by
    intro es' s' hrun'
    have hinv : Inv s' :=
      runFrom_invariant inv_step hrun' (runFrom_invariant inv_step hrun inv_init)
    have hphase : s'.phase = .returned := runFrom_invariant returned_step hrun' hret
    exact hinv.drained (by rw [hphase]; rfl)
  exact ⟨hquiet [] s rfl, hquiet⟩

/-- Two calls, one of which is refused while `Shutdown` waits for the other. -/
def overtaken : List Event :=
  [.call, .call, .add 0, .check 0, .close, .add 1, .check 1, .export 0, .done 1, .done 0, .wake,
    .return]

theorem quiet_after_overtaken :
    runFrom step init overtaken = some ⟨[.returned, .returned], 0, true, .returned⟩ ∧
      Quiet ⟨[.returned, .returned], 0, true, .returned⟩ ∧
      ∀ es' s', runFrom step ⟨[.returned, .returned], 0, true, .returned⟩ es' = some s' →
        Quiet s' :=
  ⟨by decide, quiet_after_shutdown (by decide : runFrom step init overtaken = some _) rfl⟩

end Collector.RemoteWrite.Shutdown
