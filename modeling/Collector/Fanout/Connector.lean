import Collector.Go.Errors

/-!
# Fan-out connectors and their errors

`processor/fanoutconnector.go` and `processor/cloningfanoutconnector.go`: every
consumer is called once, in order, and the errors are combined. The connectors for
traces, metrics and logs are the same code. A consumer is what one call of the
connector meets, so over many calls it may answer in any way.
-/

namespace Collector.Fanout

open GoError

/-- A consumer in one call of the connector: its answer to the data it is given. -/
abbrev Consume (D τ : Type) := D → Option (GoError τ)

/-- One call of a connector: what each consumer was given and answered, in the order of the calls,
and the error that is returned. -/
structure Spread (D τ : Type) where
  calls : List (D × Option (GoError τ))
  err : Option (GoError τ)

/-- The calls made so far, and `errs`. -/
abbrev Made (D τ : Type) := List (D × Option (GoError τ)) × List (GoError τ)

section Connectors

variable {D τ : Type}

def Spread.failures (sp : Spread D τ) : List (GoError τ) := sp.calls.filterMap Prod.snd

/-- The body of the loops: the consumer is called, and an error is appended to `errs`. -/
def call (d : D) (made : Made D τ) (c : Consume D τ) : Made D τ :=
  match c d with
  | none => (made.1 ++ [(d, none)], made.2)
  | some err => (made.1 ++ [(d, some err)], made.2 ++ [err])

/-- `traceFanOutConnector.ConsumeTraces` and its like. -/
def fanOutConsume (cs : List (Consume D τ)) (d : D) : Made D τ := cs.foldl (call d) ([], [])

/-- `tracesCloningFanOutConnector.ConsumeTraces` and its like: the last consumer is given the
original. -/
def cloningFanOutConsume (clone : D → D) (cs : List (Consume D τ)) (d : D) : Made D τ :=
  let made := cs.dropLast.foldl (call (clone d)) ([], [])
  cs.getLast?.elim made (call d made)

inductive Connector (D : Type) where
  | plain
  | cloning (clone : D → D)

def Connector.loop : Connector D → List (Consume D τ) → D → Made D τ
  | plain => fanOutConsume
  | cloning clone => cloningFanOutConsume clone

/-- What `NewTracesFanOutConnector`, `NewTracesCloningFanOutConnector` and their like return, called
with data: a single consumer is not wrapped. -/
def Connector.consume (k : Connector D) (cs : List (Consume D τ)) (d : D) : Spread D τ :=
  match cs with
  | [c] => ⟨[(d, c d)], c d⟩
  | cs => ⟨(k.loop cs d).1, combineErrors (k.loop cs d).2⟩

/-! ## The loops -/

/-- What the loops keep: `errs` has the errors of the calls so far. -/
def Sound (made : Made D τ) : Prop := made.2 = made.1.filterMap Prod.snd

theorem sound_nil : Sound (([], []) : Made D τ) := rfl

theorem Sound.call {made : Made D τ} (h : Sound made) (d : D) (c : Consume D τ) :
    Sound (call d made c) := by
  unfold Sound at h ⊢
  unfold Fanout.call
  cases c d with
  | none | some => simp [h]

theorem Sound.foldl {made : Made D τ} (h : Sound made) (d : D) (cs : List (Consume D τ)) :
    Sound (cs.foldl (Fanout.call d) made) := by
  induction cs generalizing made with
  | nil => exact h
  | cons c cs ih => exact ih (h.call d c)

variable (k : Connector D) (cs : List (Consume D τ)) (d : D)

theorem Connector.sound_loop :
    Sound (k.loop cs d) := by
  cases k with
  | plain => exact sound_nil.foldl d cs
  | cloning clone =>
    have hfirst := sound_nil.foldl (clone d) cs.dropLast
    show Sound (cloningFanOutConsume clone cs d)
    unfold cloningFanOutConsume
    cases cs.getLast? with
    | none => exact hfirst
    | some c => exact hfirst.call d c

theorem length_call (made : Made D τ) (c : Consume D τ) :
    (call d made c).1.length = made.1.length + 1 := by
  unfold call
  cases c d <;> simp

theorem length_foldl_call (cs : List (Consume D τ)) (made : Made D τ) :
    (cs.foldl (call d) made).1.length = made.1.length + cs.length := by
  induction cs generalizing made with
  | nil => rfl
  | cons c cs ih =>
    rw [List.foldl_cons, ih, length_call, List.length_cons]
    omega

theorem Connector.length_loop :
    (k.loop cs d).1.length = cs.length := by
  cases k with
  | plain => exact (length_foldl_call d cs _).trans (Nat.zero_add _)
  | cloning clone =>
    show (cloningFanOutConsume clone cs d).1.length = cs.length
    unfold cloningFanOutConsume
    cases h : cs.getLast? with
    | none =>
      rw [List.getLast?_eq_none_iff.1 h]
      rfl
    | some c =>
      have hpos : 0 < cs.length := by
        cases cs with
        | nil => cases h
        | cons c cs => exact Nat.succ_pos _
      rw [Option.elim_some, length_call, length_foldl_call, List.length_dropLast, List.length_nil]
      omega

/-! ## The error of a connector -/

theorem Connector.err_consume :
    (k.consume cs d).err = combineErrors (k.consume cs d).failures := by
  unfold Connector.consume
  split
  · rename_i c
    unfold Spread.failures
    cases c d <;> simp [combineErrors]
  · exact congrArg combineErrors (k.sound_loop cs d)

theorem Connector.length_calls :
    (k.consume cs d).calls.length = cs.length := by
  unfold Connector.consume
  split
  · rfl
  · exact k.length_loop cs d

/-- Some consumer fails, and all that do fail with a permanent error. -/
def Spread.Rejected (sp : Spread D τ) : Prop :=
  sp.failures ≠ [] ∧ ∀ err ∈ sp.failures, isPermanent (some err) = true

/-- **The error of a rejected batch is permanent exactly when one consumer alone fails.** -/
theorem Connector.isPermanent_consume {k : Connector D} {cs : List (Consume D τ)} {d : D}
    (h : (k.consume cs d).Rejected) :
    isPermanent (k.consume cs d).err = true ↔ (k.consume cs d).failures.length = 1 := by
  rw [k.err_consume]
  constructor
  · intro hperm
    obtain ⟨err, herr⟩ := isPermanent_combineErrors hperm
    rw [herr]
    rfl
  · intro hone
    obtain ⟨err, herr⟩ := List.length_eq_one_iff.1 hone
    rw [herr]
    exact h.2 err (herr ▸ List.mem_cons_self)

end Connectors

end Collector.Fanout
