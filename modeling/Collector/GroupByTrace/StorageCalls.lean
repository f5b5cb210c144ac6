import Collector.GroupByTrace.Storage
import Collector.Lib.Run
import Collector.Pdata.Copying

/-!
# Calls of the memory storage

The functions of `storage_memory.go` with every operation of their lock. `view` forgets the lock but
for the readers that stay registered, and there each function is the one of `MemoryStorage`. A call
of `get` for an id that is not there returns before `RUnlock`, so the lock is free after some calls
exactly when every `get` among them has found its id. The resource spans are copied on their way in
and on their way out, so what `get` returns lacks the numbers of dropped attributes.
-/

namespace Collector.GroupByTrace

open Lib Pdata

/-! ## `sync.RWMutex`

A mutex as one goroutine sees it that calls its methods while no other does: how many readers and
whether a writer are registered. A method that has to wait for them does not return. -/

/-- Why a function with a mutex does not return. -/
inductive Stuck where
  /-- It waits for somebody else. -/
  | blocked
  /-- The runtime ends the process: unlock of an unlocked mutex. -/
  | fatal
  /-- The function that holds the mutex ends the process. -/
  | crashed (c : Crash)
  deriving DecidableEq, Repr

/-- `sync.RWMutex`. -/
structure RWMutex where
  readers : Nat := 0
  writer : Bool := false
  deriving DecidableEq, Repr

namespace RWMutex

def Free (m : RWMutex) : Prop := m = {}

instance (m : RWMutex) : Decidable m.Free := inferInstanceAs (Decidable (m = {}))

def lock (m : RWMutex) : Except Stuck RWMutex :=
  if m.writer || m.readers ≠ 0 then .error .blocked else .ok { m with writer := true }

def unlock (m : RWMutex) : Except Stuck RWMutex :=
  if m.writer then .ok { m with writer := false } else .error .fatal

def rLock (m : RWMutex) : Except Stuck RWMutex :=
  if m.writer then .error .blocked else .ok { m with readers := m.readers + 1 }

def rUnlock (m : RWMutex) : Except Stuck RWMutex :=
  match m.readers with
  | 0 => .error .fatal
  | n + 1 => .ok { m with readers := n }

theorem free_iff {m : RWMutex} : m.Free ↔ m.readers = 0 ∧ m.writer = false := by
  obtain ⟨readers, writer⟩ := m
  simp [Free]

@[simp] theorem lock_readers (n : Nat) :
    lock ⟨n, false⟩ = if n = 0 then .ok ⟨n, true⟩ else .error .blocked := by
  by_cases h : n = 0 <;> simp [lock, h]

@[simp] theorem unlock_writer (n : Nat) : unlock ⟨n, true⟩ = .ok ⟨n, false⟩ := rfl

@[simp] theorem rLock_readers (n : Nat) : rLock ⟨n, false⟩ = .ok ⟨n + 1, false⟩ := rfl

@[simp] theorem rUnlock_readers (n : Nat) : rUnlock ⟨n + 1, false⟩ = .ok ⟨n, false⟩ := rfl

end RWMutex

/-! ## The functions of the storage -/

variable {K F : Type} [DecidableEq K]

/-- `memoryStorage` with its `sync.RWMutex`. -/
structure LockedStorage (K F : Type) where
  mutex : RWMutex := {}
  content : GoMap K (List (ResourceMessage F)) := ∅

namespace LockedStorage

def newMemoryStorage : LockedStorage K F := {}

/-- `rs.CopyTo(newRS)` while the mutex is held. -/
def copy (rs : ResourceMessage F) : Except Stuck (ResourceMessage F) := rs.copyTo.mapError .crashed

/-- `createOrAppend`, and the error it returns. -/
def createOrAppend (st : LockedStorage K F) (traceID : K) (rs : Option (ResourceMessage F)) :
    Except Stuck (LockedStorage K F × Option String) :=
  match rs with
  | none => .ok (st, some MemoryStorage.errStorageNilResourceSpans)
  | some rs => do
    let mutex ← st.mutex.lock
    let content :=
      match st.content.lookup traceID with
      | none => st.content.insert traceID []
      | some _ => st.content
    let newRS ← copy rs
    let content := content.insert traceID ((content.lookup traceID).getD [] ++ [newRS])
    let mutex ← mutex.unlock
    return (⟨mutex, content⟩, none)

def get (st : LockedStorage K F) (traceID : K) :
    Except Stuck (LockedStorage K F × Option (List (ResourceMessage F))) := do
  let mutex ← st.mutex.rLock
  match st.content.lookup traceID with
  | none => return (⟨mutex, st.content⟩, none)
  | some rss =>
    let result ← rss.mapM copy
    let mutex ← mutex.rUnlock
    return (⟨mutex, st.content⟩, some result)

def delete (st : LockedStorage K F) (traceID : K) :
    Except Stuck (LockedStorage K F × List (ResourceMessage F)) := do
  let mutex ← st.mutex.lock
  let rss := (st.content.lookup traceID).getD []
  let result ← rss.mapM copy
  let content := st.content.erase traceID
  let mutex ← mutex.unlock
  return (⟨mutex, content⟩, result)

def count (st : LockedStorage K F) : Except Stuck (LockedStorage K F × Nat) := do
  let mutex ← st.mutex.rLock
  let mutex ← mutex.rUnlock
  return (⟨mutex, st.content⟩, st.content.entries.length)

end LockedStorage

inductive Call (K F : Type) where
  | createOrAppend (traceID : K) (rs : Option (ResourceMessage F))
  | get (traceID : K)
  | delete (traceID : K)
  | count

def Call.run (st : LockedStorage K F) : Call K F → Option (LockedStorage K F)
  | .createOrAppend id rs => (st.createOrAppend id rs).toOption.map Prod.fst
  | .get id => (st.get id).toOption.map Prod.fst
  | .delete id => (st.delete id).toOption.map Prod.fst
  | .count => st.count.toOption.map Prod.fst

/-! ## The storage without its lock -/

namespace LockedStorage

/-- The storage as the processor's model has it. -/
def view (st : LockedStorage K F) : MemoryStorage K (ResourceMessage F) :=
  ⟨st.content, st.mutex.readers⟩

theorem copied_of_copy {rs newRS : ResourceMessage F} (h : copy rs = .ok newRS) :
    rs.copied = newRS := by
  unfold copy at h
  cases hcopy : rs.copyTo with
  | error c =>
    rw [hcopy] at h
    cases h
  | ok copied =>
    rw [hcopy] at h
    cases h
    exact ((ResourceMessage.computes_copyTo.iff _ _).1 hcopy).2

/-- Everything in the storage is a copy. -/
def HoldsCopies (st : LockedStorage K F) : Prop :=
  ∀ id rss, st.content.lookup id = some rss → ∃ rss', rss = List.map ResourceMessage.copied rss'

theorem mapM_copy_copied (rss : List (ResourceMessage F)) :
    (rss.map ResourceMessage.copied).mapM copy = .ok (rss.map ResourceMessage.copied) := by
  induction rss with
  | nil => rfl
  | cons rs rss ih =>
    rw [List.map_cons, List.mapM_cons, ih, copy, rs.copyTo_copied]
    rfl

variable {st st' : LockedStorage K F} (hwriter : st.mutex.writer = false)

include hwriter

theorem createOrAppend_eq (id : K) (rs : ResourceMessage F) : st.createOrAppend id (some rs) =
      if st.mutex.readers = 0 then
        (copy rs).map fun newRS =>
          (⟨st.mutex, st.content.insert id ((st.content.lookup id).getD [] ++ [newRS])⟩, none)
      else .error .blocked := by
  obtain ⟨⟨readers, writer⟩, content⟩ := st
  cases hwriter
  unfold createOrAppend
  by_cases hreaders : readers = 0
  · subst hreaders
    cases hcopy : copy rs with
    | error => simp [hcopy, bind, Except.bind, Except.map]
    | ok newRS =>
      cases hlookup : content.lookup id with
      | none =>
        simp [hcopy, AList.insert_insert, bind, Except.bind, pure, Except.pure, Except.map]
      | some rss => simp [hcopy, hlookup, bind, Except.bind, pure, Except.pure, Except.map]
  · simp [hreaders, bind, Except.bind]

omit [DecidableEq K] in
theorem count_eq : st.count = .ok (st, st.content.entries.length) := by
  obtain ⟨⟨readers, writer⟩, content⟩ := st
  cases hwriter
  rfl

variable (hcopies : st.HoldsCopies)

include hcopies

theorem delete_eq (id : K) : st.delete id =
      if st.mutex.readers = 0 then
        .ok (⟨st.mutex, st.content.erase id⟩, (st.content.lookup id).getD [])
      else .error .blocked := by
  obtain ⟨⟨readers, writer⟩, content⟩ := st
  cases hwriter
  unfold delete
  have hcopy : ((content.lookup id).getD []).mapM copy = .ok ((content.lookup id).getD []) := by
    cases hlookup : content.lookup id with
    | none => rfl
    | some rss =>
      obtain ⟨rss', rfl⟩ := hcopies id rss hlookup
      exact mapM_copy_copied rss'
  by_cases hreaders : readers = 0
  · subst hreaders
    simp [hcopy, bind, Except.bind, pure, Except.pure]
  · simp [hreaders, bind, Except.bind]

theorem get_eq (id : K) : st.get id =
      .ok (⟨⟨(st.view.get id).1.readers, false⟩, st.content⟩, (st.view.get id).2) := by
  obtain ⟨⟨readers, writer⟩, content⟩ := st
  cases hwriter
  unfold get view MemoryStorage.get
  cases hlookup : content.lookup id with
  | none => simp [bind, Except.bind, pure, Except.pure]
  | some rss =>
    obtain ⟨rss', rfl⟩ := hcopies id rss hlookup
    simp [mapM_copy_copied, -List.mapM_map, bind, Except.bind, pure, Except.pure]

end LockedStorage

/-! ## What the calls have left -/

/-- What a call does to the resource spans that were appended for an id since its last delete. -/
def Call.appendedBy (id : K) (rss : List (ResourceMessage F)) :
    Call K F → List (ResourceMessage F)
  | .createOrAppend id' (some rs) => if id' = id then rss ++ [rs] else rss
  | .delete id' => if id' = id then [] else rss
  | .createOrAppend _ none | .get _ | .count => rss

/-- The resource spans that were appended for an id since its last delete, in order. -/
def appended (id : K) (calls : List (Call K F)) : List (ResourceMessage F) :=
  calls.foldl (Call.appendedBy id) []

/-- Every `get` was for an id with resource spans. -/
def AllFound (calls : List (Call K F)) : Prop :=
  ∀ before id, before ++ [.get id] <+: calls → appended id before ≠ []

theorem appended_snoc (id : K) (calls : List (Call K F)) (c : Call K F) :
    appended id (calls ++ [c]) = c.appendedBy id (appended id calls) := by
  simp [appended]

theorem allFound_snoc {calls : List (Call K F)} {c : Call K F} :
    AllFound (calls ++ [c]) ↔ AllFound calls ∧ ∀ id, c = .get id → appended id calls ≠ [] := by
  constructor
  · intro h
    refine ⟨fun before id hstart => h before id (hstart.trans (List.prefix_append _ _)), ?_⟩
    rintro id rfl
    exact h calls id List.prefix_rfl
  · rintro ⟨hcalls, hlast⟩ before id hstart
    rcases List.prefix_concat_iff.1 hstart with heq | hstart
    · obtain ⟨rfl, hget⟩ := List.append_inj' heq rfl
      exact hlast id (List.cons.inj hget).1.symm
    · exact hcalls before id hstart

/-- What the storage is after some calls. -/
structure Tracks (calls : List (Call K F)) (st : LockedStorage K F) : Prop where
  writer : st.mutex.writer = false
  readers : st.mutex.readers = 0 ↔ AllFound calls
  content : ∀ id, st.content.lookup id =
    if appended id calls = [] then none else some ((appended id calls).map ResourceMessage.copied)

namespace Tracks

variable {calls : List (Call K F)} {st st' : LockedStorage K F}

theorem init : Tracks [] (.newMemoryStorage : LockedStorage K F) where
  writer := rfl
  readers := iff_of_true rfl fun before id hstart => by simp at hstart
  content := fun id => rfl

variable (h : Tracks calls st)

include h

theorem lookup_getD (id : K) :
    (st.content.lookup id).getD [] = (appended id calls).map ResourceMessage.copied := by
  rw [h.content id]
  split
  case isTrue hnil => rw [hnil]; rfl
  case isFalse => rfl

theorem holdsCopies : st.HoldsCopies := by
  intro id rss hrss
  rw [h.content id] at hrss
  split at hrss
  case isTrue => cases hrss
  case isFalse =>
    cases hrss
    exact ⟨_, rfl⟩

theorem same_readers {c : Call K F} (hc : ∀ id, c = .get id → appended id calls ≠ []) :
    st.mutex.readers = 0 ↔ AllFound (calls ++ [c]) := by
  rw [allFound_snoc, h.readers]
  exact (and_iff_left hc).symm

theorem createOrAppend (id : K) (rs : ResourceMessage F) :
    Tracks (calls ++ [.createOrAppend id (some rs)])
      ⟨st.mutex, st.content.insert id ((st.content.lookup id).getD [] ++ [rs.copied])⟩ where
  writer := h.writer
  readers := h.same_readers (by simp)
  content := fun id' => by
    have hsnoc := appended_snoc id' calls (.createOrAppend id (some rs))
    by_cases hid : id = id'
    · subst hid
      simp [hsnoc.trans (if_pos rfl), h.lookup_getD]
    · rw [hsnoc.trans (if_neg hid), AList.lookup_insert_ne (Ne.symm hid)]
      exact h.content id'

theorem delete (id : K) :
    Tracks (calls ++ [.delete id]) ⟨st.mutex, st.content.erase id⟩ where
  writer := h.writer
  readers := h.same_readers (by simp)
  content := fun id' => by
    have hsnoc := appended_snoc id' calls (.delete id)
    by_cases hid : id = id'
    · subst hid
      simp [hsnoc.trans (if_pos rfl)]
    · rw [hsnoc.trans (if_neg hid), AList.lookup_erase_ne (Ne.symm hid)]
      exact h.content id'

theorem get (id : K) : Tracks (calls ++ [.get id])
      ⟨⟨(st.view.get id).1.readers, false⟩, st.content⟩ where
  writer := rfl
  readers := by
    have hcontent := h.content id
    unfold LockedStorage.view MemoryStorage.get
    by_cases hnil : appended id calls = []
    · rw [if_pos hnil] at hcontent
      simp only [hcontent]
      refine iff_of_false (Nat.succ_ne_zero _) fun hfound => ?_
      exact (allFound_snoc.1 hfound).2 id rfl hnil
    · rw [if_neg hnil] at hcontent
      simp only [hcontent]
      refine h.same_readers fun id' hget => ?_
      cases hget
      exact hnil
  content := fun id' => by
    rw [appended_snoc]
    exact h.content id'

theorem call {c : Call K F} (hrun : c.run st = some st') : Tracks (calls ++ [c]) st' := by
  cases c with
  | createOrAppend id rs =>
    cases rs with
    | none =>
      cases hrun
      refine ⟨h.writer, h.same_readers (by simp), fun id' => ?_⟩
      rw [appended_snoc]
      exact h.content id'
    | some rs =>
      dsimp only [Call.run] at hrun
      rw [LockedStorage.createOrAppend_eq h.writer] at hrun
      split at hrun
      case isTrue =>
        cases hcopy : LockedStorage.copy rs with
        | error e =>
          rw [hcopy] at hrun
          cases hrun
        | ok newRS =>
          obtain rfl := LockedStorage.copied_of_copy hcopy
          rw [hcopy] at hrun
          cases hrun
          exact h.createOrAppend id rs
      case isFalse => cases hrun
  | get id =>
    dsimp only [Call.run] at hrun
    rw [LockedStorage.get_eq h.writer h.holdsCopies] at hrun
    cases hrun
    exact h.get id
  | delete id =>
    dsimp only [Call.run] at hrun
    rw [LockedStorage.delete_eq h.writer h.holdsCopies] at hrun
    split at hrun
    case isTrue =>
      cases hrun
      exact h.delete id
    case isFalse => cases hrun
  | count =>
    dsimp only [Call.run] at hrun
    rw [LockedStorage.count_eq h.writer] at hrun
    cases hrun
    refine ⟨h.writer, h.same_readers (by simp), fun id' => ?_⟩
    rw [appended_snoc]
    exact h.content id'

theorem free_iff : st.mutex.Free ↔ AllFound calls := by
  rw [RWMutex.free_iff, h.readers]
  exact and_iff_left h.writer

theorem get_result (id : K) :
    (st.get id).map Prod.snd = .ok (if appended id calls = [] then none else
      some ((appended id calls).map ResourceMessage.copied)) := by
  rw [LockedStorage.get_eq h.writer h.holdsCopies, ← h.content id]
  unfold LockedStorage.view MemoryStorage.get
  cases hlookup : st.content.lookup id with
  | none | some => simp [Except.map]

theorem createOrAppend_blocked_iff (id : K) (rs : ResourceMessage F) :
    st.createOrAppend id (some rs) ≠ .error .blocked ↔ AllFound calls := by
  rw [LockedStorage.createOrAppend_eq h.writer, ← h.readers]
  split
  case isTrue hfree =>
    refine iff_of_true ?_ hfree
    cases hcopy : rs.copyTo <;>
      simp [LockedStorage.copy, hcopy, Except.mapError, Except.map]
  case isFalse hfree => exact iff_of_false (by simp) hfree

theorem delete_isOk (id : K) : (st.delete id).isOk = true ↔ AllFound calls := by
  rw [LockedStorage.delete_eq h.writer h.holdsCopies, ← h.readers]
  split <;> simp [Except.isOk, Except.toBool, *]

end Tracks

theorem copied_eq_values_iff {ms : ResourceMessage F} :
    ms.copied = ms.values ↔ Undropped ms.resource := by
  rw [← map_copied_iff]
  simp [ResourceMessage.copied, ResourceMessage.values]

/-- **The lock is free after some calls, and the next write and delete are not blocked, exactly when
every `get` has found its id.** In any case `get` returns copies of what was appended for its id
since the last delete, in order, and these have its values exactly when no resource among them has
dropped attributes. -/
theorem lock_free_iff {calls : List (Call K F)} {st : LockedStorage K F}
    (hrun : runFrom Call.run .newMemoryStorage calls = some st) :
    (st.mutex.Free ↔ AllFound calls) ∧
      (∀ id rs, st.createOrAppend id (some rs) ≠ .error .blocked ↔ AllFound calls) ∧
      (∀ id, (st.delete id).isOk = true ↔ AllFound calls) ∧
      (∀ id, (st.get id).map Prod.snd = .ok (if appended id calls = [] then none else
        some ((appended id calls).map ResourceMessage.copied))) ∧
      ∀ id, ((st.get id).map Prod.snd = .ok (if appended id calls = [] then none else
        some ((appended id calls).map ResourceMessage.values)) ↔
          ∀ rs ∈ appended id calls, Undropped rs.resource) := by
  have htracks : Tracks calls st :=
    runFrom_history (fun _ _ _ _ hstep h => h.call hstep) hrun Tracks.init
  refine ⟨htracks.free_iff, htracks.createOrAppend_blocked_iff, htracks.delete_isOk,
    htracks.get_result, fun id => ?_⟩
  rw [htracks.get_result id]
  by_cases hnil : appended id calls = []
  · simp [hnil]
  · simp [hnil, copied_eq_values_iff]

/-- Resource spans of one library, under a resource that has dropped some attributes. -/
def ofLibrary (name : String) (dropped : UInt32) : ResourceMessage Unit :=
  ⟨some ⟨[.mk "k" (.bool true)], dropped⟩, [some ⟨some ⟨name, ""⟩, []⟩]⟩

/-- One id is written twice and another once, and the first is deleted and written again. -/
def balanced : List (Call Nat Unit) :=
  [.createOrAppend 1 (some (ofLibrary "a" 0)), .createOrAppend 2 (some (ofLibrary "b" 0)),
    .createOrAppend 1 (some (ofLibrary "c" 3)), .get 1, .delete 1, .count,
    .createOrAppend 1 (some (ofLibrary "d" 0)), .createOrAppend 1 none]

def balancedStorage : LockedStorage Nat Unit where
  content := .insert 1 [ofLibrary "d" 0] (.insert 2 [ofLibrary "b" 0] ∅)

theorem balanced_free :
    runFrom Call.run .newMemoryStorage balanced = some balancedStorage ∧
      AllFound balanced ∧
      (balancedStorage.get 1).map Prod.snd = .ok (some [(ofLibrary "d" 0).values]) := by
  have hrun : runFrom Call.run .newMemoryStorage balanced = some balancedStorage := rfl
  obtain ⟨hfree, -, -, -, hget⟩ := lock_free_iff hrun
  refine ⟨hrun, hfree.1 rfl, (hget 1).2 ?_⟩
  simp [balanced, appended, Call.appendedBy, ofLibrary, Undropped]

/-- A `get` for an id that was never written: the next write is blocked. And a resource that has
dropped an attribute comes back as one that has not. -/
theorem absent_get_blocks :
    (∃ st : LockedStorage Nat Unit,
      runFrom Call.run .newMemoryStorage [.get 1] = some st ∧ st.mutex.readers = 1 ∧
        st.createOrAppend 1 (some (ofLibrary "a" 0)) = .error .blocked ∧
        st.delete 1 = .error .blocked) ∧
    ∃ st : LockedStorage Nat Unit,
      runFrom Call.run .newMemoryStorage [.createOrAppend 1 (some (ofLibrary "a" 1))] = some st ∧
        (st.get 1).map Prod.snd = .ok (some [ofLibrary "a" 0]) :=
  ⟨⟨⟨⟨1, false⟩, ∅⟩, rfl, rfl, rfl, rfl⟩, ⟨⟨{}, .insert 1 [ofLibrary "a" 0] ∅⟩, rfl, rfl⟩⟩

end Collector.GroupByTrace
