import Collector.Go.Runtime

/-!
# The ring buffer and the memory storage

`processor/groupbytraceprocessor/ring_buffer.go` and `storage_memory.go`. Both keep trace ids by
their `String()`, which tells them apart, so `K` is the type of the ids. The storage is locked;
`get` leaves its read lock behind when it finds nothing, and no write lock is granted after that.
-/

namespace Collector.GroupByTrace

variable {K V : Type} [DecidableEq K]

inductive Panic where
  | integerDivideByZero
  | crash (c : Crash)
  deriving DecidableEq, Repr

structure RingBuffer (K : Type) where
  index : Int
  size : Nat
  ids : List (Option K)
  idToIndex : GoMap K Nat

namespace RingBuffer

/-- `newRingBuffer`. The first id is placed at position 0. -/
def newRingBuffer (size : Nat) : RingBuffer K := ⟨-1, size, .replicate size none, ∅⟩

def contains (r : RingBuffer K) (traceID : K) : Bool := (r.idToIndex.lookup traceID).isSome

/-- `delete`, and whether the id was there. -/
def delete (r : RingBuffer K) (traceID : K) : RingBuffer K × Bool :=
  match r.idToIndex.lookup traceID with
  | none => (r, false)
  | some index =>
    ({ r with idToIndex := r.idToIndex.erase traceID, ids := r.ids.set index none }, true)

/-- `put`, and the id that it evicts. -/
def put (r : RingBuffer K) (traceID : K) : Except Panic (RingBuffer K × Option K) :=
  if r.size = 0 then .error .integerDivideByZero
  else
    let index := (r.index + 1).toNat % r.size
    let evicted := r.ids[index]?.join
    let cleared :=
      match evicted with
      | some old => (r.delete old).1
      | none => r
    .ok ({ cleared with
      index := index
      ids := cleared.ids.set index (some traceID)
      idToIndex := cleared.idToIndex.insert traceID index }, evicted)

/-- `put` evicts another id. -/
def evicts (r : RingBuffer K) (traceID : K) : Bool :=
  match r.put traceID with
  | .ok (_, some _) => true
  | _ => false

end RingBuffer

structure MemoryStorage (K V : Type) where
  content : GoMap K (List V) := ∅
  /-- The read locks that are not released. -/
  readers : Nat := 0

namespace MemoryStorage

def errStorageNilResourceSpans : String := "the provided trace is invalid (nil)"

/-- `createOrAppend`, once it has the lock. -/
def createOrAppend (st : MemoryStorage K V) (traceID : K) (rs : Option V) :
    Except String (MemoryStorage K V) :=
  match rs with
  | none => .error errStorageNilResourceSpans
  | some rs =>
    let rss := (st.content.lookup traceID).getD []
    .ok { st with content := st.content.insert traceID (rss ++ [rs]) }

/-- `get`, which returns without releasing the lock when there is nothing. -/
def get (st : MemoryStorage K V) (traceID : K) : MemoryStorage K V × Option (List V) :=
  match st.content.lookup traceID with
  | none => ({ st with readers := st.readers + 1 }, none)
  | some rss => (st, some rss)

/-- `delete`, once it has the lock. -/
def delete (st : MemoryStorage K V) (traceID : K) : MemoryStorage K V × List V :=
  ({ st with content := st.content.erase traceID }, (st.content.lookup traceID).getD [])

end MemoryStorage

end Collector.GroupByTrace
