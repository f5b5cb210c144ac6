import Mathlib.Data.List.Perm.Basic
import Collector.Go.Runtime
import Collector.Lib.Returns

/-!
# Attributes

`AttributeValue` and `AttributeMap` of `consumer/pdata/common.go`, over the messages
of `opentelemetry-proto-gen/common/v1`. A map is a slice of pointers to entries, and
every operation on a key goes to the first entry that has it. `Get` returns a
reference into the map; here it returns the value, and what is written through the
reference is a `put`.

Messages are trees. A value that is passed to an operation is taken to be apart
from the map or to be the whole value of one of its entries; where it is the very
entry written to, copying it onto itself element by element reads each element before
it is written. The wrappers of primitive values are shared between copies, but
no function writes into one.
-/

namespace Collector.Pdata

open List

mutual
/-- `*otlpcommon.AnyValue`: a nil pointer, or the `oneof` it points to. The messages under
`kvlist` and `array` may be nil as well. -/
inductive AnyValue (F : Type) where
  | nil
  | null
  | string (s : String)
  | bool (b : Bool)
  | int (n : Int64)
  | double (x : F)
  | kvlistNil
  | kvlist (values : List (KeyValue F))
  | arrayNil
  | array (values : List (AnyValue F))

/-- `*otlpcommon.KeyValue`. -/
inductive KeyValue (F : Type) where
  | nil
  | mk (key : String) (value : AnyValue F)
end

inductive AttributeValueType where
  | null | string | int | double | bool | map | array
  deriving DecidableEq, Repr

/-- `AttributeValueType.String()`. -/
def AttributeValueType.asString : AttributeValueType → String
  | null => "NULL"
  | string => "STRING"
  | bool => "BOOL"
  | int => "INT"
  | double => "DOUBLE"
  | map => "MAP"
  | array => "ARRAY"

variable {F : Type}

/-- `AttributeValue.Type`. -/
def AnyValue.type : AnyValue F → AttributeValueType
  | .nil | .null => .null
  | .string _ => .string
  | .bool _ => .bool
  | .int _ => .int
  | .double _ => .double
  | .kvlistNil | .kvlist _ => .map
  | .arrayNil | .array _ => .array

/-- `AttributeValue.StringVal`. -/
def AnyValue.stringVal : AnyValue F → String
  | .string s => s
  | _ => ""

/-- `AttributeValue.BoolVal`. -/
def AnyValue.boolVal : AnyValue F → Bool
  | .bool b => b
  | _ => false

/-- `AttributeValue.IntVal`. -/
def AnyValue.intVal : AnyValue F → Int64
  | .int n => n
  | _ => 0

/-! ## Copies -/

/-- `dest.Value = …`. -/
def AnyValue.assign (dest v : AnyValue F) : Go (AnyValue F) :=
  match dest with
  | .nil => .error .nilDereference
  | _ => .ok v

/-- What `AttributeValue{&dest}.SetMapVal` and `SetArrayVal` leave in the place of `dest`, a
variable of their caller: where it is nil, they fill a new message that nobody else sees. -/
def AnyValue.replace (dest v : AnyValue F) : AnyValue F :=
  match dest with
  | .nil => .nil
  | _ => v

/-- The elements into which `AnyValueArray.CopyTo` copies `n` others: those of `dest` where there
are enough of them, and new ones otherwise. -/
def AnyValue.room (dest : AnyValue F) (n : Nat) : List (AnyValue F) :=
  match dest with
  | .array vs => if n ≤ vs.length then vs.take n else List.replicate n .null
  | _ => List.replicate n .null

/-- `CopyTo` makes a message where it copies one into a nil element. -/
def AnyValue.ready (src dest : AnyValue F) : AnyValue F :=
  match src, dest with
  | .nil, dest => dest
  | _, .nil => .null
  | _, dest => dest

mutual
/-- `AttributeValue.copyTo`: the message under `dest` after the call. -/
def AnyValue.copyTo : AnyValue F → AnyValue F → Go (AnyValue F)
  | .nil, dest => dest.assign .null
  | .kvlistNil, dest => .ok (dest.replace (.kvlist []))
  | .kvlist vs, dest => do
    let copied ← initFromAttributeMap vs
    return dest.replace (.kvlist copied)
  | .arrayNil, dest => .ok (dest.replace (.array []))
  | .array vs, dest => do
    let copied ← copyElements vs (dest.room vs.length)
    return dest.replace (.array copied)
  | v, dest => dest.assign v

/-- `AttributeMap.InitFromAttributeMap`: the entries that the map has afterwards. -/
def initFromAttributeMap : List (KeyValue F) → Go (List (KeyValue F))
  | [] => .ok []
  | .nil :: _ => .error .nilDereference
  | .mk k v :: kvs => do
    let copied ← v.copyTo .null
    let rest ← initFromAttributeMap kvs
    return .mk k copied :: rest

/-- The loops of `AnyValueArray.CopyTo`, over the source and the elements to copy into. -/
def copyElements : List (AnyValue F) → List (AnyValue F) → Go (List (AnyValue F))
  | [], _ => .ok []
  | v :: vs, dests => do
    let copied ← v.copyTo (v.ready (dests.headD .null))
    let rest ← copyElements vs dests.tail
    return copied :: rest
end

mutual
/-- The value that a pointer stands for: nil is the null value, and a nil message an empty one.
Entries that are nil are not there, as for `ForEach`. -/
def AnyValue.norm : AnyValue F → AnyValue F
  | .nil => .null
  | .kvlistNil => .kvlist []
  | .kvlist vs => .kvlist (normEntries vs)
  | .arrayNil => .array []
  | .array vs => .array (normElements vs)
  | v => v

def normEntries : List (KeyValue F) → List (KeyValue F)
  | [] => []
  | .nil :: kvs => normEntries kvs
  | .mk k v :: kvs => .mk k v.norm :: normEntries kvs

def normElements : List (AnyValue F) → List (AnyValue F)
  | [] => []
  | v :: vs => v.norm :: normElements vs
end

mutual
/-- No repeated field within the value has a nil element, as in any value that was unmarshalled.
Entries may lack their value message. -/
def AnyValue.Whole : AnyValue F → Prop
  | .kvlist vs => WholeEntries vs
  | .array vs => WholeElements vs
  | _ => True

def WholeEntries : List (KeyValue F) → Prop
  | [] => True
  | .nil :: _ => False
  | .mk _ v :: kvs => v.Whole ∧ WholeEntries kvs

def WholeElements : List (AnyValue F) → Prop
  | [] => True
  | .nil :: _ => False
  | v :: vs => v.Whole ∧ WholeElements vs
end

theorem wholeElements_cons {v : AnyValue F} {vs : List (AnyValue F)} :
    WholeElements (v :: vs) ↔ v ≠ .nil ∧ v.Whole ∧ WholeElements vs := by
  cases v <;> simp [WholeElements]

theorem AnyValue.assign_ok {dest : AnyValue F} (h : dest ≠ .nil) (v : AnyValue F) :
    dest.assign v = .ok v := by
  cases dest <;> first | rfl | exact absurd rfl h

theorem AnyValue.replace_ok {dest : AnyValue F} (h : dest ≠ .nil) (v : AnyValue F) :
    dest.replace v = v := by
  cases dest <;> first | rfl | exact absurd rfl h

theorem AnyValue.ready_ne_nil {src : AnyValue F} (h : src ≠ .nil) (dest : AnyValue F) :
    src.ready dest ≠ .nil := by
  cases src <;> cases dest <;> first | exact absurd rfl h | simp [ready]

mutual
/-- **A copy holds the value that was copied**, whatever was there before. -/
theorem AnyValue.copyTo_ok : ∀ {v : AnyValue F}, v.Whole → ∀ {dest : AnyValue F}, dest ≠ .nil →
    v.copyTo dest = .ok v.norm
  | .nil, _, dest, hd => by rw [AnyValue.copyTo, AnyValue.norm, AnyValue.assign_ok hd]
  | .kvlistNil, _, dest, hd => by rw [AnyValue.copyTo, AnyValue.norm, AnyValue.replace_ok hd]
  | .kvlist vs, h, dest, hd => by
    rw [AnyValue.copyTo, AnyValue.norm, initFromAttributeMap_ok h,
      ← AnyValue.replace_ok hd (.kvlist (normEntries vs))]
    rfl
  | .arrayNil, _, dest, hd => by rw [AnyValue.copyTo, AnyValue.norm, AnyValue.replace_ok hd]
  | .array vs, h, dest, hd => by
    rw [AnyValue.copyTo, AnyValue.norm, copyElements_ok h,
      ← AnyValue.replace_ok hd (.array (normElements vs))]
    rfl
  | .null, _, dest, hd | .string _, _, dest, hd | .bool _, _, dest, hd | .int _, _, dest, hd
  | .double _, _, dest, hd => AnyValue.assign_ok hd _

theorem initFromAttributeMap_ok : ∀ {kvs : List (KeyValue F)}, WholeEntries kvs →
    initFromAttributeMap kvs = .ok (normEntries kvs)
  | [], _ => rfl
  | .nil :: _, h => by
    exact h.elim
  | .mk k v :: kvs, h => by
    have hnull : (AnyValue.null : AnyValue F) ≠ .nil := nofun
    rw [initFromAttributeMap, AnyValue.copyTo_ok h.1 hnull, initFromAttributeMap_ok h.2]
    rfl

theorem copyElements_ok : ∀ {vs dests : List (AnyValue F)}, WholeElements vs →
    copyElements vs dests = .ok (normElements vs)
  | [], _, _ => rfl
  | v :: vs, dests, h => by
    obtain ⟨hne, hv, hvs⟩ := wholeElements_cons.1 h
    rw [copyElements, AnyValue.copyTo_ok hv (AnyValue.ready_ne_nil hne _), copyElements_ok hvs]
    rfl
end

mutual
/-- No map within the value has a nil entry. -/
def AnyValue.EntriesPresent : AnyValue F → Prop
  | .kvlist vs => MapPresent vs
  | .array vs => ElementsPresent vs
  | _ => True

def MapPresent : List (KeyValue F) → Prop
  | [] => True
  | .nil :: _ => False
  | .mk _ v :: kvs => v.EntriesPresent ∧ MapPresent kvs

def ElementsPresent : List (AnyValue F) → Prop
  | [] => True
  | v :: vs => v.EntriesPresent ∧ ElementsPresent vs
end

theorem AnyValue.room_null (n : Nat) :
    (AnyValue.null : AnyValue F).room n = List.replicate n .null := rfl

@[simp] theorem AnyValue.ready_null (v : AnyValue F) : v.ready .null = .null := by
  cases v <;> rfl

mutual
/-- **A copy into a new message** fails on nil entries alone: nil elements of an array become
null values. -/
theorem AnyValue.copyTo_null_iff : ∀ {v r : AnyValue F},
    v.copyTo .null = .ok r ↔ v.EntriesPresent ∧ v.norm = r
  | .nil, r | .null, r | .string _, r | .bool _, r | .int _, r | .double _, r
  | .kvlistNil, r | .arrayNil, r => by
    simp [AnyValue.copyTo, AnyValue.assign, AnyValue.replace, AnyValue.EntriesPresent,
      AnyValue.norm]
  | .kvlist vs, r => by
    rw [AnyValue.copyTo, Lib.bind_eq_ok, AnyValue.EntriesPresent, AnyValue.norm]
    simp [initFromAttributeMap_iff, AnyValue.replace, pure, Except.pure]
  | .array vs, r => by
    rw [AnyValue.copyTo, Lib.bind_eq_ok, AnyValue.EntriesPresent, AnyValue.norm,
      AnyValue.room_null]
    simp [copyElements_iff, AnyValue.replace, pure, Except.pure]

theorem initFromAttributeMap_iff : ∀ {kvs r : List (KeyValue F)},
    initFromAttributeMap kvs = .ok r ↔ MapPresent kvs ∧ normEntries kvs = r
  | [], r => by simp [initFromAttributeMap, MapPresent, normEntries]
  | .nil :: _, r => by simp [initFromAttributeMap, MapPresent]
  | .mk k v :: kvs, r => by
    rw [initFromAttributeMap, Lib.bind_eq_ok, MapPresent, normEntries]
    simp [Lib.bind_eq_ok, AnyValue.copyTo_null_iff, initFromAttributeMap_iff, pure, Except.pure,
      and_assoc]

theorem copyElements_iff : ∀ {vs r : List (AnyValue F)},
    copyElements vs (List.replicate vs.length .null) = .ok r ↔
      ElementsPresent vs ∧ normElements vs = r
  | [], r => by simp [copyElements, ElementsPresent, normElements]
  | v :: vs, r => by
    rw [copyElements, Lib.bind_eq_ok, ElementsPresent, normElements]
    simp only [length_cons, replicate_succ, headD_cons, tail_cons,
      AnyValue.ready_null, Lib.bind_eq_ok, AnyValue.copyTo_null_iff, copyElements_iff, pure,
      Except.pure, Except.ok.injEq, and_assoc, exists_and_left, exists_eq_left']
end

theorem AnyValue.norm_ne_nil (v : AnyValue F) : v.norm ≠ .nil := by
  cases v <;> simp [AnyValue.norm]

mutual
theorem AnyValue.norm_norm : ∀ v : AnyValue F, v.norm.norm = v.norm
  | .kvlist vs => by rw [AnyValue.norm, AnyValue.norm, normEntries_normEntries vs]
  | .array vs => by rw [AnyValue.norm, AnyValue.norm, normElements_normElements vs]
  | .nil | .null | .string _ | .bool _ | .int _ | .double _ | .kvlistNil | .arrayNil => by
    simp [AnyValue.norm, normEntries, normElements]

theorem normEntries_normEntries : ∀ kvs : List (KeyValue F),
    normEntries (normEntries kvs) = normEntries kvs
  | [] => rfl
  | .nil :: kvs => by rw [normEntries, normEntries_normEntries kvs]
  | .mk k v :: kvs => by
    rw [normEntries, normEntries, AnyValue.norm_norm v, normEntries_normEntries kvs]

theorem normElements_normElements : ∀ vs : List (AnyValue F),
    normElements (normElements vs) = normElements vs
  | [] => rfl
  | v :: vs => by
    rw [normElements, normElements, AnyValue.norm_norm v, normElements_normElements vs]
end

mutual
theorem whole_norm : ∀ v : AnyValue F, v.norm.Whole
  | .kvlist vs => by
    exact wholeEntries_norm vs
  | .array vs => by
    exact wholeElements_norm vs
  | .nil | .null | .string _ | .bool _ | .int _ | .double _ | .kvlistNil | .arrayNil => by
    simp [AnyValue.norm, AnyValue.Whole, WholeEntries, WholeElements]

theorem wholeEntries_norm : ∀ kvs : List (KeyValue F), WholeEntries (normEntries kvs)
  | [] => trivial
  | .nil :: kvs => wholeEntries_norm kvs
  | .mk _ v :: kvs => ⟨whole_norm v, wholeEntries_norm kvs⟩

theorem wholeElements_norm : ∀ vs : List (AnyValue F), WholeElements (normElements vs)
  | [] => trivial
  | v :: vs => wholeElements_cons.2 ⟨v.norm_ne_nil, whole_norm v, wholeElements_norm vs⟩
end

/-! ## Maps -/

/-- `AttributeMap`, the slice it points to. -/
abbrev AttributeMap (F : Type) := List (KeyValue F)

/-- The test of `Get` and `Delete` on an entry. -/
def KeyValue.hasKey (key : String) : KeyValue F → Bool
  | .nil => false
  | .mk k _ => k == key

namespace AttributeMap

/-- `AttributeMap.Get`. -/
def get : AttributeMap F → String → Option (AnyValue F)
  | [], _ => none
  | .nil :: am, key => get am key
  | .mk k v :: am, key => if k = key then some v else get am key

/-- A write through the reference that `Get` returns. -/
def put : AttributeMap F → String → AnyValue F → AttributeMap F
  | [], _, _ => []
  | .nil :: am, key, v => .nil :: put am key v
  | .mk k w :: am, key, v => if k = key then .mk k v :: am else .mk k w :: put am key v

/-- `AttributeMap.Delete`: the last entry takes the place of the deleted one. -/
def delete (am : AttributeMap F) (key : String) : AttributeMap F × Bool :=
  match am.findIdx? (KeyValue.hasKey key), am.getLast? with
  | some i, some last => ((am.set i last).dropLast, true)
  | _, _ => (am, false)

/-- The inserting functions, with the value message of the new entry. -/
def insertNew (am : AttributeMap F) (k : String) (v : AnyValue F) : AttributeMap F :=
  match am.get k with
  | some _ => am
  | none => am ++ [.mk k v]

/-- The updating functions that set a primitive value; a nil value message is replaced. -/
def updateTo (am : AttributeMap F) (k : String) (v : AnyValue F) : AttributeMap F :=
  match am.get k with
  | some _ => am.put k v
  | none => am

def upsertTo (am : AttributeMap F) (k : String) (v : AnyValue F) : AttributeMap F :=
  match am.get k with
  | some _ => am.put k v
  | none => am ++ [.mk k v]

def insert (am : AttributeMap F) (k : String) (v : AnyValue F) : Go (AttributeMap F) :=
  match am.get k with
  | some _ => .ok am
  | none => do
    let copied ← v.copyTo .null
    return am ++ [.mk k copied]

def insertNull (am : AttributeMap F) (k : String) : AttributeMap F := am.insertNew k .null

def insertString (am : AttributeMap F) (k : String) (v : String) : AttributeMap F :=
  am.insertNew k (.string v)

def insertInt (am : AttributeMap F) (k : String) (v : Int64) : AttributeMap F :=
  am.insertNew k (.int v)

def insertDouble (am : AttributeMap F) (k : String) (v : F) : AttributeMap F :=
  am.insertNew k (.double v)

def insertBool (am : AttributeMap F) (k : String) (v : Bool) : AttributeMap F :=
  am.insertNew k (.bool v)

def update (am : AttributeMap F) (k : String) (v : AnyValue F) : Go (AttributeMap F) :=
  match am.get k with
  | some av => do
    let copied ← v.copyTo av
    return am.put k copied
  | none => .ok am

def updateString (am : AttributeMap F) (k : String) (v : String) : AttributeMap F :=
  am.updateTo k (.string v)

def updateInt (am : AttributeMap F) (k : String) (v : Int64) : AttributeMap F :=
  am.updateTo k (.int v)

def updateDouble (am : AttributeMap F) (k : String) (v : F) : AttributeMap F :=
  am.updateTo k (.double v)

def updateBool (am : AttributeMap F) (k : String) (v : Bool) : AttributeMap F :=
  am.updateTo k (.bool v)

def upsert (am : AttributeMap F) (k : String) (v : AnyValue F) : Go (AttributeMap F) :=
  match am.get k with
  | some av => do
    let copied ← v.copyTo av
    return am.put k copied
  | none => do
    let copied ← v.copyTo .null
    return am ++ [.mk k copied]

def upsertString (am : AttributeMap F) (k : String) (v : String) : AttributeMap F :=
  am.upsertTo k (.string v)

def upsertInt (am : AttributeMap F) (k : String) (v : Int64) : AttributeMap F :=
  am.upsertTo k (.int v)

def upsertDouble (am : AttributeMap F) (k : String) (v : F) : AttributeMap F :=
  am.upsertTo k (.double v)

def upsertBool (am : AttributeMap F) (k : String) (v : Bool) : AttributeMap F :=
  am.upsertTo k (.bool v)

/-! ## What is stored under a key -/

def valuesAt (am : AttributeMap F) (key : String) : List (AnyValue F) :=
  am.filterMap fun
    | .nil => none
    | .mk k v => if k = key then some v else none

@[simp] theorem valuesAt_nil (key : String) : valuesAt ([] : AttributeMap F) key = [] := rfl

variable (am : AttributeMap F)

theorem valuesAt_cons (k key : String) (v : AnyValue F) :
    valuesAt (.mk k v :: am) key = if k = key then v :: valuesAt am key else valuesAt am key := by
  unfold valuesAt
  by_cases h : k = key <;> simp [h]

theorem valuesAt_append (am am' : AttributeMap F) (key : String) :
    valuesAt (am ++ am') key = valuesAt am key ++ valuesAt am' key :=
  filterMap_append

@[elab_as_elim]
theorem induct {motive : AttributeMap F → Prop} (nil : motive [])
    (absent : ∀ am, motive am → motive (.nil :: am))
    (entry : ∀ k v am, motive am → motive (.mk k v :: am)) : ∀ am, motive am
  | [] => nil
  | .nil :: am => absent am (induct nil absent entry am)
  | .mk k v :: am => entry k v am (induct nil absent entry am)

theorem get_eq_head? (key : String) : am.get key = (am.valuesAt key).head? := by
  induction am using induct with
  | nil => rfl
  | absent am ih => exact ih
  | entry k v am ih =>
    rw [get, valuesAt_cons]
    by_cases h : k = key
    · simp [h]
    · simpa [h] using ih

theorem valuesAt_put (key : String) (v : AnyValue F) :
    (am.put key v).valuesAt key = (am.valuesAt key).modifyHead fun _ => v := by
  induction am using induct with
  | nil => rfl
  | absent am ih => exact ih
  | entry k w am ih =>
    rw [put, valuesAt_cons]
    by_cases h : k = key
    · simp [h, valuesAt_cons]
    · simp [h, valuesAt_cons, ih]

theorem valuesAt_put_ne {key key' : String} (hne : key' ≠ key)
    (v : AnyValue F) : (am.put key v).valuesAt key' = am.valuesAt key' := by
  induction am using induct with
  | nil => rfl
  | absent am ih => exact ih
  | entry k w am ih =>
    rw [put]
    by_cases h : k = key
    · have hk : k ≠ key' := fun e => hne (e.symm.trans h)
      simp [h, valuesAt_cons, h ▸ hk]
    · simp [h, valuesAt_cons, ih]

theorem perm_set_dropLast {α : Type} {l : List α} {i : Nat} {last : α} (hi : i < l.length)
    (hlast : l.getLast? = some last) : ((l.set i last).dropLast).Perm (l.eraseIdx i) := by
  obtain ⟨init, rfl⟩ := getLast?_eq_some_iff.1 hlast
  rw [length_append, length_singleton] at hi
  by_cases h : i < init.length
  · rw [set_append_left _ _ h, dropLast_concat, eraseIdx_append_of_lt_length h,
      set_eq_take_append_cons_drop, if_pos h, eraseIdx_eq_take_drop_succ,
      append_assoc]
    exact (perm_append_left_iff _).2 (perm_append_singleton last _).symm
  · obtain rfl : i = init.length := by omega
    simp [set_append_right, eraseIdx_append_of_length_le]

/-- `Delete` takes out the first entry under the key; the others may change places. -/
theorem delete_perm (key : String) : (am.delete key).1.Perm (am.eraseP (KeyValue.hasKey key)) := by
  unfold delete
  cases hi : am.findIdx? (KeyValue.hasKey key) with
  | none =>
    have hno : ∀ kv ∈ am, ¬ KeyValue.hasKey key kv = true := by
      simpa using findIdx?_eq_none_iff.1 hi
    rw [eraseP_of_forall_not hno]
  | some i =>
    obtain ⟨hlt, -, -⟩ := findIdx?_eq_some_iff_getElem.1 hi
    have hne : am ≠ [] := ne_nil_of_length_pos (by omega)
    rw [getLast?_eq_some_getLast hne, eraseP_eq_eraseIdx, hi]
    exact perm_set_dropLast hlt (getLast?_eq_some_getLast hne)

end AttributeMap

end Collector.Pdata
