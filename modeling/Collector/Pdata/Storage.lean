import Collector.Lib.Memory
import Collector.Pdata.Attributes

/-!
# The storage of attributes

Copies of attributes in memory, from `consumer/pdata/common.go` and
`generated_common.go`. The objects are the messages `AnyValue` and `KeyValue` and the
slices of pointers to them; a map or an array is a pointer to its slice. A slice is
its elements: no two slices share an array. The wrappers of the `oneof` belong to
their message; those of primitive values are shared between copies, but no function
writes into one.

`AnyValue.At`, `EntriesAt` and `ElementsAt` say which tree of `Pdata.Attributes` a pointer
stands for, and on which objects.
-/

namespace Collector.Pdata

open List

inductive Kind where
  /-- `otlpcommon.AnyValue` -/
  | value
  /-- `otlpcommon.KeyValue` -/
  | entry
  /-- `[]*otlpcommon.KeyValue`, in a `KeyValueList` or on its own -/
  | entries
  /-- `[]*otlpcommon.AnyValue`, in an `ArrayValue` or on its own -/
  | elements
  deriving DecidableEq, Repr

variable {F : Type}

/-- The `oneof` of an `AnyValue`. -/
inductive Content (F : Type) where
  | null
  | string (s : String)
  | bool (b : Bool)
  | int (n : Int64)
  | double (x : F)
  | kvlist (list : Option Nat)
  | array (list : Option Nat)

def Content.entries : Content F → Option Nat
  | .kvlist list => list
  | _ => none

def Content.elements : Content F → Option Nat
  | .array list => list
  | _ => none

structure Entry where
  key : String
  value : Option Nat

def Object (F : Type) : Kind → Type
  | .value => Content F
  | .entry => Entry
  | .entries => List (Option Nat)
  | .elements => List (Option Nat)

abbrev Place := Lib.Place Kind

abbrev Storage (F : Type) := Lib.Memory (Object F)

namespace Storage

/-- `*p`. -/
def get (m : Storage F) (k : Kind) (p : Option Nat) : Go (Object F k) :=
  match p with
  | some a => deref (m.read ⟨k, a⟩)
  | none => .error .nilDereference

/-- `dest.Value = …`. -/
def assign (m : Storage F) (dest : Option Nat) (c : Content F) : Go (Storage F) :=
  match dest with
  | some d => .ok (m.write ⟨.value, d⟩ c)
  | none => .error .nilDereference

/-- `if *a.orig == nil { *a.orig = &AnyValue{} }`. -/
def orNew (m : Storage F) : Option Nat → Storage F × Nat
  | some a => (m, a)
  | none => m.alloc .value .null

/-! ## Copying one level

`copy` is `AttributeValue.copyTo`, for the values below. -/

section Copy

variable (copy : Storage F → Option Nat → Option Nat → Go (Storage F))

/-- The loop of `InitFromAttributeMap`, and of `AttributeMap.CopyTo` where it allocates: the
pointers to the new entries. -/
def newEntries : Storage F → List (Option Nat) → Go (Storage F × List (Option Nat))
  | m, [] => .ok (m, [])
  | m, e :: es => do
    let (kv : Entry) ← m.get .entry e
    let value := m.alloc .value .null
    let entry := value.1.alloc .entry ⟨kv.key, some value.2⟩
    let m ← copy entry.1 kv.value (some value.2)
    let rest ← newEntries m es
    return (rest.1, some entry.2 :: rest.2)

/-- `AttributeMap.InitFromAttributeMap`. -/
def initFromAttributeMap (m : Storage F) (am attrMap : Nat) : Go (Storage F) := do
  let es ← m.get .entries (some attrMap)
  let rest ← newEntries copy m es
  return rest.1.write ⟨.entries, am⟩ rest.2

/-- `AttributeValue.SetMapVal`. -/
def setMapVal (m : Storage F) (a : Option Nat) (attrMap : Nat) : Go (Storage F) := do
  let a := m.orNew a
  let (v : Content F) ← a.1.get .value (some a.2)
  match v.entries with
  | some dest => initFromAttributeMap copy a.1 dest attrMap
  | none =>
    let dest := a.1.alloc .entries []
    initFromAttributeMap copy (dest.1.write ⟨.value, a.2⟩ (.kvlist (some dest.2))) dest.2 attrMap

/-- `CopyTo` into the `i`-th element of a slice; a message is made for it where there is none. -/
def copyToElement (m : Storage F) (el : Option Nat) (dest i : Nat) : Go (Storage F) := do
  let (ds : List (Option Nat)) ← m.get .elements (some dest)
  let d ← index ds i
  if el.isSome ∧ d.isNone then
    let new := m.alloc .value .null
    copy (new.1.write ⟨.elements, dest⟩ (ds.set i (some new.2))) el (some new.2)
  else copy m el d

/-- The loop of `AnyValueArray.CopyTo` that reuses the elements of `dest`. -/
def reuseElements (dest : Nat) : Nat → Storage F → List (Option Nat) → Go (Storage F)
  | _, m, [] => .ok m
  | i, m, el :: els => do
    let m ← copyToElement copy m el dest i
    reuseElements dest (i + 1) m els

/-- The loop of `AnyValueArray.CopyTo` that allocates. -/
def newElements : Storage F → List (Option Nat) → Go (Storage F × List (Option Nat))
  | m, [] => .ok (m, [])
  | m, el :: els => do
    let wrapper := m.alloc .value .null
    let m ← copy wrapper.1 el (some wrapper.2)
    let rest ← newElements m els
    return (rest.1, some wrapper.2 :: rest.2)

/-- `AnyValueArray.CopyTo`. -/
def copyArray (m : Storage F) (es dest : Nat) : Go (Storage F) := do
  let (els : List (Option Nat)) ← m.get .elements (some es)
  if els.length = 0 then
    return m.write ⟨.elements, dest⟩ []
  let (old : List (Option Nat)) ← m.get .elements (some dest)
  if els.length ≤ old.length then
    reuseElements copy dest 0 (m.write ⟨.elements, dest⟩ (old.take els.length)) els
  else
    let wrappers ← newElements copy m els
    return wrappers.1.write ⟨.elements, dest⟩ wrappers.2

/-- `AttributeValue.SetArrayVal`. -/
def setArrayVal (m : Storage F) (a : Option Nat) (arr : Nat) : Go (Storage F) := do
  let a := m.orNew a
  let (v : Content F) ← a.1.get .value (some a.2)
  match v.elements with
  | some dest => copyArray copy a.1 arr dest
  | none =>
    let dest := a.1.alloc .elements []
    copyArray copy (dest.1.write ⟨.value, a.2⟩ (.array (some dest.2))) arr dest.2

/-- The body of `AttributeValue.copyTo`. -/
def copyValue (m : Storage F) (a dest : Option Nat) : Go (Storage F) :=
  match a with
  | none => m.assign dest .null
  | some a => do
    match ← m.get .value (some a) with
    | .kvlist none =>
      let empty := m.alloc .entries []
      setMapVal copy empty.1 dest empty.2
    | .kvlist (some list) => setMapVal copy m dest list
    | .array none =>
      let empty := m.alloc .elements []
      setArrayVal copy empty.1 dest empty.2
    | .array (some list) => setArrayVal copy m dest list
    | c => m.assign dest c

/-- The body of the loop of `AttributeMap.CopyTo` that reuses the entries of `dest`. -/
def copyToEntry (m : Storage F) (e : Option Nat) (dest i : Nat) : Go (Storage F) := do
  let (ds : List (Option Nat)) ← m.get .entries (some dest)
  match ← index ds i with
  | none => .error .nilDereference
  | some d =>
    let (kv : Entry) ← m.get .entry e
    let (old : Entry) ← m.get .entry (some d)
    let m := m.write ⟨.entry, d⟩ ⟨kv.key, old.value⟩
    match old.value with
    | some v => copy m kv.value (some v)
    | none =>
      let value := m.alloc .value .null
      copy (value.1.write ⟨.entry, d⟩ ⟨kv.key, some value.2⟩) kv.value (some value.2)

def reuseEntries (dest : Nat) : Nat → Storage F → List (Option Nat) → Go (Storage F)
  | _, m, [] => .ok m
  | i, m, e :: es => do
    let m ← copyToEntry copy m e dest i
    reuseEntries dest (i + 1) m es

/-- `AttributeMap.CopyTo`. -/
def copyMap (m : Storage F) (am dest : Nat) : Go (Storage F) := do
  let (es : List (Option Nat)) ← m.get .entries (some am)
  if es.length = 0 then
    return m.write ⟨.entries, dest⟩ []
  let (old : List (Option Nat)) ← m.get .entries (some dest)
  if es.length ≤ old.length then
    reuseEntries copy dest 0 (m.write ⟨.entries, dest⟩ (old.take es.length)) es
  else
    let wrappers ← newEntries copy m es
    return wrappers.1.write ⟨.entries, dest⟩ wrappers.2

end Copy

/-- `AttributeValue.copyTo`, with room on the stack for `n` calls within one another. A value that
holds itself is copied until there is no room left. -/
def copyTo : Nat → Storage F → Option Nat → Option Nat → Go (Storage F)
  | 0, _, _, _ => .error .stackOverflow
  | n + 1, m, a, dest => copyValue (copyTo n) m a dest

end Storage

/-! ## Trees in memory -/

/-- The value of a message that points to nothing. -/
def Content.plain : Content F → Option (AnyValue F)
  | .null => some .null
  | .string s => some (.string s)
  | .bool b => some (.bool b)
  | .int n => some (.int n)
  | .double x => some (.double x)
  | .kvlist none => some .kvlistNil
  | .array none => some .arrayNil
  | .kvlist (some _) | .array (some _) => none

mutual
/-- The pointer stands for the value, on the objects of the list. -/
inductive AnyValue.At (m : Storage F) : AnyValue F → Option Nat → List Place → Prop where
  | nil : AnyValue.At m .nil none []
  | plain {a : Nat} {c : Content F} {v : AnyValue F} (ha : m.read ⟨.value, a⟩ = some c)
      (hc : c.plain = some v) : AnyValue.At m v (some a) [⟨.value, a⟩]
  | kvlist {a list : Nat} {es : List (Option Nat)} {kvs : List (KeyValue F)} {T : List Place}
      (ha : m.read ⟨.value, a⟩ = some (.kvlist (some list)))
      (hlist : m.read ⟨.entries, list⟩ = some es) (hes : EntriesAt m kvs es T) :
      AnyValue.At m (.kvlist kvs) (some a) (⟨.value, a⟩ :: ⟨.entries, list⟩ :: T)
  | array {a list : Nat} {ps : List (Option Nat)} {vs : List (AnyValue F)} {T : List Place}
      (ha : m.read ⟨.value, a⟩ = some (.array (some list)))
      (hlist : m.read ⟨.elements, list⟩ = some ps) (hps : ElementsAt m vs ps T) :
      AnyValue.At m (.array vs) (some a) (⟨.value, a⟩ :: ⟨.elements, list⟩ :: T)

inductive EntriesAt (m : Storage F) :
    List (KeyValue F) → List (Option Nat) → List Place → Prop where
  | nil : EntriesAt m [] [] []
  | skip {es : List (Option Nat)} {kvs : List (KeyValue F)} {T : List Place}
      (hes : EntriesAt m kvs es T) : EntriesAt m (.nil :: kvs) (none :: es) T
  | cons {e : Nat} {k : String} {p : Option Nat} {v : AnyValue F} {es : List (Option Nat)}
      {kvs : List (KeyValue F)} {T U : List Place} (he : m.read ⟨.entry, e⟩ = some ⟨k, p⟩)
      (hv : AnyValue.At m v p T) (hes : EntriesAt m kvs es U) :
      EntriesAt m (.mk k v :: kvs) (some e :: es) (⟨.entry, e⟩ :: (T ++ U))

inductive ElementsAt (m : Storage F) :
    List (AnyValue F) → List (Option Nat) → List Place → Prop where
  | nil : ElementsAt m [] [] []
  | cons {p : Option Nat} {v : AnyValue F} {ps : List (Option Nat)} {vs : List (AnyValue F)}
      {T U : List Place} (hv : AnyValue.At m v p T) (hps : ElementsAt m vs ps U) :
      ElementsAt m (v :: vs) (p :: ps) (T ++ U)
end

@[simp] theorem Content.plain_ne_nil (c : Content F) : c.plain ≠ some .nil := by
  rcases c with _ | _ | _ | _ | _ | (_ | _) | (_ | _) <;> simp [plain]

theorem Content.slices_of_plain {c : Content F} {v : AnyValue F} (h : c.plain = some v) :
    c.entries = none ∧ c.elements = none ∧ ∀ n, v.room n = List.replicate n .null := by
  rcases c with _ | _ | _ | _ | _ | (_ | _) | (_ | _) <;> cases h <;> exact ⟨rfl, rfl, fun _ => rfl⟩

variable {m : Storage F} {S : List Place}

theorem AnyValue.At.pointer {v : AnyValue F} {p : Option Nat}
    (h : v.At m p S) : (v = .nil ∧ p = none ∧ S = []) ∨ (v ≠ .nil ∧ ∃ a, p = some a) := by
  cases h with
  | nil => exact .inl ⟨rfl, rfl, rfl⟩
  | plain _ hc =>
    refine .inr ⟨?_, _, rfl⟩
    rintro rfl
    exact Content.plain_ne_nil _ hc
  | kvlist | array => exact .inr ⟨by simp, _, rfl⟩

section Frame

variable {m m' : Storage F}

mutual
theorem AnyValue.At.has {v : AnyValue F} {p : Option Nat} {S : List Place} (h : v.At m p S) :
    ∀ x ∈ S, m.Has x := by
  cases h with
  | nil => simp
  | plain ha _ => exact forall_mem_singleton.2 (Lib.Memory.has_of_read ha)
  | kvlist ha hlist hes =>
    exact forall_mem_cons.2 ⟨Lib.Memory.has_of_read ha,
      forall_mem_cons.2 ⟨Lib.Memory.has_of_read hlist, hes.has⟩⟩
  | array ha hlist hps =>
    exact forall_mem_cons.2 ⟨Lib.Memory.has_of_read ha,
      forall_mem_cons.2 ⟨Lib.Memory.has_of_read hlist, hps.has⟩⟩

theorem EntriesAt.has {kvs : List (KeyValue F)} {es : List (Option Nat)} {S : List Place}
    (h : EntriesAt m kvs es S) : ∀ x ∈ S, m.Has x := by
  cases h with
  | nil => simp
  | skip hes => exact hes.has
  | cons he hv hes =>
    exact forall_mem_cons.2 ⟨Lib.Memory.has_of_read he,
      forall_mem_append.2 ⟨hv.has, hes.has⟩⟩

theorem ElementsAt.has {vs : List (AnyValue F)} {ps : List (Option Nat)} {S : List Place}
    (h : ElementsAt m vs ps S) : ∀ x ∈ S, m.Has x := by
  cases h with
  | nil => simp
  | cons hv hps => exact forall_mem_append.2 ⟨hv.has, hps.has⟩
end

mutual
theorem AnyValue.At.congr {v : AnyValue F} {p : Option Nat} {S : List Place} (h : v.At m p S)
    (hread : ∀ x ∈ S, m'.read x = m.read x) : v.At m' p S := by
  cases h with
  | nil => exact .nil
  | plain ha hc => exact .plain ((hread _ mem_cons_self).trans ha) hc
  | kvlist ha hlist hes =>
    obtain ⟨hra, hread⟩ := forall_mem_cons.1 hread
    obtain ⟨hrl, hread⟩ := forall_mem_cons.1 hread
    exact .kvlist (hra.trans ha) (hrl.trans hlist) (hes.congr hread)
  | array ha hlist hps =>
    obtain ⟨hra, hread⟩ := forall_mem_cons.1 hread
    obtain ⟨hrl, hread⟩ := forall_mem_cons.1 hread
    exact .array (hra.trans ha) (hrl.trans hlist) (hps.congr hread)

theorem EntriesAt.congr {kvs : List (KeyValue F)} {es : List (Option Nat)} {S : List Place}
    (h : EntriesAt m kvs es S) (hread : ∀ x ∈ S, m'.read x = m.read x) :
    EntriesAt m' kvs es S := by
  cases h with
  | nil => exact .nil
  | skip hes => exact .skip (hes.congr hread)
  | cons he hv hes =>
    obtain ⟨hre, hread⟩ := forall_mem_cons.1 hread
    obtain ⟨hrT, hrU⟩ := forall_mem_append.1 hread
    exact .cons (hre.trans he) (hv.congr hrT) (hes.congr hrU)

theorem ElementsAt.congr {vs : List (AnyValue F)} {ps : List (Option Nat)} {S : List Place}
    (h : ElementsAt m vs ps S) (hread : ∀ x ∈ S, m'.read x = m.read x) :
    ElementsAt m' vs ps S := by
  cases h with
  | nil => exact .nil
  | cons hv hps =>
    obtain ⟨hrT, hrU⟩ := forall_mem_append.1 hread
    exact .cons (hv.congr hrT) (hps.congr hrU)
end

end Frame

variable {kvs : List (KeyValue F)} {vs : List (AnyValue F)} {es ps : List (Option Nat)}

theorem EntriesAt.length_eq (h : EntriesAt m kvs es S) : es.length = kvs.length := by
  induction kvs generalizing es S with
  | nil =>
    cases h
    rfl
  | cons kv kvs ih =>
    cases h with
    | skip hes | cons _ _ hes => exact congrArg Nat.succ (ih hes)

theorem ElementsAt.length_eq (h : ElementsAt m vs ps S) : ps.length = vs.length := by
  induction vs generalizing ps S with
  | nil =>
    cases h
    rfl
  | cons v vs ih =>
    cases h with
    | cons _ hps => exact congrArg Nat.succ (ih hps)

theorem EntriesAt.take (h : EntriesAt m kvs es S) (n : Nat) :
    ∃ T, EntriesAt m (kvs.take n) (es.take n) T ∧ T.Sublist S := by
  induction n generalizing kvs es S with
  | zero => exact ⟨[], .nil, nil_sublist S⟩
  | succ n ih =>
    cases h with
    | nil => exact ⟨[], .nil, nil_sublist []⟩
    | skip hes =>
      obtain ⟨T, hT, hsub⟩ := ih hes
      exact ⟨T, .skip hT, hsub⟩
    | cons he hv hes =>
      obtain ⟨U, hU, hsub⟩ := ih hes
      exact ⟨_, .cons he hv hU, (hsub.append_left _).cons_cons _⟩

theorem ElementsAt.take (h : ElementsAt m vs ps S) (n : Nat) :
    ∃ T, ElementsAt m (vs.take n) (ps.take n) T ∧ T.Sublist S := by
  induction n generalizing vs ps S with
  | zero => exact ⟨[], .nil, nil_sublist S⟩
  | succ n ih =>
    cases h with
    | nil => exact ⟨[], .nil, nil_sublist []⟩
    | cons hv hps =>
      obtain ⟨U, hU, hsub⟩ := ih hps
      exact ⟨_, .cons hv hU, hsub.append_left _⟩

/-- The map whose slice is `am` holds the entries. -/
def MapAt (m : Storage F) (kvs : List (KeyValue F)) (am : Nat) (S : List Place) : Prop :=
  ∃ es T, S = ⟨.entries, am⟩ :: T ∧ m.read ⟨.entries, am⟩ = some es ∧ EntriesAt m kvs es T

end Collector.Pdata
