import Collector.Pdata.Attributes

/-!
# The attribute processor

`processor/processorhelper/attraction.go` and `hasher.go`: `NewAttrProc` checks the
configured actions, and `Process` runs them over an attribute map, one after the other.
The hash, the regular expressions, the bits of a `float64` and lower case are taken
from the standard library (`Library`).
-/

namespace Collector.Processor

open Pdata

/-- `*regexp.Regexp`. A match has one text for each subexpression. -/
structure Regexp where
  subexpNames : List String
  findStringSubmatch : String → Option (List String)
  length_match : ∀ {s ms}, findStringSubmatch s = some ms → ms.length = subexpNames.length

/-- What the processor takes from the standard library. -/
structure Library (F : Type) where
  toLower : String → String
  regexpCompile : String → Option Regexp
  /-- The SHA-1 sum in hexadecimal. -/
  sha1Hex : List UInt8 → String
  float64bits : F → UInt64

/-- A library whose hash is a constant and which compiles no pattern. -/
def plainLibrary : Library Int where
  toLower := id
  regexpCompile _ := none
  sha1Hex _ := "da39"
  float64bits _ := 0

variable {F : Type}

/-! ## Configuration -/

/-- The `interface{}` of a configured value. -/
inductive RawValue (F : Type) where
  | int (n : Int)
  | double (x : F)
  | string (s : String)
  | bool (b : Bool)
  | other (typeName : String)

/-- `filterhelper.NewAttributeValueRaw`. -/
def newAttributeValueRaw : RawValue F → Except String (AnyValue F)
  | .int n => .ok (.int (.ofInt n))
  | .double x => .ok (.double x)
  | .string s => .ok (.string s)
  | .bool b => .ok (.bool b)
  | .other typeName => .error ("error unsupported value type \"" ++ typeName ++ "\"")

structure ActionKeyValue (F : Type) where
  key : String
  value : Option (RawValue F) := none
  regexPattern : String := ""
  fromAttribute : String := ""
  action : String

structure Settings (F : Type) where
  actions : List (ActionKeyValue F)

inductive Action where
  | insert | update | upsert | delete | hash | extract
  deriving DecidableEq, Repr

def Action.asString : Action → String
  | insert => "insert"
  | update => "update"
  | upsert => "upsert"
  | delete => "delete"
  | hash => "hash"
  | extract => "extract"

def Action.ofString : String → Option Action
  | "insert" => some insert
  | "update" => some update
  | "upsert" => some upsert
  | "delete" => some delete
  | "hash" => some hash
  | "extract" => some extract
  | _ => none

structure AttributeAction (F : Type) where
  key : String
  fromAttribute : String := ""
  regex : Option Regexp := none
  attrNames : List String := []
  action : Action
  attributeValue : Option (AnyValue F) := none

structure AttrProc (F : Type) where
  actions : List (AttributeAction F)

/-- The case `INSERT, UPDATE, UPSERT` of `NewAttrProc`. -/
def newWrite (i : Nat) (a : ActionKeyValue F) (action : Action) :
    Except String (AttributeAction F) :=
  if a.value.isNone ∧ a.fromAttribute = "" then
    .error ("error creating AttrProc. Either field \"value\" or \"from_attribute\" setting must " ++
      "be specified for " ++ toString i ++ "-th action")
  else if a.value.isSome ∧ a.fromAttribute ≠ "" then
    .error ("error creating AttrProc due to both fields \"value\" and \"from_attribute\" being " ++
      "set at the " ++ toString i ++ "-th actions")
  else if a.regexPattern ≠ "" then
    .error ("error creating AttrProc. Action \"" ++ action.asString ++ "\" does not use the " ++
      "\"pattern\" field. This must not be specified for " ++ toString i ++ "-th action")
  else match a.value with
    | some raw => do
      let val ← newAttributeValueRaw raw
      return { key := a.key, action, attributeValue := some val }
    | none => .ok { key := a.key, action, fromAttribute := a.fromAttribute }

/-- The case `HASH, DELETE`. -/
def newErase (i : Nat) (a : ActionKeyValue F) (action : Action) :
    Except String (AttributeAction F) :=
  if a.value.isSome ∨ a.fromAttribute ≠ "" ∨ a.regexPattern ≠ "" then
    .error ("error creating AttrProc. Action \"" ++ action.asString ++ "\" does not use " ++
      "\"value\", \"pattern\" or \"from_attribute\" field. These must not be specified for " ++
      toString i ++ "-th action")
  else .ok { key := a.key, action }

/-- The case `EXTRACT`. -/
def newExtract (lib : Library F) (i : Nat) (a : ActionKeyValue F) :
    Except String (AttributeAction F) :=
  if a.value.isSome ∨ a.fromAttribute ≠ "" then
    .error ("error creating AttrProc. Action \"" ++ Action.extract.asString ++ "\" does not use " ++
      "\"value\" or \"from_attribute\" field. These must not be specified for " ++ toString i ++
      "-th action")
  else if a.regexPattern = "" then
    .error ("error creating AttrProc due to missing required field \"pattern\" for action \"" ++
      Action.extract.asString ++ "\" at the " ++ toString i ++ "-th action")
  else match lib.regexpCompile a.regexPattern with
    | none =>
      .error ("error creating AttrProc. Field \"pattern\" has invalid pattern: \"" ++
        a.regexPattern ++ "\" to be set at the " ++ toString i ++ "-th actions")
    | some re =>
      if re.subexpNames.length ≤ 1 then
        .error ("error creating AttrProc. Field \"pattern\" contains no named matcher groups at " ++
          "the " ++ toString i ++ "-th actions")
      else if "" ∈ re.subexpNames.tail then
        .error ("error creating AttrProc. Field \"pattern\" contains at least one unnamed " ++
          "matcher group at the " ++ toString i ++ "-th actions")
      else .ok { key := a.key, action := .extract, regex := some re, attrNames := re.subexpNames }

/-- One round of the loop in `NewAttrProc`. -/
def newAttributeAction (lib : Library F) (i : Nat) (a : ActionKeyValue F) :
    Except String (AttributeAction F) :=
  if a.key = "" then
    .error ("error creating AttrProc due to missing required field \"key\" at the " ++
      toString i ++ "-th actions")
  else match Action.ofString (lib.toLower a.action) with
    | some .insert => newWrite i a .insert
    | some .update => newWrite i a .update
    | some .upsert => newWrite i a .upsert
    | some .hash => newErase i a .hash
    | some .delete => newErase i a .delete
    | some .extract => newExtract lib i a
    | none =>
      .error ("error creating AttrProc due to unsupported action " ++
        quoted (lib.toLower a.action) ++ " at the " ++ toString i ++ "-th actions")

/-- The loop, from the `i`-th action on. -/
def newAttributeActions (lib : Library F) :
    Nat → List (ActionKeyValue F) → Except String (List (AttributeAction F))
  | _, [] => .ok []
  | i, a :: as => do
    let action ← newAttributeAction lib i a
    let rest ← newAttributeActions lib (i + 1) as
    return action :: rest

def newAttrProc (lib : Library F) (settings : Settings F) : Except String (AttrProc F) := do
  let actions ← newAttributeActions lib 0 settings.actions
  return { actions }

/-! ## Processing -/

def getSourceAttributeValue (action : AttributeAction F) (attrs : AttributeMap F) :
    Option (AnyValue F) :=
  match action.attributeValue with
  | some v => some v
  | none => attrs.get action.fromAttribute

/-- `binary.LittleEndian.PutUint64`. -/
def putUint64 (u : UInt64) : List UInt8 :=
  (List.range 8).map fun i => (u >>> (8 * UInt64.ofNat i)).toUInt8

/-- The bytes of a value that `sha1Hasher` hashes. -/
def hashedBytes (lib : Library F) : AnyValue F → List UInt8
  | .string s => s.toUTF8.toList
  | .bool b => [if b then 1 else 0]
  | .int n => putUint64 n.toUInt64
  | .double x => putUint64 (lib.float64bits x)
  | _ => []

/-- `sha1Hasher`: the value that replaces another one. -/
def sha1Hasher (lib : Library F) (v : AnyValue F) : AnyValue F :=
  .string (match hashedBytes lib v with
    | [] => ""
    | bytes => lib.sha1Hex bytes)

def hashAttribute (lib : Library F) (action : AttributeAction F) (attrs : AttributeMap F) :
    AttributeMap F :=
  match attrs.get action.key with
  | some v => attrs.put action.key (sha1Hasher lib v)
  | none => attrs

/-- The loop of `extractAttributes`, over the names and the texts of the subexpressions. -/
def upsertMatches : List String → List String → AttributeMap F → Go (AttributeMap F)
  | _, [], attrs => .ok attrs
  | [], _ :: _, _ => .error .indexOutOfRange
  | name :: names, m :: ms, attrs => upsertMatches names ms (attrs.upsertString name m)

def extractAttributes (action : AttributeAction F) (attrs : AttributeMap F) :
    Go (AttributeMap F) :=
  match attrs.get action.key with
  | some (.string s) => do
    let re ← deref action.regex
    match re.findStringSubmatch s with
    | none => .ok attrs
    -- index 0 is the entire match
    | some ms => upsertMatches action.attrNames.tail ms.tail attrs
  | _ => .ok attrs

/-- One round of the loop in `Process`. -/
def AttributeAction.apply (lib : Library F) (attrs : AttributeMap F) (action : AttributeAction F) :
    Go (AttributeMap F) :=
  match action.action with
  | .delete => .ok (attrs.delete action.key).1
  | .insert =>
    match getSourceAttributeValue action attrs with
    | none => .ok attrs
    | some av => attrs.insert action.key av
  | .update =>
    match getSourceAttributeValue action attrs with
    | none => .ok attrs
    | some av => attrs.update action.key av
  | .upsert =>
    match getSourceAttributeValue action attrs with
    | none => .ok attrs
    | some av => attrs.upsert action.key av
  | .hash => .ok (hashAttribute lib action attrs)
  | .extract => extractAttributes action attrs

/-- `AttrProc.Process`. -/
def AttrProc.process (lib : Library F) (ap : AttrProc F) (attrs : AttributeMap F) :
    Go (AttributeMap F) :=
  ap.actions.foldlM (AttributeAction.apply lib) attrs

variable {lib : Library F} {am : AttributeMap F}

theorem process_cons {a : AttributeAction F} {am₁ : AttributeMap F} (h : a.apply lib am = .ok am₁)
    (actions : List (AttributeAction F)) :
    AttrProc.process lib ⟨a :: actions⟩ am = AttrProc.process lib ⟨actions⟩ am₁ := by
  show List.foldlM _ am (a :: actions) = List.foldlM _ am₁ actions
  rw [List.foldlM_cons, h]
  rfl

theorem process_cons_ok {a : AttributeAction F} {actions : List (AttributeAction F)}
    {am' : AttributeMap F} (h : AttrProc.process lib ⟨a :: actions⟩ am = .ok am') :
    ∃ am₁, a.apply lib am = .ok am₁ ∧ AttrProc.process lib ⟨actions⟩ am₁ = .ok am' := by
  rw [AttrProc.process, List.foldlM_cons] at h
  exact Lib.bind_eq_ok.1 h

theorem process_append {pre : List (AttributeAction F)} {am₁ : AttributeMap F}
    (h : AttrProc.process lib ⟨pre⟩ am = .ok am₁) (actions : List (AttributeAction F)) :
    AttrProc.process lib ⟨pre ++ actions⟩ am = AttrProc.process lib ⟨actions⟩ am₁ := by
  unfold AttrProc.process at h ⊢
  rw [List.foldlM_append, h]
  rfl

/-! ## What `NewAttrProc` guarantees -/

/-- A constant has one of the four primitive types, and a regular expression comes with the names
of its subexpressions. -/
structure AttributeAction.Valid (a : AttributeAction F) : Prop where
  constant : ∀ v, a.attributeValue = some v → v.Whole ∧ v.norm = v
  compiled : a.action = .extract → ∃ re, a.regex = some re ∧ a.attrNames = re.subexpNames

theorem newAttributeValueRaw_ok {raw : RawValue F} {v : AnyValue F}
    (h : newAttributeValueRaw raw = .ok v) : v.Whole ∧ v.norm = v := by
  cases raw <;> cases h <;> simp [AnyValue.Whole, AnyValue.norm]

variable {i : Nat} {a : ActionKeyValue F} {b : AttributeAction F}

theorem newWrite_valid {action : Action} (hact : action ≠ .extract)
    (h : newWrite i a action = .ok b) : b.Valid := by
  unfold newWrite at h
  split_ifs at h
  cases hv : a.value with
  | none =>
    rw [hv] at h
    cases h
    exact ⟨nofun, fun e => absurd e hact⟩
  | some raw =>
    rw [hv] at h
    cases hraw : newAttributeValueRaw raw with
    | error e => simp only [hraw] at h; cases h
    | ok v =>
      simp only [hraw] at h
      cases h
      refine ⟨fun w hw => ?_, fun e => absurd e hact⟩
      cases hw
      exact newAttributeValueRaw_ok hraw

theorem newErase_valid {action : Action} (hact : action ≠ .extract)
    (h : newErase i a action = .ok b) : b.Valid := by
  unfold newErase at h
  split_ifs at h
  cases h
  exact ⟨nofun, fun e => absurd e hact⟩

theorem newExtract_valid (h : newExtract lib i a = .ok b) : b.Valid := by
  unfold newExtract at h
  split_ifs at h
  cases hre : lib.regexpCompile a.regexPattern with
  | none => simp [hre] at h
  | some re =>
    simp only [hre] at h
    split_ifs at h
    cases h
    exact ⟨nofun, fun _ => ⟨re, rfl, rfl⟩⟩

theorem newAttributeAction_valid (h : newAttributeAction lib i a = .ok b) : b.Valid := by
  unfold newAttributeAction at h
  split_ifs at h
  split at h
  case h_1 | h_2 | h_3 => exact newWrite_valid (by decide) h
  case h_4 | h_5 => exact newErase_valid (by decide) h
  · exact newExtract_valid h
  · cases h

theorem newAttributeActions_valid {as : List (ActionKeyValue F)}
    {actions : List (AttributeAction F)} (h : newAttributeActions lib i as = .ok actions) :
    ∀ b ∈ actions, b.Valid := by
  induction as generalizing i actions with
  | nil =>
    cases h
    nofun
  | cons a as ih =>
    rw [newAttributeActions] at h
    obtain ⟨b, ha, h⟩ := Lib.bind_eq_ok.1 h
    obtain ⟨rest, has, h⟩ := Lib.bind_eq_ok.1 h
    cases h
    exact List.forall_mem_cons.2 ⟨newAttributeAction_valid ha, ih has⟩

theorem newAttrProc_valid {settings : Settings F} {ap : AttrProc F}
    (h : newAttrProc lib settings = .ok ap) : ∀ b ∈ ap.actions, b.Valid := by
  unfold newAttrProc at h
  obtain ⟨actions, has, h⟩ := Lib.bind_eq_ok.1 h
  cases h
  exact newAttributeActions_valid has

end Collector.Processor
