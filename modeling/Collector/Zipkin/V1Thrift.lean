import Collector.Zipkin.Spelling

/-!
# Zipkin v1 in thrift

The binary annotations and the endpoints of `zipkinv1_thrift_to_protospan.go`; the messages are
those of `github.com/jaegertracing/jaeger/thrift-gen/zipkincore`. Numbers of two and four bytes are
read without their sign, and the port with one (`thrift_numbers_iff`).
-/

namespace Collector.Zipkin.V1

open Lib
open OpenCensus (AttributeValue)
open Translator

namespace Thrift

inductive AnnotationType where
  | bool | bytes | i16 | i32 | i64 | double | string
  | unrecognized (n : Int64)

structure Endpoint where
  ipv4 : Int32
  port : Int16
  serviceName : String
  ipv6 : List UInt8

structure BinaryAnnotation where
  key : String
  value : List UInt8
  annotationType : AnnotationType
  host : Option Endpoint

/-- What the translation takes from the standard library. -/
structure Library (F : Type) where
  /-- `base64.StdEncoding.EncodeToString`. -/
  base64 : List UInt8 → String
  /-- `math.Float64frombits`. -/
  float64frombits : UInt64 → F
  /-- `string(b)`. -/
  bytesString : List UInt8 → String
  /-- `net.IP.String`. -/
  ipString : List UInt8 → String

end Thrift

variable {F τ : Type} (lib : Library F τ) (tlib : Thrift.Library F)

/-! ## Endpoints -/

/-- `net.IP.String` of an IPv4 address. -/
def dotted (bytes : List UInt8) : String := ".".intercalate (bytes.map fun b => toString b.toNat)

/-- The four bytes that `toTranslatorEndpoint` takes from the address. -/
def ipv4Bytes (ipv4 : Int32) : List UInt8 :=
  [(ipv4 >>> 24).toUInt32.toUInt8, (ipv4 >>> 16).toUInt32.toUInt8,
    (ipv4 >>> 8).toUInt32.toUInt8, ipv4.toUInt32.toUInt8]

/-- `toTranslatorEndpoint`, of an endpoint that is not nil. -/
def toTranslatorEndpoint (e : Thrift.Endpoint) : Endpoint where
  serviceName := e.serviceName
  ipv4 := if e.ipv4 ≠ 0 then dotted (ipv4Bytes e.ipv4) else ""
  ipv6 := if e.ipv6.length ≠ 0 then tlib.ipString e.ipv6 else ""
  port := e.port.toInt32

theorem ipv4Bytes_eq (ipv4 : Int32) : ipv4Bytes ipv4 = BigEndian.encode 4 ipv4.toUInt32.toNat := by
  have hshift : ∀ k, (ipv4.toBitVec.sshiftRight k).toInt = ipv4.toBitVec.toInt / 2 ^ k := by
    intro k
    rw [BitVec.toInt_sshiftRight, Int.shiftRight_eq_div_pow]
    norm_cast
  have h24 := hshift 24
  have h16 := hshift 16
  have h8 := hshift 8
  simp only [BitVec.toInt_eq_toNat_cond] at h24 h16 h8
  have hdecode : BigEndian.decode (ipv4Bytes ipv4) = ipv4.toUInt32.toNat := by
    show (((0 * 256 + (ipv4.toBitVec.sshiftRight 24).toNat % 256) * 256 +
      (ipv4.toBitVec.sshiftRight 16).toNat % 256) * 256 +
      (ipv4.toBitVec.sshiftRight 8).toNat % 256) * 256 + ipv4.toBitVec.toNat % 256 =
        ipv4.toBitVec.toNat
    omega
  rw [← hdecode]
  exact (BigEndian.encode_decode (ipv4Bytes ipv4)).symm

/-- What the attributes of a node hold under a key. -/
def nodeAttribute (e : Thrift.Endpoint) (key : String) : Option String :=
  (toTranslatorEndpoint tlib e).createAttributeMap.bind (·.lookup key)

theorem lookup_createAttributeMap (ep : Endpoint) :
    ep.createAttributeMap.bind (·.lookup "ipv4") = (if ep.ipv4 = "" then none else some ep.ipv4) ∧
      ep.createAttributeMap.bind (·.lookup "port") =
        if ep.port = 0 then none else some (toString ep.port.toInt) := by
  unfold Endpoint.createAttributeMap
  by_cases h4 : ep.ipv4 = "" <;> by_cases h6 : ep.ipv6 = "" <;> by_cases hp : ep.port = 0 <;>
    simp [-AList.insert_empty, h4, h6, hp, AList.lookup_insert_ne]

/-! ## Binary annotations -/

/-- `bytesInt16ToInt64` and the two others, which differ in `minSliceLength`. -/
def bytesToInt64 (minSliceLength : Nat) (b : List UInt8) : Option Int64 :=
  if b.length < minSliceLength then none
  else some (.ofNat (BigEndian.decode (b.take minSliceLength)))

def bytesInt16ToInt64 : List UInt8 → Option Int64 := bytesToInt64 2
def bytesInt32ToInt64 : List UInt8 → Option Int64 := bytesToInt64 4
def bytesInt64ToInt64 : List UInt8 → Option Int64 := bytesToInt64 8

def strAttributeForError (err : String) : AttributeValue F := .string (some ⟨"<" ++ err ++ ">"⟩)

def errNotEnoughBytes : String := "not enough bytes representing the number"

def intAttribute : Option Int64 → AttributeValue F
  | some i => .int i
  | none => strAttributeForError errNotEnoughBytes

/-- The `switch` in `zipkinV1ThriftBinAnnotationsToOCAttributes`. -/
def binAnnotationValue (annot : Thrift.BinaryAnnotation) : AttributeValue F :=
  match annot.annotationType with
  | .bool => .bool (annot.value = [1])
  | .bytes => .string (some ⟨tlib.base64 annot.value⟩)
  | .double =>
    if annot.value.length < 8 then strAttributeForError errNotEnoughBytes
    else .double (tlib.float64frombits (.ofNat (BigEndian.decode (annot.value.take 8))))
  | .i16 => intAttribute (bytesInt16ToInt64 annot.value)
  | .i32 => intAttribute (bytesInt32ToInt64 annot.value)
  | .i64 => intAttribute (bytesInt64ToInt64 annot.value)
  | .string => .string (some ⟨tlib.bytesString annot.value⟩)
  | .unrecognized n =>
    strAttributeForError ("unknown zipkin v1 binary annotation type (" ++ toString n.toInt ++ ")")

def attributeKey (annot : Thrift.BinaryAnnotation) : String :=
  if annot.key = "lc" then "component" else annot.key

/-- The body of the loop in `zipkinV1ThriftBinAnnotationsToOCAttributes`. -/
def Attributes.addThrift (st : Attributes F) (annot : Option Thrift.BinaryAnnotation) :
    Go (Attributes F) := do
  let annot ← deref annot
  let fallbackServiceName := (annot.host.map (·.serviceName)).getD st.fallbackServiceName
  let pbAttrib := binAnnotationValue tlib annot
  let key := attributeKey annot
  let localComponent :=
    if annot.key = "lc" then tlib.bytesString annot.value else st.localComponent
  match st.sMapper.fromAttribute lib key pbAttrib with
  | (sMapper, true) => return { st with sMapper, localComponent, fallbackServiceName }
  | (sMapper, false) =>
    return ⟨sMapper, localComponent, fallbackServiceName, st.attributeMap.insert key pbAttrib⟩

def zipkinV1ThriftBinAnnotationsToOCAttributes (annots : List (Option Thrift.BinaryAnnotation)) :
    Go (Option (OpenCensus.SpanAttributes F) × Option OpenCensus.Status × String) := do
  if annots.length = 0 then return (none, none, "")
  else return (← annots.foldlM (Attributes.addThrift lib tlib) {}).result

theorem addThrift_other (st : Attributes F) (annot : Thrift.BinaryAnnotation) :
    ∃ st', st.addThrift lib tlib (some annot) = .ok st' ∧
      ∀ key ≠ attributeKey annot, st'.attributeMap.lookup key = st.attributeMap.lookup key := by
  simp only [Attributes.addThrift, deref_some, ok_bind]
  split
  · exact ⟨_, rfl, fun _ _ => rfl⟩
  · exact ⟨_, rfl, fun _ hkey => AList.lookup_insert_ne hkey⟩

/-- Annotations that are there leave the attributes under other keys alone. -/
theorem foldlM_addThrift {annots : List (Option Thrift.BinaryAnnotation)} (h : none ∉ annots)
    (st : Attributes F) : ∃ st', annots.foldlM (Attributes.addThrift lib tlib) st = .ok st' ∧
      ∀ key, (∀ a, some a ∈ annots → key ≠ attributeKey a) →
        st'.attributeMap.lookup key = st.attributeMap.lookup key := by
  induction annots generalizing st with
  | nil => exact ⟨st, rfl, fun _ _ => rfl⟩
  | cons annot annots ih =>
    obtain ⟨hannot, hannots⟩ := not_or.1 (List.mem_cons.not.1 h)
    obtain ⟨a, rfl⟩ := Option.ne_none_iff_exists'.1 (Ne.symm hannot)
    obtain ⟨st₁, hst₁, hkept₁⟩ := addThrift_other lib tlib st a
    obtain ⟨st₂, hst₂, hkept₂⟩ := ih hannots st₁
    refine ⟨st₂, by rw [List.foldlM_cons, hst₁, ok_bind, hst₂], fun key hkey => ?_⟩
    rw [hkept₂ key fun b hb => hkey b (List.mem_cons_of_mem _ hb),
      hkept₁ key (hkey a List.mem_cons_self)]

/-! ## Numbers -/

def Thrift.AnnotationType.width : Thrift.AnnotationType → Option Nat
  | i16 => some 2
  | i32 => some 4
  | i64 => some 8
  | _ => none

/-- The number that bytes hold in two's complement. -/
def signed (bytes : List UInt8) : Int := Int.bmod (BigEndian.decode bytes) (256 ^ bytes.length)

theorem ofNat_decode_eq_iff {bytes : List UInt8} (h : bytes.length ∈ [2, 4, 8]) :
    Int64.ofNat (BigEndian.decode bytes) = .ofInt (signed bytes) ↔
      bytes.length = 8 ∨ 0 ≤ signed bytes := by
  have hlt := BigEndian.decode_lt bytes
  unfold signed
  generalize BigEndian.decode bytes = d at hlt
  simp only [List.mem_cons, List.not_mem_nil, or_false] at h
  rcases h with h | h | h <;> rw [h] at hlt ⊢
  case inl | inr.inl =>
    rw [Int.bmod_def, ← Int64.toInt_inj, Int64.toInt_ofNat_of_lt (by omega),
      Int64.toInt_ofInt_of_le (by omega) (by omega)]
    omega
  case inr.inr =>
    rw [← Int64.toInt_inj, Int64.toInt_ofInt, ← Int64.ofInt_eq_ofNat, Int64.toInt_ofInt]
    simp

theorem binAnnotationValue_number {annot : Thrift.BinaryAnnotation}
    (h : annot.annotationType.width = some annot.value.length) :
    binAnnotationValue tlib annot = .int (.ofNat (BigEndian.decode annot.value)) ∧
      annot.value.length ∈ [2, 4, 8] := by
  have hint : ∀ w, w = annot.value.length →
      (intAttribute (bytesToInt64 w annot.value) : AttributeValue F) =
        .int (.ofNat (BigEndian.decode annot.value)) := by
    rintro w rfl
    rw [bytesToInt64, if_neg (Nat.lt_irrefl _), List.take_length]
    rfl
  unfold binAnnotationValue
  cases hty : annot.annotationType <;> rw [hty] at h <;>
    simp only [Thrift.AnnotationType.width, Option.some.injEq, reduceCtorEq] at h
  all_goals exact ⟨hint _ h, by simp [← h]⟩

/-- The keys of attributes that become the status of the span. -/
def statusKeys : List String :=
  ["census.status_code", "census.status_description", "opencensus.status_description",
    tagStatusCode, tagStatusMsg]

theorem addThrift_number (st : Attributes F) {annot : Thrift.BinaryAnnotation}
    (h : annot.annotationType.width = some annot.value.length)
    (hkey : attributeKey annot ∉ statusKeys) :
    ∃ st', st.addThrift lib tlib (some annot) = .ok st' ∧
      st'.attributeMap.lookup (attributeKey annot) =
        some (.int (.ofNat (BigEndian.decode annot.value))) := by
  have hdrop : (st.sMapper.fromAttribute lib (attributeKey annot)
      (binAnnotationValue tlib annot)).2 = false := by
    rw [(binAnnotationValue_number tlib h).1]
    simp only [statusKeys, List.mem_cons, List.not_mem_nil, or_false, not_or] at hkey
    simp only [StatusMapper.fromAttribute, hkey, if_false, extractStatusFromError]
    repeat' split
    all_goals simp_all
  rw [← (binAnnotationValue_number tlib h).1]
  simp only [Attributes.addThrift, deref_some, ok_bind]
  split
  case h_1 hmap =>
    rw [hmap] at hdrop
    cases hdrop
  case h_2 => exact ⟨_, rfl, AList.lookup_insert _⟩

/-- The attribute of the last annotation under its key. -/
theorem thriftAttributes_number {pre post : List (Option Thrift.BinaryAnnotation)}
    {annot : Thrift.BinaryAnnotation} (hpre : none ∉ pre) (hpost : none ∉ post)
    (hlast : ∀ a, some a ∈ post → attributeKey annot ≠ attributeKey a)
    (h : annot.annotationType.width = some annot.value.length)
    (hkey : attributeKey annot ∉ statusKeys) : ∃ attributeMap status name,
      zipkinV1ThriftBinAnnotationsToOCAttributes lib tlib (pre ++ some annot :: post) =
        .ok (some ⟨some attributeMap, 0⟩, status, name) ∧
      attributeMap.lookup (attributeKey annot) =
        some (.int (.ofNat (BigEndian.decode annot.value))) := by
  obtain ⟨st₁, hst₁, -⟩ := foldlM_addThrift lib tlib hpre {}
  obtain ⟨st₂, hst₂, hlookup⟩ := addThrift_number lib tlib st₁ h hkey
  obtain ⟨st₃, hst₃, hkept⟩ := foldlM_addThrift lib tlib hpost st₂
  rw [← hkept _ hlast] at hlookup
  have hentries : st₃.attributeMap.entries.length ≠ 0 := by
    intro hzero
    rw [AList.lookup, List.eq_nil_of_length_eq_zero hzero] at hlookup
    cases hlookup
  refine ⟨st₃.attributeMap, st₃.sMapper.ocStatus, if st₃.fallbackServiceName = "" then
    st₃.localComponent else st₃.fallbackServiceName, ?_, hlookup⟩
  rw [zipkinV1ThriftBinAnnotationsToOCAttributes, if_neg (by simp), List.foldlM_append, hst₁,
    ok_bind, List.foldlM_cons, hst₂, ok_bind, hst₃, ok_bind, Attributes.result, if_neg hentries]
  rfl

theorem dotted_ne_empty (a b : UInt8) (bytes : List UInt8) : dotted (a :: b :: bytes) ≠ "" := by
  intro h
  have hlength := congrArg String.length h
  simp [dotted, String.intercalate_cons_cons, String.length_append] at hlength

theorem port_eq_iff (port : Int16) :
    toString port.toInt32.toInt = toString port.toUInt16.toNat ↔ 0 ≤ port := by
  have hport : port.toInt = port.toBitVec.toInt := rfl
  have hunsigned : port.toUInt16.toNat = port.toBitVec.toNat := rfl
  have hnat : toString port.toUInt16.toNat = toString (port.toUInt16.toNat : Int) := rfl
  have hinj (m n : Int) : toString m = toString n ↔ m = n :=
    ⟨fun h => by rw [← intOf_toString m, h, intOf_toString], congrArg _⟩
  rw [hnat, hinj, Int16.toInt_toInt32, Int16.le_iff_toInt_le, hunsigned, hport,
    BitVec.toInt_eq_toNat_cond]
  show _ ↔ (0 : Int) ≤ _
  split <;> omega

/-- **Numbers and ports.** A number of two or four bytes is read right if it is not negative, and
so is a port. -/
theorem thrift_numbers_iff :
    (∀ (st : Attributes F) (annot : Thrift.BinaryAnnotation),
      annot.annotationType.width = some annot.value.length → attributeKey annot ∉ statusKeys →
      ((∃ st', st.addThrift lib tlib (some annot) = .ok st' ∧
          st'.attributeMap.lookup (attributeKey annot) =
            some (.int (.ofInt (signed annot.value)))) ↔
        annot.value.length = 8 ∨ 0 ≤ signed annot.value)) ∧
    (∀ pre (annot : Thrift.BinaryAnnotation) post, none ∉ pre → none ∉ post →
      (∀ a, some a ∈ post → attributeKey annot ≠ attributeKey a) →
      annot.annotationType.width = some annot.value.length → attributeKey annot ∉ statusKeys →
      ((∃ attributeMap status name,
          zipkinV1ThriftBinAnnotationsToOCAttributes lib tlib (pre ++ some annot :: post) =
            .ok (some ⟨some attributeMap, 0⟩, status, name) ∧
          attributeMap.lookup (attributeKey annot) =
            some (.int (.ofInt (signed annot.value)))) ↔
        annot.value.length = 8 ∨ 0 ≤ signed annot.value)) ∧
    ∀ e : Thrift.Endpoint,
      (nodeAttribute tlib e "port" =
          (if e.port = 0 then none else some (toString e.port.toUInt16.toNat)) ↔ 0 ≤ e.port) ∧
      nodeAttribute tlib e "ipv4" = if e.ipv4 = 0 then none
        else some (dotted (BigEndian.encode 4 e.ipv4.toUInt32.toNat)) := by
  refine ⟨fun st annot h hkey => ?_, fun pre annot post hpre hpost hlast h hkey => ?_,
    fun e => ⟨?_, ?_⟩⟩
  · obtain ⟨st', hst, hlookup⟩ := addThrift_number lib tlib st h hkey
    rw [← ofNat_decode_eq_iff (binAnnotationValue_number tlib h).2]
    simp [hst, hlookup]
  · obtain ⟨attributeMap, status, name, hrun, hlookup⟩ :=
      thriftAttributes_number lib tlib hpre hpost hlast h hkey
    rw [← ofNat_decode_eq_iff (binAnnotationValue_number tlib h).2]
    simp [hrun, hlookup]
  · rw [nodeAttribute, (lookup_createAttributeMap _).2]
    by_cases hport : e.port = 0
    · simp [toTranslatorEndpoint, hport]
    · have hport32 : e.port.toInt32 ≠ 0 := by
        intro hzero
        rw [← Int32.toInt_inj, Int16.toInt_toInt32] at hzero
        exact hport (Int16.toInt_inj.mp hzero)
      rw [toTranslatorEndpoint, if_neg hport32, if_neg hport, Option.some_inj]
      exact port_eq_iff e.port
  · rw [nodeAttribute, (lookup_createAttributeMap _).1, ← ipv4Bytes_eq]
    by_cases hip : e.ipv4 = 0
    · simp [toTranslatorEndpoint, hip]
    · have hne : dotted (ipv4Bytes e.ipv4) ≠ "" := dotted_ne_empty _ _ _
      simp [toTranslatorEndpoint, hip, hne]

def noText : Thrift.Library Int := ⟨fun _ => "", fun _ => 0, fun _ => "", fun _ => ""⟩

theorem thrift_numbers_last :
    ∃ st, ({} : Attributes Int).addThrift (decoding "[]" []) noText
        (some ⟨"k", [127, 255], .i16, none⟩) = .ok st ∧
      st.attributeMap.lookup "k" = some (.int (.ofInt (signed [127, 255]))) :=
  ((thrift_numbers_iff (decoding "[]" []) noText).1 {} ⟨"k", [127, 255], .i16, none⟩ rfl
    (by decide)).2 (by decide)

/-- The number `-1` becomes 65535, and the port 65535 becomes `-1`. -/
theorem thrift_numbers_lost :
    (∃ st, ({} : Attributes Int).addThrift (decoding "[]" []) noText
        (some ⟨"k", [255, 255], .i16, none⟩) = .ok st ∧
      st.attributeMap.lookup "k" = some (.int 65535)) ∧
    signed [255, 255] = -1 ∧
    nodeAttribute noText ⟨0, -1, "", []⟩ "port" = some "-1" ∧ (-1 : Int16).toUInt16 = 65535 := by
  exact ⟨⟨_, rfl, rfl⟩, by decide, by decide, by decide⟩

end Collector.Zipkin.V1
