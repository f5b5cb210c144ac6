import Collector.Go.Errors
import Collector.Go.Runtime
import Collector.Lib.Code
import Collector.Pdata.Attributes

/-!
# What the trace translators share

The package `translator/trace`: identifiers as bytes and as numbers
(`big_endian_converter.go`), status codes (`grpc_http_mapper.go`), the keys and texts of
`protospan_translation.go`, with its `AttributeValueToString`; and the times of
`internal/internal.go`. Slices of bytes that are nil and that are empty are not told apart: both are
nil.
-/

namespace Collector.Translator

open Lib
open Pdata (AnyValue KeyValue AttributeValueType)

/-! ## Keys and texts -/

def tagMessage : String := "message"
def tagSpanKind : String := "span.kind"
def tagStatusCode : String := "status.code"
def tagStatusMsg : String := "status.message"
def tagError : String := "error"
def tagHTTPStatusCode : String := "http.status_code"
def tagHTTPStatusMsg : String := "http.status_message"
def tagW3CTraceState : String := "w3c.tracestate"
def tagServiceNameSource : String := "otlp.service.name.source"
def tagInstrumentationName : String := "otlp.instrumentation.library.name"
def tagInstrumentationVersion : String := "otlp.instrumentation.library.version"

def resourceNotSet : String := "OTLPResourceNotSet"
def resourceNoAttrs : String := "OTLPResourceNoAttributes"
def resourceNoServiceName : String := "OTLPResourceNoServiceName"

/-! ## Identifiers -/

section Ids

variable {τ : Type}

def uint64ToByteTraceID (high low : UInt64) : List UInt8 :=
  BigEndian.encode 8 high.toNat ++ BigEndian.encode 8 low.toNat

def bytesToUInt64TraceID (traceID : List UInt8) : Except (GoError τ) (UInt64 × UInt64) :=
  if traceID = [] then .error (.new "TraceID is nil")
  else if traceID.length ≠ 16 then .error (.new "TraceID does not have 16 bytes")
  else .ok (.ofNat (BigEndian.decode (traceID.take 8)), .ofNat (BigEndian.decode (traceID.drop 8)))

def uint64ToByteSpanID (id : UInt64) : List UInt8 := BigEndian.encode 8 id.toNat

def bytesToUInt64SpanID (b : List UInt8) : Except (GoError τ) UInt64 :=
  if b = [] then .error (.new "SpanID is nil")
  else if b.length ≠ 8 then .error (.new "SpanID does not have 8 bytes")
  else .ok (.ofNat (BigEndian.decode b))

theorem toNat_decode {bytes : List UInt8} (h : bytes.length = 8) :
    (UInt64.ofNat (BigEndian.decode bytes)).toNat = BigEndian.decode bytes := by
  have hlt := BigEndian.decode_lt bytes
  rw [h] at hlt
  exact UInt64.toNat_ofNat_of_lt' hlt

theorem encode_ofNat_decode {bytes : List UInt8} (h : bytes.length = 8) :
    BigEndian.encode 8 (UInt64.ofNat (BigEndian.decode bytes)).toNat = bytes := by
  rw [toNat_decode h, ← h]
  exact BigEndian.encode_decode bytes

theorem bytesToUInt64SpanID_ok {b : List UInt8} (h : b.length = 8) :
    bytesToUInt64SpanID (τ := τ) b = .ok (.ofNat (BigEndian.decode b)) := by
  unfold bytesToUInt64SpanID
  rw [if_neg (List.ne_nil_of_length_pos (by omega)), if_neg (not_not.2 h)]

theorem spanID_trip {b : List UInt8} (h : b.length = 8) :
    ∃ id, bytesToUInt64SpanID (τ := τ) b = .ok id ∧ uint64ToByteSpanID id = b ∧
      (id = 0 ↔ ∀ x ∈ b, x = 0) := by
  refine ⟨_, bytesToUInt64SpanID_ok h, encode_ofNat_decode h, ?_⟩
  rw [← BigEndian.decode_eq_zero_iff, ← UInt64.toNat_inj, toNat_decode h]
  rfl

theorem traceID_trip {traceID : List UInt8} (h : traceID.length = 16) :
    ∃ high low, bytesToUInt64TraceID (τ := τ) traceID = .ok (high, low) ∧
      uint64ToByteTraceID high low = traceID ∧ (low = 0 ∧ high = 0 ↔ ∀ x ∈ traceID, x = 0) := by
  have htake : (traceID.take 8).length = 8 := by rw [List.length_take]; omega
  have hdrop : (traceID.drop 8).length = 8 := by rw [List.length_drop]; omega
  refine ⟨.ofNat (BigEndian.decode (traceID.take 8)), .ofNat (BigEndian.decode (traceID.drop 8)),
    ?_, ?_, ?_⟩
  · unfold bytesToUInt64TraceID
    rw [if_neg (List.ne_nil_of_length_pos (by omega)), if_neg (not_not.2 h)]
  · rw [uint64ToByteTraceID, encode_ofNat_decode htake, encode_ofNat_decode hdrop,
      List.take_append_drop]
  · rw [← UInt64.toNat_inj, ← UInt64.toNat_inj, toNat_decode htake, toNat_decode hdrop]
    conv_rhs => rw [← List.take_append_drop 8 traceID, List.forall_mem_append]
    rw [and_comm]
    exact and_congr BigEndian.decode_eq_zero_iff BigEndian.decode_eq_zero_iff

end Ids

/-! ## Status codes -/

def httpToOCCodeMap : Int32 → Option Int32
  | 401 => some 16
  | 403 => some 7
  | 404 => some 5
  | 429 => some 8
  | 499 => some 1
  | 501 => some 12
  | 503 => some 14
  | 504 => some 4
  | _ => none

def ocStatusCodeFromHTTP (code : Int32) : Int32 :=
  if 100 ≤ code ∧ code < 400 then 0
  else match httpToOCCodeMap code with
    | some c => c
    | none =>
      if 400 ≤ code ∧ code < 500 then 3
      else if 500 ≤ code ∧ code < 600 then 13
      else 2

/-! ## Values as texts -/

mutual
/-- `AttributeValueToString`; `quote` is `%q`. -/
def attributeValueToString {F : Type} [GoFloat F] (quote : String → String) :
    AnyValue F → Bool → String
  | .nil, jsonLike | .null, jsonLike => if jsonLike then "null" else ""
  | .string s, jsonLike => if jsonLike then quote s else s
  | .bool b, _ => if b then "true" else "false"
  | .double x, _ => GoFloat.formatFloat x
  | .int n, _ => toString n.toInt
  | .kvlistNil, _ => "\x7b\x7d"
  | .kvlist kvs, _ => "\x7b" ++ ",".intercalate (entriesToStrings quote kvs) ++ "\x7d"
  | .arrayNil, _ | .array _, _ =>
    "<Unknown OpenTelemetry attribute value type " ++ quote AttributeValueType.array.asString ++ ">"

def entriesToStrings {F : Type} [GoFloat F] (quote : String → String) :
    List (KeyValue F) → List String
  | [] => []
  | .nil :: kvs => entriesToStrings quote kvs
  | .mk k v :: kvs =>
    (quote k ++ ":" ++ attributeValueToString quote v true) :: entriesToStrings quote kvs
end

/-! ## Times -/

/-- `internal.UnixNanoToTime`. -/
def unixNanoToTime (u : UInt64) : Int := if u = 0 then Time.zero else u.toInt64.toInt

theorem unixNano_unixNanoToTime {u : UInt64} (h : u ≠ 0) :
    (Time.unixNano (unixNanoToTime u)).toUInt64 = u := by
  rw [unixNanoToTime, if_neg h, Time.unixNano, Int64.ofInt_toInt]
  exact UInt64.toUInt64_toInt64 u

theorem toInt_toInt64 {u : UInt64} (h : u.toNat < 2 ^ 63) : u.toInt64.toInt = u.toNat := by
  have hint : u.toInt64.toInt = Int.bmod u.toNat (2 ^ 64) := BitVec.toInt_eq_toNat_bmod u.toBitVec
  rw [hint, Int.bmod_eq_of_le (by omega) (by omega)]

theorem unixNanoToTime_range {u : UInt64} (h : u ≠ 0) (hlt : u.toNat < 2 ^ 63) :
    0 ≤ unixNanoToTime u ∧ unixNanoToTime u < 2 ^ 63 := by
  rw [unixNanoToTime, if_neg h, toInt_toInt64 hlt]
  omega

end Collector.Translator
