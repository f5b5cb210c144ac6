import Collector.Go.Runtime

/-!
# Error values

The collector tells errors apart by type assertion, never by unwrapping:
`IsPermanent` and the retry loop look at the outermost constructor only. So an
error is a tree of the wrappers it went through. `τ` is the data a
`consumererror.PartialError` carries.
-/

namespace Collector

/-- `google.golang.org/grpc/codes.Code`. -/
inductive Code where
  | ok | canceled | unknown | invalidArgument | deadlineExceeded | notFound | alreadyExists
  | permissionDenied | resourceExhausted | failedPrecondition | aborted | outOfRange
  | unimplemented | internal | unavailable | dataLoss | unauthenticated
  | other (n : UInt32)
  deriving DecidableEq, Repr

/-- `Code.String()`. -/
def Code.string : Code → String
  | ok => "OK"
  | canceled => "Canceled"
  | unknown => "Unknown"
  | invalidArgument => "InvalidArgument"
  | deadlineExceeded => "DeadlineExceeded"
  | notFound => "NotFound"
  | alreadyExists => "AlreadyExists"
  | permissionDenied => "PermissionDenied"
  | resourceExhausted => "ResourceExhausted"
  | failedPrecondition => "FailedPrecondition"
  | aborted => "Aborted"
  | outOfRange => "OutOfRange"
  | unimplemented => "Unimplemented"
  | internal => "Internal"
  | unavailable => "Unavailable"
  | dataLoss => "DataLoss"
  | unauthenticated => "Unauthenticated"
  | other n => "Code(" ++ toString n.toNat ++ ")"

/-- `google.protobuf.Duration`. -/
structure ProtoDuration where
  seconds : Int64
  nanos : Int32
  deriving DecidableEq, Repr

/-- An entry of `status.Details()`; one that does not decode stands there as its error. -/
inductive Detail where
  | retryInfo (retryDelay : Option ProtoDuration)
  | message (typeUrl : String)
  | undecodable (err : String)
  deriving DecidableEq, Repr

structure Status where
  code : Code
  message : String
  details : List Detail
  deriving DecidableEq, Repr

inductive GoError (τ : Type) where
  /-- `errors.New`, or `fmt.Errorf` without `%w`. -/
  | new (msg : String)
  /-- `fmt.Errorf("<pre>%w", err)`. -/
  | wrap (pre : String) (err : GoError τ)
  /-- `consumererror.permanent`. -/
  | permanent (err : GoError τ)
  /-- `*exporterhelper.throttleRetry`. -/
  | throttleRetry (err : GoError τ) (delay : Int64)
  /-- `consumererror.PartialError`. -/
  | partialError (err : GoError τ) (failed : τ)
  /-- An error made from a gRPC status. -/
  | status (st : Status)
  deriving DecidableEq, Repr

/-- A call that returns a result or an error, or ends the process. -/
abbrev Fallible (τ : Type) := ExceptT (GoError τ) Go

namespace GoError

variable {τ : Type}

/-- `err.Error()`. -/
def error : GoError τ → String
  | new msg => msg
  | wrap pre err => pre ++ err.error
  | permanent err => "Permanent error: " ++ err.error
  | throttleRetry err _ => err.error
  | partialError err _ => err.error
  | status st => "rpc error: code = " ++ st.code.string ++ " desc = " ++ st.message

/-- `consumererror.IsPermanent`. -/
def isPermanent : Option (GoError τ) → Bool
  | some (permanent _) => true
  | _ => false

/-- `componenterror.CombineErrors`. -/
def combineErrors : List (GoError τ) → Option (GoError τ)
  | [] => none
  | [err] => some err
  | errs => some (new ("[" ++ String.intercalate "; " (errs.map error) ++ "]"))

@[simp] theorem combineErrors_eq_none {errs : List (GoError τ)} :
    combineErrors errs = none ↔ errs = [] := by
  match errs with
  | [] | [_] | _ :: _ :: _ => simp [combineErrors]

theorem isPermanent_combineErrors {errs : List (GoError τ)}
    (h : isPermanent (combineErrors errs) = true) : ∃ err, errs = [permanent err] := by
  match errs with
  | [] | _ :: _ :: _ => simp [combineErrors, isPermanent] at h
  | [err] =>
    cases err <;> simp [combineErrors, isPermanent] at h
    exact ⟨_, rfl⟩

end GoError

end Collector
