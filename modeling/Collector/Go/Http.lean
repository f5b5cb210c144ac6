import Collector.Go.Errors

/-!
# The HTTP client of Go

`http.Client.Do` as of Go 1.14, over a round tripper that may end the process:
one round trip for each request of a chain of redirects, at most ten of them,
and every error wrapped in a `*url.Error`. Only the methods GET and POST occur.
A request made for a redirect has no `GetBody`, whether it carries the body
again or not. URLs are kept as text.
-/

namespace Collector.Http

inductive Method where
  | get
  | post
  deriving DecidableEq, Repr

/-- `urlErrorOp`. -/
def Method.op : Method → String
  | get => "Get"
  | post => "Post"

/-- A body, as what reading it to its end gives. -/
abbrev Body (τ : Type) := Except (GoError τ) (List UInt8)

structure Request (τ : Type) where
  method : Method
  url : String
  /-- `GetBody`: nil, or what calling it gives. -/
  getBody : Option (Except (GoError τ) (Body τ))
  contentLength : Nat

/-- `http.NewRequest` with a `bytes.Reader` over `data`. -/
def Request.new {τ : Type} (method : Method) (url : String) (data : List UInt8) : Request τ :=
  ⟨method, url, some (.ok (.ok data)), data.length⟩

/-- A response, with its `Location` header and the first line of its body. -/
structure Response where
  statusCode : Int
  status : String
  location : String
  line : String
  deriving DecidableEq, Repr

/-- `resp.StatusCode/100 == 2`. -/
def Response.success (resp : Response) : Bool := resp.statusCode.tdiv 100 == 2

/-- What becomes of a request: a response or an error, unless the process ends. -/
abbrev Exchange (τ : Type) := Go (Except (GoError τ) Response)

structure Client (τ : Type) where
  /-- The round trip of the request that follows `via` others. -/
  roundTrip : (via : Nat) → Request τ → Exchange τ
  /-- `URL.Parse` of a reference at a base. -/
  parse : String → String → Except (GoError τ) String

section Do

variable {τ : Type} (c : Client τ)

/-- `&url.Error{Op, URL, Err}`. -/
def urlError (ireq : Request τ) (url : String) (err : GoError τ) : GoError τ :=
  .wrap (ireq.method.op ++ " " ++ quoted url ++ ": ") err

/-- `redirectBehavior`: the method of the next request and whether it carries the body, if the
client is to follow. POST becomes GET on the older codes. -/
def redirectBehavior (ireq req : Request τ) (resp : Response) : Option (Method × Bool) :=
  if resp.statusCode ∈ [301, 302, 303] then some (.get, false)
  else if resp.statusCode ∈ [307, 308] then
    if resp.location = "" then none
    else if ireq.getBody.isNone ∧ ireq.contentLength ≠ 0 then none
    else some (req.method, true)
  else none

def redirected (ireq req : Request τ) (resp : Response) (method : Method) (includeBody : Bool) :
    Except (GoError τ) (Request τ) :=
  if resp.location = "" then
    .error (.new (toString resp.statusCode ++ " response missing Location header"))
  else
    match c.parse req.url resp.location with
    | .error err =>
      .error (.new ("failed to parse Location header " ++ quoted resp.location ++ ": " ++
        err.error))
    | .ok url =>
      match includeBody, ireq.getBody with
      | true, some (.error err) => .error err
      | true, some (.ok _) => .ok ⟨method, url, none, ireq.contentLength⟩
      | _, _ => .ok ⟨method, url, none, 0⟩

/-- The loop of `Client.do`; `left` more requests are allowed. -/
def follow (ireq : Request τ) (via left : Nat) (req : Request τ) : Exchange τ :=
  match c.roundTrip via req with
  | .error crash => .error crash
  | .ok (.error err) => .ok (.error (urlError ireq req.url err))
  | .ok (.ok resp) =>
    match redirectBehavior ireq req resp with
    | none => .ok (.ok resp)
    | some (method, includeBody) =>
      match redirected c ireq req resp method includeBody with
      | .error err => .ok (.error (urlError ireq req.url err))
      | .ok next =>
        match left with
        | 0 => .ok (.error (urlError ireq resp.location (.new "stopped after 10 redirects")))
        | left + 1 => follow ireq (via + 1) left next

/-- `Client.Do`. -/
def Client.run (req : Request τ) : Exchange τ := follow c req 0 9 req

/-! ## One hop -/

/-- The client answers this response with the request `next`. -/
def Follows (ireq req : Request τ) (resp : Response) (next : Request τ) : Prop :=
  ∃ method includeBody, redirectBehavior ireq req resp = some (method, includeBody) ∧
    redirected c ireq req resp method includeBody = .ok next

def IsUrlError (err : GoError τ) : Prop := ∃ pre err', err = .wrap pre err'

variable {c} {ireq req : Request τ} {resp : Response} {via : Nat}

theorem getBody_of_follows {next : Request τ} (h : Follows c ireq req resp next) :
    next.getBody = none := by
  obtain ⟨method, includeBody, -, hr⟩ := h
  unfold redirected at hr
  split at hr
  · cases hr
  · split at hr
    · cases hr
    · split at hr <;> cases hr <;> rfl

theorem follows_new_iff {method : Method} {url : String} {data : List UInt8} :
    (∃ next, Follows c (.new method url data) (.new method url data) resp next) ↔
      resp.statusCode ∈ [301, 302, 303, 307, 308] ∧ resp.location ≠ "" ∧
        ∃ url', c.parse url resp.location = .ok url' := by
  constructor
  · rintro ⟨next, m, b, hb, hr⟩
    refine ⟨?_, ?_, ?_⟩
    · unfold redirectBehavior at hb
      split at hb
      · rename_i h
        simp only [List.mem_cons] at h ⊢
        tauto
      · split at hb
        · rename_i h
          tauto
        · cases hb
    · intro hl
      unfold redirected at hr
      rw [if_pos hl] at hr
      cases hr
    · unfold redirected at hr
      split at hr
      · cases hr
      · split at hr
        · cases hr
        · exact ⟨_, ‹_›⟩
  · rintro ⟨hs, hl, url', hp⟩
    -- the body of a request just made can be read again
    have hnext : ∀ m b, ∃ next,
        redirected c (.new method url data) (.new method url data) resp m b =
        .ok next := by
      intro m b
      unfold redirected
      rw [if_neg hl, show (Request.new method url data : Request τ).url = url from rfl, hp]
      cases b <;> exact ⟨_, rfl⟩
    have hbeh : ∃ mb, redirectBehavior (.new method url data : Request τ)
        (.new method url data) resp = some mb := by
      unfold redirectBehavior
      split
      · exact ⟨_, rfl⟩
      · rename_i h
        rw [if_pos (by simp only [List.mem_cons] at hs h ⊢; tauto), if_neg (by simp [Request.new])]
        exact ⟨_, rfl⟩
    obtain ⟨mb, hmb⟩ := hbeh
    obtain ⟨next, hn⟩ := hnext mb.1 mb.2
    exact ⟨next, mb.1, mb.2, hmb, hn⟩

theorem follow_crash {crash : Crash} (left : Nat) (h : c.roundTrip via req = .error crash) :
    follow c ireq via left req = .error crash := by
  unfold follow
  rw [h]

theorem follow_redirect {next : Request τ} (left : Nat) (h : c.roundTrip via req = .ok (.ok resp))
    (hf : Follows c ireq req resp next) :
    follow c ireq via (left + 1) req = follow c ireq (via + 1) left next := by
  obtain ⟨method, includeBody, hb, hr⟩ := hf
  rw [follow]
  simp only [h, hb, hr]

/-- **One hop**: the process ends, the client answers a redirect, or it returns. -/
theorem follow_cases (ireq : Request τ) (via left : Nat) (req : Request τ) :
    (∃ crash, c.roundTrip via req = .error crash) ∨
    (∃ resp next left', c.roundTrip via req = .ok (.ok resp) ∧ Follows c ireq req resp next ∧
      left = left' + 1) ∨
    ∃ a, follow c ireq via left req = .ok a ∧ ∀ err, a = .error err → IsUrlError err := by
  have hfail : ∀ url err, follow c ireq via left req = .ok (.error (urlError ireq url err)) →
      ∃ a, follow c ireq via left req = .ok a ∧ ∀ err, a = .error err → IsUrlError err := by
    intro url err h
    refine ⟨_, h, ?_⟩
    rintro _ ⟨⟩
    exact ⟨_, _, rfl⟩
  cases ht : c.roundTrip via req with
  | error crash => exact .inl ⟨crash, rfl⟩
  | ok a =>
    cases a with
    | error err =>
      refine .inr (.inr (hfail req.url err ?_))
      rw [follow.eq_def]
      simp only [ht]
    | ok resp =>
      cases hb : redirectBehavior ireq req resp with
      | none =>
        refine .inr (.inr ⟨.ok resp, ?_, fun _ h => nomatch h⟩)
        rw [follow.eq_def]
        simp only [ht, hb]
      | some mb =>
        cases hr : redirected c ireq req resp mb.1 mb.2 with
        | error err =>
          refine .inr (.inr (hfail req.url err ?_))
          rw [follow.eq_def]
          simp only [ht, hb, hr]
        | ok next =>
          cases left with
          | zero =>
            refine .inr (.inr (hfail resp.location (.new "stopped after 10 redirects") ?_))
            rw [follow.eq_def]
            simp only [ht, hb, hr]
          | succ left => exact .inr (.inl ⟨resp, next, left, rfl, ⟨mb.1, mb.2, hb, hr⟩, rfl⟩)

/-! ## Whole exchanges -/

theorem isUrlError_of_follow {err : GoError τ} {left : Nat}
    (h : follow c ireq via left req = .ok (.error err)) : IsUrlError err := by
  induction left using Nat.strong_induction_on generalizing via req with
  | _ left ih =>
    rcases follow_cases (c := c) ireq via left req with
      ⟨crash, hc⟩ | ⟨resp, next, left', ht, hf, rfl⟩ | ⟨a, ha, he⟩
    · rw [follow_crash left hc] at h
      cases h
    · rw [follow_redirect left' ht hf] at h
      exact ih left' (Nat.lt_succ_self left') h
    · rw [ha] at h
      cases h
      exact he err rfl

theorem follow_returns (h : ∀ via req, ∃ a, c.roundTrip via req = .ok a) (ireq : Request τ)
    (via left : Nat) (req : Request τ) : ∃ a, follow c ireq via left req = .ok a := by
  induction left using Nat.strong_induction_on generalizing via req with
  | _ left ih =>
    rcases follow_cases (c := c) ireq via left req with
      ⟨crash, hc⟩ | ⟨resp, next, left', ht, hf, rfl⟩ | ⟨a, ha, -⟩
    · obtain ⟨a, ha⟩ := h via req
      rw [hc] at ha
      cases ha
    · rw [follow_redirect left' ht hf]
      exact ih left' (Nat.lt_succ_self left') _ next
    · exact ⟨a, ha⟩

theorem Client.run_crash_iff (h : ∀ via req, req.getBody = none → ∃ crash,
      c.roundTrip via req = .error crash) (req : Request τ) :
    (∃ crash, c.run req = .error crash) ↔ (∃ crash, c.roundTrip 0 req = .error crash) ∨
      ∃ resp next, c.roundTrip 0 req = .ok (.ok resp) ∧ Follows c req req resp next := by
  constructor
  · rintro ⟨crash, hc⟩
    rcases follow_cases (c := c) req 0 9 req with h1 | ⟨resp, next, _, ht, hf, -⟩ | ⟨a, ha, -⟩
    · exact .inl h1
    · exact .inr ⟨resp, next, ht, hf⟩
    · rw [Client.run, ha] at hc
      cases hc
  · rintro (⟨crash, hc⟩ | ⟨resp, next, ht, hf⟩)
    · exact ⟨crash, follow_crash 9 hc⟩
    · obtain ⟨crash, hc⟩ := h 1 next (getBody_of_follows hf)
      exact ⟨crash, (follow_redirect 8 ht hf).trans (follow_crash 8 hc)⟩

end Do

end Collector.Http
