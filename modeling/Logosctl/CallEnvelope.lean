/-
# How a proxied call becomes an envelope

A client asks the daemon to call a method of a module, and is answered with one JSON map.  Four
things meet in it: what the transport reported, a refusal that the provider put into its answer, the
answer itself, and, for an answer of null only, what the module says of its own methods.  A null is
a value like any other, and it is also what a module answers to a method it does not have and to an
argument it cannot take; only the module's own list of methods tells these apart.

`Verdict` is the four ways it can end, `Applies` when each of them is the right one and `ReportedBy`
what a client then finds in the map; `callEnvelope_classifies` says that exactly one applies and
that it is the one reported.
-/
import Logosctl.CoreService

namespace Logosctl.CallEnvelope

open Library

/-! ## 1. Failures and refusals -/

/-- An empty code means that there was no failure. -/
structure CallFailure where
  code : String := ""
  message : String := ""
  origin : String := ""
  deriving DecidableEq, Repr

def CallFailure.ok (f : CallFailure) : Bool := f.code.isEmpty

def kRejectionCodes : List String := ["dispatch_failed", "invalid_args", "unknown_method"]

def isRejectionCode (code : String) : Bool := kRejectionCodes.contains code

/-- `dispatchRejection`: the refusal that the value is, when it is one and not data. -/
def dispatchRejection (v : Json) : Option CallFailure :=
  match v with
  | .obj kvs =>
    if kvs.length ≠ 3 then none
    else
      match v.find? "code", v.find? "message", v.find? "origin" with
      | some (.str code), some (.str message), some (.str origin) =>
        if isRejectionCode code then some ⟨code, message, origin⟩ else none
      | _, _, _ => none
  | _ => none

/-! ## 2. What a module publishes -/

/-- One method as the module describes itself.  A method without parameters is not the same as one
whose parameters are not published. -/
structure MethodInfo where
  name : String
  paramTypes : List String := []
  paramsPublished : Bool := false
  deriving DecidableEq, Repr

/-- What a declared parameter type accepts; `expected` is the word for it in a message. -/
structure DeclaredType where
  qtName : String
  expected : String
  accepts : Json → Bool

/-- Only the types whose JSON counterpart is unambiguous. -/
def kDeclaredTypes : List DeclaredType :=
  [⟨"QString", "string", Json.isString⟩, ⟨"bool", "bool", Json.isBoolean⟩,
    ⟨"int", "integer", Json.isNumber⟩, ⟨"uint", "integer", Json.isNumber⟩,
    ⟨"qlonglong", "integer", Json.isNumber⟩, ⟨"qulonglong", "integer", Json.isNumber⟩,
    ⟨"double", "number", Json.isNumber⟩, ⟨"float", "number", Json.isNumber⟩,
    ⟨"QVariantList", "array", Json.isArray⟩, ⟨"QStringList", "array", Json.isArray⟩,
    ⟨"QVariantMap", "object", Json.isObject⟩]

def declaredType (qtName : String) : Option DeclaredType :=
  kDeclaredTypes.find? fun t => qtName == t.qtName

/-- What is said of a value that a declared type does not accept. -/
def mismatchReason (t : DeclaredType) (i : Nat) (v : Json) : String :=
  "expected " ++ t.expected ++ " at arg" ++ toString i ++ ", got " ++ v.typeName

/-- The loop over the positions, from position `i` on. -/
def firstMismatch : Nat → List String → List Json → Option String
  | i, qtName :: paramTypes, v :: args =>
    -- null is the empty state of an optional parameter, and no type refuses it
    if v.isNull then firstMismatch (i + 1) paramTypes args
    else
      match declaredType qtName with
      | none => firstMismatch (i + 1) paramTypes args
      | some t =>
        if t.accepts v then firstMismatch (i + 1) paramTypes args
        else some (mismatchReason t i v)
  | _, _, _ => none

/-- `argumentMismatch`: why the arguments cannot be for the method, when that is certain. -/
def argumentMismatch (method : MethodInfo) (args : Json) : Option String :=
  if !method.paramsPublished then none
  else
    match args with
    | .arr vs =>
      if vs.length ≠ method.paramTypes.length then none
      else firstMismatch 0 method.paramTypes vs
    | _ => none

/-- The types of the parameters listed, or nothing when one of them has none. -/
def paramTypes : List Json → Option (List String)
  | [] => some []
  | p :: params =>
    match p.find? "type" with
    | some (.str t) => (paramTypes params).map (t :: ·)
    | _ => none

def publishedParamTypes (method : Json) : Option (List String) :=
  match method.find? "parameters" with
  | none => some []
  | some (.arr params) => paramTypes params
  | some _ => none

/-- One entry of the answer to `getPluginMethods`. -/
def methodInfo (m : Json) : Option MethodInfo :=
  match m with
  | .str name => some { name }
  | .obj _ =>
    match m.find? "name" with
    | some (.str name) =>
      match publishedParamTypes m with
      | some paramTypes => some { name, paramTypes, paramsPublished := true }
      | none => some { name }
    | _ => none
  | _ => none

/-- `exposedMethods`, of the answer to `getPluginMethods` and its failure. -/
def exposedMethods (answer : Json × CallFailure) : List MethodInfo :=
  if !answer.2.ok then []
  else
    match answer.1 with
    | .arr ms => ms.filterMap methodInfo
    | _ => []

/-! ## 3. The envelope -/

/-- What supplies the module's methods, when there is anything to ask.  Asking does something to
the state. -/
abbrev MethodLister (σ : Type) := Option (StateM σ (List MethodInfo))

def notFoundEnvelope (module method : String) (names : List String) : Json :=
  .obj [("available_methods", .arr (names.map .str)), ("code", .str "METHOD_NOT_FOUND"),
    ("message", .str ("Method '" ++ method ++ "' not found on module '" ++ module ++ "'.")),
    ("status", .str "error")]

def failedEnvelope (module method : String) (failure : CallFailure) : Json :=
  .obj [("code", .str "METHOD_FAILED"),
    ("error", .obj [("code", .str failure.code), ("message", .str failure.message),
      ("origin", .str failure.origin)]),
    ("message", .str ("Call to " ++ module ++ "." ++ method ++ " failed (" ++ failure.code ++
      ": " ++ failure.message ++ ").")),
    ("status", .str "error")]

def okEnvelope (module method : String) (ret : Json) : Json :=
  .obj [("method", .str method), ("module", .str module), ("result", ret), ("status", .str "ok")]

/-- How `callEnvelope` ends. -/
def envelopeOf (module method : String) (ret : Json) (failure : CallFailure) : Json :=
  if !failure.ok then failedEnvelope module method failure else okEnvelope module method ret

/-- `callEnvelope`. -/
def callEnvelope {σ : Type} (module method : String) (ret args : Json) (failure : CallFailure)
    (listMethods : MethodLister σ) : StateM σ Json :=
  let failure := if failure.ok then (dispatchRejection ret).getD failure else failure
  if failure.ok && ret.isNull then
    match listMethods with
    | none => return envelopeOf module method ret failure
    | some list => do
      let methods ← list
      match methods.find? fun m => m.name == method with
      | none =>
        -- a list that came back empty proves nothing
        if !methods.isEmpty then
          return notFoundEnvelope module method (methods.map (·.name))
        else return envelopeOf module method ret failure
      | some found =>
        match argumentMismatch found args with
        | some reason =>
          return envelopeOf module method ret ⟨"argument_mismatch", reason, module⟩
        | none => return envelopeOf module method ret failure
  else return envelopeOf module method ret failure

/-- The name the daemon publishes itself under. -/
def kCoreService : String := "core_service"

/-- The answer to the client, from the envelope. -/
def resultOf (envelope : Json) : CoreService.StdLogosResult :=
  match envelope.find? "status", envelope.find? "message" with
  | some (.str "ok"), _ => { success := true, value := envelope }
  | _, some (.str message) => { success := false, value := envelope, error := message }
  | _, _ => { success := false, value := envelope }

/-- `CoreServiceImpl::callModuleMethod`, of a daemon that is up: `invoke` calls a method of the
module, which brings back a value and what the transport reported. -/
def callModuleMethod {σ : Type} (loadedModules : List String)
    (invoke : String → List Json → StateM σ (Json × CallFailure)) (module method : String)
    (args : List Json) : StateM σ CoreService.StdLogosResult :=
  if module != kCoreService && !loadedModules.contains module then
    let error := "Module '" ++ module ++ "' is not loaded."
    return {
      success := false
      value := .obj [("code", .str "MODULE_NOT_LOADED"),
        ("message", .str (error ++ " Load it with: logosctl module load " ++ module)),
        ("status", .str "error")]
      error }
  else do
    let (ret, failure) ← invoke method args
    let listMethods := exposedMethods <$> invoke "getPluginMethods" []
    resultOf <$> callEnvelope module method ret (.arr args) failure (some listMethods)

/-! ## 4. When a published signature refutes the arguments -/

/-- The type declared at a position refuses the value there, and what is said of it. -/
def RefusesAt (m : MethodInfo) (vs : List Json) (i : Nat) (reason : String) : Prop :=
  ∃ qtName v t, m.paramTypes[i]? = some qtName ∧ vs[i]? = some v ∧ v.isNull = false ∧
    declaredType qtName = some t ∧ t.accepts v = false ∧ reason = mismatchReason t i v

/-- The parameters are published, there are as many as arguments, and `reason` is what is said of
the first position whose declared type refuses the argument. -/
def Refutes (m : MethodInfo) (args : Json) (reason : String) : Prop :=
  m.paramsPublished = true ∧ ∃ vs, args = .arr vs ∧ vs.length = m.paramTypes.length ∧
    ∃ i, RefusesAt m vs i reason ∧ ∀ j < i, ∀ r, ¬ RefusesAt m vs j r

section Refutes

variable {m : MethodInfo} {args : Json} {reason : String} {i : Nat} {qtName : String} {v : Json}
  {types : List String} {vs : List Json}

/-- Position `i` of the two lists refuses; what `RefusesAt` says, of the lists alone. -/
def RefusesIn (types : List String) (vs : List Json) (i : Nat) (t : DeclaredType) (v : Json) :
    Prop :=
  ∃ qtName, types[i]? = some qtName ∧ vs[i]? = some v ∧ v.isNull = false ∧
    declaredType qtName = some t ∧ t.accepts v = false

theorem refusesIn_zero {t : DeclaredType} {w : Json} :
    RefusesIn (qtName :: types) (v :: vs) 0 t w ↔
      w = v ∧ v.isNull = false ∧ declaredType qtName = some t ∧ t.accepts v = false := by
  constructor
  · rintro ⟨q, hq, hw, hnull, ht, haccepts⟩
    cases hq
    cases hw
    exact ⟨rfl, hnull, ht, haccepts⟩
  · rintro ⟨rfl, hnull, ht, haccepts⟩
    exact ⟨qtName, rfl, rfl, hnull, ht, haccepts⟩

/-- A position that does not refuse is passed over. -/
theorem firstMismatch_cons_of_silent (h : ∀ t w, ¬ RefusesIn (qtName :: types) (v :: vs) 0 t w) :
    firstMismatch i (qtName :: types) (v :: vs) = firstMismatch (i + 1) types vs := by
  rw [firstMismatch]
  cases hnull : v.isNull with
  | true => rfl
  | false =>
    cases ht : declaredType qtName with
    | none => rfl
    | some t =>
      cases haccepts : t.accepts v with
      | true => simp [haccepts]
      | false => exact absurd (refusesIn_zero.mpr ⟨rfl, hnull, ht, haccepts⟩) (h t v)

theorem firstMismatch_cons_of_refuses {t : DeclaredType} {w : Json}
    (h : RefusesIn (qtName :: types) (v :: vs) 0 t w) :
    firstMismatch i (qtName :: types) (v :: vs) = some (mismatchReason t i w) := by
  obtain ⟨rfl, hnull, ht, haccepts⟩ := refusesIn_zero.mp h
  simp [firstMismatch, hnull, ht, haccepts]

/-- The loop finds the first position that refuses. -/
theorem firstMismatch_eq_some_iff (types : List String) : ∀ (vs : List Json) (i : Nat),
    firstMismatch i types vs = some reason ↔
      ∃ k t v, RefusesIn types vs k t v ∧ reason = mismatchReason t (i + k) v ∧
        ∀ j < k, ∀ t' v', ¬ RefusesIn types vs j t' v' := by
  induction types with
  | nil =>
    intro vs i
    simp [firstMismatch, RefusesIn]
  | cons qtName types ih =>
    intro vs i
    cases vs with
    | nil => simp [firstMismatch, RefusesIn]
    | cons v vs =>
      by_cases hhead : ∃ t w, RefusesIn (qtName :: types) (v :: vs) 0 t w
      · obtain ⟨t, w, hrefuses⟩ := hhead
        rw [firstMismatch_cons_of_refuses hrefuses, Option.some_inj]
        constructor
        · rintro rfl
          exact ⟨0, t, w, hrefuses, rfl, nofun⟩
        · rintro ⟨k, t', w', hk, rfl, hfirst⟩
          cases k with
          | zero =>
            obtain ⟨rfl, -, ht, -⟩ := refusesIn_zero.mp hrefuses
            obtain ⟨rfl, -, ht', -⟩ := refusesIn_zero.mp hk
            cases ht.symm.trans ht'
            rfl
          | succ k => exact absurd hrefuses (hfirst 0 (Nat.succ_pos k) t w)
      · have hsilent : ∀ t w, ¬ RefusesIn (qtName :: types) (v :: vs) 0 t w :=
          fun t w h => hhead ⟨t, w, h⟩
        rw [firstMismatch_cons_of_silent hsilent, ih]
        constructor
        · rintro ⟨k, t, w, hk, hreason, hfirst⟩
          refine ⟨k + 1, t, w, hk, ?_, ?_⟩
          · rw [hreason, Nat.add_right_comm, Nat.add_assoc]
          · intro j hj t' v'
            cases j with
            | zero => exact hsilent t' v'
            | succ j => exact hfirst j (Nat.lt_of_succ_lt_succ hj) t' v'
        · rintro ⟨k, t, w, hk, hreason, hfirst⟩
          cases k with
          | zero => exact absurd hk (hsilent t w)
          | succ k =>
            refine ⟨k, t, w, hk, ?_, ?_⟩
            · rw [hreason, Nat.add_right_comm, Nat.add_assoc]
            · exact fun j hj => hfirst (j + 1) (Nat.succ_lt_succ hj)

theorem refusesAt_iff : RefusesAt m vs i reason ↔
    ∃ t v, RefusesIn m.paramTypes vs i t v ∧ reason = mismatchReason t i v := by
  constructor
  · rintro ⟨qtName, v, t, htype, hv, hnull, ht, haccepts, hreason⟩
    exact ⟨t, v, ⟨qtName, htype, hv, hnull, ht, haccepts⟩, hreason⟩
  · rintro ⟨t, v, ⟨qtName, htype, hv, hnull, ht, haccepts⟩, hreason⟩
    exact ⟨qtName, v, t, htype, hv, hnull, ht, haccepts, hreason⟩

/-- `argumentMismatch` says that a signature refutes the arguments exactly when it does. -/
theorem argumentMismatch_eq_some_iff :
    argumentMismatch m args = some reason ↔ Refutes m args reason := by
  unfold argumentMismatch Refutes
  cases hpublished : m.paramsPublished with
  | false => simp
  | true =>
    cases args with
    | arr vs =>
      by_cases hlength : vs.length = m.paramTypes.length
      · simp only [Bool.not_true, Bool.false_eq_true, if_false, hlength, ne_eq, not_true_eq_false,
          firstMismatch_eq_some_iff, refusesAt_iff, true_and, Json.arr.injEq, exists_eq_left',
          Nat.zero_add]
        constructor
        · rintro ⟨k, t, v, hk, hreason, hfirst⟩
          exact ⟨k, ⟨t, v, hk, hreason⟩, fun j hj r ⟨t', v', h, _⟩ => hfirst j hj t' v' h⟩
        · rintro ⟨k, ⟨t, v, hk, hreason⟩, hfirst⟩
          exact ⟨k, t, v, hk, hreason, fun j hj t' v' h => hfirst j hj _ ⟨t', v', h, rfl⟩⟩
      · simp [hlength]
    | _ => simp

end Refutes

/-! ## 5. The four verdicts -/

/-- The value is a provider's refusal: a map of exactly three strings, its code one of the known
ones. -/
structure IsRefusal (v : Json) (f : CallFailure) : Prop where
  three : ∃ kvs, v = .obj kvs ∧ kvs.length = 3
  code : v.find? "code" = some (.str f.code)
  message : v.find? "message" = some (.str f.message)
  origin : v.find? "origin" = some (.str f.origin)
  known : f.code ∈ kRejectionCodes

/-- What went wrong with the call: what the transport reported, or if that is nothing the refusal
the value is. -/
def Failed (failure : CallFailure) (ret : Json) (f : CallFailure) : Prop :=
  (failure.ok = false ∧ f = failure) ∨ (failure.ok = true ∧ IsRefusal ret f)

inductive Verdict
  | failed (f : CallFailure)
  | notFound (available : List String)
  | refuted (reason : String)
  | answered

/-- When each of the verdicts is the right one, `listed` being what the module says of its methods
when there is anything to ask. -/
inductive Applies (method : String) (ret args : Json) (failure : CallFailure)
    (listed : Option (List MethodInfo)) : Verdict → Prop
  | failed (f : CallFailure) : Failed failure ret f →
      Applies method ret args failure listed (.failed f)
  | notFound (methods : List MethodInfo) : (∀ f, ¬ Failed failure ret f) → ret = .null →
      listed = some methods → methods ≠ [] → (∀ m ∈ methods, m.name ≠ method) →
      Applies method ret args failure listed (.notFound (methods.map (·.name)))
  | refuted (methods : List MethodInfo) (m : MethodInfo) (reason : String) :
      (∀ f, ¬ Failed failure ret f) → ret = .null → listed = some methods →
      methods.find? (fun m => m.name == method) = some m → Refutes m args reason →
      Applies method ret args failure listed (.refuted reason)
  | answered : (∀ f, ¬ Failed failure ret f) →
      (ret = .null → ∀ methods, listed = some methods → methods ≠ [] →
        ∃ m, methods.find? (fun m => m.name == method) = some m ∧ ∀ reason,
          ¬ Refutes m args reason) →
      Applies method ret args failure listed .answered

/-- The map reports a failure, under the one code that all failures have, and names it to whoever
reads the message alone. -/
structure ReportsFailure (f : CallFailure) (reply : Json) : Prop where
  status : reply.find? "status" = some (.str "error")
  code : reply.find? "code" = some (.str "METHOD_FAILED")
  error : ∃ error, reply.find? "error" = some error ∧ error.find? "code" = some (.str f.code) ∧
    error.find? "message" = some (.str f.message) ∧ error.find? "origin" = some (.str f.origin)
  message : ∃ text, reply.find? "message" = some (.str text) ∧ f.code.toList <:+: text.toList ∧
    f.message.toList <:+: text.toList
  noResult : reply.find? "result" = none

/-- The map reports that there is no such method, and lists those that there are. -/
structure ReportsMissing (module method : String) (available : List String) (reply : Json) :
    Prop where
  status : reply.find? "status" = some (.str "error")
  code : reply.find? "code" = some (.str "METHOD_NOT_FOUND")
  available : reply.find? "available_methods" = some (.arr (available.map .str))
  message : ∃ text, reply.find? "message" = some (.str text) ∧ method.toList <:+: text.toList ∧
    module.toList <:+: text.toList
  noResult : reply.find? "result" = none

/-- The map hands over what the method returned. -/
structure ReportsResult (module method : String) (ret reply : Json) : Prop where
  status : reply.find? "status" = some (.str "ok")
  module : reply.find? "module" = some (.str module)
  method : reply.find? "method" = some (.str method)
  result : reply.find? "result" = some ret
  noCode : reply.find? "code" = none
  noError : reply.find? "error" = none

/-- What the client finds. -/
def Verdict.ReportedBy (module method : String) (ret reply : Json) : Verdict → Prop
  | failed f => ReportsFailure f reply
  | notFound available => ReportsMissing module method available reply
  | refuted reason => ReportsFailure ⟨"argument_mismatch", reason, module⟩ reply
  | answered => ReportsResult module method ret reply

/-- The map that is made for a verdict. -/
def Verdict.envelope (module method : String) (ret : Json) : Verdict → Json
  | failed f => failedEnvelope module method f
  | notFound available => notFoundEnvelope module method available
  | refuted reason => failedEnvelope module method ⟨"argument_mismatch", reason, module⟩
  | answered => okEnvelope module method ret

/-- What is made of a null answer and the module's list. -/
def nullVerdict (method : String) (args : Json) (methods : List MethodInfo) : Verdict :=
  match methods.find? fun m => m.name == method with
  | none => if methods.isEmpty then .answered else .notFound (methods.map (·.name))
  | some found =>
    match argumentMismatch found args with
    | some reason => .refuted reason
    | none => .answered

section Verdicts

variable {σ : Type} {module method : String} {ret args : Json} {failure f f' : CallFailure}
  {listed : Option (List MethodInfo)} {listMethods : MethodLister σ} {s : σ}

/-- The test in the code recognises refusals and nothing else. -/
theorem dispatchRejection_eq_some_iff {v : Json} :
    dispatchRejection v = some f ↔ IsRefusal v f := by
  constructor
  · intro h
    unfold dispatchRejection at h
    split at h
    · next kvs =>
      split at h
      · cases h
      · next hlength =>
        split at h
        · next code message origin hcode hmessage horigin =>
          split at h
          · next hknown =>
            cases h
            exact ⟨⟨kvs, rfl, not_not.mp hlength⟩, hcode, hmessage, horigin,
              List.contains_iff_mem.mp hknown⟩
          · cases h
        · cases h
    · cases h
  · rintro ⟨⟨kvs, rfl, hlength⟩, hcode, hmessage, horigin, hknown⟩
    have hcodes : isRejectionCode f.code = true := List.contains_iff_mem.mpr hknown
    simp [dispatchRejection, hlength, hcode, hmessage, horigin, hcodes]

/-- A refusal says something. -/
theorem IsRefusal.not_ok (h : IsRefusal ret f) : f.ok = false := by
  have hknown := h.known
  simp only [kRejectionCodes, List.mem_cons, List.not_mem_nil, or_false] at hknown
  unfold CallFailure.ok
  rcases hknown with hcode | hcode | hcode <;> rw [hcode] <;> decide

theorem IsRefusal.ret_ne_null (h : IsRefusal ret f) : ret ≠ .null := by
  obtain ⟨kvs, rfl, -⟩ := h.three
  exact nofun

/-- The failure that the code goes on with. -/
theorem failed_iff : Failed failure ret f ↔
    f.ok = false ∧
      (if failure.ok then (dispatchRejection ret).getD failure else failure) = f := by
  unfold Failed
  cases hok : failure.ok with
  | false =>
    simp only [Bool.false_eq_true, if_false, true_and, false_and, or_false]
    exact ⟨fun h => ⟨h ▸ hok, h.symm⟩, fun h => h.2.symm⟩
  | true =>
    simp only [Bool.true_eq_false, false_and, false_or, true_and, if_true]
    cases hrejected : dispatchRejection ret with
    | none =>
      refine ⟨fun h => ?_, ?_⟩
      · rw [dispatchRejection_eq_some_iff.mpr h] at hrejected
        cases hrejected
      · rintro ⟨hf, rfl⟩
        exact absurd (hok.symm.trans hf) (by decide)
    | some g =>
      have hg := dispatchRejection_eq_some_iff.mp hrejected
      refine ⟨fun h => ⟨h.not_ok, ?_⟩, ?_⟩
      · rw [dispatchRejection_eq_some_iff.mpr h] at hrejected
        exact (Option.some.inj hrejected).symm
      · rintro ⟨-, rfl⟩
        exact hg

/-- A call fails in one way only. -/
theorem failed_unique (h : Failed failure ret f) (h' : Failed failure ret f') : f = f' :=
  (failed_iff.mp h).2.symm.trans (failed_iff.mp h').2

theorem refutes_unique {m : MethodInfo} {reason reason' : String} (h : Refutes m args reason)
    (h' : Refutes m args reason') : reason = reason' := by
  have heq := argumentMismatch_eq_some_iff.mpr h
  rw [argumentMismatch_eq_some_iff.mpr h'] at heq
  exact (Option.some.inj heq).symm

theorem find?_ne_none {methods : List MethodInfo} {m : MethodInfo}
    (h : methods.find? (fun m => m.name == method) = some m) :
    ¬ ∀ m ∈ methods, m.name ≠ method := by
  intro hall
  have hname := List.find?_some h
  exact hall m (List.mem_of_find?_eq_some h) (beq_iff_eq.mp hname)

/-- **No two verdicts apply.** -/
theorem applies_unique {v v' : Verdict} (h : Applies method ret args failure listed v)
    (h' : Applies method ret args failure listed v') : v = v' := by
  cases h with
  | failed f hf =>
    cases h' with
    | failed f' hf' => rw [failed_unique hf hf']
    | notFound _ hno => exact absurd hf (hno f)
    | refuted _ _ _ hno => exact absurd hf (hno f)
    | answered hno => exact absurd hf (hno f)
  | notFound methods hno hnull hlisted hne hmissing =>
    cases h' with
    | failed f hf => exact absurd hf (hno f)
    | notFound methods' _ _ hlisted' =>
      cases hlisted.symm.trans hlisted'
      rfl
    | refuted methods' m _ _ _ hlisted' hfind =>
      cases hlisted.symm.trans hlisted'
      exact absurd hmissing (find?_ne_none hfind)
    | answered _ hanswered =>
      obtain ⟨m, hfind, -⟩ := hanswered hnull methods hlisted hne
      exact absurd hmissing (find?_ne_none hfind)
  | refuted methods m reason hno hnull hlisted hfind hrefutes =>
    cases h' with
    | failed f hf => exact absurd hf (hno f)
    | notFound methods' _ _ hlisted' _ hmissing =>
      cases hlisted.symm.trans hlisted'
      exact absurd hmissing (find?_ne_none hfind)
    | refuted methods' m' reason' _ _ hlisted' hfind' hrefutes' =>
      cases hlisted.symm.trans hlisted'
      cases hfind.symm.trans hfind'
      rw [refutes_unique hrefutes hrefutes']
    | answered _ hanswered =>
      have hne : methods ≠ [] := List.ne_nil_of_mem (List.mem_of_find?_eq_some hfind)
      obtain ⟨m', hfind', hnot⟩ := hanswered hnull methods hlisted hne
      cases hfind.symm.trans hfind'
      exact absurd hrefutes (hnot reason)
  | answered hno hanswered =>
    cases h' with
    | failed f hf => exact absurd hf (hno f)
    | notFound methods _ hnull hlisted hne hmissing =>
      obtain ⟨m, hfind, -⟩ := hanswered hnull methods hlisted hne
      exact absurd hmissing (find?_ne_none hfind)
    | refuted methods m reason _ hnull hlisted hfind hrefutes =>
      have hne : methods ≠ [] := List.ne_nil_of_mem (List.mem_of_find?_eq_some hfind)
      obtain ⟨m', hfind', hnot⟩ := hanswered hnull methods hlisted hne
      cases hfind.symm.trans hfind'
      exact absurd hrefutes (hnot reason)
    | answered => rfl

/-! ## 6. What is reported is what applies -/

theorem reportsFailure_failedEnvelope : ReportsFailure f (failedEnvelope module method f) where
  status := rfl
  code := rfl
  error := ⟨_, rfl, rfl, rfl, rfl⟩
  message := by
    refine ⟨_, rfl, ?_, ?_⟩
    · refine ⟨("Call to " ++ module ++ "." ++ method ++ " failed (").toList,
        (": " ++ f.message ++ ").").toList, ?_⟩
      simp only [String.toList_append, List.append_assoc]
    · refine ⟨("Call to " ++ module ++ "." ++ method ++ " failed (" ++ f.code ++ ": ").toList,
        ").".toList, ?_⟩
      simp only [String.toList_append, List.append_assoc]
  noResult := rfl

theorem reportsMissing_notFoundEnvelope {available : List String} :
    ReportsMissing module method available (notFoundEnvelope module method available) where
  status := rfl
  code := rfl
  available := rfl
  message := by
    refine ⟨_, rfl, ?_, ?_⟩
    · refine ⟨"Method '".toList, ("' not found on module '" ++ module ++ "'.").toList, ?_⟩
      simp only [String.toList_append, List.append_assoc]
    · refine ⟨("Method '" ++ method ++ "' not found on module '").toList, "'.".toList, ?_⟩
      simp only [String.toList_append, List.append_assoc]
  noResult := rfl

/-- **The map says what the verdict is.** -/
theorem reportedBy_envelope (v : Verdict) :
    v.ReportedBy module method ret (v.envelope module method ret) := by
  cases v with
  | failed f => exact reportsFailure_failedEnvelope
  | notFound available => exact reportsMissing_notFoundEnvelope
  | refuted reason => exact reportsFailure_failedEnvelope
  | answered => exact ⟨rfl, rfl, rfl, rfl, rfl, rfl⟩

/-- A failed call is reported as that failure, and nobody is asked anything. -/
theorem run_of_failed (h : Failed failure ret f) :
    (callEnvelope module method ret args failure listMethods).run s =
      (failedEnvelope module method f, s) := by
  obtain ⟨hok, heq⟩ := failed_iff.mp h
  simp only [callEnvelope, heq, hok, Bool.false_and, Bool.false_eq_true, if_false, envelopeOf,
    Bool.not_false, if_true]
  rfl

/-- The failure that the code goes on with when there is none. -/
theorem ok_of_not_failed (h : ∀ f, ¬ Failed failure ret f) :
    (if failure.ok then (dispatchRejection ret).getD failure else failure).ok = true := by
  by_contra hok
  exact h _ (failed_iff.mpr ⟨Bool.eq_false_iff.mpr hok, rfl⟩)

/-- A value is handed over, and nobody is asked anything. -/
theorem run_of_value (hno : ∀ f, ¬ Failed failure ret f) (hret : ret ≠ .null) :
    (callEnvelope module method ret args failure listMethods).run s =
      (okEnvelope module method ret, s) := by
  have hok := ok_of_not_failed hno
  have hnull : ret.isNull = false :=
    Bool.eq_false_iff.mpr fun h => hret (Json.isNull_iff.mp h)
  simp only [callEnvelope, hok, hnull, Bool.and_false, Bool.false_eq_true, if_false, envelopeOf,
    Bool.not_true]
  rfl

/-- So is a null when there is nobody to ask. -/
theorem run_of_no_lister (hno : ∀ f, ¬ Failed failure .null f) :
    (callEnvelope module method .null args failure (none : MethodLister σ)).run s =
      (okEnvelope module method .null, s) := by
  have hok := ok_of_not_failed hno
  simp only [callEnvelope, hok, Json.isNull, Bool.and_true, if_true, envelopeOf, Bool.not_true,
    Bool.false_eq_true, if_false]
  rfl

/-- A null is put to the module's own list of methods, which is asked for once. -/
theorem run_of_null (hno : ∀ f, ¬ Failed failure .null f) (list : StateM σ (List MethodInfo)) :
    (callEnvelope module method .null args failure (some list)).run s =
      ((nullVerdict method args (list.run s).1).envelope module method .null,
        (list.run s).2) := by
  have hok := ok_of_not_failed hno
  have hanswer : envelopeOf module method .null
      (if failure.ok then (dispatchRejection .null).getD failure else failure) =
        okEnvelope module method .null := by
    rw [envelopeOf, hok]
    rfl
  simp only [callEnvelope, hok, Json.isNull, Bool.and_true, if_true, hanswer]
  rcases hrun : list.run s with ⟨methods, t⟩
  have hbind : ∀ f : List MethodInfo → StateM σ Json, (list >>= f).run s = (f methods).run t := by
    intro f
    rw [StateT.run_bind, hrun]
    rfl
  rw [hbind, nullVerdict]
  cases methods.find? fun m => m.name == method with
  | none => cases methods.isEmpty <;> rfl
  | some found =>
    dsimp only
    cases argumentMismatch found args with
    | none => rfl
    | some reason => rfl

/-- What is made of a list is the verdict that applies. -/
theorem applies_nullVerdict {methods : List MethodInfo} (hno : ∀ f, ¬ Failed failure .null f) :
    Applies method .null args failure (some methods) (nullVerdict method args methods) := by
  rw [nullVerdict]
  cases hfind : methods.find? fun m => m.name == method with
  | none =>
    have hmissing : ∀ m ∈ methods, m.name ≠ method := by
      intro m hm
      simpa using List.find?_eq_none.mp hfind m hm
    cases methods with
    | nil =>
      refine .answered hno fun _ methods hlisted hne => ?_
      cases hlisted
      exact absurd rfl hne
    | cons m ms => exact .notFound _ hno rfl rfl (List.cons_ne_nil m ms) hmissing
  | some found =>
    dsimp only
    cases hreason : argumentMismatch found args with
    | some reason =>
      exact .refuted _ found reason hno rfl rfl hfind (argumentMismatch_eq_some_iff.mp hreason)
    | none =>
      refine .answered hno fun _ methods hlisted _ => ?_
      cases hlisted
      refine ⟨found, hfind, fun reason hrefutes => ?_⟩
      rw [argumentMismatch_eq_some_iff.mpr hrefutes] at hreason
      cases hreason

/-- The envelope is that of a verdict that applies. -/
theorem exists_verdict (module method : String) (ret args : Json) (failure : CallFailure)
    (listMethods : MethodLister σ) (s : σ) :
    ∃ v, Applies method ret args failure (listMethods.map fun list => (list.run s).1) v ∧
      ((callEnvelope module method ret args failure listMethods).run s).1 =
        v.envelope module method ret := by
  by_cases hfailed : ∃ f, Failed failure ret f
  · obtain ⟨f, hf⟩ := hfailed
    exact ⟨.failed f, .failed f hf, by rw [run_of_failed hf]; rfl⟩
  · have hno : ∀ f, ¬ Failed failure ret f := fun f hf => hfailed ⟨f, hf⟩
    by_cases hret : ret = .null
    · subst hret
      cases listMethods with
      | none =>
        have happlies : Applies method .null args failure none .answered :=
          .answered hno fun _ methods hlisted => by cases hlisted
        exact ⟨.answered, happlies, by rw [run_of_no_lister hno]; rfl⟩
      | some list => exact ⟨_, applies_nullVerdict hno, by rw [run_of_null hno]⟩
    · exact ⟨.answered, .answered hno fun h => absurd h hret, by rw [run_of_value hno hret]; rfl⟩

/-- The module is asked for its methods once at most. -/
theorem asks_once (module method : String) (ret args : Json) (failure : CallFailure)
    (listMethods : MethodLister σ) (s : σ) :
    ((callEnvelope module method ret args failure listMethods).run s).2 = s ∨
      ∃ list, listMethods = some list ∧ ret = .null ∧ (∀ f, ¬ Failed failure ret f) ∧
        ((callEnvelope module method ret args failure listMethods).run s).2 =
          (list.run s).2 := by
  by_cases hfailed : ∃ f, Failed failure ret f
  · obtain ⟨f, hf⟩ := hfailed
    exact Or.inl (by rw [run_of_failed hf])
  · have hno : ∀ f, ¬ Failed failure ret f := fun f hf => hfailed ⟨f, hf⟩
    by_cases hret : ret = .null
    · subst hret
      cases listMethods with
      | none => exact Or.inl (by rw [run_of_no_lister hno])
      | some list => exact Or.inr ⟨list, rfl, rfl, hno, by rw [run_of_null hno]⟩
    · exact Or.inl (by rw [run_of_value hno hret])

/-- Where there is a list, it is asked for when nothing failed and the answer is null. -/
theorem state_callEnvelope (list : StateM σ (List MethodInfo)) :
    ((callEnvelope module method ret args failure (some list)).run s).2 =
      if failure.ok && ret.isNull then (list.run s).2 else s := by
  by_cases hfailed : ∃ f, Failed failure ret f
  · obtain ⟨f, hf⟩ := hfailed
    have hasks : (failure.ok && ret.isNull) = false := by
      rcases hf with ⟨hok, -⟩ | ⟨-, hrefusal⟩
      · rw [hok, Bool.false_and]
      · have hnull : ret.isNull = false :=
          Bool.eq_false_iff.mpr fun h => hrefusal.ret_ne_null (Json.isNull_iff.mp h)
        rw [hnull, Bool.and_false]
    rw [run_of_failed hf, hasks]
    rfl
  · have hno : ∀ f, ¬ Failed failure ret f := fun f hf => hfailed ⟨f, hf⟩
    by_cases hret : ret = .null
    · subst hret
      have hok : failure.ok = true := by
        cases hok : failure.ok with
        | true => rfl
        | false => exact absurd (Or.inl ⟨hok, rfl⟩) (hno failure)
      rw [run_of_null hno, hok]
      rfl
    · have hnull : ret.isNull = false :=
        Bool.eq_false_iff.mpr fun h => hret (Json.isNull_iff.mp h)
      rw [run_of_value hno hret, hnull, Bool.and_false]
      rfl

/-- **Every outcome of a call is reported as what it is.**  For every answer, every list of
arguments, every failure and everything the module may say of itself, exactly one of the four
verdicts applies, and it is what the client finds.  What the transport reported stands whatever
the answer is; an answer that is not null is reported the same whoever could be asked; and the
module's methods are asked for once at most, and only when nothing failed and the answer is null. -/
theorem callEnvelope_classifies (module method : String) (ret args : Json) (failure : CallFailure)
    (listMethods : MethodLister σ) (s : σ) :
    (∃ v, Applies method ret args failure (listMethods.map fun list => (list.run s).1) v ∧
      (∀ v', Applies method ret args failure (listMethods.map fun list => (list.run s).1) v' →
        v' = v) ∧
      v.ReportedBy module method ret
        ((callEnvelope module method ret args failure listMethods).run s).1) ∧
    (failure.ok = false → ∀ ret',
      ReportsFailure failure
          ((callEnvelope module method ret' args failure listMethods).run s).1 ∧
        ((callEnvelope module method ret' args failure listMethods).run s).2 = s) ∧
    (ret ≠ .null → ∀ listMethods' : MethodLister σ,
      (callEnvelope module method ret args failure listMethods').run s =
        (((callEnvelope module method ret args failure listMethods).run s).1, s)) ∧
    (((callEnvelope module method ret args failure listMethods).run s).2 = s ∨
      ∃ list, listMethods = some list ∧ ret = .null ∧ (∀ f, ¬ Failed failure ret f) ∧
        ((callEnvelope module method ret args failure listMethods).run s).2 = (list.run s).2) := by
  obtain ⟨v, happlies, henvelope⟩ := exists_verdict module method ret args failure listMethods s
  refine ⟨⟨v, happlies, fun v' h => applies_unique h happlies, ?_⟩, ?_, ?_,
    asks_once module method ret args failure listMethods s⟩
  · rw [henvelope]
    exact reportedBy_envelope v
  · intro hok ret'
    rw [run_of_failed (Or.inl ⟨hok, rfl⟩)]
    exact ⟨reportsFailure_failedEnvelope, rfl⟩
  · intro hret listMethods'
    by_cases hfailed : ∃ f, Failed failure ret f
    · obtain ⟨f, hf⟩ := hfailed
      rw [run_of_failed hf, run_of_failed hf]
    · have hno : ∀ f, ¬ Failed failure ret f := fun f hf => hfailed ⟨f, hf⟩
      rw [run_of_value hno hret, run_of_value hno hret]

/-! ## 7. The call as a whole -/

/-- Success is the one verdict that is no error. -/
theorem success_resultOf (v : Verdict) :
    (resultOf (v.envelope module method ret)).success = true ↔ v = .answered := by
  cases v with
  | answered => exact ⟨fun _ => rfl, fun _ => rfl⟩
  | _ => exact ⟨fun h => absurd (show false = true from h) Bool.false_ne_true, nofun⟩

/-- **A call of a module that is loaded succeeds exactly when its answer is one.** -/
theorem callModuleMethod_success_iff {loadedModules : List String}
    {invoke : String → List Json → StateM σ (Json × CallFailure)} {args : List Json}
    (hloaded : module = kCoreService ∨ module ∈ loadedModules) :
    ((callModuleMethod loadedModules invoke module method args).run s).1.success = true ↔
      Applies method ((invoke method args).run s).1.1 (.arr args) ((invoke method args).run s).1.2
        (some (exposedMethods
          ((invoke "getPluginMethods" []).run ((invoke method args).run s).2).1)) .answered := by
  have hgate : (module != kCoreService && !loadedModules.contains module) = false := by
    rcases hloaded with rfl | hmem
    · simp
    · simp [hmem]
  obtain ⟨v, happlies, henvelope⟩ := exists_verdict module method
    ((invoke method args).run s).1.1 (.arr args) ((invoke method args).run s).1.2
    (some (exposedMethods <$> invoke "getPluginMethods" [])) ((invoke method args).run s).2
  have hresult : ((callModuleMethod loadedModules invoke module method args).run s).1 =
      resultOf (v.envelope module method ((invoke method args).run s).1.1) := by
    rw [← henvelope, callModuleMethod, hgate]
    rfl
  rw [hresult, success_resultOf]
  constructor
  · rintro rfl
    exact happlies
  · intro hanswered
    exact applies_unique happlies hanswered

end Verdicts

end Logosctl.CallEnvelope
