/-
# The dispatcher of the core service

Every call of a client arrives as the name of a method and a JSON value, and `callMethodStd` finds
the business method that it is for.  The service also publishes its methods, with the type of each
parameter (`getMethodsStd`).  These are two lists of the same fourteen methods, written apart.

What a call asks for is stated on its own (`Asks`).  The dispatcher performs exactly that: a call
that asks for something has it carried out, with the arguments it gave; one that asks for nothing is
answered, and the service is as it was (`callMethodStd_exact`).  Whatever conforms to the published
list is carried out under that name, and no other name is (`served_exactly`).
-/
import Logosctl.CoreService
import Mathlib.Data.List.Forall2

namespace Logosctl

/-- `size()`. -/
def Json.size : Json → Nat
  | .null => 0
  | .arr xs => xs.length
  | .obj kvs => kvs.length
  | _ => 1

namespace CoreService

open Library

/-! ## 1. The service -/

/-- The business methods of `CoreServiceImpl`: what each takes, and what it answers; of what it
throws, the text. -/
structure Service (σ : Type) where
  loadModule (name : String) : Prog σ String StdLogosResult
  unloadModule (name : String) (withDependents : Bool) : Prog σ String StdLogosResult
  reloadModule (name : String) : Prog σ String StdLogosResult
  refreshModules : Prog σ String Json
  planPackageOperation (op : String) (names opts : Json) : Prog σ String Json
  applyPackageOperation (op : String) (names opts : Json) : Prog σ String Json
  downloadPackage (name : String) (opts : Json) : Prog σ String Json
  listModules (filter : String) : Prog σ String Json
  getStatus : Prog σ String Json
  getModuleInfo (name : String) : Prog σ String Json
  getModuleStats : Prog σ String Json
  callModuleMethod (module method : String) (args : Json) : Prog σ String StdLogosResult
  watchModuleEvents (module eventName : String) : Prog σ String Bool
  shutdown : Prog σ String Json

/-- `LogosMethodMetadata`: a name, the name and type of each parameter, and what is returned. -/
structure LogosMethodMetadata where
  name : String
  parameters : List (String × String)
  returnType : String
  deriving DecidableEq

/-- `getMethodsStd`. -/
def getMethodsStd : List LogosMethodMetadata :=
  [⟨"loadModule", [("name", "string")], "StdLogosResult"⟩,
    ⟨"unloadModule", [("name", "string"), ("withDependents", "bool")], "StdLogosResult"⟩,
    ⟨"reloadModule", [("name", "string")], "StdLogosResult"⟩,
    ⟨"refreshModules", [], "LogosMap"⟩,
    ⟨"planPackageOperation", [("op", "string"), ("names", "LogosList"), ("opts", "LogosMap")],
      "LogosMap"⟩,
    ⟨"applyPackageOperation", [("op", "string"), ("names", "LogosList"), ("opts", "LogosMap")],
      "LogosMap"⟩,
    ⟨"downloadPackage", [("name", "string"), ("opts", "LogosMap")], "LogosMap"⟩,
    ⟨"listModules", [("filter", "string")], "LogosList"⟩,
    ⟨"getStatus", [], "LogosMap"⟩,
    ⟨"getModuleInfo", [("name", "string")], "LogosMap"⟩,
    ⟨"getModuleStats", [], "LogosList"⟩,
    ⟨"callModuleMethod", [("module", "string"), ("method", "string"), ("args", "LogosList")],
      "StdLogosResult"⟩,
    ⟨"watchModuleEvents", [("module", "string"), ("eventName", "string")], "bool"⟩,
    ⟨"shutdown", [], "LogosMap"⟩]

/-! ## 2. The dispatcher -/

/-- `args[i]`, read once the size has been looked at: what has a size and is no array throws. -/
def item (args : Json) (i : Nat) : Except String Json :=
  match args with
  | .arr xs => .ok (xs[i]?.getD .null)
  | _ => .error ("[json.exception.type_error.305] cannot use operator[] with a numeric argument " ++
      "with " ++ args.typeName)

/-- `get<std::string>()`. -/
def asString : Json → Except String String
  | .str s => .ok s
  | j => .error ("[json.exception.type_error.302] type must be string, but is " ++ j.typeName)

/-- `get<bool>()`. -/
def asBool : Json → Except String Bool
  | .bool b => .ok b
  | j => .error ("[json.exception.type_error.302] type must be boolean, but is " ++ j.typeName)

def stringAt (args : Json) (i : Nat) : Except String String := item args i >>= asString

def boolAt (args : Json) (i : Nat) : Except String Bool := item args i >>= asBool

section Dispatch

variable {σ : Type} (svc : Service σ)

/-- The body of `callMethodStd`.  Which of several arguments is converted first is left to the
compiler there, and shows in the text of the exception alone. -/
def callMethod (methodName : String) (args : Json) : Prog σ String Json :=
  if methodName = "loadModule" ∧ 1 ≤ args.size then do
    let name ← Prog.lift id (stringAt args 0)
    return (← svc.loadModule name).value
  else if methodName = "unloadModule" ∧ 1 ≤ args.size then do
    let withDependents ← Prog.lift id (if 2 ≤ args.size then boolAt args 1 else .ok true)
    let name ← Prog.lift id (stringAt args 0)
    return (← svc.unloadModule name withDependents).value
  else if methodName = "reloadModule" ∧ 1 ≤ args.size then do
    let name ← Prog.lift id (stringAt args 0)
    return (← svc.reloadModule name).value
  else if methodName = "refreshModules" then svc.refreshModules
  else if methodName = "planPackageOperation" ∧ 3 ≤ args.size then do
    let op ← Prog.lift id (stringAt args 0)
    let names ← Prog.lift id (item args 1)
    let opts ← Prog.lift id (item args 2)
    svc.planPackageOperation op names opts
  else if methodName = "applyPackageOperation" ∧ 3 ≤ args.size then do
    let op ← Prog.lift id (stringAt args 0)
    let names ← Prog.lift id (item args 1)
    let opts ← Prog.lift id (item args 2)
    svc.applyPackageOperation op names opts
  else if methodName = "downloadPackage" ∧ 2 ≤ args.size then do
    let name ← Prog.lift id (stringAt args 0)
    let opts ← Prog.lift id (item args 1)
    svc.downloadPackage name opts
  else if methodName = "listModules" then do
    let filter ← Prog.lift id (if 1 ≤ args.size then stringAt args 0 else .ok "all")
    svc.listModules filter
  else if methodName = "getStatus" then svc.getStatus
  else if methodName = "getModuleInfo" ∧ 1 ≤ args.size then do
    let name ← Prog.lift id (stringAt args 0)
    svc.getModuleInfo name
  else if methodName = "getModuleStats" then svc.getModuleStats
  else if methodName = "callModuleMethod" ∧ 3 ≤ args.size then do
    let module ← Prog.lift id (stringAt args 0)
    let method ← Prog.lift id (stringAt args 1)
    let margs ← Prog.lift id (item args 2)
    return (← svc.callModuleMethod module method margs).value
  else if methodName = "watchModuleEvents" ∧ 2 ≤ args.size then do
    let module ← Prog.lift id (stringAt args 0)
    let eventName ← Prog.lift id (stringAt args 1)
    return .bool (← svc.watchModuleEvents module eventName)
  else if methodName = "shutdown" then svc.shutdown
  else return .null

end Dispatch

/-- The answer to a call that threw. -/
def invalidArguments (what : String) : Json :=
  .obj [("code", .str "INVALID_ARGS"), ("message", .str ("invalid arguments: " ++ what)),
    ("status", .str "error")]

/-- What a client gets of a call, however it ended, and what the service is then. -/
def settled {σ : Type} (ended : Except String Json × σ) : Json × σ :=
  match ended with
  | (.ok reply, s) => (reply, s)
  | (.error what, s) => (invalidArguments what, s)

/-- `CoreServiceImpl::callMethodStd`. -/
def callMethodStd {σ : Type} (svc : Service σ) (methodName : String) (args : Json) (s : σ) :
    Json × σ :=
  settled ((callMethod svc methodName args).exec s)

/-! ## 3. What a call asks for -/

/-- What there is to ask the service for. -/
inductive Request
  | loadModule (name : String)
  | unloadModule (name : String) (withDependents : Bool)
  | reloadModule (name : String)
  | refreshModules
  | planPackageOperation (op : String) (names opts : Json)
  | applyPackageOperation (op : String) (names opts : Json)
  | downloadPackage (name : String) (opts : Json)
  | listModules (filter : String)
  | getStatus
  | getModuleInfo (name : String)
  | getModuleStats
  | callModuleMethod (module method : String) (args : Json)
  | watchModuleEvents (module eventName : String)
  | shutdown

/-- The business method of a request. -/
def perform {σ : Type} (svc : Service σ) : Request → Prog σ String Json
  | .loadModule name => StdLogosResult.value <$> svc.loadModule name
  | .unloadModule name withDependents =>
    StdLogosResult.value <$> svc.unloadModule name withDependents
  | .reloadModule name => StdLogosResult.value <$> svc.reloadModule name
  | .refreshModules => svc.refreshModules
  | .planPackageOperation op names opts => svc.planPackageOperation op names opts
  | .applyPackageOperation op names opts => svc.applyPackageOperation op names opts
  | .downloadPackage name opts => svc.downloadPackage name opts
  | .listModules filter => svc.listModules filter
  | .getStatus => svc.getStatus
  | .getModuleInfo name => svc.getModuleInfo name
  | .getModuleStats => svc.getModuleStats
  | .callModuleMethod module method args =>
    StdLogosResult.value <$> svc.callModuleMethod module method args
  | .watchModuleEvents module eventName => Json.bool <$> svc.watchModuleEvents module eventName
  | .shutdown => svc.shutdown

/-- The name that a request goes by. -/
def Request.method : Request → String
  | .loadModule _ => "loadModule"
  | .unloadModule _ _ => "unloadModule"
  | .reloadModule _ => "reloadModule"
  | .refreshModules => "refreshModules"
  | .planPackageOperation _ _ _ => "planPackageOperation"
  | .applyPackageOperation _ _ _ => "applyPackageOperation"
  | .downloadPackage _ _ => "downloadPackage"
  | .listModules _ => "listModules"
  | .getStatus => "getStatus"
  | .getModuleInfo _ => "getModuleInfo"
  | .getModuleStats => "getModuleStats"
  | .callModuleMethod _ _ _ => "callModuleMethod"
  | .watchModuleEvents _ _ => "watchModuleEvents"
  | .shutdown => "shutdown"

/-- Its arguments, all of them given. -/
def Request.args : Request → List Json
  | .loadModule name | .reloadModule name | .getModuleInfo name => [.str name]
  | .unloadModule name withDependents => [.str name, .bool withDependents]
  | .planPackageOperation op names opts | .applyPackageOperation op names opts =>
    [.str op, names, opts]
  | .downloadPackage name opts => [.str name, opts]
  | .listModules filter => [.str filter]
  | .callModuleMethod module method args => [.str module, .str method, args]
  | .watchModuleEvents module eventName => [.str module, .str eventName]
  | .refreshModules | .getStatus | .getModuleStats | .shutdown => []

/-- The arguments with which a method is called to ask for a request: those of the request in
order, and more of them do no harm.  An unload takes the dependents with it unless it is told
otherwise, and a list is of all modules. -/
inductive Asks : Json → Request → Prop
  | loadModule {name : String} {rest : List Json} :
    Asks (.arr (.str name :: rest)) (.loadModule name)
  | unloadModule {name : String} {b : Bool} {rest : List Json} :
    Asks (.arr (.str name :: .bool b :: rest)) (.unloadModule name b)
  | unloadCascade {name : String} : Asks (.arr [.str name]) (.unloadModule name true)
  | reloadModule {name : String} {rest : List Json} :
    Asks (.arr (.str name :: rest)) (.reloadModule name)
  | refreshModules {args : Json} : Asks args .refreshModules
  | planPackageOperation {op : String} {names opts : Json} {rest : List Json} :
    Asks (.arr (.str op :: names :: opts :: rest)) (.planPackageOperation op names opts)
  | applyPackageOperation {op : String} {names opts : Json} {rest : List Json} :
    Asks (.arr (.str op :: names :: opts :: rest)) (.applyPackageOperation op names opts)
  | downloadPackage {name : String} {opts : Json} {rest : List Json} :
    Asks (.arr (.str name :: opts :: rest)) (.downloadPackage name opts)
  | listModules {filter : String} {rest : List Json} :
    Asks (.arr (.str filter :: rest)) (.listModules filter)
  | listAll {args : Json} (hsize : args.size = 0) : Asks args (.listModules "all")
  | getStatus {args : Json} : Asks args .getStatus
  | getModuleInfo {name : String} {rest : List Json} :
    Asks (.arr (.str name :: rest)) (.getModuleInfo name)
  | getModuleStats {args : Json} : Asks args .getModuleStats
  | callModuleMethod {module method : String} {args : Json} {rest : List Json} :
    Asks (.arr (.str module :: .str method :: args :: rest)) (.callModuleMethod module method args)
  | watchModuleEvents {module eventName : String} {rest : List Json} :
    Asks (.arr (.str module :: .str eventName :: rest)) (.watchModuleEvents module eventName)
  | shutdown {args : Json} : Asks args .shutdown

/-- What is sent for a request asks for it. -/
theorem asks_request (r : Request) : Asks (.arr r.args) r := by
  cases r <;> constructor

section Reading

variable {args j : Json} {xs : List Json} {i : Nat} {name : String} {b : Bool}

@[simp] theorem size_arr : (Json.arr xs).size = xs.length := rfl

@[simp] theorem item_arr : item (.arr xs) i = .ok (xs[i]?.getD .null) := rfl

@[simp] theorem stringAt_arr : stringAt (.arr xs) i = asString (xs[i]?.getD .null) := rfl

@[simp] theorem boolAt_arr : boolAt (.arr xs) i = asBool (xs[i]?.getD .null) := rfl

@[simp] theorem asString_str : asString (.str name) = .ok name := rfl

@[simp] theorem asBool_bool : asBool (.bool b) = .ok b := rfl

theorem item_eq_ok (h : item args i = .ok j) (hsize : i < args.size) :
    ∃ xs, args = .arr xs ∧ xs[i]? = some j := by
  cases args with
  | arr xs =>
    cases h
    refine ⟨xs, rfl, ?_⟩
    rw [List.getElem?_eq_getElem hsize, Option.getD_some]
  | null | bool | int | float | str | obj => cases h

theorem asString_eq_ok (h : asString j = .ok name) : j = .str name := by
  cases j with
  | str s =>
    cases h
    rfl
  | null | bool | int | float | arr | obj => cases h

theorem asBool_eq_ok (h : asBool j = .ok b) : j = .bool b := by
  cases j with
  | bool b' =>
    cases h
    rfl
  | null | str | int | float | arr | obj => cases h

/-- A first argument that is a string. -/
theorem exists_of_stringAt (h : stringAt args 0 = .ok name) (hsize : 1 ≤ args.size) :
    ∃ rest, args = .arr (.str name :: rest) := by
  obtain ⟨j, hj, hname⟩ := except_bind_eq_ok.mp h
  obtain ⟨_ | ⟨x, rest⟩, rfl, hx⟩ := item_eq_ok hj hsize
  · cases hx
  · cases hx
    exact ⟨rest, by rw [asString_eq_ok hname]⟩

end Reading

/-! ## 4. The dispatcher carries out what is asked for, and does nothing else -/

section Spec

variable {σ α : Type} {svc : Service σ} {m : String} {args : Json} {r : Request}

/-- **A call that asks for something has it carried out**, with the arguments it gave. -/
theorem callMethod_of_asks (h : Asks args r) : callMethod svc r.method args = perform svc r := by
  have hlift : ∀ {α : Type} (a : α), (Prog.lift id (.ok a) : Prog σ String α) = pure a :=
    fun _ => rfl
  cases h with
  | listAll hsize => simp [callMethod, Request.method, perform, hsize, hlift]
  | loadModule | unloadModule | unloadCascade | reloadModule | refreshModules
  | planPackageOperation | applyPackageOperation | downloadPackage | listModules | getStatus
  | getModuleInfo | getModuleStats | callModuleMethod | watchModuleEvents | shutdown =>
    simp [callMethod, Request.method, perform, hlift]

/-- A computation that answers null, or throws, and does nothing. -/
def Refuses (p : Prog σ String Json) : Prop :=
  (∀ s, p.exec s = (.ok .null, s)) ∨ ∃ what, ∀ s, p.exec s = (.error what, s)

/-- It refuses, unless a call of `m` with these arguments asks for something. -/
def Serves (m : String) (args : Json) (p : Prog σ String Json) : Prop :=
  Refuses p ∨ ∃ r : Request, r.method = m ∧ Asks args r

/-- Of a conversion that throws nothing comes. -/
theorem serves_lift {x : Except String α} {f : α → Prog σ String Json}
    (h : ∀ a, x = .ok a → Serves m args (f a)) : Serves m args (Prog.lift id x >>= f) := by
  cases x with
  | ok a => exact h a rfl
  | error what => exact Or.inl (Or.inr ⟨what, fun s => rfl⟩)

theorem serves_ite {c : Prop} [Decidable c] {p q : Prog σ String Json}
    (hp : c → Serves m args p) (hq : Serves m args q) : Serves m args (if c then p else q) := by
  split
  · next hc => exact hp hc
  · exact hq

theorem serves_request {p : Prog σ String Json} (r : Request) (hm : m = r.method)
    (h : Asks args r) : Serves m args p := Or.inr ⟨r, hm.symm, h⟩

/-- A method that takes a name first: the call is one with a name, or is refused. -/
theorem serves_name {f : String → Prog σ String Json} (hsize : 1 ≤ args.size)
    (h : ∀ name rest, args = .arr (.str name :: rest) → Serves m args (f name)) :
    Serves m args (Prog.lift id (stringAt args 0) >>= f) := by
  refine serves_lift fun name hname => ?_
  obtain ⟨rest, hargs⟩ := exists_of_stringAt hname hsize
  exact h name rest hargs

/-- What a method says that takes a name and two more. -/
theorem serves_triple {f : String → Prog σ String Json} (hsize : 3 ≤ args.size)
    (h : ∀ name x y rest, args = .arr (.str name :: x :: y :: rest) → Serves m args (f name)) :
    Serves m args (Prog.lift id (stringAt args 0) >>= f) := by
  refine serves_name (Nat.le_trans (by decide) hsize) fun name rest hargs => ?_
  obtain _ | ⟨x, _ | ⟨y, rest⟩⟩ := rest
  · simp [hargs] at hsize
  · simp [hargs] at hsize
  · exact h name x y rest hargs

theorem serves_callMethod (svc : Service σ) (m : String) (args : Json) :
    Serves m args (callMethod svc m args) := by
  unfold callMethod
  refine serves_ite (fun h => ?_) (serves_ite (fun h => ?_) (serves_ite (fun h => ?_)
    (serves_ite (fun h => ?_) (serves_ite (fun h => ?_) (serves_ite (fun h => ?_)
    (serves_ite (fun h => ?_) (serves_ite (fun h => ?_) (serves_ite (fun h => ?_)
    (serves_ite (fun h => ?_) (serves_ite (fun h => ?_) (serves_ite (fun h => ?_)
    (serves_ite (fun h => ?_) (serves_ite (fun h => ?_) ?_)))))))))))))
  · refine serves_name h.2 fun name rest hargs => serves_request (.loadModule name) h.1 ?_
    exact hargs ▸ .loadModule
  · refine serves_lift fun b hb => serves_name h.2 fun name rest hargs => ?_
    refine serves_request (.unloadModule name b) h.1 ?_
    subst hargs
    cases rest with
    | nil =>
      cases hb
      exact .unloadCascade
    | cons x rest =>
      rw [if_pos (by simp)] at hb
      obtain rfl := asBool_eq_ok hb
      exact .unloadModule
  · refine serves_name h.2 fun name rest hargs => serves_request (.reloadModule name) h.1 ?_
    exact hargs ▸ .reloadModule
  · exact serves_request .refreshModules h .refreshModules
  · refine serves_triple h.2 fun op names opts rest hargs => ?_
    exact serves_request (.planPackageOperation op names opts) h.1 (hargs ▸ .planPackageOperation)
  · refine serves_triple h.2 fun op names opts rest hargs => ?_
    exact serves_request (.applyPackageOperation op names opts) h.1 (hargs ▸ .applyPackageOperation)
  · refine serves_name (Nat.le_trans (by decide) h.2) fun name rest hargs => ?_
    obtain _ | ⟨opts, rest⟩ := rest
    · simp [hargs] at h
    · exact serves_request (.downloadPackage name opts) h.1 (hargs ▸ .downloadPackage)
  · refine serves_lift fun filter hfilter => ?_
    split at hfilter
    · next hsize =>
      obtain ⟨rest, hargs⟩ := exists_of_stringAt hfilter hsize
      exact serves_request (.listModules filter) h (hargs ▸ .listModules)
    · next hsize =>
      exact serves_request (.listModules "all") h (.listAll (by omega))
  · exact serves_request .getStatus h .getStatus
  · refine serves_name h.2 fun name rest hargs => serves_request (.getModuleInfo name) h.1 ?_
    exact hargs ▸ .getModuleInfo
  · exact serves_request .getModuleStats h .getModuleStats
  · refine serves_triple h.2 fun module x margs rest hargs => serves_lift fun method hmethod => ?_
    subst hargs
    obtain rfl := asString_eq_ok hmethod
    exact serves_request (.callModuleMethod module method margs) h.1 .callModuleMethod
  · refine serves_name (Nat.le_trans (by decide) h.2) fun module rest hargs => ?_
    obtain _ | ⟨x, rest⟩ := rest
    · simp [hargs] at h
    · refine serves_lift fun eventName hevent => ?_
      subst hargs
      obtain rfl := asString_eq_ok hevent
      exact serves_request (.watchModuleEvents module eventName) h.1 .watchModuleEvents
  · exact serves_request .shutdown h .shutdown
  · exact Or.inl (Or.inl fun s => rfl)

/-- **The dispatcher does what is asked of it, and nothing else**: a call that asks for something
has the business method of that name carried out with the arguments it gave; any other call is
answered with null, or as one with invalid arguments, and the service is as it was. -/
theorem callMethodStd_exact (svc : Service σ) (m : String) (args : Json) :
    (∀ r : Request, r.method = m → Asks args r →
      ∀ s, callMethodStd svc m args s = settled ((perform svc r).exec s)) ∧
    ((∀ r : Request, r.method = m → ¬ Asks args r) →
      (∀ s, callMethodStd svc m args s = (.null, s)) ∨
        ∃ what, ∀ s, callMethodStd svc m args s = (invalidArguments what, s)) := by
  constructor
  · rintro r rfl h s
    rw [callMethodStd, callMethod_of_asks h]
  · intro hno
    rcases serves_callMethod svc m args with (hnull | ⟨what, hthrows⟩) | ⟨r, hm, h⟩
    · refine Or.inl fun s => ?_
      rw [callMethodStd, hnull, settled]
    · refine Or.inr ⟨what, fun s => ?_⟩
      rw [callMethodStd, hthrows, settled]
    · exact absurd h (hno r hm)

end Spec

/-! ## 5. The published methods -/

/-- A JSON value of a published type. -/
def HasType : String → Json → Bool
  | "string", j => j.isString
  | "bool", j => j.isBoolean
  | "LogosList", j => j.isArray
  | "LogosMap", j => j.isObject
  | _, _ => false

/-- The arguments are what a method has published. -/
def LogosMethodMetadata.Conforms (m : LogosMethodMetadata) (args : List Json) : Prop :=
  List.Forall₂ (fun p j => HasType p.2 j = true) m.parameters args

theorem hasType_string {j : Json} : HasType "string" j = true ↔ ∃ s, j = .str s := by
  cases j <;> simp [HasType, Json.isString]

theorem hasType_bool {j : Json} : HasType "bool" j = true ↔ ∃ b, j = .bool b := by
  cases j <;> simp [HasType, Json.isBoolean]

/-- What conforms to a published method is what is sent for some request. -/
theorem request_of_conforms {m : LogosMethodMetadata} (hm : m ∈ getMethodsStd) {args : List Json}
    (h : m.Conforms args) : ∃ r : Request, r.method = m.name ∧ r.args = args := by
  simp only [getMethodsStd, List.mem_cons, List.not_mem_nil, or_false] at hm
  unfold LogosMethodMetadata.Conforms at h
  rcases hm with
    rfl | rfl | rfl | rfl | rfl | rfl | rfl | rfl | rfl | rfl | rfl | rfl | rfl | rfl <;>
    simp only [List.forall₂_cons_left_iff, List.forall₂_nil_left_iff, hasType_string,
      hasType_bool] at h
  · obtain ⟨_, _, ⟨name, rfl⟩, rfl, rfl⟩ := h
    exact ⟨.loadModule name, rfl, rfl⟩
  · obtain ⟨_, _, ⟨name, rfl⟩, ⟨_, _, ⟨b, rfl⟩, rfl, rfl⟩, rfl⟩ := h
    exact ⟨.unloadModule name b, rfl, rfl⟩
  · obtain ⟨_, _, ⟨name, rfl⟩, rfl, rfl⟩ := h
    exact ⟨.reloadModule name, rfl, rfl⟩
  · exact ⟨.refreshModules, rfl, h.symm⟩
  · obtain ⟨_, _, ⟨op, rfl⟩, ⟨names, _, -, ⟨opts, _, -, rfl, rfl⟩, rfl⟩, rfl⟩ := h
    exact ⟨.planPackageOperation op names opts, rfl, rfl⟩
  · obtain ⟨_, _, ⟨op, rfl⟩, ⟨names, _, -, ⟨opts, _, -, rfl, rfl⟩, rfl⟩, rfl⟩ := h
    exact ⟨.applyPackageOperation op names opts, rfl, rfl⟩
  · obtain ⟨_, _, ⟨name, rfl⟩, ⟨opts, _, -, rfl, rfl⟩, rfl⟩ := h
    exact ⟨.downloadPackage name opts, rfl, rfl⟩
  · obtain ⟨_, _, ⟨filter, rfl⟩, rfl, rfl⟩ := h
    exact ⟨.listModules filter, rfl, rfl⟩
  · exact ⟨.getStatus, rfl, h.symm⟩
  · obtain ⟨_, _, ⟨name, rfl⟩, rfl, rfl⟩ := h
    exact ⟨.getModuleInfo name, rfl, rfl⟩
  · exact ⟨.getModuleStats, rfl, h.symm⟩
  · obtain ⟨_, _, ⟨module, rfl⟩, ⟨_, _, ⟨method, rfl⟩, ⟨args, _, -, rfl, rfl⟩, rfl⟩, rfl⟩ := h
    exact ⟨.callModuleMethod module method args, rfl, rfl⟩
  · obtain ⟨_, _, ⟨module, rfl⟩, ⟨_, _, ⟨eventName, rfl⟩, rfl, rfl⟩, rfl⟩ := h
    exact ⟨.watchModuleEvents module eventName, rfl, rfl⟩
  · exact ⟨.shutdown, rfl, h.symm⟩

/-- **What is published is what is served.**  A call that conforms to a published method has that
method carried out with these arguments; under any other name nothing is done. -/
theorem served_exactly {σ : Type} (svc : Service σ) :
    (∀ m ∈ getMethodsStd, ∀ args, m.Conforms args →
      ∃ r : Request, r.method = m.name ∧ r.args = args ∧
        ∀ s, callMethodStd svc m.name (.arr args) s = settled ((perform svc r).exec s)) ∧
    ∀ name, (∀ m ∈ getMethodsStd, m.name ≠ name) →
      ∀ args s, callMethodStd svc name args s = (.null, s) := by
  constructor
  · intro m hm args h
    obtain ⟨r, hname, rfl⟩ := request_of_conforms hm h
    refine ⟨r, hname, rfl, fun s => ?_⟩
    rw [callMethodStd, ← hname, callMethod_of_asks (asks_request r)]
  · intro name hno args s
    simp only [getMethodsStd, List.forall_mem_cons, ne_comm] at hno
    simp [callMethodStd, callMethod, settled, hno]

end CoreService

end Logosctl
