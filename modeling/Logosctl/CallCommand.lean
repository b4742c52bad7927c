/-
# What a call on the command line sends, and how it ends

The words after `call` have no types.  A prefix says how one of them is meant: `json:` for any value
in JSON, `str:` for a text as it stands, `@` for the contents of a file; without one the type is
guessed.  And there are two ways of naming the method, of which the longer has the word `method` in
its middle, and so takes something away from the shorter one.

Nothing is out of reach: a text can be sent as it stands (`coerceArg_str`), there are words for
every call with a module and a method, whatever its arguments (`sends_spell`), and the shorter form
means what it looks like unless the method is called `method` (`short_iff`).  Once sent, the call
goes through the dispatcher to the module; the exit code tells what became of it there
(`call_exit`).
-/
import Logosctl.ArgCoerce
import Logosctl.CallEnvelope
import Logosctl.Commands

namespace Logosctl.CallCommand

open Library CallEnvelope
open CoreService (Service StdLogosResult)
open Commands (Client Ended Fate Printed answer connected invalidArgs invoke objectOr printError
  rpcFailed)

/-! ## 1. The source -/

/-- What the command reads with and prints with: the files it can open, the JSON library, and the
formats of numbers. -/
structure Shell where
  readFile : String → Option String
  parse : String → Except String Json
  dump : Json → String
  stod : List Char → Option ((Int × Int) × Nat)
  showFloat : Int → Int → String

/-- `strutil::starts_with`. -/
def startsWith (s start : String) : Bool := start.toList.isPrefixOf s.toList

/-- `substr(n)`. -/
def substr (s : String) (n : Nat) : String := String.ofList (s.toList.drop n)

section Source

variable (sh : Shell)

/-- `CallCommand::resolveFileParam`: nothing when the file cannot be opened. -/
def resolveFileParam (param : String) : Option String :=
  if !startsWith param "@" then some param else sh.readFile (substr param 1)

/-- One round of the loop over the arguments: the value, or a message. -/
def coerceArg (arg : String) : Except String Json :=
  if startsWith arg "json:" then
    let body := substr arg 5
    match resolveFileParam sh body with
    | none => .error ("Failed to read file: " ++ substr body 1)
    | some text =>
      match sh.parse text with
      | .ok j => .ok j
      | .error what => .error ("Invalid JSON in argument '" ++ arg ++ "': " ++ what)
  else if startsWith arg "str:" then .ok (.str (substr arg 4))
  else
    match resolveFileParam sh arg with
    | none => .error ("Failed to read file: " ++ substr arg 1)
    | some resolved => .ok (ArgCoerce.scalar sh.stod resolved)

/-- The module, the method and its arguments: with the word `method` in the middle, or without. -/
def splitArgs : List String → Option (String × String × List String)
  | moduleName :: second :: third :: rest =>
    if second = "method" then some (moduleName, third, rest)
    else some (moduleName, second, third :: rest)
  | [moduleName, methodName] => some (moduleName, methodName, [])
  | _ => none

def parseCall (args : List String) : Option (String × String × List String) :=
  (splitArgs args).filter fun (moduleName, methodName, _) =>
    !(moduleName.isEmpty || methodName.isEmpty)

/-- The loop that joins the methods of a module. -/
def joined (methods : List Json) : String :=
  methods.foldl (fun joined m =>
    match m with
    | .str name => (if joined.isEmpty then joined else joined ++ ", ") ++ name
    | _ => joined) ""

/-- What a person is told of the methods that there are. -/
def availableMethods (result : Json) : String :=
  let names := joined (((result.find? "available_methods").getD .null).elems)
  if names.isEmpty then "" else "\n  Available methods: " ++ names

/-- A result, for a person. -/
def showResult : Json → List Printed
  | .null => []
  | .str s => [.out s]
  | .bool b => [.out (if b then "true" else "false")]
  | .int i => [.out (toString i)]
  | .float m e =>
    let i := Json.truncate m e
    let integral := 0 ≤ e ∨ i * 2 ^ (-e).toNat = m
    [.out (if integral ∧ -(2 ^ 63) ≤ i ∧ i < 2 ^ 63 then toString i else sh.showFloat m e)]
  | j => [.out (sh.dump j)]

/-- What `CallCommand::execute` makes of the answer. -/
def reportCall (jsonMode : Bool) (result : Json) : Except TypeError (Nat × List Printed) := do
  let status ← result.valueStr "status"
  if status = "error" then
    let code ← result.valueStr "code"
    let exitCode := if code = "MODULE_NOT_LOADED" ∨ code = "MODULE_NOT_FOUND" then 3 else 4
    let message ← result.valueStr "message"
    return (exitCode, printError jsonMode code
      (if jsonMode then message else message ++ availableMethods result) result)
  else if jsonMode then return (0, [.document result])
  else return (0, showResult sh ((result.find? "result").getD .null))

variable {σ : Type} (svc : Service σ) (c : Client)

/-- `RpcClient::callModuleMethod`. -/
def callModuleMethod (module method : String) (args : List Json) (s : σ) : Json × σ :=
  let (ret, s) := invoke svc c "callModuleMethod" [.str module, .str method, .arr args] s
  (objectOr (rpcFailed ("callModuleMethod('" ++ module ++ "','" ++ method ++ "')")) ret, s)

/-- `CallCommand::execute`. -/
def execute (args : List String) (s : σ) : Ended σ :=
  match parseCall args with
  | none => invalidArgs c "Usage: logosctl call <module> <method> [args...]" s
  | some (moduleName, methodName, methodArgs) => connected c s <|
    match methodArgs.mapM (coerceArg sh) with
    | .error message => (.ok (1, printError c.jsonMode "INVALID_ARGS" message), s)
    | .ok resolvedArgs =>
      let (result, s) := callModuleMethod svc c moduleName methodName resolvedArgs s
      (reportCall sh c.jsonMode result, s)

end Source

/-! ## 2. What can be written -/

/-- The words are a call of this method of this module with these arguments. -/
def Sends (sh : Shell) (line : List String) (module method : String) (args : List Json) : Prop :=
  ∃ words, parseCall line = some (module, method, words) ∧ words.mapM (coerceArg sh) = .ok args

section Writable

variable {sh : Shell} {line words : List String} {module method : String} {args : List Json}
  {s : String}

theorem startsWith_append (start rest : String) : startsWith (start ++ rest) start = true := by
  simp [startsWith, String.toList_append]

theorem substr_append {start rest : String} {n : Nat} (h : start.toList.length = n) :
    substr (start ++ rest) n = rest := by
  simp [substr, String.toList_append, ← h]

/-- **A text can be sent as it stands**, whatever it looks like. -/
theorem coerceArg_str (sh : Shell) (s : String) : coerceArg sh ("str:" ++ s) = .ok (.str s) := by
  have hno : startsWith ("str:" ++ s) "json:" = false := by
    simp [startsWith, String.toList_append, List.isPrefixOf]
  rw [coerceArg, hno, startsWith_append, @substr_append "str:" s 4 (by decide)]
  rfl

theorem parseCall_eq_some (h : parseCall line = some (module, method, words)) :
    module ≠ "" ∧ method ≠ "" := by
  obtain ⟨-, h⟩ := Option.filter_eq_some_iff.mp h
  simpa using h

/-- **The shorter form means what it looks like**, but for a method called `method` that takes
arguments. -/
theorem short_iff : parseCall (module :: method :: words) = some (module, method, words) ↔
    module ≠ "" ∧ method ≠ "" ∧ (method = "method" → words = []) := by
  constructor
  · intro h
    obtain ⟨hmodule, hmethod⟩ := parseCall_eq_some h
    refine ⟨hmodule, hmethod, ?_⟩
    rintro rfl
    cases words with
    | nil => rfl
    | cons word words =>
      obtain ⟨h, -⟩ := Option.filter_eq_some_iff.mp h
      have hlength := congrArg (fun x => (x.map fun y => y.2.2.length).getD 0) h
      simp [splitArgs] at hlength
  · rintro ⟨hmodule, hmethod, hword⟩
    refine Option.filter_eq_some_iff.mpr ⟨?_, by simp [hmodule, hmethod]⟩
    cases words with
    | nil => rfl
    | cons word words =>
      have hne : method ≠ "method" := fun heq => by simpa using hword heq
      rw [splitArgs, if_neg hne]

end Writable

/-! ## 3. How a call ends -/

section Ends

variable {σ : Type} (loaded : σ → List String)
  (invokeModule : String → String → List Json → StateM σ (Json × CallFailure)) (rest : Service σ)

/-- The service of a daemon, as far as calls of modules go: `invokeModule` calls one, and the other
methods are those of `rest`. -/
def callService : Service σ :=
  { rest with
    callModuleMethod := fun module method args s =>
      Prod.map .ok id ((CallEnvelope.callModuleMethod (loaded s) (invokeModule module) module method
        args.elems).run s) }

/-- The daemon calls the module: it is its own, or is loaded. -/
def Reachable (module : String) (s : σ) : Prop := module = kCoreService ∨ module ∈ loaded s

/-- The call is answered by the module: nothing failed, and the answer is one. -/
def Succeeds (module method : String) (args : List Json) (s : σ) : Prop :=
  Applies method ((invokeModule module method args).run s).1.1 (.arr args)
    ((invokeModule module method args).run s).1.2
    (some (exposedMethods ((invokeModule module "getPluginMethods" []).run
      ((invokeModule module method args).run s).2).1)) .answered

/-- What the daemon does of a call: a module that is within reach is called, and asked for its
methods when nothing failed and it answered with null. -/
def called (module method : String) (args : List Json) (s : σ) : σ :=
  if module = kCoreService ∨ module ∈ loaded s then
    let answered := (invokeModule module method args).run s
    if answered.1.2.ok && answered.1.1.isNull then
      ((invokeModule module "getPluginMethods" []).run answered.2).2
    else answered.2
  else s

/-- What an exit code says of a call. -/
structure ExitSays (c : Client) (module method : String) (args : List Json) (s : σ) (code : Nat) :
    Prop where
  zero : code = 0 ↔ c.connecting.exitCode = 0 ∧ c.fate = .answered ∧ Reachable loaded module s ∧
    Succeeds invokeModule module method args s
  two : code = 2 ↔ c.connecting.exitCode ≠ 0
  three : code = 3 ↔ c.connecting.exitCode = 0 ∧ c.fate = .answered ∧ ¬ Reachable loaded module s
  four : code = 4 ↔ c.connecting.exitCode = 0 ∧ (c.fate ≠ .answered ∨
    Reachable loaded module s ∧ ¬ Succeeds invokeModule module method args s)

end Ends

section Exits

variable {σ : Type} {loaded : σ → List String}
  {invokeModule : String → String → List Json → StateM σ (Json × CallFailure)} {rest : Service σ}
  {sh : Shell} {c : Client} {line words : List String} {module method : String} {args : List Json}
  {s : σ}

theorem state_callModuleMethod :
    ((CallEnvelope.callModuleMethod (loaded s) (invokeModule module) module method args).run s).2 =
      called loaded invokeModule module method args s := by
  by_cases hreach : module = kCoreService ∨ module ∈ loaded s
  · have hgate : (module != kCoreService && !(loaded s).contains module) = false := by
      rcases hreach with rfl | hmem
      · simp
      · simp [hmem]
    have hstate := @state_callEnvelope _ module method
      ((invokeModule module method args).run s).1.1 (.arr args)
      ((invokeModule module method args).run s).1.2 ((invokeModule module method args).run s).2
      (exposedMethods <$> invokeModule module "getPluginMethods" [])
    unfold CallEnvelope.callModuleMethod called
    rw [hgate, if_pos hreach]
    exact hstate
  · have hgate : (module != kCoreService && !(loaded s).contains module) = true := by
      simpa using hreach
    unfold CallEnvelope.callModuleMethod called
    rw [hgate, if_neg hreach]
    rfl

theorem answer_call : answer (callService loaded invokeModule rest)
    (.callModuleMethod module method (.arr args)) s =
      (((CallEnvelope.callModuleMethod (loaded s) (invokeModule module) module method args).run
        s).1.value, called loaded invokeModule module method args s) := by
  rw [← state_callModuleMethod]
  rfl

theorem reportCall_error {j : Json} {jsonMode : Bool} {code message : String}
    (hstatus : j.valueStr "status" = .ok "error") (hcode : j.valueStr "code" = .ok code)
    (hmessage : j.valueStr "message" = .ok message) : ∃ printed, reportCall sh jsonMode j =
      .ok (if code = "MODULE_NOT_LOADED" ∨ code = "MODULE_NOT_FOUND" then 3 else 4, printed) := by
  simp only [reportCall, hstatus, hcode, hmessage, bind, Except.bind, if_true]
  exact ⟨_, rfl⟩

/-- A verdict is reported as success exactly when it is an answer. -/
theorem reportCall_verdict {jsonMode : Bool} {ret : Json} (v : Verdict) : ∃ printed,
    reportCall sh jsonMode (v.envelope module method ret) =
      .ok (match v with | .answered => 0 | _ => 4, printed) := by
  cases v with
  | failed f =>
    exact @reportCall_error sh (failedEnvelope module method f) _ "METHOD_FAILED" _ rfl rfl rfl
  | notFound available =>
    exact @reportCall_error sh (notFoundEnvelope module method available) _ "METHOD_NOT_FOUND" _
      rfl rfl rfl
  | refuted reason =>
    exact @reportCall_error sh (failedEnvelope module method ⟨"argument_mismatch", reason, module⟩)
      _ "METHOD_FAILED" _ rfl rfl rfl
  | answered => cases jsonMode <;> exact ⟨_, rfl⟩

/-- What the command makes of the daemon's answer. -/
theorem reportCall_answer {jsonMode : Bool} :
    ∃ code printed, reportCall sh jsonMode (answer (callService loaded invokeModule rest)
        (.callModuleMethod module method (.arr args)) s).1 = .ok (code, printed) ∧
      (answer (callService loaded invokeModule rest)
        (.callModuleMethod module method (.arr args)) s).1.isObject = true ∧
      (¬ Reachable loaded module s ∧ code = 3 ∨ Reachable loaded module s ∧
        (Succeeds invokeModule module method args s ∧ code = 0 ∨
          ¬ Succeeds invokeModule module method args s ∧ code = 4)) := by
  rw [answer_call]
  by_cases hreach : Reachable loaded module s
  · have hgate : (module != kCoreService && !(loaded s).contains module) = false := by
      rcases hreach with rfl | hmem
      · simp
      · simp [hmem]
    obtain ⟨v, happlies, henvelope⟩ := exists_verdict module method
      ((invokeModule module method args).run s).1.1 (.arr args)
      ((invokeModule module method args).run s).1.2
      (some (exposedMethods <$> invokeModule module "getPluginMethods" []))
      ((invokeModule module method args).run s).2
    have hvalue : ((CallEnvelope.callModuleMethod (loaded s) (invokeModule module) module method
        args).run s).1.value =
          v.envelope module method ((invokeModule module method args).run s).1.1 := by
      have hresult : ∀ envelope, (resultOf envelope).value = envelope := by
        intro envelope
        unfold resultOf
        split <;> rfl
      rw [← henvelope, CallEnvelope.callModuleMethod, hgate]
      exact hresult _
    obtain ⟨printed, hreport⟩ := @reportCall_verdict sh module method jsonMode
      ((invokeModule module method args).run s).1.1 v
    have hsucceeds : Succeeds invokeModule module method args s ↔ v = .answered :=
      ⟨fun h => applies_unique happlies h, by rintro rfl; exact happlies⟩
    rw [hvalue]
    refine ⟨_, printed, hreport, by cases v <;> rfl, Or.inr ⟨hreach, ?_⟩⟩
    rw [hsucceeds]
    cases v <;> simp
  · have hgate : (module != kCoreService && !(loaded s).contains module) = true := by
      simpa [Reachable] using hreach
    rw [CallEnvelope.callModuleMethod, if_pos hgate]
    obtain ⟨printed, hreport⟩ := @reportCall_error sh (.obj [("code", .str "MODULE_NOT_LOADED"),
        ("message", .str ("Module '" ++ module ++ "' is not loaded." ++
          " Load it with: logosctl module load " ++ module)),
        ("status", .str "error")]) jsonMode "MODULE_NOT_LOADED" _ rfl rfl rfl
    exact ⟨3, printed, hreport, rfl, Or.inl ⟨hreach, rfl⟩⟩

theorem execute_call (hline : parseCall line = some (module, method, words))
    (hwords : words.mapM (coerceArg sh) = .ok args) {svc : Service σ} :
    execute sh svc c line s = connected c s
      (reportCall sh c.jsonMode (objectOr (rpcFailed ("callModuleMethod('" ++ module ++ "','" ++
          method ++ "')")) (invoke svc c (CoreService.Request.callModuleMethod module method
            (.arr args)).method (CoreService.Request.callModuleMethod module method
              (.arr args)).args s).1),
        (invoke svc c (CoreService.Request.callModuleMethod module method (.arr args)).method
          (CoreService.Request.callModuleMethod module method (.arr args)).args s).2) := by
  rw [execute, hline]
  simp only [hwords]
  rfl

/-- What is sent ends as the module answers, if the wire lets it. -/
theorem ends_call : ∃ code printed,
    (reportCall sh c.jsonMode (objectOr (rpcFailed ("callModuleMethod('" ++ module ++ "','" ++
        method ++ "')")) (invoke (callService loaded invokeModule rest) c
          (CoreService.Request.callModuleMethod module method (.arr args)).method
          (CoreService.Request.callModuleMethod module method (.arr args)).args s).1),
      (invoke (callService loaded invokeModule rest) c
        (CoreService.Request.callModuleMethod module method (.arr args)).method
        (CoreService.Request.callModuleMethod module method (.arr args)).args s).2) =
      (.ok (code, printed),
        if c.fate = .lost then s else called loaded invokeModule module method args s) ∧
    (c.fate ≠ .answered ∧ code = 4 ∨ c.fate = .answered ∧
      (¬ Reachable loaded module s ∧ code = 3 ∨ Reachable loaded module s ∧
        (Succeeds invokeModule module method args s ∧ code = 0 ∨
          ¬ Succeeds invokeModule module method args s ∧ code = 4))) := by
  obtain ⟨code, printed, hreport, hobj, hcode⟩ :=
    @reportCall_answer _ loaded invokeModule rest sh module method args s c.jsonMode
  have hgot := @Commands.got_of_answer _ (callService loaded invokeModule rest) c s
    (called loaded invokeModule module method args s)
    (.callModuleMethod module method (.arr args)) _
    ("callModuleMethod('" ++ module ++ "','" ++ method ++ "')") answer_call hobj
  obtain ⟨hret, hstate⟩ := Prod.ext_iff.mp hgot
  obtain ⟨shown, hfailed⟩ := @reportCall_error sh
    (rpcFailed ("callModuleMethod('" ++ module ++ "','" ++ method ++ "')")) c.jsonMode "RPC_FAILED"
    _ rfl rfl rfl
  dsimp only at hret hstate
  rw [hret, hstate]
  cases hfate : c.fate with
  | lost => exact ⟨4, shown, Prod.ext hfailed rfl, Or.inl ⟨by decide, rfl⟩⟩
  | unanswered => exact ⟨4, shown, Prod.ext hfailed rfl, Or.inl ⟨by decide, rfl⟩⟩
  | answered => exact ⟨code, printed, Prod.ext hreport rfl, Or.inr ⟨rfl, hcode⟩⟩

theorem exitSays {code : Nat} (h : c.fate ≠ .answered ∧ code = 4 ∨ c.fate = .answered ∧
    (¬ Reachable loaded module s ∧ code = 3 ∨ Reachable loaded module s ∧
      (Succeeds invokeModule module method args s ∧ code = 0 ∨
        ¬ Succeeds invokeModule module method args s ∧ code = 4))) :
    ExitSays loaded invokeModule c module method args s
      (if c.connecting.exitCode ≠ 0 then 2 else code) := by
  by_cases hconn : c.connecting.exitCode = 0
  · rcases h with ⟨hfate, rfl⟩ | ⟨hfate, ⟨hreach, rfl⟩ | ⟨hreach, ⟨hsucceeds, rfl⟩ | ⟨hno, rfl⟩⟩⟩
    · constructor <;> simp [hconn, hfate]
    · constructor <;> simp [hconn, hfate, hreach]
    · constructor <;> simp [hconn, hfate, hreach, hsucceeds]
    · constructor <;> simp [hconn, hfate, hreach, hno]
  · constructor <;> simp [hconn]

/-- **The exit code says what became of a call**: 0 when the module answered it, 3 when the module
is not loaded, 4 when it was called and failed, or when nothing came back, and 2 without a
connection.  The module is called when the call arrives and the module is loaded.  A line that sends
nothing has the daemon do nothing, and exits with 1 or 2. -/
theorem call_exit (sh : Shell) (c : Client) (line : List String) (loaded : σ → List String)
    (invokeModule : String → String → List Json → StateM σ (Json × CallFailure))
    (rest : Service σ) (s : σ) :
    (∀ module method args, Sends sh line module method args → ∃ code printed,
      execute sh (callService loaded invokeModule rest) c line s = (.ok (code, printed),
        if c.connecting.exitCode ≠ 0 ∨ c.fate = .lost then s
        else called loaded invokeModule module method args s) ∧
      ExitSays loaded invokeModule c module method args s code) ∧
    ((∀ module method args, ¬ Sends sh line module method args) → ∃ code printed,
      execute sh (callService loaded invokeModule rest) c line s = (.ok (code, printed), s) ∧
        (code = 1 ∨ code = 2)) := by
  constructor
  · rintro module method args ⟨words, hline, hwords⟩
    obtain ⟨code, printed, hended, hcode⟩ :=
      @ends_call _ loaded invokeModule rest sh c module method args s
    obtain ⟨shown, hconnected⟩ := Commands.ends_connected (c := c) (s := s) ⟨printed, hended⟩
    refine ⟨if c.connecting.exitCode ≠ 0 then 2 else code, shown, ?_, exitSays hcode⟩
    rw [execute_call hline hwords, hconnected]
    by_cases hconn : c.connecting.exitCode = 0 <;> simp [hconn]
  · intro hno
    unfold execute
    cases hline : parseCall line with
    | none => exact ⟨1, _, rfl, Or.inl rfl⟩
    | some called =>
      obtain ⟨module, method, words⟩ := called
      dsimp only
      cases hwords : words.mapM (coerceArg sh) with
      | ok args => exact absurd ⟨words, hline, hwords⟩ (hno module method args)
      | error message =>
        obtain ⟨shown, hconnected⟩ := @Commands.ends_connected c _ s s
          (.ok (1, printError c.jsonMode "INVALID_ARGS" message), s) 1 ⟨_, rfl⟩
        refine ⟨if c.connecting.exitCode ≠ 0 then 2 else 1, shown, ?_, ?_⟩
        · rw [hconnected, ite_self]
        · split
          · exact Or.inr rfl
          · exact Or.inl rfl

end Exits

end Logosctl.CallCommand
