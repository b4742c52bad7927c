/-
# What the core service tells of its modules

Three answers are read off one document of the runtime: the list of all modules or of those that
are loaded, the status report with its counts, and what is shown of one module.  They are computed
apart, each with its own loop over the document, and a client that asks for two of them expects one
story.

As long as the list of all modules can be made, they do tell one.  The list of the loaded modules is
that list without the others, and the report counts each of its lines once, and none as crashed
(`status_agrees`).  A module can be shown exactly when it is listed, with the version, the status
and the uptime of its first line (`info_agrees`).
-/
import Logosctl.CoreService
import Mathlib.Data.List.Forall2

namespace Logosctl

namespace Json

/-- `get<int64_t>()`: like `getInt`, in 64 bits. -/
def getInt64 : Json → Except TypeError Int
  | .int i => .ok (Int.bmod i (2 ^ 64))
  | .bool b => .ok (if b then 1 else 0)
  | .float m e =>
    let v := truncate m e
    .ok (if -(2 ^ 63) ≤ v ∧ v < 2 ^ 63 then v else -(2 ^ 63))
  | _ => .error .wrongType

/-- `get<nlohmann::json>()`. -/
def getJson (j : Json) : Except TypeError Json := .ok j

end Json

namespace CoreService

open Library

/-! ## 1. The answers -/

section Queries

variable (now : Int)

/-- `uptimeSecondsFor`: −1 of a module that is not loaded, or does not say since when. -/
def uptimeSecondsFor (entry : Json) : Except TypeError Int := do
  if !(← entry.valueBool "loaded" false) then return -1
  let loadedAt ← entry.value Json.getInt64 "loaded_at" 0
  if loadedAt ≤ 0 then return -1
  let up := now - loadedAt
  return if up < 0 then 0 else up

/-- The version in the metadata of an entry. -/
def versionIn (entry : Json) : Except TypeError String :=
  match entry.find? "metadata" with
  | some (.obj kvs) => (Json.obj kvs).valueStr "version"
  | _ => .ok ""

/-- An uptime, if there is one. -/
def uptimeField (uptime : Int) : List (String × Json) :=
  if 0 ≤ uptime then [("uptime_seconds", .int uptime)] else []

def statusOf (loaded : Bool) : String := if loaded then "loaded" else "not_loaded"

/-- The loop of `listModules`. -/
def listEntries (filter : String) : List Json → Except TypeError (List Json)
  | [] => .ok []
  | entry :: entries => do
    let loaded ← entry.valueBool "loaded" false
    if filter = "loaded" ∧ loaded = false then listEntries filter entries
    else do
      let name ← entry.valueStr "name"
      let version ← versionIn entry
      let uptime ← uptimeSecondsFor now entry
      let modules ← listEntries filter entries
      return .obj ([("name", .str name), ("status", .str (statusOf loaded))] ++
        uptimeField uptime ++ [("version", .str version)]) :: modules

/-- `CoreServiceImpl::listModules`. -/
def listModules (info : Info) (filter : String) : Prog World TypeError Json := do
  let modules ← Prog.lift id (listEntries now filter (info.modulesInfo (← get)))
  return .arr modules

/-- The summary of `getStatus`. -/
structure Summary where
  loaded : Nat := 0
  crashed : Nat := 0
  notLoaded : Nat := 0

/-- One round of the loop that counts. -/
def Summary.count (summary : Summary) (status : String) : Summary :=
  if status = "loaded" then { summary with loaded := summary.loaded + 1 }
  else if status = "crashed" then { summary with crashed := summary.crashed + 1 }
  else { summary with notLoaded := summary.notLoaded + 1 }

def summarize : Summary → List Json → Except TypeError Summary
  | summary, [] => .ok summary
  | summary, v :: modules => do
    let s ← v.valueStr "status"
    summarize (summary.count s) modules

def Summary.toJson (summary : Summary) : Json :=
  .obj [("crashed", .int summary.crashed), ("loaded", .int summary.loaded),
    ("not_loaded", .int summary.notLoaded)]

/-- `CoreServiceImpl::getStatus`, of the daemon of this process and version. -/
def getStatus (info : Info) (pid : Int) (version : String) : Prog World TypeError Json := do
  let modules ← listModules now info "all"
  let summary ← Prog.lift id (summarize {} modules.elems)
  return .obj [("daemon", .obj [("pid", .int pid), ("status", .str "running"),
    ("version", .str version)]), ("modules", modules), ("modules_summary", summary.toJson)]

/-- The first entry of that name. -/
def findEntry (name : String) : List Json → Except TypeError (Option Json)
  | [] => .ok none
  | e :: entries => do
    let n ← e.valueStr "name"
    if n = name then return some e
    else findEntry name entries

def moduleNotFound (name : String) : Json :=
  .obj [("code", .str "MODULE_NOT_FOUND"), ("message", .str ("Module '" ++ name ++ "' not found.")),
    ("status", .str "error")]

/-- What a module says of itself, if it is a list. -/
def arrayField (key : String) (reply : Json) : List (String × Json) :=
  if reply.isArray then [(key, reply)] else []

/-- `CoreServiceImpl::getModuleInfo`. -/
def getModuleInfo (env : Env) (info : Info) (name : String) : Prog World TypeError Json := do
  match ← Prog.lift id (findEntry name (info.modulesInfo (← get))) with
  | none => return moduleNotFound name
  | some entry =>
    let version ← Prog.lift id (versionIn entry)
    let dependencies ← Prog.lift id (entry.value Json.getJson "dependencies" (.arr []))
    let dependents ← Prog.lift id (entry.value Json.getJson "dependents" (.arr []))
    if ← Prog.lift id (entry.valueBool "loaded" false) then
      let uptime ← Prog.lift id (uptimeSecondsFor now entry)
      let (methods, _) ← call env name "getPluginMethods" []
      let (events, _) ← call env name "getPluginEvents" []
      return .obj ([("dependencies", dependencies), ("dependents", dependents)] ++
        arrayField "events" events ++ arrayField "methods" methods ++
        [("name", .str name), ("status", .str "loaded")] ++ uptimeField uptime ++
        [("version", .str version)])
    else
      return .obj [("dependencies", dependencies), ("dependents", dependents),
        ("name", .str name), ("status", .str "not_loaded"), ("version", .str version)]

/-- `CoreServiceImpl::refreshModules`. -/
def refreshModules (env : Env) (info : Info) : Prog World TypeError Json := do
  logosCoreRefreshModules env
  return .obj [("known_modules", names (info.known (← get))), ("status", .str "ok")]

/-- `CoreServiceImpl::getModuleStats`: the runtime's document, if there is one that can be
parsed. -/
def getModuleStats (document : World → Option (Option Json)) : Prog World TypeError Json := do
  match document (← get) with
  | some (some stats) => return stats
  | _ => return .arr []

end Queries

/-! ## 2. A line of the list -/

section Lines

variable {now : Int} {entry m : Json} {entries modules : List Json} {info : Info} {w w' : World}

/-- A line of the list, made of what could be read in an entry. -/
structure Line where
  name : String
  loaded : Bool
  uptime : Int
  version : String

def Line.toJson (l : Line) : Json :=
  .obj ([("name", .str l.name), ("status", .str (statusOf l.loaded))] ++ uptimeField l.uptime ++
    [("version", .str l.version)])

/-- What can be read in an entry. -/
structure Reads (now : Int) (entry : Json) (l : Line) : Prop where
  name : entry.valueStr "name" = .ok l.name
  loaded : entry.valueBool "loaded" false = .ok l.loaded
  uptime : uptimeSecondsFor now entry = .ok l.uptime
  version : versionIn entry = .ok l.version

theorem statusOf_eq_loaded {loaded : Bool} : statusOf loaded = "loaded" ↔ loaded = true := by
  cases loaded <;> simp [statusOf]

@[simp] theorem Line.find_name (l : Line) : l.toJson.find? "name" = some (.str l.name) := rfl

@[simp] theorem Line.find_status (l : Line) :
    l.toJson.find? "status" = some (.str (statusOf l.loaded)) := rfl

theorem Line.textOf_status (l : Line) : l.toJson.textOf "status" = statusOf l.loaded := by
  simp [Json.textOf]

/-- A list has a line for each entry, in their order. -/
theorem listEntries_all (h : listEntries now "all" entries = .ok modules) :
    ∃ lines, modules = lines.map Line.toJson ∧ List.Forall₂ (Reads now) entries lines := by
  induction entries generalizing modules with
  | nil =>
    cases h
    exact ⟨[], rfl, .nil⟩
  | cons entry entries ih =>
    simp only [listEntries] at h
    obtain ⟨loaded, hloaded, h⟩ := except_bind_eq_ok.mp h
    rw [if_neg (by simp)] at h
    obtain ⟨name, hname, h⟩ := except_bind_eq_ok.mp h
    obtain ⟨version, hversion, h⟩ := except_bind_eq_ok.mp h
    obtain ⟨uptime, huptime, h⟩ := except_bind_eq_ok.mp h
    obtain ⟨rest, hrest, h⟩ := except_bind_eq_ok.mp h
    cases h
    obtain ⟨lines, rfl, hlines⟩ := ih hrest
    exact ⟨⟨name, loaded, uptime, version⟩ :: lines, rfl,
      .cons ⟨hname, hloaded, huptime, hversion⟩ hlines⟩

/-- With the filter, it has those of the loaded modules. -/
theorem listEntries_loaded {lines : List Line} (h : List.Forall₂ (Reads now) entries lines) :
    listEntries now "loaded" entries = .ok ((lines.filter (·.loaded)).map Line.toJson) := by
  induction h with
  | nil => rfl
  | @cons entry l entries lines hentry _ ih =>
    rw [listEntries, hentry.loaded]
    cases hloaded : l.loaded with
    | false => simpa [hloaded, bind, Except.bind] using ih
    | true =>
      simp [hentry.name, hentry.version, hentry.uptime, ih, hloaded, Line.toJson, bind, Except.bind,
        pure, Except.pure]

/-- Each line is counted once, as what it is. -/
theorem summarize_lines (lines : List Line) (s : Summary) :
    summarize s (lines.map Line.toJson) = .ok ⟨s.loaded + lines.countP (·.loaded), s.crashed,
      s.notLoaded + lines.countP (fun l => !l.loaded)⟩ := by
  induction lines generalizing s with
  | nil => rfl
  | cons l lines ih =>
    have hstatus : l.toJson.valueStr "status" = .ok (statusOf l.loaded) := rfl
    rw [List.map_cons, summarize, hstatus]
    simp only [bind, Except.bind]
    rw [ih]
    cases hloaded : l.loaded with
    | false => simp [Summary.count, statusOf, hloaded]; omega
    | true => simp [Summary.count, statusOf, hloaded]; omega

/-- The entry that is found is that of the first line of the name. -/
theorem findEntry_lines {lines : List Line} (h : List.Forall₂ (Reads now) entries lines)
    (name : String) :
    (findEntry name entries = .ok none ∧ lines.find? (·.name = name) = none) ∨
      ∃ entry l, findEntry name entries = .ok (some entry) ∧
        lines.find? (·.name = name) = some l ∧ Reads now entry l := by
  induction h with
  | nil => exact Or.inl ⟨rfl, rfl⟩
  | @cons entry l entries lines hentry _ ih =>
    rw [findEntry, hentry.name]
    by_cases hname : l.name = name
    · refine Or.inr ⟨entry, l, ?_, ?_, hentry⟩
      · simp [hname, bind, Except.bind, pure, Except.pure]
      · simp [hname]
    · simpa [hname, bind, Except.bind] using ih

end Lines

/-! ## 3. The three answers agree -/

section Agree

variable {now pid : Int} {version name : String} {env : Env} {info : Info} {w w' : World}
  {modules : Json}

theorem exec_listModules (filter : String) : (listModules now info filter).exec w =
    ((listEntries now filter (info.modulesInfo w)).map Json.arr, w) := by
  rw [listModules, Prog.exec_bind_of_ok (Prog.exec_get w)]
  cases listEntries now filter (info.modulesInfo w) <;> rfl

/-- What could be read once can be asked for anything. -/
theorem value_json {entry : Json} {s : String} (h : entry.valueStr "name" = .ok s) (key : String)
    (dflt : Json) : ∃ j, entry.value Json.getJson key dflt = .ok j := by
  cases entry with
  | obj kvs =>
    cases hkey : kvs.lookup key with
    | none => exact ⟨dflt, by simp [Json.value, hkey]⟩
    | some v => exact ⟨v, by simp [Json.value, hkey, Json.getJson]⟩
  | null | bool | int | float | str | arr => cases Json.isObject_of_value h

theorem uptime_of_notLoaded {entry : Json} {l : Line} (h : Reads now entry l)
    (hloaded : l.loaded = false) : l.uptime = -1 := by
  have huptime := h.uptime
  rw [uptimeSecondsFor, h.loaded, hloaded] at huptime
  exact (Except.ok.inj huptime).symm

theorem lookup_arrayField {key k : String} {reply : Json} (h : k ≠ key) :
    (arrayField key reply).lookup k = none := by
  unfold arrayField
  split
  · simp [h]
  · rfl

/-- A list that could be made is one of lines. -/
theorem exists_lines (h : (listModules now info "all").exec w = (.ok modules, w')) :
    ∃ lines : List Line, modules = .arr (lines.map Line.toJson) ∧
      listEntries now "all" (info.modulesInfo w) = .ok (lines.map Line.toJson) ∧
      List.Forall₂ (Reads now) (info.modulesInfo w) lines := by
  rw [exec_listModules] at h
  obtain ⟨mods, hmods, rfl⟩ := except_map_eq_ok.mp (congrArg Prod.fst h)
  obtain ⟨lines, rfl, hlines⟩ := listEntries_all hmods
  exact ⟨lines, rfl, hmods, hlines⟩

theorem filter_lines (lines : List Line) :
    (lines.map Line.toJson).filter (fun m => m.textOf "status" = "loaded") =
      (lines.filter (·.loaded)).map Line.toJson := by
  rw [List.filter_map]
  congr 2
  funext l
  simp [Line.textOf_status, statusOf_eq_loaded]

/-- The status report has the whole list and counts its lines, none of them as crashed. -/
theorem exec_getStatus (h : (listModules now info "all").exec w = (.ok modules, w')) :
    (getStatus now info pid version).exec w = (.ok (.obj [
      ("daemon", .obj [("pid", .int pid), ("status", .str "running"), ("version", .str version)]),
      ("modules", modules),
      ("modules_summary", (Summary.mk
        (modules.elems.filter (fun m => m.textOf "status" = "loaded")).length 0
        (modules.elems.filter (fun m => m.textOf "status" ≠ "loaded")).length).toJson)]), w) := by
  obtain ⟨lines, rfl, hall, -⟩ := exists_lines h
  have hlist : (listModules now info "all").exec w = (.ok (.arr (lines.map Line.toJson)), w) := by
    rw [exec_listModules, hall]
    rfl
  have hloaded : ((lines.map Line.toJson).filter (fun m => m.textOf "status" = "loaded")).length =
      lines.countP (·.loaded) := by
    rw [filter_lines, List.length_map, List.countP_eq_length_filter]
  have hothers : ((lines.map Line.toJson).filter (fun m => m.textOf "status" ≠ "loaded")).length =
      lines.countP (fun l => !l.loaded) := by
    rw [← List.countP_eq_length_filter, List.countP_map]
    refine List.countP_congr fun l _ => ?_
    simp [Line.textOf_status, statusOf_eq_loaded]
  rw [getStatus, Prog.exec_bind_of_ok hlist]
  simp only [Json.elems, summarize_lines, hloaded, hothers, Nat.zero_add]
  rfl

/-- **The list of the loaded modules and the status report say what the list of all modules says**:
the one is its lines with the status `loaded`, and the other has it whole and counts its lines,
none of them as crashed. -/
theorem status_agrees (h : (listModules now info "all").exec w = (.ok modules, w')) :
    ∃ loaded : List Json, loaded = modules.elems.filter (fun m => m.textOf "status" = "loaded") ∧
      (listModules now info "loaded").exec w = (.ok (.arr loaded), w) ∧
      (getStatus now info pid version).exec w = (.ok (.obj [
        ("daemon", .obj [("pid", .int pid), ("status", .str "running"), ("version", .str version)]),
        ("modules", modules),
        ("modules_summary", .obj [("crashed", .int 0), ("loaded", .int loaded.length),
          ("not_loaded", .int (modules.elems.length - loaded.length : Nat))])]), w) := by
  have hcount := List.length_eq_length_filter_add (l := modules.elems)
    (fun m => decide (m.textOf "status" = "loaded"))
  refine ⟨_, rfl, ?_, ?_⟩
  · obtain ⟨lines, rfl, -, hlines⟩ := exists_lines h
    rw [exec_listModules, listEntries_loaded hlines]
    simp only [Json.elems, filter_lines]
    rfl
  · rw [exec_getStatus h, hcount, Nat.add_sub_cancel_left]
    simp [Summary.toJson]

/-- One module runs since a minute ago, and another one does not. -/
def twoModules : Info where
  known _ := ["chat", "waku"]
  modulesInfo _ := [
    .obj [("loaded", .bool true), ("loaded_at", .int 1700000000),
      ("metadata", .obj [("version", .str "1.0.0")]), ("name", .str "waku")],
    .obj [("loaded", .bool false), ("metadata", .null), ("name", .str "chat")]]
  optionalReport _ _ := none

theorem status_twoModules : ∃ loaded : List Json, loaded.length = 1 ∧
    (listModules 1700000060 twoModules "loaded").exec ⟨["waku"], 0, []⟩ =
      (.ok (.arr loaded), ⟨["waku"], 0, []⟩) := by
  obtain ⟨loaded, hloaded, hlist, -⟩ :=
    @status_agrees 1700000060 42 "0.1.0" twoModules ⟨["waku"], 0, []⟩ ⟨["waku"], 0, []⟩ _ rfl
  exact ⟨loaded, hloaded ▸ rfl, hlist⟩

/-- **A module can be shown exactly when it is listed, and is shown as listed**: with the version,
the status and the uptime of the first line of its name. -/
theorem info_agrees (h : (listModules now info "all").exec w = (.ok modules, w')) :
    ∃ shown w₁, (getModuleInfo now env info name).exec w = (.ok shown, w₁) ∧
      match modules.elems.find? (fun m => m.textOf "name" = name) with
      | none => shown.find? "status" = some (.str "error") ∧
          shown.find? "code" = some (.str "MODULE_NOT_FOUND") ∧ w₁ = w
      | some m => ∀ key ∈ ["name", "status", "uptime_seconds", "version"],
          shown.find? key = m.find? key := by
  obtain ⟨lines, rfl, -, hlines⟩ := exists_lines h
  have hfind : (lines.map Line.toJson).find? (fun m => m.textOf "name" = name) =
      (lines.find? (·.name = name)).map Line.toJson := by
    rw [List.find?_map]
    congr 2
  rw [Json.elems, hfind, getModuleInfo, Prog.exec_bind_of_ok (Prog.exec_get w)]
  rcases findEntry_lines hlines name with ⟨hnone, hline⟩ | ⟨entry, l, hsome, hline, hentry⟩
  · rw [hnone, hline]
    exact ⟨_, _, rfl, rfl, rfl, rfl⟩
  · obtain rfl : l.name = name := by simpa using List.find?_some hline
    obtain ⟨dependencies, hdependencies⟩ := value_json hentry.name "dependencies" (.arr [])
    obtain ⟨dependents, hdependents⟩ := value_json hentry.name "dependents" (.arr [])
    rw [hsome, hline]
    simp only [Prog.exec_bind, Prog.exec_lift_ok, hentry.version, hdependencies, hdependents,
      hentry.loaded, Option.map_some]
    cases hloaded : l.loaded with
    | false =>
      refine ⟨_, _, rfl, fun key hkey => ?_⟩
      have huptime : l.uptime = -1 := uptime_of_notLoaded hentry hloaded
      simp only [List.mem_cons, List.not_mem_nil, or_false] at hkey
      rcases hkey with rfl | rfl | rfl | rfl <;>
        simp [Json.find?, Line.toJson, hloaded, huptime, uptimeField, statusOf, List.lookup_cons]
    | true =>
      simp only [Prog.exec_bind, if_true, hentry.uptime, Prog.exec_lift_ok, exec_call]
      refine ⟨_, _, rfl, fun key hkey => ?_⟩
      simp only [List.mem_cons, List.not_mem_nil, or_false] at hkey
      rcases hkey with rfl | rfl | rfl | rfl <;>
        simp [Json.find?, Line.toJson, hloaded, statusOf, List.lookup_cons, List.lookup_append,
          lookup_arrayField]

/-- Modules that publish nothing. -/
def publishesNothing : Env where
  reply _ := .ok (.arr [])
  unload _ loaded _ _ := loaded
  load _ loaded _ := (true, loaded)
  dump _ := ""

theorem info_twoModules : ∃ shown w₁,
    (getModuleInfo 1700000060 publishesNothing twoModules "waku").exec ⟨["waku"], 0, []⟩ =
        (.ok shown, w₁) ∧
      shown.find? "uptime_seconds" = some (.int 60) := by
  obtain ⟨shown, w₁, hrun, hshown⟩ :=
    @info_agrees 1700000060 "waku" publishesNothing twoModules ⟨["waku"], 0, []⟩
      ⟨["waku"], 0, []⟩ _ rfl
  exact ⟨shown, w₁, hrun, hshown "uptime_seconds" (by simp)⟩

end Agree

end CoreService

end Logosctl
