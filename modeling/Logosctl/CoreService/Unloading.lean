/-
# What an unload reports

`unloadModule` does not look at what the runtime makes of its call.  It compares the loaded sets
around the call, and of the named module it compares nothing: it reports what is loaded afterwards.
So a module that was never loaded is reported as unloaded, and one that the runtime would not stop
is reported as not loaded.  `unload_reports_iff` says when the report is right.
-/
import Logosctl.CoreService

namespace Logosctl.CoreService

open Library

/-! ## 1. The right report -/

/-- The reply to an unload of `name` says what happened, the loaded sets being `before` and
`after` the runtime's call. -/
structure ReportsUnload (name : String) (before after : List String) (r : StdLogosResult) :
    Prop where
  ok : r.success = true ∧ r.value.find? "status" = some (.str "ok") ↔
    name ∈ before ∧ name ∉ after
  notLoaded : r.value.find? "code" = some (.str "MODULE_NOT_LOADED") ↔ name ∉ before
  listed : r.success = true → (r.value.find? "dependents_unloaded").isSome = true
  dependents : ∀ v, r.value.find? "dependents_unloaded" = some v →
    ∃ xs, v = names xs ∧ ∀ x, x ∈ xs ↔ x ≠ name ∧ x ∈ before ∧ x ∉ after

/-! ## 2. What is reported -/

/-- The reply, from the loaded sets around the call. -/
def unloadReply (name : String) (before after : List String) : StdLogosResult :=
  if after.contains name then
    { success := false
      value := .obj [("code", .str "MODULE_NOT_LOADED"),
        ("message", .str ("Module '" ++ name ++ "' is not loaded.")), ("status", .str "error")]
      error := "Module '" ++ name ++ "' is not loaded." }
  else
    { success := true
      value := .obj [("dependents_unloaded",
          names (before.filter fun x => x != name && !after.contains x)),
        ("module", .str name), ("status", .str "ok")] }

section Unloading

variable {env : Env} {name : String} {before after : List String}

/-- An unload always answers, and its answer is made of the two loaded sets. -/
theorem exec_unloadModule (name : String) (withDependents : Bool) (w : World) :
    (unloadModule env name withDependents).exec w =
      (.ok (unloadReply name w.loaded (w.after env (.unload name withDependents)).loaded),
        w.after env (.unload name withDependents)) := by
  unfold unloadModule getLoadedModuleNames unloadReply
  rw [Prog.exec_bind_of_ok (exec_loadedModules w),
    Prog.exec_bind_of_ok (exec_logosCoreUnloadModule name withDependents w),
    Prog.exec_bind_of_ok (exec_loadedModules _)]
  split <;> rfl

/-- The others that went are all listed, and nothing else is. -/
theorem mem_dependents {x : String} :
    x ∈ before.filter (fun x => x != name && !after.contains x) ↔
      x ≠ name ∧ x ∈ before ∧ x ∉ after := by
  simp only [List.mem_filter, Bool.and_eq_true, bne_iff_ne, ne_eq, Bool.not_eq_true',
    List.contains_eq_mem, decide_eq_false_iff_not]
  exact ⟨fun ⟨hbefore, hne, hafter⟩ => ⟨hne, hbefore, hafter⟩,
    fun ⟨hne, hbefore, hafter⟩ => ⟨hbefore, hne, hafter⟩⟩

/-- The reply is right exactly when the module changed sides. -/
theorem reportsUnload_iff :
    ReportsUnload name before after (unloadReply name before after) ↔
      (name ∈ before ↔ name ∉ after) := by
  by_cases hafter : name ∈ after
  · have hreply : unloadReply name before after =
        { success := false
          value := .obj [("code", .str "MODULE_NOT_LOADED"),
            ("message", .str ("Module '" ++ name ++ "' is not loaded.")),
            ("status", .str "error")]
          error := "Module '" ++ name ++ "' is not loaded." } :=
      if_pos (List.contains_iff_mem.mpr hafter)
    rw [hreply]
    constructor
    · intro h
      have hbefore : name ∉ before := h.notLoaded.mp rfl
      exact ⟨fun hmem => absurd hmem hbefore, fun hnot => absurd hafter hnot⟩
    · intro h
      have hbefore : name ∉ before := fun hmem => h.mp hmem hafter
      refine ⟨⟨fun hok => ?_, fun hmoved => ?_⟩, ⟨fun _ => hbefore, fun _ => rfl⟩, nofun, nofun⟩
      · cases hok.1
      · exact absurd hmoved.1 hbefore
  · have hreply : unloadReply name before after =
        { success := true
          value := .obj [("dependents_unloaded",
              names (before.filter fun x => x != name && !after.contains x)),
            ("module", .str name), ("status", .str "ok")] } :=
      if_neg fun h => hafter (List.contains_iff_mem.mp h)
    rw [hreply]
    constructor
    · intro h
      have hbefore : name ∈ before := (h.ok.mp ⟨rfl, rfl⟩).1
      exact ⟨fun _ => hafter, fun _ => hbefore⟩
    · intro h
      have hbefore : name ∈ before := h.mpr hafter
      refine ⟨⟨fun _ => ⟨hbefore, hafter⟩, fun _ => ⟨rfl, rfl⟩⟩,
        ⟨fun hcode => ?_, fun hnot => absurd hbefore hnot⟩, fun _ => rfl, ?_⟩
      · cases hcode
      · rintro v ⟨⟩
        exact ⟨_, rfl, fun x => mem_dependents⟩

/-- **When an unload reports what happened**: whatever the runtime does and whether or not
dependents go too, exactly when the module was loaded and is not afterwards, or was not and is. -/
theorem unload_reports_iff (env : Env) (w : World) (name : String) (withDependents : Bool) :
    ∃ r, (unloadModule env name withDependents).exec w =
        (.ok r, w.after env (.unload name withDependents)) ∧
      (ReportsUnload name w.loaded (w.after env (.unload name withDependents)).loaded r ↔
        (name ∈ w.loaded ↔ name ∉ (w.after env (.unload name withDependents)).loaded)) :=
  ⟨_, exec_unloadModule name withDependents w, reportsUnload_iff⟩

/-- A runtime that stops nothing: it knows no such module, or refuses while dependents run. -/
def stopsNothing : Env where
  reply _ := .error "not called"
  unload _ loaded _ _ := loaded
  load _ loaded _ := (false, loaded)
  dump _ := ""

/-- A library that something depends on stays loaded and is reported as not loaded; a module that
is not loaded is reported as unloaded. -/
theorem unloads_misreported :
    (∃ r, ((unloadModule stopsNothing "lib" false).exec ⟨["app", "lib"], 0, []⟩).1 = .ok r ∧
      ¬ ReportsUnload "lib" ["app", "lib"] ["app", "lib"] r) ∧
    ∃ r, ((unloadModule stopsNothing "ghost" true).exec ⟨["app", "lib"], 0, []⟩).1 = .ok r ∧
      ¬ ReportsUnload "ghost" ["app", "lib"] ["app", "lib"] r := by
  constructor
  · refine ⟨_, congrArg Prod.fst (exec_unloadModule _ _ _), fun h => ?_⟩
    exact absurd (h.notLoaded.mp rfl) (by decide)
  · refine ⟨_, congrArg Prod.fst (exec_unloadModule _ _ _), fun h => ?_⟩
    exact absurd (h.ok.mp ⟨rfl, rfl⟩).1 (by decide)

end Unloading

end Logosctl.CoreService
